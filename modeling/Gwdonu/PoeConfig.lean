-- The PoE table in the configuration file. The default table is saved as nothing, and a
-- restore copies as many bytes as the file says.
import Gwdonu.ConfRoundTrip
import Gwdonu.Poe

namespace gwdonu.poe_config

open oam (Mem bytes)
open conf_file poe

/-! ## The program -/

def GW_CONF_TYPE_POE_CONFIG : Int32 := 2

/-- The size of `gucPoeDisablePerPort`. -/
def tableSize : Nat := NUM_PORTS_PER_SYSTEM - 1

/-- `memset` of the table, with the memory behind it as it was. -/
def memset (m : Mem) (c : UInt8) : Mem := fun k => if k < tableSize then c else m k

/-- `gucPoedefaultconfig`, which `gw_poe_config_init` fills. -/
def gucPoedefaultconfig : List UInt8 := List.replicate tableSize 1

/-- `mal` is whether `malloc` has memory for the bytes. -/
def gw_poe_config_showrun (mal : Bool) (gucPoeDisablePerPort : Mem) : Option (List UInt8) :=
  if mal then
    if bytes gucPoeDisablePerPort 0 tableSize ≠ gucPoedefaultconfig then some (bytes gucPoeDisablePerPort 0 tableSize)
    else none
  else none

/-- `memcpy` does not know the size of the table. -/
def gw_poe_config_restore (gucPoeDisablePerPort : Mem) (len : UInt32) (pv : List UInt8) : Mem :=
  splice gucPoeDisablePerPort 0 (pv.take len.toNat)

/-- The other handlers that are registered, before and after that of the table. `func_r` is
the pointer to `gw_poe_config_restore`. -/
structure Setup where
  before : List gw_conf_handle_t
  after : List gw_conf_handle_t
  func_r : Nat
  distinct : ((before ++ after).map gw_conf_handle_t.type).Nodup
  types : ∀ p ∈ before ++ after, p.type ≠ GW_CONF_TYPE_POE_CONFIG
  funcs : ∀ p ∈ before ++ after, p.func_r ≠ func_r

def Setup.poe (s : Setup) (mal : Bool) (table : Mem) : gw_conf_handle_t :=
  ⟨GW_CONF_TYPE_POE_CONFIG, gw_poe_config_showrun mal table, s.func_r⟩

def Setup.handlers (s : Setup) (mal : Bool) (table : Mem) : Handlers where
  handle_list := s.before ++ s.poe mal table :: s.after
  distinct := by
    rw [List.map_append, List.map_cons, List.nodup_middle, List.nodup_cons, ← List.map_append]
    refine ⟨fun hmem => ?_, s.distinct⟩
    obtain ⟨p, hp, htype⟩ := List.mem_map.mp hmem
    exact s.types p hp htype

/-- The table after the calls of a restore. -/
def restored (func_r : Nat) (cs : List Restored) (table : Mem) : Mem :=
  cs.foldl (fun table c => if c.func_r = func_r then gw_poe_config_restore table c.length c.data else table) table

/-- The handler is registered already, so `gw_poe_config_init` only fills the table. -/
def gw_poe_config_init (mal : Bool) (s : Setup) (table : Mem) : Mem × Handlers :=
  (memset table 1, (gw_register_conf_handlers mal (s.handlers mal (memset table 1)) (s.poe mal (memset table 1))).1)

theorem register_conflict (mal mal' : Bool) (s : Setup) (table : Mem) :
    (gw_register_conf_handlers mal (s.handlers mal' table) (s.poe mal' table)).1 = s.handlers mal' table := by
  have hfind : (gw_lst_find (s.handlers mal' table).handle_list (s.poe mal' table).type.toUInt32).isSome = true := by
    have hmem : s.poe mal' table ∈ (s.handlers mal' table).handle_list :=
      List.mem_append_right _ List.mem_cons_self
    rw [find_eq hmem]
    rfl
  rw [gw_register_conf_handlers]
  split_ifs with hmal hnone
  · rfl
  · rw [hfind] at hnone
    cases hnone
  · rfl

/-! ## The laws -/

/-- After a save, a restart and a restore, the table is as it was. -/
def Survives (s : Setup) (m mal' : Bool) (table : Mem) (file : Memory) (mal : UInt32 → Bool)
    (iv type length : UInt32) : Prop :=
  ∃ n cs, gw_conf_restore (gw_poe_config_init mal' s table).2 mal (gw_conf_save (s.handlers m table) file 1)
      iv type length n = some cs ∧
    ∀ k < tableSize, restored s.func_r cs (gw_poe_config_init mal' s table).1 k = table k

/-- Read as TLVs from here on, the bytes come to the end, and these are the ones for the table. -/
inductive OldTables (mal : UInt32 → Bool) (pf : gw_conf_file_t) : Reading → List (List UInt8) → Prop
  | ends (r : Reading) : pf.len ≤ r.offset → OldTables mal pf r []
  | cut (r : Reading) : r.offset < pf.len → pf.len < (r.head pf).offset + (r.head pf).length →
      OldTables mal pf r []
  | other (r : Reading) (l : List (List UInt8)) : r.offset < pf.len →
      (r.head pf).offset + (r.head pf).length ≤ pf.len →
      ¬ ((r.head pf).type = GW_CONF_TYPE_POE_CONFIG.toUInt32 ∧ mal (r.head pf).length = true) →
      OldTables mal pf (r.head pf).next l → OldTables mal pf r l
  | table (r : Reading) (l : List (List UInt8)) : r.offset < pf.len →
      (r.head pf).offset + (r.head pf).length ≤ pf.len →
      (r.head pf).type = GW_CONF_TYPE_POE_CONFIG.toUInt32 → mal (r.head pf).length = true →
      OldTables mal pf (r.head pf).next l →
      OldTables mal pf r (bytes pf.pval (r.head pf).offset.toNat (r.head pf).length.toNat :: l)

/-- The table with the bytes over it, one after the other. -/
def overlaid (table : Mem) (l : List (List UInt8)) : Mem := l.foldl (splice · 0 ·) table

/-- What was saved of the table comes back, or the default. -/
def comesBack (m : Bool) (mal : UInt32 → Bool) (table : Mem) : Mem :=
  if m = true ∧ mal (.ofNat tableSize) = true then table else fun _ => 1

/-- Where nothing is saved, only the default table survives; else the old bytes behind the
TLVs come to an end, and the tables among them leave it as it is. -/
def OldBytesAgree (s : Setup) (m : Bool) (table : Mem) (file : Memory) (mal : UInt32 → Bool) : Prop :=
  if tlvs (s.handlers m table).handle_list = [] then ∀ k < tableSize, table k = 1
  else ∃ old, OldTables mal (saved (s.handlers m table) file)
      ⟨8 + .ofNat (tlvs (s.handlers m table).handle_list).length, 0, 0⟩ old ∧
    ∀ k < tableSize, overlaid (comesBack m mal table) old k = table k

/-- The calls of the first `n` turns, also of a restore that does not end. -/
def restore_turns (hs : Handlers) (mal : UInt32 → Bool) (pf : gw_conf_file_t) : Nat → Reading → List Restored
  | 0, _ => []
  | n + 1, r =>
    if pf.len ≤ r.offset then []
    else
      let r := r.head pf
      if pf.len < r.offset + r.length then []
      else restore_call hs mal pf r ++ restore_turns hs mal pf n r.next

/-- Where the loop of a restore starts, if it does. -/
def firstReading (file : Memory) (iv type length : UInt32) : Option Reading :=
  let pf := vfile_open file
  let head_len := read32 pf 0 iv
  let tlv_len := read32 pf 4 head_len
  if 0 < tlv_len.toInt32 then some ⟨pf.offset + head_len, type, length⟩ else none

/-- Each copy to the table stays in its bytes, in any number of turns. -/
def CopiesInside (s : Setup) (hs : Handlers) (mal : UInt32 → Bool) (file : Memory) (iv type length : UInt32) : Prop :=
  ∀ r ∈ firstReading file iv type length, ∀ n, ∀ c ∈ restore_turns hs mal (vfile_open file) n r,
    c.func_r = s.func_r → ∀ k < c.length.toNat, k < tableSize

/-- The heads of the whole TLVs from here on. -/
inductive Comes (pf : gw_conf_file_t) : Reading → Reading → Prop
  | head (r : Reading) : r.offset < pf.len → (r.head pf).offset + (r.head pf).length ≤ pf.len →
      Comes pf r (r.head pf)
  | next (r r' : Reading) : r.offset < pf.len → (r.head pf).offset + (r.head pf).length ≤ pf.len →
      Comes pf (r.head pf).next r' → Comes pf r r'

/-- No TLV for the table has more bytes than it, and memory for them. -/
def TablesFit (mal : UInt32 → Bool) (file : Memory) (iv type length : UInt32) : Prop :=
  ∀ r ∈ firstReading file iv type length, ∀ r', Comes (vfile_open file) r r' →
    r'.type = GW_CONF_TYPE_POE_CONFIG.toUInt32 → mal r'.length = true → r'.length.toNat ≤ tableSize

/-! ## The calls for the table -/

/-- The bytes that the calls copy to the table. -/
def tables (func_r : Nat) (cs : List Restored) : List (List UInt8) :=
  (cs.filter fun c => c.func_r = func_r).map fun c => c.data.take c.length.toNat

theorem tables_append (func_r : Nat) (cs cs' : List Restored) :
    tables func_r (cs ++ cs') = tables func_r cs ++ tables func_r cs' := by
  rw [tables, List.filter_append, List.map_append, ← tables, ← tables]

theorem restored_eq (func_r : Nat) (cs : List Restored) (table : Mem) :
    restored func_r cs table = overlaid table (tables func_r cs) := by
  induction cs generalizing table with
  | nil => rfl
  | cons c cs ih =>
    have hcons : tables func_r (c :: cs) = tables func_r [c] ++ tables func_r cs :=
      tables_append func_r [c] cs
    rw [restored, List.foldl_cons, ← restored, ih, hcons, overlaid, overlaid, List.foldl_append]
    congr 1
    by_cases hfunc : c.func_r = func_r
    · simp [tables, hfunc, gw_poe_config_restore]
    · simp [tables, hfunc]

theorem tables_other {func_r : Nat} {cs : List Restored} (h : ∀ c ∈ cs, c.func_r ≠ func_r) :
    tables func_r cs = [] := by
  rw [tables, List.filter_eq_nil_iff.mpr fun c hc => by simpa using h c hc, List.map_nil]

theorem made_split (mal : UInt32 → Bool) (l l' : List gw_conf_handle_t) :
    made mal (l ++ l') = made mal l ++ made mal l' := by
  rw [made, calls, List.filterMap_append, List.filter_append, ← calls, ← calls, ← made, ← made]

theorem made_func (mal : UInt32 → Bool) {l : List gw_conf_handle_t} {func_r : Nat}
    (h : ∀ p ∈ l, p.func_r ≠ func_r) : tables func_r (made mal l) = [] := by
  refine tables_other fun c hc => ?_
  obtain ⟨p, hp, hcall⟩ := List.mem_filterMap.mp (List.mem_of_mem_filter hc)
  obtain ⟨pv, -, rfl⟩ := Option.map_eq_some_iff.mp hcall
  exact h p hp

section
variable {s : Setup} {m m' : Bool} {table table' : Mem} {file : Memory} {mal : UInt32 → Bool}

/-- Of the calls for the saved TLVs, one is for the table, if it was saved. -/
theorem tables_made : tables s.func_r (made mal (s.handlers m table).handle_list) =
    if m = true ∧ bytes table 0 tableSize ≠ gucPoedefaultconfig ∧ mal (.ofNat tableSize) = true then
      [bytes table 0 tableSize]
    else [] := by
  have hbefore := made_func mal fun p hp => s.funcs p (List.mem_append_left s.after hp)
  have hafter := made_func mal fun p hp => s.funcs p (List.mem_append_right s.before hp)
  rw [Setup.handlers, made_split, made_cons, tables_append, tables_append, hbefore, hafter, List.nil_append,
    List.append_nil]
  cases m with
  | false => simp [made, calls, gw_conf_handle_t.call, Setup.poe, gw_poe_config_showrun, tables]
  | true =>
    by_cases hdefault : bytes table 0 tableSize = gucPoedefaultconfig
    · simp [made, calls, gw_conf_handle_t.call, Setup.poe, gw_poe_config_showrun, tables, hdefault]
    · have hlen : (bytes table 0 tableSize).length = tableSize := by simp [bytes]
      cases hmal : mal (.ofNat tableSize) with
      | false =>
        simp [made, calls, gw_conf_handle_t.call, Setup.poe, gw_poe_config_showrun, tables, hdefault, hlen, hmal]
      | true =>
        simp [made, calls, gw_conf_handle_t.call, Setup.poe, gw_poe_config_showrun, tables, hdefault, hlen, hmal]
        decide

theorem poe_mem (s : Setup) (m : Bool) (table : Mem) : s.poe m table ∈ (s.handlers m table).handle_list :=
  List.mem_append_right _ List.mem_cons_self

theorem mem_handlers {p : gw_conf_handle_t} (hp : p ∈ (s.handlers m table).handle_list) :
    p = s.poe m table ∨ p ∈ s.before ++ s.after := by
  rcases List.mem_append.mp hp with hp | hp
  · exact .inr (List.mem_append_left _ hp)
  · rcases List.mem_cons.mp hp with hp | hp
    · exact .inl hp
    · exact .inr (List.mem_append_right _ hp)

variable {pf : gw_conf_file_t} {r : Reading}

/-- A TLV leads to a call for the table by its type alone. -/
theorem tables_call (hroom : r.offset + r.length ≤ pf.len) :
    tables s.func_r (restore_call (s.handlers m table) mal pf r) =
      if r.type = GW_CONF_TYPE_POE_CONFIG.toUInt32 ∧ mal r.length = true then
        [bytes pf.pval r.offset.toNat r.length.toNat]
      else [] := by
  have hread : vfile_read pf r.offset r.length = some (bytes pf.pval r.offset.toNat r.length.toNat) := by
    rw [vfile_read, if_pos (UInt32.add_comm r.length r.offset ▸ hroom)]
  by_cases htype : r.type = GW_CONF_TYPE_POE_CONFIG.toUInt32
  · have hfind : gw_lst_find (s.handlers m table).handle_list r.type = some (s.poe m table) := by
      rw [htype]
      exact find_eq (poe_mem s m table)
    rw [restore_call, hfind, hread]
    cases hmal : mal r.length with
    | false => simp [tables]
    | true => simp [tables, htype, bytes, Setup.poe]
  · rw [if_neg fun h => htype h.1]
    refine tables_other fun c hc => ?_
    unfold restore_call at hc
    split at hc
    · cases hc
    · rename_i p hp
      have hmem := List.mem_of_find?_eq_some hp
      have hfound : p.type.toUInt32 = r.type := by simpa using List.find?_some hp
      split_ifs at hc
      · rw [List.mem_singleton.mp hc]
        rcases mem_handlers hmem with rfl | hmem
        · exact absurd hfound.symm htype
        · exact s.funcs p hmem
      · cases hc

/-- The old tables are those that the loop makes its calls for. -/
theorem old_iff {l : List (List UInt8)} : OldTables mal pf r l ↔
    ∃ cs, Ends (s.handlers m table) mal pf r cs ∧ tables s.func_r cs = l := by
  constructor
  · intro h
    induction h with
    | ends r h => exact ⟨[], (ends_over h).mpr rfl, rfl⟩
    | cut r h hcut => exact ⟨[], (ends_cut h hcut).mpr rfl, rfl⟩
    | other r l h hroom hno _ ih =>
      obtain ⟨cs, hcs, hl⟩ := ih
      refine ⟨_, (ends_turn h hroom).mpr ⟨cs, rfl, hcs⟩, ?_⟩
      rw [tables_append, tables_call hroom, if_neg hno, hl, List.nil_append]
    | table r l h hroom htype hmal _ ih =>
      obtain ⟨cs, hcs, hl⟩ := ih
      refine ⟨_, (ends_turn h hroom).mpr ⟨cs, rfl, hcs⟩, ?_⟩
      rw [tables_append, tables_call hroom, if_pos ⟨htype, hmal⟩, hl, List.singleton_append]
  · rintro ⟨cs, ⟨n, hn⟩, rfl⟩
    induction n generalizing r cs with
    | zero => cases hn
    | succ n ih =>
      by_cases h : pf.len ≤ r.offset
      · obtain rfl := (ends_over h).mp ⟨_, hn⟩
        exact .ends r h
      · have hin := UInt32.not_le.mp h
        by_cases hcut : pf.len < (r.head pf).offset + (r.head pf).length
        · obtain rfl := (ends_cut hin hcut).mp ⟨_, hn⟩
          exact .cut r hin hcut
        · have hroom := UInt32.not_lt.mp hcut
          rw [restore_loop, if_neg h] at hn
          dsimp only at hn
          rw [if_neg hcut] at hn
          obtain ⟨rest, hrest, rfl⟩ := Option.map_eq_some_iff.mp hn
          rw [tables_append, tables_call hroom]
          split_ifs with htable
          · exact .table r _ hin hroom htable.1 htable.2 (ih _ hrest)
          · exact .other r _ hin hroom htable (ih _ hrest)

/-! ## The first law -/

theorem find_map_func (l : List gw_conf_handle_t) (l' : List gw_conf_handle_t) (p p' : gw_conf_handle_t)
    (htype : p.type = p'.type) (hfunc : p.func_r = p'.func_r) (type : UInt32) :
    (gw_lst_find (l ++ p :: l') type).map gw_conf_handle_t.func_r =
      (gw_lst_find (l ++ p' :: l') type).map gw_conf_handle_t.func_r := by
  rw [gw_lst_find, gw_lst_find, List.find?_append, List.find?_append, List.find?_cons, List.find?_cons, htype]
  cases l.find? fun p => p.type.toUInt32 = type with
  | some q => rfl
  | none => by_cases h : p'.type.toUInt32 = type <;> simp [h, hfunc]

/-- A restore does not ask what the save functions give. -/
theorem restore_congr {hs hs' : Handlers} (h : ∀ type, (gw_lst_find hs.handle_list type).map gw_conf_handle_t.func_r =
      (gw_lst_find hs'.handle_list type).map gw_conf_handle_t.func_r)
    (file : Memory) (iv type length : UInt32) (n : Nat) :
    gw_conf_restore hs mal file iv type length n = gw_conf_restore hs' mal file iv type length n := by
  have hcall (pf : gw_conf_file_t) (r : Reading) : restore_call hs mal pf r = restore_call hs' mal pf r := by
    have hr := h r.type
    unfold restore_call
    cases hfind : gw_lst_find hs.handle_list r.type <;> cases hfind' : gw_lst_find hs'.handle_list r.type <;>
      simp_all
  have hloop (pf : gw_conf_file_t) (n : Nat) (r : Reading) :
      restore_loop hs mal pf n r = restore_loop hs' mal pf n r := by
    induction n generalizing r with
    | zero => rfl
    | succ n ih => rw [restore_loop, restore_loop]; simp only [ih, hcall]
  rw [gw_conf_restore, gw_conf_restore]
  simp only [hloop]

theorem overlaid_append (table : Mem) (l l' : List (List UInt8)) :
    overlaid table (l ++ l') = overlaid (overlaid table l) l' := List.foldl_append

theorem overlaid_congr (l : List (List UInt8)) (h : ∀ k < tableSize, table k = table' k) :
    ∀ k < tableSize, overlaid table l k = overlaid table' l k := by
  induction l generalizing table table' with
  | nil => exact h
  | cons b l ih =>
    refine ih fun k hk => ?_
    simp only [splice, h k hk]

theorem splice_bytes (m m' : Mem) {n k : Nat} (hk : k < n) : splice m 0 (bytes m' 0 n) k = m' k := by
  simp [splice, bytes, hk]

theorem default_iff : bytes table 0 tableSize = gucPoedefaultconfig ↔ ∀ k < tableSize, table k = 1 := by
  rw [gucPoedefaultconfig, List.eq_replicate_iff]
  simp [bytes]

/-- The saved TLVs bring the table back, or leave the default. -/
theorem overlaid_made (s : Setup) (m : Bool) (table : Mem) (mal : UInt32 → Bool) :
    ∀ k < tableSize, overlaid (memset table 1) (tables s.func_r (made mal (s.handlers m table).handle_list)) k =
      comesBack m mal table k := by
  intro k hk
  rw [tables_made, comesBack]
  by_cases hdefault : bytes table 0 tableSize = gucPoedefaultconfig
  · rw [if_neg fun h => h.2.1 hdefault]
    have hone := default_iff.mp hdefault k hk
    have hset : overlaid (memset table 1) [] k = 1 := if_pos hk
    rw [hset]
    split_ifs
    · exact hone.symm
    · rfl
  · have hiff : (m = true ∧ bytes table 0 tableSize ≠ gucPoedefaultconfig ∧ mal (.ofNat tableSize) = true) ↔
        m = true ∧ mal (.ofNat tableSize) = true := by
      rw [and_iff_right hdefault]
    by_cases hmem : m = true ∧ mal (.ofNat tableSize) = true
    · rw [if_pos (hiff.mpr hmem), if_pos hmem]
      exact splice_bytes _ _ hk
    · rw [if_neg (mt hiff.mp hmem), if_neg hmem]
      exact if_pos hk

theorem behind_offset {hs : Handlers} (hfit : 8 + (tlvs hs.handle_list).length ≤ pf.len.toNat) :
    ((8 : UInt32) + .ofNat (tlvs hs.handle_list).length).toNat = 8 + (tlvs hs.handle_list).length := by
  have hlt := pf.len.toNat_lt
  apply offset_add
  change 8 + _ < _
  omega

theorem survives_iff (h : Fits (s.handlers m table) file) (mal' : Bool) (iv type length : UInt32) :
    Survives s m mal' table file mal iv type length ↔ OldBytesAgree s m table file mal := by
  have hrestart : (gw_poe_config_init mal' s table).2 = s.handlers mal' (memset table 1) :=
    register_conflict mal' mal' s (memset table 1)
  have hrestore := @restore_congr mal (s.handlers mal' (memset table 1)) (s.handlers m table)
    fun type => find_map_func s.before s.after (s.poe mal' (memset table 1)) (s.poe m table) rfl rfl type
  rw [Survives, OldBytesAgree]
  simp only [hrestart, hrestore, restore_eq h, restored_eq]
  by_cases hnil : tlvs (s.handlers m table).handle_list = []
  · simp only [if_pos hnil]
    refine ⟨?_, fun hone => ⟨0, [], rfl, fun k hk => ?_⟩⟩
    · rintro ⟨n, cs, hcs, hsame⟩ k hk
      obtain rfl := Option.some.inj hcs
      rw [← hsame k hk]
      exact if_pos hk
    · rw [hone k hk]
      exact if_pos hk
  · simp only [if_neg hnil]
    have hlen : (saved (s.handlers m table) file).len.toNat = file.size.toNatClampNeg := len_eq _
    have hfit : 8 + (tlvs (s.handlers m table).handle_list).length ≤ (saved (s.handlers m table) file).len.toNat := by
      rw [hlen]
      exact h
    obtain ⟨r', hr', hregs, hends⟩ := ends_tlvs mal (List.Subset.refl (s.handlers m table).handle_list)
      (r := ⟨8, type, length⟩) (saved_holds (s.handlers m table) file).2.2 hfit
    have hend := behind_offset hfit
    -- behind the TLVs, the loop reads what the old bytes are read as from there on
    have hrest (cs : List Restored) : Ends (s.handlers m table) mal (saved (s.handlers m table) file) r' cs ↔
        Ends (s.handlers m table) mal (saved (s.handlers m table) file)
          ⟨8 + .ofNat (tlvs (s.handlers m table).handle_list).length, 0, 0⟩ cs := by
      refine ends_congr hr'.symm saved_small (hregs (.inl (mt calls_nil.mp hnil))) ?_
      change 0 + 8 ≤ _
      rw [hend]
      exact Nat.le_add_right 8 _
    have hback := fun (cs : List Restored) (k : Nat) (hk : k < tableSize) =>
      overlaid_congr (tables s.func_r cs) (overlaid_made s m table mal) k hk
    constructor
    · rintro ⟨n, cs, hcs, hsame⟩
      obtain ⟨rest, rfl, hafter⟩ := (hends cs).mp ⟨n, hcs⟩
      refine ⟨tables s.func_r rest, old_iff.mpr ⟨rest, (hrest rest).mp hafter, rfl⟩, fun k hk => ?_⟩
      rw [← hback rest k hk, ← overlaid_append, ← tables_append]
      exact hsame k hk
    · rintro ⟨old, hold, hsame⟩
      have htables : ∃ cs, Ends (s.handlers m table) mal (saved (s.handlers m table) file)
          ⟨8 + .ofNat (tlvs (s.handlers m table).handle_list).length, 0, 0⟩ cs ∧ tables s.func_r cs = old :=
        old_iff.mp hold
      obtain ⟨rest, hafter, rfl⟩ := htables
      obtain ⟨n, hn⟩ := (hends _).mpr ⟨rest, rfl, (hrest rest).mpr hafter⟩
      refine ⟨n, _, hn, fun k hk => ?_⟩
      rw [tables_append, overlaid_append]
      exact (hback rest k hk).trans (hsame k hk)

/-! ## The second law -/

/-- The turns are those of the restore. -/
theorem restore_turns_eq {hs : Handlers} {n : Nat} {cs : List Restored} (h : restore_loop hs mal pf n r = some cs) :
    restore_turns hs mal pf n r = cs := by
  induction n generalizing r cs with
  | zero => cases h
  | succ n ih =>
    rw [restore_loop] at h
    rw [restore_turns]
    dsimp only at h ⊢
    split_ifs at h ⊢
    · exact Option.some.inj h
    · exact Option.some.inj h
    · obtain ⟨rest, hrest, rfl⟩ := Option.map_eq_some_iff.mp h
      rw [ih hrest]

theorem mem_call {c : Restored} (hc : c ∈ restore_call (s.handlers m table) mal pf r) (hfunc : c.func_r = s.func_r) :
    r.type = GW_CONF_TYPE_POE_CONFIG.toUInt32 ∧ mal r.length = true ∧ c.length = r.length := by
  unfold restore_call at hc
  split at hc
  · cases hc
  · rename_i p hp
    have hmem := List.mem_of_find?_eq_some hp
    have hfound : p.type.toUInt32 = r.type := by simpa using List.find?_some hp
    split_ifs at hc with hmal
    · obtain rfl := List.mem_singleton.mp hc
      rcases mem_handlers hmem with rfl | hmem
      · exact ⟨hfound.symm, hmal, rfl⟩
      · exact absurd hfunc (s.funcs p hmem)
    · cases hc

theorem call_mem (s : Setup) (m : Bool) (pf : gw_conf_file_t) (htype : r.type = GW_CONF_TYPE_POE_CONFIG.toUInt32)
    (hmal : mal r.length = true) :
    ∃ c ∈ restore_call (s.handlers m table) mal pf r, c.func_r = s.func_r ∧ c.length = r.length := by
  have hfind : gw_lst_find (s.handlers m table).handle_list r.type = some (s.poe m table) := by
    rw [htype]
    exact find_eq (poe_mem s m table)
  rw [restore_call, hfind]
  simp [hmal, Setup.poe]

theorem comes_of_turn {n : Nat} {c : Restored} (hc : c ∈ restore_turns (s.handlers m table) mal pf n r)
    (hfunc : c.func_r = s.func_r) : ∃ r', Comes pf r r' ∧ r'.type = GW_CONF_TYPE_POE_CONFIG.toUInt32 ∧
      mal r'.length = true ∧ c.length = r'.length := by
  induction n generalizing r with
  | zero => cases hc
  | succ n ih =>
    rw [restore_turns] at hc
    dsimp only at hc
    split_ifs at hc with hout hcut
    · cases hc
    · cases hc
    · have hin := UInt32.not_le.mp hout
      have hroom := UInt32.not_lt.mp hcut
      rcases List.mem_append.mp hc with hc | hc
      · exact ⟨r.head pf, .head r hin hroom, mem_call hc hfunc⟩
      · obtain ⟨r', hr', hrest⟩ := ih hc
        exact ⟨r', .next r r' hin hroom hr', hrest⟩

theorem turn_of_comes (s : Setup) (m : Bool) (mal : UInt32 → Bool) {r' : Reading} (h : Comes pf r r')
    (htype : r'.type = GW_CONF_TYPE_POE_CONFIG.toUInt32) (hmal : mal r'.length = true) :
    ∃ n, ∃ c ∈ restore_turns (s.handlers m table) mal pf n r, c.func_r = s.func_r ∧ c.length = r'.length := by
  induction h with
  | head r hin hroom =>
    obtain ⟨c, hc, hsame⟩ := call_mem s m pf htype hmal
    refine ⟨1, c, ?_, hsame⟩
    rw [restore_turns, if_neg (UInt32.not_le.mpr hin)]
    dsimp only
    rw [if_neg (UInt32.not_lt.mpr hroom)]
    exact List.mem_append_left _ hc
  | next r r' hin hroom _ ih =>
    obtain ⟨n, c, hc, hsame⟩ := ih htype hmal
    refine ⟨n + 1, c, ?_, hsame⟩
    rw [restore_turns, if_neg (UInt32.not_le.mpr hin)]
    dsimp only
    rw [if_neg (UInt32.not_lt.mpr hroom)]
    exact List.mem_append_right _ hc

theorem copiesInside_iff (iv type length : UInt32) :
    CopiesInside s (s.handlers m table) mal file iv type length ↔ TablesFit mal file iv type length := by
  refine forall₂_congr fun r _ => ⟨?_, ?_⟩
  · intro h r' hr' htype hmal
    obtain ⟨n, c, hc, hfunc, hlength⟩ := turn_of_comes s m mal hr' htype hmal
    have hcopy := h n c hc hfunc
    rw [hlength] at hcopy
    by_contra hlong
    exact absurd (hcopy tableSize (Nat.not_le.mp hlong)) (Nat.lt_irrefl _)
  · intro h n c hc hfunc k hk
    obtain ⟨r', hr', htype, hmal, hlength⟩ := comes_of_turn hc hfunc
    rw [hlength] at hk
    exact hk.trans_le (h r' hr' htype hmal)

end

/-- One other handler, of the type 1. -/
def oneOther : Setup where
  before := [⟨1, some [7], 4096⟩]
  after := []
  func_r := 8192
  distinct := by simp
  types := by simp [GW_CONF_TYPE_POE_CONFIG]
  funcs := by simp

/-- The bytes 17 to 49 are a table of zeros that an earlier save left. -/
def oldFile : Memory := ⟨fun k => if k = 20 then 2 else if k = 24 then 25 else 0, 50, by decide⟩

/-- A file with one TLV for the table, of 26 bytes. -/
def longFile : Memory :=
  ⟨fun k => if k = 3 then 8 else if k = 7 then 34 else if k = 11 then 2 else if k = 15 then 26 else 0, 42, by decide⟩

/-- The default table is lost to an older one, and a long TLV is copied over the end. -/
theorem an_old_table_comes_back_and_a_long_one_overruns :
    ¬ Survives oneOther true true (fun _ => 1) oldFile (fun _ => true) 0 0 0 ∧
      ¬ CopiesInside oneOther (oneOther.handlers true fun _ => 1) (fun _ => true) longFile 0 0 0 := by
  refine ⟨?_, ?_⟩
  · have hfit : Fits (oneOther.handlers true fun _ => 1) oldFile := by decide
    have hsome : tlvs (oneOther.handlers true fun _ => 1).handle_list ≠ [] := by decide
    rw [survives_iff hfit, OldBytesAgree, if_neg hsome]
    rintro ⟨old, hold, hsame⟩
    have htables : ∃ cs, Ends (oneOther.handlers true fun _ => 1) (fun _ => true)
        (saved (oneOther.handlers true fun _ => 1) oldFile)
        ⟨8 + .ofNat (tlvs (oneOther.handlers true fun _ => 1).handle_list).length, 0, 0⟩ cs ∧
          tables oneOther.func_r cs = old := old_iff.mp hold
    obtain ⟨cs, ⟨n, hn⟩, rfl⟩ := htables
    have hfound : restore_loop (oneOther.handlers true fun _ => 1) (fun _ => true)
        (saved (oneOther.handlers true fun _ => 1) oldFile) 2
        ⟨8 + .ofNat (tlvs (oneOther.handlers true fun _ => 1).handle_list).length, 0, 0⟩ =
          some [⟨8192, 25, List.replicate 25 0⟩] := by decide +kernel
    rw [loop_unique hn hfound] at hsame
    exact absurd (hsame 0 (by decide)) (by decide)
  · rw [copiesInside_iff]
    intro h
    have hlong := h ⟨8, 0, 0⟩ rfl _ (.head _ (by decide) (by decide)) (by decide) rfl
    exact absurd hlong (by decide)

/-- The table survives just when the old bytes agree with it, and the copies of a restore
stay inside just when the TLVs for the table fit. -/
theorem the_table_survives_iff_the_old_bytes_agree (s : Setup) (m mal' : Bool) (table : Mem) (file : Memory)
    (h : Fits (s.handlers m table) file) (mal : UInt32 → Bool) (iv type length : UInt32) (any : Memory) :
    (Survives s m mal' table file mal iv type length ↔ OldBytesAgree s m table file mal) ∧
    (CopiesInside s (s.handlers m table) mal any iv type length ↔ TablesFit mal any iv type length) :=
  ⟨survives_iff h mal' iv type length, copiesInside_iff iv type length⟩

theorem a_table_in_a_fresh_file_survives :
    Survives oneOther true true (fun _ => 0) ⟨fun _ => 0, 50, by decide⟩ (fun _ => true) 0 0 0 := by
  have hfit : Fits (oneOther.handlers true fun _ => 0) ⟨fun _ => 0, 50, by decide⟩ := by decide
  refine (the_table_survives_iff_the_old_bytes_agree oneOther true true (fun _ => 0) ⟨fun _ => 0, 50, by decide⟩ hfit
    (fun _ => true) 0 0 0 oldFile).1.mpr ?_
  have hsome : tlvs (oneOther.handlers true fun _ => 0).handle_list ≠ [] := by decide
  rw [OldBytesAgree, if_neg hsome]
  exact ⟨[], .ends _ (by decide), fun _ _ => rfl⟩

end gwdonu.poe_config
