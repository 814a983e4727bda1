-- The law of the configuration file: what was saved is restored, when the bytes
-- that an earlier save left behind the TLVs lead to no handler.
import Gwdonu.ConfFile
import Mathlib.Data.List.Nodup

namespace gwdonu.conf_file

open oam

/-! ## The laws -/

/-- A TLV as it lies in the file. -/
def tlv (type : Int32) (pv : List UInt8) : List UInt8 :=
  store32 type.toUInt32 ++ store32 (.ofNat pv.length) ++ pv

def gw_conf_handle_t.tlv (p : gw_conf_handle_t) : List UInt8 :=
  match p.func_s with
  | none => []
  | some pv => conf_file.tlv p.type pv

def tlvs (l : List gw_conf_handle_t) : List UInt8 := l.flatMap gw_conf_handle_t.tlv

/-- The bytes of the file after a save: a head, the TLVs, and what was there before. -/
def layout (hs : Handlers) (m : Mem) : Mem :=
  splice m 0 (store32 8 ++ store32 (.ofNat (tlvs hs.handle_list).length) ++ tlvs hs.handle_list)

/-- The call that the bytes of this handler are for. -/
def gw_conf_handle_t.call (p : gw_conf_handle_t) : Option Restored :=
  p.func_s.map fun pv => ⟨p.func_r, .ofNat pv.length, pv⟩

/-- The calls that give back what was saved. -/
def calls (l : List gw_conf_handle_t) : List Restored := l.filterMap gw_conf_handle_t.call

/-- Read as TLVs from here on, the bytes come to the end of the file, or to a TLV
that the end cuts off, and no TLV before has a registered type and memory to be had. -/
inductive Silent (hs : Handlers) (mal : UInt32 → Bool) (pf : gw_conf_file_t) : Reading → Prop
  | ends (r : Reading) : pf.len ≤ r.offset → Silent hs mal pf r
  | cut (r : Reading) : r.offset < pf.len → pf.len < (r.head pf).offset + (r.head pf).length →
      Silent hs mal pf r
  | skips (r : Reading) : r.offset < pf.len → (r.head pf).offset + (r.head pf).length ≤ pf.len →
      ((gw_lst_find hs.handle_list (r.head pf).type).isSome → mal (r.head pf).length = false) →
      Silent hs mal pf (r.head pf).next → Silent hs mal pf r

/-! ## Writing -/

section
variable {m : Mem} {i : Nat} {a b : List UInt8}

theorem splice_append : splice (splice m i a) (i + a.length) b = splice m i (a ++ b) := by
  funext k
  unfold splice
  by_cases hb : i + a.length ≤ k
  · have hi : i ≤ k := by omega
    simp only [if_pos hb, if_pos hi]
    rw [List.getElem?_append_right (by omega), List.getElem?_eq_none (l := a) (by omega)]
    simp [Nat.sub_sub]
  · by_cases hi : i ≤ k
    · simp only [if_neg hb, if_pos hi]
      rw [List.getElem?_append_left (by omega)]
    · simp only [if_neg hb, if_neg hi]

theorem splice_prepend : splice (splice m (i + a.length) b) i a = splice m i (a ++ b) := by
  funext k
  unfold splice
  by_cases hb : i + a.length ≤ k
  · have hi : i ≤ k := by omega
    simp only [if_pos hb, if_pos hi]
    rw [List.getElem?_append_right (by omega), List.getElem?_eq_none (l := a) (by omega)]
    simp [Nat.sub_sub]
  · by_cases hi : i ≤ k
    · have ha : k - i < a.length := by omega
      simp only [if_neg hb, if_pos hi]
      rw [List.getElem?_append_left ha, List.getElem?_eq_getElem ha]
    · simp only [if_neg hb, if_neg hi]

theorem splice_holds : Holds (splice m i a) i a := by
  unfold Holds bytes splice
  apply List.ext_getElem
  · simp
  · intro k hk ha
    simp [ha]

end

section
variable {pf : gw_conf_file_t} {offset : UInt32}

theorem add_le {len : UInt32} (h : offset.toNat + len.toNat ≤ pf.len.toNat) :
    len + offset ≤ pf.len := by
  have hlen := pf.len.toNat_lt
  rw [UInt32.le_iff_toNat_le, UInt32.toNat_add, Nat.mod_eq_of_lt (by omega)]
  omega

theorem write_eq {val : List UInt8} {len : UInt32} (hlen : len.toNat = val.length)
    (h : offset.toNat + val.length ≤ pf.len.toNat) :
    vfile_write pf offset len val = { pf with pval := splice pf.pval offset.toNat val } := by
  rw [vfile_write, if_pos (add_le (by omega)), hlen, List.take_length]

theorem read_eq {len : UInt32} (h : offset.toNat + len.toNat ≤ pf.len.toNat) :
    vfile_read pf offset len = some (bytes pf.pval offset.toNat len.toNat) := by
  rw [vfile_read, if_pos (add_le h)]

theorem load_bytes (m : Mem) (i : Nat) : load32 (memory (bytes m i 4)) 0 = load32 m i := rfl

theorem read32_eq {old x : UInt32} (h : offset.toNat + 4 ≤ pf.len.toNat)
    (hx : Holds pf.pval offset.toNat (store32 x)) : read32 pf offset old = x := by
  rw [read32, read_eq h]
  exact (load_bytes _ _).trans (load32_store32 hx)

theorem offset_add {n : Nat} (h : offset.toNat + n < 2 ^ 32) :
    (offset + .ofNat n).toNat = offset.toNat + n := by
  rw [UInt32.toNat_add, UInt32.toNat_ofNat', Nat.mod_eq_of_lt (a := n) (by omega),
    Nat.mod_eq_of_lt (by omega)]

/-! ## Saving -/

/-- The file after bytes that are written at its offset. -/
def gw_conf_file_t.append (pf : gw_conf_file_t) (val : List UInt8) : gw_conf_file_t :=
  ⟨pf.offset + .ofNat val.length, splice pf.pval pf.offset.toNat val, pf.len⟩

theorem append_eq {val : List UInt8} (h : pf.offset.toNat + val.length ≤ pf.len.toNat) :
    (vfile_write pf pf.offset (.ofNat val.length) val).skip (.ofNat val.length) = pf.append val := by
  have hlen := pf.len.toNat_lt
  have hval : (UInt32.ofNat val.length).toNat = val.length :=
    UInt32.toNat_ofNat_of_lt' (Nat.lt_of_le_of_lt (by omega) hlen)
  rw [write_eq hval h]
  rfl

theorem append_offset {a : List UInt8} (h : pf.offset.toNat + a.length ≤ pf.len.toNat) :
    (pf.append a).offset.toNat = pf.offset.toNat + a.length :=
  offset_add (Nat.lt_of_le_of_lt h pf.len.toNat_lt)

theorem append_append {a b : List UInt8} (h : pf.offset.toNat + a.length ≤ pf.len.toNat) :
    (pf.append a).append b = pf.append (a ++ b) := by
  have hoffset := append_offset h
  unfold gw_conf_file_t.append at hoffset ⊢
  dsimp only at hoffset ⊢
  rw [hoffset, splice_append, List.length_append, UInt32.ofNat_add, UInt32.add_assoc]

@[simp] theorem store32_length (x : UInt32) : (store32 x).length = 4 := rfl

@[simp] theorem tlv_length (type : Int32) (pv : List UInt8) :
    (tlv type pv).length = 8 + pv.length := by
  rw [tlv, List.length_append, List.length_append, store32_length, store32_length]

/-- The three writes of a turn lay one TLV down. -/
theorem put_eq {type : Int32} {pv : List UInt8}
    (h : pf.offset.toNat + (8 + pv.length) ≤ pf.len.toNat) :
    pf.put type pv = pf.append (tlv type pv) := by
  let len : UInt32 := .ofNat pv.length
  have htype : pf.offset.toNat + (store32 type.toUInt32).length ≤ pf.len.toNat := by
    rw [store32_length]
    omega
  have hhead : (pf.append (store32 type.toUInt32)).offset.toNat + (store32 len).length ≤
      pf.len.toNat := by
    rw [append_offset htype, store32_length, store32_length]
    omega
  have hpv : ((pf.append (store32 type.toUInt32)).append (store32 len)).offset.toNat + pv.length ≤
      pf.len.toNat := by
    rw [append_offset hhead, append_offset htype, store32_length, store32_length]
    omega
  calc pf.put type pv
      = ((pf.append (store32 type.toUInt32)).append (store32 len)).append pv := by
        rw [← append_eq hpv, ← append_eq hhead, ← append_eq htype]
        rfl
    _ = pf.append (tlv type pv) := by
        rw [append_append htype, append_append]
        · rfl
        · rw [List.length_append, store32_length, store32_length]
          omega

theorem scan_eq {l : List gw_conf_handle_t} (h : pf.offset.toNat + (tlvs l).length ≤ pf.len.toNat) :
    gw_conf_save_scan l pf = pf.append (tlvs l) := by
  induction l generalizing pf with
  | nil =>
    have hsame : splice pf.pval pf.offset.toNat [] = pf.pval := by
      funext k
      simp [splice]
    simp [gw_conf_save_scan, tlvs, gw_conf_file_t.append, hsame]
  | cons p l ih =>
    have hlen := pf.len.toNat_lt
    rw [tlvs, List.flatMap_cons, List.length_append] at h
    cases hp : p.func_s with
    | none =>
      have hnil : p.tlv = [] := by rw [gw_conf_handle_t.tlv, hp]
      rw [gw_conf_save_scan, hp, tlvs, List.flatMap_cons, hnil]
      exact ih (by rw [tlvs]; omega)
    | some pv =>
      have htlv : p.tlv = tlv p.type pv := by rw [gw_conf_handle_t.tlv, hp]
      rw [htlv, tlv_length] at h
      have hroom : ¬ pf.len < pf.offset + .ofNat pv.length := by
        rw [UInt32.not_lt, UInt32.le_iff_toNat_le, offset_add (by omega)]
        omega
      rw [gw_conf_save_scan, hp, tlvs, List.flatMap_cons, htlv]
      dsimp only
      rw [if_neg hroom, put_eq (by omega), ih, append_append, tlvs]
      · rw [tlv_length]
        omega
      · rw [append_offset (by rw [tlv_length]; omega), tlv_length]
        change _ ≤ pf.len.toNat
        rw [tlvs]
        omega

end

/-- The head and the TLVs fit into the file. -/
def Fits (hs : Handlers) (file : Memory) : Prop :=
  8 + (tlvs hs.handle_list).length ≤ file.size.toNatClampNeg

instance (hs : Handlers) (file : Memory) : Decidable (Fits hs file) :=
  inferInstanceAs (Decidable (_ ≤ _))

theorem len_eq (file : Memory) : (vfile_open file).len.toNat = file.size.toNatClampNeg :=
  Int32.toNat_toUInt32_of_le file.sized

/-- A save lays out the file. -/
theorem save_eq {hs : Handlers} {file : Memory} (h : Fits hs file) :
    gw_conf_save hs file 1 = { file with pval := layout hs file.pval } := by
  let l := tlvs hs.handle_list
  have hlen := len_eq file
  have hfit : 8 + l.length ≤ (vfile_open file).len.toNat := by
    rw [hlen]
    exact h
  have hscan : gw_conf_save_scan hs.handle_list { vfile_open file with offset := 8 } =
      ⟨8 + .ofNat l.length, splice file.pval 8 l, (vfile_open file).len⟩ := scan_eq hfit
  have htlv : (8 + UInt32.ofNat l.length) - 8 = .ofNat l.length := by
    rw [UInt32.add_comm, UInt32.add_sub_cancel]
  have h0 : (0 : UInt32).toNat + 4 ≤ (vfile_open file).len.toNat := by
    change 0 + 4 ≤ _
    omega
  have h4 : (4 : UInt32).toNat + 4 ≤ (vfile_open file).len.toNat := by
    change 4 + 4 ≤ _
    omega
  have hfirst : vfile_write ⟨8 + .ofNat l.length, splice file.pval 8 l, (vfile_open file).len⟩ 0 4
      (store32 8) = ⟨8 + .ofNat l.length, splice (splice file.pval 8 l) 0 (store32 8),
        (vfile_open file).len⟩ := write_eq rfl h0
  have hsecond : vfile_write ⟨8 + .ofNat l.length, splice (splice file.pval 8 l) 0 (store32 8),
      (vfile_open file).len⟩ 4 4 (store32 (.ofNat l.length)) =
        ⟨8 + .ofNat l.length, splice (splice (splice file.pval 8 l) 0 (store32 8)) 4
          (store32 (.ofNat l.length)), (vfile_open file).len⟩ := write_eq rfl h4
  have hhead : splice (splice (splice file.pval 8 l) 0 (store32 8)) 4 (store32 (.ofNat l.length)) =
      splice (splice file.pval 8 l) 0 (store32 8 ++ store32 (.ofNat l.length)) :=
    splice_append (i := 0)
  have hall : splice (splice file.pval 8 l) 0 (store32 8 ++ store32 (.ofNat l.length)) =
      layout hs file.pval :=
    splice_prepend (i := 0) (a := store32 8 ++ store32 (.ofNat l.length)) (b := l)
  unfold gw_conf_save
  dsimp only
  rw [if_pos rfl, hscan, hfirst]
  dsimp only
  rw [htlv, hsecond, ← hall, ← hhead]

/-! ## The loop -/

section
variable {hs : Handlers} {mal : UInt32 → Bool} {pf : gw_conf_file_t} {r : Reading}
  {cs : List Restored}

/-- The loop ends, and has made these calls. -/
def Ends (hs : Handlers) (mal : UInt32 → Bool) (pf : gw_conf_file_t) (r : Reading)
    (cs : List Restored) : Prop :=
  ∃ n, restore_loop hs mal pf n r = some cs

theorem ends_over (h : pf.len ≤ r.offset) : Ends hs mal pf r cs ↔ cs = [] := by
  refine ⟨?_, ?_⟩
  · rintro ⟨n, hn⟩
    cases n with
    | zero => cases hn
    | succ n =>
      rw [restore_loop, if_pos h] at hn
      exact (Option.some.inj hn).symm
  · rintro rfl
    exact ⟨1, by rw [restore_loop, if_pos h]⟩

theorem ends_cut (h : r.offset < pf.len)
    (hcut : pf.len < (r.head pf).offset + (r.head pf).length) : Ends hs mal pf r cs ↔ cs = [] := by
  have hin := UInt32.not_le.mpr h
  refine ⟨?_, ?_⟩
  · rintro ⟨n, hn⟩
    cases n with
    | zero => cases hn
    | succ n =>
      rw [restore_loop, if_neg hin] at hn
      dsimp only at hn
      rw [if_pos hcut] at hn
      exact (Option.some.inj hn).symm
  · rintro rfl
    refine ⟨1, ?_⟩
    rw [restore_loop, if_neg hin]
    dsimp only
    rw [if_pos hcut]

/-- One turn, and the rest of the loop. -/
theorem ends_turn (h : r.offset < pf.len)
    (hroom : (r.head pf).offset + (r.head pf).length ≤ pf.len) :
    Ends hs mal pf r cs ↔ ∃ rest, restore_call hs mal pf (r.head pf) ++ rest = cs ∧
      Ends hs mal pf (r.head pf).next rest := by
  have hturn : ∀ n, restore_loop hs mal pf (n + 1) r =
      (restore_loop hs mal pf n (r.head pf).next).map (restore_call hs mal pf (r.head pf) ++ ·) := by
    intro n
    rw [restore_loop, if_neg (UInt32.not_le.mpr h)]
    dsimp only
    rw [if_neg (UInt32.not_lt.mpr hroom)]
  refine ⟨?_, ?_⟩
  · rintro ⟨n, hn⟩
    cases n with
    | zero => cases hn
    | succ n =>
      rw [hturn] at hn
      obtain ⟨rest, hrest, hcs⟩ := Option.map_eq_some_iff.mp hn
      exact ⟨rest, hcs, n, hrest⟩
  · rintro ⟨rest, hcs, n, hrest⟩
    exact ⟨n + 1, by rw [hturn, hrest, ← hcs]; rfl⟩

theorem call_mal : ∀ c ∈ restore_call hs mal pf r, mal c.length = true := by
  unfold restore_call
  intro c hc
  split at hc
  · cases hc
  · split at hc
    · rename_i hmal
      rw [List.mem_singleton.mp hc]
      exact hmal
    · cases hc

/-- Each call was made with memory for its bytes. -/
theorem ends_mal (h : Ends hs mal pf r cs) : ∀ c ∈ cs, mal c.length = true := by
  obtain ⟨n, hn⟩ := h
  induction n generalizing r cs with
  | zero => cases hn
  | succ n ih =>
    rw [restore_loop] at hn
    dsimp only at hn
    split_ifs at hn
    · cases hn
      nofun
    · cases hn
      nofun
    · obtain ⟨rest, hrest, rfl⟩ := Option.map_eq_some_iff.mp hn
      intro c hc
      rcases List.mem_append.mp hc with hc | hc
      · exact call_mal c hc
      · exact ih hrest c hc

theorem call_nil : restore_call hs mal pf r = [] ↔
    ((gw_lst_find hs.handle_list r.type).isSome → mal r.length = false) := by
  unfold restore_call
  cases gw_lst_find hs.handle_list r.type with
  | none => simp
  | some p => cases mal r.length <;> simp

theorem loop_unique {n n' : Nat} {cs' : List Restored} (h : restore_loop hs mal pf n r = some cs)
    (h' : restore_loop hs mal pf n' r = some cs') : cs = cs' := by
  induction n generalizing n' r cs cs' with
  | zero => cases h
  | succ n ih =>
    cases n' with
    | zero => cases h'
    | succ n' =>
      rw [restore_loop] at h h'
      dsimp only at h h'
      split_ifs at h h'
      · exact Option.some.inj (h.symm.trans h')
      · exact Option.some.inj (h.symm.trans h')
      · obtain ⟨rest, hrest, rfl⟩ := Option.map_eq_some_iff.mp h
        obtain ⟨rest', hrest', rfl⟩ := Option.map_eq_some_iff.mp h'
        rw [ih hrest hrest']

/-- What is silent is what the loop ends in without a call. -/
theorem silent_iff : Silent hs mal pf r ↔ Ends hs mal pf r [] := by
  refine ⟨fun h => ?_, ?_⟩
  · induction h with
    | ends r h => exact (ends_over h).mpr rfl
    | cut r h hcut => exact (ends_cut h hcut).mpr rfl
    | skips r h hroom hno _ ih =>
      exact (ends_turn h hroom).mpr ⟨[], by rw [call_nil.mpr hno]; rfl, ih⟩
  · rintro ⟨n, hn⟩
    induction n generalizing r with
    | zero => cases hn
    | succ n ih =>
      by_cases h : pf.len ≤ r.offset
      · exact .ends r h
      · have hin := UInt32.not_le.mp h
        by_cases hcut : pf.len < (r.head pf).offset + (r.head pf).length
        · exact .cut r hin hcut
        · have hroom := UInt32.not_lt.mp hcut
          rw [restore_loop, if_neg h] at hn
          dsimp only at hn
          rw [if_neg hcut] at hn
          obtain ⟨rest, hrest, hcs⟩ := Option.map_eq_some_iff.mp hn
          obtain ⟨hcall, rfl⟩ := List.append_eq_nil_iff.mp hcs
          exact .skips r hin hroom (call_nil.mp hcall) (ih hrest)

/-! ## Over the TLVs -/

theorem find_eq {p : gw_conf_handle_t} (hp : p ∈ hs.handle_list) :
    gw_lst_find hs.handle_list p.type.toUInt32 = some p := by
  cases hfind : gw_lst_find hs.handle_list p.type.toUInt32 with
  | none =>
    have hno := List.find?_eq_none.mp hfind p hp
    simp at hno
  | some q =>
    have hq := List.mem_of_find?_eq_some hfind
    have htype : q.type.toUInt32 = p.type.toUInt32 := by simpa using List.find?_some hfind
    have hsame : q.type = p.type := by
      rw [← Int32.toInt32_toUInt32 q.type, htype, Int32.toInt32_toUInt32]
    rw [List.inj_on_of_nodup_map hs.distinct hq hp hsame]

theorem holds_head {type : Int32} {pv : List UInt8} {m : Mem} {i : Nat}
    (h : Holds m i (tlv type pv)) : Holds m i (store32 type.toUInt32) ∧
      Holds m (i + 4) (store32 (.ofNat pv.length)) ∧ Holds m (i + 8) pv := by
  rw [tlv, holds_append, holds_append] at h
  exact ⟨h.1.1, h.1.2, h.2⟩

/-- The call of one handler, when there is memory for its bytes. -/
def made (mal : UInt32 → Bool) (l : List gw_conf_handle_t) : List Restored :=
  (calls l).filter fun c => mal c.length

theorem made_cons (p : gw_conf_handle_t) (l : List gw_conf_handle_t) :
    made mal (p :: l) = made mal [p] ++ made mal l := by
  rw [made, made, made, ← List.filter_append, calls, calls, calls, ← List.filterMap_append,
    List.singleton_append]

/-- One turn of the loop, over the TLV of a handler. -/
theorem ends_tlv {p : gw_conf_handle_t} {pv : List UInt8} (hp : p ∈ hs.handle_list)
    (hpv : p.func_s = some pv) (hheld : Holds pf.pval r.offset.toNat (tlv p.type pv))
    (hfit : r.offset.toNat + (tlv p.type pv).length ≤ pf.len.toNat) :
    Ends hs mal pf r cs ↔ ∃ rest, made mal [p] ++ rest = cs ∧
      Ends hs mal pf ⟨r.offset + .ofNat (tlv p.type pv).length, p.type.toUInt32, .ofNat pv.length⟩
        rest := by
  have hlen := pf.len.toNat_lt
  rw [tlv_length] at hfit
  obtain ⟨htype, hlength, hdata⟩ := holds_head hheld
  have h4 : (r.offset + 4).toNat = r.offset.toNat + 4 := offset_add (n := 4) (by omega)
  have h8 : (r.offset + 4 + 4).toNat = r.offset.toNat + 8 :=
    (offset_add (n := 4) (by omega)).trans (by rw [h4])
  have hpvlen : (UInt32.ofNat pv.length).toNat = pv.length :=
    UInt32.toNat_ofNat_of_lt' (Nat.lt_of_le_of_lt (by omega) hlen)
  have hhead : r.head pf = ⟨r.offset + 4 + 4, p.type.toUInt32, .ofNat pv.length⟩ := by
    rw [Reading.head, read32_eq (by omega) htype, read32_eq (by omega) (by rw [h4]; exact hlength)]
  have hin : r.offset < pf.len := by
    rw [UInt32.lt_iff_toNat_lt]
    omega
  have hroom : (r.head pf).offset + (r.head pf).length ≤ pf.len := by
    rw [hhead, UInt32.add_comm]
    exact add_le (by rw [h8, hpvlen]; omega)
  have hnext : (r.head pf).next =
      ⟨r.offset + .ofNat (tlv p.type pv).length, p.type.toUInt32, .ofNat pv.length⟩ := by
    rw [hhead, Reading.next, tlv_length, UInt32.ofNat_add, ← UInt32.add_assoc, UInt32.add_assoc r.offset]
    rfl
  have hcall : restore_call hs mal pf (r.head pf) = made mal [p] := by
    have hread : vfile_read pf (r.offset + 4 + 4) (.ofNat pv.length) = some pv := by
      rw [read_eq (by rw [h8, hpvlen]; omega), h8, hpvlen, hdata]
    have hmade : calls [p] = [⟨p.func_r, .ofNat pv.length, pv⟩] := by
      simp [calls, gw_conf_handle_t.call, hpv]
    rw [hhead, restore_call, made, hmade, find_eq hp, hread]
    cases hmal : mal (.ofNat pv.length) <;> simp [hmal]
  rw [ends_turn hin hroom, hcall, hnext]

/-- The loop goes over the TLVs, and makes the calls that there is memory for. -/
theorem ends_tlvs (mal : UInt32 → Bool) {l : List gw_conf_handle_t} (hl : l ⊆ hs.handle_list)
    (hheld : Holds pf.pval r.offset.toNat (tlvs l))
    (hfit : r.offset.toNat + (tlvs l).length ≤ pf.len.toNat) :
    ∃ r', r'.offset = r.offset + .ofNat (tlvs l).length ∧
      (calls l ≠ [] ∨ r.length.toNat + 8 ≤ r.offset.toNat →
        r'.length.toNat + 8 ≤ r'.offset.toNat) ∧
      ∀ cs, Ends hs mal pf r cs ↔ ∃ rest, made mal l ++ rest = cs ∧ Ends hs mal pf r' rest := by
  induction l generalizing r with
  | nil => exact ⟨r, by simp [tlvs], by simp [calls], by simp [made, calls]⟩
  | cons p l ih =>
    have hlen := pf.len.toNat_lt
    obtain ⟨hp, hl⟩ := List.cons_subset.mp hl
    have hcons : tlvs (p :: l) = p.tlv ++ tlvs l := List.flatMap_cons
    rw [hcons, List.length_append] at hfit
    rw [hcons, holds_append] at hheld
    cases hpv : p.func_s with
    | none =>
      have hnil : p.tlv = [] := by rw [gw_conf_handle_t.tlv, hpv]
      have hcalls : calls (p :: l) = calls l := by simp [calls, gw_conf_handle_t.call, hpv]
      rw [hnil] at hheld hfit
      rw [hcons, hnil, made, hcalls]
      exact ih hl hheld.2 (by simpa using hfit)
    | some pv =>
      have htlv : p.tlv = tlv p.type pv := by rw [gw_conf_handle_t.tlv, hpv]
      rw [htlv] at hheld hfit
      have hoffset : (r.offset + .ofNat (tlv p.type pv).length).toNat =
          r.offset.toNat + (tlv p.type pv).length := offset_add (by omega)
      obtain ⟨r', hr', hregs, hrest⟩ := ih (r := ⟨r.offset + .ofNat (tlv p.type pv).length,
        p.type.toUInt32, .ofNat pv.length⟩) hl (by rw [hoffset]; exact hheld.2)
        (by rw [hoffset]; omega)
      refine ⟨r', ?_, fun _ => hregs (Or.inr ?_), ?_⟩
      · rw [hr', hcons, htlv, List.length_append, UInt32.ofNat_add, UInt32.add_assoc]
      · change (UInt32.ofNat pv.length).toNat + 8 ≤
          (r.offset + .ofNat (tlv p.type pv).length).toNat
        rw [hoffset, tlv_length, UInt32.toNat_ofNat']
        have hmod := Nat.mod_le pv.length (2 ^ 32)
        omega
      · intro cs
        rw [ends_tlv hp hpv hheld.1 (by omega), made_cons p l]
        refine ⟨?_, ?_⟩
        · rintro ⟨_, rfl, hends⟩
          obtain ⟨rest, rfl, hafter⟩ := (hrest _).mp hends
          exact ⟨rest, by rw [List.append_assoc], hafter⟩
        · rintro ⟨rest, rfl, hends⟩
          exact ⟨made mal l ++ rest, by rw [List.append_assoc], (hrest _).mpr ⟨rest, rfl, hends⟩⟩

theorem read32_in {offset old old' : UInt32} (h : offset.toNat + 4 ≤ pf.len.toNat) :
    read32 pf offset old = read32 pf offset old' := by
  rw [read32, read32, read_eq h]

theorem read32_out {offset old : UInt32} (h : pf.len.toNat < offset.toNat + 4)
    (hfit : offset.toNat + 4 < 2 ^ 32) : read32 pf offset old = old := by
  have hsum : (offset + 4).toNat = offset.toNat + 4 := offset_add (n := 4) hfit
  have hout : ¬ 4 + offset ≤ pf.len := by
    rw [UInt32.not_le, UInt32.lt_iff_toNat_lt, UInt32.add_comm, hsum]
    exact h
  rw [read32, vfile_read, if_neg hout]

/-- A TLV that is whole is read as it lies there, whatever the loop comes with. -/
theorem head_congr {r' : Reading} (ho : r'.offset = r.offset) (hlen : pf.len.toNat < 2 ^ 31)
    (hwhole : r'.offset.toNat + 8 ≤ pf.len.toNat) : r'.head pf = r.head pf := by
  have h4 : (r'.offset + 4).toNat = r'.offset.toNat + 4 := offset_add (n := 4) (by omega)
  have htype : read32 pf r'.offset r'.type = read32 pf r'.offset r.type :=
    read32_in (by omega)
  have hlength : read32 pf (r'.offset + 4) r'.length = read32 pf (r'.offset + 4) r.length :=
    read32_in (by omega)
  rw [Reading.head, Reading.head, ← ho, htype, hlength]

/-- A TLV whose head is not whole is cut off. -/
theorem head_cut {r' : Reading} (hin : r'.offset < pf.len) (hlen : pf.len.toNat < 2 ^ 31)
    (hr' : r'.length.toNat + 8 ≤ r'.offset.toNat) (hwhole : ¬ r'.offset.toNat + 8 ≤ pf.len.toNat) :
    pf.len < (r'.head pf).offset + (r'.head pf).length := by
  have hlt := UInt32.lt_iff_toNat_lt.mp hin
  have h4 : (r'.offset + 4).toNat = r'.offset.toNat + 4 := offset_add (n := 4) (by omega)
  have h8 : (r'.offset + 4 + 4).toNat = r'.offset.toNat + 8 :=
    (offset_add (n := 4) (by omega)).trans (by rw [h4])
  have hlength : (r'.head pf).length = r'.length := read32_out (by omega) (by omega)
  have hsum : ((r'.head pf).offset + (r'.head pf).length).toNat =
      r'.offset.toNat + 8 + r'.length.toNat := by
    change (r'.offset + 4 + 4 + (r'.head pf).length).toNat = _
    rw [hlength, UInt32.toNat_add, h8, Nat.mod_eq_of_lt (by omega)]
  rw [UInt32.lt_iff_toNat_lt, hsum]
  omega

/-- The type and the length that the loop comes with do not matter: where the
next ones cannot be read, the TLV is cut off. -/
theorem silent_congr {r' : Reading} (ho : r'.offset = r.offset) (hlen : pf.len.toNat < 2 ^ 31)
    (hr' : r'.length.toNat + 8 ≤ r'.offset.toNat) (h : Silent hs mal pf r) :
    Silent hs mal pf r' := by
  by_cases hin : r'.offset < pf.len
  · by_cases hwhole : r'.offset.toNat + 8 ≤ pf.len.toNat
    · have hhead := head_congr ho hlen hwhole
      cases h with
      | ends _ hends => exact absurd hends (UInt32.not_le.mpr (ho ▸ hin))
      | cut _ _ hcut => exact .cut r' hin (hhead ▸ hcut)
      | skips _ _ hroom hno hrest => exact .skips r' hin (hhead ▸ hroom) (hhead ▸ hno) (hhead ▸ hrest)
    · exact .cut r' hin (head_cut hin hlen hr' hwhole)
  · exact .ends r' (UInt32.not_lt.mp hin)

/-- The same for a loop that makes calls. -/
theorem ends_congr {r' : Reading} (ho : r'.offset = r.offset) (hlen : pf.len.toNat < 2 ^ 31)
    (hr : r.length.toNat + 8 ≤ r.offset.toNat) (hr' : r'.length.toNat + 8 ≤ r'.offset.toNat) :
    Ends hs mal pf r cs ↔ Ends hs mal pf r' cs := by
  by_cases hin : r.offset < pf.len
  · have hin' : r'.offset < pf.len := ho ▸ hin
    by_cases hwhole : r'.offset.toNat + 8 ≤ pf.len.toNat
    · have hhead := head_congr ho hlen hwhole
      by_cases hcut : pf.len < (r.head pf).offset + (r.head pf).length
      · rw [ends_cut hin hcut, ends_cut hin' (hhead ▸ hcut)]
      · have hroom := UInt32.not_lt.mp hcut
        rw [ends_turn hin hroom, ends_turn hin' (hhead ▸ hroom), hhead]
    · rw [ends_cut hin (head_cut hin hlen hr (ho ▸ hwhole)), ends_cut hin' (head_cut hin' hlen hr' hwhole)]
  · have hout := UInt32.not_lt.mp hin
    rw [ends_over hout, ends_over (ho ▸ hout)]

end

/-! ## The round trip -/

section
variable {hs : Handlers} {file : Memory} {mal : UInt32 → Bool}

/-- The file that a save leaves, opened. -/
def saved (hs : Handlers) (file : Memory) : gw_conf_file_t :=
  vfile_open { file with pval := layout hs file.pval }

theorem saved_small : (saved hs file).len.toNat < 2 ^ 31 := by
  have hlen := len_eq { file with pval := layout hs file.pval }
  have hsize := file.size.toInt_lt
  rw [saved, hlen, Int32.toNatClampNeg]
  change file.size.toInt.toNat < _
  omega

theorem saved_holds (hs : Handlers) (file : Memory) : Holds (saved hs file).pval 0 (store32 8) ∧
    Holds (saved hs file).pval 4 (store32 (.ofNat (tlvs hs.handle_list).length)) ∧
    Holds (saved hs file).pval 8 (tlvs hs.handle_list) := by
  have hall : Holds (layout hs file.pval) 0
      (store32 8 ++ store32 (.ofNat (tlvs hs.handle_list).length) ++ tlvs hs.handle_list) := by
    rw [layout]
    exact splice_holds
  rw [holds_append, holds_append] at hall
  exact ⟨hall.1.1, hall.1.2, hall.2⟩

/-- The restore reads the head, and starts at the TLVs when there are some. -/
theorem restore_eq (h : Fits hs file) (mal : UInt32 → Bool) (iv type length : UInt32) (n : Nat) :
    gw_conf_restore hs mal (gw_conf_save hs file 1) iv type length n =
      if tlvs hs.handle_list = [] then some []
      else restore_loop hs mal (saved hs file) n ⟨8, type, length⟩ := by
  have hlen : (saved hs file).len.toNat = file.size.toNatClampNeg := len_eq _
  have hsmall : (saved hs file).len.toNat < 2 ^ 31 := saved_small
  have hfit : 8 + (tlvs hs.handle_list).length ≤ file.size.toNatClampNeg := h
  obtain ⟨hhead, htlv, -⟩ := saved_holds hs file
  have h0 : (0 : UInt32).toNat + 4 ≤ (saved hs file).len.toNat := by
    change 0 + 4 ≤ _
    omega
  have h4 : (4 : UInt32).toNat + 4 ≤ (saved hs file).len.toNat := by
    change 4 + 4 ≤ _
    omega
  rw [save_eq h]
  unfold gw_conf_restore
  dsimp only
  change (if 0 < (read32 (saved hs file) 4 _).toInt32 then restore_loop hs mal (saved hs file) n
    ⟨0 + read32 (saved hs file) 0 iv, type, length⟩ else some []) = _
  rw [read32_eq h0 hhead, read32_eq h4 htlv, UInt32.zero_add, UInt32.toInt32_ofNat']
  by_cases hnil : tlvs hs.handle_list = []
  · rw [if_pos hnil, hnil, if_neg (by decide)]
  · have hpos : 0 < Int32.ofNat (tlvs hs.handle_list).length := by
      rw [Int32.lt_iff_toInt_lt, Int32.toInt_ofNat_of_lt (by omega)]
      exact Int.natCast_pos.mpr (List.length_pos_of_ne_nil hnil)
    rw [if_neg hnil, if_pos hpos]

/-- The calls that there is memory for are all of them. -/
theorem made_append (l : List gw_conf_handle_t) {rest : List Restored}
    (hrest : ∀ c ∈ rest, mal c.length = true) :
    made mal l ++ rest = calls l ↔ (∀ c ∈ calls l, mal c.length = true) ∧ rest = [] := by
  refine ⟨fun h => ?_, ?_⟩
  · have hall : ∀ c ∈ calls l, mal c.length = true := by
      intro c hc
      rw [← h] at hc
      rcases List.mem_append.mp hc with hc | hc
      · exact (List.mem_filter.mp hc).2
      · exact hrest c hc
    rw [made, List.filter_eq_self.mpr hall] at h
    exact ⟨hall, List.append_right_eq_self.mp h⟩
  · rintro ⟨hall, rfl⟩
    rw [made, List.filter_eq_self.mpr hall, List.append_nil]

theorem calls_nil {l : List gw_conf_handle_t} : calls l = [] ↔ tlvs l = [] := by
  rw [calls, List.filterMap_eq_nil_iff, tlvs, List.flatMap_eq_nil_iff]
  refine forall₂_congr fun p _ => ?_
  cases hp : p.func_s <;> simp [gw_conf_handle_t.call, gw_conf_handle_t.tlv, tlv, store32, hp]

/-- A restore after a save calls each restore function once, in order, with the
bytes that its save function gave, and then ends: exactly when there is memory for
these bytes, and what lies behind them leads to no call. -/
theorem a_restore_gives_back_what_was_saved (hs : Handlers) (file : Memory) (h : Fits hs file)
    (mal : UInt32 → Bool) (iv type length : UInt32) :
    (∃ n, gw_conf_restore hs mal (gw_conf_save hs file 1) iv type length n =
        some (calls hs.handle_list)) ↔
      calls hs.handle_list = [] ∨ (∀ c ∈ calls hs.handle_list, mal c.length = true) ∧
        Silent hs mal (saved hs file) ⟨8 + .ofNat (tlvs hs.handle_list).length, 0, 0⟩ := by
  have hlen : (saved hs file).len.toNat = file.size.toNatClampNeg := len_eq _
  have hsmall : (saved hs file).len.toNat < 2 ^ 31 := saved_small
  have hfit : 8 + (tlvs hs.handle_list).length ≤ (saved hs file).len.toNat := by
    rw [hlen]
    exact h
  simp only [restore_eq h]
  by_cases hnil : tlvs hs.handle_list = []
  · simp [hnil, calls_nil.mpr hnil]
  · have hcalls : calls hs.handle_list ≠ [] := mt calls_nil.mp hnil
    simp only [if_neg hnil, hcalls, false_or]
    change Ends hs mal (saved hs file) ⟨8, type, length⟩ _ ↔ _
    obtain ⟨r', hr', hregs, hends⟩ := ends_tlvs mal (List.Subset.refl hs.handle_list)
      (r := ⟨8, type, length⟩) (saved_holds hs file).2.2 hfit
    have hend : ((8 : UInt32) + .ofNat (tlvs hs.handle_list).length).toNat =
        (8 : UInt32).toNat + (tlvs hs.handle_list).length := by
      apply offset_add
      change 8 + _ < _
      omega
    have hsilent : Silent hs mal (saved hs file) r' ↔ Silent hs mal (saved hs file)
        ⟨8 + .ofNat (tlvs hs.handle_list).length, 0, 0⟩ := by
      refine ⟨silent_congr hr'.symm hsmall ?_, silent_congr hr' hsmall (hregs (Or.inl hcalls))⟩
      change 0 + 8 ≤ (8 + UInt32.ofNat (tlvs hs.handle_list).length).toNat
      rw [hend]
      exact Nat.le_add_right 8 _
    rw [hends, ← hsilent]
    refine ⟨?_, ?_⟩
    · rintro ⟨rest, hmade, hrest⟩
      obtain ⟨hall, rfl⟩ := (made_append _ (ends_mal hrest)).mp hmade
      exact ⟨hall, silent_iff.mpr hrest⟩
    · rintro ⟨hall, hquiet⟩
      exact ⟨[], (made_append _ (by simp)).mpr ⟨hall, rfl⟩, silent_iff.mp hquiet⟩

end

/-- Two handlers, of the types 1 and 2. -/
def twoHandlers (first second : List UInt8) : Handlers where
  handle_list := [⟨1, some first, 4096⟩, ⟨2, some second, 8192⟩]
  distinct := by simp

/-- A file of 34 bytes. -/
def smallFile (m : Mem) : Memory := ⟨m, 34, by decide⟩

theorem a_filled_file_is_restored :
    ∃ n, gw_conf_restore (twoHandlers [1, 2, 3] [4, 5, 6, 7, 8, 9, 10]) (fun _ => true)
      (gw_conf_save (twoHandlers [1, 2, 3] [4, 5, 6, 7, 8, 9, 10]) (smallFile fun _ => 255) 1)
      0 0 0 n = some [⟨4096, 3, [1, 2, 3]⟩, ⟨8192, 7, [4, 5, 6, 7, 8, 9, 10]⟩] :=
  (a_restore_gives_back_what_was_saved (twoHandlers [1, 2, 3] [4, 5, 6, 7, 8, 9, 10])
    (smallFile fun _ => 255) (by decide) (fun _ => true) 0 0 0).mpr
      (Or.inr ⟨by decide, .ends _ (by decide)⟩)

/-- The second save is shorter, and what it leaves of the first one is again a TLV. -/
def savedTwice : Memory :=
  gw_conf_save (twoHandlers [] [5])
    (gw_conf_save (twoHandlers [0, 0, 0, 0, 0, 0, 0, 0, 0] [9]) (smallFile fun _ => 255) 1) 1

theorem a_shorter_save_restores_old_bytes :
    gw_conf_restore (twoHandlers [] [5]) (fun _ => true) savedTwice 0 0 0 4 =
        some [⟨4096, 0, []⟩, ⟨8192, 1, [5]⟩, ⟨8192, 1, [9]⟩] ∧
      ¬ ∃ n, gw_conf_restore (twoHandlers [] [5]) (fun _ => true) savedTwice 0 0 0 n =
        some (calls (twoHandlers [] [5]).handle_list) := by
  have hthree : restore_loop (twoHandlers [] [5]) (fun _ => true) (vfile_open savedTwice) 4
      ⟨8, 0, 0⟩ = some [⟨4096, 0, []⟩, ⟨8192, 1, [5]⟩, ⟨8192, 1, [9]⟩] := by decide +kernel
  have hhead : ∀ n, gw_conf_restore (twoHandlers [] [5]) (fun _ => true) savedTwice 0 0 0 n =
      restore_loop (twoHandlers [] [5]) (fun _ => true) (vfile_open savedTwice) n ⟨8, 0, 0⟩ := by
    intro n
    have h0 : read32 (vfile_open savedTwice) 0 0 = 8 := by decide +kernel
    have h4 : read32 (vfile_open savedTwice) 4 8 = 17 := by decide +kernel
    rw [gw_conf_restore, h0, h4]
    rfl
  refine ⟨(hhead 4).trans hthree, ?_⟩
  rintro ⟨n, hn⟩
  rw [hhead n] at hn
  exact absurd (loop_unique hthree hn) (by decide)

end gwdonu.conf_file
