-- The TLVs of a file, and the ones that a restore takes: it takes no others when the end of the
-- TLVs is where its own loop ends.
import Gwdonu.ConfWalk

namespace gwdonu.conf_file

open oam

/-! ## The grammar -/

/-- A TLV of a file. Its value starts at `value`. -/
structure Part where
  value : Nat
  type : UInt32
  length : UInt32
  deriving DecidableEq

def Part.stop (p : Part) : Nat := p.value + p.length.toNat

/-- The TLV that the words at `o` make. -/
def partAt (m : Mem) (o : Nat) : Part := ⟨o + 8, load32 m o, load32 m (o + 4)⟩

/-- At `o` there is a TLV that is whole in front of `stop`. -/
structure WellFormed (m : Mem) (stop o : Nat) : Prop where
  head : o + 8 ≤ stop
  nonneg : 0 ≤ (partAt m o).length.toInt32
  value : (partAt m o).stop ≤ stop

instance (m : Mem) (stop o : Nat) : Decidable (WellFormed m stop o) :=
  decidable_of_iff (o + 8 ≤ stop ∧ 0 ≤ (partAt m o).length.toInt32 ∧ (partAt m o).stop ≤ stop)
    ⟨fun h => ⟨h.1, h.2.1, h.2.2⟩, fun h => ⟨h.head, h.nonneg, h.value⟩⟩

theorem lt_stop (m : Mem) (o : Nat) : o < (partAt m o).stop := by
  change o < o + 8 + _
  omega

/-- The TLVs from `o` on, up to the first place without one. -/
def parts (m : Mem) (stop o : Nat) : List Part :=
  if _h : WellFormed m stop o then partAt m o :: parts m stop (partAt m o).stop else []
termination_by stop - o
decreasing_by
  have hlt := lt_stop m o
  have hstop := _h.value
  omega

def Memory.head_len (file : Memory) : Nat := (load32 file.pval 0).toNat

def Memory.tlv_len (file : Memory) : Int32 := (load32 file.pval 4).toInt32

/-- Where the TLVs end: behind `tlv_len` bytes, or with the file. -/
def Memory.stop (file : Memory) : Nat := min (file.head_len + file.tlv_len.toNatClampNeg) file.size.toNatClampNeg

/-- The TLVs of the file. -/
def Memory.grammar (file : Memory) : List Part :=
  if 8 ≤ file.size.toNatClampNeg ∧ 0 < file.tlv_len then parts file.pval file.stop file.head_len else []

/-! ## The law -/

/-- The TLVs that the loop looks up a handler for, when it has ended after `n` turns. -/
def walked (pf : gw_conf_file_t) : Nat → Reading → Option (List Reading)
  | 0, _ => none
  | n + 1, r =>
    if pf.len ≤ r.offset then some []
    else
      let r := r.head pf
      if pf.len < r.offset + r.length then some []
      else (walked pf n r.next).map (r :: ·)

def gw_conf_walk (file : Memory) (iv type length : UInt32) (n : Nat) : Option (List Reading) :=
  if 0 < (tlv_len file iv).toInt32 then walked (vfile_open file) n (first file iv type length) else some []

/-- The TLV as the loop has it. -/
def Part.reading (p : Part) : Reading := ⟨.ofNat p.value, p.type, p.length⟩

/-- The call that a TLV of the file is for. -/
def Part.call (hs : Handlers) (mal : UInt32 → Bool) (file : Memory) (p : Part) : List Restored :=
  match gw_lst_find hs.handle_list p.type with
  | none => []
  | some h => if mal p.length then [⟨h.func_r, p.length, bytes file.pval p.value p.length.toNat⟩] else []

/-- A restore takes the TLVs of the file, and what it calls is for them. -/
structure Accepts (file : Memory) (iv type length : UInt32) : Prop where
  taken : ∃ n, gw_conf_walk file iv type length n = some (file.grammar.map Part.reading)
  calls : ∀ hs mal, ∃ n, gw_conf_restore hs mal file iv type length n =
    some (file.grammar.flatMap (Part.call hs mal file))
  nonneg : ∀ p ∈ file.grammar, 0 ≤ p.length.toInt32
  inside : ∀ p ∈ file.grammar, file.head_len + 8 ≤ p.value ∧ p.stop ≤ file.stop

/-- What the variables hold behind the last TLV of the file. -/
def behind (file : Memory) (iv type length : UInt32) : Reading :=
  (file.grammar.getLast?.map fun p => p.reading.next).getD (first file iv type length)

/-- The file ends there, or what is read as the next length goes over its end. -/
def Ended (pf : gw_conf_file_t) (r : Reading) : Prop :=
  pf.len ≤ r.offset ∨ pf.len < r.offset + 8 + read32 pf (r.offset + 4) r.length

instance (pf : gw_conf_file_t) (r : Reading) : Decidable (Ended pf r) := inferInstanceAs (Decidable (_ ∨ _))

/-! ## The TLVs -/

section
variable {m : Mem} {stop o : Nat} {p : Part} {pf : gw_conf_file_t} {r : Reading} {l : List Reading}
  {hs : Handlers} {mal : UInt32 → Bool}

theorem parts_cons (h : WellFormed m stop o) : parts m stop o = partAt m o :: parts m stop (partAt m o).stop := by
  rw [parts, dif_pos h]

theorem parts_nil (h : ¬ WellFormed m stop o) : parts m stop o = [] := by
  rw [parts, dif_neg h]

theorem mem_parts (hp : p ∈ parts m stop o) : 0 ≤ p.length.toInt32 ∧ o + 8 ≤ p.value ∧ p.stop ≤ stop := by
  induction o using parts.induct m stop with
  | case1 o h ih =>
    rw [parts_cons h, List.mem_cons] at hp
    rcases hp with rfl | hp
    · exact ⟨h.nonneg, Nat.le_refl _, h.value⟩
    · have hlt := lt_stop m o
      obtain ⟨hnonneg, hvalue, hstop⟩ := ih hp
      exact ⟨hnonneg, by omega, hstop⟩
  | case2 o h =>
    rw [parts_nil h] at hp
    cases hp

/-! ## The walk -/

/-- The loop ends and has taken these TLVs. -/
def Walks (pf : gw_conf_file_t) (r : Reading) (l : List Reading) : Prop := ∃ n, walked pf n r = some l

theorem restore_loop_walked (n : Nat) (r : Reading) :
    restore_loop hs mal pf n r = (walked pf n r).map (List.flatMap (restore_call hs mal pf)) := by
  induction n generalizing r with
  | zero => rfl
  | succ n ih =>
    rw [restore_loop, walked]
    dsimp only
    split_ifs
    · rfl
    · rfl
    · rw [ih, Option.map_map, Option.map_map]
      rfl

theorem ended_iff : Ended pf r ↔ pf.len ≤ r.offset ∨ pf.len < (r.head pf).offset + (r.head pf).length := by
  rw [Ended, ← add_eight]
  exact Iff.rfl

theorem walks_nil : Walks pf r [] ↔ Ended pf r := by
  rw [ended_iff]
  constructor
  · rintro ⟨n, hn⟩
    cases n with
    | zero => cases hn
    | succ n =>
      by_contra hends
      obtain ⟨hin, hroom⟩ := not_or.mp hends
      rw [walked, if_neg hin] at hn
      dsimp only at hn
      rw [if_neg hroom, Option.map_eq_some_iff] at hn
      obtain ⟨_, -, h⟩ := hn
      cases h
  · intro hends
    refine ⟨1, ?_⟩
    rw [walked]
    rcases hends with hends | hends
    · rw [if_pos hends]
    · dsimp only
      rw [if_pos hends, ite_self]

theorem walks_turn (hends : ¬ Ended pf r) (l : List Reading) :
    Walks pf r (r.head pf :: l) ↔ Walks pf (r.head pf).next l := by
  rw [ended_iff] at hends
  obtain ⟨hin, hroom⟩ := not_or.mp hends
  have hturn : ∀ n, walked pf (n + 1) r = (walked pf n (r.head pf).next).map (r.head pf :: ·) := by
    intro n
    rw [walked, if_neg hin]
    dsimp only
    rw [if_neg hroom]
  constructor
  · rintro ⟨n, hn⟩
    cases n with
    | zero => cases hn
    | succ n =>
      rw [hturn, Option.map_eq_some_iff] at hn
      obtain ⟨l', hl', h⟩ := hn
      exact ⟨n, by rw [hl', List.cons_inj_right _ |>.mp h]⟩
  · rintro ⟨n, hn⟩
    exact ⟨n + 1, by rw [hturn, hn]; rfl⟩

theorem read32_load {offset : UInt32} (h : offset.toNat + 4 ≤ pf.len.toNat) (old : UInt32) :
    read32 pf offset old = load32 pf.pval offset.toNat := by
  rw [read32, read_eq h]
  exact load_bytes _ _

/-- A TLV that is whole is taken as it lies in the file. -/
theorem head_wellFormed (h : WellFormed pf.pval stop r.offset.toNat) (hstop : stop ≤ pf.len.toNat)
    (hlen : pf.len.toNat < 2 ^ 31) :
    r.head pf = (partAt pf.pval r.offset.toNat).reading ∧ ¬ Ended pf r ∧
      (r.head pf).next.offset.toNat = (partAt pf.pval r.offset.toNat).stop := by
  have hhead := h.head
  have hvalue : r.offset.toNat + 8 + (load32 pf.pval (r.offset.toNat + 4)).toNat ≤ stop := h.value
  have h4 : (r.offset + 4).toNat = r.offset.toNat + 4 := offset_add (n := 4) (by omega)
  have h8 : (r.offset + 4 + 4).toNat = r.offset.toNat + 8 := by
    refine (offset_add (n := 4) (by omega)).trans ?_
    rw [h4]
  have htype : read32 pf r.offset r.type = load32 pf.pval r.offset.toNat := read32_load (by omega) _
  have hlength : read32 pf (r.offset + 4) r.length = load32 pf.pval (r.offset.toNat + 4) := by
    rw [read32_load (by omega), h4]
  have hnext : (r.offset + 4 + 4 + load32 pf.pval (r.offset.toNat + 4)).toNat =
      r.offset.toNat + 8 + (load32 pf.pval (r.offset.toNat + 4)).toNat := by
    rw [UInt32.toNat_add, h8, Nat.mod_eq_of_lt (by omega)]
  have hsame : r.head pf = (partAt pf.pval r.offset.toNat).reading := by
    rw [Reading.head, Part.reading, htype, hlength]
    change Reading.mk (r.offset + 4 + 4) _ _ = ⟨.ofNat (r.offset.toNat + 8), _, _⟩
    rw [← h8, UInt32.ofNat_toNat]
    rfl
  refine ⟨hsame, ?_, ?_⟩
  · rw [ended_iff, Reading.head, hlength, UInt32.le_iff_toNat_le, UInt32.lt_iff_toNat_lt]
    dsimp only
    rw [hnext]
    omega
  · rw [Reading.head, hlength]
    exact hnext

theorem last_next (p : Part) (l : List Part) (r : Reading) :
    ((p :: l).getLast?.map fun p => p.reading.next).getD r =
      (l.getLast?.map fun p => p.reading.next).getD p.reading.next := by
  rw [List.getLast?_cons]
  cases l.getLast? with
  | none => rfl
  | some p' => rfl

/-- The walk takes the TLVs in front of `stop`, and goes on behind the last one. -/
theorem walks_parts (hstop : stop ≤ pf.len.toNat) (hlen : pf.len.toNat < 2 ^ 31) (ho : r.offset.toNat = o) :
    Walks pf r ((parts pf.pval stop o).map Part.reading ++ l) ↔
      Walks pf (((parts pf.pval stop o).getLast?.map fun p => p.reading.next).getD r) l := by
  induction o using parts.induct pf.pval stop generalizing r with
  | case1 o h ih =>
    subst ho
    obtain ⟨hsame, hends, hnext⟩ := head_wellFormed h hstop hlen
    rw [parts_cons h, last_next, List.map_cons, List.cons_append, ← hsame, walks_turn hends]
    exact ih hnext
  | case2 o h =>
    rw [parts_nil h, List.map_nil, List.nil_append]
    exact Iff.rfl

/-- The call for a TLV is made with the bytes that it has in the file. -/
theorem call_part {file : Memory} {p : Part} (hp : p.stop ≤ file.size.toNatClampNeg) :
    restore_call hs mal (vfile_open file) p.reading = p.call hs mal file := by
  have hlen := len_eq file
  have hsize := (vfile_open file).len.toNat_lt
  have hvalue : p.value + p.length.toNat ≤ (vfile_open file).len.toNat := by
    rw [hlen]
    exact hp
  have hoffset : p.reading.offset.toNat = p.value :=
    UInt32.toNat_ofNat_of_lt' (Nat.lt_of_le_of_lt (by omega) hsize)
  have hread : vfile_read (vfile_open file) p.reading.offset p.reading.length =
      some (bytes file.pval p.value p.length.toNat) := by
    rw [← hoffset] at hvalue ⊢
    exact read_eq hvalue
  rw [restore_call, hread]
  rfl

end

/-! ## The law holds -/

section
variable {file : Memory} {iv type length : UInt32}

theorem size_lt (file : Memory) : file.size.toNatClampNeg < 2 ^ 31 := by
  have hlt := file.size.toInt_lt
  rw [Int32.toNatClampNeg, Int.toNat_lt (Int32.le_iff_toInt_le.mp file.sized)]
  exact hlt

theorem mem_grammar {p : Part} (hp : p ∈ file.grammar) :
    0 ≤ p.length.toInt32 ∧ file.head_len + 8 ≤ p.value ∧ p.stop ≤ file.stop := by
  unfold Memory.grammar at hp
  split_ifs at hp
  · exact mem_parts hp
  · cases hp

theorem stop_le (file : Memory) : file.stop ≤ file.size.toNatClampNeg := Nat.min_le_right _ _

/-- The first two words are read when they are in the file. -/
theorem words_read (h : 8 ≤ file.size.toNatClampNeg) (iv type length : UInt32) :
    (first file iv type length).offset.toNat = file.head_len ∧ (tlv_len file iv).toInt32 = file.tlv_len := by
  have hlen := len_eq file
  have hhead : ∀ old, read32 (vfile_open file) 0 old = load32 file.pval 0 := by
    refine read32_load ?_
    rw [hlen]
    exact Nat.le_trans (by decide) h
  have htlv : ∀ old, read32 (vfile_open file) 4 old = load32 file.pval 4 := by
    refine read32_load ?_
    rw [hlen]
    exact h
  constructor
  · rw [first, hhead, UInt32.zero_add]
    rfl
  · rw [tlv_len, htlv]
    rfl

theorem walks_grammar {l : List Reading} (hpos : 0 < (tlv_len file iv).toInt32) :
    Walks (vfile_open file) (first file iv type length) (file.grammar.map Part.reading ++ l) ↔
      Walks (vfile_open file) (behind file iv type length) l := by
  unfold behind Memory.grammar
  by_cases hsize : 8 ≤ file.size.toNatClampNeg
  · obtain ⟨hoffset, htlv⟩ := words_read hsize iv type length
    rw [htlv] at hpos
    rw [if_pos ⟨hsize, hpos⟩]
    have hlen := len_eq file
    exact walks_parts (by rw [hlen]; exact stop_le file) (by rw [hlen]; exact size_lt file) hoffset
  · rw [if_neg fun h => hsize h.1]
    exact Iff.rfl

theorem calls_grammar (hs : Handlers) (mal : UInt32 → Bool) :
    (file.grammar.map Part.reading).flatMap (restore_call hs mal (vfile_open file)) =
      file.grammar.flatMap (Part.call hs mal file) := by
  rw [List.flatMap_map]
  exact List.flatMap_congr fun p hp => call_part ((mem_grammar hp).2.2.trans (stop_le file))

theorem restore_walk (hs : Handlers) (mal : UInt32 → Bool) (n : Nat) : gw_conf_restore hs mal file iv type length n =
    (gw_conf_walk file iv type length n).map (List.flatMap (restore_call hs mal (vfile_open file))) := by
  unfold gw_conf_walk
  by_cases hpos : 0 < (tlv_len file iv).toInt32
  · rw [if_pos hpos, restore_walks hpos, restore_loop_walked]
  · rw [if_neg hpos, restore_nothing hpos]
    rfl

theorem accepts_iff_taken : Accepts file iv type length ↔
    ∃ n, gw_conf_walk file iv type length n = some (file.grammar.map Part.reading) := by
  constructor
  · exact Accepts.taken
  · rintro ⟨n, hn⟩
    refine ⟨⟨n, hn⟩, fun hs mal => ⟨n, ?_⟩, fun p hp => (mem_grammar hp).1, fun p hp => (mem_grammar hp).2⟩
    rw [restore_walk, hn, Option.map_some, calls_grammar]

theorem accepts_iff : Accepts file iv type length ↔
    (0 < (tlv_len file iv).toInt32 → Ended (vfile_open file) (behind file iv type length)) := by
  rw [accepts_iff_taken]
  by_cases hpos : 0 < (tlv_len file iv).toInt32
  · have hwalk : ∀ n, gw_conf_walk file iv type length n =
        walked (vfile_open file) n (first file iv type length) := fun n => if_pos hpos
    have hnil : Walks (vfile_open file) (first file iv type length) (file.grammar.map Part.reading ++ []) ↔
        Walks (vfile_open file) (behind file iv type length) [] := walks_grammar hpos
    rw [List.append_nil, walks_nil] at hnil
    simp only [hwalk, hpos, forall_true_left]
    exact hnil
  · refine iff_of_true ⟨0, ?_⟩ fun h => absurd h hpos
    have hnone : file.grammar = [] := by
      refine if_neg fun h => hpos ?_
      rw [(words_read h.1 iv 0 0).2]
      exact h.2
    rw [gw_conf_walk, if_neg hpos, hnone]
    rfl

end

/-- A restore takes the TLVs that are whole in front of the stated end, and no others, exactly
when there are none, or its own loop ends behind the last of them. -/
theorem a_restore_takes_the_tlvs_of_the_file (file : Memory) (iv type length : UInt32) :
    Accepts file iv type length ↔
      (0 < (tlv_len file iv).toInt32 → Ended (vfile_open file) (behind file iv type length)) := accepts_iff

/-- One TLV without a value is counted, and there is another one behind it. -/
def tailedFile : Memory :=
  ⟨memory [0, 0, 0, 8, 0, 0, 0, 8, 0, 0, 0, 1, 0, 0, 0, 0, 0, 0, 0, 2, 0, 0, 0, 0], 24, by decide⟩

/-- The TLV behind the end is taken too. -/
theorem a_tlv_behind_the_end_is_taken : ¬ Accepts tailedFile 0 0 0 := by
  have hgrammar : tailedFile.grammar = [⟨16, 1, 0⟩] := by
    rw [Memory.grammar, if_pos (by decide), parts_cons (by decide), parts_nil (by decide)]
    decide
  rw [accepts_iff, behind, hgrammar]
  decide

end gwdonu.conf_file
