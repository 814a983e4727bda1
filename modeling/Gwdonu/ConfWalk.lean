-- The walk of a restore over the TLVs: it ends unless the lengths lead from a TLV back
-- to the same one.
import Gwdonu.ConfRoundTrip
import Gwdonu.Lib.Halting
import Mathlib.Data.Finite.Prod

namespace gwdonu.conf_file

open halting oam Relation

/-! ## The chain of TLVs -/

/-- What the variables hold in front of the first TLV: `iv`, `type` and `length` are what was
in them before. -/
def first (file : Memory) (iv type length : UInt32) : Reading := ⟨0 + read32 (vfile_open file) 0 iv, type, length⟩

def tlv_len (file : Memory) (iv : UInt32) : UInt32 :=
  read32 (vfile_open file) 4 (read32 (vfile_open file) 0 iv)

/-- The TLV at `r` does not go over the end of the file, and `r'` is behind it. The sum of its
offset and its length is one of 32 bits. -/
structure Follows (pf : gw_conf_file_t) (r r' : Reading) : Prop where
  inside : r.offset < pf.len
  room : r.offset + 8 + read32 pf (r.offset + 4) r.length ≤ pf.len
  offset : r'.offset = r.offset + 8 + read32 pf (r.offset + 4) r.length
  type : r'.type = read32 pf r.offset r.type
  length : r'.length = read32 pf (r.offset + 4) r.length

/-- The lengths of some TLVs, one behind the other, lead back to the first of them. -/
def Circles (pf : gw_conf_file_t) (r : Reading) : Prop :=
  ∃ r', ReflTransGen (Follows pf) r r' ∧ TransGen (Follows pf) r' r'

/-! ## The walk -/

section
variable {hs : Handlers} {mal : UInt32 → Bool} {pf : gw_conf_file_t} {r r' : Reading}

/-- A turn of the loop, if it does not end there. -/
def turn (pf : gw_conf_file_t) (r : Reading) : Option Reading :=
  if pf.len ≤ r.offset ∨ pf.len < (r.head pf).offset + (r.head pf).length then none
  else some (r.head pf).next

theorem add_eight (x : UInt32) : x + 4 + 4 = x + 8 := by
  rw [UInt32.add_assoc]
  rfl

theorem leads_turn : Leads (turn pf) r r' ↔ Follows pf r r' := by
  have height := add_eight r.offset
  unfold Leads turn
  constructor
  · intro h
    split_ifs at h with hends
    obtain ⟨hin, hroom⟩ := not_or.mp hends
    obtain rfl := Option.some.inj h
    refine ⟨UInt32.not_le.mp hin, ?_, ?_, rfl, rfl⟩
    · rw [← height]
      exact UInt32.not_lt.mp hroom
    · rw [← height]
      rfl
  · rintro ⟨hin, hroom, hoffset, htype, hlength⟩
    rw [← height] at hroom hoffset
    have hends : ¬ (pf.len ≤ r.offset ∨ pf.len < (r.head pf).offset + (r.head pf).length) :=
      not_or.mpr ⟨UInt32.not_le.mpr hin, UInt32.not_lt.mpr hroom⟩
    rw [if_neg hends]
    cases r'
    cases hoffset
    cases htype
    cases hlength
    rfl

theorem leads_eq : Leads (turn pf) = Follows pf := funext fun _ => funext fun _ => propext leads_turn

/-- The loop goes on exactly as long as the turns do. -/
theorem loop_none (n : Nat) (r : Reading) : restore_loop hs mal pf n r = none ↔ after (turn pf) n r ≠ none := by
  induction n generalizing r with
  | zero => simp [restore_loop, after]
  | succ n ih =>
    rw [restore_loop, after, turn]
    by_cases hin : pf.len ≤ r.offset
    · simp [hin]
    · by_cases hroom : pf.len < (r.head pf).offset + (r.head pf).length
      · simp [hin, hroom]
      · simp only [hin, hroom, or_self, if_false, Option.map_eq_none_iff, Option.bind_some]
        exact ih _

instance finiteUInt32 : Finite UInt32 := Finite.of_injective UInt32.toFin fun _ _ h => UInt32.toFin_inj.mp h

instance : Finite Reading :=
  Finite.of_injective (fun r : Reading => (r.offset, r.type, r.length)) fun r r' h => by
    cases r
    cases r'
    simpa using h

theorem loop_ends : (∃ n, (restore_loop hs mal pf n r).isSome) ↔ ¬ Circles pf r := by
  rw [Circles, ← leads_eq, ← stops_iff, Stops]
  refine exists_congr fun n => ?_
  rw [← not_iff_not, Option.not_isSome_iff_eq_none]
  exact loop_none n r

theorem follows_offset (h : Follows pf r r') :
    r'.offset.toNat = (r.offset.toNat + 8 + r'.length.toNat) % 2 ^ 32 := by
  rw [h.offset, ← h.length, UInt32.toNat_add, UInt32.toNat_add, Nat.mod_add_mod]
  rfl

/-- Only a length from `-(offset + 8)` to `-8` leads back. -/
theorem leads_back_iff (hlen : pf.len.toNat < 2 ^ 31) (h : Follows pf r r') : r'.offset.toNat ≤ r.offset.toNat ↔
    2 ^ 32 ≤ r.offset.toNat + 8 + r'.length.toNat ∧ r'.length.toNat ≤ 2 ^ 32 - 8 := by
  have hoffset := follows_offset h
  have hin := UInt32.lt_iff_toNat_lt.mp h.inside
  have hbound := r'.length.toNat_lt
  omega

/-- A walk over lengths that all lead on ends. -/
theorem forward_ends (h : ∀ t u, ReflTransGen (Follows pf) r t → Follows pf t u → t.offset.toNat < u.offset.toNat) :
    ¬ Circles pf r := by
  rw [← leads_eq] at h
  rw [Circles, ← leads_eq, ← stops_iff]
  exact stops_of_growth (fun t : Reading => t.offset.toNat) h

theorem restore_walks {file : Memory} {iv : UInt32} (hpos : 0 < (tlv_len file iv).toInt32) (type length : UInt32)
    (n : Nat) : gw_conf_restore hs mal file iv type length n =
      restore_loop hs mal (vfile_open file) n (first file iv type length) := if_pos hpos

theorem restore_nothing {file : Memory} {iv : UInt32} (hpos : ¬ 0 < (tlv_len file iv).toInt32) (type length : UInt32)
    (n : Nat) : gw_conf_restore hs mal file iv type length n = some [] := if_neg hpos

end

/-- A restore ends on every file whose lengths do not lead from a TLV back to it. -/
theorem a_restore_ends_unless_the_lengths_go_around (hs : Handlers) (mal : UInt32 → Bool) (file : Memory)
    (iv type length : UInt32) :
    (∃ n, (gw_conf_restore hs mal file iv type length n).isSome) ↔
      (0 < (tlv_len file iv).toInt32 → ¬ Circles (vfile_open file) (first file iv type length)) := by
  by_cases hpos : 0 < (tlv_len file iv).toInt32
  · simp only [restore_walks hpos, hpos, forall_true_left]
    exact loop_ends
  · refine iff_of_true ⟨0, ?_⟩ fun h => absurd h hpos
    rw [restore_nothing hpos]
    rfl

/-- A head of eight bytes, a counted byte, and a TLV of type 0 with the length -8. -/
def aroundFile : Memory :=
  ⟨memory [0, 0, 0, 8, 0, 0, 0, 1, 0, 0, 0, 0, 0xFF, 0xFF, 0xFF, 0xF8], 16, by decide⟩

/-- The length -8 leads back to the same TLV. -/
theorem a_restore_goes_around_for_ever :
    ¬ ∃ n, (gw_conf_restore ⟨[], List.nodup_nil⟩ (fun _ => true) aroundFile 0 0 0 n).isSome := by
  have hpos : 0 < (tlv_len aroundFile 0).toInt32 := by decide
  have hback : Follows (vfile_open aroundFile) ⟨8, 0, 0xFFFFFFF8⟩ ⟨8, 0, 0xFFFFFFF8⟩ := by
    constructor
    · decide
    · decide
    · decide
    · decide
    · decide
  have hfirst : Follows (vfile_open aroundFile) (first aroundFile 0 0 0) ⟨8, 0, 0xFFFFFFF8⟩ := by
    constructor
    · decide
    · decide
    · decide
    · decide
    · decide
  have hcircles : Circles (vfile_open aroundFile) (first aroundFile 0 0 0) :=
    ⟨⟨8, 0, 0xFFFFFFF8⟩, .single hfirst, .single hback⟩
  rintro ⟨n, hsome⟩
  rw [restore_walks hpos] at hsome
  exact loop_ends.mp ⟨n, hsome⟩ hcircles

end gwdonu.conf_file
