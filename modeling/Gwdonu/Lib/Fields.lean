-- Bit fields of registers: so many bits from an offset on, as far as the register goes.
import Mathlib.Algebra.Ring.Nat
import Mathlib.Data.List.Nodup
import Mathlib.Data.Nat.Notation
import Mathlib.Logic.Function.Basic
import Mathlib.Tactic.Common

namespace fields

open Function

section
variable {w : Nat} (r d : BitVec w) {off len off' len' i : Nat}

/-! ## Masks -/

/-- The bits of the field. -/
def mask (w off len : Nat) : BitVec w := (BitVec.allOnes w <<< off) &&& ~~~(BitVec.allOnes w <<< (off + len))

theorem getLsbD_mask : (mask w off len).getLsbD i = decide (i < w ∧ off ≤ i ∧ i < off + len) := by
  rw [mask, BitVec.getLsbD_and, BitVec.getLsbD_not, BitVec.getLsbD_shiftLeft, BitVec.getLsbD_shiftLeft]
  by_cases hw : i < w
  · by_cases hlo : off ≤ i
    · by_cases hhi : i < off + len
      · have hlt : i - off < w := by omega
        simp [hw, hlo, hhi, hlt]
      · have hlt : i - (off + len) < w := by omega
        simp [hw, hlo, hhi, hlt]
    · have hlt : i < off := by omega
      simp [hlo, hlt]
  · simp [hw]

theorem allOnes_shiftLeft (w n : Nat) : BitVec.allOnes w <<< n = -(1#w <<< n) := by
  rw [← BitVec.neg_one_eq_allOnes, BitVec.shiftLeft_neg]

/-- The difference of two powers. -/
theorem mask_eq_sub (w off len : Nat) :
    mask w off len = 1#w <<< (len + off) - 1#w <<< off := by
  have hparts : mask w off len + BitVec.allOnes w <<< (off + len) = BitVec.allOnes w <<< off := by
    rw [BitVec.add_eq_or_of_and_eq_zero]
    · apply BitVec.eq_of_getLsbD_eq
      intro i hi
      rw [BitVec.getLsbD_or, getLsbD_mask, BitVec.getLsbD_shiftLeft, BitVec.getLsbD_shiftLeft]
      by_cases hlo : off ≤ i
      · have hlt : i - off < w := by omega
        by_cases hhi : i < off + len
        · simp [hi, hlo, hhi, hlt]
        · have hlt' : i - (off + len) < w := by omega
          simp [hi, hlo, hhi, hlt, hlt']
      · have hlt : i < off + len := by omega
        have hlt' : i < off := by omega
        simp [hlo, hlt, hlt']
    · apply BitVec.eq_of_getLsbD_eq
      intro i hi
      rw [BitVec.getLsbD_and, getLsbD_mask, BitVec.getLsbD_shiftLeft]
      by_cases hhi : i < off + len
      · simp [hhi]
      · simp [hhi]
  rw [allOnes_shiftLeft, allOnes_shiftLeft] at hparts
  rw [BitVec.eq_sub_iff_add_eq.mpr hparts, Nat.add_comm len off]
  rw [BitVec.sub_eq_add_neg, BitVec.neg_neg, BitVec.add_comm, ← BitVec.sub_eq_add_neg]

/-! ## Reading and writing a field -/

def get (off len : Nat) : BitVec w := (r &&& mask w off len) >>> off

def put (off len : Nat) : BitVec w := (r &&& ~~~mask w off len) ||| ((d <<< off) &&& mask w off len)

theorem getLsbD_get :
    (get r off len).getLsbD i = (decide (i < len) && r.getLsbD (off + i)) := by
  rw [get, BitVec.getLsbD_ushiftRight, BitVec.getLsbD_and, getLsbD_mask]
  by_cases hw : off + i < w
  · simp [hw, Bool.and_comm]
  · simp [hw, BitVec.getLsbD_of_ge r _ (Nat.not_lt.mp hw)]

theorem toNat_get_lt : (get r off len).toNat < 2 ^ len := by
  apply Nat.lt_pow_two_of_testBit
  intro i hi
  rw [BitVec.testBit_toNat, getLsbD_get, decide_eq_false (by omega), Bool.false_and]

theorem getLsbD_put : (put r d off len).getLsbD i =
    if i < w ∧ off ≤ i ∧ i < off + len then d.getLsbD (i - off) else r.getLsbD i := by
  rw [put, BitVec.getLsbD_or, BitVec.getLsbD_and, BitVec.getLsbD_and, BitVec.getLsbD_not,
    BitVec.getLsbD_shiftLeft, getLsbD_mask]
  by_cases hw : i < w
  · by_cases hin : off ≤ i ∧ i < off + len
    · simp [hw, hin]
    · simp [hw, hin]
  · simp [hw, BitVec.getLsbD_of_ge r i (Nat.not_lt.mp hw)]

/-- A field behind the register reads 0. -/
theorem get_of_le (h : w ≤ off) : get r off len = 0 := by
  apply BitVec.eq_of_getLsbD_eq
  intro i hi
  rw [getLsbD_get, BitVec.getLsbD_of_ge r _ (by omega), Bool.and_false]
  exact (BitVec.getLsbD_zero ..).symm

/-- A field that fits reads back what was written, as many bits as it has. -/
theorem get_put (hfit : off + len ≤ w) (hd : d.toNat < 2 ^ len) : get (put r d off len) off len = d := by
  apply BitVec.eq_of_getLsbD_eq
  intro i hi
  rw [getLsbD_get, getLsbD_put]
  by_cases hlen : i < len
  · rw [if_pos (by omega)]
    simp [hlen]
  · have hzero : d.getLsbD i = false := by
      rw [BitVec.getLsbD, Nat.testBit_lt_two_pow]
      exact Nat.lt_of_lt_of_le hd (Nat.pow_le_pow_right (by decide) (Nat.not_lt.mp hlen))
    simp [hlen, hzero]

/-- A part of the field reads the part of what was written. -/
theorem get_put_inside (hlo : off ≤ off') (hhi : off' + len' ≤ off + len) (hfit : off' + len' ≤ w) :
    get (put r d off len) off' len' = get d (off' - off) len' := by
  apply BitVec.eq_of_getLsbD_eq
  intro i hi
  rw [getLsbD_get, getLsbD_get, getLsbD_put]
  by_cases hlen : i < len'
  · rw [if_pos (by omega), Nat.sub_add_comm hlo]
  · simp [hlen]

theorem get_low : get d 0 len = BitVec.ofNat w (d.toNat % 2 ^ len) := by
  apply BitVec.eq_of_getLsbD_eq
  intro i hi
  rw [getLsbD_get, BitVec.getLsbD_ofNat, Nat.testBit_mod_two_pow, Nat.zero_add, decide_eq_true hi, Bool.true_and,
    BitVec.testBit_toNat]

theorem get_shift (k : Nat) : get d k len = get (d >>> k) 0 len := by
  apply BitVec.eq_of_getLsbD_eq
  intro i hi
  rw [getLsbD_get, getLsbD_get, BitVec.getLsbD_ushiftRight, Nat.zero_add]

/-- A field is made up of its parts. -/
theorem get_parts (k : Nat) (hk : k ≤ len) :
    get r off len = get r (off + k) (len - k) <<< k ||| get r off k := by
  apply BitVec.eq_of_getLsbD_eq
  intro i hi
  rw [getLsbD_get, BitVec.getLsbD_or, BitVec.getLsbD_shiftLeft, getLsbD_get, getLsbD_get]
  by_cases hlow : i < k
  · have hlen : i < len := by omega
    simp [hlow, hlen]
  · have hback : off + k + (i - k) = off + i := by omega
    have hlen : decide (i - k < len - k) = decide (i < len) := decide_eq_decide.mpr (by omega)
    rw [hback, hlen]
    simp [hlow, hi]

/-- The field is the whole register. -/
theorem put_all : put r d 0 w = d := by
  apply BitVec.eq_of_getLsbD_eq
  intro i hi
  rw [getLsbD_put, if_pos ⟨hi, by omega, by omega⟩, Nat.sub_zero]

/-- A field that has no bit in common with it reads as before. -/
theorem get_put_other (hapart : ∀ i, i < w → off ≤ i → i < off + len → ¬ (off' ≤ i ∧ i < off' + len')) :
    get (put r d off len) off' len' = get r off' len' := by
  apply BitVec.eq_of_getLsbD_eq
  intro i hi
  rw [getLsbD_get, getLsbD_get, getLsbD_put]
  by_cases hlen : i < len'
  · rw [if_neg]
    rintro ⟨hw, hlo, hhi⟩
    exact hapart (off' + i) hw hlo hhi ⟨by omega, by omega⟩
  · simp [hlen]

/-- The bits of a field that does not fit are lost. -/
theorem get_put_long (hlen : 0 < len) (hw : len ≤ w) (hlong : w < off + len) :
    ∃ d : BitVec w, d.toNat < 2 ^ len ∧ get (put r d off len) off len ≠ d := by
  refine ⟨BitVec.twoPow w (len - 1), ?_, fun h => ?_⟩
  · rw [BitVec.toNat_twoPow]
    exact Nat.lt_of_le_of_lt (Nat.mod_le _ _) (Nat.pow_lt_pow_right (by decide) (by omega))
  · have hbit := congrArg (BitVec.getLsbD · (len - 1)) h
    rw [getLsbD_get, BitVec.getLsbD_of_ge _ _ (by omega), BitVec.getLsbD_twoPow] at hbit
    simp at hbit
    omega

/-- What is written to a field shows in every field that has a bit in common with it. -/
theorem get_put_shared (hi : i < w) (hfield : off ≤ i ∧ i < off + len) (hfield' : off' ≤ i ∧ i < off' + len') :
    ∃ r d : BitVec w, d.toNat < 2 ^ len ∧ get (put r d off len) off' len' ≠ get r off' len' := by
  refine ⟨0, BitVec.twoPow w (i - off), ?_, fun h => ?_⟩
  · rw [BitVec.toNat_twoPow]
    exact Nat.lt_of_le_of_lt (Nat.mod_le _ _) (Nat.pow_lt_pow_right (by decide) (by omega))
  · have hbit := congrArg (BitVec.getLsbD · (i - off')) h
    have hback : off' + (i - off') = i := by omega
    rw [getLsbD_get, getLsbD_get, getLsbD_put, hback, if_pos ⟨hi, hfield⟩, BitVec.getLsbD_twoPow] at hbit
    simp at hbit
    omega

end

/-! ## Claims -/

/-- Of numbers as sets of bits: the bits that are in one of them, and those in two. -/
def cover : List Nat → Nat × Nat
  | [] => (0, 0)
  | m :: l => ((cover l).1 ||| m, (cover l).2 ||| ((cover l).1 &&& m))

theorem testBit_cover (l : List Nat) (k : Nat) :
    (cover l).1.testBit k = decide (1 ≤ l.countP (·.testBit k)) ∧
      (cover l).2.testBit k = decide (2 ≤ l.countP (·.testBit k)) := by
  induction l with
  | nil => simp [cover]
  | cons m l ih =>
    rw [cover, Nat.testBit_or, Nat.testBit_or, Nat.testBit_and, ih.1, ih.2, List.countP_cons]
    cases m.testBit k with
    | false => simp
    | true =>
      have himp : 2 ≤ l.countP (·.testBit k) → 1 ≤ l.countP (·.testBit k) := fun h => Nat.le_of_succ_le h
      simpa using himp

section
variable {α : Type} {f : α → Nat} {l : List α} {x : α}

/-- The bits of `x` are its own. -/
theorem and_cover_eq_zero (hl : l.Nodup) (hx : x ∈ l) :
    f x &&& (cover (l.map f)).2 = 0 ↔
      ∀ y ∈ l, y ≠ x → ∀ k, (f x).testBit k = true → (f y).testBit k = false := by
  obtain ⟨l₁, l₂, rfl⟩ := List.append_of_mem hx
  have hbit (k : Nat) : (f x &&& (cover ((l₁ ++ x :: l₂).map f)).2).testBit k = false ↔
      ((f x).testBit k = true → ∀ y ∈ l₁ ++ l₂, (f y).testBit k = false) := by
    rw [Nat.testBit_and, (testBit_cover _ k).2, List.countP_map, List.countP_append, List.countP_cons]
    cases hk : (f x).testBit k with
    | false => simp
    | true =>
      have hzero : (2 ≤ l₁.countP ((·.testBit k) ∘ f) + (l₂.countP ((·.testBit k) ∘ f) + 1)) ↔
          ¬ (l₁ ++ l₂).countP ((·.testBit k) ∘ f) = 0 := by
        rw [List.countP_append]
        omega
      simp [hk, hzero, List.countP_eq_zero, or_imp, forall_and]
  have hothers (y : α) : y ∈ l₁ ++ x :: l₂ ∧ y ≠ x ↔ y ∈ l₁ ++ l₂ := by
    have hnot : x ∉ l₁ ++ l₂ := (List.nodup_cons.mp (List.nodup_middle.mp hl)).1
    have hne : y ∈ l₁ ++ l₂ → y ≠ x := fun hy heq => hnot (heq ▸ hy)
    rw [List.perm_middle.mem_iff, List.mem_cons, and_comm]
    exact ⟨fun ⟨hne, hy⟩ => hy.resolve_left hne, fun hy => ⟨hne hy, .inr hy⟩⟩
  constructor
  · intro hzero y hy hne k hk
    refine (hbit k).mp ?_ hk y ((hothers y).mp ⟨hy, hne⟩)
    rw [hzero, Nat.zero_testBit]
  · intro h
    apply Nat.eq_of_testBit_eq
    intro k
    rw [Nat.zero_testBit, hbit]
    intro hk y hy
    obtain ⟨hy, hne⟩ := (hothers y).mpr hy
    exact h y hy hne k hk
end

end fields
