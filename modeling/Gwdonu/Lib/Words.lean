-- Words of 16 bits in a memory of bytes, the low byte first: what the last write to a place
-- leaves there.
import Gwdonu.Lib.Runs
import Mathlib.Logic.Function.Basic

namespace words

open Function runs

variable {ι : Type*} {addr : ι → Nat} {mem : Nat → BitVec 8} {i j : ι} {w w' : BitVec 16}
  {l behind before : List (ι × BitVec 16)}

def low (w : BitVec 16) : BitVec 8 := w.setWidth 8

def high (w : BitVec 16) : BitVec 8 := (w >>> 8).setWidth 8

/-- A word is written to its two bytes. -/
def put (addr : ι → Nat) (mem : Nat → BitVec 8) (x : ι × BitVec 16) : Nat → BitVec 8 :=
  update (update mem (addr x.1) (low x.2)) (addr x.1 + 1) (high x.2)

def Holds (addr : ι → Nat) (mem : Nat → BitVec 8) (i : ι) (w : BitVec 16) : Prop :=
  mem (addr i) = low w ∧ mem (addr i + 1) = high w

/-- The places have no byte in common. -/
def Spaced (addr : ι → Nat) (i j : ι) : Prop := addr i + 2 ≤ addr j ∨ addr j + 2 ≤ addr i

theorem ext_iff : w = w' ↔ low w = low w' ∧ high w = high w' := by
  constructor
  · rintro rfl
    exact ⟨rfl, rfl⟩
  · rintro ⟨hlow, hhigh⟩
    apply BitVec.eq_of_getLsbD_eq
    intro b hb
    by_cases hb8 : b < 8
    · have hbit := congrArg (fun x => BitVec.getLsbD x b) hlow
      simpa [low, hb8] using hbit
    · have hbit := congrArg (fun x => BitVec.getLsbD x (b - 8)) hhigh
      simpa [high, show b - 8 < 8 by omega, show 8 + (b - 8) = b by omega] using hbit

theorem high_eq_zero_of_lt (h : w.toNat < 256) : high w = 0 := by
  apply BitVec.eq_of_toNat_eq
  rw [high, BitVec.toNat_setWidth, BitVec.toNat_ushiftRight, Nat.shiftRight_eq_div_pow, Nat.div_eq_of_lt h]
  rfl

theorem holds_put : Holds addr (put addr mem (i, w)) i w' ↔ w = w' := by
  rw [ext_iff, Holds, put, update_self, update_of_ne (Nat.ne_of_lt (Nat.lt_succ_self _)), update_self]

theorem holds_put_other (h : Spaced addr i j) :
    Holds addr (put addr mem (j, w)) i w' ↔ Holds addr mem i w' := by
  unfold Spaced at h
  unfold Holds put
  dsimp only
  rw [update_of_ne (by omega), update_of_ne (by omega), update_of_ne (by omega), update_of_ne (by omega)]

theorem holds_run_other (h : ∀ x ∈ l, Spaced addr i x.1) :
    Holds addr (run (put addr) mem l) i w' ↔ Holds addr mem i w' := by
  induction l generalizing mem with
  | nil => rfl
  | cons x l ih =>
    obtain ⟨hx, hl⟩ := List.forall_mem_cons.mp h
    rw [run_cons, ih hl, holds_put_other hx]

/-- The last word that is written to a place is there. -/
theorem holds_run_last (h : ∀ x ∈ behind, Spaced addr i x.1) :
    Holds addr (run (put addr) mem (before ++ (i, w) :: behind)) i w' ↔ w = w' := by
  rw [run_append, run_cons, holds_run_other h, holds_put]

/-- A byte outside all the places is as it was. -/
theorem run_byte {a : Nat} (h : ∀ x ∈ l, a ≠ addr x.1 ∧ a ≠ addr x.1 + 1) : run (put addr) mem l a = mem a := by
  induction l generalizing mem with
  | nil => rfl
  | cons x l ih =>
    obtain ⟨⟨hlow, hhigh⟩, hl⟩ := List.forall_mem_cons.mp h
    rw [run_cons, ih hl, put, update_of_ne hhigh, update_of_ne hlow]

end words
