-- Computations that read a memory: what they give, and which cells they read
-- on the way.
import Mathlib.Data.List.Basic

namespace reading

/-- `size` cells from `start` on. -/
structure Extent where
  start : Nat
  size : Nat
  deriving DecidableEq

structure Reading (α : Type) where
  value : α
  reads : List Extent

instance : Monad Reading where
  pure x := ⟨x, []⟩
  bind r f := ⟨(f r.value).value, r.reads ++ (f r.value).reads⟩

/-- The value `x` is read from these cells. -/
def readAt {α : Type} (start size : Nat) (x : α) : Reading α := ⟨x, [⟨start, size⟩]⟩

/-- The cells lie before `len`. -/
def Extent.Inside (e : Extent) (len : Nat) : Prop := e.size = 0 ∨ e.start + e.size ≤ len

instance (e : Extent) (len : Nat) : Decidable (e.Inside len) := inferInstanceAs (Decidable (_ ∨ _))

/-- Nothing is read from `len` on. -/
def Reading.Inside {α : Type} (r : Reading α) (len : Nat) : Prop := ∀ e ∈ r.reads, e.Inside len

instance {α : Type} (r : Reading α) (len : Nat) : Decidable (r.Inside len) :=
  inferInstanceAs (Decidable (∀ e ∈ r.reads, _))

variable {α β : Type} {len : Nat}

@[simp] theorem value_pure (x : α) : (pure x : Reading α).value = x := rfl

@[simp] theorem value_readAt (start size : Nat) (x : α) : (readAt start size x).value = x := rfl

@[simp] theorem value_bind (r : Reading α) (f : α → Reading β) : (r >>= f).value = (f r.value).value := rfl

@[simp] theorem inside_pure (x : α) : (pure x : Reading α).Inside len := nofun

@[simp] theorem inside_readAt (start size : Nat) (x : α) :
    (readAt start size x).Inside len ↔ size = 0 ∨ start + size ≤ len := by
  simp [readAt, Reading.Inside, Extent.Inside]

theorem inside_readAt_bind (start size : Nat) (x : α) (f : α → Reading β) :
    (readAt start size x >>= f).Inside len ↔ (size = 0 ∨ start + size ≤ len) ∧ (f x).Inside len := by
  rw [← inside_readAt start size x]
  exact List.forall_mem_append

@[simp] theorem inside_bind (r : Reading α) (f : α → Reading β) :
    (r >>= f).Inside len ↔ r.Inside len ∧ (f r.value).Inside len := List.forall_mem_append

end reading
