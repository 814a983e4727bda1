-- Calls that edit what is behind a state, one edit after the other: they make all their edits, or
-- fail with those made that come before the one that failed.
import Gwdonu.Lib.Calls

namespace edits

open calls

universe u v

variable {ε σ α β : Type u} {κ δ : Type v}

/-- The states in question, what is seen of them, what an edit makes of that, and whether one can
fail. -/
structure Frame (σ : Type u) (κ δ : Type v) where
  I : σ → Prop
  view : σ → κ
  edit : κ → δ → κ
  mayFail : Prop

namespace Frame

variable (F : Frame σ κ δ)

def apply (k : κ) (es : List δ) : κ := es.foldl F.edit k

/-- From `s` on, `es` are the edits of the call, and `V` holds of what it gives. -/
def Makes (x : EStateM ε σ α) (s : σ) (es : List δ) (V : α → Prop) : Prop :=
  F.I s → Meets x s (fun a t => V a ∧ F.I t ∧ F.view t = F.apply (F.view s) es)
    fun _ t => F.mayFail ∧ F.I t ∧ ∃ k < es.length, F.view t = F.apply (F.view s) (es.take k)

variable {F} {x : EStateM ε σ α} {f : α → EStateM ε σ β} {s : σ} {es es' : List δ} {V : α → Prop} {W : β → Prop}

@[simp] theorem apply_nil (k : κ) : F.apply k [] = k := rfl

@[simp] theorem apply_append (k : κ) (es es' : List δ) : F.apply k (es ++ es') = F.apply (F.apply k es) es' :=
  List.foldl_append

theorem makes_pure {a : α} (h : V a) : F.Makes (pure a : EStateM ε σ α) s [] V := fun hI => ⟨h, hI, rfl⟩

/-- A call that makes no edit does not fail. -/
theorem makes_read (h : F.I s → Gives x s fun a t => V a ∧ F.I t ∧ F.view t = F.view s) : F.Makes x s [] V := fun hI =>
  (h hI).imp (fun _ _ ht => ht) fun _ _ hf => hf.elim

/-- One edit is made, or none. -/
theorem makes_edit {e : δ} (h : F.I s → Meets x s (fun a t => V a ∧ F.I t ∧ F.view t = F.edit (F.view s) e)
    fun _ t => F.mayFail ∧ F.I t ∧ F.view t = F.view s) : F.Makes x s [e] V := fun hI =>
  (h hI).imp (fun _ _ ht => ht) fun _ _ ⟨hfail, ht, hview⟩ => ⟨hfail, ht, 0, Nat.one_pos, hview⟩

/-- What comes behind the edits of `x` sees what they made. -/
theorem Makes.bind (hx : F.Makes x s es V)
    (hf : ∀ a t, V a → F.view t = F.apply (F.view s) es → F.Makes (f a) t es' W) :
    F.Makes (x >>= f) s (es ++ es') W := by
  intro hI
  rw [meets_bind]
  refine (hx hI).imp ?_ ?_
  · rintro a t ⟨ha, ht, hview⟩
    refine (hf a t ha hview ht).imp ?_ ?_
    · rintro b u ⟨hb, hu, hview'⟩
      exact ⟨hb, hu, by rw [hview', hview, apply_append]⟩
    · rintro _ u ⟨hfail, hu, k, hk, hview'⟩
      refine ⟨hfail, hu, es.length + k, ?_, ?_⟩
      · rw [List.length_append]
        exact Nat.add_lt_add_left hk _
      · rw [List.take_length_add_append, apply_append, hview', hview]
  · rintro _ t ⟨hfail, ht, k, hk, hview⟩
    refine ⟨hfail, ht, k, ?_, ?_⟩
    · rw [List.length_append]
      exact Nat.lt_add_right _ hk
    · rw [List.take_append_of_le_length (Nat.le_of_lt hk), hview]

theorem makes_get {g : σ → EStateM ε σ β} (h : F.I s → F.Makes (g s) s es W) :
    F.Makes (do let s ← get; g s) s es W := fun hI => meets_bind.mpr (h hI hI)

theorem Makes.imp {V' : α → Prop} (h : F.Makes x s es V) (hV : ∀ a, V a → V' a) : F.Makes x s es V' := fun hI =>
  (h hI).imp (fun a _ ht => ⟨hV a ht.1, ht.2⟩) fun _ _ ht => ht

/-- What each of the edits keeps, any number of them keeps. -/
theorem apply_keeps {P : κ → Prop} {k : κ} (h : ∀ e ∈ es, ∀ k, P k → P (F.edit k e)) (hk : P k) :
    P (F.apply k es) := by
  induction es generalizing k with
  | nil => exact hk
  | cons e es ih =>
    exact ih (fun e he => h e (List.mem_cons_of_mem _ he)) (h e List.mem_cons_self k hk)

end Frame

end edits
