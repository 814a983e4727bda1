-- Traces of events: what each event may ask of the ones before it.
import Mathlib.Data.List.Basic
import Mathlib.Tactic.Common

namespace traces

variable {ε : Type*} {fits : List ε → ε → Prop} {l : List ε} {e : ε}

/-- Each event fits what is before it. -/
def Orderly (fits : List ε → ε → Prop) (l : List ε) : Prop :=
  ∀ before e behind, l = before ++ e :: behind → fits before e

theorem orderly_nil : Orderly fits [] := fun before e behind h =>
  absurd h.symm (List.append_ne_nil_of_right_ne_nil before (List.cons_ne_nil e behind))

/-- One more event only has to fit itself. -/
theorem orderly_concat : Orderly fits (l ++ [e]) ↔ Orderly fits l ∧ fits l e := by
  constructor
  · intro h
    refine ⟨?_, h l e [] rfl⟩
    rintro before f behind rfl
    exact h before f (behind ++ [e]) (by simp)
  · rintro ⟨h, he⟩ before f behind heq
    obtain rfl | ⟨behind, last, rfl⟩ := behind.eq_nil_or_concat
    · obtain rfl := List.singleton_inj.mp (List.append_inj_right' heq rfl)
      rwa [← List.append_inj_left' heq rfl]
    · rw [List.concat_eq_append, ← List.cons_append, ← List.append_assoc] at heq
      exact h before f behind (List.append_inj_left' heq rfl)

end traces
