-- A process that takes one way from each state until it stops. On finitely many
-- states it stops unless it comes back to one of them.
import Mathlib.Data.Fintype.Pigeonhole
import Mathlib.Logic.Relation

namespace halting

open Relation

variable {σ : Type*} {f : σ → Option σ} {s t : σ} {n : Nat}

/-- The state after some steps, when the process has not stopped before. -/
def after (f : σ → Option σ) : Nat → σ → Option σ
  | 0, s => some s
  | n + 1, s => (f s).bind (after f n)

def Stops (f : σ → Option σ) (s : σ) : Prop := ∃ n, after f n s = none

def Leads (f : σ → Option σ) (s t : σ) : Prop := f s = some t

theorem after_leads (h : Leads f s t) : after f (n + 1) s = after f n t := by
  rw [after, show f s = some t from h, Option.bind_some]

/-- A process that has stopped stays so. -/
theorem after_succ (h : after f n s = none) : after f (n + 1) s = none := by
  induction n generalizing s with
  | zero => cases h
  | succ n ih =>
    cases hs : f s with
    | none => rw [after, hs, Option.bind_none]
    | some t =>
      rw [after_leads hs] at h ⊢
      exact ih h

theorem after_cycle (h : TransGen (Leads f) s t) (hn : after f (n + 1) s = none) : after f n t = none := by
  induction h with
  | single h => rwa [after_leads h] at hn
  | tail _ h ih =>
    have ht := after_succ ih
    rwa [after_leads h] at ht

/-- A state that comes back is never left behind. -/
theorem not_stops_of_cycle (h : TransGen (Leads f) s s) : ¬ Stops f s := by
  rintro ⟨n, hn⟩
  induction n with
  | zero => cases hn
  | succ n ih => exact ih (after_cycle h hn)

theorem Stops.reach (h : Stops f s) (hst : ReflTransGen (Leads f) s t) : Stops f t := by
  induction hst with
  | refl => exact h
  | tail _ hleads ih =>
    obtain ⟨n, hn⟩ := ih
    exact ⟨n, after_cycle (.single hleads) (after_succ hn)⟩

theorem after_reach (h : after f n s = some t) : ReflTransGen (Leads f) s t := by
  induction n generalizing s with
  | zero =>
    cases h
    exact .refl
  | succ n ih =>
    obtain ⟨u, hu, hrest⟩ := Option.bind_eq_some_iff.mp h
    exact (ih hrest).head hu

theorem after_add (m n : Nat) (s : σ) : after f (m + n) s = (after f m s).bind (after f n) := by
  induction m generalizing s with
  | zero => rw [Nat.zero_add, after, Option.bind_some]
  | succ m ih =>
    rw [Nat.succ_add, after, after, Option.bind_assoc]
    exact congrArg (Option.bind (f s)) (funext ih)

theorem after_later (h : after f (n + 1) s = some t) : TransGen (Leads f) s t := by
  obtain ⟨u, hu, hrest⟩ := Option.bind_eq_some_iff.mp h
  exact .head' hu (after_reach hrest)

/-- Where there are finitely many states, only one that comes back keeps the process going. -/
theorem stops_iff [Finite σ] :
    Stops f s ↔ ¬ ∃ t, ReflTransGen (Leads f) s t ∧ TransGen (Leads f) t t := by
  constructor
  · rintro h ⟨t, hst, hcycle⟩
    exact not_stops_of_cycle hcycle (h.reach hst)
  · intro h
    by_contra hgoes
    have hsome : ∀ n, ∃ t, after f n s = some t :=
      fun n => Option.ne_none_iff_exists'.mp fun hn => hgoes ⟨n, hn⟩
    choose at' hat using hsome
    obtain ⟨m, n, hne, hsame⟩ := Finite.exists_ne_map_eq_of_infinite at'
    have hback : ∀ m n, m < n → at' m = at' n → False := by
      intro m n hlt hsame
      obtain ⟨k, rfl⟩ := Nat.exists_eq_add_of_lt hlt
      have hrest : after f (k + 1) (at' m) = some (at' m) := by
        have hn := hat (m + k + 1)
        rw [Nat.add_assoc, after_add, hat m, Option.bind_some] at hn
        rw [hn, ← Nat.add_assoc, ← hsame]
      exact h ⟨at' m, after_reach (hat m), after_later hrest⟩
    rcases Nat.lt_or_gt_of_ne hne with hlt | hlt
    · exact hback m n hlt hsame
    · exact hback n m hlt hsame.symm

/-- A measure that grows with each step that the process takes never comes back. -/
theorem stops_of_growth [Finite σ] (size : σ → Nat)
    (hgrows : ∀ t u, ReflTransGen (Leads f) s t → Leads f t u → size t < size u) : Stops f s := by
  rw [stops_iff]
  rintro ⟨t, hst, hcycle⟩
  have hlt : ∀ u, TransGen (Leads f) t u → size t < size u := by
    intro u h
    induction h with
    | single h => exact hgrows _ _ hst h
    | tail hpast h ih => exact ih.trans (hgrows _ _ (hst.trans hpast.to_reflTransGen) h)
  exact Nat.lt_irrefl _ (hlt t hcycle)

end halting
