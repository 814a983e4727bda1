-- Calls that change a state and give a value or fail: what holds when they return, with
-- one rule for each way to put calls together.
import Mathlib.Tactic.Common

namespace calls

universe u

variable {ε σ α β : Type u} {s : σ} {x : EStateM ε σ α} {Q Q' : α → σ → Prop} {E E' : ε → σ → Prop}

/-- From `s` on, the call gives a value as `Q` says, or fails as `E` says. -/
def Meets (x : EStateM ε σ α) (s : σ) (Q : α → σ → Prop) (E : ε → σ → Prop) : Prop :=
  match x s with
  | .ok a t => Q a t
  | .error e t => E e t

/-- The call gives a value, as `Q` says. -/
abbrev Gives (x : EStateM ε σ α) (s : σ) (Q : α → σ → Prop) : Prop := Meets x s Q fun _ _ => False

/-- The call ends as `P` says, with a value or without. -/
abbrev Always (x : EStateM ε σ α) (s : σ) (P : σ → Prop) : Prop := Meets x s (fun _ => P) fun _ => P

theorem Gives.exists {Q : α → σ → Prop} (h : Gives x s Q) : ∃ a t, x s = .ok a t ∧ Q a t := by
  unfold Gives Meets at h
  split at h
  · exact ⟨_, _, ‹_›, h⟩
  · cases h

/-- The call gives this value and ends in this state. -/
theorem ok_iff {a : α} {t : σ} : x s = .ok a t ↔ Gives x s fun b u => b = a ∧ u = t := by
  unfold Gives Meets
  cases x s with
  | ok b u =>
    dsimp only
    rw [EStateM.Result.ok.injEq]
  | error e u => exact iff_of_false (fun h => nomatch h) id

/-- The call fails, and ends in this state. -/
theorem error_iff {e : ε} {t : σ} : x s = .error e t ↔ Meets x s (fun _ _ => False) fun e' u => e' = e ∧ u = t := by
  unfold Meets
  cases x s with
  | ok b u => exact iff_of_false (fun h => nomatch h) id
  | error e' u =>
    dsimp only
    rw [EStateM.Result.error.injEq]

/-- The state that a call ends in. -/
def after (x : EStateM ε σ α) (s : σ) : σ :=
  match x s with
  | .ok _ t => t
  | .error _ t => t

theorem always_iff {P : σ → Prop} : Always x s P ↔ P (after x s) := by
  unfold Always Meets after
  cases x s <;> rfl

theorem Always.exists {P : σ → Prop} (h : Always x s P) : ∃ t, P t := by
  unfold Always Meets at h
  split at h
  · exact ⟨_, h⟩
  · exact ⟨_, h⟩

theorem Meets.imp (h : Meets x s Q E) (hQ : ∀ a t, Q a t → Q' a t) (hE : ∀ e t, E e t → E' e t) :
    Meets x s Q' E' := by
  unfold Meets at *
  split
  · rename_i heq
    rw [heq] at h
    exact hQ _ _ h
  · rename_i heq
    rw [heq] at h
    exact hE _ _ h

theorem Meets.and (h : Meets x s Q E) (h' : Meets x s Q' E') :
    Meets x s (fun a t => Q a t ∧ Q' a t) fun e t => E e t ∧ E' e t := by
  unfold Meets at *
  split
  · rename_i heq
    rw [heq] at h h'
    exact ⟨h, h'⟩
  · rename_i heq
    rw [heq] at h h'
    exact ⟨h, h'⟩

/-- What holds of two ways to see a call that gives a value. -/
theorem Gives.both (h : Gives x s Q) (h' : Gives x s Q') : ∃ a t, Q a t ∧ Q' a t := by
  obtain ⟨a, t, -, ht⟩ := Gives.exists ((Meets.and h h').imp (fun _ _ h => h) fun _ _ h => h.1)
  exact ⟨a, t, ht⟩

@[simp] theorem meets_pure {a : α} : Meets (pure a) s Q E ↔ Q a s := Iff.rfl

@[simp] theorem meets_throw {e : ε} : Meets (throw e : EStateM ε σ α) s Q E ↔ E e s := Iff.rfl

@[simp] theorem meets_get {Q : σ → σ → Prop} : Meets get s Q E ↔ Q s s := Iff.rfl

@[simp] theorem meets_modify {f : σ → σ} {Q : PUnit → σ → Prop} :
    Meets (modify f) s Q E ↔ Q PUnit.unit (f s) := Iff.rfl

/-- A call that goes on with the value of another. -/
theorem meets_bind {f : α → EStateM ε σ β} {Q : β → σ → Prop} :
    Meets (x >>= f) s Q E ↔ Meets x s (fun a t => Meets (f a) t Q E) E := by
  change (match EStateM.bind x f s with | .ok a t => Q a t | .error e t => E e t) ↔
    (match x s with | .ok a t => Meets (f a) t Q E | .error e t => E e t)
  rw [EStateM.bind]
  cases x s <;> rfl

/-- A call that is made if the condition holds. -/
def when (c : Prop) [Decidable c] (x : EStateM ε σ PUnit) : EStateM ε σ PUnit :=
  if c then x else pure PUnit.unit

section
variable {c : Prop} [Decidable c] {x : EStateM ε σ PUnit} {Q : PUnit → σ → Prop}

theorem meets_when :
    Meets (when c x) s Q E ↔ (c → Meets x s Q E) ∧ (¬ c → Q PUnit.unit s) := by
  rw [when]
  split_ifs with h
  · simp [h]
  · simp [h]

@[simp] theorem when_true (h : c) : when c x = x := if_pos h

@[simp] theorem when_false (h : ¬ c) : when c x = pure PUnit.unit := if_neg h

end

/-- The second call is made whatever the first one returns, and leaves that as it is. -/
def lastly (x : EStateM ε σ α) (y : EStateM ε σ PUnit) : EStateM ε σ α := fun s =>
  match x s with
  | .ok a t =>
    match y t with
    | .ok _ u => .ok a u
    | .error _ u => .ok a u
  | .error e t =>
    match y t with
    | .ok _ u => .error e u
    | .error _ u => .error e u

theorem meets_lastly {y : EStateM ε σ PUnit} :
    Meets (lastly x y) s Q E ↔ Meets x s (fun a t => Meets y t (fun _ u => Q a u) fun _ u => Q a u)
      fun e t => Meets y t (fun _ u => E e u) fun _ u => E e u := by
  unfold Meets lastly
  cases x s with
  | ok a t =>
    dsimp only
    cases y t <;> rfl
  | error e t =>
    dsimp only
    cases y t <;> rfl

/-! ## Loops -/


/-- What holds of the elements that a loop is through with. -/
theorem meets_forM {f : α → EStateM ε σ PUnit} {l : List α} (I : List α → σ → Prop)
    (hstep : ∀ done a rest, l = done ++ a :: rest → ∀ s, I done s →
      Meets (f a) s (fun _ t => I (done ++ [a]) t) E) (h : I [] s) :
    Meets (forM l f) s (fun _ t => I l t) E := by
  have hrest : ∀ rest done s, l = done ++ rest → I done s → Meets (forM rest f) s (fun _ t => I l t) E := by
    intro rest
    induction rest with
    | nil =>
      intro done s heq hdone
      rw [List.append_nil] at heq
      rwa [List.forM_nil, meets_pure, heq]
    | cons a rest ih =>
      intro done s heq hdone
      rw [List.forM_cons, meets_bind]
      refine (hstep done a rest heq s hdone).imp (fun _ t ht => ?_) (fun _ _ ht => ht)
      exact ih (done ++ [a]) t (by rw [heq, List.append_assoc, List.singleton_append]) ht
  exact hrest l [] s rfl h

/-- The same for a loop that hands a value on. -/
theorem meets_foldlM {f : β → α → EStateM ε σ β} {l : List α} (I : List α → β → σ → Prop) {b : β}
    (hstep : ∀ done a rest, l = done ++ a :: rest → ∀ b s, I done b s →
      Meets (f b a) s (fun b t => I (done ++ [a]) b t) E) (h : I [] b s) :
    Meets (l.foldlM f b) s (fun b t => I l b t) E := by
  have hrest : ∀ rest done b s, l = done ++ rest → I done b s →
      Meets (rest.foldlM f b) s (fun b t => I l b t) E := by
    intro rest
    induction rest with
    | nil =>
      intro done b s heq hdone
      rw [List.append_nil] at heq
      rwa [List.foldlM_nil, meets_pure, heq]
    | cons a rest ih =>
      intro done b s heq hdone
      rw [List.foldlM_cons, meets_bind]
      refine (hstep done a rest heq b s hdone).imp (fun b t ht => ?_) (fun _ _ ht => ht)
      exact ih (done ++ [a]) b t (by rw [heq, List.append_assoc, List.singleton_append]) ht
  exact hrest l [] b s rfl h

/-- What each turn of a loop keeps. -/
theorem meets_forM_inv {f : α → EStateM ε σ PUnit} {l : List α} {I : σ → Prop}
    (hstep : ∀ a ∈ l, ∀ s, I s → Meets (f a) s (fun _ t => I t) E) (h : I s) :
    Meets (forM l f) s (fun _ t => I t) E := by
  refine meets_forM (fun _ => I) ?_ h
  rintro done a rest rfl s hs
  exact hstep a (by simp) s hs

end calls
