-- Calls whose outcome does not depend on the state, as far as an invariant goes: from each of its
-- states they give a value, or from each they fail, and they keep it.
import Gwdonu.Lib.Calls

namespace outcomes

open calls

universe u

variable {ε σ α β : Type u} {I : σ → Prop} {V : α → Prop} {W : β → Prop} {x : EStateM ε σ α} {f : α → EStateM ε σ β}

/-- From each state of `I` on, the call gives a value of `V`. -/
def Succeeds (I : σ → Prop) (x : EStateM ε σ α) (V : α → Prop) : Prop := ∀ s, I s → Gives x s fun a t => V a ∧ I t

/-- From each state of `I` on, the call fails. -/
def Fails (I : σ → Prop) (x : EStateM ε σ α) : Prop := ∀ s, I s → Meets x s (fun _ _ => False) fun _ t => I t

theorem succeeds_pure {a : α} (h : V a) : Succeeds (ε := ε) I (pure a) V := fun _ hI => ⟨h, hI⟩

theorem fails_throw {e : ε} : Fails I (throw e : EStateM ε σ α) := fun _ hI => hI

theorem succeeds_get {g : σ → EStateM ε σ β} (h : ∀ s, I s → Succeeds I (g s) W) :
    Succeeds I (do let s ← get; g s) W := fun s hI => meets_bind.mpr (h s hI s hI)

theorem fails_get {g : σ → EStateM ε σ β} (h : ∀ s, I s → Fails I (g s)) : Fails I (do let s ← get; g s) :=
  fun s hI => meets_bind.mpr (h s hI s hI)

theorem Succeeds.bind (hx : Succeeds I x V) (hf : ∀ a, V a → Succeeds I (f a) W) : Succeeds I (x >>= f) W :=
  fun s hI => meets_bind.mpr ((hx s hI).imp (fun a t ht => hf a ht.1 t ht.2) fun _ _ h => h.elim)

/-- A call that fails behind one that does not. -/
theorem Succeeds.fails (hx : Succeeds I x V) (hf : ∀ a, V a → Fails I (f a)) : Fails I (x >>= f) :=
  fun s hI => meets_bind.mpr ((hx s hI).imp (fun a t ht => hf a ht.1 t ht.2) fun _ _ h => h.elim)

theorem Fails.bind (hx : Fails I x) : Fails I (x >>= f) :=
  fun s hI => meets_bind.mpr ((hx s hI).imp (fun _ _ h => h.elim) fun _ _ h => h)

theorem Fails.not_gives {s : σ} {Q : α → σ → Prop} (hx : Fails I x) (hs : I s) : ¬ Gives x s Q := fun h => by
  obtain ⟨a, t, heq, -⟩ := h.exists
  have hfails := hx s hs
  rw [Meets, heq] at hfails
  exact hfails

theorem Succeeds.imp {V' : α → Prop} (hx : Succeeds I x V) (h : ∀ a, V a → V' a) : Succeeds I x V' :=
  fun s hI => (hx s hI).imp (fun a _ ht => ⟨h a ht.1, ht.2⟩) fun _ _ h => h

/-- What comes behind the call only has to agree on its values and on `I`. -/
theorem Succeeds.congr {g : α → EStateM ε σ β} {s : σ} (hx : Succeeds I x V) (h : ∀ a t, V a → I t → f a t = g a t)
    (hs : I s) : (x >>= f) s = (x >>= g) s := by
  obtain ⟨a, t, heq, hV, hI⟩ := (hx s hs).exists
  change EStateM.bind x f s = EStateM.bind x g s
  rw [EStateM.bind, EStateM.bind, heq]
  exact h a t hV hI

theorem Fails.congr {g : α → EStateM ε σ β} {s : σ} (hx : Fails I x) (hs : I s) : (x >>= f) s = (x >>= g) s := by
  have hfails := hx s hs
  change EStateM.bind x f s = EStateM.bind x g s
  rw [EStateM.bind, EStateM.bind]
  unfold Meets at hfails
  split at hfails
  · exact hfails.elim
  · rename_i heq
    rw [heq]

theorem Succeeds.forM {γ : Type u} {g : γ → EStateM ε σ PUnit} {l : List γ}
    (h : ∀ c ∈ l, Succeeds I (g c) fun _ => True) : Succeeds I (forM l g) fun _ => True :=
  fun _ hI => (meets_forM_inv (fun c hc s hs => (h c hc s hs).imp (fun _ _ ht => ht.2) fun _ _ h => h) hI).imp
    (fun _ _ ht => ⟨trivial, ht⟩) fun _ _ h => h

end outcomes
