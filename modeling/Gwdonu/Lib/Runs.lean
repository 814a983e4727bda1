-- Runs of a machine that takes one event after another: what holds of the
-- state after every run, and what holds of every step along a run.
import Mathlib.Data.List.Basic
import Mathlib.Tactic.Common

namespace runs

variable {σ ε : Type*} {step : σ → ε → σ}

/-- The state after a list of events. -/
def run (step : σ → ε → σ) (s : σ) (es : List ε) : σ := es.foldl step s

@[simp] theorem run_nil (s : σ) : run step s [] = s := rfl

@[simp] theorem run_cons (s : σ) (e : ε) (es : List ε) :
    run step s (e :: es) = run step (step s e) es := rfl

@[simp] theorem run_append (s : σ) (es fs : List ε) :
    run step s (es ++ fs) = run step (run step s es) fs := List.foldl_append

/-- Each event of the run meets `P` in the state that it finds. -/
def Along (step : σ → ε → σ) (P : σ → ε → Prop) : σ → List ε → Prop
  | _, [] => True
  | s, e :: es => P s e ∧ Along step P (step s e) es

instance {P : σ → ε → Prop} [∀ s e, Decidable (P s e)] :
    ∀ (s : σ) (es : List ε), Decidable (Along step P s es)
  | _, [] => .isTrue trivial
  | s, e :: es =>
    have : Decidable (Along step P (step s e) es) := instDecidableAlong (step s e) es
    inferInstanceAs (Decidable (P s e ∧ Along step P (step s e) es))

@[simp] theorem along_nil (P : σ → ε → Prop) (s : σ) : Along step P s [] := trivial

@[simp] theorem along_cons (P : σ → ε → Prop) (s : σ) (e : ε) (es : List ε) :
    Along step P s (e :: es) ↔ P s e ∧ Along step P (step s e) es := Iff.rfl

theorem along_append (P : σ → ε → Prop) (s : σ) (es fs : List ε) :
    Along step P s (es ++ fs) ↔ Along step P s es ∧ Along step P (run step s es) fs := by
  induction es generalizing s with
  | nil => simp
  | cons e es ih => simp [ih, and_assoc]

/-- What each step keeps, as long as the events meet `P`, holds after the run. -/
theorem run_inv {I : σ → Prop} {P : σ → ε → Prop}
    (hstep : ∀ s e, I s → P s e → I (step s e)) {s : σ} {es : List ε} (h0 : I s)
    (hp : Along step P s es) : I (run step s es) := by
  induction es generalizing s with
  | nil => exact h0
  | cons e es ih => exact ih (hstep s e h0 hp.1) hp.2

/-- Two machines that step alike from the states of `I` run alike. -/
theorem run_congr {I : σ → Prop} {step' : σ → ε → σ} {es : List ε}
    (h : ∀ s, ∀ e ∈ es, I s → step s e = step' s e ∧ I (step s e)) {s : σ} (h0 : I s) :
    run step s es = run step' s es := by
  induction es generalizing s with
  | nil => rfl
  | cons e es ih =>
    obtain ⟨heq, hi⟩ := h s e List.mem_cons_self h0
    rw [run_cons, run_cons, ← heq]
    exact ih (fun s f hf => h s f (List.mem_cons_of_mem e hf)) hi

/-- Along a run whose states keep `I`, one step law carries over to the run. -/
theorem along_imp {I : σ → Prop} {P Q : σ → ε → Prop}
    (hstep : ∀ s e, I s → P s e → I (step s e)) (h : ∀ s e, I s → P s e → Q s e)
    {s : σ} {es : List ε} (h0 : I s) (hp : Along step P s es) : Along step Q s es := by
  induction es generalizing s with
  | nil => trivial
  | cons e es ih => exact ⟨h s e h0 hp.1, ih (hstep s e h0 hp.1) hp.2⟩

/-- What the law of each step says of its event holds of every event of the run. -/
theorem along_mem {P : σ → ε → Prop} {Q : ε → Prop} (h : ∀ s e, P s e → Q e) {s : σ} {es : List ε}
    (hp : Along step P s es) : ∀ e ∈ es, Q e := by
  induction es generalizing s with
  | nil => simp
  | cons e es ih =>
    intro f hf
    rcases List.mem_cons.mp hf with rfl | hf
    · exact h s f hp.1
    · exact ih hp.2 f hf

theorem along_of {P : σ → ε → Prop} {es : List ε} (h : ∀ s, ∀ e ∈ es, P s e) (s : σ) :
    Along step P s es := by
  induction es generalizing s with
  | nil => trivial
  | cons e es ih =>
    exact ⟨h s e List.mem_cons_self, ih (fun s f hf => h s f (List.mem_cons_of_mem e hf)) _⟩

theorem along_and (P Q : σ → ε → Prop) (s : σ) (es : List ε) :
    Along step (fun s e => P s e ∧ Q s e) s es ↔ Along step P s es ∧ Along step Q s es := by
  induction es generalizing s with
  | nil => simp
  | cons e es ih => simp [ih, and_and_and_comm]

theorem along_true (s : σ) (es : List ε) : Along step (fun _ _ => True) s es :=
  along_of (fun _ _ _ => trivial) s

/-- Two step laws that say the same in every state of `I`, of every event that
meets `A`, say the same of every run of such events, when `Q` keeps `I`. -/
theorem along_iff_of {I : σ → Prop} {A P Q : σ → ε → Prop}
    (hstep : ∀ s e, I s → A s e → Q s e → I (step s e)) (h : ∀ s e, I s → A s e → (P s e ↔ Q s e))
    {s : σ} (h0 : I s) {es : List ε} (ha : Along step A s es) :
    Along step P s es ↔ Along step Q s es := by
  induction es generalizing s with
  | nil => exact Iff.rfl
  | cons e es ih =>
    rw [along_cons, along_cons, h s e h0 ha.1]
    exact and_congr_right fun hq => ih (hstep s e h0 ha.1 hq) ha.2

/-- Two step laws that say the same in every state of `I` say the same of
every run, when each step that meets the second one keeps `I`. -/
theorem along_iff_along {I : σ → Prop} {P Q : σ → ε → Prop}
    (hstep : ∀ s e, I s → Q s e → I (step s e)) (h : ∀ s e, I s → (P s e ↔ Q s e))
    {s : σ} (h0 : I s) (es : List ε) : Along step P s es ↔ Along step Q s es :=
  along_iff_of (fun s e hi _ => hstep s e hi) (fun s e hi _ => h s e hi) h0 (along_true s es)

/-! ## Views -/

/-- A view of the state that each step carries on does not see the events that
leave it as it is. -/
theorem view_filter {τ : Type*} {v : σ → τ} {p : ε → Bool}
    (hstep : ∀ s t e, v s = v t → v (step s e) = v (step t e)) {s : σ} {es : List ε}
    (h : Along step (fun s e => p e = false → v (step s e) = v s) s es) :
    v (run step s es) = v (run step s (es.filter p)) := by
  have hrun : ∀ (es : List ε) (s t : σ), v s = v t → v (run step s es) = v (run step t es) := by
    intro es
    induction es with
    | nil => exact fun _ _ hst => hst
    | cons e es ih => exact fun s t hst => ih _ _ (hstep s t e hst)
  induction es generalizing s with
  | nil => rfl
  | cons e es ih =>
    rw [run_cons, ih h.2, List.filter_cons]
    cases hp : p e with
    | false => exact hrun _ _ _ (h.1 hp)
    | true => rfl

/-- A loop that does not come to `p`, when only `p` changes the view. -/
theorem view_none {τ : Type*} {v : σ → τ} {p : ε}
    (hother : ∀ s e, e ≠ p → v (step s e) = v s) {es : List ε} (hp : p ∉ es) (s : σ) :
    v (run step s es) = v s := by
  induction es generalizing s with
  | nil => rfl
  | cons e es ih =>
    rw [List.mem_cons, not_or] at hp
    rw [run_cons, ih hp.2, hother s e (Ne.symm hp.1)]

/-- A loop over distinct entries, of which only `p` changes the view, changes it once. -/
theorem view_once {τ : Type*} {v : σ → τ} {p : ε} {g : τ → τ}
    (hother : ∀ s e, e ≠ p → v (step s e) = v s) (hp : ∀ s, v (step s p) = g (v s)) {es : List ε}
    (hnodup : es.Nodup) (hmem : p ∈ es) (s : σ) : v (run step s es) = g (v s) := by
  induction es generalizing s with
  | nil => cases hmem
  | cons e es ih =>
    obtain ⟨hnot, hnodup⟩ := List.nodup_cons.mp hnodup
    rw [run_cons]
    rcases List.mem_cons.mp hmem with rfl | hmem
    · rw [view_none hother hnot, hp]
    · rw [ih hnodup hmem, hother s e (fun h => hnot (h ▸ hmem))]

/-- A loop keeps a relation to its start that each turn keeps. -/
theorem run_rel {τ : Type*} {v : σ → τ} {r : τ → τ → Prop} (hrefl : ∀ x, r x x)
    (htrans : ∀ x y z, r x y → r y z → r x z) (hstep : ∀ s e, r (v s) (v (step s e)))
    (s : σ) (es : List ε) : r (v s) (v (run step s es)) := by
  induction es generalizing s with
  | nil => exact hrefl _
  | cons e es ih => exact htrans _ _ _ (hstep s e) (ih _)

/-- Events that carry `I m` to `I (m + 1)` carry it on, as often as they come. -/
theorem run_times {I : Nat → σ → Prop} {es : List ε} {s : σ} {n : Nat} (hs : I n s) (k : Nat)
    (h : ∀ m s, m < n + k → I m s → I (m + 1) (run step s es)) :
    I (n + k) (run step s (List.replicate k es).flatten) := by
  induction k with
  | zero => exact hs
  | succ k ih =>
    rw [List.replicate_succ', List.flatten_append, List.flatten_singleton, run_append]
    exact h _ _ (Nat.lt_succ_self _) (ih fun m s hm => h m s (Nat.lt_succ_of_lt hm))

/-! ## Order -/

/-- An event that goes with each of the others can come behind them. -/
theorem run_swap {e : ε} {es : List ε} (h : ∀ f ∈ es, ∀ s, step (step s e) f = step (step s f) e) (s : σ) :
    run step (step s e) es = step (run step s es) e := by
  induction es generalizing s with
  | nil => rfl
  | cons f es ih =>
    obtain ⟨hf, hes⟩ := List.forall_mem_cons.mp h
    rw [run_cons, run_cons, hf, ih hes]

/-- Numbers in a row, cut at one of them. -/
theorem range'_cut {a i n : Nat} (h : i < n) :
    List.range' a n = List.range' a i ++ (a + i) :: List.range' (a + i + 1) (n - (i + 1)) := by
  have hparts := List.range'_append_1 (s := a) (m := i) (n := n - (i + 1) + 1)
  rw [List.range'_succ, show i + (n - (i + 1) + 1) = n by omega] at hparts
  exact hparts.symm

theorem range_cut {i n : Nat} (h : i < n) :
    List.range n = List.range i ++ i :: List.range' (i + 1) (n - (i + 1)) := by
  have hparts := range'_cut (a := 0) h
  rwa [Nat.zero_add, ← List.range_eq_range', ← List.range_eq_range'] at hparts

/-- Numbers that go with each smaller one behind them can come in their order, each once. -/
theorem run_range {step : σ → Nat → σ} {n : Nat} {es : List Nat} (hn : ∀ e ∈ es, e < n)
    (hswap : es.Pairwise fun a b => b < a → ∀ s, step (step s a) b = step (step s b) a)
    (hagain : es.Pairwise fun a b => a = b → ∀ s, step (step s a) b = step s a) (s : σ) :
    run step s es = run step s ((List.range n).filter (· ∈ es)) := by
  induction es generalizing s with
  | nil => simp
  | cons a es ih =>
    obtain ⟨ha, hn⟩ := List.forall_mem_cons.mp hn
    obtain ⟨hswap_a, hswap⟩ := List.pairwise_cons.mp hswap
    obtain ⟨hagain_a, hagain⟩ := List.pairwise_cons.mp hagain
    have hbelow : (List.range a).filter (· ∈ a :: es) = (List.range a).filter (· ∈ es) := by
      refine List.filter_congr fun b hb => ?_
      have hne : b ≠ a := Nat.ne_of_lt (List.mem_range.mp hb)
      simp [hne]
    have habove : (List.range' (a + 1) (n - (a + 1))).filter (· ∈ a :: es) =
        (List.range' (a + 1) (n - (a + 1))).filter (· ∈ es) := by
      refine List.filter_congr fun b hb => ?_
      have hne : b ≠ a := by have hlt := (List.mem_range'_1.mp hb).1; omega
      simp [hne]
    rw [run_cons, ih hn hswap hagain, range_cut ha, List.filter_append, List.filter_append, hbelow, List.filter_cons,
      List.filter_cons, habove, run_append, run_append, run_swap]
    · simp only [List.mem_cons, true_or, decide_true, if_true]
      split_ifs with hmem
      · have hmem : a ∈ es := by simpa using hmem
        rw [run_cons, run_cons, hagain_a a hmem rfl]
      · rfl
    · intro b hb
      obtain ⟨hlt, hmem⟩ := List.mem_filter.mp hb
      exact hswap_a b (by simpa using hmem) (List.mem_range.mp hlt)

/-! ## Machines that answer -/

section
variable {ω τ : Type*} {f : σ → ε → σ × ω} {g : τ → ε → τ × ω}

/-- What a machine answers to a list of events. -/
def outputs (f : σ → ε → σ × ω) : σ → List ε → List ω
  | _, [] => []
  | s, e :: es => (f s e).2 :: outputs f (f s e).1 es

/-- The step of such a machine. -/
def next (f : σ → ε → σ × ω) (s : σ) (e : ε) : σ := (f s e).1

/-- Machines whose steps go together give the same answers, and stay together. -/
theorem outputs_eq {R : σ → τ → Prop}
    (h : ∀ s t e, R s t → (f s e).2 = (g t e).2 ∧ R (f s e).1 (g t e).1) {s : σ} {t : τ}
    (h0 : R s t) (es : List ε) :
    outputs f s es = outputs g t es ∧ R (run (next f) s es) (run (next g) t es) := by
  induction es generalizing s t with
  | nil => exact ⟨rfl, h0⟩
  | cons e es ih =>
    obtain ⟨hout, hstep⟩ := h s t e h0
    obtain ⟨hrest, hrun⟩ := ih hstep
    exact ⟨by rw [outputs, outputs, hout, hrest], hrun⟩

end

end runs
