-- Scanners that gather the digits of a number in a buffer until a separator comes, and the
-- numbers of a text with their separators.
import Mathlib.Data.List.Basic

namespace scanner

/-- Which characters are digits, which are passed over, and how many digits are too many. -/
structure Lexis (α : Type) where
  digit : α → Bool
  space : α → Bool
  room : Nat

/-- What a scanner does at a separator in a state, with the digits before it: its next state, and whether
it goes on. There are characters that are none. -/
abbrev Separators (σ α : Type) := σ → α → Option (List α → σ × Bool)

/-- A scanner has its own state, the digits in its buffer, and the places of the buffer that it wrote. -/
structure Scan (σ α : Type) where
  state : σ
  digits : List α
  written : List Nat

/-- A number and the separator behind it. -/
abbrev Token (α : Type) := List α × α

variable {σ α : Type} (L : Lexis α) (separators : Separators σ α)

/-- A character. A number is ended in its buffer. -/
def Scan.next (s : Scan σ α) (c : α) : Scan σ α × Bool :=
  if L.digit c then (⟨s.state, s.digits ++ [c], s.written ++ [s.digits.length]⟩, decide (s.digits.length + 1 < L.room))
  else if L.space c then (s, true)
  else
    match separators s.state c with
    | none => (s, false)
    | some f =>
      if s.digits.length = 0 then (s, false)
      else
        let r := f s.digits
        (⟨r.1, [], s.written ++ [s.digits.length]⟩, r.2)

/-- The characters up to the first that is turned down. -/
def Scan.scan (s : Scan σ α) : List α → Scan σ α × Bool
  | [] => (s, true)
  | c :: cs =>
    let r := s.next L separators c
    if r.2 then r.1.scan cs else r

/-- The numbers of a text that begins behind some digits. What stands behind the last separator is left out. -/
def tokens : List α → List α → List (Token α)
  | _, [] => []
  | ds, c :: cs =>
    if L.digit c then tokens (ds ++ [c]) cs
    else if L.space c then tokens ds cs
    else (ds, c) :: tokens [] cs

/-- A number that fits its buffer. -/
def Lexis.Number (ds : List α) : Prop := 0 < ds.length ∧ ds.length < L.room

instance (ds : List α) : Decidable (L.Number ds) := inferInstanceAs (Decidable (_ ∧ _))

def step (s : σ) (t : Token α) : σ × Bool :=
  match separators s t.2 with
  | none => (s, false)
  | some f => if L.Number t.1 then f t.1 else (s, false)

/-- The numbers up to the first that is turned down. -/
def run (s : σ) : List (Token α) → σ × Bool
  | [] => (s, true)
  | t :: ts =>
    let r := step L separators s t
    if r.2 then run r.1 ts else r

/-! ## The buffer -/

variable {L separators}

theorem next_written {s : Scan σ α} (h : s.digits.length < L.room) (c : α) :
    (∀ k ∈ (s.next L separators c).1.written, k ∈ s.written ∨ k < L.room) ∧
      ((s.next L separators c).2 = true → (s.next L separators c).1.digits.length < L.room) := by
  have hold : ∀ k ∈ s.written, k ∈ s.written ∨ k < L.room := fun k hk => Or.inl hk
  have hplace : ∀ k ∈ s.written ++ [s.digits.length], k ∈ s.written ∨ k < L.room := by
    intro k hk
    rcases List.mem_append.mp hk with hk | hk
    · exact Or.inl hk
    · rw [List.mem_singleton.mp hk]
      exact Or.inr h
  unfold Scan.next
  by_cases hdigit : L.digit c = true
  · rw [if_pos hdigit]
    refine ⟨hplace, fun hgo => ?_⟩
    rw [List.length_append]
    exact of_decide_eq_true hgo
  · rw [if_neg hdigit]
    by_cases hspace : L.space c = true
    · rw [if_pos hspace]
      exact ⟨hold, fun _ => h⟩
    · rw [if_neg hspace]
      cases separators s.state c with
      | none => exact ⟨hold, fun _ => h⟩
      | some f =>
        by_cases hempty : s.digits.length = 0
        · dsimp only
          rw [if_pos hempty]
          exact ⟨hold, fun _ => h⟩
        · dsimp only
          rw [if_neg hempty]
          exact ⟨hplace, fun _ => Nat.zero_lt_of_lt h⟩

/-- Nothing is written behind the room for the digits and the end of the number. -/
theorem scan_written (text : List α) {s : Scan σ α} (h : s.digits.length < L.room) :
    ∀ k ∈ (s.scan L separators text).1.written, k ∈ s.written ∨ k < L.room := by
  induction text generalizing s with
  | nil => exact fun k hk => Or.inl hk
  | cons c cs ih =>
    obtain ⟨hnext, hroom⟩ := next_written h c
    unfold Scan.scan
    dsimp only
    split_ifs with hgo
    · intro k hk
      rcases ih (hroom hgo) k hk with hk | hk
      · exact hnext k hk
      · exact Or.inr hk
    · exact hnext

/-! ## The numbers -/

theorem step_of_some {s : σ} {ds : List α} {c : α} {f : List α → σ × Bool} (h : separators s c = some f)
    (hds : L.Number ds) : step L separators s (ds, c) = f ds := by
  rw [step, h]
  exact if_pos hds

/-- What is taken is a number, with a separator behind it. -/
theorem of_step {s : σ} {t : Token α} (h : (step L separators s t).2 = true) :
    ∃ f, separators s t.2 = some f ∧ L.Number t.1 ∧ step L separators s t = f t.1 ∧ (f t.1).2 = true := by
  unfold step at h ⊢
  cases hf : separators s t.2 with
  | none =>
    rw [hf] at h
    cases h
  | some f =>
    rw [hf] at h
    dsimp only at h ⊢
    split_ifs at h with hnumber
    exact ⟨f, rfl, hnumber, if_pos hnumber, h⟩

theorem step_long {ds : List α} (h : L.room ≤ ds.length) (s : σ) (c : α) :
    step L separators s (ds, c) = (s, false) := by
  have hnumber : ¬ L.Number ds := fun hds => Nat.not_lt.mpr h hds.2
  unfold step
  split
  · rfl
  · exact if_neg hnumber

/-- A number that is too long is turned down at its separator, whatever follows. -/
theorem run_long (text : List α) {ds : List α} {c : α} (h : L.room ≤ ds.length) (hdigit : ¬ L.digit c = true)
    (hspace : ¬ L.space c = true) (s : σ) : run L separators s (tokens L ds (text ++ [c])) = (s, false) := by
  induction text generalizing ds with
  | nil =>
    rw [List.nil_append, tokens, if_neg hdigit, if_neg hspace, run, step_long h]
    rfl
  | cons b text ih =>
    rw [List.cons_append, tokens]
    split_ifs
    · exact ih (by rw [List.length_append]; exact Nat.le_add_right_of_le h)
    · exact ih h
    · rw [run, step_long h]
      rfl

/-- At a separator the scanner does what it does at its number. -/
theorem next_separator (separators : Separators σ α) {s : Scan σ α} {c : α} (hdigit : ¬ L.digit c = true)
    (hspace : ¬ L.space c = true) (hroom : s.digits.length < L.room) :
    ((s.next L separators c).1.state, (s.next L separators c).2) = step L separators s.state (s.digits, c) ∧
      ((s.next L separators c).2 = true → (s.next L separators c).1.digits = []) := by
  unfold Scan.next step
  rw [if_neg hdigit, if_neg hspace]
  cases separators s.state c with
  | none => exact ⟨rfl, fun h => absurd h Bool.false_ne_true⟩
  | some f =>
    dsimp only
    by_cases hempty : s.digits.length = 0
    · have hnumber : ¬ L.Number s.digits := fun hds => absurd hempty (Nat.ne_of_gt hds.1)
      rw [if_pos hempty, if_neg hnumber]
      exact ⟨rfl, fun h => absurd h Bool.false_ne_true⟩
    · have hnumber : L.Number s.digits := ⟨Nat.pos_of_ne_zero hempty, hroom⟩
      rw [if_neg hempty, if_pos hnumber]
      exact ⟨rfl, fun _ => rfl⟩

theorem scan_cons (s : Scan σ α) (c : α) (cs : List α) : s.scan L separators (c :: cs) =
    if (s.next L separators c).2 = true then (s.next L separators c).1.scan L separators cs
    else s.next L separators c := rfl

theorem run_cons (s : σ) (t : Token α) (ts : List (Token α)) : run L separators s (t :: ts) =
    if (step L separators s t).2 = true then run L separators (step L separators s t).1 ts
    else step L separators s t := rfl

theorem of_run_cons {s : σ} {t : Token α} {ts : List (Token α)} (h : (run L separators s (t :: ts)).2 = true) :
    (step L separators s t).2 = true ∧ (run L separators (step L separators s t).1 ts).2 = true := by
  rw [run_cons] at h
  split_ifs at h with hgo
  · exact ⟨hgo, h⟩
  · exact absurd h hgo

theorem run_of_step {s s' : σ} {t : Token α} (h : step L separators s t = (s', true)) (ts : List (Token α)) :
    run L separators s (t :: ts) = run L separators s' ts := by
  rw [run_cons, h]
  rfl

/-- A text that ends with a separator is taken number by number. -/
theorem scan_eq_run (text : List α) {s : Scan σ α} {c : α} (hdigit : ¬ L.digit c = true) (hspace : ¬ L.space c = true)
    (hroom : s.digits.length < L.room) :
    ((s.scan L separators (text ++ [c])).1.state, (s.scan L separators (text ++ [c])).2) =
      run L separators s.state (tokens L s.digits (text ++ [c])) := by
  induction text generalizing s with
  | nil =>
    obtain ⟨hstep, -⟩ := next_separator separators hdigit hspace hroom
    rw [List.nil_append, scan_cons, tokens, if_neg hdigit, if_neg hspace, run_cons, ← hstep]
    cases hgo : (s.next L separators c).2 with
    | true => rfl
    | false => rw [if_neg Bool.false_ne_true, if_neg Bool.false_ne_true, hgo]
  | cons b text ih =>
    rw [List.cons_append, scan_cons, tokens]
    by_cases hb : L.digit b = true
    · have hnext : s.next L separators b =
          (⟨s.state, s.digits ++ [b], s.written ++ [s.digits.length]⟩, decide (s.digits.length + 1 < L.room)) :=
        if_pos hb
      rw [hnext, if_pos hb]
      by_cases hmore : s.digits.length + 1 < L.room
      · rw [if_pos (decide_eq_true hmore)]
        exact ih (by rw [List.length_append]; exact hmore)
      · rw [if_neg (fun h => hmore (of_decide_eq_true h)), run_long text _ hdigit hspace, decide_eq_false hmore]
        rw [List.length_append]
        exact Nat.le_of_not_lt hmore
    · by_cases hpass : L.space b = true
      · have hnext : s.next L separators b = (s, true) := by rw [Scan.next, if_neg hb, if_pos hpass]
        rw [hnext, if_neg hb, if_pos hpass]
        exact ih hroom
      · obtain ⟨hstep, hdigits⟩ := next_separator separators hb hpass hroom
        rw [if_neg hb, if_neg hpass, run_cons, ← hstep]
        cases hgo : (s.next L separators b).2 with
        | true =>
          have hnone := hdigits hgo
          have hempty : (s.next L separators b).1.digits.length < L.room := by
            rw [hnone]
            exact Nat.zero_lt_of_lt hroom
          have hrest := ih hempty
          rw [hnone] at hrest
          rw [if_pos rfl, if_pos rfl]
          exact hrest
        | false => rw [if_neg Bool.false_ne_true, if_neg Bool.false_ne_true, hgo]

/-! ## A text from its start on -/

theorem scan_fresh (text : List α) {c : α} (hdigit : ¬ L.digit c = true) (hspace : ¬ L.space c = true)
    (hroom : 0 < L.room) (s : σ) :
    (((Scan.mk s [] []).scan L separators (text ++ [c])).1.state,
      ((Scan.mk s [] []).scan L separators (text ++ [c])).2) =
      run L separators s (tokens L [] (text ++ [c])) :=
  scan_eq_run text hdigit hspace hroom

theorem fresh_written (text : List α) (hroom : 0 < L.room) (s : σ) :
    ∀ k ∈ ((Scan.mk s [] []).scan L separators text).1.written, k < L.room := by
  intro k hk
  have hfresh : (Scan.mk s ([] : List α) []).digits.length < L.room := hroom
  rcases scan_written text hfresh k hk with hnone | hlt
  · cases hnone
  · exact hlt

/-- The last number of a text is that of its last separator. -/
theorem tokens_last (text ds : List α) {c : α} (hdigit : ¬ L.digit c = true) (hspace : ¬ L.space c = true) :
    ∃ ts ds', tokens L ds (text ++ [c]) = ts ++ [(ds', c)] := by
  induction text generalizing ds with
  | nil => exact ⟨[], ds, by rw [List.nil_append, tokens, if_neg hdigit, if_neg hspace]; rfl⟩
  | cons b text ih =>
    rw [List.cons_append, tokens]
    split_ifs
    · exact ih (ds ++ [b])
    · exact ih ds
    · obtain ⟨ts, ds', heq⟩ := ih []
      exact ⟨(ds, b) :: ts, ds', by rw [heq]; rfl⟩

/-- No separator is left out. -/
theorem mem_tokens (text ds : List α) {c : α} (hdigit : ¬ L.digit c = true) (hspace : ¬ L.space c = true)
    (h : c ∈ text) : ∃ ds', (ds', c) ∈ tokens L ds text := by
  induction text generalizing ds with
  | nil => cases h
  | cons b text ih =>
    rw [tokens]
    rcases List.mem_cons.mp h with rfl | hc
    · rw [if_neg hdigit, if_neg hspace]
      exact ⟨ds, List.mem_cons_self⟩
    · split_ifs
      · exact ih (ds ++ [b]) hc
      · exact ih ds hc
      · obtain ⟨ds', hmem⟩ := ih [] hc
        exact ⟨ds', List.mem_cons_of_mem _ hmem⟩

end scanner
