-- A text and its lines: the complete ones, each with an end, and the unfinished one behind them.
-- What more text makes of them.
import Mathlib.Data.List.Basic
import Mathlib.Tactic.Common

namespace lines

variable {α : Type*} [DecidableEq α] {e : α}

/-- The complete lines, that `e` ends, and the unfinished one. -/
def cut (e : α) : List α → List (List α) × List α
  | [] => ([], [])
  | a :: text =>
    let (whole, rest) := cut e text
    if a = e then ([] :: whole, rest)
    else
      match whole with
      | [] => ([], a :: rest)
      | line :: whole => ((a :: line) :: whole, rest)

def whole (e : α) (text : List α) : List (List α) := (cut e text).1

def rest (e : α) (text : List α) : List α := (cut e text).2

variable {s t : List α}

/-- A text without an end is one unfinished line. -/
theorem cut_of_not_mem (h : e ∉ s) : cut e s = ([], s) := by
  induction s with
  | nil => rfl
  | cons a s ih =>
    rw [List.mem_cons, not_or] at h
    rw [cut, ih h.2]
    exact if_neg (Ne.symm h.1)

theorem whole_of_not_mem (h : e ∉ s) : whole e s = [] := congrArg Prod.fst (cut_of_not_mem h)

theorem rest_of_not_mem (h : e ∉ s) : rest e s = s := congrArg Prod.snd (cut_of_not_mem h)

/-- The first end completes a line. -/
theorem cut_line (h : e ∉ s) (t : List α) : cut e (s ++ e :: t) = (s :: whole e t, rest e t) := by
  induction s with
  | nil =>
    rw [List.nil_append, cut]
    exact if_pos rfl
  | cons a s ih =>
    rw [List.mem_cons, not_or] at h
    rw [List.cons_append, cut, ih h.2]
    exact if_neg (Ne.symm h.1)

theorem whole_line (h : e ∉ s) (t : List α) : whole e (s ++ e :: t) = s :: whole e t := by
  rw [whole, cut_line h]

theorem rest_line (h : e ∉ s) (t : List α) : rest e (s ++ e :: t) = rest e t := by
  rw [rest, cut_line h]

/-- A text is taken line by line. -/
theorem line_induction {P : List α → Prop} (hrest : ∀ s, e ∉ s → P s)
    (hline : ∀ s t, e ∉ s → P t → P (s ++ e :: t)) (text : List α) : P text := by
  induction hn : text.length using Nat.strongRecOn generalizing text with
  | ind n ih =>
    by_cases hmem : e ∈ text
    · obtain ⟨s, t, rfl, hs⟩ := List.eq_append_cons_of_mem hmem
      rw [List.length_append, List.length_cons] at hn
      exact hline s t hs (ih t.length (by omega) t rfl)
    · exact hrest text hmem

theorem not_mem_rest (e : α) (text : List α) : e ∉ rest e text := by
  induction text using line_induction (e := e) with
  | hrest s hs =>
    rw [rest_of_not_mem hs]
    exact hs
  | hline s t hs ih =>
    rw [rest_line hs]
    exact ih

/-- More text completes the unfinished line first. -/
theorem cut_append (s t : List α) :
    whole e (s ++ t) = whole e s ++ whole e (rest e s ++ t) ∧ rest e (s ++ t) = rest e (rest e s ++ t) := by
  induction s using line_induction (e := e) with
  | hrest s hs =>
    rw [whole_of_not_mem hs, rest_of_not_mem hs]
    exact ⟨rfl, rfl⟩
  | hline s t' hs ih =>
    rw [List.append_assoc, List.cons_append, whole_line hs, whole_line hs, rest_line hs, rest_line hs, ih.1]
    exact ⟨rfl, ih.2⟩

/-- The unfinished line is the end of the text. -/
theorem rest_suffix (e : α) (text : List α) : rest e text <:+ text := by
  induction text using line_induction (e := e) with
  | hrest s hs => simp [rest_of_not_mem hs]
  | hline s t hs ih =>
    rw [rest_line hs]
    exact (ih.trans (List.suffix_cons e t)).trans (List.suffix_append s _)

theorem whole_eq_nil_iff {text : List α} : whole e text = [] ↔ e ∉ text := by
  constructor
  · intro h hmem
    obtain ⟨s, t, rfl, hs⟩ := List.eq_append_cons_of_mem hmem
    rw [whole_line hs] at h
    cases h
  · exact whole_of_not_mem

end lines
