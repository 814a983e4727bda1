-- Singly linked lists in memory: cells that name the cell after them, from a
-- head on, with a pointer to the last one beside it.
import Mathlib.Data.List.Basic
import Mathlib.Data.List.Nodup
import Mathlib.Logic.Function.Basic

namespace chain

open Function

variable {α : Type*} {next next' : α → Option (Option α)} {head stop : Option α} {l r : List α}
  {a x : α}

/-! ## Segments -/

/-- The cells of the list one after another, from `head` up to `stop`. `next` is
what a cell that is there names. -/
def Seg (next : α → Option (Option α)) : Option α → List α → Option α → Prop
  | head, [], stop => head = stop
  | head, a :: l, stop => head = some a ∧ ∃ n, next a = some n ∧ Seg next n l stop

@[simp] theorem seg_nil : Seg next head [] stop ↔ head = stop := Iff.rfl

@[simp] theorem seg_cons : Seg next head (a :: l) stop ↔
    head = some a ∧ ∃ n, next a = some n ∧ Seg next n l stop := Iff.rfl

theorem seg_append : Seg next head (l ++ r) stop ↔
    ∃ m, Seg next head l m ∧ Seg next m r stop := by
  induction l generalizing head with
  | nil => simp
  | cons a l ih =>
    rw [List.cons_append, seg_cons]
    constructor
    · rintro ⟨hhead, n, hn, hrest⟩
      obtain ⟨m, hl, hr⟩ := ih.mp hrest
      exact ⟨m, ⟨hhead, n, hn, hl⟩, hr⟩
    · rintro ⟨m, ⟨hhead, n, hn, hl⟩, hr⟩
      exact ⟨hhead, n, hn, ih.mpr ⟨m, hl, hr⟩⟩

/-- Only what the cells of the segment name matters. -/
theorem Seg.congr (h : Seg next head l stop) (hsame : ∀ a ∈ l, next' a = next a) :
    Seg next' head l stop := by
  induction l generalizing head with
  | nil => exact h
  | cons a l ih =>
    obtain ⟨hhead, n, hn, hrest⟩ := h
    refine ⟨hhead, n, ?_, ih hrest fun b hb => hsame b (List.mem_cons_of_mem a hb)⟩
    rw [hsame a List.mem_cons_self, hn]

theorem Seg.live (h : Seg next head l stop) : ∀ a ∈ l, ∃ n, next a = some n := by
  induction l generalizing head with
  | nil => simp
  | cons b l ih =>
    obtain ⟨-, n, hn, hrest⟩ := h
    intro a ha
    rcases List.mem_cons.mp ha with rfl | ha
    · exact ⟨n, hn⟩
    · exact ih hrest a ha

/-- A list that ends is the only one from its head. -/
theorem Seg.unique (h : Seg next head l none) (h' : Seg next head r none) : l = r := by
  induction l generalizing head r with
  | nil =>
    obtain rfl : head = none := h
    cases r with
    | nil => rfl
    | cons b r => cases h'.1
  | cons a l ih =>
    obtain ⟨rfl, n, hn, hrest⟩ := h
    cases r with
    | nil => cases h'
    | cons b r =>
      obtain ⟨hab, m, hm, hrest'⟩ := h'
      obtain rfl := Option.some.inj hab
      obtain rfl : n = m := Option.some.inj (hn.symm.trans hm)
      rw [ih hrest hrest']

/-- And no cell comes twice in it: the list has no cycle. -/
theorem Seg.nodup (h : Seg next head l none) : l.Nodup := by
  induction l generalizing head with
  | nil => exact List.nodup_nil
  | cons a l ih =>
    obtain ⟨-, n, hn, hrest⟩ := h
    refine List.nodup_cons.mpr ⟨?_, ih hrest⟩
    intro ha
    obtain ⟨l₁, l₂, rfl⟩ := List.append_of_mem ha
    obtain ⟨m, -, hfrom⟩ := seg_append.mp hrest
    obtain ⟨rfl, k, hk, hend⟩ := hfrom
    -- from `a` on there are the cells after it, and those after its second place
    obtain rfl : n = k := Option.some.inj (hn.symm.trans hk)
    have hlength := congrArg List.length (hrest.unique hend)
    simp at hlength
    omega

/-- Only one cell of the list names a cell. -/
theorem Seg.before_unique {b : α} (h : Seg next head l none) (ha : a ∈ l) (hb : b ∈ l)
    (hax : next a = some (some x)) (hbx : next b = some (some x)) : a = b := by
  obtain ⟨l₁, l₂, rfl⟩ := List.append_of_mem ha
  obtain ⟨r₁, r₂, heq⟩ := List.append_of_mem hb
  have h' := h
  rw [heq] at h'
  obtain ⟨-, -, -, n, hn, hl⟩ := seg_append.mp h
  obtain ⟨-, -, -, m, hm, hr⟩ := seg_append.mp h'
  obtain rfl := Option.some.inj (hn.symm.trans hax)
  obtain rfl := Option.some.inj (hm.symm.trans hbx)
  -- the same cells follow on both, so that they stand at the same place
  obtain rfl := hl.unique hr
  have hsame : a :: l₂ = b :: l₂ := (List.append_inj' heq rfl).2
  exact (List.cons.inj hsame).1

theorem Seg.head_eq (h : Seg next head l none) : head = l.head? := by
  cases l with
  | nil => exact h
  | cons a l => exact h.1

/-! ## A list with its last cell -/

/-- The list from `head` to the end, and the pointer to its last cell. -/
structure Spans (next : α → Option (Option α)) (head tail : Option α) (l : List α) : Prop where
  seg : Seg next head l none
  tail : tail = l.getLast?

theorem spans_nil : Spans next none none [] := ⟨rfl, rfl⟩

theorem Spans.congr {tail : Option α} (h : Spans next head tail l)
    (hsame : ∀ a ∈ l, next' a = next a) : Spans next' head tail l :=
  ⟨h.seg.congr hsame, h.tail⟩

/-- The last cell names none. -/
theorem Spans.last_next (h : Spans next head (some a) l) : next a = some none := by
  obtain ⟨hseg, htail⟩ := h
  obtain ⟨l', rfl⟩ := List.getLast?_eq_some_iff.mp htail.symm
  obtain ⟨-, -, -, n, hn, hend⟩ := seg_append.mp hseg
  rw [hn, show n = none from hend]

theorem Spans.empty_iff {tail : Option α} (h : Spans next head tail l) :
    head = none ∧ tail = none ↔ l = [] := by
  rw [h.seg.head_eq, h.tail]
  cases l with
  | nil => simp
  | cons a l => simp

/-- The first cell of a list that had none. -/
theorem spans_single (hx : next' x = some none) : Spans next' (some x) (some x) [x] :=
  ⟨⟨rfl, none, hx, rfl⟩, rfl⟩

/-- A new cell behind the last one. -/
theorem Spans.append {tail : Option α} (h : Spans next head tail l) (ha : tail = some a)
    (hnext : next' a = some (some x)) (hx : next' x = some none)
    (hsame : ∀ b ∈ l, b ≠ a → next' b = next b) : Spans next' head (some x) (l ++ [x]) := by
  obtain ⟨hseg, rfl⟩ := h
  have hnodup := hseg.nodup
  obtain ⟨l, rfl⟩ := List.getLast?_eq_some_iff.mp ha
  obtain ⟨m, hl, hm, -⟩ := seg_append.mp hseg
  refine ⟨?_, by simp⟩
  rw [List.append_assoc]
  refine seg_append.mpr ⟨m, ?_, hm, some x, hnext, rfl, none, hx, rfl⟩
  apply hl.congr
  intro b hb
  apply hsame b (List.mem_append_left _ hb)
  rintro rfl
  exact (List.nodup_append.mp hnodup).2.2 b hb b (List.mem_singleton_self b) rfl

/-- The first cell goes. -/
theorem Spans.tail_cons {tail n : Option α} (h : Spans next head tail (a :: l))
    (hn : next a = some n) : Spans next n (if n = none then none else tail) l := by
  obtain ⟨⟨-, m, hm, hrest⟩, rfl⟩ := h
  obtain rfl : n = m := Option.some.inj (hn.symm.trans hm)
  refine ⟨hrest, ?_⟩
  cases l with
  | nil => exact if_pos hrest
  | cons b l =>
    rw [if_neg (by simp [hrest.1]), List.getLast?_cons_cons]

/-- A cell behind another goes, and the one before it names the one after it. -/
theorem Spans.remove {p : α} {tail n : Option α} (h : Spans next head tail (l ++ p :: a :: r))
    (hn : next a = some n) (hp : next' p = some n)
    (hsame : ∀ b ∈ l ++ r, next' b = next b) :
    Spans next' head (if r = [] then some p else tail) (l ++ p :: r) := by
  obtain ⟨hseg, hlast⟩ := h
  obtain ⟨m, hl, hm, k, hk, ha, n', hn', hr⟩ := seg_append.mp hseg
  obtain rfl : n = n' := Option.some.inj (hn.symm.trans hn')
  refine ⟨seg_append.mpr ⟨m, hl.congr ?_, hm, n, hp, hr.congr ?_⟩, ?_⟩
  · exact fun b hb => hsame b (List.mem_append_left r hb)
  · exact fun b hb => hsame b (List.mem_append_right l hb)
  · rw [hlast]
    cases r with
    | nil => simp
    | cons b r => simp [List.getLast?_append]

end chain
