-- Waiting lines by priority: the oldest of a priority goes first, and the
-- highest priority with someone in its line goes before the others.
import Mathlib.Algebra.BigOperators.Group.List.Basic
import Mathlib.Algebra.Ring.Nat
import Mathlib.Data.List.Nodup
import Mathlib.Tactic.Common

namespace fifos

open Function

/-- What waits at each priority, the oldest first. -/
abbrev Fifos (α : Type*) := Nat → List α

section
variable {α : Type*}

def put (m : Fifos α) (i : Nat) (x : α) : Fifos α := update m i (m i ++ [x])

/-- The oldest of a priority leaves. -/
def drop (m : Fifos α) (i : Nat) : Fifos α := update m i (m i).tail

/-- The highest of `n` priorities that has something in its line. -/
def highest (m : Fifos α) (n : Nat) : Option Nat :=
  (List.range n).reverse.find? fun i => !(m i).isEmpty

/-- Who goes first of `n` priorities, and from which one. -/
def front (m : Fifos α) (n : Nat) : Option (Nat × α) :=
  (highest m n).bind fun i => (m i).head?.map fun x => (i, x)

/-- How many wait at the first `n` priorities. -/
def total (m : Fifos α) (n : Nat) : Nat := ((List.range n).map fun i => (m i).length).sum

end

/-- One of the first `n` summands grows. -/
theorem sum_update (f : Nat → Nat) {i n : Nat} (h : i < n) (d : Nat) :
    ((List.range n).map (update f i (f i + d))).sum = ((List.range n).map f).sum + d := by
  induction n with
  | zero => omega
  | succ n ih =>
    simp only [List.range_succ, List.map_append, List.map_cons, List.map_nil, List.sum_append,
      List.sum_cons, List.sum_nil]
    by_cases hi : i = n
    · subst hi
      have hsame : ∀ k ∈ List.range i, update f i (f i + d) k = f k := by
        intro k hk
        exact update_of_ne (Nat.ne_of_lt (List.mem_range.mp hk)) _ _
      rw [List.map_congr_left hsame, update_self]
      omega
    · rw [ih (by omega), update_of_ne (fun he => hi he.symm)]
      omega

section
variable {α : Type*} {m : Fifos α} {i n : Nat}

theorem put_other {j : Nat} (h : j ≠ i) (x : α) : put m i x j = m j := update_of_ne h _ _

theorem drop_other {j : Nat} (h : j ≠ i) : drop m i j = m j := update_of_ne h _ _

@[simp] theorem put_self (x : α) : put m i x i = m i ++ [x] := update_self _ _ _

@[simp] theorem drop_self : drop m i i = (m i).tail := update_self _ _ _

@[simp] theorem highest_zero : highest m 0 = none := rfl

theorem highest_succ : highest m (n + 1) = if (m n).isEmpty then highest m n else some n := by
  rw [highest, List.range_succ, List.reverse_append, List.reverse_singleton, List.singleton_append,
    List.find?_cons]
  cases (m n).isEmpty <;> rfl

theorem highest_congr {m' : Fifos α} (h : ∀ j < n, m' j = m j) : highest m' n = highest m n := by
  induction n with
  | zero => rfl
  | succ n ih =>
    rw [highest_succ, highest_succ, h n (Nat.lt_succ_self n),
      ih fun j hj => h j (Nat.lt_succ_of_lt hj)]

theorem highest_some (h : highest m n = some i) :
    i < n ∧ m i ≠ [] ∧ ∀ j, i < j → j < n → m j = [] := by
  induction n with
  | zero => cases h
  | succ n ih =>
    rw [highest_succ] at h
    split at h
    · rename_i hempty
      obtain ⟨hlt, hne, habove⟩ := ih h
      refine ⟨Nat.lt_succ_of_lt hlt, hne, ?_⟩
      intro j hij hj
      by_cases hjn : j = n
      · subst hjn
        exact List.isEmpty_iff.mp hempty
      · exact habove j hij (by omega)
    · rename_i hne
      obtain rfl := Option.some.inj h
      refine ⟨Nat.lt_succ_self n, by simpa using hne, ?_⟩
      intro j hij hj
      omega

/-- The oldest of the highest priority goes first. -/
theorem front_eq (h : highest m n = some i) :
    ∃ x, front m n = some (i, x) ∧ m i = x :: (m i).tail := by
  obtain ⟨-, hne, -⟩ := highest_some h
  cases hm : m i with
  | nil => exact absurd hm hne
  | cons x rest => exact ⟨x, by simp [front, h, hm], rfl⟩

theorem front_none (h : highest m n = none) : front m n = none := by
  rw [front, h]
  rfl

/-- Only the first `n` priorities matter for who goes first of them. -/
theorem front_congr {m' : Fifos α} (h : ∀ j < n, m' j = m j) : front m' n = front m n := by
  rw [front, front, highest_congr h]
  cases hi : highest m n with
  | none => rfl
  | some i => rw [Option.bind_some, Option.bind_some, h i (highest_some hi).1]

theorem total_congr {m' : Fifos α} (h : ∀ j < n, m j = m' j) : total m n = total m' n := by
  rw [total, total, List.map_congr_left fun j hj => by rw [h j (List.mem_range.mp hj)]]

theorem total_succ : total m (n + 1) = total m n + (m n).length := by
  simp [total, List.range_succ]

theorem total_empty : total (fun _ => [] : Fifos α) n = 0 := by
  induction n with
  | zero => rfl
  | succ n ih => rw [total_succ, ih]; rfl

theorem total_put (h : i < n) (x : α) : total (put m i x) n = total m n + 1 := by
  have hgrow : (fun j => (put m i x j).length) =
      update (fun j => (m j).length) i ((m i).length + 1) := by
    funext j
    by_cases hj : j = i
    · subst hj
      simp
    · rw [put_other hj, update_of_ne hj]
  rw [total, hgrow]
  exact sum_update _ h 1

theorem total_drop (h : i < n) (hne : m i ≠ []) : total (drop m i) n + 1 = total m n := by
  have hshrunk : (fun j => (m j).length) =
      update (fun j => (drop m i j).length) i ((drop m i i).length + 1) := by
    funext j
    by_cases hj : j = i
    · subst hj
      have := List.length_pos_iff.mpr hne
      simp only [drop_self, update_self, List.length_tail]
      omega
    · rw [update_of_ne hj, drop_other hj]
  rw [total, total, hshrunk]
  exact (sum_update _ h 1).symm

theorem total_zero (h : total m n = 0) (hi : i < n) : m i = [] := by
  induction n with
  | zero => omega
  | succ n ih =>
    rw [total_succ] at h
    by_cases hin : i = n
    · subst hin
      exact List.length_eq_zero_iff.mp (by omega)
    · exact ih (by omega) (by omega)

/-- There is someone to go first when anyone waits. -/
theorem highest_none_iff : highest m n = none ↔ total m n = 0 := by
  induction n with
  | zero => exact ⟨fun _ => rfl, fun _ => rfl⟩
  | succ n ih =>
    rw [highest_succ, total_succ]
    split
    · rename_i hempty
      have hnil : m n = [] := List.isEmpty_iff.mp hempty
      rw [ih, hnil]
      rfl
    · rename_i hne
      have hpos : 0 < (m n).length := List.length_pos_iff.mpr (by simpa using hne)
      refine ⟨nofun, fun h => ?_⟩
      omega

end

/-! ## Turns -/

/-- The lines of other things that are made of what waits. -/
def map {α β : Type*} (f : α → β) (m : Fifos α) : Fifos β := fun i => (m i).map f

/-- Of what came, the first of each priority are gone, and the others wait. -/
def InTurn {α : Type*} (pri : α → Nat) (came gone : List α) (m : Fifos α) : Prop :=
  ∀ i, came.filter (pri · = i) = gone.filter (pri · = i) ++ m i

section
variable {α β : Type*} {m : Fifos α} {i n : Nat} {pri : α → Nat} {came gone : List α} {x : α}

theorem map_put (f : α → β) (m : Fifos α) (i : Nat) (x : α) : map f (put m i x) = put (map f m) i (f x) := by
  funext j
  by_cases hj : j = i
  · subst hj
    simp [map]
  · rw [put_other hj, map, put_other hj, map]

theorem map_drop (f : α → β) (m : Fifos α) (i : Nat) : map f (drop m i) = drop (map f m) i := by
  funext j
  by_cases hj : j = i
  · subst hj
    simp [map]
  · rw [drop_other hj, map, drop_other hj, map]

theorem highest_map (f : α → β) (m : Fifos α) (n : Nat) : highest (map f m) n = highest m n := by
  induction n with
  | zero => rfl
  | succ n ih => rw [highest_succ, highest_succ, ih, map, List.isEmpty_map]

theorem front_map (f : α → β) (m : Fifos α) (n : Nat) :
    front (map f m) n = (front m n).map fun p => (p.1, f p.2) := by
  rw [front, front, highest_map]
  cases highest m n with
  | none => rfl
  | some i =>
    rw [Option.bind_some, Option.bind_some, map, List.head?_map, Option.map_map, Option.map_map]
    rfl

theorem in_turn_empty : InTurn pri [] [] fun _ => [] := fun _ => rfl

theorem InTurn.mem (h : InTurn pri came gone m) : x ∈ came ↔ x ∈ gone ∨ x ∈ m (pri x) := by
  have hcame : x ∈ came ↔ x ∈ came.filter (pri · = pri x) := by simp
  rw [hcame, h (pri x), List.mem_append]
  simp

theorem InTurn.pri_eq (h : InTurn pri came gone m) (hx : x ∈ m i) : pri x = i := by
  have hmem : x ∈ came.filter (pri · = i) := by
    rw [h i]
    exact List.mem_append_right _ hx
  simpa using (List.mem_filter.mp hmem).2

theorem InTurn.waits (h : InTurn pri came gone m) (hx : x ∈ m i) : x ∈ came :=
  h.mem.mpr (Or.inr (h.pri_eq hx ▸ hx))

/-- What is gone does not wait any more. -/
theorem InTurn.apart (h : InTurn pri came gone m) (hnodup : came.Nodup) (hx : x ∈ gone) : x ∉ m i := by
  intro hwaits
  have hline := hnodup.filter (p := (pri · = i))
  rw [h i] at hline
  refine (List.nodup_append.mp hline).2.2 x ?_ x hwaits rfl
  simp [hx, h.pri_eq hwaits]

theorem InTurn.gone_nodup [DecidableEq α] (h : InTurn pri came gone m) (hnodup : came.Nodup) : gone.Nodup := by
  rw [List.nodup_iff_count_le_one]
  intro x
  have hline := hnodup.filter (p := (pri · = pri x))
  rw [h (pri x)] at hline
  have hcount := List.nodup_iff_count_le_one.mp (List.nodup_append.mp hline).1 x
  rwa [List.count_filter (by simp)] at hcount

theorem InTurn.put (h : InTurn pri came gone m) (x : α) :
    InTurn pri (came ++ [x]) gone (put m (pri x) x) := by
  intro i
  rw [List.filter_append, h i]
  by_cases hi : i = pri x
  · subst hi
    simp
  · rw [put_other hi, List.filter_singleton, decide_eq_false (Ne.symm hi), cond_false, List.append_nil]

theorem InTurn.drop {l : List α} (h : InTurn pri came gone m) (hm : m i = x :: l) :
    InTurn pri came (gone ++ [x]) (drop m i) := by
  have hx : pri x = i := h.pri_eq (hm ▸ List.mem_cons_self)
  intro j
  rw [List.filter_append, h j]
  by_cases hj : j = i
  · subst hj
    simp [hm, hx]
  · have hne : pri x ≠ j := hx ▸ Ne.symm hj
    rw [drop_other hj, List.filter_singleton, decide_eq_false hne, cond_false, List.append_nil]

/-- The turns hold in each class of a priority, too. -/
theorem InTurn.class {κ : Type*} [DecidableEq κ] (h : InTurn pri came gone m) {f : α → κ} {g : κ → Nat}
    (hpri : ∀ x, pri x = g (f x)) (k : κ) :
    came.filter (f · = k) = gone.filter (f · = k) ++ (m (g k)).filter (f · = k) := by
  have hclass : ∀ l : List α, l.filter (f · = k) = (l.filter (pri · = g k)).filter (f · = k) := by
    intro l
    rw [List.filter_filter]
    apply List.filter_congr
    intro x _
    by_cases hx : f x = k
    · simp [hx, hpri]
    · simp [hx]
  rw [hclass came, h (g k), List.filter_append, ← hclass]

end

end fifos
