-- Sorted tables that are read through a cursor: what follows a key, and the pages
-- that such a walk is cut into.
import Mathlib.Data.List.Basic
import Mathlib.Data.List.Nodup
import Mathlib.Order.Lattice

namespace cursor

variable {α κ : Type*} [LinearOrder κ] {key : α → κ} {l r : List α} {a b : α} {k : κ}

/-! ## What follows a key -/

/-- The entries of the table behind a key. -/
def after (key : α → κ) (l : List α) (k : κ) : List α := l.filter fun a => k < key a

/-- The keys go up. -/
def Sorted (key : α → κ) (l : List α) : Prop := l.Pairwise fun a b => key a < key b

theorem find_after (key : α → κ) (l : List α) (k : κ) :
    l.find? (fun a => k < key a) = (after key l k).head? :=
  (List.head?_filter ..).symm

theorem mem_after : a ∈ after key l k ↔ a ∈ l ∧ k < key a := by
  simp [after]

theorem after_sorted (h : Sorted key l) (k : κ) : Sorted key (after key l k) := List.Pairwise.filter _ h

theorem Sorted.nodup (h : Sorted key l) : l.Nodup :=
  h.imp fun hab heq => absurd (congrArg key heq) (ne_of_lt hab)

/-- One entry further, the rest follows. -/
theorem Sorted.after_cons (h : Sorted key l) (hk : after key l k = a :: r) : after key l (key a) = r := by
  have hsorted := after_sorted h k
  rw [hk] at hsorted
  obtain ⟨hfirst, -⟩ := List.pairwise_cons.mp hsorted
  have ha : k < key a := (mem_after.mp (hk ▸ List.mem_cons_self)).2
  have hfilter : after key l (key a) = after key (after key l k) (key a) := by
    unfold after
    rw [List.filter_filter]
    refine List.filter_congr fun b _ => ?_
    by_cases hb : key a < key b
    · simp [hb, ha.trans hb]
    · simp [hb]
  rw [hfilter, hk]
  unfold after
  rw [List.filter_cons, if_neg (by simp), List.filter_eq_self]
  exact fun b hb => decide_eq_true (hfirst b hb)

/-- Several entries further. -/
theorem Sorted.after_last (h : Sorted key l) {s : List α} (hk : after key l k = s ++ a :: r) :
    after key l (key a) = r := by
  induction s generalizing k with
  | nil => exact h.after_cons hk
  | cons b s ih => exact ih (h.after_cons hk)

/-- From a key before an entry, the walk comes to one that is not behind it. -/
theorem Sorted.first_le (h : Sorted key l) (ha : a ∈ l) (hk : k < key a) :
    ∃ b r, after key l k = b :: r ∧ key b ≤ key a := by
  have hmem : a ∈ after key l k := mem_after.mpr ⟨ha, hk⟩
  have hsorted := after_sorted h k
  cases hafter : after key l k with
  | nil =>
    rw [hafter] at hmem
    cases hmem
  | cons b r =>
    rw [hafter] at hmem hsorted
    refine ⟨b, r, rfl, ?_⟩
    rcases List.mem_cons.mp hmem with rfl | hr
    · exact le_rfl
    · exact ((List.pairwise_cons.mp hsorted).1 a hr).le

/-! ## Pages -/

variable {p : α → Bool} {n : Nat}

/-- The entries up to the `n`-th one that counts. -/
def page (p : α → Bool) : Nat → List α → List α
  | _, [] => []
  | n, a :: l => if n = 0 then [] else a :: page p (if p a then n - 1 else n) l

@[simp] theorem page_nil (p : α → Bool) (n : Nat) : page p n [] = [] := rfl

@[simp] theorem page_zero (p : α → Bool) (l : List α) : page p 0 l = [] := by
  cases l with
  | nil => rfl
  | cons a l => rfl

theorem page_succ (p : α → Bool) (n : Nat) (a : α) (l : List α) :
    page p (n + 1) (a :: l) = a :: page p (if p a then n else n + 1) l := if_neg (Nat.succ_ne_zero n)

/-- A page is the beginning of the table. -/
theorem page_split (p : α → Bool) (n : Nat) (l : List α) : ∃ r, l = page p n l ++ r := by
  induction l generalizing n with
  | nil => exact ⟨[], rfl⟩
  | cons a l ih =>
    cases n with
    | zero => exact ⟨a :: l, rfl⟩
    | succ n =>
      obtain ⟨r, hr⟩ := ih (if p a then n else n + 1)
      refine ⟨r, ?_⟩
      rw [page_succ, List.cons_append]
      exact congrArg (a :: ·) hr

theorem page_count_le (p : α → Bool) (n : Nat) (l : List α) : ((page p n l).filter p).length ≤ n := by
  induction l generalizing n with
  | nil => simp
  | cons a l ih =>
    cases n with
    | zero => simp
    | succ n =>
      rw [page_succ, List.filter_cons]
      split
      · simpa using ih n
      · exact ih (n + 1)

/-- A page that is not full is all that there is. -/
theorem page_short (h : ((page p n l).filter p).length < n) : page p n l = l := by
  induction l generalizing n with
  | nil => rfl
  | cons a l ih =>
    cases n with
    | zero => cases h
    | succ n =>
      rw [page_succ] at h ⊢
      rw [List.filter_cons] at h
      by_cases ha : p a
      · simp only [ha, if_true, List.length_cons] at h ⊢
        rw [ih (Nat.lt_of_succ_lt_succ h)]
      · simp only [ha, Bool.false_eq_true, if_false] at h ⊢
        rw [ih h]

/-- The last entry of a full page counts. -/
theorem page_full (hn : 0 < n) (h : ((page p n l).filter p).length = n) :
    ∃ s a, page p n l = s ++ [a] ∧ p a = true := by
  induction l generalizing n with
  | nil =>
    simp at h
    omega
  | cons a l ih =>
    obtain ⟨n, rfl⟩ : ∃ m, n = m + 1 := ⟨n - 1, by omega⟩
    rw [page_succ] at h ⊢
    rw [List.filter_cons] at h
    by_cases ha : p a
    · simp only [ha, if_true, List.length_cons, Nat.add_right_cancel_iff] at h ⊢
      cases n with
      | zero => exact ⟨[], a, by simp, ha⟩
      | succ n =>
        obtain ⟨s, b, hs, hb⟩ := ih (Nat.succ_pos n) h
        exact ⟨a :: s, b, by rw [hs, List.cons_append], hb⟩
    · simp only [ha, Bool.false_eq_true, if_false] at h ⊢
      obtain ⟨s, b, hs, hb⟩ := ih (Nat.succ_pos n) h
      exact ⟨a :: s, b, by rw [hs, List.cons_append], hb⟩

end cursor
