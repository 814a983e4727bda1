-- Texts in memory: cells in a row up to the first one that ends a text, and what writing some
-- of the cells makes of them.
import Mathlib.Data.List.Basic
import Mathlib.Tactic.Common

namespace cells

/-! ## Accesses -/

/-- `size` cells from `start` on, as seen from the first cell of an array. -/
structure Extent where
  start : Int
  size : Nat
  deriving DecidableEq

/-- The cells are among the first `n` of the array. -/
def Extent.Inside (x : Extent) (n : Nat) : Prop := x.size = 0 ∨ 0 ≤ x.start ∧ x.start + x.size ≤ n

instance (x : Extent) (n : Nat) : Decidable (x.Inside n) := inferInstanceAs (Decidable (_ ∨ _))

variable {α : Type*}

/-! ## Writes -/

/-- The cells from `start` on are written. -/
def put (m : Int → α) (start : Int) (l : List α) : Int → α := fun i =>
  if start ≤ i then (l[(i - start).toNat]?).getD (m i) else m i

variable {m m' : Int → α} {p i : Int} {l r : List α} {n k : Nat}

theorem put_before (h : i < p) (l : List α) : put m p l i = m i := if_neg (Int.not_le.mpr h)

theorem put_behind (h : p + l.length ≤ i) : put m p l i = m i := by
  have hlen : l.length ≤ (i - p).toNat := by omega
  rw [put, if_pos (by omega), List.getElem?_eq_none hlen, Option.getD_none]

theorem put_at (h : k < l.length) : put m p l (p + k) = l[k] := by
  have hk : (p + k - p).toNat = k := by omega
  rw [put, if_pos (by omega), hk, List.getElem?_eq_getElem h, Option.getD_some]

theorem put_one (m : Int → α) (p : Int) (a : α) : put m p [a] i = if i = p then a else m i := by
  by_cases h : i = p
  · subst h
    rw [if_pos rfl]
    simpa using put_at (m := m) (p := i) (l := [a]) (k := 0) Nat.zero_lt_one
  · rw [if_neg h]
    rcases Int.lt_or_gt_of_ne h with hlt | hgt
    · exact put_before hlt _
    · exact put_behind (by rw [List.length_singleton]; omega)

/-! ## Texts -/

section
variable {z : α}

/-- The cells from `p` on are those of the text, and `z` behind them. -/
def Holds (z : α) (m : Int → α) (p : Int) (l : List α) : Prop := ∀ i ≤ l.length, m (p + i) = (l[i]?).getD z

theorem Holds.ends (h : Holds z m p l) : m (p + l.length) = z := by
  rw [h l.length (Nat.le_refl _), List.getElem?_eq_none (Nat.le_refl _), Option.getD_none]

theorem Holds.get (h : Holds z m p l) (hk : k < l.length) : m (p + k) = l[k] := by
  rw [h k (Nat.le_of_lt hk), List.getElem?_eq_getElem hk, Option.getD_some]

theorem holds_iff : Holds z m p l ↔ (∀ (k : Nat) (hk : k < l.length), m (p + k) = l[k]) ∧ m (p + l.length) = z := by
  constructor
  · exact fun h => ⟨fun k hk => h.get hk, h.ends⟩
  · rintro ⟨hget, hends⟩ i hi
    rcases Nat.lt_or_eq_of_le hi with hlt | rfl
    · rw [hget i hlt, List.getElem?_eq_getElem hlt, Option.getD_some]
    · rw [hends, List.getElem?_eq_none (Nat.le_refl _), Option.getD_none]

/-- No text goes over a `z`. -/
theorem Holds.length_le (h : Holds z m p l) (hz : z ∉ l) (hk : m (p + k) = z) : l.length ≤ k := by
  by_contra hlt
  rw [h.get (Nat.lt_of_not_le hlt)] at hk
  exact hz (hk ▸ List.getElem_mem _)

@[simp] theorem holds_nil : Holds z m p [] ↔ m p = z := by
  rw [holds_iff]
  simp

theorem holds_cons {a : α} : Holds z m p (a :: l) ↔ m p = a ∧ Holds z m (p + 1) l := by
  have hnext (k : Nat) : p + 1 + (k : Int) = p + ((k + 1 : Nat) : Int) := by omega
  constructor
  · intro h
    refine ⟨by simpa using h 0 (Nat.zero_le _), fun k hk => ?_⟩
    rw [hnext]
    exact h (k + 1) (Nat.succ_le_succ hk)
  · rintro ⟨hfirst, hrest⟩ k hk
    cases k with
    | zero => simpa using hfirst
    | succ k =>
      rw [← hnext]
      exact hrest k (Nat.le_of_succ_le_succ hk)

/-- A text in front of another, that is part of it. -/
theorem Holds.drop (h : Holds z m p (l ++ r)) : Holds z m (p + l.length) r := by
  induction l generalizing p with
  | nil => simpa using h
  | cons a l ih =>
    have hrest := ih (holds_cons.mp h).2
    rw [List.length_cons]
    rwa [show p + 1 + (l.length : Int) = p + ((l.length + 1 : Nat) : Int) by omega] at hrest

theorem Holds.congr (h : Holds z m p l) (hsame : ∀ i, p ≤ i → i ≤ p + l.length → m' i = m i) : Holds z m' p l := by
  intro i hi
  rw [hsame (p + i) (by omega) (by omega)]
  exact h i hi

/-- A text is written where it is already. -/
theorem Holds.put_self (h : Holds z m p l) : put m p l = m := by
  funext i
  by_cases hlo : i < p
  · exact put_before hlo l
  · obtain ⟨k, rfl⟩ := Int.le.dest (Int.not_lt.mp hlo)
    by_cases hk : k < l.length
    · rw [put_at hk, h.get hk]
    · exact put_behind (by omega)

/-- A text is written with `z` behind it. -/
theorem holds_put (m : Int → α) (p : Int) (l : List α) : Holds z (put m p (l ++ [z])) p l := by
  refine holds_iff.mpr ⟨fun k hk => ?_, ?_⟩
  · rw [put_at (by rw [List.length_append]; omega), List.getElem_append_left hk]
  · rw [put_at (by simp)]
    simp

/-- A text is written behind another, over its end. -/
theorem Holds.append_put (h : Holds z m p l) (r : List α) : Holds z (put m (p + l.length) (r ++ [z])) p (l ++ r) := by
  refine holds_iff.mpr ⟨fun k hk => ?_, ?_⟩
  · rw [List.length_append] at hk
    by_cases hl : k < l.length
    · rw [put_before (by omega), h.get hl, List.getElem_append_left hl]
    · obtain ⟨j, rfl⟩ := Nat.exists_eq_add_of_le (Nat.le_of_not_lt hl)
      have hj : j < r.length := by omega
      have hcell := (holds_put (z := z) m (p + l.length) r).get hj
      rw [show p + ((l.length + j : Nat) : Int) = p + l.length + j by omega, hcell]
      simp
  · have hends := (holds_put (z := z) m (p + l.length) r).ends
    rw [List.length_append, show p + ((l.length + r.length : Nat) : Int) = p + l.length + r.length by omega]
    exact hends

variable [DecidableEq α]

/-- The text at `p`, up to the first `z`, of which so many cells are looked at. -/
def text (z : α) (m : Int → α) (p : Int) : Nat → List α
  | 0 => []
  | n + 1 => if m p = z then [] else m p :: text z m (p + 1) n

/-- A text without `z` in it is found where it is. -/
theorem text_eq (h : Holds z m p l) (hz : z ∉ l) (hn : l.length < n) : text z m p n = l := by
  induction l generalizing p n with
  | nil =>
    obtain ⟨n, rfl⟩ := Nat.exists_eq_succ_of_ne_zero (Nat.ne_of_gt hn)
    exact if_pos (holds_nil.mp h)
  | cons a l ih =>
    obtain ⟨n, rfl⟩ := Nat.exists_eq_succ_of_ne_zero (Nat.ne_of_gt (Nat.zero_lt_of_lt hn))
    rw [List.mem_cons, not_or] at hz
    obtain ⟨hfirst, hrest⟩ := holds_cons.mp h
    rw [text, hfirst, if_neg (Ne.symm hz.1), ih hrest hz.2 (Nat.lt_of_succ_lt_succ hn)]

/-- Cells without `z` in them are the front of the text. -/
theorem text_append (h : ∀ (i : Nat) (hi : i < l.length), m (p + i) = l[i]) (hz : z ∉ l) :
    text z m p (l.length + n) = l ++ text z m (p + l.length) n := by
  induction l generalizing p with
  | nil => simp
  | cons a l ih =>
    rw [List.mem_cons, not_or] at hz
    have hfirst : m p = a := by simpa using h 0 (Nat.zero_lt_succ _)
    have hrest (i : Nat) (hi : i < l.length) : m (p + 1 + i) = l[i] := by
      rw [show p + 1 + (i : Int) = p + ((i + 1 : Nat) : Int) by omega]
      exact h (i + 1) (Nat.succ_lt_succ hi)
    rw [List.length_cons, Nat.add_right_comm, text, hfirst, if_neg (Ne.symm hz.1), ih hrest hz.2,
      show p + ((l.length + 1 : Nat) : Int) = p + 1 + l.length by omega]
    rfl

theorem end_not_mem_text (z : α) (m : Int → α) (p : Int) (n : Nat) : z ∉ text z m p n := by
  induction n generalizing p with
  | zero => exact List.not_mem_nil
  | succ n ih =>
    rw [text]
    split
    · exact List.not_mem_nil
    · rename_i hne
      rw [List.mem_cons, not_or]
      exact ⟨Ne.symm hne, ih (p + 1)⟩

/-- A text that is shorter than what is looked at has an end. -/
theorem text_ends (h : (text z m p n).length < n) : m (p + (text z m p n).length) = z := by
  induction n generalizing p with
  | zero => exact absurd h (Nat.not_lt_zero _)
  | succ n ih =>
    rw [text] at h ⊢
    by_cases hfirst : m p = z
    · rw [if_pos hfirst]
      simpa using hfirst
    · rw [if_neg hfirst, List.length_cons] at h ⊢
      rw [show p + (((text z m (p + 1) n).length + 1 : Nat) : Int) = p + 1 + (text z m (p + 1) n).length by omega]
      exact ih (Nat.lt_of_succ_lt_succ h)

/-- Where there is a `z` to end it, the text is there. -/
theorem holds_text (hk : k < n) (hz : m (p + k) = z) : Holds z m p (text z m p n) ∧ (text z m p n).length ≤ k := by
  induction k generalizing p n with
  | zero =>
    obtain ⟨n, rfl⟩ := Nat.exists_eq_succ_of_ne_zero (Nat.ne_of_gt hk)
    have hfirst : m p = z := by simpa using hz
    rw [text, if_pos hfirst]
    exact ⟨holds_nil.mpr hfirst, Nat.le_refl 0⟩
  | succ k ih =>
    obtain ⟨n, rfl⟩ := Nat.exists_eq_succ_of_ne_zero (Nat.ne_of_gt (Nat.zero_lt_of_lt hk))
    rw [text]
    split
    · rename_i hfirst
      exact ⟨holds_nil.mpr hfirst, Nat.zero_le _⟩
    · have hnext : m (p + 1 + k) = z := by
        rw [show p + 1 + (k : Int) = p + ((k + 1 : Nat) : Int) by omega]
        exact hz
      obtain ⟨hrest, hlen⟩ := ih (Nat.lt_of_succ_lt_succ hk) hnext
      exact ⟨holds_cons.mpr ⟨rfl, hrest⟩, Nat.succ_le_succ hlen⟩

end

end cells
