-- A text at the front of an array, with the end of a text in every cell behind it: what becomes of
-- it when a part of it is written, filled, or moved by one cell.
import Gwdonu.Lib.Cells

namespace cells

variable {α : Type*} {m : Int → α} {z a : α} {n k : Nat} {i j : Int} {f b l t : List α}

/-! ## Loops -/

/-- The cells from `start` on, so many of them, are written with one value. -/
def fill (m : Int → α) (start : Int) (n : Nat) (a : α) : Int → α := fun i =>
  if start ≤ i ∧ i < start + n then a else m i

/-- Each cell from `i` on, so many of them, takes what is behind it. -/
def shiftDown (m : Int → α) (i : Int) : Nat → Int → α
  | 0 => m
  | n + 1 => shiftDown (put m i [m (i + 1)]) (i + 1) n

/-- Each cell from `i` down, so many of them, goes to the one behind it. -/
def shiftUp (m : Int → α) (i : Int) : Nat → Int → α
  | 0 => m
  | n + 1 => shiftUp (put m (i + 1) [m i]) (i - 1) n

theorem shiftDown_apply (m : Int → α) (i : Int) (n : Nat) (j : Int) :
    shiftDown m i n j = if i ≤ j ∧ j < i + n then m (j + 1) else m j := by
  induction n generalizing m i with
  | zero => rw [shiftDown, if_neg (by omega)]
  | succ n ih =>
    rw [shiftDown, ih, put_one, put_one]
    rcases Int.lt_trichotomy j i with hlt | rfl | hgt
    · rw [if_neg (by omega), if_neg (by omega), if_neg (by omega)]
    · rw [if_neg (by omega), if_pos rfl, if_pos (by omega)]
    · rw [if_neg (show ¬ j + 1 = i by omega), if_neg (show ¬ j = i by omega)]
      exact if_congr (by omega) rfl rfl

theorem shiftUp_apply (m : Int → α) (i : Int) (n : Nat) (j : Int) :
    shiftUp m i n j = if i + 1 < j + n ∧ j ≤ i + 1 then m (j - 1) else m j := by
  induction n generalizing m i with
  | zero => rw [shiftUp, if_neg (by omega)]
  | succ n ih =>
    rw [shiftUp, ih, put_one, put_one]
    rcases Int.lt_trichotomy j (i + 1) with hlt | rfl | hgt
    · rw [if_neg (show ¬ j - 1 = i + 1 by omega), if_neg (show ¬ j = i + 1 by omega)]
      exact if_congr (by omega) rfl rfl
    · rw [if_neg (by omega), if_pos rfl, if_pos (by omega), Int.add_sub_cancel]
    · rw [if_neg (by omega), if_neg (by omega), if_neg (by omega)]

theorem fill_fill (m : Int → α) (i : Int) (n : Nat) (a b : α) : fill (fill m i n a) i n b = fill m i n b := by
  funext j
  unfold fill
  split
  · rfl
  · rfl

/-- What is written behind the beginning of a text is part of it. -/
theorem put_put (m : Int → α) (i : Int) (l : List α) (a b : α) :
    put (put m i (l ++ [a])) (i + l.length) [b] = put m i (l ++ [b]) := by
  funext j
  rw [put_one]
  rcases Int.lt_trichotomy j (i + l.length) with hlt | rfl | hgt
  · rw [if_neg (Int.ne_of_lt hlt)]
    by_cases hj : j < i
    · rw [put_before hj, put_before hj]
    · obtain ⟨k, rfl⟩ := Int.le.dest (Int.not_lt.mp hj)
      have hk : k < l.length := by omega
      rw [put_at (by rw [List.length_append]; omega), put_at (by rw [List.length_append]; omega),
        List.getElem_append_left hk, List.getElem_append_left hk]
  · rw [if_pos rfl, put_at (by simp)]
    simp
  · have hlen : i + ((l ++ [a]).length : Int) ≤ j ∧ i + ((l ++ [b]).length : Int) ≤ j := by
      rw [List.length_append, List.length_append, List.length_singleton, List.length_singleton]
      omega
    rw [if_neg (Int.ne_of_gt hgt), put_behind hlen.1, put_behind hlen.2]

/-! ## Padded texts -/

/-- Of the first `n` cells, those of the text, and `z` in the others. -/
def Padded (z : α) (m : Int → α) (n : Nat) (l : List α) : Prop := ∀ i : Nat, i < n → m i = (l[i]?).getD z

theorem Padded.holds (h : Padded z m n l) (hn : l.length < n) : Holds z m 0 l := by
  intro i hi
  rw [Int.zero_add]
  exact h i (Nat.lt_of_le_of_lt hi hn)

theorem Padded.get (h : Padded z m n l) (hn : l.length ≤ n) (hk : k < l.length) : m k = l[k] := by
  rw [h k (Nat.lt_of_lt_of_le hk hn), List.getElem?_eq_getElem hk, Option.getD_some]

theorem Padded.behind (h : Padded z m n l) (hk : k < n) (hl : l.length ≤ k) : m k = z := by
  rw [h k hk, List.getElem?_eq_none hl, Option.getD_none]

theorem Padded.text_eq [DecidableEq α] (h : Padded z m n l) (hz : z ∉ l) (hn : l.length < n) : text z m 0 n = l :=
  cells.text_eq (h.holds hn) hz hn

theorem padded_append_replicate : Padded z m n (l ++ List.replicate k z) ↔ Padded z m n l := by
  have hcell (i : Nat) : ((l ++ List.replicate k z)[i]?).getD z = (l[i]?).getD z := by
    by_cases hi : i < l.length
    · rw [List.getElem?_append_left hi]
    · have hi' := Nat.le_of_not_lt hi
      rw [List.getElem?_append_right hi', List.getElem?_eq_none hi', List.getElem?_replicate]
      split
      · rfl
      · rfl
  exact forall_congr' fun i => imp_congr_right fun _ => by rw [hcell]

theorem padded_append_end : Padded z m n (l ++ [z]) ↔ Padded z m n l := padded_append_replicate (k := 1)

/-- A part of the text is written that is no shorter than what was there. -/
theorem Padded.overwrite (h : Padded z m n (f ++ b)) (hlen : b.length ≤ t.length) :
    Padded z (put m f.length t) n (f ++ t) := by
  intro i hi
  by_cases hf : i < f.length
  · rw [put_before (by omega), h i hi, List.getElem?_append_left hf, List.getElem?_append_left hf]
  · obtain ⟨k, rfl⟩ := Nat.exists_eq_add_of_le (Nat.le_of_not_lt hf)
    rw [List.getElem?_append_right (Nat.le_add_right _ _), Nat.add_sub_cancel_left]
    by_cases hk : k < t.length
    · rw [Int.natCast_add, put_at hk, List.getElem?_eq_getElem hk, Option.getD_some]
    · rw [put_behind (by omega), List.getElem?_eq_none (Nat.le_of_not_lt hk)]
      exact h.behind hi (by rw [List.length_append]; omega)

theorem padded_fill (z : α) (m : Int → α) (n : Nat) : Padded z (fill m 0 n z) n [] := by
  intro i hi
  exact if_pos (by omega)

/-- The end of the text goes. -/
theorem Padded.truncate (h : Padded z m n (f ++ b)) : Padded z (fill m f.length b.length z) n f := by
  intro i hi
  by_cases hf : i < f.length
  · rw [fill, if_neg (by omega), h i hi, List.getElem?_append_left hf]
  · rw [List.getElem?_eq_none (Nat.le_of_not_lt hf), Option.getD_none, fill]
    split
    · rfl
    · exact h.behind hi (by rw [List.length_append]; omega)

/-- One cell of the text goes, and what is behind it moves up to it. -/
theorem Padded.closed (h : Padded z m n (f ++ a :: b)) (hlen : f.length + b.length + 2 < n) :
    Padded z (shiftDown m f.length (b.length + 2)) n (f ++ b) := by
  intro i hi
  rw [shiftDown_apply]
  by_cases hf : i < f.length
  · rw [if_neg (by omega), h i hi, List.getElem?_append_left hf, List.getElem?_append_left hf]
  · obtain ⟨k, rfl⟩ := Nat.exists_eq_add_of_le (Nat.le_of_not_lt hf)
    have hnext (k : Nat) : (f ++ a :: b)[f.length + (k + 1)]? = b[k]? := by
      rw [List.getElem?_append_right (Nat.le_add_right _ _), Nat.add_sub_cancel_left, List.getElem?_cons_succ]
    rw [List.getElem?_append_right (Nat.le_add_right _ _), Nat.add_sub_cancel_left]
    split
    · have hcell := h (f.length + (k + 1)) (by omega)
      rw [hnext] at hcell
      exact hcell
    · rw [List.getElem?_eq_none (by omega)]
      exact h.behind hi (by rw [List.length_append, List.length_cons]; omega)

/-- A cell is written into the text, when what is behind it has moved on. -/
theorem Padded.opened (h : Padded z m n (f ++ b)) (a : α) :
    Padded z (put (shiftUp m (f.length + b.length) (b.length + 1)) f.length [a]) n (f ++ a :: b) := by
  intro i hi
  rw [put_one, shiftUp_apply]
  by_cases hf : i < f.length
  · rw [if_neg (by omega), if_neg (by omega), h i hi, List.getElem?_append_left hf, List.getElem?_append_left hf]
  · obtain ⟨k, rfl⟩ := Nat.exists_eq_add_of_le (Nat.le_of_not_lt hf)
    rw [List.getElem?_append_right (Nat.le_add_right _ _), Nat.add_sub_cancel_left]
    cases k with
    | zero =>
      rw [if_pos (by omega)]
      rfl
    | succ k =>
      rw [if_neg (by omega), List.getElem?_cons_succ]
      split
      · have hcell := h (f.length + k) (by omega)
        rw [List.getElem?_append_right (Nat.le_add_right _ _), Nat.add_sub_cancel_left] at hcell
        rw [← hcell]
        congr 1
        omega
      · rw [List.getElem?_eq_none (by omega)]
        exact h.behind hi (by rw [List.length_append]; omega)

end cells
