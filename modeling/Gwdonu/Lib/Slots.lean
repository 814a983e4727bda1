-- Records in memory: slots that do not overlap, some of them with a text in it, and what a write to
-- one of them leaves of the others.
import Gwdonu.Lib.Cells
import Mathlib.Data.List.TakeWhile
import Mathlib.Order.Basic

namespace slots

open cells

/-- Where the slots of a record are. -/
structure Layout (κ : Type*) where
  start : κ → Nat
  size : κ → Nat
  apart : ∀ f g, f ≠ g → start f + size f ≤ start g ∨ start g + size g ≤ start f

variable {α κ : Type*} {z : α} {L : Layout κ} {m m' : Int → α} {f g : κ} {l t : List α} {n k : Nat}

/-- The slot has the text in it, and an end behind it when there is room for one. -/
structure Shows (z : α) (L : Layout κ) (m : Int → α) (f : κ) (l : List α) : Prop where
  length_le : l.length ≤ L.size f
  no_end : z ∉ l
  cells : ∀ i ≤ l.length, i < L.size f → m (L.start f + i) = (l[i]?).getD z

namespace Shows

theorem congr (h : Shows z L m f l) (hsame : ∀ i < L.size f, m' (L.start f + i) = m (L.start f + i)) :
    Shows z L m' f l :=
  ⟨h.length_le, h.no_end, fun i hi hlt => (hsame i hlt).trans (h.cells i hi hlt)⟩

/-- A write to cells that are not those of the slot. -/
theorem other (h : Shows z L m f l) {p : Nat} {t : List α}
    (hp : p + t.length ≤ L.start f ∨ L.start f + L.size f ≤ p) : Shows z L (put m p t) f l := by
  refine h.congr fun i hi => ?_
  rcases hp with hp | hp
  · exact put_behind (by omega)
  · exact put_before (by omega) _

theorem other_slot (h : Shows z L m g l) (hne : g ≠ f) (ht : t.length ≤ L.size f) :
    Shows z L (put m (L.start f) t) g l := by
  refine h.other ?_
  rcases L.apart f g hne.symm with hapart | hapart
  · exact .inl (by omega)
  · exact .inr hapart

/-- A text that leaves room for its end. -/
theorem put_text (ht : t.length < L.size f) (hz : z ∉ t) (m : Int → α) :
    Shows z L (put m (L.start f) (t ++ [z])) f t :=
  ⟨ht.le, hz, fun i hi _ => holds_put m (L.start f) t i hi⟩

/-- Cells are copied to the slot, and the rest of it is cleared. -/
theorem copy [DecidableEq α] (ht : t.length ≤ L.size f) (m : Int → α) :
    Shows z L (put m (L.start f) (t ++ List.replicate (L.size f - t.length) z)) f (t.takeWhile (· ≠ z)) := by
  have hle : (t.takeWhile (· ≠ z)).length ≤ t.length := (List.takeWhile_prefix _).length_le
  refine ⟨hle.trans ht, fun hmem => ?_, fun i hi hlt => ?_⟩
  · simpa using List.mem_takeWhile_imp hmem
  · rw [put_at (by rw [List.length_append, List.length_replicate]; omega)]
    by_cases hcopy : i < t.length
    · rw [List.getElem_append_left hcopy]
      rcases Nat.lt_or_eq_of_le hi with hin | hend
      · rw [List.getElem?_eq_getElem hin, Option.getD_some, (List.takeWhile_prefix _).getElem]
      · have hfind : i = t.findIdx fun a => !decide (a ≠ z) := by
          rw [List.takeWhile_eq_take_findIdx_not, List.length_take] at hend
          omega
        rw [List.getElem?_eq_none hend.ge, Option.getD_none]
        subst hfind
        simpa using List.findIdx_getElem (p := fun a => !decide (a ≠ z)) (w := hcopy)
    · rw [List.getElem_append_right (by omega), List.getElem_replicate, List.getElem?_eq_none (by omega),
        Option.getD_none]

/-- The last cell of the slot is made the end of the text in it. -/
theorem cut (h : Shows z L m f l) (hpos : 0 < L.size f) :
    Shows z L (put m (L.start f + L.size f - 1 : Nat) [z]) f (l.take (L.size f - 1)) := by
  refine ⟨(List.length_take_le _ _).trans (Nat.sub_le _ _), fun hmem => h.no_end (List.mem_of_mem_take hmem),
    fun i hi hlt => ?_⟩
  rw [List.length_take] at hi
  rw [put_one]
  by_cases hlast : i = L.size f - 1
  · rw [if_pos (by omega), List.getElem?_eq_none, Option.getD_none]
    rw [List.length_take]
    omega
  · rw [if_neg (by omega), h.cells i (by omega) hlt, List.getElem?_take_of_lt (by omega)]

/-- The text is read as it is, up to its end. -/
theorem text_eq [DecidableEq α] (h : Shows z L m f l) (hlt : l.length < L.size f) (hn : L.size f ≤ n) :
    text z m (L.start f) n = l :=
  cells.text_eq (fun i hi => h.cells i hi (by omega)) h.no_end (by omega)

/-- Of a text that fills the slot, what is read begins with it. -/
theorem take_text [DecidableEq α] (h : Shows z L m f l) (hk : k ≤ L.size f) (hn : L.size f ≤ n) :
    (text z m (L.start f) n).take k = l.take k := by
  rcases Nat.lt_or_eq_of_le h.length_le with hlt | hfull
  · rw [h.text_eq hlt hn]
  · have hcells (i : Nat) (hi : i < l.length) : m (L.start f + i) = l[i] := by
      rw [h.cells i hi.le (by omega), List.getElem?_eq_getElem hi, Option.getD_some]
    rw [← Nat.add_sub_of_le (h.length_le.trans hn), text_append hcells h.no_end,
      List.take_append_of_le_length (by omega)]

end Shows

end slots
