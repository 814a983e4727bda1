-- Lists that are kept in the order of a key: an entry goes behind those that are no later, and
-- what may happen to the keys of entries that stay where they are.
import Mathlib.Data.List.Basic
import Mathlib.Data.List.Nodup
import Mathlib.Data.List.TakeWhile
import Mathlib.Order.Lattice

namespace deadlines

variable {α κ : Type*} [LinearOrder κ] {key key' : α → κ} {l : List α} {t : α}

/-- The keys do not go down from the front to the back. -/
def InOrder (key : α → κ) (l : List α) : Prop := l.Pairwise fun a b => key a ≤ key b

instance : Decidable (InOrder key l) := inferInstanceAs (Decidable (l.Pairwise _))

/-- Entry `t` goes before the first one that is later. -/
def place (key : α → κ) (t : α) (l : List α) : List α :=
  l.takeWhile (fun a => key a ≤ key t) ++ t :: l.dropWhile (fun a => key a ≤ key t)

theorem InOrder.sublist {l' : List α} (h : InOrder key l) (hsub : l'.Sublist l) : InOrder key l' :=
  List.Pairwise.sublist hsub h

theorem InOrder.append_iff {before behind : List α} : InOrder key (before ++ behind) ↔
    InOrder key before ∧ InOrder key behind ∧ ∀ a ∈ before, ∀ b ∈ behind, key a ≤ key b :=
  List.pairwise_append

/-- Only the order of the keys counts. -/
theorem InOrder.mono (h : InOrder key l)
    (hkeys : ∀ a ∈ l, ∀ b ∈ l, key a ≤ key b → key' a ≤ key' b) : InOrder key' l :=
  List.Pairwise.imp_of_mem (fun ha hb hab => hkeys _ ha _ hb hab) h

theorem InOrder.congr (h : InOrder key l) (hkeys : ∀ a ∈ l, key' a = key a) : InOrder key' l := by
  refine h.mono fun a ha b hb hab => ?_
  rw [hkeys a ha, hkeys b hb]
  exact hab

/-- What is behind the entries that are no later is later. -/
theorem InOrder.later (h : InOrder key l) (k : κ) : ∀ a ∈ l.dropWhile (fun a => key a ≤ k), k < key a := by
  induction l with
  | nil => exact List.forall_mem_nil _
  | cons b l ih =>
    obtain ⟨hfirst, hrest⟩ := List.pairwise_cons.mp h
    by_cases hb : key b ≤ k
    · rw [List.dropWhile_cons_of_pos (by simpa using hb)]
      exact ih hrest
    · rw [List.dropWhile_cons_of_neg (by simpa using hb)]
      have hlater : k < key b := lt_of_not_ge hb
      intro a ha
      rcases List.mem_cons.mp ha with rfl | ha
      · exact hlater
      · exact lt_of_lt_of_le hlater (hfirst a ha)

theorem place_inOrder (h : InOrder key l) (t : α) : InOrder key (place key t l) := by
  have hsplit := List.takeWhile_append_dropWhile (p := fun a => key a ≤ key t) (l := l)
  rw [← hsplit] at h
  obtain ⟨hfront, hback, hacross⟩ := InOrder.append_iff.mp h
  rw [hsplit] at h
  have hlater : ∀ b ∈ l.dropWhile (fun a => key a ≤ key t), key t ≤ key b :=
    fun b hb => le_of_lt (h.later (key t) b hb)
  have hearlier : ∀ a ∈ l.takeWhile (fun a => key a ≤ key t), key a ≤ key t :=
    fun a ha => by simpa using List.mem_takeWhile_imp ha
  refine InOrder.append_iff.mpr ⟨hfront, List.pairwise_cons.mpr ⟨hlater, hback⟩, ?_⟩
  intro a ha b hb
  rcases List.mem_cons.mp hb with rfl | hb
  · exact hearlier a ha
  · exact hacross a ha b hb

/-! ## A new key for one entry -/

section
variable [DecidableEq α]

/-- The list, cut at an entry that it has. -/
theorem cut_at (h : t ∈ l) : l = l.takeWhile (· ≠ t) ++ t :: (l.dropWhile (· ≠ t)).tail := by
  induction l with
  | nil => cases h
  | cons b l ih =>
    by_cases hb : b = t
    · subst hb
      simp
    · have hmem : t ∈ l := (List.mem_cons.mp h).resolve_left fun heq => hb heq.symm
      rw [List.takeWhile_cons_of_pos (by simpa using hb), List.dropWhile_cons_of_pos (by simpa using hb),
        List.cons_append, ← ih hmem]

/-- Key `k` lies between those in front of the entry and those behind it. -/
def Fits (key : α → κ) (l : List α) (t : α) (k : κ) : Prop :=
  (∀ a ∈ l.takeWhile (· ≠ t), key a ≤ k) ∧ ∀ b ∈ (l.dropWhile (· ≠ t)).tail, k ≤ key b

instance {k : κ} : Decidable (Fits key l t k) := inferInstanceAs (Decidable (_ ∧ _))

/-- An entry that gets a new key where it stands leaves the order just when the key fits there. -/
theorem inOrder_iff_fits (h : InOrder key l) (hnodup : l.Nodup) (ht : t ∈ l)
    (hother : ∀ a, a ≠ t → key' a = key a) : InOrder key' l ↔ Fits key l t (key' t) := by
  have hcut := cut_at ht
  unfold Fits
  generalize l.takeWhile (· ≠ t) = before at hcut ⊢
  generalize (l.dropWhile (· ≠ t)).tail = behind at hcut ⊢
  subst hcut
  have hfresh := List.nodup_middle.mp hnodup
  obtain ⟨hnot, -⟩ := List.nodup_cons.mp hfresh
  have hbefore : ∀ a ∈ before, key' a = key a :=
    fun a ha => hother a fun heq => hnot (heq ▸ List.mem_append_left behind ha)
  have hbehind : ∀ b ∈ behind, key' b = key b :=
    fun b hb => hother b fun heq => hnot (heq ▸ List.mem_append_right before hb)
  obtain ⟨hfront, hback, hacross⟩ := InOrder.append_iff.mp h
  constructor
  · intro hnew
    obtain ⟨-, hback', hacross'⟩ := InOrder.append_iff.mp hnew
    refine ⟨fun a ha => ?_, fun b hb => ?_⟩
    · rw [← hbefore a ha]
      exact hacross' a ha t List.mem_cons_self
    · rw [← hbehind b hb]
      exact (List.pairwise_cons.mp hback').1 b hb
  · rintro ⟨hearlier, hlater⟩
    have hback' : InOrder key' behind := InOrder.congr (List.pairwise_cons.mp hback).2 hbehind
    refine InOrder.append_iff.mpr ⟨InOrder.congr hfront hbefore, List.pairwise_cons.mpr ⟨?_, hback'⟩, ?_⟩
    · intro b hb
      rw [hbehind b hb]
      exact hlater b hb
    · intro a ha b hb
      rw [hbefore a ha]
      rcases List.mem_cons.mp hb with rfl | hb
      · exact hearlier a ha
      · rw [hbehind b hb]
        exact hacross a ha b (List.mem_cons_of_mem t hb)

end

end deadlines
