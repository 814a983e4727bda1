-- Doubly linked lists: cells that name the cell after them and the one before,
-- and a header that names the first cell and the last.
import Mathlib.Data.List.Chain
import Mathlib.Data.List.Nodup
import Mathlib.Logic.Function.Basic

namespace linked

open Function

section
variable {α : Type*}

/-! ## Cells in a row -/

/-- Each cell of the row names the one after it, and is named by it in turn. -/
def Links (next prev : α → α) (l : List α) : Prop :=
  l.IsChain (fun x y => next x = y ∧ prev y = x)

variable {next prev : α → α} {next' prev' : α → α}

/-- The last cell's `next` and the first cell's `prev` do not matter. -/
theorem Links.congr {l : List α} (h : Links next prev l)
    (hn : ∀ x ∈ l.dropLast, next' x = next x) (hp : ∀ y ∈ l.tail, prev' y = prev y) :
    Links next' prev' l := by
  induction l with
  | nil => exact .nil
  | cons x l ih =>
    cases l with
    | nil => exact .singleton _
    | cons y l =>
      obtain ⟨⟨hxy, hyx⟩, hrest⟩ := List.isChain_cons_cons.mp h
      refine List.isChain_cons_cons.mpr ⟨⟨?_, ?_⟩, ih hrest ?_ ?_⟩
      · rw [hn x (by simp), hxy]
      · rw [hp y (by simp), hyx]
      · intro z hz
        exact hn z (by simpa using Or.inr hz)
      · intro z hz
        exact hp z (by simpa using Or.inr hz)

/-- A cell comes between two others. -/
theorem Links.insert {l r : List α} {a x b : α} (h : Links next prev (l ++ a :: b :: r))
    (hax : next' a = x) (hxa : prev' x = a) (hxb : next' x = b) (hbx : prev' b = x)
    (hl : ∀ y ∈ l, next' y = next y) (hl' : ∀ y ∈ (l ++ [a]).tail, prev' y = prev y)
    (hr : ∀ y ∈ (b :: r).dropLast, next' y = next y) (hr' : ∀ y ∈ r, prev' y = prev y) :
    Links next' prev' (l ++ a :: x :: b :: r) := by
  obtain ⟨hleft, -, hright⟩ := List.isChain_append_cons_cons.mp h
  refine List.isChain_append_cons_cons.mpr ⟨?_, ⟨hax, hxa⟩, ?_⟩
  · exact Links.congr hleft (by simpa using hl) hl'
  · exact List.isChain_cons_cons.mpr ⟨⟨hxb, hbx⟩, Links.congr hright hr hr'⟩

/-- A cell goes, and its neighbours name each other. -/
theorem Links.remove {l r : List α} {a x b : α} (h : Links next prev (l ++ a :: x :: b :: r))
    (hab : next' a = b) (hba : prev' b = a)
    (hl : ∀ y ∈ l, next' y = next y) (hl' : ∀ y ∈ (l ++ [a]).tail, prev' y = prev y)
    (hr : ∀ y ∈ (b :: r).dropLast, next' y = next y) (hr' : ∀ y ∈ r, prev' y = prev y) :
    Links next' prev' (l ++ a :: b :: r) := by
  obtain ⟨hleft, -, hright⟩ := List.isChain_append_cons_cons.mp h
  refine List.isChain_append_cons_cons.mpr ⟨?_, ⟨hab, hba⟩, ?_⟩
  · exact Links.congr hleft (by simpa using hl) hl'
  · exact Links.congr (List.isChain_cons_cons.mp hright).2 hr hr'

end

section
variable {α : Type*}

/-! ## The header -/

/-- The cells of `l` in a row, from the header back to the header, which is
`none`: it names the first cell and the last one. -/
def Ring (next prev : Option α → Option α) (l : List α) : Prop :=
  Links next prev (none :: l.map some ++ [none])

variable {next prev : Option α → Option α}

theorem ring_nil : Ring next prev [] ↔ next none = none ∧ prev none = none := by
  simp [Ring, Links]

/-- The cell before the place between `l` and the rest. -/
theorem row_left (l : List α) :
    none :: l.map some = (none :: l.map some).dropLast ++ [l.getLast?] := by
  rcases l.eq_nil_or_concat with rfl | ⟨l, a, rfl⟩
  · rfl
  · simp [List.dropLast_cons_of_ne_nil]

/-- The cell after the place between the rest and `r`. -/
theorem row_right (r : List α) :
    r.map some ++ [none] = r.head? :: (r.map some ++ [none]).tail := by
  cases r <;> rfl

theorem ring_split (l r : List α) :
    Ring next prev (l ++ r) ↔ Links next prev ((none :: l.map some).dropLast ++
      l.getLast? :: r.head? :: (r.map some ++ [none]).tail) := by
  rw [← row_right, ← List.singleton_append (x := l.getLast?), ← List.append_assoc, ← row_left]
  simp [Ring]

theorem ring_split_at (l r : List α) (x : α) :
    Ring next prev (l ++ x :: r) ↔ Links next prev ((none :: l.map some).dropLast ++
      l.getLast? :: some x :: r.head? :: (r.map some ++ [none]).tail) := by
  rw [← row_right, ring_split]
  rfl

theorem ne_getLast? {l : List α} (hd : l.Nodup) :
    ∀ y ∈ (none :: l.map some).dropLast, y ≠ l.getLast? := by
  have hrow : (none :: l.map some).Nodup :=
    List.nodup_cons.mpr ⟨by simp, hd.map (fun _ _ => Option.some.inj)⟩
  rw [row_left] at hrow
  intro y hy he
  exact (List.nodup_append.mp hrow).2.2 y hy _ (List.mem_singleton.mpr rfl) he

theorem ne_head? {r : List α} (hd : r.Nodup) :
    ∀ y ∈ (r.map some ++ [none]).tail, y ≠ r.head? := by
  have hrow : (r.map some ++ [none]).Nodup := by
    refine List.nodup_append.mpr ⟨hd.map (fun _ _ => Option.some.inj), by simp, ?_⟩
    simp
  rw [row_right] at hrow
  intro y hy he
  exact (List.nodup_cons.mp hrow).1 (he ▸ hy)

theorem left_ne {l : List α} {x : α} (hx : x ∉ l) :
    ∀ y ∈ (none :: l.map some).dropLast, y ≠ some x := by
  intro y hy he
  have hm := (List.dropLast_sublist _).subset hy
  subst he
  exact hx (by simpa using hm)

theorem right_ne {r : List α} {x : α} (hx : x ∉ r) :
    ∀ y ∈ (r.map some ++ [none]).tail, y ≠ some x := by
  intro y hy he
  have hm := List.mem_of_mem_tail hy
  subst he
  exact hx (by simpa using hm)

/-- A header that names the first cell and the last one, and the cells of `l`. -/
theorem Ring.header {l : List α} (h : Ring next prev l) :
    next none = l.head? ∧ prev none = l.getLast? := by
  refine ⟨?_, ?_⟩
  · have hfirst := (ring_split [] l).mp (by simpa using h)
    exact (List.isChain_append_cons_cons.mp hfirst).2.1.1
  · have hlast := (ring_split l []).mp (by simpa using h)
    exact (List.isChain_append_cons_cons.mp hlast).2.1.2

theorem Ring.neighbours {l r : List α} {x : α} (h : Ring next prev (l ++ x :: r)) :
    next (some x) = r.head? ∧ prev (some x) = l.getLast? := by
  obtain ⟨-, ⟨-, hprev⟩, hrest⟩ := List.isChain_append_cons_cons.mp ((ring_split_at l r x).mp h)
  exact ⟨(List.isChain_cons_cons.mp hrest).1.1, hprev⟩

/-- Only the header and the cells of the ring matter. -/
theorem Ring.congr {next' prev' : Option α → Option α} {l : List α} (h : Ring next prev l)
    (hn : next' none = next none) (hp : prev' none = prev none)
    (hl : ∀ a ∈ l, next' (some a) = next (some a) ∧ prev' (some a) = prev (some a)) :
    Ring next' prev' l := by
  have hboth : ∀ y ∈ none :: l.map some ++ [none], next' y = next y ∧ prev' y = prev y := by
    intro y hy
    cases y with
    | none => exact ⟨hn, hp⟩
    | some a => exact hl a (by simpa using hy)
  apply Links.congr h (fun y hy => (hboth y ((List.dropLast_sublist _).subset hy)).1)
  exact fun y hy => (hboth y (List.mem_of_mem_tail hy)).2

variable [DecidableEq α]

/-- A cell comes between `l` and `r`. -/
theorem Ring.insert {l r : List α} {x : α} (h : Ring next prev (l ++ r))
    (hd : (l ++ x :: r).Nodup) :
    Ring (update (update next l.getLast? (some x)) (some x) r.head?)
      (update (update prev r.head? (some x)) (some x) l.getLast?) (l ++ x :: r) := by
  obtain ⟨hl, hxr, hapart⟩ := List.nodup_append.mp hd
  obtain ⟨hx, hr⟩ := List.nodup_cons.mp hxr
  have hxl : x ∉ l := fun hm => hapart x hm x (by simp) rfl
  have hlr : ∀ a ∈ l, a ∉ r := fun a ha hr => hapart a ha a (by simp [hr]) rfl
  have hlast : l.getLast? ≠ some x := fun he => hxl (List.mem_of_getLast? he)
  have hhead : r.head? ≠ some x := fun he => hx (List.mem_of_head? he)
  refine (ring_split_at l r x).mpr (Links.insert ((ring_split l r).mp h) ?_ ?_ ?_ ?_ ?_ ?_ ?_ ?_)
  · rw [update_of_ne hlast, update_self]
  · rw [update_self]
  · rw [update_self]
  · rw [update_of_ne hhead, update_self]
  · intro y hy
    rw [update_of_ne (left_ne hxl y hy), update_of_ne (ne_getLast? hl y hy)]
  · rw [← row_left]
    intro y hy
    obtain ⟨a, ha, rfl⟩ := List.mem_map.mp hy
    have hne : some a ≠ r.head? := fun he => hlr a ha (List.mem_of_head? he.symm)
    rw [update_of_ne (by rintro ⟨⟩; exact hxl ha), update_of_ne hne]
  · rw [← row_right, List.dropLast_concat]
    intro y hy
    obtain ⟨a, ha, rfl⟩ := List.mem_map.mp hy
    have hne : some a ≠ l.getLast? := fun he => hlr a (List.mem_of_getLast? he.symm) ha
    rw [update_of_ne (by rintro ⟨⟩; exact hx ha), update_of_ne hne]
  · intro y hy
    rw [update_of_ne (right_ne hx y hy), update_of_ne (ne_head? hr y hy)]

/-- The cell between `l` and `r` goes. -/
theorem Ring.remove {l r : List α} {x : α} (h : Ring next prev (l ++ x :: r))
    (hd : (l ++ x :: r).Nodup) :
    Ring (update next l.getLast? r.head?) (update prev r.head? l.getLast?) (l ++ r) := by
  obtain ⟨hl, hxr, hapart⟩ := List.nodup_append.mp hd
  obtain ⟨-, hr⟩ := List.nodup_cons.mp hxr
  have hlr : ∀ a ∈ l, a ∉ r := fun a ha hr => hapart a ha a (by simp [hr]) rfl
  refine (ring_split l r).mpr (Links.remove ((ring_split_at l r x).mp h) ?_ ?_ ?_ ?_ ?_ ?_)
  · rw [update_self]
  · rw [update_self]
  · intro y hy
    rw [update_of_ne (ne_getLast? hl y hy)]
  · rw [← row_left]
    intro y hy
    obtain ⟨a, ha, rfl⟩ := List.mem_map.mp hy
    exact update_of_ne (fun he => hlr a ha (List.mem_of_head? he.symm)) _ _
  · rw [← row_right, List.dropLast_concat]
    intro y hy
    obtain ⟨a, ha, rfl⟩ := List.mem_map.mp hy
    exact update_of_ne (fun he => hlr a (List.mem_of_getLast? he.symm) ha) _ _
  · intro y hy
    rw [update_of_ne (ne_head? hr y hy)]

/-- Two rings with the same cells become one: the last cell of `l` names the
first of `r`, and the header of `l` names the last of `r`. -/
theorem Ring.append {next' prev' : Option α → Option α} {l r : List α} (hl : Ring next prev l)
    (hr : Ring next' prev' r) (hd : (l ++ r).Nodup)
    (hsame : ∀ a ∈ r, next (some a) = next' (some a) ∧ prev (some a) = prev' (some a)) :
    Ring (update next l.getLast? r.head?)
      (update (update prev none r.getLast?) r.head? l.getLast?) (l ++ r) := by
  obtain ⟨hdl, hdr, hapart⟩ := List.nodup_append.mp hd
  have hlr : ∀ a ∈ l, a ∉ r := fun a ha hr => hapart a ha a hr rfl
  have hleft : Links next prev (none :: l.map some) := (List.isChain_append.mp hl).1
  have hright : Links next' prev' (r.map some ++ [none]) := by
    have hrow : Links next' prev' ([none] ++ (r.map some ++ [none])) := hr
    exact (List.isChain_append.mp hrow).2.1
  refine (ring_split l r).mpr (List.isChain_append_cons_cons.mpr ⟨?_, ⟨?_, ?_⟩, ?_⟩)
  · rw [← row_left]
    apply Links.congr hleft
    · intro y hy
      exact update_of_ne (ne_getLast? hdl y hy) _ _
    · intro y hy
      obtain ⟨a, ha, rfl⟩ := List.mem_map.mp hy
      have hne : some a ≠ r.head? := fun he => hlr a ha (List.mem_of_head? he.symm)
      rw [update_of_ne hne, update_of_ne (by simp)]
  · rw [update_self]
  · rw [update_self]
  · rw [← row_right]
    apply Links.congr hright
    · rw [List.dropLast_concat]
      intro y hy
      obtain ⟨a, ha, rfl⟩ := List.mem_map.mp hy
      have hne : some a ≠ l.getLast? := fun he => hlr a (List.mem_of_getLast? he.symm) ha
      rw [update_of_ne hne, (hsame a ha).1]
    · intro y hy
      rw [update_of_ne (ne_head? hdr y hy)]
      cases y with
      | none => rw [update_self, hr.header.2]
      | some a =>
        have ha : a ∈ r := by simpa using List.mem_of_mem_tail hy
        rw [update_of_ne (by simp), (hsame a ha).2]

end

end linked
