-- Rings of slots: a cursor that moves on before each entry is written, and a
-- walk that goes from slot to slot and passes over those that hold nothing.
import Mathlib.Data.List.Forall2
import Mathlib.Data.List.Nodup
import Mathlib.Data.List.Range
import Mathlib.Logic.Function.Basic

namespace rings

open Function

variable {α : Type*} {N c i k j : Nat}

/-! ## Slots -/

/-- The slot after a slot. -/
def succ (N i : Nat) : Nat := if i = N - 1 then 0 else i + 1

/-- The slot that was written `k` entries before the slot `c`, and how many entries
before `c` a slot was written. -/
def back (N c k : Nat) : Nat := if k ≤ c then c - k else c + N - k

theorem succ_lt (hi : i < N) : succ N i < N := by
  unfold succ; split <;> omega

theorem back_lt (hc : c < N) (hk : k < N) : back N c k < N := by
  unfold back; split <;> omega

@[simp] theorem back_zero (N c : Nat) : back N c 0 = c := by
  simp [back]

theorem back_back (hc : c < N) (hi : i < N) : back N c (back N c i) = i := by
  unfold back; split_ifs <;> omega

theorem back_inj (hc : c < N) (hj : j < N) (hk : k < N) (h : back N c j = back N c k) : j = k := by
  rw [← back_back hc hj, h, back_back hc hk]

theorem succ_back (hc : c < N) (hk : k + 1 < N) : succ N (back N c (k + 1)) = back N c k := by
  unfold succ back; split_ifs <;> omega

theorem succ_cursor (hc : c < N) : succ N c = back N c (N - 1) := by
  unfold succ back; split_ifs <;> omega

/-- Seen from the next slot, every other slot is one entry older. -/
theorem back_succ (hc : c < N) (hi : i < N) (hne : i ≠ succ N c) :
    back N (succ N c) i = back N c i + 1 := by
  unfold succ at *
  unfold back
  split_ifs at * <;> omega

/-! ## Writing -/

structure RingBuffer (α : Type*) where
  slot : Nat → Option α
  cursor : Nat

def RingBuffer.push (N : Nat) (r : RingBuffer α) (a : α) : RingBuffer α :=
  ⟨update r.slot (succ N r.cursor) (some a), succ N r.cursor⟩

/-- The entries of the list, the newest first, as far as there are slots for them. -/
structure Holds (N : Nat) (r : RingBuffer α) (l : List α) : Prop where
  cursor : r.cursor < N
  slot : ∀ i < N, r.slot i = l[back N r.cursor i]?

section
variable {r : RingBuffer α} {l : List α}

theorem Holds.push (h : Holds N r l) (a : α) : Holds N (r.push N a) (a :: l) := by
  refine ⟨succ_lt h.cursor, ?_⟩
  intro i hi
  unfold RingBuffer.push
  dsimp only
  by_cases hne : i = succ N r.cursor
  · rw [hne, update_self]
    simp [back]
  · rw [update_of_ne hne, h.slot i hi, back_succ h.cursor hi hne, List.getElem?_cons_succ]

theorem Holds.newest (h : Holds N r l) (hk : k < N) : r.slot (back N r.cursor k) = l[k]? := by
  rw [h.slot _ (back_lt h.cursor hk), back_back h.cursor hk]

/-! ## Walking -/

/-- The first slot from `i` on that holds something. -/
def scan (N : Nat) (valid : Nat → Bool) : Nat → Nat → Option Nat
  | 0, _ => none
  | fuel + 1, i => if valid i then some i else scan N valid fuel (succ N i)

/-- The slots of a walk of `n` steps. -/
def visits (next : Nat → Option Nat) : Nat → Nat → Option (List Nat)
  | 0, _ => some []
  | n + 1, i => do
    let j ← next i
    let slots ← visits next n j
    return j :: slots

theorem scan_back {valid : Nat → Bool} (hc : c < N) (hj : valid (back N c j)) (hjk : j ≤ k) (hk : k < N)
    (hnot : ∀ m, j < m → m ≤ k → valid (back N c m) = false) {fuel : Nat} (hfuel : k < j + fuel) :
    scan N valid fuel (back N c k) = some (back N c j) := by
  induction fuel generalizing k with
  | zero => omega
  | succ fuel ih =>
    unfold scan
    by_cases hend : j = k
    · rw [← hend, if_pos hj]
    · obtain ⟨k, rfl⟩ : ∃ m, k = m + 1 := ⟨k - 1, by omega⟩
      rw [hnot (k + 1) (by omega) le_rfl, succ_back hc hk]
      exact ih (by omega) (by omega) (fun m hm hmk => hnot m hm (by omega)) (by omega)

def RingBuffer.next (N : Nat) (r : RingBuffer α) (i : Nat) : Option Nat :=
  scan N (fun i => (r.slot i).isSome) N (succ N i)

theorem Holds.valid (h : Holds N r l) (hk : k < N) :
    (r.slot (back N r.cursor k)).isSome = decide (k < l.length) := by
  rw [h.newest hk, Bool.eq_iff_iff]
  simp

/-- From the newest entry the walk comes to the oldest. -/
theorem Holds.next_cursor (h : Holds N r l) (hl : 0 < min l.length N) :
    r.next N r.cursor = some (back N r.cursor (min l.length N - 1)) := by
  have hN : 0 < N := by omega
  unfold RingBuffer.next
  rw [succ_cursor h.cursor]
  refine scan_back h.cursor ?_ (by omega) (by omega) ?_ (by omega)
  · rw [h.valid (by omega), decide_eq_true_eq]
    omega
  · intro m hm hmN
    rw [h.valid (by omega), decide_eq_false_iff_not]
    omega

/-- And from every other one to the next newer. -/
theorem Holds.next_back (h : Holds N r l) (hk : k + 1 < min l.length N) :
    r.next N (back N r.cursor (k + 1)) = some (back N r.cursor k) := by
  unfold RingBuffer.next
  rw [succ_back h.cursor (by omega)]
  refine scan_back h.cursor ?_ le_rfl (by omega) (fun m hm hmk => absurd hm (by omega)) (by omega)
  rw [h.valid (by omega), decide_eq_true_eq]
  omega

theorem scan_lt {valid : Nat → Bool} {fuel : Nat} (hi : i < N) (h : scan N valid fuel i = some j) : j < N := by
  induction fuel generalizing i with
  | zero => cases h
  | succ fuel ih =>
    unfold scan at h
    split at h
    · cases h
      exact hi
    · exact ih (succ_lt hi) h

/-- A walk stops at nothing else than a slot that holds something. -/
theorem scan_valid {valid : Nat → Bool} {fuel : Nat} (h : scan N valid fuel i = some j) : valid j := by
  induction fuel generalizing i with
  | zero => cases h
  | succ fuel ih =>
    unfold scan at h
    split at h
    · rename_i hi
      cases h
      exact hi
    · exact ih h

/-- Where no slot holds anything, no number of steps is enough. -/
theorem scan_none {valid : Nat → Bool} (hi : i < N) (h : ∀ j < N, valid j = false) (fuel : Nat) :
    scan N valid fuel i = none := by
  induction fuel generalizing i with
  | zero => rfl
  | succ fuel ih =>
    unfold scan
    rw [h i hi]
    exact ih (succ_lt hi)

/-- With one entry in the ring the walk ends within a round, wherever it begins. -/
theorem Holds.scan_some (h : Holds N r l) (hl : l ≠ []) (hi : i < N) :
    ∃ j, scan N (fun i => (r.slot i).isSome) N i = some j := by
  have hpos := List.length_pos_iff.mpr hl
  have hlt := back_lt h.cursor hi
  rw [← back_back h.cursor hi]
  generalize back N r.cursor i = k at hlt
  refine ⟨back N r.cursor (min k (l.length - 1)), ?_⟩
  refine scan_back h.cursor ?_ (min_le_left k _) hlt ?_ (by omega)
  · rw [h.valid (by omega), decide_eq_true_eq]
    omega
  · intro m hm hmk
    rw [h.valid (by omega), decide_eq_false_iff_not]
    omega

theorem RingBuffer.next_lt (hi : i < N) (h : r.next N i = some j) : j < N := scan_lt (succ_lt hi) h

/-- Only the steps from the slots of the walk matter. -/
theorem visits_congr {next next' : Nat → Option Nat} (hsame : ∀ i < N, next i = next' i)
    (hlt : ∀ i j, i < N → next' i = some j → j < N) (n : Nat) (hi : i < N) :
    visits next n i = visits next' n i := by
  induction n generalizing i with
  | zero => rfl
  | succ n ih =>
    unfold visits
    rw [hsame i hi]
    cases hnext : next' i with
    | none => rfl
    | some j => simp [ih (hlt i j hi hnext)]

/-- The slots that hold something, the oldest first. -/
def RingBuffer.slots (N : Nat) (r : RingBuffer α) (n : Nat) : List Nat := (List.range n).reverse.map (back N r.cursor)

theorem slots_succ (r : RingBuffer α) (n : Nat) :
    r.slots N (n + 1) = back N r.cursor n :: r.slots N n := by
  simp [RingBuffer.slots, List.range_succ]

theorem Holds.visits_back (h : Holds N r l) (hk : k < min l.length N) :
    visits (r.next N) k (back N r.cursor k) = some (r.slots N k) := by
  induction k with
  | zero => rfl
  | succ k ih =>
    unfold visits
    rw [h.next_back hk, slots_succ]
    simp [ih (by omega)]

/-- The walk from the newest entry comes to each entry, from the oldest to the newest. -/
theorem Holds.visits_all (h : Holds N r l) :
    visits (r.next N) (min l.length N) r.cursor = some (r.slots N (min l.length N)) := by
  cases hn : min l.length N with
  | zero => rfl
  | succ n =>
    have hnext : r.next N r.cursor = some (back N r.cursor n) := by
      rw [h.next_cursor (by omega), hn]
      rfl
    unfold visits
    rw [hnext, slots_succ]
    simp [h.visits_back (show n < min l.length N by omega)]

theorem Holds.slots_nodup (h : Holds N r l) : (r.slots N (min l.length N)).Nodup := by
  unfold RingBuffer.slots
  refine List.Nodup.map_on ?_ (List.nodup_reverse.mpr List.nodup_range)
  intro j hj k hk heq
  rw [List.mem_reverse, List.mem_range] at hj hk
  exact back_inj h.cursor (by omega) (by omega) heq

/-- The walk ends where it began. -/
theorem slots_getLast (r : RingBuffer α) {n : Nat} (hn : 0 < n) :
    (r.slots N n).getLast? = some r.cursor := by
  obtain ⟨n, rfl⟩ : ∃ m, n = m + 1 := ⟨n - 1, by omega⟩
  unfold RingBuffer.slots
  rw [List.range_succ_eq_map]
  simp

theorem Holds.mem_slots (h : Holds N r l) :
    i ∈ r.slots N (min l.length N) ↔ i < N ∧ (r.slot i).isSome := by
  unfold RingBuffer.slots
  simp only [List.mem_map, List.mem_reverse, List.mem_range]
  constructor
  · rintro ⟨k, hk, rfl⟩
    refine ⟨back_lt h.cursor (by omega), ?_⟩
    rw [h.valid (by omega), decide_eq_true_eq]
    omega
  · rintro ⟨hi, hsome⟩
    refine ⟨back N r.cursor i, ?_, back_back h.cursor hi⟩
    have hlt := back_lt h.cursor hi
    rw [← back_back h.cursor hi, h.valid hlt, decide_eq_true_eq] at hsome
    omega

theorem Holds.slots_hold (h : Holds N r l) {n : Nat} (hn : n ≤ min l.length N) :
    List.Forall₂ (fun i a => r.slot i = some a) (r.slots N n) (l.take n).reverse := by
  induction n with
  | zero => exact .nil
  | succ n ih =>
    have hlength : n < l.length := by omega
    rw [slots_succ, List.take_succ_eq_append_getElem hlength, List.reverse_concat]
    refine .cons ?_ (ih (by omega))
    rw [h.newest (by omega), List.getElem?_eq_getElem hlength]

end

end rings
