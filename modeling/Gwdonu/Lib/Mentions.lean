-- Tables that are filled by mentions, and searched for a mention in their first places only.
-- What such a table comes to, beside the mentions without their repetitions.
import Mathlib.Data.List.Induction
import Mathlib.Data.List.Nodup

namespace mentions

variable {α : Type} [DecidableEq α] (blank : α) (room : Nat)

/-- Each mention once, in the order of the first ones. -/
def distinct (ms : List α) : List α := ms.foldl (fun d m => if m ∈ d then d else d ++ [m]) []

/-- A mention is found in the first places of the table, of which the free ones are `blank`, or it is put
behind the last one. -/
def Found (tbl : List α) (m : α) : Prop := m ∈ tbl.take room ∨ m = blank ∧ tbl.length < room

instance (tbl : List α) (m : α) : Decidable (Found blank room tbl m) := inferInstanceAs (Decidable (_ ∨ _))

def add (tbl : List α) (m : α) : List α := if Found blank room tbl m then tbl else tbl ++ [m]

def table (ms : List α) : List α := ms.foldl (add blank room) []

/-- What the first places hold. -/
def firsts (ms : List α) : List α := (distinct (ms.filter (· ≠ blank))).take room

/-- A mention behind these takes a place when it is not in the first places; a blank one does only when
there is no free one of them. -/
def TakesPlace (ms : List α) (m : α) : Prop :=
  m ∉ firsts blank room ms ∧ (m = blank → (firsts blank room ms).length = room)

instance (ms : List α) (m : α) : Decidable (TakesPlace blank room ms m) := inferInstanceAs (Decidable (_ ∧ _))

/-- How many of the mentions take a place. -/
def places (ms : List α) : Nat :=
  (List.range ms.length).countP fun k => ms[k]?.any fun m => TakesPlace blank room (ms.take k) m

/-- The first distinct mentions are not blank, and those behind them come once. -/
structure ComeOnce (ms : List α) : Prop where
  blank : blank ∉ (distinct ms).take room
  once : ∀ m ∈ (distinct ms).drop room, ms.count m = 1

/-! ## One more mention -/

variable {blank room} {ms : List α} {m : α}

theorem distinct_concat (ms : List α) (m : α) :
    distinct (ms ++ [m]) = if m ∈ distinct ms then distinct ms else distinct ms ++ [m] := List.foldl_concat ..

theorem table_concat (ms : List α) (m : α) : table blank room (ms ++ [m]) = add blank room (table blank room ms) m :=
  List.foldl_concat ..

@[simp] theorem mem_distinct : m ∈ distinct ms ↔ m ∈ ms := by
  induction ms using List.reverseRecOn with
  | nil => rfl
  | append_singleton ms n ih =>
    rw [distinct_concat, List.mem_append, List.mem_singleton, ← ih]
    split_ifs with hn
    · exact ⟨Or.inl, fun h => h.elim id fun h => h ▸ hn⟩
    · rw [List.mem_append, List.mem_singleton]

theorem nodup_distinct (ms : List α) : (distinct ms).Nodup := by
  induction ms using List.reverseRecOn with
  | nil => exact List.nodup_nil
  | append_singleton ms n ih =>
    rw [distinct_concat]
    split_ifs with hn
    · exact ih
    · exact List.nodup_append.mpr
        ⟨ih, List.nodup_singleton n, fun a ha b hb hab => hn (List.mem_singleton.mp hb ▸ hab ▸ ha)⟩

/-! ## The first places -/

theorem firsts_concat (ms : List α) (m : α) : firsts blank room (ms ++ [m]) =
    if m = blank ∨ m ∈ ms ∨ (firsts blank room ms).length = room then firsts blank room ms
    else firsts blank room ms ++ [m] := by
  have hlength : (firsts blank room ms).length = min room (distinct (ms.filter (· ≠ blank))).length := List.length_take
  by_cases hblank : m = blank
  · subst hblank
    rw [if_pos (Or.inl rfl), firsts, List.filter_append]
    simp [firsts]
  · have hfilter : (ms ++ [m]).filter (· ≠ blank) = ms.filter (· ≠ blank) ++ [m] := by
      rw [List.filter_append, List.filter_singleton, decide_eq_true hblank]
      rfl
    have hmem : m ∈ distinct (ms.filter (· ≠ blank)) ↔ m ∈ ms := by
      rw [mem_distinct, List.mem_filter]
      exact and_iff_left (decide_eq_true hblank)
    rw [firsts, hfilter, distinct_concat]
    by_cases hms : m ∈ ms
    · rw [if_pos (hmem.mpr hms), if_pos (Or.inr (Or.inl hms))]
      rfl
    · rw [if_neg fun h => hms (hmem.mp h)]
      by_cases hfull : (firsts blank room ms).length = room
      · rw [if_pos (Or.inr (Or.inr hfull)), List.take_append_of_le_length (by omega)]
        rfl
      · rw [if_neg (by simp [hblank, hms, hfull]),
          List.take_of_length_le (by rw [List.length_append, List.length_singleton]; omega),
          firsts, List.take_of_length_le (by omega)]

theorem mem_of_mem_firsts (h : m ∈ firsts blank room ms) : m ∈ ms ∧ m ≠ blank := by
  have hmem := List.mem_of_mem_take h
  rw [mem_distinct, List.mem_filter, decide_eq_true_eq] at hmem
  exact hmem

/-- As long as there is a free place, the first places hold every mention that is not blank. -/
theorem mem_firsts_of_room (hroom : (firsts blank room ms).length < room) (hm : m ∈ ms) (hblank : m ≠ blank) :
    m ∈ firsts blank room ms := by
  have hlength : (firsts blank room ms).length = min room (distinct (ms.filter (· ≠ blank))).length := List.length_take
  rw [firsts, List.take_of_length_le (by omega), mem_distinct, List.mem_filter]
  exact ⟨hm, decide_eq_true hblank⟩

theorem take_table (ms : List α) : (table blank room ms).take room = firsts blank room ms := by
  induction ms using List.reverseRecOn with
  | nil => rfl
  | append_singleton ms m ih =>
    have hlength : (firsts blank room ms).length = min room (table blank room ms).length := by
      rw [← ih]
      exact List.length_take
    rw [table_concat, add, firsts_concat]
    by_cases hfound : Found blank room (table blank room ms) m
    · have hkept : m = blank ∨ m ∈ ms ∨ (firsts blank room ms).length = room := by
        rcases hfound with hmem | ⟨hblank, -⟩
        · rw [ih] at hmem
          exact Or.inr (Or.inl (mem_of_mem_firsts hmem).1)
        · exact Or.inl hblank
      rw [if_pos hfound, if_pos hkept, ih]
    · rw [if_neg hfound]
      rw [Found, ih, not_or, not_and] at hfound
      obtain ⟨hnew, hblank⟩ := hfound
      by_cases hroom : (table blank room ms).length < room
      · have hne : m ≠ blank := fun h => hblank h hroom
        have hfirsts : firsts blank room ms = table blank room ms := by
          rw [← ih]
          exact List.take_of_length_le (Nat.le_of_lt hroom)
        have hput : ¬ (m = blank ∨ m ∈ ms ∨ (firsts blank room ms).length = room) := by
          rintro (h | h | h)
          · exact hne h
          · exact hnew (mem_firsts_of_room (by rw [hfirsts]; exact hroom) h hne)
          · omega
        rw [if_neg hput, hfirsts]
        exact List.take_of_length_le (by rw [List.length_append]; exact hroom)
      · rw [if_pos (Or.inr (Or.inr (by omega))), List.take_append_of_le_length (Nat.le_of_not_lt hroom), ih]

/-- A mention takes a place just when the table does not find it. -/
theorem takesPlace_iff (ms : List α) (m : α) :
    TakesPlace blank room ms m ↔ ¬ Found blank room (table blank room ms) m := by
  have hlength : (firsts blank room ms).length = min room (table blank room ms).length := by
    rw [← take_table]
    exact List.length_take
  have hroom : (table blank room ms).length < room ↔ ¬ (firsts blank room ms).length = room := by omega
  rw [TakesPlace, Found, take_table, not_or, not_and, hroom, not_not]

theorem places_concat (ms : List α) (m : α) : places blank room (ms ++ [m]) =
    places blank room ms + if TakesPlace blank room ms m then 1 else 0 := by
  have hbefore : ∀ k ∈ List.range ms.length,
      ((ms ++ [m])[k]?.any fun n => TakesPlace blank room ((ms ++ [m]).take k) n) =
      ms[k]?.any fun n => TakesPlace blank room (ms.take k) n := by
    intro k hk
    have hlt := List.mem_range.mp hk
    rw [List.getElem?_append_left hlt, List.take_append_of_le_length (Nat.le_of_lt hlt)]
  rw [places, List.length_append, List.length_singleton, List.range_succ, List.countP_append,
    List.countP_congr fun k hk => by rw [hbefore k hk], ← places, List.countP_singleton, List.getElem?_concat_length,
    List.take_left]
  rw [Option.any_some]
  simp only [decide_eq_true_eq]

theorem length_table (ms : List α) : (table blank room ms).length = places blank room ms := by
  induction ms using List.reverseRecOn with
  | nil => rfl
  | append_singleton ms m ih =>
    rw [table_concat, add, places_concat]
    by_cases hfound : Found blank room (table blank room ms) m
    · rw [if_pos hfound, if_neg (fun htakes => (takesPlace_iff ms m).mp htakes hfound), ih, Nat.add_zero]
    · rw [if_neg hfound, if_pos ((takesPlace_iff ms m).mpr hfound), List.length_append, ih]
      rfl

/-! ## Tables without repetitions -/

theorem mem_of_mem_table (h : m ∈ table blank room ms) : m ∈ ms := by
  induction ms using List.reverseRecOn with
  | nil => exact h
  | append_singleton ms n ih =>
    rw [table_concat, add] at h
    split_ifs at h
    · exact List.mem_append_left _ (ih h)
    · rcases List.mem_append.mp h with h | h
      · exact List.mem_append_left _ (ih h)
      · exact List.mem_append_right _ h

/-- The table begins like the one before. -/
theorem table_concat_eq (ms : List α) (m : α) : table blank room (ms ++ [m]) = table blank room ms ∨
    ¬ Found blank room (table blank room ms) m ∧ table blank room (ms ++ [m]) = table blank room ms ++ [m] := by
  rw [table_concat, add]
  split_ifs with hfound
  · exact Or.inl rfl
  · exact Or.inr ⟨hfound, rfl⟩

/-- What is not in the first places is there as often as it is mentioned. -/
theorem count_table (hblank : m ≠ blank) (h : m ∉ (table blank room ms).take room) :
    (table blank room ms).count m = ms.count m := by
  induction ms using List.reverseRecOn with
  | nil => rfl
  | append_singleton ms n ih =>
    rw [table_concat, add] at h ⊢
    rw [List.count_append]
    by_cases hfound : Found blank room (table blank room ms) n
    · rw [if_pos hfound] at h ⊢
      have hne : n ≠ m := by
        rintro rfl
        exact hfound.elim h fun hb => hblank hb.1
      rw [ih h, List.count_singleton, beq_false_of_ne hne]
      rfl
    · rw [if_neg hfound] at h ⊢
      have hbefore : m ∉ (table blank room ms).take room := by
        intro hmem
        rw [List.take_append] at h
        exact h (List.mem_append_left _ hmem)
      rw [List.count_append, ih hbefore]

theorem take_distinct_concat (h : m ∈ (distinct ms).take room) (n : α) : m ∈ (distinct (ms ++ [n])).take room := by
  rw [distinct_concat]
  split_ifs
  · exact h
  · rw [List.take_append]
    exact List.mem_append_left _ h

theorem drop_distinct_concat (h : m ∈ (distinct ms).drop room) (n : α) : m ∈ (distinct (ms ++ [n])).drop room := by
  rw [distinct_concat]
  split_ifs
  · exact h
  · rw [List.drop_append]
    exact List.mem_append_left _ h

theorem blank_notMem_firsts (ms : List α) : blank ∉ firsts blank room ms := fun h => (mem_of_mem_firsts h).2 rfl

/-- Without a blank mention the first places hold the first distinct ones. -/
theorem firsts_of_notMem (h : blank ∉ ms) : firsts blank room ms = (distinct ms).take room := by
  have hall : ms.filter (· ≠ blank) = ms := by
    rw [List.filter_eq_self]
    intro n hn
    exact decide_eq_true fun heq => h (heq ▸ hn)
  rw [firsts, hall]

/-- Where the first distinct mentions are not blank, the blank ones are all there. -/
theorem count_table_blank (h : blank ∉ (distinct ms).take room) :
    (table blank room ms).count blank = ms.count blank := by
  induction ms using List.reverseRecOn with
  | nil => rfl
  | append_singleton ms n ih =>
    have hbefore : blank ∉ (distinct ms).take room := fun hmem => h (take_distinct_concat hmem n)
    have hcount := ih hbefore
    rw [table_concat, add, List.count_append]
    by_cases hn : n = blank
    · subst hn
      have hnew : ¬ Found n room (table n room ms) n := by
        rw [Found, take_table, not_or, not_and]
        refine ⟨blank_notMem_firsts ms, fun _ hroom => h ?_⟩
        have hfirsts : table n room ms = firsts n room ms := by
          rw [← take_table]
          exact (List.take_of_length_le (Nat.le_of_lt hroom)).symm
        have hnone : n ∉ ms := by
          rw [hfirsts, List.count_eq_zero.mpr (blank_notMem_firsts ms)] at hcount
          exact List.count_eq_zero.mp hcount.symm
        have hlength : (distinct ms).length < room := by
          rw [hfirsts, firsts_of_notMem hnone, List.length_take] at hroom
          omega
        rw [distinct_concat, if_neg (mem_distinct.not.mpr hnone),
          List.take_of_length_le (by rw [List.length_append]; exact hlength)]
        exact List.mem_append_right _ (List.mem_singleton.mpr rfl)
      rw [if_neg hnew, List.count_append, hcount]
    · split_ifs
      · rw [hcount, List.count_singleton, beq_false_of_ne hn]
        rfl
      · rw [List.count_append, hcount]

theorem ComeOnce.before {n : α} (h : ComeOnce blank room (ms ++ [n])) : ComeOnce blank room ms := by
  refine ⟨fun hmem => h.blank (take_distinct_concat hmem n), fun m hm => ?_⟩
  have honce := h.once m (drop_distinct_concat hm n)
  have hpos : 0 < ms.count m := List.count_pos_iff.mpr (mem_distinct.mp (List.mem_of_mem_drop hm))
  rw [List.count_append] at honce
  omega

/-- The table has each mention once, in order, just when the first distinct ones are not blank and the others
come once. -/
theorem table_eq_distinct_iff (ms : List α) : table blank room ms = distinct ms ↔ ComeOnce blank room ms := by
  constructor
  · intro heq
    have hblank : blank ∉ (distinct ms).take room := by
      rw [← heq, take_table]
      exact blank_notMem_firsts ms
    refine ⟨hblank, fun m hm => ?_⟩
    have hnodup := nodup_distinct ms
    have hcount : (table blank room ms).count m = 1 := by
      rw [heq]
      exact List.count_eq_one_of_mem hnodup (List.mem_of_mem_drop hm)
    rw [← hcount]
    by_cases hm' : m = blank
    · rw [hm']
      exact (count_table_blank hblank).symm
    · refine (count_table hm' fun hmem => ?_).symm
      rw [heq] at hmem
      exact List.disjoint_take_drop hnodup (Nat.le_refl room) hmem hm
  · intro h
    induction ms using List.reverseRecOn with
    | nil => rfl
    | append_singleton ms n ih =>
      have heq := ih h.before
      rw [table_concat, add, distinct_concat, heq]
      by_cases hn : n ∈ distinct ms
      · have hfound : Found blank room (distinct ms) n := by
          by_contra hnew
          have hdrop : n ∈ (distinct ms).drop room := by
            rw [← List.take_append_drop room (distinct ms), List.mem_append] at hn
            exact hn.resolve_left fun htake => hnew (Or.inl htake)
          have honce := h.once n (drop_distinct_concat hdrop n)
          have hpos : 0 < ms.count n := List.count_pos_iff.mpr (mem_distinct.mp (List.mem_of_mem_drop hdrop))
          rw [List.count_append, List.count_singleton_self] at honce
          omega
        rw [if_pos hn, if_pos hfound]
      · have hnew : ¬ Found blank room (distinct ms) n := by
          rintro (htake | ⟨rfl, hroom⟩)
          · exact hn (List.mem_of_mem_take htake)
          · refine h.blank ?_
            rw [distinct_concat, if_neg hn, List.take_of_length_le (by rw [List.length_append]; exact hroom)]
            exact List.mem_append_right _ (List.mem_singleton.mpr rfl)
        rw [if_neg hn, if_neg hnew]

end mentions
