-- What a call leaves alone: a timer that it is not about keeps its fields and
-- its places on the two lists.
import Gwdonu.TimerSchedule

namespace gwdonu.timer

/-- Timer `t` is the same in `B` as it was in `A`, and the thread is where it was. -/
structure Same (t : Nat) (A B : Schedule) : Prop where
  block : B.timers t = A.timers t
  waiting : t ∈ B.waiting ↔ t ∈ A.waiting
  due : t ∈ B.due ↔ t ∈ A.due
  phase : B.phase = A.phase
  next : A.next ≤ B.next

theorem same_refl (t : Nat) (A : Schedule) : Same t A A :=
  ⟨rfl, Iff.rfl, Iff.rfl, rfl, Nat.le_refl _⟩

theorem Same.trans {t : Nat} {A B C : Schedule} (h : Same t A B) (h' : Same t B C) : Same t A C :=
  ⟨h'.block.trans h.block, h'.waiting.trans h.waiting, h'.due.trans h.due, h'.phase.trans h.phase,
    h.next.trans h'.next⟩

section
variable {A : Schedule} {t a : Nat}

theorem edit_same (h : t ≠ a) (f : gw_timer_t → gw_timer_t) : Same t A (A.edit a f) :=
  ⟨edit_other h f, Iff.rfl, Iff.rfl, rfl, Nat.le_refl _⟩

theorem free_same : Same t A (A.free a) := ⟨rfl, Iff.rfl, Iff.rfl, rfl, Nat.le_refl _⟩

theorem place_same (h : t ≠ a) : Same t A (A.place a) :=
  ⟨rfl, mem_place.trans (or_iff_right h), Iff.rfl, rfl, Nat.le_refl _⟩

theorem start_same (h : t ≠ a) : Same t A (A.start a) := by
  unfold Schedule.start
  split
  · exact edit_same h _
  · exact ((edit_same h _).trans (edit_same h _)).trans (place_same h)

theorem stop_same (h : t ≠ a) : Same t A (A.stop a) :=
  ⟨edit_other h _, List.mem_erase_of_ne h, Iff.rfl, rfl, Nat.le_refl _⟩

theorem destroy_same (h : t ≠ a) : Same t A (A.destroy a) := by
  unfold Schedule.destroy
  split
  · exact edit_same h _
  · exact (edit_same h _).trans free_same

theorem retiming_same (h : t ≠ a) (timeout : UInt32) : Same t A (A.retiming a timeout) := by
  unfold Schedule.retiming
  split
  · exact edit_same h _
  · exact same_refl t A

theorem peek_same (b e : UInt64) : Same t A (A.peek b e) := by
  unfold Schedule.peek
  split <;> exact ⟨rfl, Iff.rfl, Iff.rfl, rfl, Nat.le_refl _⟩

theorem leave_callback_same (h : t ≠ a) : Same t A (A.leave_callback a) := by
  unfold Schedule.leave_callback
  split
  · exact destroy_same h
  · exact start_same h

/-- A new timer is none of those that are there. -/
theorem add_same (h : t < A.next) (timer_type : TIMER_TYPE) (mal : Bool) (timeout : UInt32)
    (callback : Option Nat) (data : Nat) :
    Same t A (A.add timer_type mal timeout callback data) := by
  unfold Schedule.add
  cases callback with
  | none => exact same_refl t A
  | some callback =>
    dsimp only
    split
    · exact same_refl t A
    · have hne : t ≠ A.next := Nat.ne_of_lt h
      have hnew : Same t A (A.create (newTimer timer_type timeout callback data)) :=
        ⟨create_other hne, Iff.rfl, Iff.rfl, rfl, Nat.le_succ _⟩
      exact hnew.trans (start_same hne)

/-- A call is about its own timer only. -/
theorem call_same (h : t < A.next) {c : Call} (hc : t ∉ c.handle) : Same t A (A.call c) := by
  have hne : ∀ a, c.handle = some a → t ≠ a := by
    rintro a ha rfl
    exact hc ha
  cases c with
  | gw_timer_add mal timeout callback data => exact add_same h _ mal timeout callback data
  | gw_circle_timer_add mal timeout callback data => exact add_same h _ mal timeout callback data
  | gw_timer_del a => exact (stop_same (hne a rfl)).trans (destroy_same (hne a rfl))
  | gw_timer_stop a => exact stop_same (hne a rfl)
  | gw_timer_start a => exact start_same (hne a rfl)
  | gw_timer_restart a => exact (stop_same (hne a rfl)).trans (start_same (hne a rfl))
  | gw_timer_retiming a timeout => exact retiming_same (hne a rfl) timeout

theorem call_phase (c : Call) : (A.call c).phase = A.phase := by
  have hstart : ∀ (A : Schedule) a, (A.start a).phase = A.phase := by
    intro A a
    unfold Schedule.start
    split <;> rfl
  have hdestroy : ∀ (A : Schedule) a, (A.destroy a).phase = A.phase := by
    intro A a
    unfold Schedule.destroy
    split <;> rfl
  have hadd : ∀ timer_type mal timeout callback data,
      (A.add timer_type mal timeout callback data).phase = A.phase := by
    intro timer_type mal timeout callback data
    unfold Schedule.add
    cases callback with
    | none => rfl
    | some callback =>
      dsimp only
      split
      · rfl
      · exact hstart _ _
  cases c with
  | gw_timer_add mal timeout callback data => exact hadd _ mal timeout callback data
  | gw_circle_timer_add mal timeout callback data => exact hadd _ mal timeout callback data
  | gw_timer_del a => exact hdestroy _ a
  | gw_timer_stop a => rfl
  | gw_timer_start a => exact hstart A a
  | gw_timer_restart a => exact hstart _ a
  | gw_timer_retiming a timeout =>
    rw [Schedule.call, Schedule.retiming]
    split <;> rfl

end

end gwdonu.timer
