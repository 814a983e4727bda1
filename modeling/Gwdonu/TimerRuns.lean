-- Runs of the timer module: the schedule is read off the two lists by their
-- pointers, and it goes its own way as long as the lists are kept apart.
import Gwdonu.TimerRefinement
import Gwdonu.TimerFrame

namespace gwdonu.timer

open util_list runs

/-- What the two lists hold, node after node. -/
def Timers.schedule (s : Timers) : Schedule where
  toBlocks := s.toBlocks
  waiting := gw_lst_nodes s.nodes s.next (gw_lst_first s.timer_list)
  due := gw_lst_nodes s.nodes s.next (gw_lst_first s.expire_timer_list)

/-- The timer whose callback the event starts. -/
def Timers.fires (s : Timers) (e : Event) : Option Nat :=
  match s.phase.running with
  | some _ => none
  | none => (s.event e).phase.running

theorem Refines.schedule_eq {s : Timers} {A : Schedule} (h : Refines s A) (hw : A.Wf) :
    s.schedule = A := by
  obtain ⟨hlive, hfew⟩ := hw.listed
  have hwaiting : s.schedule.waiting = A.waiting := by
    change gw_lst_nodes s.nodes s.next s.timer_list.gw_head = _
    rw [head_eq h.waiting, h.next]
    exact nodes_eq (l := []) h.waiting hfew
  have hdue : s.schedule.due = A.due := by
    change gw_lst_nodes s.nodes s.next s.expire_timer_list.gw_head = _
    rw [head_eq h.due, h.next]
    exact nodes_eq (l := []) h.due (hw.few hw.due (fun a ha => hw.held a (Or.inr ha)))
  have hblocks : s.schedule.toBlocks = A.toBlocks := h.blocks
  obtain ⟨blocks, waiting, due⟩ := A
  subst hblocks hwaiting hdue
  rfl

/-- The two lists are lists, of live timers, and have none in common. -/
structure Timers.Sound (s : Timers) : Prop where
  refines : Refines s s.schedule
  wf : s.schedule.Wf

theorem sound_of {s : Timers} {A : Schedule} (h : Refines s A) (hw : A.Wf) :
    s.Sound ∧ s.schedule = A := by
  have hA := h.schedule_eq hw
  exact ⟨⟨hA ▸ h, hA ▸ hw⟩, hA⟩

theorem sound_init : Timers.init.Sound ∧ Timers.init.schedule = Schedule.init :=
  sound_of refines_init wf_init

/-- The event keeps the two lists apart. -/
def Timers.Apart (s : Timers) (e : Event) : Prop := s.schedule.Apart e

instance (s : Timers) (e : Event) : Decidable (s.Apart e) :=
  inferInstanceAs (Decidable (s.schedule.Apart e))

theorem sound_event {s : Timers} (h : s.Sound) {e : Event} (ha : s.Apart e) :
    (s.event e).Sound ∧ (s.event e).schedule = s.schedule.event e :=
  sound_of (event_refines h.refines h.wf ha).1 (wf_event h.wf ha)

/-- A run that keeps the lists apart is a run of the schedule. -/
theorem sound_run {s : Timers} (h : s.Sound) {es : List Event}
    (ha : Along Timers.event Timers.Apart s es) :
    (run Timers.event s es).Sound ∧
      (run Timers.event s es).schedule = run Schedule.event s.schedule es := by
  induction es generalizing s with
  | nil => exact ⟨h, rfl⟩
  | cons e es ih =>
    obtain ⟨hsound, hstep⟩ := sound_event h ha.1
    rw [run_cons, run_cons, ← hstep]
    exact ih hsound ha.2

/-- The free blocks that a run reaches are the ones that its events read late. -/
theorem dangling_run {s : Timers} (h : s.Sound) {es : List Event}
    (ha : Along Timers.event Timers.Apart s es) :
    (run Timers.event s es).dangling = [] ↔
      s.dangling = [] ∧ Along Timers.event (fun s e => s.schedule.late e = []) s es := by
  induction es generalizing s with
  | nil => simp
  | cons e es ih =>
    have hd := (event_refines h.refines h.wf ha.1).2
    rw [run_cons, ih (sound_event h ha.1).1 ha.2, hd, List.append_eq_nil_iff, along_cons, and_assoc]

theorem fires_eq {s : Timers} {e : Event} {t : Nat} :
    s.fires e = some t ↔ s.phase.running = none ∧ (s.event e).phase.running = some t := by
  unfold Timers.fires
  cases s.phase.running <;> simp

end gwdonu.timer
