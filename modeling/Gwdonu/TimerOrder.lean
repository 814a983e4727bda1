-- The order of the timers that wait: every step keeps the ones that are due sooner in front,
-- but for a timer that is given new ticks where it stands.
import Gwdonu.Lib.Deadlines
import Gwdonu.TimerClock

namespace gwdonu.timer

open deadlines runs

/-! ## The law -/

/-- The ticks that timer `t` has left. -/
def Blocks.left (b : Blocks) (t : Nat) : Int := (b.timers t).remain_interval.toInt

/-- The timers wait in the order of their ticks, and none of them has less than no ticks left. -/
def Timers.InOrder (s : Timers) : Prop :=
  deadlines.InOrder s.left s.schedule.waiting ∧ ∀ t ∈ s.schedule.waiting, 0 ≤ s.left t

/-- The timers that are called back before the pass is over. -/
def calledBack : Timers → List Event → List Nat
  | _, [] => []
  | s, e :: es =>
    if s.phase = .outside then [] else (s.fires e).toList ++ calledBack (s.event e) es

/-- The list is in order in every state, and a pass calls back those first that are due first. -/
structure OrderKept (es : List Event) : Prop where
  sorted : ∀ pre post, es = pre ++ post → (run Timers.event Timers.init pre).InOrder
  passes : ∀ pre b post, es = pre ++ .begin_pass b :: post →
    (run Timers.event Timers.init pre).phase = .outside →
    deadlines.InOrder (run Timers.event Timers.init pre).left
      (calledBack (run Timers.event Timers.init (pre ++ [.begin_pass b])) post)

/-- A timer that is given new ticks while it waits has them where it stands: none in front of it
has more left, and none behind it has less. -/
def Timers.Retimed (s : Timers) : Event → Prop
  | .call (.gw_timer_retiming t timeout) =>
    t ∈ s.schedule.waiting → Fits s.left s.schedule.waiting t (gw_milli_to_ticks timeout).toInt
  | _ => True

instance decidableRetimed (s : Timers) : ∀ e, Decidable (s.Retimed e)
  | .call (.gw_timer_retiming t _) =>
    inferInstanceAs (Decidable (t ∈ s.schedule.waiting → Fits s.left s.schedule.waiting t _))
  | .call (.gw_timer_add ..) | .call (.gw_circle_timer_add ..) | .call (.gw_timer_stop _)
  | .call (.gw_timer_start _) | .call (.gw_timer_restart _) | .call (.gw_timer_del _)
  | .begin_pass _ | .next_expired .. | .callback_returns _ => .isTrue trivial

/-! ## One step -/

/-- The timers of a schedule wait in order. -/
def Schedule.InOrder (A : Schedule) : Prop := deadlines.InOrder A.left A.waiting

section
variable {A : Schedule} {t : Nat}

/-- A change of one timer that is not one of its ticks. -/
theorem edit_inOrder (h : A.InOrder) {f : gw_timer_t → gw_timer_t}
    (hf : ∀ p, (f p).remain_interval = p.remain_interval) : (A.edit t f).InOrder := by
  refine h.congr fun a _ => ?_
  change ((A.edit t f).timers a).remain_interval.toInt = _
  by_cases hat : a = t
  · subst hat
    rw [edit_self, hf]
    rfl
  · rw [edit_other hat]
    rfl

theorem flag_inOrder (h : A.InOrder) (f : StopFlag) : (A.edit t (gw_timer_t.flag f)).InOrder :=
  edit_inOrder h fun _ => rfl

/-- A timer that does not wait may have any ticks. -/
theorem edit_idle_inOrder (h : A.InOrder) (ht : t ∉ A.waiting) (f : gw_timer_t → gw_timer_t) :
    (A.edit t f).InOrder := by
  refine h.congr fun a ha => ?_
  have hat : a ≠ t := fun heq => ht (heq ▸ ha)
  change ((A.edit t f).timers a).remain_interval.toInt = _
  rw [edit_other hat]
  rfl

theorem place_waiting : (A.place t).waiting = place A.left t A.waiting := by
  have hupTo : A.upTo t = fun a => decide (A.left a ≤ A.left t) := by
    funext a
    exact decide_eq_decide.mpr Int32.le_iff_toInt_le
  unfold Schedule.place place
  rw [hupTo]

theorem place_schedule_inOrder (h : A.InOrder) (t : Nat) : (A.place t).InOrder := by
  unfold Schedule.InOrder
  rw [place_waiting]
  exact place_inOrder h t

theorem start_inOrder (h : A.InOrder) (t : Nat) : (A.start t).InOrder := by
  have hflag := flag_inOrder (t := t) h .GW_TIMER_NO_STOPPED
  unfold Schedule.start
  split
  · exact hflag
  · rename_i hw
    exact place_schedule_inOrder (edit_idle_inOrder hflag hw _) t

theorem stop_inOrder (h : A.InOrder) (t : Nat) : (A.stop t).InOrder := by
  have hflag := flag_inOrder (t := t) h .GW_TIMER_STOPPED
  exact hflag.sublist List.erase_sublist

theorem destroy_inOrder (h : A.InOrder) (t : Nat) : (A.destroy t).InOrder := by
  unfold Schedule.destroy
  split
  · exact flag_inOrder h _
  · exact flag_inOrder h _

theorem add_inOrder (h : A.InOrder) (hw : A.Wf) (timer_type : TIMER_TYPE) (mal : Bool) (timeout : UInt32)
    (callback : Option Nat) (data : Nat) : (A.add timer_type mal timeout callback data).InOrder := by
  unfold Schedule.add
  cases callback with
  | none => exact h
  | some callback =>
    dsimp only
    split
    · exact h
    · have hnew : (A.create (newTimer timer_type timeout callback data)).InOrder := by
        refine h.congr fun a ha => ?_
        have hold : a ≠ A.next := live_ne hw (hw.held a (Or.inl ha))
        unfold Blocks.left
        rw [create_other hold]
      exact start_inOrder hnew A.next

/-- A retiming keeps the order just when the timer may stay where it is. -/
theorem retiming_inOrder_iff (h : A.InOrder) (hw : A.Wf) (t : Nat) (timeout : UInt32) :
    (A.retiming t timeout).InOrder ↔
      (t ∈ A.waiting → Fits A.left A.waiting t (gw_milli_to_ticks timeout).toInt) := by
  unfold Schedule.retiming
  by_cases ht : t ∈ A.waiting
  · rw [if_pos ht, forall_prop_of_true ht]
    have hother : ∀ a, a ≠ t →
        (A.edit t (gw_timer_t.retime (gw_milli_to_ticks timeout))).left a = A.left a := by
      intro a ha
      unfold Blocks.left
      rw [edit_other ha]
    have hticks : (A.edit t (gw_timer_t.retime (gw_milli_to_ticks timeout))).left t =
        (gw_milli_to_ticks timeout).toInt := by
      unfold Blocks.left
      rw [edit_self]
      rfl
    rw [← hticks]
    exact inOrder_iff_fits h hw.waiting ht hother
  · rw [if_neg ht]
    exact iff_of_true h fun hmem => absurd hmem ht

theorem left_nonneg (hw : A.Wf) : ∀ a ∈ A.waiting, 0 ≤ A.left a := by
  intro a ha
  have hticks := (hw.ticks a (hw.held a (Or.inl ha))).2
  exact Int32.le_iff_toInt_le.mp hticks

/-- A pass takes as much from every timer, down to nothing. -/
theorem count_down_mono (delta : UInt32) {r r' : Int32} (hr : 0 ≤ r) (hle : r ≤ r') :
    count_down delta r ≤ count_down delta r' := by
  have hr' : 0 ≤ r' := Int32.le_trans hr hle
  obtain ⟨hnonneg, hticks⟩ := count_down_ticks delta hr
  obtain ⟨hnonneg', hticks'⟩ := count_down_ticks delta hr'
  have hcast {x : Int32} (hx : 0 ≤ x) : x.toInt = x.toUInt32.toNat := by
    rw [Int32.toNat_toUInt32_of_le hx, Int32.cast_toNatClampNeg x hx]
  rw [Int32.le_iff_toInt_le, hcast hnonneg, hcast hnonneg', hticks, hticks']
  rw [Int32.le_iff_toInt_le, hcast hr, hcast hr'] at hle
  omega

theorem begin_pass_inOrder (h : A.InOrder) (hw : A.Wf) (b : UInt64) : (A.begin_pass b).InOrder := by
  have hcounted : deadlines.InOrder (A.begin_pass b).left A.waiting := by
    refine h.mono fun a ha c hc hac => ?_
    have hremain := (hw.ticks a (hw.held a (Or.inl ha))).2
    have hmono := count_down_mono A.delta hremain (Int32.le_iff_toInt_le.mpr hac)
    change (if a ∈ A.waiting then _ else _ : gw_timer_t).remain_interval.toInt ≤
      (if c ∈ A.waiting then _ else _ : gw_timer_t).remain_interval.toInt
    rw [if_pos ha, if_pos hc]
    exact Int32.le_iff_toInt_le.mp hmono
  exact hcounted.sublist List.filter_sublist

theorem peek_inOrder (h : A.InOrder) (b e : UInt64) : (A.peek b e).InOrder := by
  unfold Schedule.peek
  split
  · exact h
  · exact h

theorem next_expired_inOrder (h : A.InOrder) (b now later : UInt64) :
    (A.next_expired b now later).InOrder := by
  unfold Schedule.next_expired
  cases A.due with
  | nil => exact h
  | cons a due =>
    dsimp only
    split
    · exact peek_inOrder (A := { A with due }) h now later
    · exact flag_inOrder (A := { A with due }) h .GW_TIMER_NO_STOPPED

theorem leave_callback_inOrder (h : A.InOrder) (a : Nat) : (A.leave_callback a).InOrder := by
  unfold Schedule.leave_callback
  split
  · exact destroy_inOrder h a
  · exact start_inOrder h a

/-- A call that retimes nothing keeps the order. -/
theorem call_inOrder (h : A.InOrder) (hw : A.Wf) {c : Call} (hc : ∀ t timeout, c ≠ .gw_timer_retiming t timeout) :
    (A.call c).InOrder := by
  cases c with
  | gw_timer_add mal timeout callback data => exact add_inOrder h hw _ mal timeout callback data
  | gw_circle_timer_add mal timeout callback data => exact add_inOrder h hw _ mal timeout callback data
  | gw_timer_del a => exact destroy_inOrder (stop_inOrder h a) a
  | gw_timer_stop a => exact stop_inOrder h a
  | gw_timer_start a => exact start_inOrder h a
  | gw_timer_restart a => exact start_inOrder (stop_inOrder h a) a
  | gw_timer_retiming a timeout => exact absurd rfl (hc a timeout)

theorem event_inOrder (h : A.InOrder) (hw : A.Wf) {e : Event}
    (he : ∀ t timeout, e ≠ .call (.gw_timer_retiming t timeout)) : (A.event e).InOrder := by
  have hm := moves A e
  generalize A.event e = A' at hm
  cases hm with
  | idle => exact h
  | begin_pass b => exact begin_pass_inOrder h hw b
  | next_expired b now later => exact next_expired_inOrder h b now later
  | callback_returns b c a now =>
    exact peek_inOrder (leave_callback_inOrder (A := A.phased (.expiring b)) h a) c now
  | call c => exact call_inOrder h hw fun t timeout heq => he t timeout (congrArg Event.call heq)

/-- An event keeps the order if it is no retiming, or one that fits. -/
theorem event_inOrder_iff {s : Timers} (hs : s.Sound) (h : s.schedule.InOrder) (e : Event) :
    (s.schedule.event e).InOrder ↔ s.Retimed e := by
  by_cases he : ∃ t timeout, e = .call (.gw_timer_retiming t timeout)
  · obtain ⟨t, timeout, rfl⟩ := he
    by_cases hlive : s.schedule.live t = true
    · have hcalled : s.schedule.event (.call (.gw_timer_retiming t timeout)) = s.schedule.retiming t timeout :=
        if_pos fun a ha => Option.some.inj ha ▸ hlive
      rw [hcalled]
      exact retiming_inOrder_iff h hs.wf t timeout
    · have hidle : s.schedule.event (.call (.gw_timer_retiming t timeout)) = s.schedule :=
        if_neg fun hall => hlive (hall t rfl)
      rw [hidle]
      exact iff_of_true h fun ht => absurd (hs.wf.held t (Or.inl ht)) hlive
  · have hother : ∀ t timeout, e ≠ .call (.gw_timer_retiming t timeout) :=
      fun t timeout heq => he ⟨t, timeout, heq⟩
    refine iff_of_true (event_inOrder h hs.wf hother) ?_
    unfold Timers.Retimed
    split
    · rename_i t timeout
      exact absurd rfl (hother t timeout)
    · trivial

/-! ## The callbacks of a pass -/

theorem call_due (hw : A.Wf) (c : Call) : (A.call c).due = A.due := by
  by_cases hc : ∃ t timeout, c = .gw_timer_retiming t timeout
  · obtain ⟨t, timeout, rfl⟩ := hc
    rw [Schedule.call, Schedule.retiming]
    split <;> rfl
  · exact (call_steady (t := 0) hw.next fun timeout heq => hc ⟨0, timeout, heq⟩).due

/-- The timer whose callback the event starts. -/
def Schedule.fires (A : Schedule) (e : Event) : Option Nat :=
  match A.phase.running with
  | some _ => none
  | none => (A.event e).phase.running

/-- In a pass, only the first of those that are due is called back, and none joins them. -/
theorem fires_sublist (hw : A.Wf) (hp : A.phase ≠ .outside) (e : Event) :
    ((A.fires e).toList ++ (A.event e).due).Sublist A.due := by
  have hm := moves A e
  unfold Schedule.fires
  generalize A.event e = A' at hm
  cases hm with
  | idle =>
    cases hrun : A.phase.running with
    | some => exact List.Sublist.refl _
    | none => exact List.Sublist.refl _
  | begin_pass b hout => exact absurd hout hp
  | next_expired b now later hexp =>
    rw [hexp]
    change ((A.next_expired b now later).phase.running.toList ++ (A.next_expired b now later).due).Sublist A.due
    unfold Schedule.next_expired
    cases hdue : A.due with
    | nil => exact List.Sublist.refl _
    | cons a due =>
      dsimp only
      split
      · have hpeek := peek_steady (A := { A with due }) (t := a) now later
        rw [hpeek.phase, hpeek.due]
        change (A.phase.running.toList ++ due).Sublist (a :: due)
        rw [hexp]
        exact List.sublist_cons_self a due
      · exact List.Sublist.refl _
  | callback_returns b c a now hcall =>
    have hleft := (leave_callback_steady (A := A.phased (.expiring b)) (t := a) (a := a)).trans (peek_steady c now)
    rw [hcall, hleft.due]
    exact List.Sublist.refl _
  | call c =>
    rw [call_phase, call_due hw]
    cases hrun : A.phase.running with
    | some => exact List.Sublist.refl _
    | none => exact List.Sublist.refl _

end

/-! ## Over whole runs -/

theorem calledBack_sublist {s : Timers} (hs : s.Sound) {es : List Event}
    (ha : Along Timers.event Timers.Apart s es) : (calledBack s es).Sublist s.schedule.due := by
  induction es generalizing s with
  | nil => exact List.nil_sublist _
  | cons e es ih =>
    unfold calledBack
    split
    · exact List.nil_sublist _
    · rename_i hp
      obtain ⟨hsound, hstep⟩ := sound_event hs ha.1
      have hfires : s.fires e = s.schedule.fires e := by
        unfold Timers.fires Schedule.fires
        rw [← hstep]
        rfl
      have hfirst := fires_sublist hs.wf hp e
      rw [hfires]
      rw [← hstep] at hfirst
      exact ((List.Sublist.refl _).append (ih hsound ha.2)).trans hfirst

theorem inOrder_iff {s : Timers} (hs : s.Sound) : s.InOrder ↔ s.schedule.InOrder :=
  and_iff_left (left_nonneg hs.wf)

/-- The list stays in order just as long as each retiming fits. -/
theorem sorted_iff {s : Timers} (hs : s.Sound) (h : s.InOrder) {es : List Event}
    (ha : Along Timers.event Timers.Apart s es) :
    (∀ pre post, es = pre ++ post → (run Timers.event s pre).InOrder) ↔ Along Timers.event Timers.Retimed s es := by
  induction es generalizing s with
  | nil =>
    refine iff_of_true ?_ trivial
    intro pre post heq
    rw [(List.append_eq_nil_iff.mp heq.symm).1]
    exact h
  | cons e es ih =>
    obtain ⟨hsound, hstep⟩ := sound_event hs ha.1
    have hnext : (s.event e).InOrder ↔ s.Retimed e := by
      rw [inOrder_iff hsound, hstep]
      exact event_inOrder_iff hs ((inOrder_iff hs).mp h) e
    constructor
    · intro hall
      have hin : (s.event e).InOrder := hall [e] es rfl
      refine ⟨hnext.mp hin, (ih hsound hin ha.2).mp fun pre post heq => ?_⟩
      exact hall (e :: pre) post (congrArg (e :: ·) heq)
    · rintro ⟨hfits, hrest⟩ pre post heq
      cases pre with
      | nil => exact h
      | cons f pre =>
        obtain ⟨rfl, hes⟩ := List.cons.inj heq
        exact (ih hsound (hnext.mpr hfits) ha.2).mpr hrest pre post hes

/-- The timers that a pass calls back come in the order of the ticks that they had before it. -/
theorem pass_inOrder {s : Timers} (hs : s.Sound) (h : s.InOrder) (hp : s.phase = .outside) {b : UInt64}
    {es : List Event} (ha : Along Timers.event Timers.Apart (s.event (.begin_pass b)) es) :
    deadlines.InOrder s.left (calledBack (s.event (.begin_pass b)) es) := by
  obtain ⟨hsound, hstep⟩ := pass_event hs hp b
  have hcalled := calledBack_sublist hsound ha
  rw [hstep] at hcalled
  exact h.1.sublist (hcalled.trans List.filter_sublist)

/-- As long as the two lists are kept apart, the timers wait and are called back in the order of
their ticks just when each timer that is given new ones has them where it stands. -/
theorem timers_are_in_order_iff_retimings_fit (es : List Event)
    (hes : Along Timers.event Timers.Apart Timers.init es) :
    OrderKept es ↔ Along Timers.event Timers.Retimed Timers.init es := by
  have hinit : Timers.init.InOrder := by
    rw [inOrder_iff sound_init.1, sound_init.2]
    exact List.Pairwise.nil
  rw [← sorted_iff sound_init.1 hinit hes]
  refine ⟨OrderKept.sorted, fun hsorted => ⟨hsorted, ?_⟩⟩
  rintro pre b post rfl hp
  obtain ⟨hpre, hrest⟩ := (along_append _ _ _ _).mp hes
  have hsound := (sound_run sound_init.1 hpre).1
  have hin := hsorted pre _ rfl
  rw [run_append]
  exact pass_inOrder hsound hin hp hrest.2

/-- A timer of two ticks and one of six, which is given three. -/
def hastenedRun : List Event :=
  [.call (.gw_timer_add true 20 (some 7) 1), .call (.gw_circle_timer_add true 60 (some 7) 2),
    .call (.gw_timer_retiming 2 30), .begin_pass 0, .next_expired 3 3, .begin_pass 3, .next_expired 3 3,
    .callback_returns 3, .next_expired 3 3, .callback_returns 4, .next_expired 4 4]

theorem a_hastened_timer_stays_in_order : OrderKept hastenedRun :=
  (timers_are_in_order_iff_retimings_fit hastenedRun (by decide +kernel)).mpr (by decide +kernel)

/-- A timer of two ticks is given ten, in front of one of four. -/
def delayedRun : List Event :=
  [.call (.gw_timer_add true 20 (some 7) 1), .call (.gw_timer_add true 40 (some 7) 2),
    .call (.gw_timer_retiming 1 100)]

theorem a_delayed_timer_stays_in_front : ¬ OrderKept delayedRun := by
  intro h
  have hsorted := (h.sorted delayedRun [] (List.append_nil _).symm).1
  revert hsorted
  decide +kernel

end gwdonu.timer
