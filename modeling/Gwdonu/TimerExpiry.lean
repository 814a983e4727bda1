-- The expiry law: a timer of n ticks is due in the first pass by which the
-- passes since its start have taken n ticks, and it goes to the other list once.
import Gwdonu.TimerRuns

namespace gwdonu.timer

open runs

/-! ## The law -/

/-- The ticks that the event takes from each timer that waits. -/
def Blocks.takes (b : Blocks) : Event → Nat
  | .begin_pass _ => if b.phase = .outside then b.delta.toNat + 1 else 0
  | _ => 0

/-- The ticks that a run takes. -/
def elapsed : Timers → List Event → Nat
  | _, [] => 0
  | s, e :: es => s.takes e + elapsed (s.event e) es

/-- The event puts timer `t` on `timer_list`, with its whole interval to go. -/
def Begins (s : Timers) (t : Nat) (e : Event) : Prop :=
  t ∈ (s.event e).schedule.waiting ∧
    (t ∉ s.schedule.waiting ∨ e = .call (.gw_timer_restart t))

/-- Timer `t` is stopped, deleted, restarted or retimed. -/
def Alters (t : Nat) (e : Event) : Prop :=
  e = .call (.gw_timer_stop t) ∨ e = .call (.gw_timer_del t) ∨
    e = .call (.gw_timer_restart t) ∨ ∃ timeout, e = .call (.gw_timer_retiming t timeout)

/-- The ticks of timer `t`. -/
def Timers.interval (s : Timers) (t : Nat) : Nat := (s.timers t).interval.toNatClampNeg

/-- Timer `t` was started by `e` and left alone since, and the run has not taken
all its ticks. -/
structure Running (s : Timers) (e : Event) (mid : List Event) (t : Nat) : Prop where
  begins : Begins s t e
  alone : ∀ x ∈ mid, ¬ Alters t x
  early : elapsed (s.event e) mid < (s.event e).interval t

/-- Each timer is due in the first pass in which its ticks are over, once, and
waits until then; no pass loses a timer or lists one twice. -/
structure ExactExpiry (es : List Event) : Prop where
  waits : ∀ pre e mid post t, es = pre ++ e :: (mid ++ post) →
    Running (run Timers.event Timers.init pre) e mid t →
    (run Timers.event Timers.init (pre ++ e :: mid)).schedule.waiting.count t = 1 ∧
      t ∉ (run Timers.event Timers.init (pre ++ e :: mid)).schedule.due
  expires : ∀ pre e mid b post t, es = pre ++ e :: (mid ++ .begin_pass b :: post) →
    Running (run Timers.event Timers.init pre) e mid t →
    (run Timers.event Timers.init (pre ++ [e])).interval t ≤
      elapsed (run Timers.event Timers.init (pre ++ [e])) (mid ++ [.begin_pass b]) →
    t ∉ (run Timers.event Timers.init (pre ++ e :: (mid ++ [.begin_pass b]))).schedule.waiting ∧
      (run Timers.event Timers.init
        (pre ++ e :: (mid ++ [.begin_pass b]))).schedule.due.count t = 1
  passes : ∀ pre b post, es = pre ++ .begin_pass b :: post →
    (run Timers.event Timers.init pre).phase = .outside →
    (run Timers.event Timers.init pre).schedule.waiting.Nodup ∧
      ((run Timers.event Timers.init (pre ++ [.begin_pass b])).schedule.waiting ++
        (run Timers.event Timers.init (pre ++ [.begin_pass b])).schedule.due).Perm
          (run Timers.event Timers.init pre).schedule.waiting

/-! ## One step -/

/-- Timer `t` waits, with `r` ticks to go. -/
structure Schedule.Pending (A : Schedule) (t r : Nat) : Prop where
  waits : t ∈ A.waiting
  ticks : (A.timers t).remain_interval.toUInt32.toNat = r

section
variable {A : Schedule} {t r : Nat}

theorem pending_same {B : Schedule} (h : A.Pending t r) (hs : Same t A B) : B.Pending t r :=
  ⟨hs.waiting.mpr h.waits, hs.block ▸ h.ticks⟩

/-- A flag is no tick. -/
theorem pending_flag (h : A.Pending t r) (f : StopFlag) : (A.edit t (gw_timer_t.flag f)).Pending t r :=
  ⟨h.waits, by rw [edit_self]; exact h.ticks⟩

/-- A pass that does not take all the ticks of the timer leaves it where it is. -/
theorem begin_pass_pending (h : A.Pending t r) (hw : A.Wf) (b : UInt64)
    (hlt : A.delta.toNat + 1 < r) : (A.begin_pass b).Pending t (r - (A.delta.toNat + 1)) := by
  have hremain := (hw.ticks t (hw.held t (Or.inl h.waits))).2
  have hstays : stays A.delta (A.timers t) = true := by
    rw [stays_iff A.delta hremain, h.ticks]
    exact hlt
  refine ⟨List.mem_filter.mpr ⟨h.waits, hstays⟩, ?_⟩
  change (if t ∈ A.waiting then _ else _ : gw_timer_t).remain_interval.toUInt32.toNat = _
  rw [if_pos h.waits, ← h.ticks]
  exact (count_down_ticks A.delta hremain).2

/-- A pass that takes them all moves it to the other list. -/
theorem begin_pass_expires (h : A.Pending t r) (hw : A.Wf) (b : UInt64)
    (hle : r ≤ A.delta.toNat + 1) :
    t ∉ (A.begin_pass b).waiting ∧ t ∈ (A.begin_pass b).due := by
  have hremain := (hw.ticks t (hw.held t (Or.inl h.waits))).2
  have hgoes : ¬ stays A.delta (A.timers t) = true := by
    rw [stays_iff A.delta hremain, h.ticks]
    exact Nat.not_lt.mpr hle
  exact ⟨fun hm => hgoes (List.mem_filter.mp hm).2,
    List.mem_filter.mpr ⟨h.waits, by simpa using hgoes⟩⟩

theorem next_expired_pending (h : A.Pending t r) (hw : A.Wf) (b now later : UInt64) :
    (A.next_expired b now later).Pending t r := by
  unfold Schedule.next_expired
  cases hdue : A.due with
  | nil => exact ⟨h.waits, h.ticks⟩
  | cons a due =>
    have hne : t ≠ a := by
      rintro rfl
      exact hw.apart t h.waits (by rw [hdue]; exact List.mem_cons_self)
    have htaken : ({ A with due } : Schedule).Pending t r := ⟨h.waits, h.ticks⟩
    dsimp only
    split
    · exact pending_same htaken (peek_same now later)
    · have hcalled := pending_same htaken (edit_same hne (gw_timer_t.flag .GW_TIMER_NO_STOPPED))
      exact ⟨hcalled.waits, hcalled.ticks⟩

/-- A timer that waits again when its callback returns is not started twice. -/
theorem leave_callback_pending (h : A.Pending t r) (a : Nat) :
    (A.leave_callback a).Pending t r := by
  by_cases hat : t = a
  · subst hat
    unfold Schedule.leave_callback
    split
    · rw [Schedule.destroy, if_pos h.waits]
      exact pending_flag h _
    · rw [Schedule.start, if_pos h.waits]
      exact pending_flag h _
  · exact pending_same h (leave_callback_same hat)

theorem call_pending (h : A.Pending t r) (hw : A.Wf) {c : Call} (hc : ¬ Alters t (.call c)) :
    (A.call c).Pending t r := by
  by_cases ht : t ∈ c.handle
  · cases c with
    | gw_timer_add => cases ht
    | gw_circle_timer_add => cases ht
    | gw_timer_start a =>
      obtain rfl := Option.some.inj ht
      rw [Schedule.call, Schedule.start, if_pos h.waits]
      exact pending_flag h _
    | gw_timer_del a =>
      obtain rfl := Option.some.inj ht
      exact absurd (Or.inr (Or.inl rfl)) hc
    | gw_timer_stop a =>
      obtain rfl := Option.some.inj ht
      exact absurd (Or.inl rfl) hc
    | gw_timer_restart a =>
      obtain rfl := Option.some.inj ht
      exact absurd (Or.inr (Or.inr (Or.inl rfl))) hc
    | gw_timer_retiming a timeout =>
      obtain rfl := Option.some.inj ht
      exact absurd (Or.inr (Or.inr (Or.inr ⟨timeout, rfl⟩))) hc
  · have hold : t < A.next := (hw.fresh t (hw.held t (Or.inl h.waits))).2
    exact pending_same h (call_same hold ht)

/-- One event takes its ticks from a timer that is left alone. -/
theorem event_pending (h : A.Pending t r) (hw : A.Wf) {e : Event} (he : ¬ Alters t e)
    (hlt : A.takes e < r) : (A.event e).Pending t (r - A.takes e) := by
  have hm := moves A e
  generalize A.event e = A' at hm
  cases hm with
  | idle _ hpass =>
    have hnone : A.takes e = 0 := by
      cases e with
      | begin_pass b => exact if_neg (hpass b rfl)
      | _ => rfl
    rw [hnone]
    exact h
  | begin_pass b hp =>
    have htakes : A.takes (.begin_pass b) = A.delta.toNat + 1 := if_pos hp
    rw [htakes] at hlt ⊢
    exact begin_pass_pending h hw b hlt
  | next_expired b now later hp => exact next_expired_pending h hw b now later
  | callback_returns b c a now hp =>
    have hphased : (A.phased (.expiring b)).Pending t r := ⟨h.waits, h.ticks⟩
    exact pending_same (leave_callback_pending hphased a) (peek_same c now)
  | call c => exact call_pending h hw he

/-- None of the interval is over. -/
def gw_timer_t.Full (p : gw_timer_t) : Prop := p.remain_interval = p.interval

theorem start_full (h : t ∉ A.waiting) : ((A.start t).timers t).Full := by
  rw [Schedule.start, if_neg h]
  change (((A.edit t (gw_timer_t.flag .GW_TIMER_NO_STOPPED)).edit t gw_timer_t.reset).timers t).Full
  rw [edit_self]
  rfl

theorem mem_start {a : Nat} (h : t ∈ (A.start a).waiting) : t = a ∨ t ∈ A.waiting := by
  unfold Schedule.start at h
  split at h
  · exact Or.inr h
  · exact (mem_place (A := (A.edit a _).edit a _)).mp h

theorem destroy_waiting (a : Nat) : (A.destroy a).waiting = A.waiting := by
  unfold Schedule.destroy
  split <;> rfl

theorem next_expired_waiting (b now later : UInt64) :
    (A.next_expired b now later).waiting = A.waiting := by
  unfold Schedule.next_expired Schedule.peek
  cases A.due with
  | nil => rfl
  | cons a due =>
    dsimp only
    split_ifs <;> rfl

theorem add_full (hw : A.Wf) {timer_type : TIMER_TYPE} {mal : Bool} {timeout : UInt32}
    {callback : Option Nat} {data : Nat} (hnew : t ∉ A.waiting)
    (hin : t ∈ (A.add timer_type mal timeout callback data).waiting) :
    ((A.add timer_type mal timeout callback data).timers t).Full := by
  unfold Schedule.add at hin ⊢
  cases callback with
  | none => exact absurd hin hnew
  | some callback =>
    dsimp only at hin ⊢
    split at hin
    · exact absurd hin hnew
    · rename_i hok
      rw [if_neg hok]
      rcases mem_start hin with rfl | hin
      · exact start_full (next_unlisted hw).1
      · exact absurd hin hnew

theorem call_full (hw : A.Wf) {c : Call} (hnew : t ∉ A.waiting) (hin : t ∈ (A.call c).waiting) :
    ((A.call c).timers t).Full := by
  have hstop : ∀ a, t ∉ (A.stop a).waiting := fun a hm => hnew (List.mem_of_mem_erase hm)
  cases c with
  | gw_timer_add => exact add_full hw hnew hin
  | gw_circle_timer_add => exact add_full hw hnew hin
  | gw_timer_del a =>
    rw [Schedule.call, destroy_waiting] at hin
    exact absurd hin (hstop a)
  | gw_timer_stop a => exact absurd hin (hstop a)
  | gw_timer_start a =>
    rcases mem_start hin with rfl | hin
    · exact start_full hnew
    · exact absurd hin hnew
  | gw_timer_restart a =>
    rcases mem_start hin with rfl | hin
    · exact start_full (hstop t)
    · exact absurd hin (hstop a)
  | gw_timer_retiming a timeout =>
    have hsame : (A.retiming a timeout).waiting = A.waiting := by
      unfold Schedule.retiming
      split <;> rfl
    exact absurd (hsame ▸ hin) hnew

theorem restart_full (hw : A.Wf) (hin : t ∈ (A.event (.call (.gw_timer_restart t))).waiting) :
    ((A.event (.call (.gw_timer_restart t))).timers t).Full := by
  rw [Schedule.event] at hin ⊢
  split at hin
  · rename_i hlive
    rw [if_pos hlive]
    exact start_full (List.Nodup.not_mem_erase hw.waiting)
  · rename_i hdead
    refine absurd (fun h hh => ?_) hdead
    obtain rfl := Option.some.inj hh
    exact hw.held t (Or.inl hin)

/-- Whichever event puts a timer on the list, it starts with its whole interval. -/
theorem event_full (hw : A.Wf) {e : Event} (hin : t ∈ (A.event e).waiting)
    (hnew : t ∉ A.waiting ∨ e = .call (.gw_timer_restart t)) : ((A.event e).timers t).Full := by
  rcases hnew with hnew | rfl
  · have hm := moves A e
    generalize A.event e = A' at hm hin
    cases hm with
    | idle => exact absurd hin hnew
    | begin_pass b => exact absurd (List.mem_of_mem_filter hin) hnew
    | next_expired b now later =>
      rw [next_expired_waiting] at hin
      exact absurd hin hnew
    | callback_returns b c a now =>
      have hpeek := peek_same (A := (A.phased (.expiring b)).leave_callback a) (t := t) c now
      rw [hpeek.waiting] at hin
      rw [hpeek.block]
      rw [Schedule.leave_callback] at hin ⊢
      split at hin
      · rw [destroy_waiting] at hin
        exact absurd hin hnew
      · rename_i hcircle
        rw [if_neg hcircle]
        rcases mem_start hin with rfl | hin
        · exact start_full hnew
        · exact absurd hin hnew
    | call c => exact call_full hw hnew hin
  · exact restart_full hw hin

/-- The timer's ticks are those of its interval then. -/
theorem event_begins (hw : A.Wf) {e : Event} (ha : A.Apart e) (hin : t ∈ (A.event e).waiting)
    (hnew : t ∉ A.waiting ∨ e = .call (.gw_timer_restart t)) :
    (A.event e).Pending t ((A.event e).timers t).interval.toNatClampNeg := by
  have hw' := wf_event hw ha
  have hinterval := (hw'.ticks t (hw'.held t (Or.inl hin))).1
  refine ⟨hin, ?_⟩
  rw [event_full hw hin hnew]
  exact Int32.toNat_toUInt32_of_le (Int32.le_of_lt hinterval)

end

/-! ## Over whole runs -/

/-- A timer that is left alone has the ticks that the run has not taken. -/
theorem pending_run {s : Timers} (h : s.Sound) {t r : Nat} (hp : s.schedule.Pending t r)
    {es : List Event} (ha : Along Timers.event Timers.Apart s es) (hes : ∀ e ∈ es, ¬ Alters t e)
    (hlt : elapsed s es < r) :
    (run Timers.event s es).Sound ∧
      (run Timers.event s es).schedule.Pending t (r - elapsed s es) := by
  induction es generalizing s r with
  | nil => exact ⟨h, hp⟩
  | cons e es ih =>
    obtain ⟨hsound, hstep⟩ := sound_event h ha.1
    rw [elapsed] at hlt ⊢
    have htakes : s.schedule.takes e < r := Nat.lt_of_le_of_lt (Nat.le_add_right _ _) hlt
    have hpending := event_pending hp h.wf (hes e List.mem_cons_self) htakes
    rw [← hstep] at hpending
    have hrest : elapsed (s.event e) es < r - s.schedule.takes e := by
      change _ < r - s.takes e
      omega
    rw [run_cons, Nat.sub_add_eq]
    exact ih hsound hpending ha.2 (fun f hf => hes f (List.mem_cons_of_mem e hf)) hrest

/-- A running timer waits with the rest of its interval. -/
theorem running_pending {pre mid post : List Event} {e : Event} {t : Nat}
    (hes : Along Timers.event Timers.Apart Timers.init (pre ++ e :: (mid ++ post)))
    (hr : Running (run Timers.event Timers.init pre) e mid t) :
    (run Timers.event Timers.init (pre ++ e :: mid)).Sound ∧
      (run Timers.event Timers.init (pre ++ e :: mid)).schedule.Pending t
        ((run Timers.event Timers.init (pre ++ [e])).interval t -
          elapsed (run Timers.event Timers.init (pre ++ [e])) mid) := by
  obtain ⟨hpre, hae, hrest⟩ := (along_append _ _ _ _).mp hes
  have hmid := ((along_append _ _ _ _).mp hrest).1
  have hsound := (sound_run sound_init.1 hpre).1
  rw [run_append, run_append]
  generalize run Timers.event Timers.init pre = s at *
  obtain ⟨hsound', hstep⟩ := sound_event hsound hae
  have hbegins := hr.begins
  rw [Begins, hstep] at hbegins
  have hpending := event_begins hsound.wf hae hbegins.1 hbegins.2
  rw [← hstep] at hpending
  exact pending_run hsound' hpending hmid hr.alone hr.early

/-- A pass does what the schedule says. -/
theorem pass_event {s : Timers} (h : s.Sound) (hp : s.phase = .outside) (b : UInt64) :
    (s.event (.begin_pass b)).Sound ∧
      (s.event (.begin_pass b)).schedule = s.schedule.begin_pass b := by
  obtain ⟨hsound, hstep⟩ := sound_event h (e := .begin_pass b) trivial
  have hphase : s.schedule.phase = .outside := hp
  rw [Schedule.event, hphase] at hstep
  exact ⟨hsound, hstep⟩

theorem elapsed_append (s : Timers) (es fs : List Event) :
    elapsed s (es ++ fs) = elapsed s es + elapsed (run Timers.event s es) fs := by
  induction es generalizing s with
  | nil => simp [elapsed]
  | cons e es ih =>
    rw [List.cons_append, elapsed, ih, elapsed, run_cons, Nat.add_assoc]

theorem running_waits {es : List Event} (hes : Along Timers.event Timers.Apart Timers.init es)
    {pre mid post : List Event} {e : Event} {t : Nat} (hsplit : es = pre ++ e :: (mid ++ post))
    (hr : Running (run Timers.event Timers.init pre) e mid t) :
    (run Timers.event Timers.init (pre ++ e :: mid)).schedule.waiting.count t = 1 ∧
      t ∉ (run Timers.event Timers.init (pre ++ e :: mid)).schedule.due := by
  subst hsplit
  obtain ⟨hsound, hpending⟩ := running_pending hes hr
  exact ⟨List.count_eq_one_of_mem hsound.wf.waiting hpending.waits,
    hsound.wf.apart t hpending.waits⟩

theorem running_expires {es : List Event} (hes : Along Timers.event Timers.Apart Timers.init es)
    {pre mid post : List Event} {e : Event} {b : UInt64} {t : Nat}
    (hsplit : es = pre ++ e :: (mid ++ .begin_pass b :: post))
    (hr : Running (run Timers.event Timers.init pre) e mid t)
    (hover : (run Timers.event Timers.init (pre ++ [e])).interval t ≤
      elapsed (run Timers.event Timers.init (pre ++ [e])) (mid ++ [.begin_pass b])) :
    t ∉ (run Timers.event Timers.init (pre ++ e :: (mid ++ [.begin_pass b]))).schedule.waiting ∧
      (run Timers.event Timers.init
        (pre ++ e :: (mid ++ [.begin_pass b]))).schedule.due.count t = 1 := by
  subst hsplit
  obtain ⟨hsound, hpending⟩ := running_pending hes hr
  have hsplit : run Timers.event Timers.init (pre ++ e :: (mid ++ [.begin_pass b])) =
      (run Timers.event Timers.init (pre ++ e :: mid)).event (.begin_pass b) := by
    rw [← List.cons_append, ← List.append_assoc, run_append]
    rfl
  have hearly : elapsed (run Timers.event Timers.init (pre ++ [e])) mid <
      (run Timers.event Timers.init (pre ++ [e])).interval t := by
    rw [run_append]
    exact hr.early
  have hrun : run Timers.event (run Timers.event Timers.init (pre ++ [e])) mid =
      run Timers.event Timers.init (pre ++ e :: mid) := by
    rw [← run_append, List.append_assoc]
    rfl
  rw [elapsed_append, hrun, elapsed, elapsed, Nat.add_zero] at hover
  rw [hsplit]
  generalize run Timers.event Timers.init (pre ++ e :: mid) = s at *
  -- the pass is made: a thread that is elsewhere takes no ticks
  have hp : s.phase = .outside := by
    by_contra hp
    have hnone : s.takes (.begin_pass b) = 0 := if_neg hp
    omega
  have htakes : s.takes (.begin_pass b) = s.delta.toNat + 1 := if_pos hp
  have hle : (run Timers.event Timers.init (pre ++ [e])).interval t -
      elapsed (run Timers.event Timers.init (pre ++ [e])) mid ≤ s.schedule.delta.toNat + 1 := by
    change _ ≤ s.delta.toNat + 1
    omega
  obtain ⟨hoff, hon⟩ := begin_pass_expires hpending hsound.wf b hle
  obtain ⟨hsound', hevent⟩ := pass_event hsound hp b
  rw [← hevent] at hoff hon
  exact ⟨hoff, List.count_eq_one_of_mem hsound'.wf.due hon⟩

theorem pass_keeps {es : List Event} (hes : Along Timers.event Timers.Apart Timers.init es)
    {pre post : List Event} {b : UInt64} (hsplit : es = pre ++ .begin_pass b :: post)
    (hp : (run Timers.event Timers.init pre).phase = .outside) :
    (run Timers.event Timers.init pre).schedule.waiting.Nodup ∧
      ((run Timers.event Timers.init (pre ++ [.begin_pass b])).schedule.waiting ++
        (run Timers.event Timers.init (pre ++ [.begin_pass b])).schedule.due).Perm
          (run Timers.event Timers.init pre).schedule.waiting := by
  subst hsplit
  have hpre := ((along_append _ _ _ _).mp hes).1
  have hsound := (sound_run sound_init.1 hpre).1
  rw [run_append]
  generalize run Timers.event Timers.init pre = s at *
  refine ⟨hsound.wf.waiting, ?_⟩
  rw [run_cons, run_nil, (pass_event hsound hp b).2]
  exact List.filter_append_perm _ _

/-- While the two lists are kept apart, each timer expires in the first pass in
which its ticks are over. -/
theorem timers_expire_on_time_while_the_lists_are_apart (es : List Event)
    (hes : Along Timers.event Timers.Apart Timers.init es) : ExactExpiry es where
  waits _ _ _ _ _ := running_waits hes
  expires _ _ _ _ _ _ := running_expires hes
  passes _ _ _ := pass_keeps hes

/-- A timer of three ticks expires in the second pass, which is one tick late. -/
def lateRun : List Event :=
  [.call (.gw_circle_timer_add true 10 (some 7) 1), .call (.gw_timer_add true 30 (some 7) 2),
    .begin_pass 0, .next_expired 0 0, .callback_returns 0, .next_expired 1 1, .begin_pass 5,
    .next_expired 5 5, .call (.gw_timer_stop 1), .call (.gw_timer_start 1), .callback_returns 5,
    .next_expired 5 5]

theorem a_late_pass_expires_both_timers :
    ExactExpiry lateRun ∧
      (run Timers.event Timers.init (lateRun.take 7)).schedule.due = [1, 2] :=
  ⟨timers_expire_on_time_while_the_lists_are_apart lateRun (by decide +kernel), by decide +kernel⟩

/-- The callback of the first timer restarts the second one, which is due with
it. The third one, with four ticks to go, is linked behind it on both lists. -/
def restartingRun : List Event :=
  [.call (.gw_timer_add true 10 (some 7) 1), .call (.gw_timer_add true 10 (some 7) 2),
    .call (.gw_timer_add true 50 (some 7) 3), .begin_pass 0, .next_expired 0 0,
    .call (.gw_timer_restart 2), .callback_returns 0, .next_expired 0 0, .callback_returns 0,
    .next_expired 0 0]

theorem a_restarted_timer_takes_a_later_one_along : ¬ ExactExpiry restartingRun := by
  intro h
  have hrunning : Running (run Timers.event Timers.init (restartingRun.take 2))
      (.call (.gw_timer_add true 50 (some 7) 3))
      [.begin_pass 0, .next_expired 0 0, .call (.gw_timer_restart 2)] 3 := by
    refine ⟨⟨by decide +kernel, Or.inl (by decide +kernel)⟩, ?_, by decide +kernel⟩
    simp [Alters]
  have hwaits := h.waits (restartingRun.take 2) _ _ (restartingRun.drop 6) 3 rfl hrunning
  exact absurd hwaits.2 (by decide +kernel)

end gwdonu.timer
