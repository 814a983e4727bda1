-- A timer that was stopped or deleted does not fire until it is started again,
-- and no deleted timer is reached: what the steps of a run have to keep for it.
import Gwdonu.TimerRuns

namespace gwdonu.timer

open runs

/-! ## The law -/

def Starts (t : Nat) (e : Event) : Prop :=
  e = .call (.gw_timer_start t) ∨ e = .call (.gw_timer_restart t)

def Stops (t : Nat) (e : Event) : Prop :=
  e = .call (.gw_timer_stop t) ∨ e = .call (.gw_timer_del t)

/-- After a live timer is stopped or deleted its callback does not start until
the timer is started. -/
def StoppedStaysQuiet (es : List Event) : Prop :=
  ∀ pre e mid f post t, es = pre ++ e :: (mid ++ f :: post) → Stops t e →
    (run Timers.event Timers.init pre).live t = true → (∀ x ∈ mid, ¬ Starts t x) →
    (run Timers.event Timers.init (pre ++ e :: mid)).fires f ≠ some t

/-- Only live timers are on the lists. -/
def Timers.LinksLive (s : Timers) : Prop :=
  ∀ t, t ∈ s.schedule.waiting ∨ t ∈ s.schedule.due → s.live t = true

/-! ## Which steps keep it -/

/-- A once timer is not stopped when it is due already, and a circle timer that
its callback has stopped does not come back from it. -/
def Schedule.Heeds (A : Schedule) : Event → Prop
  | .call (.gw_timer_stop t) => t ∈ A.due → (A.timers t).timer_type = .GW_CIRCLE_TIMER
  | .callback_returns _ => ∀ t ∈ A.phase.running, ¬ (A.timers t).Skipped
  | _ => True

instance decidableHeeds (A : Schedule) : ∀ e, Decidable (A.Heeds e)
  | .call (.gw_timer_stop t) =>
    inferInstanceAs (Decidable (t ∈ A.due → (A.timers t).timer_type = .GW_CIRCLE_TIMER))
  | .callback_returns _ =>
    inferInstanceAs (Decidable (∀ t ∈ A.phase.running, ¬ (A.timers t).Skipped))
  | .call (.gw_timer_add ..) | .call (.gw_circle_timer_add ..) | .call (.gw_timer_del _)
  | .call (.gw_timer_start _) | .call (.gw_timer_restart _) | .call (.gw_timer_retiming ..)
  | .begin_pass _ | .next_expired .. => .isTrue trivial

/-- The event keeps the lists apart and heeds the stops. -/
def Timers.Keeps (s : Timers) (e : Event) : Prop := s.Apart e ∧ s.schedule.Heeds e

instance (s : Timers) (e : Event) : Decidable (s.Keeps e) := inferInstanceAs (Decidable (_ ∧ _))

/-- No once timer is read after its callback, when it is free. -/
def Timers.Unread (s : Timers) (e : Event) : Prop := s.schedule.late e = []

instance (s : Timers) (e : Event) : Decidable (s.Unread e) := inferInstanceAs (Decidable (_ = _))

/-- Timer `t` is stopped, or gone: where it is due or runs, it is a circle timer
that knows of it, or a once timer that ends with its callback. -/
structure Schedule.Quiet (A : Schedule) (t : Nat) : Prop where
  old : t < A.next
  off : t ∉ A.waiting
  due : t ∈ A.due → (A.timers t).Skipped
  called : A.phase.running = some t → (A.timers t).timer_type = .GW_CIRCLE_TIMER →
    (A.timers t).Skipped

section
variable {A : Schedule} {t : Nat}

theorem quiet_same {B : Schedule} (h : A.Quiet t) (hs : Same t A B) : B.Quiet t := by
  refine ⟨Nat.lt_of_lt_of_le h.old hs.next, ?_, ?_, ?_⟩
  · rw [hs.waiting]
    exact h.off
  · rw [hs.due, hs.block]
    exact h.due
  · rw [hs.phase, hs.block]
    exact h.called

/-- The timer that is stopped or deleted. -/
theorem stops_quiet (hw : A.Wf) {e : Event} (ha : A.Apart e) (hh : A.Heeds e) (he : Stops t e)
    (ht : A.live t = true) : (A.event e).Quiet t := by
  have hoff : t ∉ (A.stop t).waiting := List.Nodup.not_mem_erase hw.waiting
  have hold : t < A.next := (hw.fresh t ht).2
  have hlive : ∀ h ∈ some t, A.live h = true := by
    rintro h ⟨⟩
    exact ht
  rcases he with rfl | rfl
  · rw [Schedule.event, Call.handle, if_pos hlive]
    have hflag : (A.timers t).timer_type = .GW_CIRCLE_TIMER → ((A.stop t).timers t).Skipped := by
      intro hcircle
      change ((A.edit t (gw_timer_t.flag .GW_TIMER_STOPPED)).timers t).Skipped
      rw [edit_self]
      exact ⟨hcircle, rfl⟩
    have htype : ((A.stop t).timers t).timer_type = (A.timers t).timer_type := by
      change ((A.edit t (gw_timer_t.flag .GW_TIMER_STOPPED)).timers t).timer_type = _
      rw [edit_self]
      rfl
    exact ⟨hold, hoff, fun hd => hflag (hh hd), fun _ hcircle => hflag (htype ▸ hcircle)⟩
  · rw [Schedule.event, Call.handle, if_pos hlive, Schedule.call, Schedule.destroy,
      if_neg hoff]
    exact ⟨hold, hoff, fun hd => absurd hd ha.1, fun hr => absurd hr ha.2⟩

/-- The timer that is called back next is another one. -/
theorem next_expired_quiet (h : A.Quiet t) {b : UInt64} (hp : A.phase = .expiring b)
    (now later : UInt64) :
    (A.next_expired b now later).Quiet t ∧
      (A.next_expired b now later).phase.running ≠ some t := by
  unfold Schedule.next_expired
  cases hdue : A.due with
  | nil => exact ⟨⟨h.old, h.off, nofun, nofun⟩, nofun⟩
  | cons a due =>
    have hsub : t ∈ due → t ∈ A.due := fun hm => hdue ▸ List.mem_cons_of_mem a hm
    dsimp only
    split
    · have htaken : ({ A with due } : Schedule).Quiet t :=
        ⟨h.old, h.off, fun hd => h.due (hsub hd), h.called⟩
      have hpeek := peek_same (A := { A with due }) (t := t) now later
      refine ⟨quiet_same htaken hpeek, ?_⟩
      rw [hpeek.phase, hp]
      nofun
    · rename_i hcalled
      have hne : t ≠ a := by
        rintro rfl
        exact hcalled (h.due (by rw [hdue]; exact List.mem_cons_self))
      have hrunning : (Phase.callback b now a).running ≠ some t :=
        fun he => hne (Option.some.inj he).symm
      refine ⟨⟨h.old, h.off, fun hd => ?_, fun hr => absurd hr hrunning⟩, hrunning⟩
      change (((({ A with due } : Schedule).edit a _).timers t)).Skipped
      rw [edit_other hne]
      exact h.due (hsub hd)

/-- A once timer goes with its callback. -/
theorem callback_returns_quiet (h : A.Quiet t) (hw : A.Wf) {b c : UInt64} {a : Nat}
    (hp : A.phase = .callback b c a) (hh : a = t → ¬ (A.timers a).Skipped) (now : UInt64) :
    (((A.phased (.expiring b)).leave_callback a).peek c now).Quiet t := by
  have hphased : (A.phased (.expiring b)).Quiet t := ⟨h.old, h.off, h.due, nofun⟩
  refine quiet_same ?_ (peek_same c now)
  by_cases hat : a = t
  · subst hat
    have honce : (A.timers a).timer_type = .GW_ONCE_TIMER := by
      cases htype : (A.timers a).timer_type with
      | GW_ONCE_TIMER => rfl
      | GW_CIRCLE_TIMER => exact absurd (h.called (by rw [hp]; rfl) htype) (hh rfl)
    have hdue : a ∉ A.due := (hw.called b c a hp).2
    have hdestroy : (A.phased (.expiring b)).leave_callback a =
        (A.phased (.expiring b)).destroy a := if_pos honce
    rw [hdestroy, Schedule.destroy, if_neg hphased.off]
    exact ⟨h.old, h.off, fun hd => absurd hd hdue, nofun⟩
  · exact quiet_same hphased (leave_callback_same (Ne.symm hat))

theorem call_quiet (h : A.Quiet t) (hw : A.Wf) {c : Call} (ha : A.Apart (.call c))
    (hh : A.Heeds (.call c)) (hs : ¬ Starts t (.call c)) (hlive : ∀ h ∈ c.handle, A.live h = true) :
    (A.call c).Quiet t := by
  by_cases hc : t ∈ c.handle
  · have hevent : A.event (.call c) = A.call c := by rw [Schedule.event, if_pos hlive]
    have hstops : Stops t (.call c) → (A.call c).Quiet t := by
      intro he
      rw [← hevent]
      exact stops_quiet hw ha hh he (hlive t hc)
    cases c with
    | gw_timer_add => cases hc
    | gw_circle_timer_add => cases hc
    | gw_timer_del a =>
      obtain rfl := Option.some.inj hc
      exact hstops (Or.inr rfl)
    | gw_timer_stop a =>
      obtain rfl := Option.some.inj hc
      exact hstops (Or.inl rfl)
    | gw_timer_start a =>
      obtain rfl := Option.some.inj hc
      exact absurd (Or.inl rfl) hs
    | gw_timer_restart a =>
      obtain rfl := Option.some.inj hc
      exact absurd (Or.inr rfl) hs
    | gw_timer_retiming a timeout =>
      obtain rfl := Option.some.inj hc
      rw [Schedule.call, Schedule.retiming, if_neg h.off]
      exact h
  · exact quiet_same h (call_same h.old hc)

theorem event_quiet (h : A.Quiet t) (hw : A.Wf) {e : Event} (ha : A.Apart e) (hh : A.Heeds e)
    (hs : ¬ Starts t e) : (A.event e).Quiet t := by
  have hm := moves A e
  generalize A.event e = A' at hm
  cases hm with
  | idle => exact h
  | begin_pass begin_time =>
    have hdue : t ∉ (A.begin_pass begin_time).due :=
      fun hd => h.off (List.mem_of_mem_filter hd)
    exact ⟨h.old, fun hm => h.off (List.mem_of_mem_filter hm), fun hd => absurd hd hdue, nofun⟩
  | next_expired b now later hp => exact (next_expired_quiet h hp now later).1
  | callback_returns b c a now hp =>
    exact callback_returns_quiet h hw hp (fun _ => hh a (by rw [hp]; rfl)) now
  | call c hlive => exact call_quiet h hw ha hh hs hlive

/-- A quiet timer is not called back. -/
theorem quiet_silent (h : A.Quiet t) {e : Event} (hrunning : A.phase.running = none) :
    (A.event e).phase.running ≠ some t := by
  have hm := moves A e
  generalize A.event e = A' at hm
  cases hm with
  | idle => simp [hrunning]
  | begin_pass begin_time => nofun
  | next_expired b now later hp => exact (next_expired_quiet h hp now later).2
  | callback_returns b c a now hp => rw [hp] at hrunning; cases hrunning
  | call c => rw [call_phase, hrunning]; nofun

end

/-! ## Over whole runs -/

theorem keeps_sound (s : Timers) (e : Event) (h : s.Sound) (hk : s.Keeps e) : (s.event e).Sound :=
  (sound_event h hk.1).1

/-- A stopped timer is quiet through the steps that keep it so. -/
theorem quiet_run {s : Timers} (h : s.Sound) {t : Nat} (hq : s.schedule.Quiet t) {es : List Event}
    (hk : Along Timers.event Timers.Keeps s es) (hs : ∀ e ∈ es, ¬ Starts t e) :
    (run Timers.event s es).Sound ∧ (run Timers.event s es).schedule.Quiet t := by
  induction es generalizing s with
  | nil => exact ⟨h, hq⟩
  | cons e es ih =>
    have hke := hk.1
    have hstep := (sound_event h hke.1).2
    have hquiet := event_quiet hq h.wf hke.1 hke.2 (hs e List.mem_cons_self)
    exact ih (keeps_sound s e h hke) (hstep ▸ hquiet) hk.2
      (fun f hf => hs f (List.mem_cons_of_mem e hf))

theorem stopped_stays_quiet {es : List Event}
    (hes : Along Timers.event Timers.Keeps Timers.init es) : StoppedStaysQuiet es := by
  rintro pre e mid f post t rfl he ht hmid hfires
  obtain ⟨hpre, hrest⟩ := (along_append _ _ _ _).mp hes
  obtain ⟨hke, hrest⟩ := hrest
  obtain ⟨hkmid, hkf⟩ := (along_append _ _ _ _).mp hrest
  have hsound : (run Timers.event Timers.init pre).Sound :=
    run_inv keeps_sound sound_init.1 hpre
  rw [run_append, run_cons] at hfires
  generalize run Timers.event Timers.init pre = s at *
  have hstop : (s.event e).schedule.Quiet t := by
    rw [(sound_event hsound hke.1).2]
    exact stops_quiet hsound.wf hke.1 hke.2 he ht
  obtain ⟨hafter, hquiet⟩ := quiet_run (keeps_sound s e hsound hke) hstop hkmid hmid
  obtain ⟨hrunning, hstarts⟩ := fires_eq.mp hfires
  apply quiet_silent (e := f) hquiet hrunning
  rw [← (sound_event hafter hkf.1.1).2]
  exact hstarts

/-- While every step heeds the stops and keeps the two lists apart, a stopped
timer stays quiet, only live timers are linked, and no free block is reached
but by the reading of a once timer after its callback. -/
theorem a_stopped_timer_stays_quiet_while_steps_keep_it (es : List Event)
    (hes : Along Timers.event Timers.Keeps Timers.init es) :
    StoppedStaysQuiet es ∧
      (∀ pre post, es = pre ++ post → (run Timers.event Timers.init pre).LinksLive) ∧
      ((run Timers.event Timers.init es).dangling = [] ↔
        Along Timers.event Timers.Unread Timers.init es) := by
  refine ⟨stopped_stays_quiet hes, ?_, ?_⟩
  · rintro pre post rfl
    have hpre := ((along_append _ _ _ _).mp hes).1
    have hsound : (run Timers.event Timers.init pre).Sound :=
      run_inv keeps_sound sound_init.1 hpre
    exact fun t ht => hsound.wf.held t ht
  · have hapart : Along Timers.event Timers.Apart Timers.init es :=
      along_imp keeps_sound (fun _ _ _ hk => hk.1) sound_init.1 hes
    rw [dangling_run sound_init.1 hapart]
    exact and_iff_right rfl

/-- The first timer stops the second one, which is due with it, and the third
one, which waits. -/
def stoppingRun : List Event :=
  [.call (.gw_circle_timer_add true 10 (some 7) 1), .call (.gw_circle_timer_add true 10 (some 7) 2),
    .call (.gw_timer_add true 20 (some 7) 3), .begin_pass 0, .next_expired 0 0,
    .call (.gw_timer_stop 2), .call (.gw_timer_stop 3), .callback_returns 0, .next_expired 0 0,
    .next_expired 0 0, .begin_pass 0, .next_expired 0 0, .callback_returns 0, .next_expired 0 0]

theorem two_timers_stay_quiet_after_a_stop :
    StoppedStaysQuiet stoppingRun ∧ (run Timers.event Timers.init stoppingRun).dangling = [] := by
  obtain ⟨hquiet, -, hdangling⟩ :=
    a_stopped_timer_stays_quiet_while_steps_keep_it stoppingRun (by decide +kernel)
  exact ⟨hquiet, hdangling.mpr (by decide +kernel)⟩

/-- A circle timer stops itself: after its callback it is started again. -/
def selfStoppingRun : List Event :=
  [.call (.gw_circle_timer_add true 10 (some 7) 1), .begin_pass 0, .next_expired 0 0,
    .call (.gw_timer_stop 1), .callback_returns 0, .next_expired 0 0, .begin_pass 0,
    .next_expired 0 0]

theorem a_circle_timer_that_stops_itself_fires_again : ¬ StoppedStaysQuiet selfStoppingRun := by
  intro h
  refine h (selfStoppingRun.take 3) (.call (.gw_timer_stop 1))
    [.callback_returns 0, .next_expired 0 0, .begin_pass 0] (.next_expired 0 0) [] 1 rfl
    (Or.inl rfl) (by decide +kernel) ?_ (by decide +kernel)
  simp [Starts]

/-- A timer that is due is deleted, and then called back. -/
example : (run Timers.event Timers.init
    [.call (.gw_timer_add true 10 (some 7) 1), .call (.gw_timer_add true 10 (some 7) 2),
      .begin_pass 0, .next_expired 0 0, .call (.gw_timer_del 2), .callback_returns 0,
      .next_expired 0 0]).dangling ≠ [] := by
  decide +kernel

end gwdonu.timer
