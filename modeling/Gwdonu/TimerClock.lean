-- The clock of the timers: a pass takes the time of the whole pass before it
-- from every timer that waits. A timer that was started in the middle of that
-- pass pays for ticks that were over before it was there.
import Gwdonu.TimerExpiry

namespace gwdonu.timer

open runs

/-! ## Time -/

/-- An event, and what `gw_current_time` reads when it happens. -/
structure Reading where
  time : UInt64
  event : Event

/-- The timers, the last reading of the clock, and the ones that the thread goes by. -/
structure Watch where
  timers : Timers
  clock : Nat
  begun : Nat
  /-- the thread sleeps until then -/
  wakes : Nat

def Watch.init : Watch := ⟨Timers.init, 0, 0, 0⟩

/-- The delay of `gw_timer_thread` is one tick. -/
def Watch.event (w : Watch) (x : Reading) : Watch :=
  let after := w.timers.event x.event
  { timers := after
    clock := x.time.toNat
    begun := if w.timers.phase = .outside ∧ after.phase ≠ .outside then x.time.toNat else w.begun
    wakes :=
      if w.timers.phase ≠ .outside ∧ after.phase = .outside then x.time.toNat + 1 else w.wakes }

/-- The clock does not go back, the thread reads it, and no pass begins before
the delay is over. -/
def Watch.InTime (w : Watch) (x : Reading) : Prop :=
  w.clock ≤ x.time.toNat ∧
    match x.event with
    | .begin_pass b => b = x.time ∧ (w.timers.phase = .outside → w.wakes ≤ b.toNat)
    | .next_expired now _ => now = x.time
    | .callback_returns now => now = x.time
    | .call _ => True

instance (w : Watch) (x : Reading) : Decidable (w.InTime x) := by
  unfold Watch.InTime
  split <;> infer_instance

/-- The ticks of the timer that an event starts. -/
def Schedule.starts (A : Schedule) : Event → Option (Nat × Nat)
  | .call (.gw_timer_add mal timeout callback _)
  | .call (.gw_circle_timer_add mal timeout callback _) =>
    if callback = none ∨ timeout.toInt32 ≤ 0 ∨ mal = false then none
    else some (A.next, (gw_milli_to_ticks timeout).toNatClampNeg)
  | .call (.gw_timer_start t) =>
    if A.live t = true ∧ t ∉ A.waiting then some (t, (A.timers t).interval.toNatClampNeg) else none
  | .call (.gw_timer_restart t) =>
    if A.live t = true then some (t, (A.timers t).interval.toNatClampNeg) else none
  | .callback_returns _ =>
    match A.phase with
    | .callback _ _ a =>
      if (A.timers a).timer_type = .GW_CIRCLE_TIMER ∧ a ∉ A.waiting then
        some (a, (A.timers a).interval.toNatClampNeg)
      else none
    | _ => none
  | _ => none

/-- A timer of `n` ticks that starts at `time` is not charged for more than it
lives through. In a pass it must start within a tick of its begin; two ticks are
few enough. Between two passes the last one must have taken no time, but for the
tick of the delay. -/
def Watch.OnTime (w : Watch) (time n : Nat) : Prop :=
  if w.timers.phase = .outside then
    time + min (n - 1) w.timers.delta.toNat ≤ max time w.wakes
  else time ≤ w.begun + 1 ∨ n ≤ 2

instance (w : Watch) (time n : Nat) : Decidable (w.OnTime time n) := by
  unfold Watch.OnTime
  split <;> infer_instance

/-- Whatever timer the event starts, it starts it on time. -/
def Watch.Prompt (w : Watch) (x : Reading) : Prop :=
  ∀ p ∈ w.timers.schedule.starts x.event, w.OnTime x.time.toNat p.2

instance (w : Watch) (x : Reading) : Decidable (w.Prompt x) := by
  unfold Watch.Prompt
  infer_instance

/-- No timer is called back before its ticks are over, since it was last set. -/
def NeverEarly (xs : List Reading) : Prop :=
  ∀ pre x mid y post t, xs = pre ++ x :: (mid ++ y :: post) →
    Begins (run Watch.event Watch.init pre).timers t x.event →
    (∀ z ∈ mid, ∀ timeout, z.event ≠ .call (.gw_timer_retiming t timeout)) →
    (run Watch.event Watch.init (pre ++ x :: mid)).timers.fires y.event = some t →
    x.time.toNat + (run Watch.event Watch.init (pre ++ [x])).timers.interval t ≤ y.time.toNat + 1

/-! ## What one event leaves of a timer -/

/-- `B` has the timers of `A`, with the interval of `t`; what waits may differ. -/
structure Steady (t : Nat) (A B : Schedule) : Prop where
  interval : (B.timers t).interval = (A.timers t).interval
  due : B.due = A.due
  phase : B.phase = A.phase
  delta : B.delta = A.delta
  next : A.next ≤ B.next

theorem Steady.trans {t : Nat} {A B C : Schedule} (h : Steady t A B) (h' : Steady t B C) :
    Steady t A C :=
  ⟨h'.interval.trans h.interval, h'.due.trans h.due, h'.phase.trans h.phase,
    h'.delta.trans h.delta, h.next.trans h'.next⟩

section
variable {A : Schedule} {t a r : Nat}

theorem steady_refl : Steady t A A := ⟨rfl, rfl, rfl, rfl, Nat.le_refl _⟩

theorem edit_steady {f : gw_timer_t → gw_timer_t} (hf : ∀ p, (f p).interval = p.interval) :
    Steady t A (A.edit a f) := by
  refine ⟨?_, rfl, rfl, rfl, Nat.le_refl _⟩
  by_cases hta : t = a
  · subst hta
    rw [edit_self, hf]
  · rw [edit_other hta]

theorem start_steady : Steady t A (A.start a) := by
  unfold Schedule.start
  split
  · exact edit_steady fun _ => rfl
  · have hflag : Steady t A (A.edit a (gw_timer_t.flag .GW_TIMER_NO_STOPPED)) :=
      edit_steady fun _ => rfl
    have hreset : Steady t (A.edit a (gw_timer_t.flag .GW_TIMER_NO_STOPPED))
        ((A.edit a (gw_timer_t.flag .GW_TIMER_NO_STOPPED)).edit a gw_timer_t.reset) :=
      edit_steady fun _ => rfl
    have hboth := hflag.trans hreset
    exact ⟨hboth.interval, hboth.due, hboth.phase, hboth.delta, hboth.next⟩

theorem stop_steady : Steady t A (A.stop a) := by
  have hflag : Steady t A (A.edit a (gw_timer_t.flag .GW_TIMER_STOPPED)) :=
    edit_steady fun _ => rfl
  exact ⟨hflag.interval, hflag.due, hflag.phase, hflag.delta, hflag.next⟩

theorem destroy_steady : Steady t A (A.destroy a) := by
  have hflag : Steady t A (A.edit a (gw_timer_t.flag .GW_TIMER_DESTROYED)) :=
    edit_steady fun _ => rfl
  unfold Schedule.destroy
  split
  · exact hflag
  · exact ⟨hflag.interval, hflag.due, hflag.phase, hflag.delta, hflag.next⟩

theorem peek_steady (b e : UInt64) : Steady t A (A.peek b e) := by
  unfold Schedule.peek
  split <;> exact ⟨rfl, rfl, rfl, rfl, Nat.le_refl _⟩

theorem leave_callback_steady : Steady t A (A.leave_callback a) := by
  unfold Schedule.leave_callback
  split
  · exact destroy_steady
  · exact start_steady

theorem add_steady (h : t < A.next) (timer_type : TIMER_TYPE) (mal : Bool) (timeout : UInt32)
    (callback : Option Nat) (data : Nat) :
    Steady t A (A.add timer_type mal timeout callback data) := by
  unfold Schedule.add
  cases callback with
  | none => exact steady_refl
  | some callback =>
    dsimp only
    split
    · exact steady_refl
    · have hnew : Steady t A (A.create (newTimer timer_type timeout callback data)) :=
        ⟨by rw [create_other (Nat.ne_of_lt h)], rfl, rfl, rfl, Nat.le_succ _⟩
      exact hnew.trans start_steady

/-- A call changes no timer's interval, but for the one that it retimes. -/
theorem call_steady (h : t < A.next) {c : Call} (hc : ∀ timeout, c ≠ .gw_timer_retiming t timeout) :
    Steady t A (A.call c) := by
  cases c with
  | gw_timer_add mal timeout callback data => exact add_steady h _ mal timeout callback data
  | gw_circle_timer_add mal timeout callback data => exact add_steady h _ mal timeout callback data
  | gw_timer_del a => exact stop_steady.trans destroy_steady
  | gw_timer_stop a => exact stop_steady
  | gw_timer_start a => exact start_steady
  | gw_timer_restart a => exact stop_steady.trans start_steady
  | gw_timer_retiming a timeout =>
    have hne : t ≠ a := by
      rintro rfl
      exact hc timeout rfl
    rw [Schedule.call, Schedule.retiming]
    split
    · exact ⟨by rw [edit_other hne], rfl, rfl, rfl, Nat.le_refl _⟩
    · exact steady_refl

/-! ## Where the ticks of a waiting timer come from -/

theorem same_pending {B : Schedule} (hs : Same t A B) (h : B.Pending t r) : A.Pending t r :=
  ⟨hs.waiting.mp h.waits, hs.block ▸ h.ticks⟩

/-- A timer waits after a start because it did before, or with its whole interval. -/
theorem pending_start (hw : A.Wf) (ha : A.live a = true) (h : (A.start a).Pending t r) :
    A.Pending t r ∨
      (t = a ∧ t ∉ A.waiting ∧ r = (A.timers t).interval.toNatClampNeg) := by
  by_cases hta : t = a
  · subst hta
    by_cases hwaits : t ∈ A.waiting
    · rw [Schedule.start, if_pos hwaits] at h
      refine Or.inl ⟨hwaits, ?_⟩
      rw [← h.ticks, edit_self]
      rfl
    · have hpos := (hw.ticks t ha).1
      refine Or.inr ⟨rfl, hwaits, ?_⟩
      rw [← h.ticks, start_full hwaits, (start_steady (t := t)).interval]
      exact Int32.toNat_toUInt32_of_le (Int32.le_of_lt hpos)
  · exact Or.inl (same_pending (start_same hta) h)

theorem pending_stop (hw : A.Wf) (h : (A.stop a).Pending t r) : A.Pending t r := by
  by_cases hta : t = a
  · subst hta
    exact absurd h.waits (List.Nodup.not_mem_erase hw.waiting)
  · exact same_pending (stop_same hta) h

theorem pending_destroy (h : (A.destroy a).Pending t r) : A.Pending t r := by
  by_cases hta : t = a
  · subst hta
    have hwaits : t ∈ A.waiting := destroy_waiting (A := A) t ▸ h.waits
    rw [Schedule.destroy, if_pos hwaits] at h
    refine ⟨hwaits, ?_⟩
    rw [← h.ticks, edit_self]
    rfl
  · exact same_pending (destroy_same hta) h

theorem pending_add (hw : A.Wf) {timer_type : TIMER_TYPE} {mal : Bool} {timeout : UInt32}
    {callback : Option Nat} {data : Nat}
    (h : (A.add timer_type mal timeout callback data).Pending t r) :
    A.Pending t r ∨ ¬ (callback = none ∨ timeout.toInt32 ≤ 0 ∨ mal = false) ∧ t = A.next ∧
      r = (gw_milli_to_ticks timeout).toNatClampNeg := by
  have hpos := ticks_pos timeout
  unfold Schedule.add at h
  cases callback with
  | none => exact Or.inl h
  | some callback =>
    dsimp only at h
    split at h
    · exact Or.inl h
    · rename_i hok
      have hnew : (A.create (newTimer timer_type timeout callback data)).Wf :=
        wf_create hw nofun ⟨hpos, Int32.le_of_lt hpos⟩
      rcases pending_start hnew (create_live.mpr (Or.inl rfl)) h with hold | ⟨rfl, -, hr⟩
      · have hne : t ≠ A.next := live_ne hw (hw.held t (Or.inl hold.waits))
        refine Or.inl ⟨hold.waits, ?_⟩
        rw [← hold.ticks, create_other hne]
      · rw [create_self] at hr
        exact Or.inr ⟨by simpa using hok, rfl, hr⟩

/-- After a call a timer waits as it did, or the call started it. -/
theorem pending_call (hw : A.Wf) {c : Call} (hlive : ∀ h ∈ c.handle, A.live h = true)
    (hc : ∀ timeout, c ≠ .gw_timer_retiming t timeout) (h : (A.call c).Pending t r) :
    A.Pending t r ∨ A.starts (.call c) = some (t, r) := by
  cases c with
  | gw_timer_add mal timeout callback data =>
    refine (pending_add hw h).imp_right fun ⟨hok, ht, hr⟩ => ?_
    rw [Schedule.starts, if_neg hok, ht, hr]
  | gw_circle_timer_add mal timeout callback data =>
    refine (pending_add hw h).imp_right fun ⟨hok, ht, hr⟩ => ?_
    rw [Schedule.starts, if_neg hok, ht, hr]
  | gw_timer_del a => exact Or.inl (pending_stop hw (pending_destroy h))
  | gw_timer_stop a => exact Or.inl (pending_stop hw h)
  | gw_timer_start a =>
    refine (pending_start hw (hlive a rfl) h).imp_right fun ⟨ht, hwaits, hr⟩ => ?_
    subst ht
    rw [Schedule.starts, if_pos ⟨hlive t rfl, hwaits⟩, hr]
  | gw_timer_restart a =>
    rcases pending_start (wf_stop hw) (hlive a rfl) h with hold | ⟨ht, -, hr⟩
    · exact Or.inl (pending_stop hw hold)
    · subst ht
      rw [(stop_steady (t := t)).interval] at hr
      rw [Schedule.starts, if_pos (hlive t rfl), hr]
      exact Or.inr rfl
  | gw_timer_retiming a timeout =>
    have hne : t ≠ a := by
      rintro rfl
      exact hc timeout rfl
    exact Or.inl (same_pending (retiming_same hne timeout) h)

/-- When a callback returns, only a circle timer that does not wait is started. -/
theorem pending_callback_returns (hw : A.Wf) {b c : UInt64} (hp : A.phase = .callback b c a)
    (now : UInt64) (h : (((A.phased (.expiring b)).leave_callback a).peek c now).Pending t r) :
    A.Pending t r ∨ A.starts (.callback_returns now) = some (t, r) := by
  have hleft := same_pending (peek_same c now) h
  have hphased : (A.phased (.expiring b)).Wf :=
    ⟨hw.waiting, hw.due, hw.apart, hw.held, hw.fresh, hw.intact, hw.ticks, nofun, nofun, nofun,
      hw.next⟩
  rw [Schedule.leave_callback] at hleft
  rw [Schedule.starts, hp]
  dsimp only
  split at hleft
  · have hold := pending_destroy hleft
    exact Or.inl ⟨hold.waits, hold.ticks⟩
  · rename_i hcircle
    have htype : (A.timers a).timer_type = .GW_CIRCLE_TIMER := by
      cases htt : (A.timers a).timer_type with
      | GW_ONCE_TIMER => exact absurd htt hcircle
      | GW_CIRCLE_TIMER => rfl
    rcases pending_start hphased (hw.called b c a hp).1 hleft with hold | ⟨rfl, hwaits, hr⟩
    · exact Or.inl ⟨hold.waits, hold.ticks⟩
    · exact Or.inr (by rw [if_pos ⟨htype, hwaits⟩, hr]; rfl)

theorem pending_next_expired (hw : A.Wf) (b now later : UInt64)
    (h : (A.next_expired b now later).Pending t r) : A.Pending t r := by
  have hwaits : t ∈ A.waiting := next_expired_waiting (A := A) b now later ▸ h.waits
  have hd : t ∉ A.due := hw.apart t hwaits
  refine ⟨hwaits, ?_⟩
  rw [← h.ticks, Schedule.next_expired]
  cases hdue : A.due with
  | nil => rfl
  | cons a due =>
    have hne : t ≠ a := by
      rintro rfl
      exact hd (by rw [hdue]; exact List.mem_cons_self)
    dsimp only
    split
    · rw [(peek_same (t := t) now later).block]
    · exact (congrArg (·.remain_interval.toUInt32.toNat) (edit_other hne _)).symm

theorem next_expired_interval (b now later : UInt64) :
    ((A.next_expired b now later).timers t).interval = (A.timers t).interval := by
  rw [Schedule.next_expired]
  cases A.due with
  | nil => rfl
  | cons a due =>
    dsimp only
    split
    · exact (peek_steady (t := t) now later).interval
    · exact (edit_steady (A := { A with due }) (t := t) (a := a)
        (f := gw_timer_t.flag .GW_TIMER_NO_STOPPED) fun _ => rfl).interval

theorem next_expired_next (b now later : UInt64) :
    (A.next_expired b now later).next = A.next := by
  unfold Schedule.next_expired Schedule.peek
  cases A.due with
  | nil => rfl
  | cons a due =>
    dsimp only
    split_ifs <;> rfl

/-- The interval of a timer is what it was, and no address is given out again. -/
theorem event_interval (h : t < A.next) {e : Event}
    (he : ∀ timeout, e ≠ .call (.gw_timer_retiming t timeout)) :
    ((A.event e).timers t).interval = (A.timers t).interval ∧ A.next ≤ (A.event e).next := by
  have hm := moves A e
  generalize A.event e = A' at hm
  cases hm with
  | idle => exact ⟨rfl, Nat.le_refl _⟩
  | begin_pass b =>
    refine ⟨?_, Nat.le_refl _⟩
    change (if t ∈ A.waiting then _ else _ : gw_timer_t).interval = _
    split <;> rfl
  | next_expired b now later =>
    exact ⟨next_expired_interval b now later, Nat.le_of_eq (next_expired_next b now later).symm⟩
  | callback_returns b c a now =>
    have hleft := (leave_callback_steady (A := A.phased (.expiring b)) (t := t) (a := a)).trans
      (peek_steady c now)
    exact ⟨hleft.interval, hleft.next⟩
  | call c =>
    have hcalled := call_steady h fun timeout hc => he timeout (congrArg Event.call hc)
    exact ⟨hcalled.interval, hcalled.next⟩

/-! ## Passes -/

/-- When the pass began that the thread is in. -/
def Phase.begin_time : Phase → Option UInt64
  | .expiring b | .callback b _ _ => some b
  | .outside | .stuck => none

/-- The event is neither the begin nor the end of a pass. -/
structure Schedule.Between (A : Schedule) (e : Event) (B : Schedule) : Prop where
  side : B.phase = .outside ↔ A.phase = .outside
  begun : B.phase.begin_time = A.phase.begin_time
  delta : B.delta = A.delta
  due : ∀ t ∈ B.due, t ∈ A.due
  waits : ∀ t r, (∀ timeout, e ≠ .call (.gw_timer_retiming t timeout)) → B.Pending t r →
    A.Pending t r ∨ A.starts e = some (t, r)

/-- What an event is to the passes. -/
inductive Schedule.Turns (A : Schedule) : Event → Schedule → Prop
  | between (e : Event) (B : Schedule) : A.Between e B → A.Turns e B
  | begins (b : UInt64) : A.phase = .outside → A.Turns (.begin_pass b) (A.begin_pass b)
  | ends (b now later : UInt64) : A.phase = .expiring b → A.due = [] →
      A.Turns (.next_expired now later)
        { A with delta := (now - b).toUInt32, phase := .outside }

theorem next_expired_turns (hw : A.Wf) {b : UInt64} (hp : A.phase = .expiring b)
    (now later : UInt64) :
    A.Turns (.next_expired now later) (A.next_expired b now later) := by
  have hwaits := fun t r => pending_next_expired (A := A) (t := t) (r := r) hw b now later
  rw [Schedule.next_expired] at hwaits ⊢
  cases hdue : A.due with
  | nil =>
    have hends := Schedule.Turns.ends b now later hp hdue
    rw [hdue] at hends
    exact hends
  | cons a due =>
    rw [hdue] at hwaits
    apply Schedule.Turns.between
    dsimp only at hwaits ⊢
    have hsub : ∀ t ∈ due, t ∈ A.due := fun t ht => hdue ▸ List.mem_cons_of_mem a ht
    split at hwaits
    · rename_i hskip
      have hpeek := peek_steady (A := { A with due }) (t := a) now later
      rw [if_pos hskip]
      refine ⟨by rw [hpeek.phase], by rw [hpeek.phase], hpeek.delta, ?_, ?_⟩
      · intro t ht
        rw [hpeek.due] at ht
        exact hsub t ht
      · exact fun t r _ h => Or.inl (hwaits t r h)
    · rename_i hskip
      rw [if_neg hskip]
      refine ⟨?_, ?_, rfl, hsub, fun t r _ h => Or.inl (hwaits t r h)⟩
      · rw [hp]
        exact ⟨nofun, nofun⟩
      · rw [hp]
        rfl

theorem turns (hw : A.Wf) (e : Event) : A.Turns e (A.event e) := by
  have hm := moves A e
  generalize A.event e = A' at hm
  cases hm with
  | idle =>
    exact .between _ _ ⟨Iff.rfl, rfl, rfl, fun _ ht => ht, fun _ _ _ h => Or.inl h⟩
  | begin_pass b hp => exact .begins b hp
  | next_expired b now later hp => exact next_expired_turns hw hp now later
  | callback_returns b c a now hp =>
    have hleft := (leave_callback_steady (A := A.phased (.expiring b)) (t := a) (a := a)).trans
      (peek_steady c now)
    refine .between _ _ ⟨?_, ?_, hleft.delta, ?_, ?_⟩
    · rw [hleft.phase, hp]
      exact ⟨nofun, nofun⟩
    · rw [hleft.phase, hp]
      rfl
    · intro t ht
      rw [hleft.due] at ht
      exact ht
    · exact fun t r _ h => pending_callback_returns hw hp now h
  | call c hlive =>
    -- no timer is at 0, so no call retimes it
    have hnull : ∀ timeout, c ≠ .gw_timer_retiming 0 timeout := by
      rintro timeout rfl
      exact Nat.lt_irrefl 0 (hw.fresh 0 (hlive 0 rfl)).1
    have hcalled := call_steady hw.next hnull
    refine .between _ _ ⟨by rw [hcalled.phase], by rw [hcalled.phase], hcalled.delta, ?_, ?_⟩
    · intro t ht
      rw [hcalled.due] at ht
      exact ht
    · exact fun t r hc h =>
        pending_call hw hlive (fun timeout h' => hc timeout (congrArg Event.call h')) h

/-- A timer that is there is started with its interval. -/
theorem starts_interval {e : Event} (h : A.starts e = some (t, r)) (ht : t < A.next) :
    r = (A.timers t).interval.toNatClampNeg := by
  have hsome : ∀ {c : Prop} [Decidable c] {a : Nat},
      (if c then some (a, (A.timers a).interval.toNatClampNeg) else none) = some (t, r) →
        r = (A.timers t).interval.toNatClampNeg := by
    intro c _ a hc
    split at hc
    · cases hc
      rfl
    · cases hc
  unfold Schedule.starts at h
  split at h
  · split at h
    · cases h
    · cases h
      exact absurd ht (Nat.lt_irrefl _)
  · split at h
    · cases h
    · cases h
      exact absurd ht (Nat.lt_irrefl _)
  · exact hsome h
  · exact hsome h
  · split at h
    · exact hsome h
    · cases h
  · cases h

/-- A callback starts with a timer that was due. -/
theorem running_due {e : Event} (hp : A.phase.running = none)
    (h : (A.event e).phase.running = some t) : t ∈ A.due := by
  have hm := moves A e
  generalize A.event e = A' at hm h
  cases hm with
  | idle => rw [hp] at h; cases h
  | begin_pass b => cases h
  | next_expired b now later hphase =>
    rw [Schedule.next_expired] at h
    cases hdue : A.due with
    | nil => rw [hdue] at h; cases h
    | cons a due =>
      rw [hdue] at h
      dsimp only at h
      split at h
      · rw [(peek_steady (A := { A with due }) (t := t) now later).phase] at h
        exact absurd (hp.symm.trans h) nofun
      · obtain rfl := Option.some.inj h
        exact List.mem_cons_self
  | callback_returns b c a now hphase => rw [hphase] at hp; cases hp
  | call c =>
    rw [call_phase, hp] at h
    cases h

end

/-! ## What is left of the time -/

/-- The first reading at which a timer with `r` ticks left can be called back. -/
def Watch.soonest (w : Watch) (r : Nat) : Nat :=
  if w.timers.phase = .outside then max w.clock w.wakes + (r - (w.timers.delta.toNat + 1))
  else max (w.clock + 1) (w.begun + r)

/-- The thread is in the pass that it began last. -/
structure Watch.Sound (w : Watch) : Prop where
  timers : w.timers.Sound
  begun : ∀ b, w.timers.phase.begin_time = some b → b.toNat = w.begun
  past : w.begun ≤ w.clock

/-- Timer `t` has `n` ticks since `time`, and none of what is left of it is due earlier. -/
structure Watch.Ahead (w : Watch) (t time n : Nat) : Prop where
  known : t < w.timers.next
  interval : w.timers.interval t = n
  past : time ≤ w.clock
  waits : ∀ r, w.timers.schedule.Pending t r → time + n ≤ w.soonest r + 1
  due : t ∈ w.timers.schedule.due → time + n ≤ w.clock + 1

section
variable {w : Watch} {x : Reading} {t time n : Nat}

/-- What a reading makes of the watch. -/
inductive Watch.Turns (w : Watch) (x : Reading) : Prop
  | between (h : w.timers.schedule.Between x.event (w.event x).timers.schedule)
      (hbegun : (w.event x).begun = w.begun) (hwakes : (w.event x).wakes = w.wakes)
  | begins (b : UInt64) (he : x.event = .begin_pass b) (hp : w.timers.phase = .outside)
      (h : (w.event x).timers.schedule = w.timers.schedule.begin_pass b)
      (hbegun : (w.event x).begun = x.time.toNat)
  | ends (b now later : UInt64) (he : x.event = .next_expired now later)
      (hp : w.timers.phase = .expiring b) (hd : w.timers.schedule.due = [])
      (h : (w.event x).timers.schedule =
        { w.timers.schedule with delta := (now - b).toUInt32, phase := .outside })
      (hbegun : (w.event x).begun = w.begun) (hwakes : (w.event x).wakes = x.time.toNat + 1)

theorem watch_turns (h : w.Sound) (ha : w.timers.Apart x.event) : w.Turns x := by
  obtain ⟨-, hschedule⟩ := sound_event h.timers ha
  have hphase : (w.timers.event x.event).phase = (w.timers.schedule.event x.event).phase :=
    congrArg (·.phase) hschedule
  have hturns := turns h.timers.wf x.event
  generalize hB : w.timers.schedule.event x.event = B at hturns hschedule hphase
  obtain ⟨x_time, e⟩ := x
  cases hturns with
  | between _ _ hb =>
    have hside : (w.timers.event e).phase = .outside ↔ w.timers.phase = .outside :=
      hphase ▸ hb.side
    refine .between ?_ (if_neg ?_) (if_neg ?_)
    · change w.timers.schedule.Between e (w.timers.event e).schedule
      rw [hschedule]
      exact hb
    · exact fun hn => hn.2 (hside.mpr hn.1)
    · exact fun hn => hn.1 (hside.mp hn.2)
  | begins b hp =>
    refine .begins b rfl hp hschedule (if_pos ⟨hp, ?_⟩)
    rw [hphase]
    nofun
  | ends b now later hp hd =>
    have hin : w.timers.phase ≠ .outside := by
      rw [show w.timers.phase = .expiring b from hp]
      nofun
    exact .ends b now later rfl hp hd hschedule (if_neg fun hn => hin hn.1)
      (if_pos ⟨hin, hphase⟩)

theorem sound_reading (h : w.Sound) (hx : w.InTime x) (ha : w.timers.Apart x.event) :
    (w.event x).Sound := by
  have hsound := (sound_event h.timers ha).1
  have hpast : w.begun ≤ x.time.toNat := Nat.le_trans h.past hx.1
  obtain ⟨x_time, e⟩ := x
  cases watch_turns h ha with
  | between hb hbegun hwakes =>
    refine ⟨hsound, ?_, hbegun ▸ hpast⟩
    intro b hb'
    rw [hbegun]
    exact h.begun b (hb.begun ▸ hb')
  | begins b he hp hstep hbegun =>
    subst he
    refine ⟨hsound, ?_, Nat.le_of_eq hbegun⟩
    intro b' hb'
    have hphase : (Watch.event w ⟨x_time, .begin_pass b⟩).timers.schedule.phase = .expiring b :=
      congrArg (·.phase) hstep
    have hbegin : some b = some b' := by
      rw [← hb']
      change Phase.begin_time (.expiring b) = (Watch.event w _).timers.schedule.phase.begin_time
      rw [hphase]
    rw [hbegun, ← Option.some.inj hbegin, hx.2.1]
  | ends b now later he hp hd hstep hbegun hwakes =>
    refine ⟨hsound, ?_, hbegun ▸ hpast⟩
    intro b' hb'
    have hphase : (Watch.event w ⟨x_time, e⟩).timers.schedule.phase = .outside :=
      congrArg (·.phase) hstep
    change (Watch.event w _).timers.schedule.phase.begin_time = _ at hb'
    rw [hphase] at hb'
    cases hb'

/-- A start that is on time leaves the timer its time. -/
theorem soonest_start (ho : w.OnTime x.time.toNat n)
    (hb : w.timers.schedule.Between x.event (w.event x).timers.schedule)
    (hbegun : (w.event x).begun = w.begun) (hwakes : (w.event x).wakes = w.wakes) :
    x.time.toNat + n ≤ (w.event x).soonest n + 1 := by
  have hside : (w.event x).timers.phase = .outside ↔ w.timers.phase = .outside := hb.side
  have hdelta : (w.event x).timers.delta = w.timers.delta := hb.delta
  have hclock : (w.event x).clock = x.time.toNat := rfl
  unfold Watch.OnTime at ho
  unfold Watch.soonest
  rw [hclock, hbegun, hwakes, hdelta]
  by_cases hp : w.timers.phase = .outside
  · rw [if_pos hp] at ho
    rw [if_pos (hside.mpr hp)]
    omega
  · rw [if_neg hp] at ho
    rw [if_neg (fun hn => hp (hside.mp hn))]
    omega

/-- Time that goes by brings no timer forward. -/
theorem soonest_later (hx : w.InTime x)
    (hb : w.timers.schedule.Between x.event (w.event x).timers.schedule)
    (hbegun : (w.event x).begun = w.begun) (hwakes : (w.event x).wakes = w.wakes) (r : Nat) :
    w.soonest r ≤ (w.event x).soonest r := by
  have hside : (w.event x).timers.phase = .outside ↔ w.timers.phase = .outside := hb.side
  have hdelta : (w.event x).timers.delta = w.timers.delta := hb.delta
  have hclock : w.clock ≤ (w.event x).clock := hx.1
  unfold Watch.soonest
  rw [hbegun, hwakes, hdelta]
  by_cases hp : w.timers.phase = .outside
  · rw [if_pos hp, if_pos (hside.mpr hp)]
    omega
  · rw [if_neg hp, if_neg (fun hn => hp (hside.mp hn))]
    omega

theorem ahead_between (h : w.Ahead t time n) (hx : w.InTime x) (hprompt : w.Prompt x)
    (hnext : w.timers.next ≤ (w.event x).timers.next)
    (hinterval : (w.event x).timers.interval t = n)
    (hr : ∀ timeout, x.event ≠ .call (.gw_timer_retiming t timeout))
    (hb : w.timers.schedule.Between x.event (w.event x).timers.schedule)
    (hbegun : (w.event x).begun = w.begun) (hwakes : (w.event x).wakes = w.wakes) :
    (w.event x).Ahead t time n := by
  have hpast : time ≤ x.time.toNat := Nat.le_trans h.past hx.1
  refine ⟨Nat.lt_of_lt_of_le h.known hnext, hinterval, hpast, ?_, ?_⟩
  · intro r hpending
    rcases hb.waits t r hr hpending with hold | hstart
    · exact Nat.le_trans (h.waits r hold) (Nat.succ_le_succ (soonest_later hx hb hbegun hwakes r))
    · -- it starts anew, with the same ticks
      have hsame : r = n := h.interval ▸ starts_interval hstart h.known
      have hsoonest : x.time.toNat + r ≤ (w.event x).soonest r + 1 :=
        soonest_start (hprompt (t, r) hstart) hb hbegun hwakes
      omega
  · intro hdue
    have hclock : w.clock ≤ (w.event x).clock := hx.1
    exact Nat.le_trans (h.due (hb.due t hdue)) (Nat.succ_le_succ hclock)

theorem ahead_begins (h : w.Ahead t time n) (hw : w.timers.schedule.Wf) {b : UInt64}
    (hx : w.InTime x) (he : x.event = .begin_pass b) (hp : w.timers.phase = .outside)
    (hnext : w.timers.next ≤ (w.event x).timers.next)
    (hinterval : (w.event x).timers.interval t = n)
    (hstep : (w.event x).timers.schedule = w.timers.schedule.begin_pass b)
    (hbegun : (w.event x).begun = x.time.toNat) : (w.event x).Ahead t time n := by
  have hpast : time ≤ x.time.toNat := Nat.le_trans h.past hx.1
  have hclock : (w.event x).clock = x.time.toNat := rfl
  have hphase : (w.event x).timers.phase = .expiring b := congrArg (·.phase) hstep
  have hwakes : w.wakes ≤ x.time.toNat := by
    have hread := hx.2
    rw [he] at hread
    exact hread.1 ▸ hread.2 hp
  -- a timer that waits is at most as late as the pass
  have hold : ∀ r, w.timers.schedule.Pending t r →
      time + n ≤ x.time.toNat + (r - (w.timers.delta.toNat + 1)) + 1 := by
    intro r hpending
    have hsoonest := h.waits r hpending
    have hlast := hx.1
    rw [Watch.soonest, if_pos hp] at hsoonest
    omega
  refine ⟨Nat.lt_of_lt_of_le h.known hnext, hinterval, hpast, ?_, ?_⟩
  · intro r hpending
    rw [hstep] at hpending
    obtain ⟨hwaits, hstays⟩ := List.mem_filter.mp hpending.waits
    have hremain := (hw.ticks t (hw.held t (Or.inl hwaits))).2
    have hlt := (stays_iff w.timers.delta hremain).mp hstays
    have hleft := (begin_pass_pending ⟨hwaits, rfl⟩ hw b hlt).ticks
    rw [hpending.ticks] at hleft
    have hbound := hold _ ⟨hwaits, rfl⟩
    rw [Watch.soonest, if_neg (by rw [hphase]; nofun), hbegun, hclock]
    change r = _ - (w.timers.delta.toNat + 1) at hleft
    omega
  · intro hdue
    rw [hstep] at hdue
    obtain ⟨hwaits, hgoes⟩ := List.mem_filter.mp hdue
    have hremain := (hw.ticks t (hw.held t (Or.inl hwaits))).2
    have hover : ¬ stays w.timers.schedule.delta (w.timers.schedule.timers t) = true := by
      simpa using hgoes
    rw [stays_iff _ hremain] at hover
    change ¬ w.timers.delta.toNat + 1 < _ at hover
    have hbound := hold _ ⟨hwaits, rfl⟩
    rw [hclock]
    omega

theorem ahead_ends (h : w.Ahead t time n) (hs : w.Sound) {b now later : UInt64} (hx : w.InTime x)
    (he : x.event = .next_expired now later) (hp : w.timers.phase = .expiring b)
    (hd : w.timers.schedule.due = []) (hnext : w.timers.next ≤ (w.event x).timers.next)
    (hinterval : (w.event x).timers.interval t = n)
    (hstep : (w.event x).timers.schedule =
      { w.timers.schedule with delta := (now - b).toUInt32, phase := .outside })
    (hwakes : (w.event x).wakes = x.time.toNat + 1) : (w.event x).Ahead t time n := by
  have hpast : time ≤ x.time.toNat := Nat.le_trans h.past hx.1
  have hclock : (w.event x).clock = x.time.toNat := rfl
  have hphase : (w.event x).timers.phase = .outside := congrArg (·.phase) hstep
  have hbegin : b.toNat = w.begun := hs.begun b (by rw [hp]; rfl)
  have hnow : now = x.time := by
    have hread := hx.2
    rw [he] at hread
    exact hread
  have hbegun : w.begun ≤ x.time.toNat := Nat.le_trans hs.past hx.1
  -- the clock did not go back, and what is too long for `delta` only makes it smaller
  have hdelta : (w.event x).timers.delta.toNat ≤ x.time.toNat - w.begun := by
    have heq : (w.event x).timers.delta = (now - b).toUInt32 := congrArg (·.delta) hstep
    have hle : b ≤ now := by
      rw [UInt64.le_iff_toNat_le, hbegin, hnow]
      exact hbegun
    rw [heq, UInt64.toNat_toUInt32, UInt64.toNat_sub_of_le _ _ hle, hbegin, hnow]
    exact Nat.mod_le _ _
  refine ⟨Nat.lt_of_lt_of_le h.known hnext, hinterval, hpast, ?_, ?_⟩
  · intro r hpending
    rw [hstep] at hpending
    have hsoonest := h.waits r ⟨hpending.waits, hpending.ticks⟩
    have hlast := hx.1
    rw [Watch.soonest, if_neg (by rw [hp]; nofun)] at hsoonest
    rw [Watch.soonest, if_pos hphase, hwakes, hclock]
    omega
  · intro hdue
    rw [hstep] at hdue
    change t ∈ w.timers.schedule.due at hdue
    rw [hd] at hdue
    cases hdue

/-- One reading brings no timer forward that is left with its interval. -/
theorem ahead_event (h : w.Ahead t time n) (hs : w.Sound) (hx : w.InTime x)
    (ha : w.timers.Apart x.event) (hprompt : w.Prompt x)
    (hr : ∀ timeout, x.event ≠ .call (.gw_timer_retiming t timeout)) :
    (w.event x).Ahead t time n := by
  obtain ⟨-, hschedule⟩ := sound_event hs.timers ha
  have hkept := event_interval (A := w.timers.schedule) h.known hr
  rw [← hschedule] at hkept
  have hinterval : (w.event x).timers.interval t = n := by
    rw [← h.interval]
    exact congrArg Int32.toNatClampNeg hkept.1
  cases watch_turns hs ha with
  | between hb hbegun hwakes =>
    exact ahead_between h hx hprompt hkept.2 hinterval hr hb hbegun hwakes
  | begins b he hp hstep hbegun =>
    exact ahead_begins h hs.timers.wf hx he hp hkept.2 hinterval hstep hbegun
  | ends b now later he hp hd hstep hbegun hwakes =>
    exact ahead_ends h hs hx he hp hd hkept.2 hinterval hstep hwakes

theorem restart_starts (ht : t ∈ w.timers.schedule.waiting) (hs : w.Sound) :
    w.timers.schedule.starts (.call (.gw_timer_restart t)) = some (t, w.timers.interval t) :=
  if_pos (hs.timers.wf.held t (Or.inl ht))

/-- A retiming puts nothing on the list. -/
theorem begins_not_retiming (hs : w.Sound) (ha : w.timers.Apart x.event)
    (hb : Begins w.timers t x.event) (timeout : UInt32) :
    x.event ≠ .call (.gw_timer_retiming t timeout) := by
  intro he
  obtain ⟨-, hschedule⟩ := sound_event hs.timers ha
  obtain ⟨hin, hnew⟩ := hb
  rw [hschedule, he, Schedule.event, Schedule.call, Schedule.retiming] at hin
  have hwaits : t ∈ w.timers.schedule.waiting := by
    split_ifs at hin <;> exact hin
  rcases hnew with hnew | hrestart
  · exact hnew hwaits
  · rw [he] at hrestart
    cases hrestart

/-- An event that puts a timer on the list starts it, on time or not. -/
theorem begins_starts (hs : w.Sound) (ha : w.timers.Apart x.event)
    (hb : Begins w.timers t x.event)
    (hbetween : w.timers.schedule.Between x.event (w.event x).timers.schedule) :
    w.timers.schedule.starts x.event = some (t, (w.event x).timers.interval t) := by
  obtain ⟨hsound, hschedule⟩ := sound_event hs.timers ha
  have hretiming := begins_not_retiming hs ha hb
  obtain ⟨hin, hnew⟩ := hb
  have hpending := event_begins hs.timers.wf ha (hschedule ▸ hin) hnew
  rw [← hschedule] at hpending
  rcases hbetween.waits t _ hretiming hpending with hold | hstart
  · rcases hnew with hnew | he
    · exact absurd hold.waits hnew
    · have hknown := (hs.timers.wf.fresh t (hs.timers.wf.held t (Or.inl hold.waits))).2
      have hkept := (event_interval hknown hretiming).1
      rw [← hschedule] at hkept
      rw [he, restart_starts hold.waits hs]
      exact congrArg (fun i => some (t, i)) (congrArg Int32.toNatClampNeg hkept.symm)
  · exact hstart

theorem ahead_start (hs : w.Sound) (ha : w.timers.Apart x.event) (hprompt : w.Prompt x)
    (hb : Begins w.timers t x.event) :
    (w.event x).Ahead t x.time.toNat ((w.event x).timers.interval t) := by
  obtain ⟨hsound, hschedule⟩ := sound_event hs.timers ha
  have hin : t ∈ (w.event x).timers.schedule.waiting := hb.1
  have hpending := event_begins hs.timers.wf ha (hschedule ▸ hb.1) hb.2
  rw [← hschedule] at hpending
  refine ⟨(hsound.wf.fresh t (hsound.wf.held t (Or.inl hin))).2, rfl, Nat.le_refl _, ?_,
    fun hdue => absurd hdue (hsound.wf.apart t hin)⟩
  intro r hr
  have hall : r = (w.event x).timers.interval t := hr.ticks.symm.trans hpending.ticks
  subst hall
  have hidle : t ∉ w.timers.schedule.waiting ∨ x.event = .call (.gw_timer_restart t) := hb.2
  cases watch_turns hs ha with
  | between hbetween hbegun hwakes =>
    exact soonest_start (hprompt _ (begins_starts hs ha hb hbetween)) hbetween hbegun hwakes
  | begins b he hp hstep hbegun =>
    rw [hstep] at hin
    rcases hidle with hnew | hrestart
    · exact absurd (List.mem_of_mem_filter hin) hnew
    · rw [he] at hrestart
      cases hrestart
  | ends b now later he hp hd hstep hbegun hwakes =>
    rw [hstep] at hin
    rcases hidle with hnew | hrestart
    · exact absurd hin hnew
    · rw [he] at hrestart
      cases hrestart

end

/-! ## Over whole runs -/

theorem watch_init : Watch.init.Sound := ⟨sound_init.1, nofun, Nat.le_refl _⟩

/-- The steps that bring no timer forward. -/
def Watch.Fair (w : Watch) (x : Reading) : Prop :=
  w.InTime x ∧ w.timers.Apart x.event ∧ w.Prompt x

instance (w : Watch) (x : Reading) : Decidable (w.Fair x) :=
  inferInstanceAs (Decidable (_ ∧ _))

theorem watch_sound (w : Watch) (x : Reading) (h : w.Sound) (hx : w.Fair x) : (w.event x).Sound :=
  sound_reading h hx.1 hx.2.1

theorem ahead_run {w : Watch} {t time n : Nat} (h : w.Ahead t time n) (hs : w.Sound)
    {xs : List Reading} (hx : Along Watch.event Watch.Fair w xs)
    (hr : ∀ z ∈ xs, ∀ timeout, z.event ≠ .call (.gw_timer_retiming t timeout)) :
    (run Watch.event w xs).Ahead t time n := by
  induction xs generalizing w with
  | nil => exact h
  | cons x xs ih =>
    obtain ⟨⟨hin, hapart, hprompt⟩, hrest⟩ := hx
    have hstep := ahead_event h hs hin hapart hprompt (hr x List.mem_cons_self)
    exact ih hstep (sound_reading hs hin hapart) hrest
      fun z hz => hr z (List.mem_cons_of_mem x hz)

/-- While each timer starts on time, and the two lists are kept apart, no timer
is called back before its ticks are over. -/
theorem no_timer_is_early_that_starts_on_time (xs : List Reading)
    (hxs : Along Watch.event Watch.Fair Watch.init xs) : NeverEarly xs := by
  intro pre x mid y post t hsplit hbegins hretimed hfires
  subst hsplit
  obtain ⟨hpre, hx, hrest⟩ := (along_append _ _ _ _).mp hxs
  obtain ⟨hmid, hy, -⟩ := (along_append _ _ _ _).mp hrest
  have hs := run_inv watch_sound watch_init hpre
  rw [run_append, run_cons] at hfires
  rw [run_append, run_cons, run_nil]
  generalize run Watch.event Watch.init pre = w at *
  have hahead := ahead_run (ahead_start hs hx.2.1 hx.2.2 hbegins) (watch_sound w x hs hx) hmid
    hretimed
  have hs' := run_inv watch_sound (watch_sound w x hs hx) hmid
  generalize run Watch.event (w.event x) mid = v at *
  obtain ⟨hp, hrunning⟩ := fires_eq.mp hfires
  obtain ⟨-, hschedule⟩ := sound_event hs'.timers hy.2.1
  have hdue : t ∈ v.timers.schedule.due := by
    apply running_due (e := y.event) hp
    rw [← hschedule]
    exact hrunning
  have hlast := hy.1.1
  have hbound := hahead.due hdue
  omega

/-- A callback adds a timer of 3 ticks one tick into its pass, and takes 9 more. -/
def promptRun : List Reading :=
  [⟨4, .call (.gw_circle_timer_add true 20 (some 7) 1)⟩, ⟨6, .begin_pass 6⟩,
    ⟨6, .next_expired 6 6⟩, ⟨7, .begin_pass 7⟩, ⟨7, .next_expired 7 7⟩,
    ⟨8, .call (.gw_timer_add true 30 (some 7) 2)⟩, ⟨8, .callback_returns 8⟩,
    ⟨17, .next_expired 17 17⟩, ⟨18, .begin_pass 18⟩, ⟨18, .next_expired 18 18⟩]

theorem a_prompt_timer_is_called_back_in_time :
    NeverEarly promptRun ∧
      (run Watch.event Watch.init (promptRun.take 9)).timers.fires (.next_expired 18 18) = some 1 :=
  ⟨no_timer_is_early_that_starts_on_time promptRun (by decide +kernel), by decide +kernel⟩

/-- A callback takes 100 ticks and adds a timer of 50 at its end, which the next
pass calls back one tick later. -/
def slowRun : List Reading :=
  [⟨0, .call (.gw_timer_add true 10 (some 7) 1)⟩, ⟨0, .begin_pass 0⟩, ⟨0, .next_expired 0 0⟩,
    ⟨100, .call (.gw_timer_add true 500 (some 7) 2)⟩, ⟨100, .callback_returns 100⟩,
    ⟨100, .next_expired 100 100⟩, ⟨101, .begin_pass 101⟩, ⟨101, .next_expired 101 101⟩]

theorem a_slow_pass_is_charged_to_a_new_timer :
    Along Watch.event (fun w x => w.InTime x ∧ w.timers.Apart x.event) Watch.init slowRun ∧
      ¬ NeverEarly slowRun := by
  refine ⟨by decide +kernel, fun h => ?_⟩
  have hbegins : Begins (run Watch.event Watch.init (slowRun.take 3)).timers 2
      (.call (.gw_timer_add true 500 (some 7) 2)) :=
    ⟨by decide +kernel, Or.inl (by decide +kernel)⟩
  have hearly := h (slowRun.take 3) ⟨100, .call (.gw_timer_add true 500 (some 7) 2)⟩
    [⟨100, .callback_returns 100⟩, ⟨100, .next_expired 100 100⟩, ⟨101, .begin_pass 101⟩]
    ⟨101, .next_expired 101 101⟩ [] 2 rfl hbegins (by simp) (by decide +kernel)
  exact absurd hearly (by decide +kernel)

end gwdonu.timer
