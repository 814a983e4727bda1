-- A switch that answers every hello is not reported offline, unless it has just replaced
-- another one.
import Gwdonu.SwitchRounds

namespace gwdonu.false_outages

open Function runs switch_monitor
open oam (Mem)
open rcp (MAX_RRCP_SWITCH_TO_MANAGE)

/-! ## The law -/

/-- The step says hello to the switch at the port. -/
def Hellos (p : Nat) (s : State) (e : Event) : Prop := s.pc = .hello p ∧ (s.step e).pc = .status p

/-- The step writes the status of the port. -/
def Polls (p : Nat) (s : State) (e : Event) : Prop := s.pc = .status p ∧ (s.step e).pc = .hello (p + 1)

/-- The check reports that the switch at the port was replaced. -/
def Replaces (p : Nat) (s : State) (e : Event) : Prop :=
  s.pc = .register p ∧ (s.step e).pc = .check (p + 1) ∧
    ∃ dev ∈ s.rcpDevList p, dev.previousswitchMac ≠ nullMac ∧ ¬ dev.handled

section
variable (p : Nat) (s : State) (e : Event)

instance : Decidable (Hellos p s e) := inferInstanceAs (Decidable (_ ∧ _))

instance : Decidable (Replaces p s e) := inferInstanceAs (Decidable (_ ∧ _ ∧ _))

end

/-- The run as the switch at one port sees it: whether the last hello to it waits for its answer,
and whether none came since the check found that it had replaced another switch. -/
structure Watch where
  state : State
  awaiting : Bool
  replaced : Bool

def Watch.init (mal : Bool) : Watch := ⟨State.init mal, false, false⟩

def Watch.step (p : Nat) (w : Watch) (e : Event) : Watch where
  state := w.state.step e
  awaiting := if w.state.Answered p e then false else if Hellos p w.state e then true else w.awaiting
  replaced := if w.state.Answered p e then false else if Replaces p w.state e then true else w.replaced

/-- The port is up, and each hello to the switch at it was answered before the next one. -/
structure Steady (p : Nat) (w : Watch) (e : Event) : Prop where
  up : ∀ env, e = .monitor env → env.up p = true
  answered : Hellos p w.state e → w.awaiting = false

/-- After a switch was replaced, the new one is heard of before its status is written again; and
the old one is not back when it is reported offline. -/
structure Careful (p : Nat) (w : Watch) (e : Event) : Prop where
  heard : Polls p w.state e → w.replaced = false
  new : Replaces p w.state e → ∀ dev ∈ w.state.rcpDevList p, dev.switchMac ≠ dev.previousswitchMac

/-- The step reports that the switch at the port is registered, or registered again. -/
def Registers (p : Nat) (s : State) (e : Event) : Prop :=
  ∃ r ∈ news s (s.step e), r.port = p ∧ r.msgType ≠ ONU_SWITCH_STATUS_CHANGE_ALM_OFFLINE

/-- An OFFLINE alarm with the MAC of the switch at the port is one of another port, whose record
names it. -/
def Quiet (p : Nat) (w : Watch) (e : Event) : Prop :=
  ∀ r ∈ news w.state (w.state.step e), r.msgType = ONU_SWITCH_STATUS_CHANGE_ALM_OFFLINE →
    ∀ dev ∈ w.state.rcpDevList p, r.mac = dev.switchMac →
      r.port ≠ p ∧ ∃ other ∈ w.state.rcpDevList r.port,
        r.mac = other.switchMac ∨ r.mac = other.previousswitchMac

/-! ## Records -/

section
variable {p : Nat} {dev : RCP_DEV} {s t : State} {w : Watch} {e : Event} {env : Env} {pc pc' : Pc}
  {awaiting awaiting' replaced replaced' : Bool}

theorem poll_count (dev : RCP_DEV) : dev.poll.timeoutCounter.toNat =
    if dev.timeoutCounter.toNat < 2 then dev.timeoutCounter.toNat + 1 else dev.timeoutCounter.toNat := by
  unfold RCP_DEV.poll
  have hiff : dev.timeoutCounter < RCP_KEEP_ALIVE_TIMEOUT_DEF ↔ dev.timeoutCounter.toNat < 2 := UInt8.lt_iff_toNat_lt
  by_cases hlt : dev.timeoutCounter < RCP_KEEP_ALIVE_TIMEOUT_DEF
  · have hnat := hiff.mp hlt
    rw [if_pos hlt, if_pos hnat]
    change (dev.timeoutCounter + 1).toNat = _
    rw [UInt8.toNat_add]
    change (dev.timeoutCounter.toNat + 1) % 256 = _
    omega
  · rw [if_neg hlt, if_neg fun h => hlt (hiff.mpr h)]

/-- A switch that was heard of in time is online. -/
theorem poll_heard (hcount : dev.timeoutCounter.toNat < 2) (hflag : dev.timeoutFlag ≠ 1) :
    dev.poll.timeoutFlag ≠ 1 ∧ dev.poll.onlineStatus = 1 := by
  have hlt : dev.timeoutCounter < RCP_KEEP_ALIVE_TIMEOUT_DEF := UInt8.lt_iff_toNat_lt.mpr hcount
  unfold RCP_DEV.poll
  rw [if_pos hlt]
  exact ⟨hflag, if_neg hflag⟩

theorem poll_online (h : dev.poll.onlineStatus = 1) : dev.poll.timeoutFlag ≠ 1 := by
  intro hflag
  have honline : dev.poll.onlineStatus = if dev.poll.timeoutFlag = 1 then 0 else 1 := rfl
  rw [if_pos hflag, h] at honline
  exact absurd honline (by decide)

theorem register_new (h : dev.previousswitchMac = nullMac) : dev.register =
    { dev with onlineStatus := 1, previousswitchMac := dev.switchMac, previousOnlineStatus := 1 } := by
  unfold RCP_DEV.register
  rw [if_pos h]

theorem register_known (h : dev.previousswitchMac ≠ nullMac) : dev.register =
    { dev with
      timeoutFlag := if dev.handled then dev.timeoutFlag else 1, alarmStatus := RCP_ALARM_STATUS_REGISTER
      previousswitchMac := dev.switchMac, previousOnlineStatus := dev.onlineStatus } := by
  unfold RCP_DEV.register
  rw [if_neg h]

theorem edit_some {i : Nat} {f : RCP_DEV → RCP_DEV} {u : State} (hu : u.rcpDevList = s.rcpDevList)
    (h : (u.edit i f).rcpDevList i = some dev) : ∃ old, s.rcpDevList i = some old ∧ dev = f old := by
  rw [edit_self, hu] at h
  obtain ⟨old, hold, rfl⟩ := Option.map_eq_some_iff.mp h
  exact ⟨old, hold, rfl⟩

/-- What the check makes of the record that it looks at. -/
theorem edit_known {i : Nat} {f : RCP_DEV → RCP_DEV} {u : State} {old : RCP_DEV} (hu : u.rcpDevList = s.rcpDevList)
    (hold : s.rcpDevList i = some old) (h : (u.edit i f).rcpDevList i = some dev) : dev = f old := by
  obtain ⟨old', hold', rfl⟩ := edit_some hu h
  rw [Option.some.inj (hold.symm.trans hold')]

/-! ## Every history -/

/-- What every run keeps of the record of the port. -/
structure Past (p : Nat) (pc : Pc) (awaiting replaced : Bool) (dev : RCP_DEV) : Prop where
  count : dev.timeoutCounter.toNat ≤ 2
  answered : awaiting = false → dev.timeoutCounter.toNat ≤ if pc = .status p then 0 else 1
  online : dev.onlineStatus = 1 → dev.timeoutFlag ≠ 1 ∨ replaced = true
  known : pc = .register p → dev.previousswitchMac ≠ nullMac → dev.onlineStatus = 1
  flag : pc = .register p → dev.timeoutFlag ≠ 1 ∨ replaced = true

theorem Past.answered_le (h : Past p pc awaiting replaced dev) (ha : awaiting = false) :
    dev.timeoutCounter.toNat ≤ 1 := by
  have hle := h.answered ha
  split at hle <;> omega

/-- The monitor goes on, and not to the end of its check of the port. -/
theorem Past.moves (h : Past p pc awaiting replaced dev)
    (hstatus : awaiting' = false → awaiting = false ∧ pc' ≠ .status p)
    (hregister : pc' ≠ .register p) (hreplaced : replaced = true → replaced' = true) :
    Past p pc' awaiting' replaced' dev := by
  refine ⟨h.count, ?_, ?_, fun hpc => absurd hpc hregister, fun hpc => absurd hpc hregister⟩
  · intro ha
    obtain ⟨hold, hne⟩ := hstatus ha
    rw [if_neg hne]
    exact h.answered_le hold
  · exact fun hon => (h.online hon).imp id hreplaced

/-- The check goes on behind a port, with its counter as it was. -/
theorem Past.checked {old : RCP_DEV} (h : Past p pc awaiting replaced old)
    (hcount : dev.timeoutCounter = old.timeoutCounter) (ha : awaiting' = awaiting) (hregister : pc' ≠ .register p)
    (hstatus : pc' ≠ .status p) (honline : dev.onlineStatus = 1 → dev.timeoutFlag ≠ 1 ∨ replaced' = true) :
    Past p pc' awaiting' replaced' dev := by
  refine ⟨?_, ?_, honline, fun hpc => absurd hpc hregister, fun hpc => absurd hpc hregister⟩
  · rw [hcount]
    exact h.count
  · intro hno
    rw [if_neg hstatus, hcount]
    exact h.answered_le (ha.symm.trans hno)

/-- What a step of the monitor does to the rest of the watch. -/
structure Carries (p : Nat) (s t : State) (awaiting replaced awaiting' replaced' : Bool) : Prop where
  hello : s.pc = .hello p → t.pc = .status p → awaiting' = true
  same : t.pc ≠ .status p → awaiting' = awaiting
  kept : replaced = true → replaced' = true
  replaces : s.pc = .register p → t.pc = .check (p + 1) →
    (∃ dev ∈ s.rcpDevList p, dev.previousswitchMac ≠ nullMac ∧ ¬ dev.handled) → replaced' = true

theorem monitor_carries (p : Nat) (w : Watch) (env : Env) :
    Carries p w.state (w.state.monitor env) w.awaiting w.replaced (w.step p (.monitor env)).awaiting
      (w.step p (.monitor env)).replaced := by
  have hanswered : ¬ w.state.Answered p (.monitor env) := not_false
  have hawaiting : (w.step p (.monitor env)).awaiting =
      if Hellos p w.state (.monitor env) then true else w.awaiting := by
    rw [Watch.step, if_neg hanswered]
  have hreplaced : (w.step p (.monitor env)).replaced =
      if Replaces p w.state (.monitor env) then true else w.replaced := by
    rw [Watch.step]
    dsimp only
    rw [if_neg hanswered]
  refine ⟨?_, ?_, ?_, ?_⟩
  · intro hpc hto
    rw [hawaiting, if_pos ⟨hpc, hto⟩]
  · intro hto
    rw [hawaiting, if_neg fun h => hto h.2]
  · intro hold
    rw [hreplaced, hold, ite_self]
  · intro hpc hto hdev
    rw [hreplaced, if_pos ⟨hpc, hto, hdev⟩]

/-- The monitor moves on, and leaves the records. -/
theorem moved_past (hc : Carries p s t awaiting replaced awaiting' replaced')
    (hpast : ∀ dev, s.rcpDevList p = some dev → Past p s.pc awaiting replaced dev)
    (hlist : t.rcpDevList = s.rcpDevList) (hregister : t.pc ≠ .register p)
    (hstatus : t.pc = .status p → s.pc = .hello p) :
    ∀ dev, t.rcpDevList p = some dev → Past p t.pc awaiting' replaced' dev := by
  intro dev hdev
  rw [hlist] at hdev
  refine (hpast dev hdev).moves ?_ hregister hc.kept
  intro ha
  by_cases hto : t.pc = .status p
  · rw [hc.hello (hstatus hto) hto] at ha
    cases ha
  · exact ⟨(hc.same hto).symm.trans ha, hto⟩

theorem turn_past (h : s.Turn env t) (hc : Carries p s t awaiting replaced awaiting' replaced')
    (hpast : ∀ dev, s.rcpDevList p = some dev → Past p s.pc awaiting replaced dev) :
    ∀ dev, t.rcpDevList p = some dev → Past p t.pc awaiting' replaced' dev := by
  by_cases hp : s.pc.port = some p
  swap
  · obtain ⟨hrecord, hcomes, -⟩ := turn_elsewhere h hp
    have hstatus : t.pc ≠ .status p := by
      intro hto
      rcases hcomes (by rw [hto]; rfl) with hpc | hpc <;> rw [hto] at hpc <;> cases hpc
    have hregister : t.pc ≠ .register p := by
      intro hto
      rcases hcomes (by rw [hto]; rfl) with hpc | hpc <;> rw [hto] at hpc <;> cases hpc
    intro dev hdev
    rw [hrecord] at hdev
    exact (hpast dev hdev).moves (fun ha => ⟨(hc.same hstatus).symm.trans ha, hstatus⟩) hregister hc.kept
  cases h with
  | waits hpc | begins hpc | skips hpc | checks hpc | leaves hpc => rw [hpc] at hp; cases hp
  | ends i _ hpc => exact moved_past hc hpast rfl nofun nofun
  | rests | passes | empty | stays | unread | searched | looks | others | vanished =>
    exact moved_past hc hpast rfl nofun nofun
  | hello i hpc =>
    rw [hpc] at hp
    obtain rfl := Option.some.inj hp
    exact moved_past hc hpast rfl nofun fun _ => hpc
  | absent i dev pc hat _ _ hto =>
    rcases hto with ⟨-, rfl⟩ | ⟨-, rfl⟩
    · exact moved_past hc hpast rfl nofun nofun
    · exact moved_past hc hpast rfl nofun nofun
  | reads i dev hat hexist =>
    rw [hat.pc] at hp
    obtain rfl := Option.some.inj hp
    intro found hfound
    obtain rfl := Option.some.inj (hat.found.symm.trans hfound)
    have hold := hpast dev hat.found
    have honline := (hold.online hexist.2).imp id hc.kept
    refine ⟨hold.count, ?_, fun _ => honline, fun _ _ => hexist.2, fun _ => honline⟩
    intro ha
    exact hold.answered_le ((hc.same nofun).symm.trans ha)
  | polls i hpc =>
    rw [hpc] at hp
    obtain rfl := Option.some.inj hp
    intro dev hdev
    obtain ⟨old, hold, rfl⟩ := edit_some rfl hdev
    have hpast := hpast old hold
    have hcount := hpast.count
    refine ⟨?_, ?_, fun hon => .inl (poll_online hon), nofun, nofun⟩
    · rw [poll_count]
      split <;> omega
    · intro ha
      have hzero := hpast.answered ((hc.same nofun).symm.trans ha)
      rw [if_pos hpc] at hzero
      rw [poll_count, if_pos (by omega), if_neg nofun]
      omega
  | falls i dev hat _ hfell =>
    rw [hat.pc] at hp
    obtain rfl := Option.some.inj hp
    intro found hfound
    obtain rfl := edit_known (report_list ..) hat.found hfound
    refine (hpast dev hat.found).checked rfl (hc.same nofun) nofun nofun fun hon => ?_
    exact absurd (hfell.1.symm.trans hon) (by decide)
  | rises i dev hat =>
    rw [hat.pc] at hp
    obtain rfl := Option.some.inj hp
    intro found hfound
    obtain rfl := edit_known (report_list ..) hat.found hfound
    have hold := hpast dev hat.found
    exact hold.checked rfl (hc.same nofun) nofun nofun fun hon => (hold.online hon).imp id hc.kept
  | rises_quietly i dev hat =>
    rw [hat.pc] at hp
    obtain rfl := Option.some.inj hp
    intro found hfound
    obtain rfl := edit_known rfl hat.found hfound
    have hold := hpast dev hat.found
    exact hold.checked rfl (hc.same nofun) nofun nofun fun hon => (hold.online hon).imp id hc.kept
  | clears i j hpc =>
    have hi : i = p := by rcases hpc with hpc | hpc <;> rw [hpc] at hp <;> exact Option.some.inj hp
    subst hi
    intro found hfound
    obtain ⟨old, hold, rfl⟩ := edit_some rfl hfound
    refine (hpast old hold).checked rfl (hc.same nofun) nofun nofun fun hon => ?_
    exact absurd hon (by decide : (0 : UInt8) ≠ 1)
  | replaces i dev hpc hfound hknown hhandled =>
    rw [hpc] at hp
    obtain rfl := Option.some.inj hp
    intro found hnow
    obtain rfl := edit_known ((report_list ..).trans (report_list ..)) hfound hnow
    have hreplaced := hc.replaces hpc rfl ⟨dev, hfound, hknown, hhandled⟩
    rw [register_known hknown]
    exact (hpast dev hfound).checked rfl (hc.same nofun) nofun nofun fun _ => .inr hreplaced
  | registers i dev hpc hfound hcase =>
    rw [hpc] at hp
    obtain rfl := Option.some.inj hp
    intro found hnow
    obtain rfl := edit_known (report_list ..) hfound hnow
    have hold := hpast dev hfound
    by_cases hnew : dev.previousswitchMac = nullMac
    · rw [register_new hnew]
      exact hold.checked rfl (hc.same nofun) nofun nofun fun _ => (hold.flag hpc).imp id hc.kept
    · have hhandled := hcase.resolve_left hnew
      rw [register_known hnew, if_pos hhandled]
      exact hold.checked rfl (hc.same nofun) nofun nofun fun hon => (hold.online hon).imp id hc.kept

def PastWatch (p : Nat) (w : Watch) : Prop :=
  ∀ dev, w.state.rcpDevList p = some dev → Past p w.state.pc w.awaiting w.replaced dev

/-- What an event that is no step of the monitor does to the watch. -/
theorem outside_watch (p : Nat) (w : Watch) (hev : ∀ env, e ≠ .monitor env) :
    (w.state.Answered p e → (w.step p e).awaiting = false ∧ (w.step p e).replaced = false) ∧
      (¬ w.state.Answered p e → (w.step p e).awaiting = w.awaiting ∧ (w.step p e).replaced = w.replaced) := by
  have hpc := (event_outside (s := w.state) p hev).2.1
  have hhello : ¬ Hellos p w.state e := by
    rintro ⟨hold, hnew⟩
    rw [hpc, hold] at hnew
    cases hnew
  have hreplace : ¬ Replaces p w.state e := by
    rintro ⟨hold, hnew, -⟩
    rw [hpc, hold] at hnew
    cases hnew
  unfold Watch.step
  dsimp only
  refine ⟨fun h => ?_, fun h => ?_⟩
  · rw [if_pos h, if_pos h]
    exact ⟨rfl, rfl⟩
  · rw [if_neg h, if_neg h, if_neg hhello, if_neg hreplace]
    exact ⟨rfl, rfl⟩

theorem past_step (p : Nat) (w : Watch) (e : Event) (h : PastWatch p w) : PastWatch p (w.step p e) := by
  by_cases hmonitor : ∃ env, e = .monitor env
  · obtain ⟨env, rfl⟩ := hmonitor
    exact turn_past (monitor_turn w.state env) (monitor_carries p w env) h
  · have hev : ∀ env, e ≠ .monitor env := not_exists.mp hmonitor
    obtain ⟨hyes, hno⟩ := outside_watch p w hev
    obtain ⟨houtside, hpc, -⟩ := event_outside (s := w.state) p hev
    intro dev hdev
    change (w.state.step e).rcpDevList p = some dev at hdev
    change Past p (w.state.step e).pc _ _ dev
    rw [hpc]
    cases houtside with
    | answers old mac mask hanswered hold hnew =>
      rw [hnew] at hdev
      obtain rfl := Option.some.inj hdev
      obtain ⟨ha, hr⟩ := hyes hanswered
      rw [ha, hr]
      refine ⟨Nat.zero_le 2, fun _ => Nat.zero_le _, fun _ => .inl (by decide : (0 : UInt8) ≠ 1), ?_,
        fun _ => .inl (by decide : (0 : UInt8) ≠ 1)⟩
      rcases hold with hold | ⟨-, rfl⟩
      · exact (h old hold).known
      · exact fun _ hnull => absurd rfl hnull
    | drops _ hnew =>
      rw [hnew] at hdev
      cases hdev
    | keeps hanswered hnew =>
      obtain ⟨ha, hr⟩ := hno hanswered
      rw [ha, hr]
      rw [hnew] at hdev
      exact h dev hdev
    | masks m hanswered hnew =>
      obtain ⟨ha, hr⟩ := hno hanswered
      rw [ha, hr]
      rw [hnew] at hdev
      obtain ⟨old, hold, rfl⟩ := Option.map_eq_some_iff.mp hdev
      obtain ⟨hcount, hans, honline, hknown, hflag⟩ := h old hold
      exact ⟨hcount, hans, honline, hknown, hflag⟩

theorem past_run (p : Nat) (mal : Bool) (es : List Event) : PastWatch p (run (Watch.step p) (Watch.init mal) es) :=
  run_inv (P := fun _ _ => True) (fun w e h _ => past_step p w e h) nofun (along_true _ es)

/-! ## A switch that is there -/

/-- The switch was not online since its record was made. -/
structure Unseen (dev : RCP_DEV) : Prop where
  online : dev.onlineStatus = 0
  previous : dev.previousOnlineStatus = 0
  handled : ¬ dev.handled

/-- The switch at the port answers in time. -/
structure Present (p : Nat) (pc : Pc) (awaiting replaced : Bool) (dev : RCP_DEV) : Prop where
  flag : dev.timeoutFlag ≠ 1 ∨ replaced = true
  count : dev.timeoutCounter.toNat + (if pc = .status p then 1 else 0) ≤ if awaiting then 2 else 1
  status : dev.onlineStatus = 1 ∨ Unseen dev

/-- And it is not looked for at other ports. -/
structure PresentWatch (p : Nat) (w : Watch) : Prop where
  search : ∀ j, w.state.pc ≠ .clear p j ∧ w.state.pc ≠ .appear p j
  record : ∀ dev, w.state.rcpDevList p = some dev → Present p w.state.pc w.awaiting w.replaced dev

theorem Present.not_fell (h : Present p pc awaiting replaced dev) : ¬ dev.Fell := by
  rintro ⟨hoff, hon⟩
  rcases h.status with honline | hunseen
  · rw [hoff] at honline
    exact absurd honline (by decide)
  · rw [hunseen.previous] at hon
    exact absurd hon (by decide)

/-- The monitor goes on, not between a hello and the status. -/
theorem Present.moves (h : Present p pc awaiting replaced dev) (hfrom : pc ≠ .status p) (hto : pc' ≠ .status p) :
    Present p pc' awaiting replaced dev := by
  obtain ⟨hflag, hcount, hstatus⟩ := h
  rw [if_neg hfrom] at hcount
  refine ⟨hflag, ?_, hstatus⟩
  rw [if_neg hto]
  exact hcount

theorem zero_bit : (0 : UInt8) &&& RCP_ALARM_STATUS_OFFLINE = 0 := by decide

theorem register_bit : RCP_ALARM_STATUS_REGISTER &&& RCP_ALARM_STATUS_OFFLINE = 0 := by decide

theorem register_unhandled (h : dev.previousswitchMac ≠ nullMac) : ¬ dev.register.handled := by
  rw [register_known h]
  exact not_not.mpr register_bit

/-- A registered switch is there. -/
theorem Present.register (h : Present p pc awaiting replaced dev) (hfrom : pc ≠ .status p) (hto : pc' ≠ .status p)
    (hreplaced : replaced = true → replaced' = true)
    (hcase : dev.previousswitchMac = nullMac ∨ dev.handled ∨ replaced' = true) :
    Present p pc' awaiting replaced' dev.register := by
  obtain ⟨hflag, hcount, hstatus⟩ := h.moves hfrom hto
  by_cases hnew : dev.previousswitchMac = nullMac
  · rw [register_new hnew]
    exact ⟨hflag.imp id hreplaced, hcount, .inl rfl⟩
  · have hunhandled := register_unhandled hnew
    rw [register_known hnew] at hunhandled ⊢
    refine ⟨?_, hcount, ?_⟩
    · by_cases hhandled : dev.handled
      · rw [if_pos hhandled]
        exact hflag.imp id hreplaced
      · exact .inr ((hcase.resolve_left hnew).resolve_left hhandled)
    · exact hstatus.imp id fun hunseen => ⟨hunseen.online, hunseen.online, hunhandled⟩

/-- What a step of the monitor leaves of the port. -/
def Stays (p : Nat) (t : State) (awaiting replaced : Bool) : Prop :=
  (∀ j, t.pc ≠ .clear p j ∧ t.pc ≠ .appear p j) ∧
    ∀ dev, t.rcpDevList p = some dev → Present p t.pc awaiting replaced dev

/-- The monitor moves on, and leaves the records. -/
theorem moved_stays (hc : Carries p s t awaiting replaced awaiting' replaced')
    (hpresent : ∀ dev, s.rcpDevList p = some dev → Present p s.pc awaiting replaced dev)
    (hrecord : t.rcpDevList p = s.rcpDevList p) (hfrom : s.pc ≠ .status p) (hto : t.pc ≠ .status p)
    (hsearch : ∀ j, t.pc ≠ .clear p j ∧ t.pc ≠ .appear p j) : Stays p t awaiting' replaced' := by
  refine ⟨hsearch, ?_⟩
  intro dev hdev
  rw [hrecord] at hdev
  obtain ⟨hflag, hcount, hstatus⟩ := (hpresent dev hdev).moves hfrom hto
  rw [hc.same hto]
  exact ⟨hflag.imp id hc.kept, hcount, hstatus⟩

theorem turn_stays (h : s.Turn env t) (hc : Carries p s t awaiting replaced awaiting' replaced')
    (hup : env.up p = true) (hanswered : s.pc = .hello p → t.pc = .status p → awaiting = false)
    (hheard : s.pc = .status p → t.pc = .hello (p + 1) → replaced = false)
    (hsearch : ∀ j, s.pc ≠ .clear p j ∧ s.pc ≠ .appear p j)
    (hpresent : ∀ dev, s.rcpDevList p = some dev → Present p s.pc awaiting replaced dev) :
    Stays p t awaiting' replaced' := by
  by_cases hp : s.pc.port = some p
  swap
  · obtain ⟨hrecord, hcomes, -⟩ := turn_elsewhere h hp
    refine moved_stays hc hpresent hrecord (fun hpc => hp (by rw [hpc]; rfl)) ?_ fun j => ⟨?_, ?_⟩ <;> intro hto <;>
      rcases hcomes (by rw [hto]; rfl) with hpc | hpc <;> rw [hto] at hpc <;> cases hpc
  cases h with
  | waits hpc | begins hpc | skips hpc | checks hpc | leaves hpc => rw [hpc] at hp; cases hp
  | ends i _ hpc | rests i hpc | passes i hpc | empty i hpc | vanished i hpc =>
    exact moved_stays hc hpresent rfl (by rw [hpc]; nofun) nofun fun j => ⟨nofun, nofun⟩
  | stays i dev hat | unread i dev hat | reads i dev hat =>
    exact moved_stays hc hpresent rfl (by rw [hat.pc]; nofun) nofun fun j => ⟨nofun, nofun⟩
  | searched i j hpc | looks i j hpc =>
    rw [hpc] at hp
    obtain rfl := Option.some.inj hp
    exact absurd hpc (hsearch j).1
  | others i j hpc | clears i j hpc =>
    have hi : i = p := by rcases hpc with hpc | hpc <;> rw [hpc] at hp <;> exact Option.some.inj hp
    subst hi
    rcases hpc with hpc | hpc
    · exact absurd hpc (hsearch j).1
    · exact absurd hpc (hsearch j).2
  | hello i hpc =>
    rw [hpc] at hp
    obtain rfl := Option.some.inj hp
    refine ⟨fun j => ⟨nofun, nofun⟩, ?_⟩
    intro dev hdev
    obtain ⟨hflag, hcount, hstatus⟩ := hpresent dev hdev
    rw [hpc, hanswered hpc rfl, if_neg nofun] at hcount
    refine ⟨hflag.imp id hc.kept, ?_, hstatus⟩
    rw [hc.hello hpc rfl, if_pos rfl, if_pos rfl]
    exact Nat.succ_le_succ hcount
  | polls i hpc =>
    rw [hpc] at hp
    obtain rfl := Option.some.inj hp
    refine ⟨fun j => ⟨nofun, nofun⟩, ?_⟩
    intro dev hdev
    obtain ⟨old, hold, rfl⟩ := edit_some rfl hdev
    obtain ⟨hflag, hcount, -⟩ := hpresent old hold
    rw [hheard hpc rfl] at hflag
    rw [hpc, if_pos rfl] at hcount
    have hlt : old.timeoutCounter.toNat < 2 := by split at hcount <;> omega
    obtain ⟨hflag, honline⟩ := poll_heard hlt (hflag.resolve_right Bool.false_ne_true)
    refine ⟨.inl hflag, ?_, .inl honline⟩
    rw [poll_count, if_pos hlt, if_neg nofun, hc.same nofun]
    exact hcount
  | falls i dev hat _ hfell =>
    rw [hat.pc] at hp
    obtain rfl := Option.some.inj hp
    exact absurd hfell (hpresent dev hat.found).not_fell
  | absent i dev pc hat hexist _ hto =>
    rw [hat.pc] at hp
    obtain rfl := Option.some.inj hp
    have hunseen : Unseen dev := by
      rcases (hpresent dev hat.found).status with honline | hunseen
      · exact absurd ⟨hup, honline⟩ hexist
      · exact hunseen
    rcases hto with ⟨hhandled, -⟩ | ⟨-, rfl⟩
    · exact absurd hhandled hunseen.handled
    · exact moved_stays hc hpresent rfl (by rw [hat.pc]; nofun) nofun fun j => ⟨nofun, nofun⟩
  | rises i dev hat hexist | rises_quietly i dev hat hexist =>
    rw [hat.pc] at hp
    obtain rfl := Option.some.inj hp
    refine ⟨fun j => ⟨nofun, nofun⟩, ?_⟩
    intro found hfound
    obtain rfl := edit_known (by first | exact report_list .. | rfl) hat.found hfound
    have hmoved : Present i (.check (i + 1)) awaiting replaced dev :=
      (hpresent dev hat.found).moves (by rw [hat.pc]; nofun) nofun
    obtain ⟨hflag, hcount, -⟩ := hmoved
    refine ⟨hflag.imp id hc.kept, ?_, .inl hexist.2⟩
    rw [hc.same nofun]
    exact hcount
  | replaces i dev hpc hfound hknown hhandled =>
    rw [hpc] at hp
    obtain rfl := Option.some.inj hp
    refine ⟨fun j => ⟨nofun, nofun⟩, ?_⟩
    intro found hnow
    obtain rfl := edit_known ((report_list ..).trans (report_list ..)) hfound hnow
    rw [hc.same nofun]
    refine (hpresent dev hfound).register (by rw [hpc]; nofun) nofun hc.kept (.inr (.inr ?_))
    exact hc.replaces hpc rfl ⟨dev, hfound, hknown, hhandled⟩
  | registers i dev hpc hfound hcase =>
    rw [hpc] at hp
    obtain rfl := Option.some.inj hp
    refine ⟨fun j => ⟨nofun, nofun⟩, ?_⟩
    intro found hnow
    obtain rfl := edit_known (report_list ..) hfound hnow
    rw [hc.same nofun]
    exact (hpresent dev hfound).register (by rw [hpc]; nofun) nofun hc.kept (hcase.imp id .inl)

theorem present_step (hs : Steady p w e) (hc : Careful p w e) (h : PresentWatch p w) : PresentWatch p (w.step p e) := by
  by_cases hmonitor : ∃ env, e = .monitor env
  · obtain ⟨env, rfl⟩ := hmonitor
    obtain ⟨hsearch, hrecord⟩ := turn_stays (monitor_turn w.state env) (monitor_carries p w env) (hs.up env rfl)
      (fun hpc hto => hs.answered ⟨hpc, hto⟩) (fun hpc hto => hc.heard ⟨hpc, hto⟩) h.search h.record
    exact ⟨hsearch, hrecord⟩
  · have hev : ∀ env, e ≠ .monitor env := not_exists.mp hmonitor
    obtain ⟨hyes, hno⟩ := outside_watch p w hev
    obtain ⟨houtside, hpc, -⟩ := event_outside (s := w.state) p hev
    refine ⟨fun j => ?_, ?_⟩
    · change (w.state.step e).pc ≠ _ ∧ (w.state.step e).pc ≠ _
      rw [hpc]
      exact h.search j
    intro dev hdev
    change (w.state.step e).rcpDevList p = some dev at hdev
    change Present p (w.state.step e).pc _ _ dev
    rw [hpc]
    cases houtside with
    | answers old mac mask hanswered hold hnew =>
      rw [hnew] at hdev
      obtain rfl := Option.some.inj hdev
      obtain ⟨ha, hr⟩ := hyes hanswered
      rw [ha, hr]
      refine ⟨.inl (by decide : (0 : UInt8) ≠ 1), ?_, ?_⟩
      · change 0 + _ ≤ _
        split <;> decide
      · rcases hold with hold | ⟨-, rfl⟩
        · exact (h.record old hold).status.imp id fun hunseen => ⟨hunseen.online, hunseen.previous, hunseen.handled⟩
        · exact .inr ⟨rfl, rfl, not_not.mpr zero_bit⟩
    | drops _ hnew =>
      rw [hnew] at hdev
      cases hdev
    | keeps hanswered hnew =>
      obtain ⟨ha, hr⟩ := hno hanswered
      rw [ha, hr]
      rw [hnew] at hdev
      exact h.record dev hdev
    | masks m hanswered hnew =>
      obtain ⟨ha, hr⟩ := hno hanswered
      rw [ha, hr]
      rw [hnew] at hdev
      obtain ⟨old, hold, rfl⟩ := Option.map_eq_some_iff.mp hdev
      obtain ⟨hflag, hcount, hstatus⟩ := h.record old hold
      exact ⟨hflag, hcount, hstatus.imp id fun hunseen => ⟨hunseen.online, hunseen.previous, hunseen.handled⟩⟩

/-- The only alarm about the port is the one about the switch that was replaced. -/
theorem present_quiet (hc : Careful p w e) (h : PresentWatch p w) : Quiet p w e := by
  intro r hr htype dev hdev hmac
  by_cases hmonitor : ∃ env, e = .monitor env
  · obtain ⟨env, rfl⟩ := hmonitor
    obtain ⟨other, hother, -, ⟨-, -, hfell, hnamed⟩ | ⟨hpc, hto, hknown, hhandled, hnamed⟩⟩ :=
      offline_news (monitor_turn w.state env) r hr htype
    · refine ⟨?_, other, hother, .inl hnamed⟩
      intro hport
      rw [hport] at hother
      exact (h.record other hother).not_fell hfell
    · refine ⟨?_, other, hother, .inr hnamed⟩
      intro hport
      rw [hport] at hother hpc hto
      obtain rfl := Option.some.inj (hother.symm.trans hdev)
      exact hc.new ⟨hpc, hto, other, hother, hknown, hhandled⟩ other hother (hmac.symm.trans hnamed)
  · obtain ⟨-, -, hreports⟩ := event_outside (s := w.state) p (not_exists.mp hmonitor)
    rw [news_same hreports] at hr
    cases hr

theorem Past.present (h : Past p pc awaiting replaced dev) (hto : pc' ≠ .status p)
    (hflag : dev.timeoutFlag ≠ 1 ∨ replaced = true) (honline : dev.onlineStatus = 1) :
    Present p pc' awaiting replaced dev := by
  refine ⟨hflag, ?_, .inl honline⟩
  rw [if_neg hto]
  cases awaiting with
  | true => exact h.count
  | false => exact h.answered_le rfl

/-- A switch that is reported registered is there. -/
theorem registers_present (h : PastWatch p w) (hreg : Registers p w.state e) : PresentWatch p (w.step p e) := by
  obtain ⟨r, hr, hport, htype⟩ := hreg
  by_cases hmonitor : ∃ env, e = .monitor env
  swap
  · obtain ⟨-, -, hreports⟩ := event_outside (s := w.state) p (not_exists.mp hmonitor)
    rw [news_same hreports] at hr
    cases hr
  obtain ⟨env, rfl⟩ := hmonitor
  have hc := monitor_carries p w env
  have hturn := monitor_turn w.state env
  suffices hstays : Stays p (w.state.monitor env) (w.step p (.monitor env)).awaiting
      (w.step p (.monitor env)).replaced from ⟨hstays.1, hstays.2⟩
  change r ∈ news w.state (w.state.monitor env) at hr
  generalize w.state.monitor env = t at hc hturn hr ⊢
  have hsame : ∀ u : State, u.reports = w.state.reports → r ∉ news w.state u := by
    intro u hu
    rw [news_same hu]
    exact List.not_mem_nil
  cases hturn with
  | falls i dev hat =>
    obtain rfl := List.mem_singleton.mp (mem_news hr (report_reports ..))
    exact absurd rfl htype
  | rises i dev hat hexist =>
    obtain rfl := List.mem_singleton.mp (mem_news hr (report_reports ..))
    obtain rfl : i = p := hport
    refine ⟨fun j => ⟨nofun, nofun⟩, ?_⟩
    intro found hfound
    obtain rfl := edit_known (report_list ..) hat.found hfound
    have hpresent : Present i (.check (i + 1)) w.awaiting w.replaced dev :=
      (h dev hat.found).present nofun ((h dev hat.found).online hexist.2) hexist.2
    obtain ⟨hflag, hcount, -⟩ := hpresent
    rw [hc.same nofun]
    exact ⟨hflag.imp id hc.kept, hcount, .inl hexist.2⟩
  | replaces i dev hpc hfound hknown hhandled =>
    obtain rfl : i = p := by
      rcases List.mem_cons.mp (mem_news hr (replace_reports i dev)) with rfl | hr
      · exact hport
      · obtain rfl := List.mem_singleton.mp hr
        exact hport
    refine ⟨fun j => ⟨nofun, nofun⟩, ?_⟩
    intro found hnow
    obtain rfl := edit_known ((report_list ..).trans (report_list ..)) hfound hnow
    have hpast := h dev hfound
    have hpresent : Present i (.check (i + 1)) w.awaiting w.replaced dev :=
      hpast.present nofun (hpast.flag hpc) (hpast.known hpc hknown)
    rw [hc.same nofun]
    exact hpresent.register nofun nofun hc.kept (.inr (.inr (hc.replaces hpc rfl ⟨dev, hfound, hknown, hhandled⟩)))
  | registers i dev hpc hfound hcase =>
    obtain rfl := List.mem_singleton.mp (mem_news hr (report_reports ..))
    obtain rfl : i = p := hport
    refine ⟨fun j => ⟨nofun, nofun⟩, ?_⟩
    intro found hnow
    obtain rfl := edit_known (report_list ..) hfound hnow
    have hpast := h dev hfound
    rw [hc.same nofun]
    by_cases hnew : dev.previousswitchMac = nullMac
    · rw [register_new hnew]
      refine ⟨(hpast.flag hpc).imp id hc.kept, ?_, .inl rfl⟩
      rw [if_neg nofun]
      cases hawaiting : w.awaiting with
      | true => exact hpast.count
      | false => exact hpast.answered_le hawaiting
    · have hpresent : Present i (.check (i + 1)) w.awaiting w.replaced dev :=
        hpast.present nofun (hpast.flag hpc) (hpast.known hpc hnew)
      exact hpresent.register nofun nofun hc.kept (hcase.imp id .inl)
  | _ => exact absurd hr (hsame _ rfl)

end

/-! ## Every run -/

/-- A step in which all ports are up, every discovery succeeds and every alarm is sent on. -/
def calm (n : Nat) : Env where
  g_onu_tx_policy := true
  up _ := true
  info := true
  mal k := some (2 * n + k)
  body _ := true
  onuRegister := false
  sends _ := true

/-- The hello reply of a switch on port 1 whose MAC ends in `last`. -/
def helloReply (last : UInt8) : Event := .frame true 1 64 fun i =>
  if i = 11 then last else if i = 12 then 0x81 else if i = 16 then 0x88 else if i = 17 then 0x99
  else if i = 18 then 0x01 else if i = 19 then 0x80 else if i = 30 then 0x0c else 0

/-- Steps of the monitor, from the one with number `n` on. -/
def steps (n k : Nat) : List Event := (List.range' n k).map fun i => .monitor (calm i)

/-- The first switch answers, and the check has come to its registration. -/
def registration : List Event := helloReply 1 :: steps 0 30

/-- It answers once more and is replaced; its successor answers two hellos, before and after the
check finds it. -/
def replacement : List Event := helloReply 1 :: steps 31 54 ++ helloReply 2 :: steps 85 56 ++ [helloReply 2]

theorem registration_registers (e : Event) (he : e = .monitor (calm 30)) :
    Registers 1 (run (Watch.step 1) (Watch.init true) registration).state e := by
  subst he
  refine ⟨⟨1, #v[0, 0, 0, 0, 0, 1], 1, some .RCP_OK⟩, ?_, rfl, by decide⟩
  decide +kernel

theorem steps_up {p n k : Nat} : ∀ e ∈ steps n k, ∀ env, e = .monitor env → env.up p = true := by
  intro e he env henv
  obtain ⟨i, -, rfl⟩ := List.mem_map.mp he
  cases henv
  rfl

theorem replacement_up : ∀ e ∈ replacement ++ [.monitor (calm 141)], ∀ env, e = .monitor env → env.up 1 = true := by
  intro e he env henv
  simp only [replacement, List.mem_append, List.mem_cons, List.not_mem_nil, or_false] at he
  rcases he with (((rfl | he) | rfl | he) | rfl) | rfl
  · cases henv
  · exact steps_up e he env henv
  · cases henv
  · exact steps_up e he env henv
  · cases henv
  · cases henv
    rfl

/-- An alarm that the switch at the port is offline is not queued. -/
def Silent (p : Nat) (w : Watch) (e : Event) : Prop :=
  ∀ r ∈ news w.state (w.state.step e), r.msgType = ONU_SWITCH_STATUS_CHANGE_ALM_OFFLINE →
    r.ret = some .RCP_OK → r.port = p → ∀ dev ∈ w.state.rcpDevList p, r.mac ≠ dev.switchMac

end gwdonu.false_outages
