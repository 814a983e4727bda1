-- A switch that falls offline, or is replaced by another one, is reported offline by the next
-- check, once. Which steps of the monitor, and which replies, lose that.
import Gwdonu.FalseOutages

namespace gwdonu.switch_outages

open Function runs switch_monitor
open false_outages (register_known register_new calm helloReply steps)
open rcp (MAX_RRCP_SWITCH_TO_MANAGE RCP_RET)

/-! ## The law -/

/-- What an alarm leaves of a switch whose outage is not reported yet. -/
def settle (p : Nat) (mac : Option Mac) (r : Report) : Option Mac :=
  if r.port = p ∧ r.msgType = ONU_SWITCH_STATUS_CHANGE_ALM_OFFLINE ∧ mac = some r.mac then none else mac

/-- The switch that stands reported as registered behind an alarm. -/
def stand (p : Nat) (mac : Option Mac) (r : Report) : Option Mac :=
  if r.port = p ∧ r.msgType ≠ ONU_SWITCH_STATUS_CHANGE_ALM_OFFLINE then some r.mac else settle p mac r

/-- The status falls, or this MAC is replaced by another one. -/
def fails (old new : Option RCP_DEV) (mac : Mac) : Bool :=
  match old, new with
  | some dev, some dev' =>
    dev.onlineStatus = 1 ∧ dev'.onlineStatus = 0 ∨ dev.switchMac = mac ∧ dev'.switchMac ≠ mac
  | _, _ => false

/-- The check begins. -/
def Starts (s t : State) : Prop := s.pc = .rest ∧ t.pc = .check 1

/-- The check ends, or is left. -/
def Ends (s t : State) : Prop := (∃ i, s.pc = .check i) ∧ t.pc = .round

instance (s t : State) : Decidable (Starts s t) := inferInstanceAs (Decidable (_ ∧ _))

/-- The run as one port sees it: the switch that stands reported at it, the one whose outage is not
reported yet, and the one whose outage the check that is under way has to report. -/
structure Watch where
  state : State
  standing : Option Mac
  due : Option Mac
  owed : Option Mac

def Watch.init (mal : Bool) : Watch := ⟨State.init mal, none, none, none⟩

def Watch.after (p : Nat) (w : Watch) (t : State) : Watch where
  state := t
  standing := (news w.state t).foldl (stand p) w.standing
  due :=
    if w.standing.any (fails (w.state.rcpDevList p) (t.rcpDevList p)) then w.standing
    else (news w.state t).foldl (settle p) w.due
  owed := if Starts w.state t then w.due else (news w.state t).foldl (settle p) w.owed

def Watch.step (p : Nat) (w : Watch) (e : Event) : Watch := w.after p (w.state.step e)

/-- The mask lets the alarm through, and the list of alarms has room and memory for it. -/
def Accepts (s : State) (env : Env) (dev : RCP_DEV) : Prop :=
  dev.alarmMask &&& RCP_ALARM_STATUS_OFFLINE = 0 ∧
    (∃ fifo ∈ s.alarms.gpstAlmFifo, fifo.occupancy < fifo.lengthLimitMax) ∧
    (s.alarms.malloc (env.mal 0)).isSome ∧ env.body 0 = true

/-- When the check ends, it has reported each outage that there was at its beginning. An OFFLINE
alarm of the port is of the switch that stands reported, and is queued if it can be. -/
structure Tells (p : Nat) (w : Watch) (e : Event) : Prop where
  reported : Ends w.state (w.state.step e) → (w.step p e).owed = none
  once : ∀ r ∈ news w.state (w.state.step e), r.port = p → r.msgType = ONU_SWITCH_STATUS_CHANGE_ALM_OFFLINE →
    w.standing = some r.mac
  queued : ∀ env, e = .monitor env → ∀ dev ∈ w.state.rcpDevList p, Accepts w.state env dev →
    ∀ r ∈ news w.state (w.state.step e), r.port = p → r.msgType = ONU_SWITCH_STATUS_CHANGE_ALM_OFFLINE →
      r.ret = some .RCP_OK

/-- Each round ends with the check, and no command drops the records. -/
structure Rounds (s : State) (e : Event) : Prop where
  check : s.pc = .rest → s.gulEnableEpswitchMgt = true
  records : e ≠ .auth true

/-! ## What loses it -/

/-- The check of the port is still to come in the round. -/
def Ahead (p : Nat) : Pc → Prop
  | .round => False
  | .rest => True
  | .hello i | .status i => p < i
  | .check i => i ≤ p
  | .clear i _ | .appear i _ | .register i => i < p

instance (p : Nat) : (pc : Pc) → Decidable (Ahead p pc)
  | .round => inferInstanceAs (Decidable False)
  | .rest => inferInstanceAs (Decidable True)
  | .hello i | .status i => inferInstanceAs (Decidable (p < i))
  | .check i => inferInstanceAs (Decidable (i ≤ p))
  | .clear i _ | .appear i _ | .register i => inferInstanceAs (Decidable (i < p))

/-- The record has nothing for a check to report: the switch that was registered is in it and
online, or, when it was reported offline, is not back online. -/
def Settled (dev : RCP_DEV) : Prop :=
  dev.previousswitchMac ≠ nullMac →
    if dev.handled then dev.switchMac = dev.previousswitchMac → dev.onlineStatus = 0
    else dev.switchMac = dev.previousswitchMac ∧ dev.onlineStatus = 1

/-- The check returns early, at a switch whose EEPROM is not read. -/
def Returns (s : State) (env : Env) (i : Nat) : Prop :=
  ∃ dev ∈ s.rcpDevList i, dev.switchMac ≠ nullMac ∧ dev.RCP_Dev_Is_Exist (env.up i) ∧
    dev.switchMac ≠ dev.previousswitchMac ∧ env.info = false

/-- The check does not look at the status of the port: it returns early, at this port or before, the
record names no switch, or the port is down while its switch is online. -/
def Misses (p : Nat) (s : State) (env : Env) : Pc → Prop
  | .check i => i ≤ p ∧ Returns s env i ∨
      i = p ∧ ∃ dev ∈ s.rcpDevList p, dev.switchMac = nullMac ∨ dev.onlineStatus = 1 ∧ env.up p = false
  | _ => False

/-- The check misses the port only when it has nothing to report. A switch that it finds fallen is
the one that is registered. One that it registers has a MAC, and no bit of another one in its
record. -/
structure Spared (p : Nat) (s : State) (env : Env) : Prop where
  misses : Misses p s env s.pc → ∀ dev ∈ s.rcpDevList p, Settled dev
  falls : s.pc = .check p → ∀ dev ∈ s.rcpDevList p, dev.switchMac ≠ nullMac → dev.Fell →
    dev.switchMac = dev.previousswitchMac
  registers : s.pc = .register p → ∀ dev ∈ s.rcpDevList p, dev.switchMac ≠ nullMac ∧
    (dev.previousswitchMac = nullMac → ¬ dev.handled)

/-- A reply does not bring the registered switch back into the record between two checks, except
for one that was reported offline, before its status is written. -/
def Returned (p : Nat) (s t : State) : Prop :=
  ∀ dev ∈ s.rcpDevList p, ∀ dev' ∈ t.rcpDevList p, dev.previousswitchMac ≠ nullMac →
    dev.switchMac ≠ dev.previousswitchMac → dev'.switchMac = dev.previousswitchMac →
      s.pc = .register p ∨
        dev.handled ∧ dev.previousOnlineStatus = 0 ∧ (dev.onlineStatus = 0 ∨ Ahead p s.pc)

/-- The run is one of rounds, and the port is spared what loses an outage. -/
structure Careful (p : Nat) (w : Watch) (e : Event) : Prop where
  rounds : Rounds w.state e
  spared : ∀ env, e = .monitor env → Spared p w.state env
  returned : w.state.Answered p e → Returned p w.state (w.state.step e)

section
variable (p i : Nat) (s t : State) (w : Watch) (env : Env) (dev : RCP_DEV)

instance : Decidable (Accepts s env dev) := inferInstanceAs (Decidable (_ ∧ _ ∧ _ ∧ _))

instance : Decidable dev.Fell := inferInstanceAs (Decidable (_ ∧ _))

instance : Decidable (Settled dev) := inferInstanceAs (Decidable (_ → _))

instance : Decidable (Returns s env i) := inferInstanceAs (Decidable (∃ dev ∈ _, _))

instance : (pc : Pc) → Decidable (Misses p s env pc)
  | .check _ => inferInstanceAs (Decidable (_ ∨ _))
  | .round | .rest | .hello _ | .status _ | .clear _ _ | .appear _ _ | .register _ => inferInstanceAs (Decidable False)

instance : Decidable (Spared p s env) :=
  decidable_of_iff ((Misses p s env s.pc → ∀ dev ∈ s.rcpDevList p, Settled dev) ∧
    (s.pc = .check p → ∀ dev ∈ s.rcpDevList p, dev.switchMac ≠ nullMac → dev.Fell →
      dev.switchMac = dev.previousswitchMac) ∧
    (s.pc = .register p → ∀ dev ∈ s.rcpDevList p, dev.switchMac ≠ nullMac ∧
      (dev.previousswitchMac = nullMac → ¬ dev.handled)))
    ⟨fun h => ⟨h.1, h.2.1, h.2.2⟩, fun h => ⟨h.misses, h.falls, h.registers⟩⟩

instance : Decidable (Returned p s t) := inferInstanceAs (Decidable (∀ dev ∈ _, _))

instance : (e : Event) → Decidable (Rounds s e)
  | .auth true => .isFalse fun h => h.records rfl
  | .monitor _ | .frame .. | .auth false | .set _ | .mask .. =>
    decidable_of_iff (s.pc = .rest → s.gulEnableEpswitchMgt = true) ⟨fun h => ⟨h, nofun⟩, Rounds.check⟩

instance : (e : Event) → Decidable (Careful p w e)
  | .monitor env => decidable_of_iff (Rounds w.state (.monitor env) ∧ Spared p w.state env)
    ⟨fun h => ⟨h.1, fun _ he => Event.monitor.inj he ▸ h.2, False.elim⟩, fun h => ⟨h.rounds, h.spared env rfl⟩⟩
  | .frame mal portid len frame =>
    let e := Event.frame mal portid len frame
    decidable_of_iff (Rounds w.state e ∧ (w.state.Answered p e → Returned p w.state (w.state.step e)))
    ⟨fun h => ⟨h.1, nofun, h.2⟩, fun h => ⟨h.rounds, h.returned⟩⟩
  | .auth enable => decidable_of_iff (Rounds w.state (.auth enable)) ⟨fun h => ⟨h, nofun, False.elim⟩, Careful.rounds⟩
  | .set enable => decidable_of_iff (Rounds w.state (.set enable)) ⟨fun h => ⟨h, nofun, False.elim⟩, Careful.rounds⟩
  | .mask i all enable =>
    decidable_of_iff (Rounds w.state (.mask i all enable)) ⟨fun h => ⟨h, nofun, False.elim⟩, Careful.rounds⟩

end

/-! ## Alarms -/

section
variable {p i j : Nat} {dev : RCP_DEV} {s t : State} {w : Watch} {e : Event} {env : Env} {pc pc' : Pc}
  {standing due mac : Option Mac} {l : List Report} {m : Mac} {ret : Option RCP_RET}

theorem settle_other {r : Report} (h : r.port ≠ p) : settle p mac r = mac := if_neg fun hr => h hr.1

theorem stand_other {r : Report} (h : r.port ≠ p) : stand p mac r = mac := by
  rw [stand, if_neg fun hr => h hr.1, settle_other h]

theorem others_fold {f : Option Mac → Report → Option Mac} (hf : ∀ {mac r}, r.port ≠ p → f mac r = mac)
    (h : ∀ r ∈ l, r.port ≠ p) : l.foldl f mac = mac :=
  (List.foldl_ext f (fun mac _ => mac) mac fun _ r hr => hf (h r hr)).trans (List.foldl_fixed l)

theorem settle_others (h : ∀ r ∈ l, r.port ≠ p) : l.foldl (settle p) mac = mac := others_fold settle_other h

theorem stand_others (h : ∀ r ∈ l, r.port ≠ p) : l.foldl (stand p) mac = mac := others_fold stand_other h

theorem settle_none : l.foldl (settle p) none = none := List.foldl_fixed' (fun _ => ite_self none) l

theorem settle_offline : settle p (some m) ⟨p, m, ONU_SWITCH_STATUS_CHANGE_ALM_OFFLINE, ret⟩ = none :=
  if_pos ⟨rfl, rfl, rfl⟩

theorem stand_offline : stand p (some m) ⟨p, m, ONU_SWITCH_STATUS_CHANGE_ALM_OFFLINE, ret⟩ = none := by
  rw [stand, if_neg fun h => h.2 rfl, settle_offline]

theorem stand_registered {msgType : UInt8} (h : msgType ≠ ONU_SWITCH_STATUS_CHANGE_ALM_OFFLINE) :
    stand p mac ⟨p, m, msgType, ret⟩ = some m := if_pos ⟨rfl, h⟩

theorem fails_same {x : Option RCP_DEV} : fails x x m = false := by
  cases x with
  | none => rfl
  | some dev =>
    refine decide_eq_false ?_
    rintro (⟨hon, hoff⟩ | ⟨hmac, hother⟩)
    · rw [hon] at hoff
      exact absurd hoff (by decide)
    · exact hother hmac

/-! ## The record -/

/-- The switch that stands reported, by the record. -/
def registered (dev : RCP_DEV) : Option Mac :=
  if dev.previousswitchMac ≠ nullMac ∧ ¬ dev.handled then some dev.previousswitchMac else none

/-- The check looks for the switch at other ports. -/
def Searching (p : Nat) (pc : Pc) : Prop := ∃ j, pc = .clear p j ∨ pc = .appear p j

/-- What a careful run keeps of the record of the port. -/
structure Good (p : Nat) (pc : Pc) (standing due : Option Mac) (dev : RCP_DEV) : Prop where
  online : dev.onlineStatus = 0 ∨ dev.onlineStatus = 1
  previous : dev.previousOnlineStatus = 0 ∨ dev.previousOnlineStatus = 1
  port : dev.previousswitchMac ≠ nullMac → 1 ≤ p ∧ p < MAX_RRCP_SWITCH_TO_MANAGE
  standing : standing = registered dev
  stands : dev.previousswitchMac ≠ nullMac → ¬ dev.handled →
    dev.previousOnlineStatus = 1 ∧ (¬ Ahead p pc → dev.onlineStatus = 1)
  gone : dev.previousswitchMac ≠ nullMac → dev.handled → dev.switchMac = dev.previousswitchMac → pc ≠ .register p →
    dev.previousOnlineStatus = 0 ∧ (¬ Ahead p pc → dev.onlineStatus = 0)
  registers : pc = .register p → dev.onlineStatus = 1
  searching : Searching p pc → dev.handled
  due : due ≠ none → due = some dev.previousswitchMac ∧ dev.previousswitchMac ≠ nullMac ∧ ¬ dev.handled ∧
    (dev.switchMac = dev.previousswitchMac → dev.onlineStatus = 0 ∨ pc = .register p)

theorem Good.due_none (h : Good p pc standing due dev) (hset : Settled dev) (hpc : pc ≠ .register p) : due = none := by
  by_contra hdue
  obtain ⟨-, hknown, hhandled, hsame⟩ := h.due hdue
  have hsettled := hset hknown
  rw [if_neg hhandled] at hsettled
  rcases hsame hsettled.1 with hoff | hregister
  · rw [hsettled.2] at hoff
    exact absurd hoff (by decide)
  · exact hpc hregister

/-- The monitor goes on; a check that passes the port leaves it settled. -/
theorem Good.moves (h : Good p pc standing due dev) (hfrom : pc ≠ .register p) (hto : pc' ≠ .register p)
    (hsearch : Searching p pc' → Searching p pc ∨ dev.handled) (hphase : Settled dev ∨ (Ahead p pc → Ahead p pc')) :
    Good p pc' standing due dev := by
  refine ⟨h.online, h.previous, h.port, h.standing, fun hknown hhandled => ?_, fun hknown hhandled hsame _ => ?_,
    fun hpc => absurd hpc hto, fun hpc => (hsearch hpc).elim h.searching id, fun hdue => ?_⟩
  · obtain ⟨hprevious, honline⟩ := h.stands hknown hhandled
    refine ⟨hprevious, fun hpc => ?_⟩
    rcases hphase with hset | hahead
    · have hsettled := hset hknown
      rw [if_neg hhandled] at hsettled
      exact hsettled.2
    · exact honline (mt hahead hpc)
  · obtain ⟨hprevious, hoff⟩ := h.gone hknown hhandled hsame hfrom
    refine ⟨hprevious, fun hpc => ?_⟩
    rcases hphase with hset | hahead
    · have hsettled := hset hknown
      rw [if_pos hhandled] at hsettled
      exact hsettled hsame
    · exact hoff (mt hahead hpc)
  · obtain ⟨hmac, hknown, hhandled, hsame⟩ := h.due hdue
    exact ⟨hmac, hknown, hhandled, fun heq => (hsame heq).imp id fun hpc => absurd hpc hfrom⟩

/-! ## The watch -/

/-- The check that is under way has still to come to the port. -/
def Checked (p : Nat) : Pc → Prop
  | .check i => i ≤ p
  | .clear i _ | .appear i _ => i < p
  | .register i => i ≤ p
  | _ => False

/-- The ports that the check comes to. -/
def Placed : Pc → Prop
  | .check i => 1 ≤ i
  | .register i => 1 ≤ i ∧ i < MAX_RRCP_SWITCH_TO_MANAGE
  | _ => True

structure Sound (p : Nat) (w : Watch) : Prop where
  placed : Placed w.state.pc
  record : ∀ dev, w.state.rcpDevList p = some dev → Good p w.state.pc w.standing w.due dev
  empty : w.state.rcpDevList p = none → w.standing = none ∧ w.due = none ∧ ¬ Searching p w.state.pc ∧
    w.state.pc ≠ .register p
  owed : w.owed = none ∨ w.owed = w.due ∧ Checked p w.state.pc

theorem turn_placed (h : s.Turn env t) (hs : Placed s.pc) : Placed t.pc := by
  cases h with
  | checks => exact le_rfl
  | empty | rises | rises_quietly | stays | searched | vanished | replaces | registers => exact Nat.le_add_left 1 _
  | absent i dev pc hat _ _ hto =>
    rcases hto with ⟨-, rfl⟩ | ⟨-, rfl⟩
    · exact trivial
    · exact Nat.le_add_left 1 _
  | reads i dev hat =>
    rw [hat.pc] at hs
    exact ⟨hs, hat.port⟩
  | _ => exact trivial

theorem after_due (hnews : ∀ r ∈ news w.state t, r.port ≠ p) (hrecord : t.rcpDevList p = w.state.rcpDevList p) :
    (w.after p t).due = w.due := by
  have hfails : ¬ (w.standing.any (fails (w.state.rcpDevList p) (t.rcpDevList p))) = true := by
    rw [hrecord]
    cases w.standing with
    | none => exact Bool.false_ne_true
    | some m => exact ne_true_of_eq_false fails_same
  exact (if_neg hfails).trans (settle_others hnews)

/-- The monitor goes on, and leaves the record. -/
theorem Sound.moves (h : Sound p w) (hrecord : t.rcpDevList p = w.state.rcpDevList p)
    (hnews : ∀ r ∈ news w.state t, r.port ≠ p) (hplaced : Placed t.pc)
    (hfrom : w.state.pc = .register p → w.state.rcpDevList p = none) (hto : t.pc ≠ .register p)
    (hsearch : Searching p t.pc → Searching p w.state.pc ∨ ∃ dev ∈ w.state.rcpDevList p, dev.handled)
    (hphase : ∀ dev, w.state.rcpDevList p = some dev → Settled dev ∨ (Ahead p w.state.pc → Ahead p t.pc) ∧
      (Starts w.state t ∨ Checked p w.state.pc → Checked p t.pc)) : Sound p (w.after p t) := by
  have hdue := after_due hnews hrecord
  have hstanding : (w.after p t).standing = w.standing := stand_others hnews
  have howed : (w.after p t).owed = if Starts w.state t then w.due else w.owed := by
    have hsettled : (news w.state t).foldl (settle p) w.owed = w.owed := settle_others hnews
    rw [← hsettled]
    rfl
  refine ⟨hplaced, fun dev hdev => ?_, fun hnone => ?_, ?_⟩
  · rw [hstanding, hdue]
    have hold : w.state.rcpDevList p = some dev := hrecord.symm.trans hdev
    have hpc : w.state.pc ≠ .register p := fun hpc => by
      rw [hfrom hpc] at hold
      cases hold
    refine (h.record dev hold).moves hpc hto (fun h => (hsearch h).imp id ?_) ((hphase dev hold).imp id And.left)
    rintro ⟨found, hfound, hhandled⟩
    obtain rfl := Option.some.inj (hold.symm.trans hfound)
    exact hhandled
  · rw [hstanding, hdue]
    have hold : w.state.rcpDevList p = none := hrecord.symm.trans hnone
    obtain ⟨hstand, hdue, hnot, -⟩ := h.empty hold
    refine ⟨hstand, hdue, fun hpc => ?_, hto⟩
    rcases hsearch hpc with hpc | ⟨dev, hdev, -⟩
    · exact hnot hpc
    · exact absurd (hold.symm.trans hdev) (Option.some_ne_none dev).symm
  · rw [howed, hdue]
    -- with nothing due, nothing is owed
    have hnone : w.due = none → (if Starts w.state t then w.due else w.owed) = none := fun hdue => by
      rw [hdue]
      split_ifs
      · rfl
      · exact h.owed.elim id fun howed => howed.1.trans hdue
    cases hold : w.state.rcpDevList p with
    | none => exact .inl (hnone (h.empty hold).2.1)
    | some dev =>
      rcases hphase dev hold with hset | ⟨-, hchecked⟩
      · refine .inl (hnone ((h.record dev hold).due_none hset fun hpc => ?_))
        rw [hfrom hpc] at hold
        cases hold
      · split_ifs with hstarts
        · exact .inr ⟨rfl, hchecked (.inl hstarts)⟩
        · exact h.owed.imp id fun howed => ⟨howed.1, hchecked (.inr howed.2)⟩

/-! ## Steps at other ports -/

/-- The port is behind as soon as it was, unless the check misses it. -/
theorem turn_phase (h : s.Turn env t) (hp : s.pc.port ≠ some p) (hrange : 1 ≤ p ∧ p < MAX_RRCP_SWITCH_TO_MANAGE)
    (hrest : s.pc = .rest → s.gulEnableEpswitchMgt = true) (hmiss : ¬ Misses p s env s.pc) :
    (Ahead p s.pc → Ahead p t.pc) ∧ (Starts s t ∨ Checked p s.pc → Checked p t.pc) := by
  have hnot : s.pc ≠ .rest → Starts s t ∨ Checked p s.pc → Checked p s.pc := fun hpc h =>
    h.resolve_left fun hstarts => hpc hstarts.1
  cases h with
  | waits hpc | begins hpc | skips hpc =>
    rw [hpc] at hnot ⊢
    exact ⟨False.elim, fun h => (hnot nofun h).elim⟩
  | rests i hpc =>
    rw [hpc] at hnot ⊢
    exact ⟨fun _ => trivial, fun h => (hnot nofun h).elim⟩
  | hello i hpc | passes i hpc | polls i hpc =>
    rw [hpc] at hnot hp ⊢
    have hne : i ≠ p := fun heq => hp (congrArg some heq)
    refine ⟨?_, fun h => (hnot nofun h).elim⟩
    unfold Ahead
    omega
  | checks hpc => exact ⟨fun _ => hrange.1, fun _ => hrange.1⟩
  | leaves hpc hoff =>
    rw [hrest hpc] at hoff
    cases hoff
  | ends i _ hpc hend =>
    rw [hpc] at hnot ⊢
    have hlt : ¬ i ≤ p := by omega
    exact ⟨fun h => absurd h hlt, fun h => absurd (hnot nofun h) hlt⟩
  | empty i hpc =>
    rw [hpc] at hnot hp ⊢
    have hne : i ≠ p := fun heq => hp (congrArg some heq)
    have hnext : i ≤ p → i + 1 ≤ p := by omega
    exact ⟨hnext, fun h => hnext (hnot nofun h)⟩
  | falls i dev hat =>
    rw [hat.pc] at hnot hp ⊢
    have hne : i ≠ p := fun heq => hp (congrArg some heq)
    have hnext : i ≤ p → i < p := by omega
    exact ⟨hnext, fun h => hnext (hnot nofun h)⟩
  | absent i dev pc hat _ _ hto =>
    rw [hat.pc] at hnot hp ⊢
    have hne : i ≠ p := fun heq => hp (congrArg some heq)
    have hnext : i ≤ p → i < p := by omega
    rcases hto with ⟨-, rfl⟩ | ⟨-, rfl⟩
    · exact ⟨hnext, fun h => hnext (hnot nofun h)⟩
    · exact ⟨hnext, fun h => hnext (hnot nofun h)⟩
  | rises i dev hat | rises_quietly i dev hat | stays i dev hat =>
    rw [hat.pc] at hnot hp ⊢
    have hne : i ≠ p := fun heq => hp (congrArg some heq)
    have hnext : i ≤ p → i + 1 ≤ p := by omega
    exact ⟨hnext, fun h => hnext (hnot nofun h)⟩
  | reads i dev hat =>
    rw [hat.pc] at hnot hp ⊢
    have hne : i ≠ p := fun heq => hp (congrArg some heq)
    have hnext : i ≤ p → i < p := by omega
    exact ⟨hnext, fun h => Nat.le_of_lt (hnext (hnot nofun h))⟩
  | unread i dev hat hexist hother hinfo =>
    have hlt : ¬ i ≤ p := fun hle => hmiss (by
      rw [hat.pc]
      exact .inl ⟨hle, dev, hat.found, hat.mac, hexist, hother, hinfo⟩)
    rw [hat.pc] at hnot ⊢
    exact ⟨fun h => absurd h hlt, fun h => absurd (hnot nofun h) hlt⟩
  | searched i j hpc =>
    rw [hpc] at hnot ⊢
    exact ⟨id, hnot nofun⟩
  | looks i j hpc =>
    rw [hpc] at hnot ⊢
    exact ⟨id, hnot nofun⟩
  | others i j hpc | clears i j hpc =>
    rcases hpc with hpc | hpc
    all_goals
      rw [hpc] at hnot ⊢
      exact ⟨id, hnot nofun⟩
  | vanished i hpc | replaces i dev hpc | registers i dev hpc =>
    rw [hpc] at hnot hp ⊢
    have hne : i ≠ p := fun heq => hp (congrArg some heq)
    have hnext : i ≤ p → i + 1 ≤ p := by omega
    exact ⟨id, fun h => hnext (hnot nofun h)⟩

theorem elsewhere_sound (h : w.state.Turn env t) (hp : w.state.pc.port ≠ some p) (hw : Sound p w)
    (hrest : w.state.pc = .rest → w.state.gulEnableEpswitchMgt = true) (hs : Spared p w.state env) :
    Sound p (w.after p t) := by
  obtain ⟨hrecord, hcomes, hnews⟩ := turn_elsewhere h hp
  have hto : ∀ pc, pc.port = some p → pc ≠ .hello p → pc ≠ .check p → t.pc ≠ pc := by
    rintro pc hport hhello hcheck rfl
    exact (hcomes hport).elim hhello hcheck
  refine hw.moves hrecord hnews (turn_placed h hw.placed) (fun hpc => absurd (by rw [hpc]; rfl) hp)
    (hto _ rfl nofun nofun) ?_ fun dev hdev => ?_
  · rintro ⟨j, hpc | hpc⟩
    · exact absurd hpc (hto _ rfl nofun nofun)
    · exact absurd hpc (hto _ rfl nofun nofun)
  · by_cases hknown : dev.previousswitchMac = nullMac
    · exact .inl fun h => absurd hknown h
    by_cases hmiss : Misses p w.state env w.state.pc
    · exact .inl (hs.misses hmiss dev hdev)
    · exact .inr (turn_phase h hp ((hw.record dev hdev).port hknown) hrest hmiss)

/-! ## Steps at the port -/

theorem handled_congr {dev' : RCP_DEV} (h : dev'.alarmStatus = dev.alarmStatus) : dev'.handled ↔ dev.handled := by
  unfold RCP_DEV.handled
  rw [h]

theorem registered_congr {dev' : RCP_DEV} (hmac : dev'.previousswitchMac = dev.previousswitchMac)
    (h : dev'.alarmStatus = dev.alarmStatus) : registered dev' = registered dev := by
  unfold registered
  simp only [hmac, handled_congr h]

theorem registered_some (h : registered dev = some m) :
    m = dev.previousswitchMac ∧ dev.previousswitchMac ≠ nullMac ∧ ¬ dev.handled := by
  unfold registered at h
  split_ifs at h with hknown
  · exact ⟨(Option.some.inj h).symm, hknown⟩

theorem poll_kept (dev : RCP_DEV) : dev.poll.switchMac = dev.switchMac ∧
    dev.poll.previousswitchMac = dev.previousswitchMac ∧ dev.poll.alarmStatus = dev.alarmStatus ∧
    dev.poll.previousOnlineStatus = dev.onlineStatus := by
  unfold RCP_DEV.poll
  split <;> exact ⟨rfl, rfl, rfl, rfl⟩

theorem poll_online (dev : RCP_DEV) : dev.poll.onlineStatus = 0 ∨ dev.poll.onlineStatus = 1 := by
  change (if dev.poll.timeoutFlag = 1 then (0 : UInt8) else 1) = 0 ∨ _
  split_ifs
  · exact .inl rfl
  · exact .inr (if_neg ‹_›)

theorem after_standing (hnews : news w.state t = l) : (w.after p t).standing = l.foldl (stand p) w.standing := by
  rw [← hnews]
  rfl

theorem after_settled (hnews : news w.state t = l)
    (hfails : w.standing.any (fails (w.state.rcpDevList p) (t.rcpDevList p)) = false) :
    (w.after p t).due = l.foldl (settle p) w.due := by
  rw [← hnews]
  exact if_neg (ne_true_of_eq_false hfails)

/-- A step that reports nothing leaves what is due, or makes what stands reported due. -/
theorem after_due_cases (hnews : news w.state t = []) :
    (w.after p t).due = w.due ∨ (∃ m, w.standing = some m ∧ (w.after p t).due = some m ∧
      fails (w.state.rcpDevList p) (t.rcpDevList p) m = true) := by
  cases hstanding : w.standing with
  | none =>
    refine .inl (after_settled hnews ?_)
    rw [hstanding]
    rfl
  | some m =>
    cases hfails : fails (w.state.rcpDevList p) (t.rcpDevList p) m with
    | true =>
      refine .inr ⟨m, rfl, ?_, hfails⟩
      unfold Watch.after
      rw [hstanding, Option.any_some, hfails, if_pos rfl]
    | false =>
      refine .inl (after_settled hnews ?_)
      rw [hstanding]
      exact hfails

theorem after_owed (hnews : news w.state t = l) (hpc : w.state.pc ≠ .rest) :
    (w.after p t).owed = l.foldl (settle p) w.owed := by
  rw [← hnews]
  exact if_neg fun h => hpc h.1

theorem Sound.owed_none (h : Sound p w) (hnot : ¬ Checked p w.state.pc ∨ w.due = none) : w.owed = none := by
  rcases h.owed with howed | ⟨howed, hchecked⟩
  · exact howed
  · exact hnot.elim (absurd hchecked) howed.trans

/-- The record is written, and nothing is owed. -/
theorem Sound.edits {dev' : RCP_DEV} (hnew : t.rcpDevList p = some dev') (hplaced : Placed t.pc)
    (hgood : Good p t.pc (w.after p t).standing (w.after p t).due dev') (howed : (w.after p t).owed = none) :
    Sound p (w.after p t) := by
  refine ⟨hplaced, fun dev hdev => ?_, fun hnone => ?_, .inl howed⟩
  · obtain rfl := Option.some.inj (hnew.symm.trans hdev)
    exact hgood
  · exact absurd (hnew.symm.trans hnone) (Option.some_ne_none _)

/-- A poll: the status falls, and what stands reported is due. -/
theorem polls_sound (hw : Sound p w) (hpc : w.state.pc = .status p) (hfound : w.state.rcpDevList p = some dev) :
    Sound p (w.after p { w.state.edit p RCP_DEV.poll with pc := .hello (p + 1) }) := by
  have hold := hw.record dev hfound
  rw [hpc] at hold
  have hnew : (w.state.edit p RCP_DEV.poll).rcpDevList p = some dev.poll := by rw [edit_self, hfound]; rfl
  obtain ⟨hmac, hknown, halarm, hprevious⟩ := poll_kept dev
  have hnews : news w.state { w.state.edit p RCP_DEV.poll with pc := .hello (p + 1) } = [] := news_same rfl
  have hahead : Ahead p (.hello (p + 1)) := Nat.lt_succ_self p
  have hnot : ¬ Ahead p (.status p) := Nat.lt_irrefl p
  refine Sound.edits hnew trivial ?_ ?_
  · rw [after_standing hnews]
    refine ⟨poll_online dev, ?_, ?_, ?_, ?_, ?_, nofun, nofun, ?_⟩
    · rw [hprevious]
      exact hold.online
    · rw [hknown]
      exact hold.port
    · rw [registered_congr hknown halarm]
      exact hold.standing
    · rw [hknown, handled_congr halarm, hprevious]
      exact fun hk hh => ⟨(hold.stands hk hh).2 hnot, fun hpc => absurd hahead hpc⟩
    · rw [hknown, handled_congr halarm, hprevious, hmac]
      exact fun hk hh hsame _ => ⟨(hold.gone hk hh hsame nofun).2 hnot, fun hpc => absurd hahead hpc⟩
    · rw [hknown, handled_congr halarm, hmac]
      intro hdue
      rcases after_due_cases (p := p) hnews with hsame | ⟨m, hstanding, hnow, hfails⟩
      · rw [hsame] at hdue ⊢
        obtain ⟨hq, hk, hh, hsame⟩ := hold.due hdue
        refine ⟨hq, hk, hh, fun heq => ?_⟩
        have hoff := (hsame heq).resolve_right nofun
        rw [(hold.stands hk hh).2 hnot] at hoff
        exact absurd hoff (by decide)
      · obtain ⟨rfl, hk, hh⟩ := registered_some (hold.standing.symm.trans hstanding)
        refine ⟨hnow, hk, hh, fun heq => .inl ?_⟩
        have hfails : fails (some dev) (some dev.poll) dev.previousswitchMac = true := by
          rw [← hfound, ← hnew]
          exact hfails
        rcases of_decide_eq_true hfails with ⟨-, hoff⟩ | ⟨hmine, hother⟩
        · exact hoff
        · exact absurd (hmac.trans hmine) hother
  · rw [after_owed hnews (by rw [hpc]; nofun), hw.owed_none (.inl (by rw [hpc]; exact not_false))]
    rfl

theorem offline_handled (dev : RCP_DEV) : dev.offline.handled := by
  intro (h : (dev.alarmStatus ||| RCP_ALARM_STATUS_OFFLINE) &&& RCP_ALARM_STATUS_OFFLINE = 0)
  have hbit := congrArg (fun x : UInt8 => x.toBitVec.getLsbD 2) h
  simp [RCP_ALARM_STATUS_OFFLINE] at hbit

theorem settle_of (h : mac = none ∨ mac = some m) :
    settle p mac ⟨p, m, ONU_SWITCH_STATUS_CHANGE_ALM_OFFLINE, ret⟩ = none := by
  rcases h with rfl | rfl
  · exact ite_self none
  · exact settle_offline

theorem Good.due_cases (h : Good p pc standing due dev) : due = none ∨ due = some dev.previousswitchMac := by
  by_cases hdue : due = none
  · exact .inl hdue
  · exact .inr (h.due hdue).1

theorem Sound.owed_cases (h : Sound p w) (hfound : w.state.rcpDevList p = some dev) :
    w.owed = none ∨ w.owed = some dev.previousswitchMac := by
  rcases h.owed with howed | ⟨howed, -⟩
  · exact .inl howed
  · rw [howed]
    exact (h.record dev hfound).due_cases

theorem Good.standing_some (h : Good p pc standing due dev) (hknown : dev.previousswitchMac ≠ nullMac)
    (hhandled : ¬ dev.handled) : standing = some dev.previousswitchMac :=
  h.standing.trans (if_pos ⟨hknown, hhandled⟩)

theorem Good.standing_none (h : Good p pc standing due dev) (hno : dev.previousswitchMac = nullMac ∨ dev.handled) :
    standing = none ∧ due = none := by
  refine ⟨h.standing.trans (if_neg fun hyes => hno.elim hyes.1 hyes.2), ?_⟩
  by_contra hdue
  obtain ⟨-, hknown, hhandled, -⟩ := h.due hdue
  exact hno.elim hknown hhandled

/-- A switch that has fallen is the one that stands reported. -/
theorem Good.fell (h : Good p (.check p) standing due dev) (hmac : dev.switchMac ≠ nullMac) (hfell : dev.Fell)
    (hsame : dev.switchMac = dev.previousswitchMac) :
    dev.previousswitchMac ≠ nullMac ∧ ¬ dev.handled ∧ standing = some dev.switchMac := by
  have hknown : dev.previousswitchMac ≠ nullMac := hsame ▸ hmac
  have hhandled : ¬ dev.handled := fun hh => by
    have hprevious := (h.gone hknown hh hsame nofun).1
    rw [hfell.2] at hprevious
    exact absurd hprevious (by decide)
  refine ⟨hknown, hhandled, ?_⟩
  rw [hsame]
  exact h.standing_some hknown hhandled

theorem falls_sound (hw : Sound p w) (hs : Spared p w.state env) (hat : w.state.At p dev) (hfell : dev.Fell) :
    Sound p (w.after p
      { (w.state.reportOffline env p dev dev.switchMac).edit p RCP_DEV.offline with pc := .clear p 1 }) := by
  have hold := hw.record dev hat.found
  rw [hat.pc] at hold
  have hsame := hs.falls hat.pc dev hat.found hat.mac hfell
  obtain ⟨hknown, hhandled, hstanding⟩ := hold.fell hat.mac hfell hsame
  have hnew : ((w.state.reportOffline env p dev dev.switchMac).edit p RCP_DEV.offline).rcpDevList p =
      some dev.offline := by
    rw [edit_self, State.reportOffline, report_list, hat.found]
    rfl
  have hnews : news w.state
      { (w.state.reportOffline env p dev dev.switchMac).edit p RCP_DEV.offline with pc := .clear p 1 } =
      [⟨p, dev.switchMac, ONU_SWITCH_STATUS_CHANGE_ALM_OFFLINE, _⟩] :=
    news_append (report_reports ..)
  have hfails : w.standing.any (fails (w.state.rcpDevList p) (((w.state.reportOffline env p dev dev.switchMac).edit p
      RCP_DEV.offline).rcpDevList p)) = false := by
    rw [hstanding, hat.found, hnew]
    refine decide_eq_false ?_
    rintro (⟨hon, -⟩ | ⟨-, hother⟩)
    · rw [hfell.1] at hon
      exact absurd hon (by decide)
    · exact hother rfl
  have hbit := offline_handled dev
  refine Sound.edits hnew trivial ?_ ?_
  · rw [after_standing hnews, after_settled hnews hfails, hstanding, List.foldl_cons, List.foldl_nil, List.foldl_cons,
      List.foldl_nil, stand_offline, settle_of (hsame ▸ hold.due_cases)]
    refine ⟨.inl hfell.1, .inl rfl, hold.port, ?_, fun _ hh => absurd hbit hh, fun _ _ _ _ => ⟨rfl, fun _ => hfell.1⟩,
      nofun, fun _ => hbit, fun h => absurd rfl h⟩
    exact (if_neg fun h => h.2 hbit).symm
  · rw [after_owed hnews (by rw [hat.pc]; nofun), List.foldl_cons, List.foldl_nil,
      settle_of (hsame ▸ hw.owed_cases hat.found)]

/-- The switch that an alarm names stands registered, and nothing is due or owed. -/
theorem stands_sound {dev' : RCP_DEV} (hnew : t.rcpDevList p = some dev') (hplaced : Placed t.pc)
    (hto : t.pc ≠ .register p) (hsearch : ¬ Searching p t.pc)
    (hport : 1 ≤ p ∧ p < MAX_RRCP_SWITCH_TO_MANAGE) (hmac : m ≠ nullMac) (hknown : dev'.previousswitchMac = m)
    (honline : dev'.onlineStatus = 1) (hprevious : dev'.previousOnlineStatus = 1) (hhandled : ¬ dev'.handled)
    (hstanding : (w.after p t).standing = some m) (hdue : (w.after p t).due = none)
    (howed : (w.after p t).owed = none) : Sound p (w.after p t) := by
  refine Sound.edits hnew hplaced ?_ howed
  rw [hstanding, hdue]
  refine ⟨.inr honline, .inr hprevious, fun _ => hport, ?_, fun _ _ => ⟨hprevious, fun _ => honline⟩,
    fun _ hh => absurd hh hhandled, fun hpc => absurd hpc hto, fun hpc => absurd hpc hsearch, fun h => absurd rfl h⟩
  rw [registered, hknown, if_pos ⟨hmac, hhandled⟩]

theorem reregister_bit : RCP_ALARM_STATUS_RE_REGISTER &&& RCP_ALARM_STATUS_OFFLINE = 0 := by decide

theorem reregister_unhandled (dev : RCP_DEV) : ¬ dev.reregister.handled := not_not.mpr reregister_bit

theorem rises_sound (hw : Sound p w) (hat : w.state.At p dev) (hexist : dev.RCP_Dev_Is_Exist (env.up p))
    (hsame : dev.switchMac = dev.previousswitchMac) (hhandled : dev.handled) :
    Sound p (w.after p
      { (w.state.reportReregister env p dev).edit p RCP_DEV.reregister with pc := .check (p + 1) }) := by
  have hold := hw.record dev hat.found
  obtain ⟨hstanding, hdue⟩ := hold.standing_none (.inr hhandled)
  have hknown : dev.previousswitchMac ≠ nullMac := hsame ▸ hat.mac
  have hnew : ((w.state.reportReregister env p dev).edit p RCP_DEV.reregister).rcpDevList p = some dev.reregister := by
    rw [edit_self, State.reportReregister, report_list, hat.found]
    rfl
  have hnews : news w.state
      { (w.state.reportReregister env p dev).edit p RCP_DEV.reregister with pc := .check (p + 1) } = [_] :=
    news_append (report_reports ..)
  refine stands_sound hnew (Nat.le_add_left 1 p) nofun nofun (hold.port hknown) hat.mac hsame.symm hexist.2 rfl
    (reregister_unhandled dev) ?_ ?_ ?_
  · rw [after_standing hnews]
    exact stand_registered rereg_ne_offline
  · rw [after_settled hnews (by rw [hstanding]; rfl), hdue]
    exact settle_none
  · rw [after_owed hnews (by rw [hat.pc]; nofun), hw.owed_none (.inr hdue)]
    exact settle_none

/-- A switch that stands reported was online before. -/
theorem Good.not_quiet (h : Good p pc standing due dev) (hknown : dev.previousswitchMac ≠ nullMac)
    (hrose : dev.Rose) : dev.handled := by
  by_contra hhandled
  have hprevious := (h.stands hknown hhandled).1
  rw [hrose.2] at hprevious
  exact absurd hprevious (by decide)

theorem clears_sound (hw : Sound p w) (hpc : Searching p w.state.pc) (hfound : w.state.rcpDevList p = some dev) :
    Sound p (w.after p { w.state.edit p RCP_DEV.clear with pc := .clear p (j + 1) }) := by
  have hold := hw.record dev hfound
  have hhandled := hold.searching hpc
  obtain ⟨hstanding, hdue⟩ := hold.standing_none (.inr hhandled)
  have hnew : (w.state.edit p RCP_DEV.clear).rcpDevList p = some dev.clear := by rw [edit_self, hfound]; rfl
  have hnews : news w.state { w.state.edit p RCP_DEV.clear with pc := .clear p (j + 1) } = [] := news_same rfl
  have hrest : w.state.pc ≠ .rest := by
    obtain ⟨j, hpc | hpc⟩ := hpc
    · rw [hpc]
      nofun
    · rw [hpc]
      nofun
  refine Sound.edits hnew trivial ?_ ?_
  · rw [after_standing hnews, after_settled hnews (by rw [hstanding]; rfl), hstanding, hdue]
    refine ⟨.inl rfl, .inl rfl, fun h => absurd rfl h, ?_, fun h => absurd rfl h, fun h => absurd rfl h, nofun,
      fun _ => hhandled, fun h => absurd rfl h⟩
    exact (if_neg fun h => h.1 rfl).symm
  · rw [after_owed hnews hrest, hw.owed_none (.inr hdue)]
    rfl

theorem register_online (h : dev.onlineStatus = 1) : dev.register.onlineStatus = 1 := by
  by_cases hnew : dev.previousswitchMac = nullMac
  · rw [register_new hnew]
  · rw [register_known hnew]
    exact h

theorem register_kept (h : dev.onlineStatus = 1) : dev.register.previousswitchMac = dev.switchMac ∧
    dev.register.switchMac = dev.switchMac ∧ dev.register.previousOnlineStatus = 1 := by
  by_cases hnew : dev.previousswitchMac = nullMac
  · rw [register_new hnew]
    exact ⟨rfl, rfl, rfl⟩
  · rw [register_known hnew]
    exact ⟨rfl, rfl, h⟩

theorem replaces_sound (hw : Sound p w) (hs : Spared p w.state env) (hpc : w.state.pc = .register p)
    (hfound : w.state.rcpDevList p = some dev) (hknown : dev.previousswitchMac ≠ nullMac) (hhandled : ¬ dev.handled) :
    Sound p (w.after p
      { ((w.state.reportOffline env p dev dev.previousswitchMac).reportRegister env p dev).edit p RCP_DEV.register with
        pc := .check (p + 1) }) := by
  have hold := hw.record dev hfound
  have honline := hold.registers hpc
  obtain ⟨hprevious, hsame, hstatus⟩ := register_kept honline
  have hstanding := hold.standing_some hknown hhandled
  have hnew : (((w.state.reportOffline env p dev dev.previousswitchMac).reportRegister env p dev).edit p
      RCP_DEV.register).rcpDevList p = some dev.register := by
    rw [edit_self, State.reportRegister, State.reportOffline, report_list, report_list, hfound]
    rfl
  have hnews : news w.state
      { ((w.state.reportOffline env p dev dev.previousswitchMac).reportRegister env p dev).edit p RCP_DEV.register with
        pc := .check (p + 1) } = [_, _] := news_append (replace_reports p dev)
  have hfails : w.standing.any (fails (w.state.rcpDevList p) ((((w.state.reportOffline env p dev
      dev.previousswitchMac).reportRegister env p dev).edit p RCP_DEV.register).rcpDevList p)) = false := by
    rw [hstanding, hfound, hnew]
    refine decide_eq_false ?_
    rintro (⟨-, hoff⟩ | ⟨hmine, hother⟩)
    · rw [register_online honline] at hoff
      exact absurd hoff (by decide)
    · exact hother (hsame.trans hmine)
  refine stands_sound hnew (Nat.le_add_left 1 p) nofun nofun (hold.port hknown) (hs.registers hpc dev hfound).1
    hprevious (register_online honline) hstatus (false_outages.register_unhandled hknown) ?_ ?_ ?_
  · rw [after_standing hnews]
    exact stand_registered reg_ne_offline
  · rw [after_settled hnews hfails, List.foldl_cons, settle_of hold.due_cases]
    exact settle_none
  · rw [after_owed hnews (by rw [hpc]; nofun), List.foldl_cons, settle_of (hw.owed_cases hfound)]
    exact settle_none

theorem registers_sound (hw : Sound p w) (hs : Spared p w.state env) (hpc : w.state.pc = .register p)
    (hfound : w.state.rcpDevList p = some dev) (hno : dev.previousswitchMac = nullMac ∨ dev.handled) :
    Sound p (w.after p
      { (w.state.reportRegister env p dev).edit p RCP_DEV.register with pc := .check (p + 1) }) := by
  have hold := hw.record dev hfound
  have honline := hold.registers hpc
  have hplaced := hw.placed
  rw [hpc] at hplaced
  obtain ⟨hmac, hclean⟩ := hs.registers hpc dev hfound
  obtain ⟨hprevious, -, hstatus⟩ := register_kept honline
  obtain ⟨hstanding, hdue⟩ := hold.standing_none hno
  have hunhandled : ¬ dev.register.handled := by
    by_cases hnew : dev.previousswitchMac = nullMac
    · rw [register_new hnew]
      exact hclean hnew
    · exact false_outages.register_unhandled hnew
  have hnew : ((w.state.reportRegister env p dev).edit p RCP_DEV.register).rcpDevList p = some dev.register := by
    rw [edit_self, State.reportRegister, report_list, hfound]
    rfl
  have hnews : news w.state
      { (w.state.reportRegister env p dev).edit p RCP_DEV.register with pc := .check (p + 1) } = [_] :=
    news_append (report_reports ..)
  refine stands_sound hnew (Nat.le_add_left 1 p) nofun nofun hplaced hmac hprevious (register_online honline) hstatus
    hunhandled ?_ ?_ ?_
  · rw [after_standing hnews]
    exact stand_registered reg_ne_offline
  · rw [after_settled hnews (by rw [hstanding]; rfl), hdue]
    exact settle_none
  · rw [after_owed hnews (by rw [hpc]; nofun), hw.owed_none (.inr hdue)]
    exact settle_none

/-- The switch is there, with another MAC: the check goes on to its registration. -/
theorem reads_sound (hw : Sound p w) (hat : w.state.At p dev) (hexist : dev.RCP_Dev_Is_Exist (env.up p)) :
    Sound p (w.after p { w.state with pc := .register p }) := by
  have hold := hw.record dev hat.found
  rw [hat.pc] at hold
  have hplaced := hw.placed
  rw [hat.pc] at hplaced
  have hnews : news w.state { w.state with pc := .register p } = [] := news_same rfl
  have hrest : w.state.pc ≠ .rest := by rw [hat.pc]; nofun
  have hdue : (w.after p { w.state with pc := .register p }).due = w.due :=
    after_due (by rw [hnews]; exact fun _ hr => absurd hr List.not_mem_nil) rfl
  refine ⟨⟨hplaced, hat.port⟩, fun found hfound => ?_, fun hnone => ?_, ?_⟩
  · obtain rfl := Option.some.inj (hat.found.symm.trans hfound)
    rw [after_standing hnews, hdue]
    refine ⟨hold.online, hold.previous, hold.port, hold.standing, ?_, fun _ _ _ h => absurd rfl h,
      fun _ => hexist.2, nofun, fun h => ?_⟩
    · exact fun hknown hhandled => ⟨(hold.stands hknown hhandled).1, fun _ => hexist.2⟩
    · obtain ⟨hmac, hknown, hhandled, -⟩ := hold.due h
      exact ⟨hmac, hknown, hhandled, fun _ => .inr rfl⟩
  · exact absurd (hat.found.symm.trans hnone) (Option.some_ne_none _)
  · rw [after_owed hnews hrest, hdue]
    exact hw.owed.imp id fun h => ⟨h.1, le_rfl⟩

/-- The monitor goes on from the port, or stays at it, with nothing written. -/
theorem Sound.passes (hw : Sound p w) (h : w.state.Turn env t) (hlist : t.rcpDevList = w.state.rcpDevList)
    (hreports : t.reports = w.state.reports) (hfrom : w.state.pc = .register p → w.state.rcpDevList p = none)
    (hto : t.pc ≠ .register p)
    (hsearch : Searching p t.pc → Searching p w.state.pc ∨ ∃ dev ∈ w.state.rcpDevList p, dev.handled)
    (hphase : ∀ dev, w.state.rcpDevList p = some dev → Settled dev ∨ (Ahead p w.state.pc → Ahead p t.pc) ∧
      (Starts w.state t ∨ Checked p w.state.pc → Checked p t.pc)) : Sound p (w.after p t) := by
  have hnews : ∀ r ∈ news w.state t, r.port ≠ p := by
    rw [news_same hreports]
    exact fun _ hr => absurd hr List.not_mem_nil
  exact hw.moves (congrFun hlist p) hnews (turn_placed h hw.placed) hfrom hto hsearch hphase

/-- The check of the port is over, and the monitor writes nothing. -/
theorem Sound.behind (hw : Sound p w) (h : w.state.Turn env t) (hrecord : t.rcpDevList p = w.state.rcpDevList p)
    (hreports : t.reports = w.state.reports) (hahead : ¬ Ahead p w.state.pc) (hchecked : ¬ Checked p w.state.pc)
    (hrest : w.state.pc ≠ .rest) (hfrom : w.state.pc ≠ .register p) (hto : t.pc ≠ .register p)
    (hsearch : Searching p t.pc → Searching p w.state.pc) : Sound p (w.after p t) := by
  have hnews : ∀ r ∈ news w.state t, r.port ≠ p := by
    rw [news_same hreports]
    exact fun _ hr => absurd hr List.not_mem_nil
  refine hw.moves hrecord hnews (turn_placed h hw.placed) (fun h => absurd h hfrom) hto (fun h => .inl (hsearch h))
    fun dev _ => .inr ⟨fun h => absurd h hahead, fun h => ?_⟩
  exact h.elim (fun hstarts => absurd hstarts.1 hrest) fun h => absurd h hchecked

theorem polling_behind (h : pc = .hello p ∨ pc = .status p) :
    ¬ Ahead p pc ∧ ¬ Checked p pc ∧ pc ≠ .rest ∧ pc ≠ .register p := by
  rcases h with rfl | rfl
  · exact ⟨Nat.lt_irrefl p, not_false, nofun, nofun⟩
  · exact ⟨Nat.lt_irrefl p, not_false, nofun, nofun⟩

theorem searching_behind (h : Searching p pc) :
    ¬ Ahead p pc ∧ ¬ Checked p pc ∧ pc ≠ .rest ∧ pc ≠ .register p := by
  obtain ⟨j, rfl | rfl⟩ := h
  · exact ⟨Nat.lt_irrefl p, Nat.lt_irrefl p, nofun, nofun⟩
  · exact ⟨Nat.lt_irrefl p, Nat.lt_irrefl p, nofun, nofun⟩

/-- A switch that is not there has fallen, or is one that the check misses, or was reported. -/
theorem absent_settled (hw : Sound p w) (hs : Spared p w.state env) (hat : w.state.At p dev)
    (hexist : ¬ dev.RCP_Dev_Is_Exist (env.up p)) (hfell : ¬ dev.Fell) : Settled dev := by
  have hold := hw.record dev hat.found
  rw [hat.pc] at hold
  rcases hold.online with hoff | hon
  · intro hknown
    split_ifs with hhandled
    · exact fun _ => hoff
    · exact absurd ⟨hoff, (hold.stands hknown hhandled).1⟩ hfell
  · refine hs.misses ?_ dev hat.found
    have hdown : env.up p = false := Bool.eq_false_iff.mpr fun hup => hexist ⟨hup, hon⟩
    rw [hat.pc]
    exact .inr ⟨rfl, dev, hat.found, .inr ⟨hon, hdown⟩⟩

theorem stays_settled (hw : Sound p w) (hat : w.state.At p dev) (hexist : dev.RCP_Dev_Is_Exist (env.up p))
    (hsame : dev.switchMac = dev.previousswitchMac) (hrose : ¬ dev.Rose) : Settled dev := by
  have hold := hw.record dev hat.found
  intro hknown
  split_ifs with hhandled
  · have hprevious := (hold.gone hknown hhandled hsame (by rw [hat.pc]; nofun)).1
    exact absurd ⟨hexist.2, hprevious⟩ hrose
  · exact ⟨hsame, hexist.2⟩

theorem here_sound (h : w.state.Turn env t) (hp : w.state.pc.port = some p) (hw : Sound p w)
    (hs : Spared p w.state env) : Sound p (w.after p t) := by
  have hturn := h
  cases h with
  | waits hpc | begins hpc | skips hpc | checks hpc | leaves hpc => rw [hpc] at hp; cases hp
  | rests i hpc | hello i hpc | passes i hpc =>
    rw [hpc] at hp
    obtain rfl := Option.some.inj hp
    obtain ⟨hahead, hchecked, hrest, hfrom⟩ := polling_behind (.inl hpc)
    exact hw.behind hturn rfl rfl hahead hchecked hrest hfrom nofun nofun
  | polls i hpc =>
    rw [hpc] at hp
    obtain rfl := Option.some.inj hp
    cases hfound : w.state.rcpDevList i with
    | some dev => exact polls_sound hw hpc hfound
    | none =>
      have hrecord : (w.state.edit i RCP_DEV.poll).rcpDevList i = w.state.rcpDevList i := by
        rw [edit_self, hfound]
        rfl
      obtain ⟨hahead, hchecked, hrest, hfrom⟩ := polling_behind (.inr hpc)
      exact hw.behind hturn hrecord rfl hahead hchecked hrest hfrom nofun nofun
  | ends i _ hpc hend =>
    rw [hpc] at hp
    obtain rfl := Option.some.inj hp
    refine hw.passes hturn rfl rfl (by rw [hpc]; nofun) nofun nofun fun dev hdev => .inl fun hknown => ?_
    exact absurd ((hw.record dev hdev).port hknown).2 (Nat.not_lt.mpr hend)
  | empty i hpc hport hvalid =>
    rw [hpc] at hp
    obtain rfl := Option.some.inj hp
    refine hw.passes hturn rfl rfl (by rw [hpc]; nofun) nofun nofun fun dev hdev => .inl (hs.misses ?_ dev hdev)
    have hnull : dev.switchMac = nullMac := not_not.mp fun hmac => hvalid ⟨hport, dev, hdev, hmac⟩
    rw [hpc]
    exact .inr ⟨rfl, dev, hdev, .inl hnull⟩
  | falls i dev hat _ hfell =>
    rw [hat.pc] at hp
    obtain rfl := Option.some.inj hp
    exact falls_sound hw hs hat hfell
  | absent i dev pc hat hexist hfell hto =>
    rw [hat.pc] at hp
    obtain rfl := Option.some.inj hp
    have hset : ∀ found, w.state.rcpDevList i = some found → Settled found := fun found hfound => by
      obtain rfl := Option.some.inj (hat.found.symm.trans hfound)
      exact absent_settled hw hs hat hexist hfell
    rcases hto with ⟨hhandled, rfl⟩ | ⟨-, rfl⟩
    · exact hw.passes hturn rfl rfl (by rw [hat.pc]; nofun) nofun (fun _ => .inr ⟨dev, hat.found, hhandled⟩)
        fun dev hdev => .inl (hset dev hdev)
    · exact hw.passes hturn rfl rfl (by rw [hat.pc]; nofun) nofun nofun fun dev hdev => .inl (hset dev hdev)
  | rises i dev hat hexist hsame _ hhandled =>
    rw [hat.pc] at hp
    obtain rfl := Option.some.inj hp
    exact rises_sound hw hat hexist hsame hhandled
  | rises_quietly i dev hat _ hsame hrose hhandled =>
    rw [hat.pc] at hp
    obtain rfl := Option.some.inj hp
    exact absurd ((hw.record dev hat.found).not_quiet (hsame ▸ hat.mac) hrose) hhandled
  | stays i dev hat hexist hsame hrose =>
    rw [hat.pc] at hp
    obtain rfl := Option.some.inj hp
    refine hw.passes hturn rfl rfl (by rw [hat.pc]; nofun) nofun nofun fun found hfound => .inl ?_
    obtain rfl := Option.some.inj (hat.found.symm.trans hfound)
    exact stays_settled hw hat hexist hsame hrose
  | reads i dev hat hexist =>
    rw [hat.pc] at hp
    obtain rfl := Option.some.inj hp
    exact reads_sound hw hat hexist
  | unread i dev hat hexist hother hinfo =>
    rw [hat.pc] at hp
    obtain rfl := Option.some.inj hp
    refine hw.passes hturn rfl rfl (by rw [hat.pc]; nofun) nofun nofun fun found hfound =>
      .inl (hs.misses ?_ found hfound)
    rw [hat.pc]
    exact .inl ⟨le_rfl, dev, hat.found, hat.mac, hexist, hother, hinfo⟩
  | searched i j hpc =>
    rw [hpc] at hp
    obtain rfl := Option.some.inj hp
    obtain ⟨hahead, hchecked, hrest, hfrom⟩ := searching_behind ⟨j, .inl hpc⟩
    exact hw.behind hturn rfl rfl hahead hchecked hrest hfrom nofun nofun
  | looks i j hpc =>
    rw [hpc] at hp
    obtain rfl := Option.some.inj hp
    have hsearching : Searching i w.state.pc := ⟨j, .inl hpc⟩
    obtain ⟨hahead, hchecked, hrest, hfrom⟩ := searching_behind hsearching
    exact hw.behind hturn rfl rfl hahead hchecked hrest hfrom nofun fun _ => hsearching
  | others i j hpc =>
    obtain rfl : i = p := by rcases hpc with hpc | hpc <;> rw [hpc] at hp <;> exact Option.some.inj hp
    have hsearching : Searching i w.state.pc := ⟨j, hpc⟩
    obtain ⟨hahead, hchecked, hrest, hfrom⟩ := searching_behind hsearching
    exact hw.behind hturn rfl rfl hahead hchecked hrest hfrom nofun fun _ => hsearching
  | clears i j hpc =>
    obtain rfl : i = p := by rcases hpc with hpc | hpc <;> rw [hpc] at hp <;> exact Option.some.inj hp
    have hsearching : Searching i w.state.pc := ⟨j, hpc⟩
    cases hfound : w.state.rcpDevList i with
    | some dev => exact clears_sound hw hsearching hfound
    | none =>
      have hrecord : (w.state.edit i RCP_DEV.clear).rcpDevList i = w.state.rcpDevList i := by
        rw [edit_self, hfound]
        rfl
      obtain ⟨hahead, hchecked, hrest, hfrom⟩ := searching_behind hsearching
      exact hw.behind hturn hrecord rfl hahead hchecked hrest hfrom nofun fun _ => hsearching
  | vanished i hpc hnone =>
    rw [hpc] at hp
    obtain rfl := Option.some.inj hp
    exact hw.passes hturn rfl rfl (fun _ => hnone) nofun nofun fun dev hdev =>
      absurd (hnone.symm.trans hdev) (Option.some_ne_none dev).symm
  | replaces i dev hpc hfound hknown hhandled =>
    rw [hpc] at hp
    obtain rfl := Option.some.inj hp
    exact replaces_sound hw hs hpc hfound hknown hhandled
  | registers i dev hpc hfound hno =>
    rw [hpc] at hp
    obtain rfl := Option.some.inj hp
    exact registers_sound hw hs hpc hfound hno

/-! ## Replies and commands -/

theorem after_due_of_due (hold : Good p pc w.standing w.due dev) (hnews : news w.state t = []) (hdue : w.due ≠ none) :
    (w.after p t).due = w.due := by
  rcases after_due_cases (p := p) hnews with hsame | ⟨m, hstanding, hnow, -⟩
  · exact hsame
  · obtain ⟨rfl, -, -⟩ := registered_some (hold.standing.symm.trans hstanding)
    exact hnow.trans (hold.due hdue).1.symm

/-- A step outside the monitor, which leaves it where it is. -/
theorem Sound.outside {dev' : RCP_DEV} (hw : Sound p w) (hpc : t.pc = w.state.pc)
    (hreports : t.reports = w.state.reports) (hfound : w.state.rcpDevList p = some dev)
    (hnew : t.rcpDevList p = some dev') (hgood : Good p w.state.pc w.standing (w.after p t).due dev') :
    Sound p (w.after p t) := by
  have hnews : news w.state t = [] := news_same hreports
  have hstarts : ¬ Starts w.state t := fun h => by
    have hpc := h.2.symm.trans (hpc.trans h.1)
    cases hpc
  have howed : (w.after p t).owed = w.owed := by
    unfold Watch.after
    rw [if_neg hstarts, hnews]
    rfl
  have hplaced := hw.placed
  rw [← hpc] at hgood hplaced
  refine ⟨hplaced, fun found hfound => ?_, fun hnone => absurd (hnew.symm.trans hnone) (Option.some_ne_none _), ?_⟩
  · obtain rfl := Option.some.inj (hnew.symm.trans hfound)
    rw [after_standing hnews]
    exact hgood
  · rw [howed]
    rcases hw.owed with hnone | ⟨heq, hchecked⟩
    · exact .inl hnone
    · by_cases hdue : w.due = none
      · exact .inl (heq.trans hdue)
      · refine .inr ⟨heq.trans (after_due_of_due (hw.record dev hfound) hnews hdue).symm, ?_⟩
        change Checked p t.pc
        rwa [hpc]

theorem answers_sound {mask : UInt8} (hw : Sound p w) (hpc : t.pc = w.state.pc) (hreports : t.reports = w.state.reports)
    (hfound : w.state.rcpDevList p = some dev) (hnew : t.rcpDevList p = some (dev.answer m mask))
    (hreturned : Returned p w.state t) : Sound p (w.after p t) := by
  have hold := hw.record dev hfound
  have hback := hreturned dev hfound _ hnew
  refine hw.outside hpc hreports hfound hnew ⟨hold.online, hold.previous, hold.port, hold.standing, hold.stands, ?_,
    hold.registers, hold.searching, ?_⟩
  · intro hknown hhandled hsame hpc
    by_cases hmac : dev.switchMac = dev.previousswitchMac
    · exact hold.gone hknown hhandled hmac hpc
    · obtain ⟨-, hprevious, hstatus⟩ := (hback hknown hmac hsame).resolve_left hpc
      exact ⟨hprevious, fun hbehind => hstatus.resolve_right hbehind⟩
  · intro hdue
    rcases after_due_cases (p := p) (news_same hreports) with hsame | ⟨q, hstanding, hnow, hfails⟩
    · rw [hsame] at hdue ⊢
      obtain ⟨hq, hknown, hhandled, hmine⟩ := hold.due hdue
      refine ⟨hq, hknown, hhandled, fun heq => ?_⟩
      by_cases hmac : dev.switchMac = dev.previousswitchMac
      · exact hmine hmac
      · exact (hback hknown hmac heq).elim .inr fun h => absurd h.1 hhandled
    · obtain ⟨rfl, hknown, hhandled⟩ := registered_some (hold.standing.symm.trans hstanding)
      refine ⟨hnow, hknown, hhandled, fun heq => ?_⟩
      rw [hfound, hnew] at hfails
      rcases of_decide_eq_true hfails with ⟨hon, hoff⟩ | ⟨-, hother⟩
      · rw [show dev.onlineStatus = 0 from hoff] at hon
        exact absurd hon (by decide)
      · exact absurd heq hother

theorem masks_sound {mask : UInt8} (hw : Sound p w) (hpc : t.pc = w.state.pc) (hreports : t.reports = w.state.reports)
    (hfound : w.state.rcpDevList p = some dev) (hnew : t.rcpDevList p = some { dev with alarmMask := mask }) :
    Sound p (w.after p t) := by
  have hold := hw.record dev hfound
  have hdue : (w.after p t).due = w.due := by
    rcases after_due_cases (p := p) (news_same hreports) with hsame | ⟨q, -, -, hfails⟩
    · exact hsame
    · rw [hfound, hnew] at hfails
      exact absurd hfails (ne_true_of_eq_false (fails_same (x := some dev)))
  refine hw.outside hpc hreports hfound hnew ?_
  rw [hdue]
  exact ⟨hold.online, hold.previous, hold.port, hold.standing, hold.stands, hold.gone, hold.registers, hold.searching,
    hold.due⟩

/-- A port without a record gets one, or none. -/
theorem new_sound (hw : Sound p w) (hpc : t.pc = w.state.pc) (hreports : t.reports = w.state.reports)
    (hnone : w.state.rcpDevList p = none)
    (hnew : ∀ dev, t.rcpDevList p = some dev → ∃ (mac : Mac) (mask : UInt8), dev = (RCP_DEV.fresh p).answer mac mask) :
    Sound p (w.after p t) := by
  have hnews : news w.state t = [] := news_same hreports
  obtain ⟨hstanding, hdue, hsearch, hregister⟩ := hw.empty hnone
  have hstand : (w.after p t).standing = none := by
    rw [after_standing hnews, hstanding]
    rfl
  have hstill : (w.after p t).due = none := by
    rw [after_settled hnews (by rw [hstanding]; rfl), hdue]
    rfl
  have howed : (w.after p t).owed = none := by
    have hold : w.owed = none := hw.owed_none (.inr hdue)
    unfold Watch.after
    dsimp only
    split_ifs
    · exact hdue
    · rw [hold]
      exact settle_none
  have hplaced := hw.placed
  rw [← hpc] at hplaced hsearch hregister
  refine ⟨hplaced, fun dev hdev => ?_, fun _ => ⟨hstand, hstill, hsearch, hregister⟩, .inl howed⟩
  obtain ⟨mac, mask, rfl⟩ := hnew dev hdev
  rw [hstand, hstill]
  refine ⟨.inl rfl, .inl rfl, fun h => absurd rfl h, ?_, fun h => absurd rfl h, fun h => absurd rfl h,
    fun h => absurd h hregister, fun h => absurd h hsearch, fun h => absurd rfl h⟩
  exact (if_neg fun h => h.1 rfl).symm

/-- Only a command drops a record. -/
theorem dropped (hev : ∀ env, e ≠ .monitor env) (hrecords : e ≠ .auth true) (h : (s.step e).rcpDevList p = none) :
    s.rcpDevList p = none := by
  cases e with
  | monitor env => exact absurd rfl (hev env)
  | frame mal portid len frame =>
    have hreceives := frame_receives s mal portid len frame
    change (s.RcpFrameRevHandle mal portid len frame).rcpDevList p = none at h
    generalize s.RcpFrameRevHandle mal portid len frame = t at hreceives h
    cases hreceives with
    | drops => exact h
    | starves => exact h
    | answers dev mac =>
      by_cases hp : p = portid
      · subst hp
        exact absurd ((update_self ..).symm.trans h) (Option.some_ne_none _)
      · exact (update_of_ne hp ..).symm.trans h
  | auth enable =>
    cases enable with
    | true => exact absurd rfl hrecords
    | false => exact h
  | set enable => exact h
  | mask onuPort all enable =>
    obtain ⟨g, m, u, heq, rfl | rfl⟩ := mask_cases s onuPort all enable
    · rw [State.step, heq] at h
      exact h
    · rw [State.step, heq] at h
      by_cases hp : p = onuPort
      · subst hp
        exact Option.map_eq_none_iff.mp ((edit_self _).symm.trans h)
      · exact (edit_other _ hp).symm.trans h

theorem outside_sound (hw : Sound p w) (hev : ∀ env, e ≠ .monitor env) (hrecords : e ≠ .auth true)
    (hreturned : w.state.Answered p e → Returned p w.state (w.state.step e)) : Sound p (w.step p e) := by
  obtain ⟨houtside, hpc, hreports⟩ := event_outside (s := w.state) p hev
  have hkeeps : (w.state.step e).rcpDevList p = w.state.rcpDevList p → Sound p (w.step p e) := fun hsame => by
    cases hfound : w.state.rcpDevList p with
    | none => exact new_sound hw hpc hreports hfound fun dev hdev =>
        absurd (hsame.symm.trans hdev) (by rw [hfound]; exact (Option.some_ne_none dev).symm)
    | some dev =>
      have hold := hw.record dev hfound
      refine hw.outside hpc hreports hfound (hsame.trans hfound) ?_
      rwa [after_due (by rw [news_same hreports]; exact fun _ hr => absurd hr List.not_mem_nil) hsame]
  cases houtside with
  | answers dev mac mask hanswered hold hnew =>
    rcases hold with hfound | ⟨hnone, rfl⟩
    · exact answers_sound hw hpc hreports hfound hnew (hreturned hanswered)
    · exact new_sound hw hpc hreports hnone fun dev hdev => ⟨mac, mask, Option.some.inj (hdev.symm.trans hnew)⟩
  | drops _ hnone => exact hkeeps (hnone.trans (dropped hev hrecords hnone).symm)
  | keeps _ hsame => exact hkeeps hsame
  | masks mask _ hnew =>
    cases hfound : w.state.rcpDevList p with
    | none =>
      rw [hfound] at hnew
      exact hkeeps (hnew.trans hfound.symm)
    | some dev =>
      rw [hfound] at hnew
      exact masks_sound hw hpc hreports hfound hnew

theorem step_sound (hw : Sound p w) (h : Careful p w e) : Sound p (w.step p e) := by
  by_cases hmonitor : ∃ env, e = .monitor env
  · obtain ⟨env, rfl⟩ := hmonitor
    have hturn := monitor_turn w.state env
    by_cases hp : w.state.pc.port = some p
    · exact here_sound hturn hp hw (h.spared env rfl)
    · exact elsewhere_sound hturn hp hw h.rounds.check (h.spared env rfl)
  · exact outside_sound hw (not_exists.mp hmonitor) h.rounds.records h.returned

/-! ## Every run -/

theorem ret_ok (h : Accepts s env dev) (mac : Mac) :
    s.ret env 0 dev RCP_ALARM_STATUS_OFFLINE mac ONU_SWITCH_STATUS_CHANGE_ALM_OFFLINE = some .RCP_OK := by
  obtain ⟨hmask, ⟨fifo, hfifo, hroom⟩, hmalloc, hbody⟩ := h
  obtain ⟨a, ha⟩ := Option.isSome_iff_exists.mp hmalloc
  rw [State.ret, if_pos hmask, switch_alarms.State.pushOneSwitchStatusChgMsg, Option.mem_def.mp hfifo]
  dsimp only
  rw [if_neg (UInt16.not_le.mpr hroom), ha]
  dsimp only
  rw [if_neg (by rw [hbody]; nofun)]

theorem tells (hw : Sound p w) (h : Careful p w e) : Tells p w e := by
  refine ⟨fun hends => ?_, fun r hr hport htype => ?_, ?_⟩
  · rcases (step_sound hw h).owed with hnone | ⟨-, hchecked⟩
    · exact hnone
    · change Checked p (w.state.step e).pc at hchecked
      rw [hends.2] at hchecked
      exact hchecked.elim
  · by_cases hmonitor : ∃ env, e = .monitor env
    swap
    · obtain ⟨-, -, hreports⟩ := event_outside (s := w.state) p (not_exists.mp hmonitor)
      rw [news_same hreports] at hr
      cases hr
    obtain ⟨env, rfl⟩ := hmonitor
    obtain ⟨dev, hfound, -, hcase⟩ := offline_news (monitor_turn w.state env) r hr htype
    rw [hport] at hfound hcase
    have hold := hw.record dev hfound
    rcases hcase with ⟨hat, -, hfell, hmac⟩ | ⟨hpc, -, hknown, hhandled, hmac⟩
    · rw [hat.pc] at hold
      rw [hmac]
      exact (hold.fell hat.mac hfell ((h.spared env rfl).falls hat.pc dev hfound hat.mac hfell)).2.2
    · rw [hmac]
      exact hold.standing_some hknown hhandled
  · rintro env rfl dev hfound haccepts r hr hport htype
    obtain ⟨found, hown, hret, -⟩ := offline_news (monitor_turn w.state env) r hr htype
    rw [hport] at hown
    obtain rfl := Option.some.inj (Option.mem_def.mp hfound ▸ hown)
    rw [hret]
    exact ret_ok haccepts r.mac

theorem init_sound (p : Nat) (mal : Bool) : Sound p (Watch.init mal) :=
  ⟨trivial, nofun, fun _ => ⟨rfl, rfl, nofun, nofun⟩, .inl rfl⟩

end

/-- The switch at port 1 registers in the first round and is replaced in the second one, up to the
alarms of its check. -/
def replacement : List Event := helloReply 1 :: steps 0 55 ++ helloReply 2 :: steps 55 33

/-- The same frame at another port. -/
def atPort (port : Nat) : Event → Event
  | .frame mal _ len frame => .frame mal port len frame
  | e => e

/-- The switch at port 2 registers in the first round and falls in the third one; one at port 1 is
new in the third one. -/
def fall : List Event := atPort 2 (helloReply 1) :: steps 0 111 ++ helloReply 2 :: steps 111 30

/-- The step in which the EEPROM of the switch at port 1 is not read. -/
def unread : Event := .monitor { calm 141 with info := false }

end gwdonu.switch_outages
