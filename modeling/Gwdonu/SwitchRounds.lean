-- What one step of the monitor can do: which record it writes, what it reports, and where it
-- goes on.
import Gwdonu.SwitchMonitor

namespace gwdonu.switch_monitor

open Function
open oam (Mem)
open rcp (MAX_RRCP_SWITCH_TO_MANAGE RCP_PKT_MAX_LENGTH)

section
variable {s : State} {e : Env} {i j k : Nat} {dev : RCP_DEV}

/-! ## Writes -/

@[simp] theorem edit_self (f : RCP_DEV → RCP_DEV) : (s.edit i f).rcpDevList i = (s.rcpDevList i).map f :=
  update_self ..

@[simp] theorem edit_other (f : RCP_DEV → RCP_DEV) (h : j ≠ i) : (s.edit i f).rcpDevList j = s.rcpDevList j :=
  update_of_ne h ..

@[simp] theorem edit_reports (f : RCP_DEV → RCP_DEV) : (s.edit i f).reports = s.reports := rfl

@[simp] theorem edit_alarms (f : RCP_DEV → RCP_DEV) : (s.edit i f).alarms = s.alarms := rfl

/-- What the call of the push gives, when it is made. -/
def State.ret (s : State) (e : Env) (k : Nat) (dev : RCP_DEV) (mask : UInt8) (mac : Mac) (msgType : UInt8) :
    Option rcp.RCP_RET :=
  if dev.alarmMask &&& mask = 0 then
    some (s.alarms.pushOneSwitchStatusChgMsg (e.mal k) (e.body k) dev.paPort mac msgType 0).2
  else none

section
variable (mask : UInt8) (mac : Mac) (msgType : UInt8)

@[simp] theorem report_list : (s.report e k i dev mask mac msgType).rcpDevList = s.rcpDevList := by
  unfold State.report
  split <;> rfl

@[simp] theorem report_reports : (s.report e k i dev mask mac msgType).reports =
    s.reports ++ [⟨i, mac, msgType, s.ret e k dev mask mac msgType⟩] := by
  unfold State.report State.ret
  split <;> rfl

@[simp] theorem report_auth : (s.report e k i dev mask mac msgType).gulGwdRcpAuth = s.gulGwdRcpAuth := by
  unfold State.report
  split <;> rfl

@[simp] theorem report_enable :
    (s.report e k i dev mask mac msgType).gulEnableEpswitchMgt = s.gulEnableEpswitchMgt := by
  unfold State.report
  split <;> rfl

end

theorem valid_iff (h : i < MAX_RRCP_SWITCH_TO_MANAGE) :
    s.RCP_Dev_Is_Valid i ↔ (s.rcpDevList i).filter (·.switchMac ≠ nullMac) ≠ none := by
  unfold State.RCP_Dev_Is_Valid
  cases s.rcpDevList i with
  | none => simp
  | some dev => by_cases hnull : dev.switchMac = nullMac <;> simp [h, hnull]

/-! ## Steps -/

/-- A switch that went offline: it has an edge in its status. -/
def RCP_DEV.Fell (dev : RCP_DEV) : Prop := dev.onlineStatus = 0 ∧ dev.previousOnlineStatus = 1

/-- A switch that came back. -/
def RCP_DEV.Rose (dev : RCP_DEV) : Prop := dev.onlineStatus = 1 ∧ dev.previousOnlineStatus = 0

/-- The check is at a record that names a switch. -/
structure State.At (s : State) (i : Nat) (dev : RCP_DEV) : Prop where
  pc : s.pc = .check i
  port : i < MAX_RRCP_SWITCH_TO_MANAGE
  found : s.rcpDevList i = some dev
  mac : dev.switchMac ≠ nullMac

def State.reportOffline (s : State) (e : Env) (i : Nat) (dev : RCP_DEV) (mac : Mac) : State :=
  s.report e 0 i dev RCP_ALARM_STATUS_OFFLINE mac ONU_SWITCH_STATUS_CHANGE_ALM_OFFLINE

def State.reportRegister (s : State) (e : Env) (i : Nat) (dev : RCP_DEV) : State :=
  s.report e 1 i dev RCP_ALARM_STATUS_REGISTER dev.switchMac ONU_SWITCH_STATUS_CHANGE_ALM_REG

def State.reportReregister (s : State) (e : Env) (i : Nat) (dev : RCP_DEV) : State :=
  s.report e 0 i dev RCP_ALARM_STATUS_RE_REGISTER dev.switchMac ONU_SWITCH_STATUS_CHANGE_ALM_REREG

inductive State.Turn (s : State) (e : Env) : State → Prop
  | waits : s.pc = .round → s.Turn e { s with pc := .round }
  | begins : s.pc = .round → s.gulEnableEpswitchMgt = true → s.Turn e { s with pc := .hello 1 }
  | skips : s.pc = .round → s.gulEnableEpswitchMgt = false → s.Turn e { s with pc := .rest }
  | rests (i : Nat) : s.pc = .hello i → MAX_RRCP_SWITCH_TO_MANAGE ≤ i → s.Turn e { s with pc := .rest }
  | hello (i : Nat) : s.pc = .hello i → i < MAX_RRCP_SWITCH_TO_MANAGE → s.RCP_Dev_Is_Valid i →
      s.Turn e { s with pc := .status i }
  | passes (i : Nat) : s.pc = .hello i → i < MAX_RRCP_SWITCH_TO_MANAGE → ¬ s.RCP_Dev_Is_Valid i →
      s.Turn e { s with pc := .hello (i + 1) }
  | polls (i : Nat) : s.pc = .status i → s.Turn e { s.edit i RCP_DEV.poll with pc := .hello (i + 1) }
  | checks : s.pc = .rest → s.gulEnableEpswitchMgt = true → s.Turn e { s with pc := .check 1 }
  | leaves : s.pc = .rest → s.gulEnableEpswitchMgt = false → s.Turn e { s with pc := .round }
  | ends (i : Nat) (alarms : switch_alarms.State) : s.pc = .check i → MAX_RRCP_SWITCH_TO_MANAGE ≤ i →
      (alarms = s.alarms ∨ alarms = s.alarms.step (.pop e.sends)) → s.Turn e { s with alarms, pc := .round }
  | empty (i : Nat) : s.pc = .check i → i < MAX_RRCP_SWITCH_TO_MANAGE → ¬ s.RCP_Dev_Is_Valid i →
      s.Turn e { s with pc := .check (i + 1) }
  | falls (i : Nat) (dev : RCP_DEV) : s.At i dev → ¬ dev.RCP_Dev_Is_Exist (e.up i) → dev.Fell →
      s.Turn e { (s.reportOffline e i dev dev.switchMac).edit i RCP_DEV.offline with pc := .clear i 1 }
  | absent (i : Nat) (dev : RCP_DEV) (pc : Pc) : s.At i dev → ¬ dev.RCP_Dev_Is_Exist (e.up i) → ¬ dev.Fell →
      (dev.handled ∧ pc = .clear i 1 ∨ ¬ dev.handled ∧ pc = .check (i + 1)) → s.Turn e { s with pc }
  | rises (i : Nat) (dev : RCP_DEV) : s.At i dev → dev.RCP_Dev_Is_Exist (e.up i) →
      dev.switchMac = dev.previousswitchMac → dev.Rose → dev.handled →
      s.Turn e { (s.reportReregister e i dev).edit i RCP_DEV.reregister with pc := .check (i + 1) }
  | rises_quietly (i : Nat) (dev : RCP_DEV) : s.At i dev → dev.RCP_Dev_Is_Exist (e.up i) →
      dev.switchMac = dev.previousswitchMac → dev.Rose → ¬ dev.handled →
      s.Turn e { s.edit i RCP_DEV.reregister with pc := .check (i + 1) }
  | stays (i : Nat) (dev : RCP_DEV) : s.At i dev → dev.RCP_Dev_Is_Exist (e.up i) →
      dev.switchMac = dev.previousswitchMac → ¬ dev.Rose → s.Turn e { s with pc := .check (i + 1) }
  | reads (i : Nat) (dev : RCP_DEV) : s.At i dev → dev.RCP_Dev_Is_Exist (e.up i) →
      dev.switchMac ≠ dev.previousswitchMac → s.Turn e { s with pc := .register i }
  | unread (i : Nat) (dev : RCP_DEV) : s.At i dev → dev.RCP_Dev_Is_Exist (e.up i) →
      dev.switchMac ≠ dev.previousswitchMac → e.info = false → s.Turn e { s with pc := .round }
  | searched (i j : Nat) : s.pc = .clear i j → MAX_RRCP_SWITCH_TO_MANAGE ≤ j → s.Turn e { s with pc := .check (i + 1) }
  | looks (i j : Nat) : s.pc = .clear i j → s.Turn e { s with pc := .appear i j }
  | others (i j : Nat) : s.pc = .clear i j ∨ s.pc = .appear i j → s.Turn e { s with pc := .clear i (j + 1) }
  | clears (i j : Nat) : s.pc = .clear i j ∨ s.pc = .appear i j →
      s.Turn e { s.edit i RCP_DEV.clear with pc := .clear i (j + 1) }
  | vanished (i : Nat) : s.pc = .register i → s.rcpDevList i = none → s.Turn e { s with pc := .check (i + 1) }
  | replaces (i : Nat) (dev : RCP_DEV) : s.pc = .register i → s.rcpDevList i = some dev →
      dev.previousswitchMac ≠ nullMac → ¬ dev.handled →
      s.Turn e { ((s.reportOffline e i dev dev.previousswitchMac).reportRegister e i dev).edit i RCP_DEV.register with
        pc := .check (i + 1) }
  | registers (i : Nat) (dev : RCP_DEV) : s.pc = .register i → s.rcpDevList i = some dev →
      (dev.previousswitchMac = nullMac ∨ dev.handled) →
      s.Turn e { (s.reportRegister e i dev).edit i RCP_DEV.register with pc := .check (i + 1) }

theorem checkOffline_turn (h : s.At i dev) (hexist : ¬ dev.RCP_Dev_Is_Exist (e.up i)) :
    s.Turn e (s.checkOffline e i dev) := by
  unfold State.checkOffline
  by_cases hfell : dev.Fell
  · have hgone : dev.onlineStatus = 0 ∧ dev.previousOnlineStatus = 1 := hfell
    simp only [hgone, and_self, if_true, true_or]
    exact .falls i dev h hexist hfell
  · have hgone : ¬ (dev.onlineStatus = 0 ∧ dev.previousOnlineStatus = 1) := hfell
    simp only [hgone, if_false, false_or]
    refine .absent i dev _ h hexist hfell ?_
    by_cases hhandled : dev.handled
    · exact .inl ⟨hhandled, if_pos hhandled⟩
    · exact .inr ⟨hhandled, if_neg hhandled⟩

theorem checkSame_turn (h : s.At i dev) (hexist : dev.RCP_Dev_Is_Exist (e.up i))
    (hsame : dev.switchMac = dev.previousswitchMac) : s.Turn e (s.checkSame e i dev) := by
  unfold State.checkSame
  by_cases hrose : dev.Rose
  · have hback : dev.onlineStatus = 1 ∧ dev.previousOnlineStatus = 0 := hrose
    by_cases hhandled : dev.handled
    · simp only [hback, and_self, if_true, hhandled]
      exact .rises i dev h hexist hsame hrose hhandled
    · simp only [hback, and_self, if_true, hhandled, if_false]
      exact .rises_quietly i dev h hexist hsame hrose hhandled
  · have hback : ¬ (dev.onlineStatus = 1 ∧ dev.previousOnlineStatus = 0) := hrose
    simp only [hback, if_false]
    exact .stays i dev h hexist hsame hrose

theorem checkNew_turn (hpc : s.pc = .register i) (hfound : s.rcpDevList i = some dev) :
    s.Turn e (s.checkNew e i dev) := by
  unfold State.checkNew
  by_cases hnew : dev.previousswitchMac = nullMac ∨ dev.handled
  · simp only [hnew, if_true]
    exact .registers i dev hpc hfound hnew
  · simp only [hnew, if_false]
    obtain ⟨hknown, hhandled⟩ := not_or.mp hnew
    exact .replaces i dev hpc hfound hknown hhandled

theorem checkOther_turn (j : Nat) (hpc : s.pc = .clear i j ∨ s.pc = .appear i j) :
    s.Turn e { s.checkOther i j with pc := .clear i (j + 1) } := by
  unfold State.checkOther
  split
  · exact .clears i j hpc
  · exact .others i j hpc

theorem monitor_turn (s : State) (e : Env) : s.Turn e (s.monitor e) := by
  unfold State.monitor
  cases hpc : s.pc with
  | round =>
    dsimp only
    split
    · exact .waits hpc
    split
    · rename_i henable
      exact .begins hpc henable
    · rename_i henable
      exact .skips hpc (Bool.eq_false_iff.mpr henable)
  | hello i =>
    dsimp only
    split
    · rename_i hend
      exact .rests i hpc hend
    rename_i hend
    split
    · rename_i hvalid
      exact .hello i hpc (Nat.not_le.mp hend) hvalid
    · rename_i hvalid
      exact .passes i hpc (Nat.not_le.mp hend) hvalid
  | status i => exact .polls i hpc
  | rest =>
    dsimp only
    split
    · rename_i henable
      exact .checks hpc henable
    · rename_i henable
      exact .leaves hpc (Bool.eq_false_iff.mpr henable)
  | check i =>
    dsimp only
    split
    · rename_i hend
      refine .ends i _ hpc hend ?_
      split
      · exact .inr rfl
      · exact .inl rfl
    rename_i hend
    have hport := Nat.not_le.mp hend
    cases hvalid : (s.rcpDevList i).filter (·.switchMac ≠ nullMac) with
    | none =>
      refine .empty i hpc hport ?_
      rw [valid_iff hport, hvalid]
      simp
    | some dev =>
      dsimp only
      obtain ⟨hfound, hmac⟩ := Option.filter_eq_some_iff.mp hvalid
      have hat : s.At i dev := ⟨hpc, hport, hfound, by simpa using hmac⟩
      split
      · rename_i hexist
        exact checkOffline_turn hat hexist
      rename_i hexist
      have hexist := not_not.mp hexist
      split
      · rename_i hsame
        exact checkSame_turn hat hexist hsame
      · rename_i hnew
        split
        · exact .reads i dev hat hexist hnew
        · rename_i hinfo
          exact .unread i dev hat hexist hnew (Bool.eq_false_iff.mpr hinfo)
  | clear i j =>
    dsimp only
    split
    · rename_i hend
      exact .searched i j hpc hend
    cases s.rcpDevList j with
    | none => exact .looks i j hpc
    | some dev =>
      dsimp only
      split
      · exact checkOther_turn j (.inl hpc)
      · exact .others i j (.inl hpc)
  | appear i j =>
    dsimp only
    split
    · exact checkOther_turn j (.inr hpc)
    · exact .others i j (.inr hpc)
  | register i =>
    dsimp only
    cases hfound : s.rcpDevList i with
    | none => exact .vanished i hpc hfound
    | some dev => exact checkNew_turn hpc hfound

/-! ## Ports -/

/-- The port that the monitor is at. -/
def Pc.port : Pc → Option Nat
  | .round | .rest => none
  | .hello i | .status i | .check i | .clear i _ | .appear i _ | .register i => some i

/-- What a step reports. -/
def news (s t : State) : List Report := t.reports.drop s.reports.length

theorem news_append {s t : State} {l : List Report} (h : t.reports = s.reports ++ l) : news s t = l := by
  rw [news, h, List.drop_left]

theorem mem_news {s t : State} {l : List Report} {r : Report} (hr : r ∈ news s t) (h : t.reports = s.reports ++ l) :
    r ∈ l := by
  rwa [news_append h] at hr

@[simp] theorem news_same {s t : State} (h : t.reports = s.reports) : news s t = [] :=
  news_append (by rw [h, List.append_nil])

/-- The step is none of the port's. -/
structure Elsewhere (p : Nat) (s t : State) : Prop where
  record : t.rcpDevList p = s.rcpDevList p
  comes : t.pc.port = some p → t.pc = .hello p ∨ t.pc = .check p
  news : ∀ r ∈ news s t, r.port ≠ p

section
variable {p : Nat} {u t : State}

/-- A write to another record, with these reports. -/
theorem edit_elsewhere (hi : i ≠ p) (f : RCP_DEV → RCP_DEV) {pc : Pc} (hu : u.rcpDevList = s.rcpDevList)
    {l : List Report} (hl : u.reports = s.reports ++ l) (hports : ∀ r ∈ l, r.port = i)
    (hpc : pc.port = some p → pc = .hello p ∨ pc = .check p) : Elsewhere p s { u.edit i f with pc } := by
  refine ⟨?_, hpc, ?_⟩
  · exact (edit_other f (Ne.symm hi)).trans (congrFun hu p)
  · intro r hr
    rw [news_append (t := { u.edit i f with pc }) hl] at hr
    rw [hports r hr]
    exact hi

theorem moves_elsewhere (alarms : switch_alarms.State) {pc : Pc}
    (hpc : pc.port = some p → pc = .hello p ∨ pc = .check p) : Elsewhere p s { s with alarms, pc } := by
  refine ⟨rfl, hpc, ?_⟩
  intro r hr
  simp [news] at hr

theorem comes_next (h : (Pc.hello i).port = some p) : Pc.hello i = .hello p ∨ Pc.hello i = .check p :=
  .inl (congrArg Pc.hello (Option.some.inj h))

theorem comes_check (h : (Pc.check i).port = some p) : Pc.check i = .hello p ∨ Pc.check i = .check p :=
  .inr (congrArg Pc.check (Option.some.inj h))

theorem replace_reports (i : Nat) (dev : RCP_DEV) :
    ((s.reportOffline e i dev dev.previousswitchMac).reportRegister e i dev).reports = s.reports ++
      [⟨i, dev.previousswitchMac, ONU_SWITCH_STATUS_CHANGE_ALM_OFFLINE,
        s.ret e 0 dev RCP_ALARM_STATUS_OFFLINE dev.previousswitchMac ONU_SWITCH_STATUS_CHANGE_ALM_OFFLINE⟩,
        ⟨i, dev.switchMac, ONU_SWITCH_STATUS_CHANGE_ALM_REG,
          (s.reportOffline e i dev dev.previousswitchMac).ret e 1 dev RCP_ALARM_STATUS_REGISTER dev.switchMac
            ONU_SWITCH_STATUS_CHANGE_ALM_REG⟩] := by
  unfold State.reportRegister State.reportOffline
  rw [report_reports, report_reports, List.append_assoc]
  rfl

theorem turn_elsewhere (h : s.Turn e t) (hp : s.pc.port ≠ some p) : Elsewhere p s t := by
  cases h with
  | waits | skips | rests | checks | leaves | empty | passes | begins | stays | searched | vanished | unread =>
    refine moves_elsewhere s.alarms ?_
    first
      | exact fun h => absurd h (Option.some_ne_none p).symm
      | exact comes_next
      | exact comes_check
  | ends => exact moves_elsewhere _ fun h => absurd h (Option.some_ne_none p).symm
  | hello i hpc =>
    rw [hpc] at hp
    exact moves_elsewhere s.alarms fun h => absurd h hp
  | polls i hpc =>
    rw [hpc] at hp
    exact edit_elsewhere (fun he => hp (congrArg some he)) .poll rfl (List.append_nil _).symm (by simp) comes_next
  | falls i dev hat =>
    rw [hat.pc] at hp
    exact edit_elsewhere (fun he => hp (congrArg some he)) .offline (report_list ..) (report_reports ..) (by simp)
      fun h => absurd h hp
  | absent i dev pc hat _ _ hto =>
    rw [hat.pc] at hp
    refine moves_elsewhere s.alarms ?_
    rcases hto with ⟨-, rfl⟩ | ⟨-, rfl⟩
    · exact fun h => absurd h hp
    · exact comes_check
  | rises i dev hat =>
    rw [hat.pc] at hp
    exact edit_elsewhere (fun he => hp (congrArg some he)) .reregister (report_list ..) (report_reports ..) (by simp)
      comes_check
  | rises_quietly i dev hat =>
    rw [hat.pc] at hp
    exact edit_elsewhere (fun he => hp (congrArg some he)) .reregister rfl (List.append_nil _).symm (by simp)
      comes_check
  | reads i dev hat =>
    rw [hat.pc] at hp
    exact moves_elsewhere s.alarms fun h => absurd h hp
  | looks i j hpc =>
    rw [hpc] at hp
    exact moves_elsewhere s.alarms fun h => absurd h hp
  | others i j hpc =>
    have hi : s.pc.port = some i := by rcases hpc with hpc | hpc <;> rw [hpc] <;> rfl
    rw [hi] at hp
    exact moves_elsewhere s.alarms fun h => absurd h hp
  | clears i j hpc =>
    have hi : s.pc.port = some i := by rcases hpc with hpc | hpc <;> rw [hpc] <;> rfl
    rw [hi] at hp
    exact edit_elsewhere (fun he => hp (congrArg some he)) .clear rfl (List.append_nil _).symm (by simp)
      fun h => absurd h hp
  | replaces i dev hpc =>
    rw [hpc] at hp
    exact edit_elsewhere (fun he => hp (congrArg some he)) .register ((report_list ..).trans (report_list ..))
      (replace_reports i dev) (by simp) comes_check
  | registers i dev hpc =>
    rw [hpc] at hp
    exact edit_elsewhere (fun he => hp (congrArg some he)) .register (report_list ..) (report_reports ..) (by simp)
      comes_check

theorem reg_ne_offline : ONU_SWITCH_STATUS_CHANGE_ALM_REG ≠ ONU_SWITCH_STATUS_CHANGE_ALM_OFFLINE := by decide

theorem rereg_ne_offline : ONU_SWITCH_STATUS_CHANGE_ALM_REREG ≠ ONU_SWITCH_STATUS_CHANGE_ALM_OFFLINE := by decide

/-- An OFFLINE alarm is of a switch whose status has fallen, or that was replaced. -/
theorem offline_news (h : s.Turn e t) : ∀ r ∈ news s t, r.msgType = ONU_SWITCH_STATUS_CHANGE_ALM_OFFLINE →
    ∃ dev, s.rcpDevList r.port = some dev ∧
      r.ret = s.ret e 0 dev RCP_ALARM_STATUS_OFFLINE r.mac ONU_SWITCH_STATUS_CHANGE_ALM_OFFLINE ∧
      (s.At r.port dev ∧ ¬ dev.RCP_Dev_Is_Exist (e.up r.port) ∧ dev.Fell ∧ r.mac = dev.switchMac ∨
        s.pc = .register r.port ∧ t.pc = .check (r.port + 1) ∧ dev.previousswitchMac ≠ nullMac ∧ ¬ dev.handled ∧
          r.mac = dev.previousswitchMac) := by
  intro r hr htype
  have hsame : ∀ u : State, u.reports = s.reports → r ∉ news s u := by
    intro u hu
    rw [news_same hu]
    exact List.not_mem_nil
  cases h with
  | falls i dev hat hexist hfell =>
    obtain rfl := List.mem_singleton.mp (mem_news hr (report_reports ..))
    exact ⟨dev, hat.found, rfl, .inl ⟨hat, hexist, hfell, rfl⟩⟩
  | replaces i dev hpc hfound hknown hhandled =>
    rcases List.mem_cons.mp (mem_news hr (replace_reports i dev)) with rfl | hr
    · exact ⟨dev, hfound, rfl, .inr ⟨hpc, rfl, hknown, hhandled, rfl⟩⟩
    · obtain rfl := List.mem_singleton.mp hr
      exact absurd htype reg_ne_offline
  | rises i dev =>
    obtain rfl := List.mem_singleton.mp (mem_news hr (report_reports ..))
    exact absurd htype rereg_ne_offline
  | registers i dev =>
    obtain rfl := List.mem_singleton.mp (mem_news hr (report_reports ..))
    exact absurd htype reg_ne_offline
  | _ => exact absurd hr (hsame _ rfl)

end

/-! ## Frames -/

/-- The event is a hello reply of the switch at the port, and is processed. -/
def State.Answered (s : State) (p : Nat) : Event → Prop
  | .frame mal portid len frame => portid = p ∧ ¬ (len < 16 ∨ RCP_PKT_MAX_LENGTH - 4 ≤ len) ∧
      s.IsHelloReply (tagged frame len) ∧
      (s.RCP_DevList_Update mal portid (tagged frame len)).map Prod.snd = some .RCP_OK
  | _ => False

instance (s : State) (p : Nat) : (e : Event) → Decidable (s.Answered p e)
  | .frame .. => inferInstanceAs (Decidable (_ ∧ _ ∧ _ ∧ _))
  | .monitor _ | .auth _ | .set _ | .mask .. => .isFalse not_false

/-- What a frame can do: a hello reply writes to the record of its port, or finds no memory for
one. -/
inductive State.Receives (s : State) (mal : Bool) (portid len : Nat) (frame : Mem) : State → Prop
  | drops : ¬ s.Answered portid (.frame mal portid len frame) → s.Receives mal portid len frame s
  | starves : ¬ s.Answered portid (.frame mal portid len frame) →
      s.Receives mal portid len frame { s with semAccessRcpDevList := false }
  | answers (dev : RCP_DEV) (mac : Mac) : s.Answered portid (.frame mal portid len frame) →
      portid < MAX_RRCP_SWITCH_TO_MANAGE → s.record mal portid = some dev →
      (s.gulGwdRcpAuth = true → mac.toList.take 3 = gwdOui) →
      s.Receives mal portid len frame
        { s with rcpDevList := update s.rcpDevList portid (some (dev.answer mac s.gucRcpAlarmMask)) }

/-- What the update can return. -/
inductive State.Updates (s : State) (mal : Bool) (portid : Nat) (pkt : Mem) : Option (State × rcp.RCP_RET) → Prop
  | refuses (code : rcp.RCP_RET) : code ≠ .RCP_OK → s.Updates mal portid pkt (some (s, code))
  | hangs : s.Updates mal portid pkt none
  | starves : s.Updates mal portid pkt (some ({ s with semAccessRcpDevList := false }, .RCP_NO_MEM))
  | answers (dev : RCP_DEV) : portid < MAX_RRCP_SWITCH_TO_MANAGE → s.record mal portid = some dev →
      s.Updates mal portid pkt (some
        ({ s with rcpDevList := update s.rcpDevList portid (some (dev.answer (sourceMac pkt) s.gucRcpAlarmMask)) },
          .RCP_OK))

theorem devList_updates (s : State) (mal : Bool) (portid : Nat) (pkt : Mem) :
    s.Updates mal portid pkt (s.RCP_DevList_Update mal portid pkt) := by
  unfold State.RCP_DevList_Update
  split
  · exact .refuses _ (by decide)
  rename_i hport
  split
  · exact .refuses _ (by decide)
  split
  · exact .hangs
  cases hrecord : s.record mal portid with
  | none => exact .starves
  | some dev => exact .answers dev (Nat.not_le.mp hport) hrecord

theorem frame_receives (s : State) (mal : Bool) (portid len : Nat) (frame : Mem) :
    s.Receives mal portid len frame (s.RcpFrameRevHandle mal portid len frame) := by
  have hupdates := devList_updates s mal portid (tagged frame len)
  unfold State.RcpFrameRevHandle State.rrcp_packet_handler
  split
  · rename_i hlen
    exact .drops fun h => h.2.1 hlen
  rename_i hlen
  split
  swap
  · rename_i hother
    exact .drops fun h => hother h.2.2.1
  rename_i hreply
  -- the reply is answered when the update returns `RCP_OK`
  have hanswered : s.Answered portid (.frame mal portid len frame) ↔
      (s.RCP_DevList_Update mal portid (tagged frame len)).map Prod.snd = some .RCP_OK :=
    ⟨fun h => h.2.2.2, fun h => ⟨rfl, hlen, hreply, h⟩⟩
  generalize s.RCP_DevList_Update mal portid (tagged frame len) = r at hanswered hupdates
  cases hupdates with
  | refuses code hcode => exact .drops fun h => hcode (Option.some.inj (hanswered.mp h))
  | hangs => exact .drops fun h => absurd (hanswered.mp h) (by simp)
  | starves => exact .starves fun h => absurd (hanswered.mp h) (by simp)
  | answers dev hport hrecord => exact .answers dev _ (hanswered.mpr rfl) hport hrecord hreply.1

/-! ## Commands -/

/-- The mask changes, for later records or for this one. -/
theorem mask_cases (s : State) (onuPort : Nat) (all enable : Bool) :
    ∃ (g m : UInt8) (u : State), s.cli_int_mask_alarm_switch onuPort all enable = { u with gucRcpAlarmMask := g } ∧
      (u = s ∨ u = s.edit onuPort fun dev => { dev with alarmMask := m }) := by
  unfold State.cli_int_mask_alarm_switch
  dsimp only
  split
  · exact ⟨s.gucRcpAlarmMask, 0, s, rfl, .inl rfl⟩
  · generalize (if enable = true then
      RCP_ALARM_STATUS_OFFLINE ||| RCP_ALARM_STATUS_REGISTER ||| RCP_ALARM_STATUS_RE_REGISTER else 0) = ucMask
    refine ⟨_, ucMask, _, rfl, ?_⟩
    split
    · exact .inr rfl
    · exact .inl rfl

theorem auth_list (s : State) (enable : Bool) (p : Nat) :
    (s.step (.auth enable)).rcpDevList p = none ∨ (s.step (.auth enable)).rcpDevList p = s.rcpDevList p := by
  have hloop : ∀ (ports : List Nat) (list list' : Nat → Option RCP_DEV), ports.foldlM authPort list = some list' →
      list' p = none ∨ list' p = list p := by
    intro ports
    induction ports with
    | nil =>
      intro list list' h
      obtain rfl := Option.some.inj h
      exact .inr rfl
    | cons i ports ih =>
      intro list list' h
      rw [List.foldlM_cons, authPort] at h
      cases hi : list i with
      | none =>
        rw [hi] at h
        cases h
      | some dev =>
        rw [hi] at h
        rcases ih (update list i none) list' h with hnone | hsame
        · exact .inl hnone
        · rw [hsame]
          by_cases hp : p = i
          · exact .inl (by rw [hp, update_self])
          · exact .inr (update_of_ne hp ..)
  rw [State.step, State.cli_int_switch_manage_auth]
  split
  · cases hrun : (List.range' 1 (MAX_RRCP_SWITCH_TO_MANAGE - 1)).foldlM authPort s.rcpDevList with
    | none => exact .inr rfl
    | some list' => exact hloop _ _ _ hrun
  · exact .inr rfl

/-- What an event that is no step of the monitor does to the record of a port. -/
inductive Outside (p : Nat) (s : State) (e : Event) (t : State) : Prop
  | answers (dev : RCP_DEV) (mac : Mac) (mask : UInt8) : s.Answered p e →
      (s.rcpDevList p = some dev ∨ s.rcpDevList p = none ∧ dev = .fresh p) →
      t.rcpDevList p = some (dev.answer mac mask) → Outside p s e t
  | drops : ¬ s.Answered p e → t.rcpDevList p = none → Outside p s e t
  | keeps : ¬ s.Answered p e → t.rcpDevList p = s.rcpDevList p → Outside p s e t
  | masks (m : UInt8) : ¬ s.Answered p e →
      t.rcpDevList p = (s.rcpDevList p).map (fun dev => { dev with alarmMask := m }) → Outside p s e t

theorem record_cases {mal : Bool} {p : Nat} (h : s.record mal p = some dev) :
    s.rcpDevList p = some dev ∨ s.rcpDevList p = none ∧ dev = .fresh p := by
  unfold State.record at h
  split at h
  · rename_i old hold
    obtain rfl := Option.some.inj h
    exact .inl hold
  · rename_i hnone
    split at h
    · exact .inr ⟨hnone, (Option.some.inj h).symm⟩
    · cases h

theorem event_outside {ev : Event} (p : Nat) (hev : ∀ env, ev ≠ .monitor env) :
    Outside p s ev (s.step ev) ∧ (s.step ev).pc = s.pc ∧ (s.step ev).reports = s.reports := by
  cases ev with
  | monitor env => exact absurd rfl (hev env)
  | frame mal portid len frame =>
    have hreceives := frame_receives s mal portid len frame
    have hstep : s.step (.frame mal portid len frame) = s.RcpFrameRevHandle mal portid len frame := rfl
    rw [hstep]
    generalize s.RcpFrameRevHandle mal portid len frame = t at hreceives
    have hother : portid ≠ p → ¬ s.Answered p (.frame mal portid len frame) := fun hp h => hp h.1
    cases hreceives with
    | drops hno =>
      refine ⟨.keeps ?_ rfl, rfl, rfl⟩
      rintro ⟨rfl, h⟩
      exact hno ⟨rfl, h⟩
    | starves hno =>
      refine ⟨.keeps ?_ rfl, rfl, rfl⟩
      rintro ⟨rfl, h⟩
      exact hno ⟨rfl, h⟩
    | answers dev mac hyes _ hrecord =>
      refine ⟨?_, rfl, rfl⟩
      by_cases hp : portid = p
      · subst hp
        exact .answers dev mac s.gucRcpAlarmMask hyes (record_cases hrecord) (update_self ..)
      · exact .keeps (hother hp) (update_of_ne (Ne.symm hp) ..)
  | auth enable =>
    refine ⟨?_, ?_⟩
    · rcases auth_list s enable p with hnone | hsame
      · exact .drops not_false hnone
      · exact .keeps not_false hsame
    · rw [State.step, State.cli_int_switch_manage_auth]
      split
      · cases (List.range' 1 (MAX_RRCP_SWITCH_TO_MANAGE - 1)).foldlM authPort s.rcpDevList <;> exact ⟨rfl, rfl⟩
      · exact ⟨rfl, rfl⟩
  | set enable => exact ⟨.keeps not_false rfl, rfl, rfl⟩
  | mask onuPort all enable =>
    obtain ⟨g, m, u, heq, rfl | rfl⟩ := mask_cases s onuPort all enable
    · rw [State.step, heq]
      exact ⟨.keeps not_false rfl, rfl, rfl⟩
    · rw [State.step, heq]
      refine ⟨?_, rfl, rfl⟩
      by_cases hp : p = onuPort
      · subst hp
        exact .masks m not_false (edit_self _)
      · exact .keeps not_false (edit_other _ hp)

end

end gwdonu.switch_monitor
