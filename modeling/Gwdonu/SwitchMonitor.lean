-- The switches at the ports: the records that their hello replies make, the rounds of the
-- monitor that tell which of them are online, and what the check behind a round reports.
import Gwdonu.OamFrame
import Gwdonu.SwitchAlarms

namespace gwdonu.switch_monitor

open Function
open oam (Mem load16)
open rcp (RCP_RET MAX_RRCP_SWITCH_TO_MANAGE RCP_PKT_MAX_LENGTH)

/-! ## The records -/

abbrev Mac := Vector UInt8 6

def nullMac : Mac := Vector.replicate 6 0
def gwdOui : List UInt8 := [0x00, 0x0f, 0xe9]
def RCP_MAC_SIZE : Nat := 6
def RCP_HELLO_CHIPID_OFFSET : Nat := 30
def RTL_8208OR8316 : UInt16 := 0xc
def RTL_8324_FOR_GH1524 : UInt16 := 0xd
def RTL_8324_FOR_GH1532 : UInt16 := 0xe
def ETH_TYPE_RRCP : UInt16 := 0x8899
def REALTEK_RRCP_HELLO_REPLY : UInt16 := 0x0180
def RCP_KEEP_ALIVE_TIMEOUT_DEF : UInt8 := 2
def RCP_ALARM_STATUS_REGISTER : UInt8 := 0x01
def RCP_ALARM_STATUS_RE_REGISTER : UInt8 := 0x02
def RCP_ALARM_STATUS_OFFLINE : UInt8 := 0x04
def ONU_SWITCH_STATUS_CHANGE_ALM_REG : UInt8 := 0x01
def ONU_SWITCH_STATUS_CHANGE_ALM_REREG : UInt8 := 0x02
def ONU_SWITCH_STATUS_CHANGE_ALM_OFFLINE : UInt8 := 0x03

structure RCP_DEV where
  switchMac : Mac
  previousswitchMac : Mac
  paPort : UInt8
  onlineStatus : UInt8
  previousOnlineStatus : UInt8
  alarmStatus : UInt8
  alarmMask : UInt8
  timeoutCounter : UInt8
  timeoutFlag : UInt8
  deriving DecidableEq

/-- A record of zeros, but for its port. -/
def RCP_DEV.fresh (parentPort : Nat) : RCP_DEV := ⟨nullMac, nullMac, .ofNat parentPort, 0, 0, 0, 0, 0, 0⟩

/-- What a hello reply writes. -/
def RCP_DEV.answer (mac : Mac) (gucRcpAlarmMask : UInt8) (dev : RCP_DEV) : RCP_DEV :=
  { dev with switchMac := mac, timeoutFlag := 0, timeoutCounter := 0, alarmMask := gucRcpAlarmMask }

/-- What a round writes. -/
def RCP_DEV.poll (dev : RCP_DEV) : RCP_DEV :=
  let dev :=
    if dev.timeoutCounter < RCP_KEEP_ALIVE_TIMEOUT_DEF then { dev with timeoutCounter := dev.timeoutCounter + 1 }
    else { dev with timeoutFlag := 1 }
  { dev with previousOnlineStatus := dev.onlineStatus, onlineStatus := if dev.timeoutFlag = 1 then 0 else 1 }

/-- What the check writes for a switch that went offline. -/
def RCP_DEV.offline (dev : RCP_DEV) : RCP_DEV :=
  { dev with
    alarmStatus := dev.alarmStatus ||| RCP_ALARM_STATUS_OFFLINE, previousOnlineStatus := 0, timeoutFlag := 1 }

/-- What the check writes for a switch that stands at another port. -/
def RCP_DEV.clear (dev : RCP_DEV) : RCP_DEV :=
  { dev with
    switchMac := nullMac, previousswitchMac := nullMac, onlineStatus := 0, previousOnlineStatus := 0, timeoutFlag := 1 }

def RCP_DEV.reregister (dev : RCP_DEV) : RCP_DEV :=
  { dev with previousOnlineStatus := 1, alarmStatus := RCP_ALARM_STATUS_RE_REGISTER }

def RCP_DEV.handled (dev : RCP_DEV) : Prop := dev.alarmStatus &&& RCP_ALARM_STATUS_OFFLINE ≠ 0

instance (dev : RCP_DEV) : Decidable dev.handled := inferInstanceAs (Decidable (_ ≠ _))

/-- What the check writes for a switch that is new, or in the place of another one. -/
def RCP_DEV.register (dev : RCP_DEV) : RCP_DEV :=
  let dev :=
    if dev.previousswitchMac = nullMac then { dev with onlineStatus := 1 }
    else { dev with
      timeoutFlag := if dev.handled then dev.timeoutFlag else 1, alarmStatus := RCP_ALARM_STATUS_REGISTER }
  { dev with previousswitchMac := dev.switchMac, previousOnlineStatus := dev.onlineStatus }

/-! ## The state -/

/-- Where the monitor is: in its loop over the ports, in its check behind the delay. -/
inductive Pc where
  | round
  | hello (i : Nat)
  | status (i : Nat)
  | rest
  | check (i : Nat)
  | clear (i j : Nat)
  | appear (i j : Nat)
  | register (i : Nat)
  deriving DecidableEq

/-- What the check reports of the switch at a port; `ret` is what the push of the alarm gives,
when the mask lets the alarm through. -/
structure Report where
  port : Nat
  mac : Mac
  msgType : UInt8
  ret : Option RCP_RET
  deriving DecidableEq

/-- `semAccessRcpDevList` is whether the semaphore can be taken. `reports` is not the program's. -/
structure State where
  rcpDevList : Nat → Option RCP_DEV
  semAccessRcpDevList : Bool
  gucRcpAlarmMask : UInt8
  gulGwdRcpAuth : Bool
  gulEnableEpswitchMgt : Bool
  alarms : switch_alarms.State
  pc : Pc
  reports : List Report

def State.init (mal : Bool) : State :=
  ⟨fun _ => none, true, 0, false, true, switch_alarms.RCP_Init mal, .round, []⟩

def State.edit (s : State) (i : Nat) (f : RCP_DEV → RCP_DEV) : State :=
  { s with rcpDevList := update s.rcpDevList i ((s.rcpDevList i).map f) }

/-- What a step of the monitor finds: whether it may send, the ports that are up, whether the
EEPROM of the switch is read, what `malloc` gives for its alarms, whether the ONU is registered
and which alarms are sent. -/
structure Env where
  g_onu_tx_policy : Bool
  up : Nat → Bool
  info : Bool
  mal : Nat → Option Nat
  body : Nat → Bool
  onuRegister : Bool
  sends : Nat → Bool

/-! ## Frames -/

def Rcp_ChipId_AuthCheck (pkt : Mem) : Prop :=
  let chip_id := (pkt (RCP_HELLO_CHIPID_OFFSET + 1)).toUInt16 <<< 8 ||| (pkt RCP_HELLO_CHIPID_OFFSET).toUInt16
  chip_id = RTL_8208OR8316 ∨ chip_id = RTL_8324_FOR_GH1524 ∨ chip_id = RTL_8324_FOR_GH1532

instance (pkt : Mem) : Decidable (Rcp_ChipId_AuthCheck pkt) := inferInstanceAs (Decidable (_ ∨ _ ∨ _))

def sourceMac (pkt : Mem) : Mac := Vector.ofFn fun k => pkt (RCP_MAC_SIZE + k)

/-- The record is there, or `malloc` gives it. -/
def State.record (s : State) (mal : Bool) (parentPort : Nat) : Option RCP_DEV :=
  match s.rcpDevList parentPort with
  | some dev => some dev
  | none => if mal then some (.fresh parentPort) else none

/-- `none` when the call does not return: the call that gets no record keeps the semaphore. -/
def State.RCP_DevList_Update (s : State) (mal : Bool) (parentPort : Nat) (pkt : Mem) : Option (State × RCP_RET) :=
  if MAX_RRCP_SWITCH_TO_MANAGE ≤ parentPort then some (s, .RCP_BAD_PARAM)
  else if ¬ Rcp_ChipId_AuthCheck pkt then some (s, .RCP_UNKOWN)
  else if s.semAccessRcpDevList = false then none
  else
    match s.record mal parentPort with
    | none => some ({ s with semAccessRcpDevList := false }, .RCP_NO_MEM)
    | some dev =>
      let dev := dev.answer (sourceMac pkt) s.gucRcpAlarmMask
      some ({ s with rcpDevList := update s.rcpDevList parentPort (some dev) }, .RCP_OK)

/-- The tests of `rrcp_packet_handler` on the way to `RCP_DevList_Update`. -/
def State.IsHelloReply (s : State) (packet : Mem) : Prop :=
  (s.gulGwdRcpAuth = true → oam.bytes packet RCP_MAC_SIZE 3 = gwdOui) ∧ load16 packet 16 = ETH_TYPE_RRCP ∧
    load16 packet 18 = REALTEK_RRCP_HELLO_REPLY

instance (s : State) (packet : Mem) : Decidable (s.IsHelloReply packet) := inferInstanceAs (Decidable (_ ∧ _ ∧ _))

/-- Other frames than hello replies do not come to the records. -/
def State.rrcp_packet_handler (s : State) (mal : Bool) (srcPort : Nat) (packet : Mem) : State :=
  if s.IsHelloReply packet then ((s.RCP_DevList_Update mal srcPort packet).map Prod.fst).getD s else s

/-- The frame in `gucRxRcpPktBuf`, with a tag. -/
def insertTag (frame : Mem) (len : Nat) : Mem := fun i =>
  if i < 12 then frame i
  else if i = 12 then 0x81
  else if i = 15 then 0x01
  else if 16 ≤ i ∧ i < len + 4 then frame (i - 4)
  else 0

/-- What the handler gets of the frame. -/
def tagged (frame : Mem) (len : Nat) : Mem :=
  if frame 12 = 0x81 ∧ frame 13 = 0 then frame else insertTag frame len

def State.RcpFrameRevHandle (s : State) (mal : Bool) (portid len : Nat) (frame : Mem) : State :=
  if len < 16 ∨ RCP_PKT_MAX_LENGTH - 4 ≤ len then s else s.rrcp_packet_handler mal portid (tagged frame len)

/-! ## The check -/

def State.RCP_Dev_Is_Valid (s : State) (parentPort : Nat) : Prop :=
  parentPort < MAX_RRCP_SWITCH_TO_MANAGE ∧ ∃ dev ∈ s.rcpDevList parentPort, dev.switchMac ≠ nullMac

instance (s : State) (i : Nat) : Decidable (s.RCP_Dev_Is_Valid i) := inferInstanceAs (Decidable (_ ∧ _))

/-- Of an entry that is not empty. For an empty one, the call says hello and looks again. -/
def RCP_DEV.RCP_Dev_Is_Exist (dev : RCP_DEV) (up : Bool) : Prop := up = true ∧ dev.onlineStatus = 1

instance (dev : RCP_DEV) (up : Bool) : Decidable (dev.RCP_Dev_Is_Exist up) := inferInstanceAs (Decidable (_ ∧ _))

/-- The alarm, when the mask lets it through; `k` is its number in the step. -/
def State.report (s : State) (e : Env) (k i : Nat) (dev : RCP_DEV) (mask : UInt8) (mac : Mac) (msgType : UInt8) :
    State :=
  if dev.alarmMask &&& mask = 0 then
    let pushed := s.alarms.pushOneSwitchStatusChgMsg (e.mal k) (e.body k) dev.paPort mac msgType 0
    { s with alarms := pushed.1, reports := s.reports ++ [⟨i, mac, msgType, some pushed.2⟩] }
  else { s with reports := s.reports ++ [⟨i, mac, msgType, none⟩] }

/-- The part for a switch that is not there. The loop behind it looks for the switch at the
other ports. -/
def State.checkOffline (s : State) (e : Env) (i : Nat) (dev : RCP_DEV) : State :=
  let gone := dev.onlineStatus = 0 ∧ dev.previousOnlineStatus = 1
  let s :=
    if gone then
      (s.report e 0 i dev RCP_ALARM_STATUS_OFFLINE dev.switchMac ONU_SWITCH_STATUS_CHANGE_ALM_OFFLINE).edit i
        RCP_DEV.offline
    else s
  { s with pc := if gone ∨ dev.handled then .clear i 1 else .check (i + 1) }

/-- A switch that is there with the MAC it had. -/
def State.checkSame (s : State) (e : Env) (i : Nat) (dev : RCP_DEV) : State :=
  let s :=
    if dev.onlineStatus = 1 ∧ dev.previousOnlineStatus = 0 then
      (if dev.handled then
        s.report e 0 i dev RCP_ALARM_STATUS_RE_REGISTER dev.switchMac ONU_SWITCH_STATUS_CHANGE_ALM_REREG
      else s).edit i RCP_DEV.reregister
    else s
  { s with pc := .check (i + 1) }

/-- What is behind `Rcp_Get_Device_Info` for a switch with another MAC than before. -/
def State.checkNew (s : State) (e : Env) (i : Nat) (dev : RCP_DEV) : State :=
  let s :=
    if dev.previousswitchMac = nullMac ∨ dev.handled then s
    else
      s.report e 0 i dev RCP_ALARM_STATUS_OFFLINE dev.previousswitchMac ONU_SWITCH_STATUS_CHANGE_ALM_OFFLINE
  let s := s.report e 1 i dev RCP_ALARM_STATUS_REGISTER dev.switchMac ONU_SWITCH_STATUS_CHANGE_ALM_REG
  { s.edit i RCP_DEV.register with pc := .check (i + 1) }

/-- The same switch at the port `j`. -/
def State.checkOther (s : State) (i j : Nat) : State :=
  if (s.rcpDevList i).map RCP_DEV.switchMac = (s.rcpDevList j).map RCP_DEV.switchMac then s.edit i RCP_DEV.clear else s

/-! ## The monitor -/

/-- One step of `rcp_dev_monitor`, up to where another thread may come in between. -/
def State.monitor (s : State) (e : Env) : State :=
  match s.pc with
  | .round =>
    { s with pc := if e.g_onu_tx_policy = false then .round else if s.gulEnableEpswitchMgt then .hello 1 else .rest }
  | .hello i =>
    { s with
      pc :=
        if MAX_RRCP_SWITCH_TO_MANAGE ≤ i then .rest else if s.RCP_Dev_Is_Valid i then .status i else .hello (i + 1) }
  | .status i => { s.edit i RCP_DEV.poll with pc := .hello (i + 1) }
  | .rest => { s with pc := if s.gulEnableEpswitchMgt then .check 1 else .round }
  | .check i =>
    if MAX_RRCP_SWITCH_TO_MANAGE ≤ i then
      { s with alarms := if e.onuRegister then s.alarms.step (.pop e.sends) else s.alarms, pc := .round }
    else
      match (s.rcpDevList i).filter (·.switchMac ≠ nullMac) with
      | none => { s with pc := .check (i + 1) }
      | some dev =>
        if ¬ dev.RCP_Dev_Is_Exist (e.up i) then s.checkOffline e i dev
        else if dev.switchMac = dev.previousswitchMac then s.checkSame e i dev
        else { s with pc := if e.info then .register i else .round }
  | .clear i j =>
    if MAX_RRCP_SWITCH_TO_MANAGE ≤ j then { s with pc := .check (i + 1) }
    else
      match s.rcpDevList j with
      | none => { s with pc := .appear i j }
      | some dev =>
        { (if dev.RCP_Dev_Is_Exist (e.up j) ∧ i ≠ j then s.checkOther i j else s) with pc := .clear i (j + 1) }
  | .appear i j =>
    { (if (s.rcpDevList j).isSome ∧ i ≠ j then s.checkOther i j else s) with pc := .clear i (j + 1) }
  | .register i =>
    match s.rcpDevList i with
    | none => { s with pc := .check (i + 1) }
    | some dev => s.checkNew e i dev

/-! ## Commands -/

/-- One turn of the loop of `cli_int_switch_manage_auth`. `strncpy` writes to the record, and
returns its address, which is not 0. `none` when there is no record to write to. -/
def authPort (rcpDevList : Nat → Option RCP_DEV) (onuPort : Nat) : Option (Nat → Option RCP_DEV) :=
  (rcpDevList onuPort).map fun _ => update rcpDevList onuPort none

/-- `none` when the command writes through a null pointer. -/
def State.cli_int_switch_manage_auth (s : State) (enable : Bool) : Option State :=
  if enable then
    (((List.range' 1 (MAX_RRCP_SWITCH_TO_MANAGE - 1)).foldlM authPort s.rcpDevList).map fun rcpDevList =>
      { s with rcpDevList, gulGwdRcpAuth := true })
  else some { s with gulGwdRcpAuth := false }

def State.cli_int_set_switch (s : State) (enable : Bool) : State := { s with gulEnableEpswitchMgt := enable }

/-- The loop over the valid ports writes to the record of the command's own port each time. -/
def State.cli_int_mask_alarm_switch (s : State) (onuPort : Nat) (all enable : Bool) : State :=
  if ¬ s.RCP_Dev_Is_Valid onuPort then s
  else
    let ucMask :=
      if enable then RCP_ALARM_STATUS_OFFLINE ||| RCP_ALARM_STATUS_REGISTER ||| RCP_ALARM_STATUS_RE_REGISTER else 0
    let written := all = false ∨ ∃ i < MAX_RRCP_SWITCH_TO_MANAGE, 1 ≤ i ∧ s.RCP_Dev_Is_Valid i
    { (if written then s.edit onuPort fun dev => { dev with alarmMask := ucMask } else s) with
      gucRcpAlarmMask := if all then ucMask else s.gucRcpAlarmMask }

inductive Event where
  | monitor (e : Env)
  | frame (mal : Bool) (portid len : Nat) (frame : Mem)
  | auth (enable : Bool)
  | set (enable : Bool)
  | mask (onuPort : Nat) (all enable : Bool)

/-- A command that writes through a null pointer leaves nothing to go on from. -/
def State.step (s : State) : Event → State
  | .monitor e => s.monitor e
  | .frame mal portid len frame => s.RcpFrameRevHandle mal portid len frame
  | .auth enable => (s.cli_int_switch_manage_auth enable).getD s
  | .set enable => s.cli_int_set_switch enable
  | .mask onuPort all enable => s.cli_int_mask_alarm_switch onuPort all enable

end gwdonu.switch_monitor
