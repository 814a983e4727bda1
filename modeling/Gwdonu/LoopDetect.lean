-- Loop detection: what it keeps for each VLAN, when it shuts a port down and
-- when it opens one again. The ports are 1 to 25.
import Mathlib.Logic.Function.Basic
import Mathlib.Data.List.Range
import Mathlib.Data.UInt
import Mathlib.Tactic.Common

namespace gwdonu.gwd_eth_loop_detect

open Function

/-! ## The program -/

def NUM_PORTS_PER_SYSTEM : Nat := 26
def gulNumOfPortsPerSystem : Nat := NUM_PORTS_PER_SYSTEM
def PHY_PORT_MAX : Nat := 26
def MAX_GWD_OLT_SLOT : UInt8 := 24
def MAX_GWD_OLT_PORT : UInt8 := 16
def GWD_OLT_NONE : UInt8 := 0
def GWD_OLT_NOMATCH : UInt8 := 4
def ONU_PORT_LOOP_ALARM : UInt8 := 11
def LOOP_DETECT_CHECK : UInt16 := 0x0080
def LPB_OAM_SEND_INTERVAL : Nat := 1

/-- The ports of the `for` loops. -/
def ports : List Nat := List.range' 1 (gulNumOfPortsPerSystem - 1)

inductive gwd_port_admin_t where
  | PORT_ADMIN_DOWN
  | PORT_ADMIN_UP
  deriving DecidableEq

open gwd_port_admin_t

structure OAM_ONU_LPB_DETECT_FRAME where
  enable : UInt8
  vid : UInt16
  policy : UInt16
  waitforwakeup : UInt16
  maxwakeup : UInt16
  deriving DecidableEq

/-- The settings of the OLT and of the ONU. -/
structure Config where
  oam_onu_lpb_detect_frame : OAM_ONU_LPB_DETECT_FRAME
  local_onu_lpb_detect_frame : OAM_ONU_LPB_DETECT_FRAME
  deriving DecidableEq

/-- `ALARM_LOOP`, without the address of the switch, which is never set. The
VLAN is sent in network order. -/
structure ALARM_LOOP where
  alarmFlag : UInt8
  portNum : List UInt8
  loopstate : UInt8
  vlanid : UInt16
  externFlag : UInt8
  oltType : UInt8
  oltMac : List UInt8
  onuLocation : List UInt8
  onuType : UInt8
  onuMac : List UInt8
  onuPort : List UInt8
  deriving DecidableEq

/-- The alarm after `memset`. -/
def noAlarm : ALARM_LOOP where
  alarmFlag := 0
  portNum := [0, 0, 0, 0]
  loopstate := 0
  vlanid := 0
  externFlag := 0
  oltType := 0
  oltMac := [0, 0, 0, 0, 0, 0]
  onuLocation := [0, 0, 0, 0]
  onuType := 0
  onuMac := [0, 0, 0, 0, 0, 0]
  onuPort := [0, 0, 0, 0]

/-- What `OAM_ONU_LPB_DETECT_CTRL` has in its arrays for one port. -/
structure Port where
  lpbmask : UInt8
  lpbportdown : UInt8
  lpbportwakeupcounter : UInt8
  lpbClearCnt : UInt8
  slpcounter : Int32
  alarmInfo : ALARM_LOOP
  deriving DecidableEq

/-- The port after `memset`. -/
def noPort : Port := ⟨0, 0, 0, 0, 0, noAlarm⟩

structure OAM_ONU_LPB_DETECT_CTRL where
  vid : UInt16
  port : Nat → Port

abbrev SessionID := Vector UInt8 8

/-- The list of nodes and the other globals, the admin state of each port, the
commands given to the ports, and the alarms sent. -/
structure Lpb where
  g_lpb_detect_ctrl : List OAM_ONU_LPB_DETECT_CTRL
  gulLoopRecFlag : Nat → Bool
  gulLoopIgnorePort : Nat → Bool
  timeCounter : Nat
  admin : Nat → gwd_port_admin_t
  commands : List (Nat × gwd_port_admin_t)
  alarms : List (SessionID × ALARM_LOOP)

def Lpb.init : Lpb := ⟨[], fun _ => false, fun _ => false, 0, fun _ => PORT_ADMIN_UP, [], []⟩

/-- What a call finds outside the program: memory, ports that take a command
and that tell their state, alarms that go out, and the port maps of a VLAN. -/
structure Api where
  malloc : Bool
  set : Nat → Bool
  get : Nat → Bool
  send : Nat → UInt16 → Bool
  vlan : UInt16 → Option (UInt32 × UInt32)

/-- `LIB_IF_PORT_ADMIN_SET`, and whether it returns OK. -/
def Lpb.port_admin_set (s : Lpb) (a : Api) (lport : Nat) (st : gwd_port_admin_t) : Lpb × Bool :=
  ({ s with
      admin := if a.set lport then update s.admin lport st else s.admin
      commands := s.commands ++ [(lport, st)] },
    a.set lport)

/-- The alarm that `sendOamLpbDetectNotifyMsg` builds. -/
def loopAlarm (port : Nat) (state : UInt8) (uvid : UInt16) (pAlarmInfo : ALARM_LOOP) : ALARM_LOOP :=
  let alarm := { noAlarm with
    alarmFlag := ONU_PORT_LOOP_ALARM
    portNum := [0, 0, 1, UInt8.ofNat port]
    loopstate := state
    vlanid := uvid }
  let slot := pAlarmInfo.onuLocation.getD 1 0
  let pon := pAlarmInfo.onuLocation.getD 2 0
  if 1 ≤ slot ∧ slot ≤ MAX_GWD_OLT_SLOT ∧ 1 ≤ pon ∧ pon ≤ MAX_GWD_OLT_PORT ∧
      GWD_OLT_NONE < pAlarmInfo.oltType ∧ pAlarmInfo.oltType < GWD_OLT_NOMATCH then
    { alarm with
      externFlag := 1
      oltType := pAlarmInfo.oltType
      oltMac := pAlarmInfo.oltMac
      onuLocation := pAlarmInfo.onuLocation
      onuType := pAlarmInfo.onuType
      onuMac := pAlarmInfo.onuMac
      onuPort := pAlarmInfo.onuPort }
  else alarm

def sendOamLpbDetectNotifyMsg (a : Api) (s : Lpb) (port : Nat) (state : UInt8) (uvid : UInt16)
    (session : Option SessionID) (pAlarmInfo : ALARM_LOOP) : Lpb × Bool :=
  match session with
  | none => (s, false)
  | some session =>
    ({ s with
        alarms := s.alarms ++ [(session, loopAlarm port state uvid pAlarmInfo)]
        gulLoopRecFlag := update s.gulLoopRecFlag port false },
      a.send port uvid)

def Lpb.getVlanLpbStasNode (s : Lpb) (vid : UInt16) : Option OAM_ONU_LPB_DETECT_CTRL :=
  s.g_lpb_detect_ctrl.find? fun n => n.vid = vid

/-- The first node of the VLAN is written. -/
def writeNode (vid : UInt16) (port : Nat → Port) :
    List OAM_ONU_LPB_DETECT_CTRL → List OAM_ONU_LPB_DETECT_CTRL
  | [] => []
  | n :: l => if n.vid = vid then { n with port } :: l else n :: writeNode vid port l

/-- The body of a loop over the ports of a node: it reads and writes the node at
the port of the turn only. -/
abbrev Body := Lpb → Nat → Port → Lpb × Port

def Body.turn (body : Body) : Lpb × (Nat → Port) → Nat → Lpb × (Nat → Port)
  | (s, port), i => ((body s i (port i)).1, update port i (body s i (port i)).2)

/-- A loop over the ports of the node of a VLAN, if there is one. -/
def Lpb.forPorts (s : Lpb) (vid : UInt16) (body : Body) : Lpb :=
  match s.getVlanLpbStasNode vid with
  | none => s
  | some pCtrl =>
    let (s, port) := ports.foldl body.turn (s, pCtrl.port)
    { s with g_lpb_detect_ctrl := writeNode vid port s.g_lpb_detect_ctrl }

/-- `!x`. -/
def c_not (x : UInt16) : UInt16 := if x = 0 then 1 else 0

/-- The condition of `resetLpbPort`: `!` binds more tightly than `&`. -/
def Config.opens (c : Config) (force : Bool) : Bool :=
  (force ∨ c_not c.oam_onu_lpb_detect_frame.policy &&& 0x0001 ≠ 0) ∨
    (force ∨ c_not c.local_onu_lpb_detect_frame.policy &&& 0x0001 ≠ 0)

/-- The body of the loop of `resetLpbPort`. -/
def resetPort (a : Api) (session : Option SessionID) (vid : UInt16) : Body := fun s lport p =>
  if 1 = p.lpbportdown then
    let s := (s.port_admin_set a lport PORT_ADMIN_UP).1
    let (s, ok) := sendOamLpbDetectNotifyMsg a s lport 2 vid session p.alarmInfo
    (s, if ok then { p with lpbportdown := 0, lpbmask := 0, lpbClearCnt := 0 } else p)
  else (s, p)

/-- The `while` of `resetLpbPort`, and the list with what it writes. -/
def resetNodes (c : Config) (a : Api) (force : Bool) (session : Option SessionID) (s : Lpb) :
    List OAM_ONU_LPB_DETECT_CTRL → Lpb × List OAM_ONU_LPB_DETECT_CTRL
  | [] => (s, [])
  | n :: l =>
    let (s, port) :=
      if c.opens force then ports.foldl (resetPort a session n.vid).turn (s, n.port)
      else (s, n.port)
    let (s, l) := resetNodes c a force session s l
    (s, { n with port } :: l)

def resetLpbPort (c : Config) (a : Api) (s : Lpb) (force : Bool) (session : Option SessionID) : Lpb :=
  let (s, l) := resetNodes c a force session s s.g_lpb_detect_ctrl
  { s with g_lpb_detect_ctrl := l }

/-- `maxwakeup` of the settings in force. -/
def Config.maxwakeup (c : Config) : UInt16 :=
  if c.local_onu_lpb_detect_frame.enable = 0 then c.oam_onu_lpb_detect_frame.maxwakeup
  else c.local_onu_lpb_detect_frame.maxwakeup

def Config.waitforwakeup (c : Config) : UInt16 :=
  if c.local_onu_lpb_detect_frame.enable = 0 then c.oam_onu_lpb_detect_frame.waitforwakeup
  else c.local_onu_lpb_detect_frame.waitforwakeup

/-- The port may be woken up once more. -/
def Port.wakes (c : Config) (p : Port) : Prop := p.lpbportwakeupcounter.toNat < c.maxwakeup.toNat

instance (c : Config) (p : Port) : Decidable (p.wakes c) := inferInstanceAs (Decidable (_ < _))

/-- What `setPortLpbStatus` writes to a node that is there. -/
def Port.mark (c : Config) (shutdown : Bool) (pInfo : Option ALARM_LOOP) (p : Port) : Port :=
  let p := { p with lpbClearCnt := 0, lpbmask := 1 }
  let p :=
    if shutdown then
      let p :=
        if p.wakes c then { p with slpcounter := 0 }
        else if p.lpbportwakeupcounter = 255 then
          { p with lpbportwakeupcounter := 0, slpcounter := 0 }
        else { p with lpbportwakeupcounter := 255 }
      { p with lpbportdown := 1 }
    else { p with lpbportdown := 0 }
  { p with alarmInfo := pInfo.getD p.alarmInfo }

/-- What `setPortLpbStatus` writes to a new node. -/
def newPort (shutdown : Bool) (pInfo : Option ALARM_LOOP) : Port :=
  { noPort with
    lpbmask := 1
    lpbportdown := if shutdown then 1 else 0
    alarmInfo := pInfo.getD noAlarm }

/-- No caller reads what it returns. -/
def setPortLpbStatus (c : Config) (a : Api) (s : Lpb) (vid : UInt16) (lport : Nat) (shutdown : Bool)
    (pInfo : Option ALARM_LOOP) : Lpb :=
  match s.getVlanLpbStasNode vid with
  | some pCtrl =>
    let port := update pCtrl.port lport ((pCtrl.port lport).mark c shutdown pInfo)
    { s with g_lpb_detect_ctrl := writeNode vid port s.g_lpb_detect_ctrl }
  | none =>
    if a.malloc then
      let port := update (fun _ => noPort) lport (newPort shutdown pInfo)
      { s with g_lpb_detect_ctrl := s.g_lpb_detect_ctrl ++ [⟨vid, port⟩] }
    else s

/-- The body of the loop of `clsPortLpbStatus`. -/
def clsPort : Body := fun s i p =>
  if p.lpbmask = 1 ∧ p.lpbportdown ≠ 1 ∧ s.gulLoopRecFlag i = false then
    (s, { p with lpbClearCnt := p.lpbClearCnt + 1 })
  else (s, p)

def clsPortLpbStatus (s : Lpb) (vid : UInt16) : Lpb := s.forPorts vid clsPort

/-- A port that somebody opened is not recorded as shut down any more. -/
def Port.reopened (a : Api) (s : Lpb) (i : Nat) (p : Port) : Port :=
  if p.lpbportdown ≠ 0 ∧ a.get i ∧ s.admin i = PORT_ADMIN_UP then { p with lpbportdown := 0 } else p

/-- The body of the loop of `reportPortsLpbStatus`. -/
def reportPort (a : Api) (session : Option SessionID) (vid : UInt16) : Body := fun s i p =>
  let p := p.reopened a s i
  if p.lpbmask ≠ 0 ∧ p.lpbClearCnt = 0 ∧ s.timeCounter = LPB_OAM_SEND_INTERVAL then
    ((sendOamLpbDetectNotifyMsg a s i 1 vid session p.alarmInfo).1, p)
  else (s, p)

def deleteLpbStatsNode (vid : UInt16) : List OAM_ONU_LPB_DETECT_CTRL → List OAM_ONU_LPB_DETECT_CTRL
  | [] => []
  | n :: l => if n.vid = vid then l else n :: deleteLpbStatsNode vid l

def reportPortsLpbStatus (a : Api) (s : Lpb) (vid : UInt16) (session : Option SessionID) : Lpb :=
  let s := s.forPorts vid (reportPort a session vid)
  match s.getVlanLpbStasNode vid with
  | none => s
  | some pCtrl =>
    if ports.all fun i => (pCtrl.port i).lpbmask = 0 then
      { s with g_lpb_detect_ctrl := deleteLpbStatsNode vid s.g_lpb_detect_ctrl }
    else s

def freeLpbStatusList (s : Lpb) : Lpb := { s with g_lpb_detect_ctrl := [] }

/-- The port had no loop for ten intervals. -/
def Port.silent (p : Port) : Prop := 1 = p.lpbmask ∧ 10 ≤ p.lpbClearCnt

instance (p : Port) : Decidable p.silent := inferInstanceAs (Decidable (_ ∧ _))

/-- The port is shut down and waits for its next wake-up. -/
def Port.waits (c : Config) (p : Port) : Prop :=
  (1 = p.lpbmask ∧ p.lpbClearCnt ≤ 10 ∧ 1 = p.lpbportdown) ∧ p.wakes c

instance (c : Config) (p : Port) : Decidable (p.waits c) := inferInstanceAs (Decidable (_ ∧ _))

/-- The first half of the body of the loop of `lpbDetectWakeupPorts`.
`port_loop_back_session` is never `NULL`. -/
def clearPort (a : Api) (port_loop_back_session : SessionID) (usVid : UInt16) : Body :=
  fun s portnum p =>
    if p.silent then
      ((sendOamLpbDetectNotifyMsg a s portnum 2 usVid (some port_loop_back_session) p.alarmInfo).1,
        { p with lpbmask := 0, lpbportwakeupcounter := 0, slpcounter := 0, lpbClearCnt := 0 })
    else (s, p)

/-- The body of the loop of `lpbDetectWakeupPorts`. -/
def wakeupPort (c : Config) (a : Api) (port_loop_back_session : SessionID) (usVid : UInt16) : Body :=
  fun s portnum p =>
    let (s, p) := clearPort a port_loop_back_session usVid s portnum p
    if p.waits c then
      let p := { p with slpcounter := p.slpcounter + 1 }
      if (c.waitforwakeup.toNat : Int) ≤ p.slpcounter.toInt then
        let s := (s.port_admin_set a portnum PORT_ADMIN_UP).1
        ((sendOamLpbDetectNotifyMsg a s portnum 2 usVid (some port_loop_back_session)
            p.alarmInfo).1,
          { p with
            lpbportdown := 0, slpcounter := 0, lpbportwakeupcounter := p.lpbportwakeupcounter + 1 })
      else (s, p)
    else (s, p)

def lpbDetectWakeupPorts (c : Config) (a : Api) (port_loop_back_session : SessionID) (s : Lpb)
    (usVid : UInt16) : Lpb :=
  s.forPorts usVid (wakeupPort c a port_loop_back_session usVid)

/-- The condition under which both detections shut a port down. -/
def Config.shutsDown (c : Config) : Prop :=
  (c.local_onu_lpb_detect_frame.enable = 0 ∧ c.oam_onu_lpb_detect_frame.policy &&& 0x0001 ≠ 0) ∨
    (c.local_onu_lpb_detect_frame.enable ≠ 0 ∧ c.local_onu_lpb_detect_frame.policy &&& 0x0001 ≠ 0)

instance (c : Config) : Decidable c.shutsDown := inferInstanceAs (Decidable (_ ∨ _))

def boards_port_is_uni (lport : Nat) : Prop := lport < gulNumOfPortsPerSystem

instance (lport : Nat) : Decidable (boards_port_is_uni lport) := inferInstanceAs (Decidable (_ < _))

/-- `lport` is what `gtGetSrcPortForMac` finds, if it does. -/
def lpbDetectCheckMacTable (c : Config) (a : Api) (s : Lpb) (usVid : UInt16) (lport : Option Nat) :
    Lpb :=
  match lport with
  | none => clsPortLpbStatus s usVid
  | some lport =>
    if boards_port_is_uni lport then
      if s.gulLoopIgnorePort lport then s
      else if c.shutsDown then
        if s.admin lport = PORT_ADMIN_UP then
          let (s, ok) := s.port_admin_set a lport PORT_ADMIN_DOWN
          if ok then setPortLpbStatus c a s usVid lport true none else s
        else s
      else setPortLpbStatus c a s usVid lport false none
    else clsPortLpbStatus s usVid

/-- The map from physical to logical ports adds one. -/
def IFM_GET_FIRST_PORTONVLAN (a : Api) (vid : UInt16) : Option Nat :=
  match a.vlan vid with
  | none => none
  | some (tagged_portmap, untagged_portmap) =>
    ((List.range PHY_PORT_MAX).find? fun i =>
      (tagged_portmap ||| untagged_portmap).toNat.testBit i).map (· + 1)

/-- The alarm that `lpbDetectRevPacketHandle` fills from the frame. An index of
an interface has its port in bits 12 to 17 and its slot in bits 18 to 22. -/
def revAlarm (packet : List UInt8) : ALARM_LOOP :=
  let at' := fun i => packet.getD i 0
  let base := if at' 12 = 0x81 ∧ at' 13 = 0 then 16 else 12
  let onuIfindex := (List.range 4).foldr (fun i n => (at' (base + 18 + i)).toNat + 256 * n) 0
  { noAlarm with
    oltType := at' (base + 4)
    onuType := at' (base + 5)
    onuLocation := (List.range 4).map fun i => at' (base + 6 + i)
    onuMac := (List.range 6).map fun i => at' (base + 10 + i)
    onuPort := if onuIfindex ≠ 0 then
        [0, 0, UInt8.ofNat (onuIfindex / 2 ^ 18 % 2 ^ 5), UInt8.ofNat (onuIfindex / 2 ^ 12 % 2 ^ 6)]
      else [0, 0, 0, 0]
    oltMac := (List.range 6).map fun i => at' (6 + i) }

/-- The frame is one that loop detection sent. -/
def isLoopFrame (packet : List UInt8) : Prop :=
  let at' := fun i => packet.getD i 0
  let base := if at' 12 = 0x81 ∧ at' 13 = 0 then 16 else 12
  (at' (base + 2)).toNat * 256 + (at' (base + 3)).toNat = LOOP_DETECT_CHECK.toNat

instance (packet : List UInt8) : Decidable (isLoopFrame packet) :=
  inferInstanceAs (Decidable (_ = _))

/-- The port that a loop is put down to: of the uplink, the first port of the VLAN. -/
def loopPort (a : Api) (port : Nat) (vid : UInt16) : Nat :=
  if boards_port_is_uni port then port else (IFM_GET_FIRST_PORTONVLAN a vid).getD port

def lpbDetectRevPacketHandle (c : Config) (a : Api) (port_loop_back_session : SessionID) (s : Lpb)
    (packet : List UInt8) (port : Nat) (vid : UInt16) : Lpb :=
  if ¬ isLoopFrame packet ∨ s.gulLoopIgnorePort port then s
  else
    let ulLoopPort := loopPort a port vid
    let s := { s with gulLoopRecFlag := update s.gulLoopRecFlag ulLoopPort true }
    if c.shutsDown then
      if s.admin port = PORT_ADMIN_UP then
        let (s, ok) := s.port_admin_set a port PORT_ADMIN_DOWN
        if ok then
          reportPortsLpbStatus a
            (setPortLpbStatus c a s vid ulLoopPort true (some (revAlarm packet))) vid
            (some port_loop_back_session)
        else s
      else s
    else setPortLpbStatus c a s vid ulLoopPort false (some (revAlarm packet))

end gwdonu.gwd_eth_loop_detect
