-- The RCP channel to the switches. Calls that read and write registers run at the same
-- time and share a transmit buffer, a list of the reads and a semaphore for the channel.
import Gwdonu.Lib.Runs
import Gwdonu.OsOwnership

namespace gwdonu.rcp

open Function os_core

/-! ## Frames -/

def RCP_PKT_MAX_LENGTH : Nat := 80
def RCP_RESPONSE_TIMEOUT : Nat := 5000
def MAX_RTL_REG_TO_ACCESS : Nat := 10
def NUM_PORTS_PER_SYSTEM : Nat := 26
def MAX_RRCP_SWITCH_TO_MANAGE : Nat := NUM_PORTS_PER_SYSTEM
def REALTEK_PROTOCOL_RRCP : UInt8 := 1
def REALTEK_RRCP_OPCODE_HELLO : UInt8 := 0
def REALTEK_RRCP_OPCODE_GET : UInt8 := 1
def REALTEK_RRCP_OPCODE_SET : UInt8 := 2
def RcpVlanTag : List UInt8 := [0x81, 0x00]
def RcpEtherType : List UInt8 := [0x88, 0x99]
def RcpAuthenKeyDefault : Vector UInt8 2 := #v[0x23, 0x79]
def RcpHelloDMacDefault : Vector UInt8 6 := #v[0xFF, 0xFF, 0xFF, 0xFF, 0xFF, 0xFF]

structure RCP_DEV where
  switchMac : Vector UInt8 6
  parentMac : Vector UInt8 6
  authenKey : Vector UInt8 2
  paPort : UInt8
  mgtVid : UInt16
  deriving DecidableEq

/-- What a call puts into its frame. A GET has no data, and a HELLO no register. -/
structure Content where
  switchMac : Vector UInt8 6
  opcode : UInt8
  authenKey : Vector UInt8 2
  regAddr : Option UInt16
  data : Option UInt16
  deriving DecidableEq

def SET_SHORT_TO_RCP_PKT (value : UInt16) : List UInt8 := [value.toUInt8, (value >>> 8).toUInt8]

def GET_RCP_PKT_SHORT (buf : List UInt8) : UInt16 :=
  (buf.getD 1 0).toUInt16 <<< 8 ||| (buf.getD 0 0).toUInt16

/-- The `memcpy`s into the cleared buffer, one behind the other. -/
def Content.frame (k : Content) (vlan_dot_1q_enable : Bool) (sourceMac : Vector UInt8 6) (vid : UInt16) :
    List UInt8 :=
  (k.switchMac.toList ++ sourceMac.toList ++
    (if vlan_dot_1q_enable then RcpVlanTag ++ [(vid >>> 8).toUInt8 ||| 0xf0, vid.toUInt8] else []) ++
    RcpEtherType ++ [REALTEK_PROTOCOL_RRCP, k.opcode] ++ k.authenKey.toList ++
    (k.regAddr.map SET_SHORT_TO_RCP_PKT).getD [] ++
    (k.data.map SET_SHORT_TO_RCP_PKT).getD []).rightpad RCP_PKT_MAX_LENGTH 0

def field (frame : List UInt8) (i n : Nat) : List UInt8 := (frame.drop i).take n

/-- How far the VLAN tag moves the fields. -/
def tagLength (frame : List UInt8) : Nat := if field frame 12 2 = RcpVlanTag then 4 else 0

/-- The frame has the fields of the call. -/
structure Carries (frame : List UInt8) (k : Content) : Prop where
  switchMac : field frame 0 6 = k.switchMac.toList
  opcode : field frame (15 + tagLength frame) 1 = [k.opcode]
  authenKey : field frame (16 + tagLength frame) 2 = k.authenKey.toList
  regAddr : ∀ a ∈ k.regAddr, field frame (18 + tagLength frame) 2 = SET_SHORT_TO_RCP_PKT a
  data : ∀ d ∈ k.data, field frame (20 + tagLength frame) 2 = SET_SHORT_TO_RCP_PKT d

/-! ## The state -/

inductive RCP_RET where
  | RCP_ERROR
  | RCP_OK
  | RCP_FAIL
  | RCP_BAD_VALUE
  | RCP_BAD_PARAM
  | RCP_NOT_FOUND
  | RCP_NO_MORE
  | RCP_NO_SUCH
  | RCP_TIMEOUT
  | RCP_NOT_INITIALIZED
  | RCP_NO_MEM
  | RCP_UNKOWN
  | RCP_NO_RESOURCE
  deriving DecidableEq

structure RCP_REG where
  address : UInt16
  value : UInt32
  dev : Nat
  validFlag : UInt16
  semAccess : Nat
  deriving DecidableEq

/-- What the program finds and others change: the devices by their address, the one of
each port, two flags, the MAC, and the registers of the switch at each port. -/
structure World where
  device : Nat → RCP_DEV
  rcpDevList : Nat → Option Nat
  vlan_dot_1q_enable : Bool
  gulEthRxTaskReady : Bool
  localMac : Vector UInt8 6
  register : Nat → UInt16 → UInt32

inductive Kind where
  | read
  | read32
  | write
  | unicast
  | broadcast
  deriving DecidableEq

/-- The step that a call takes next. -/
inductive Pc where
  | port
  | insert
  | store (i : Nat)
  | build
  | take (timeloop : Nat)
  | send
  | wait (timeloop : Nat)
  | value
  | semDelete
  | delete
  | give
  | returned
  deriving DecidableEq

/-- A thread in its call. The last two fields are not the program's: what the call put
into its last frame, and whether it took the channel and did not give it yet. -/
structure Caller where
  kind : Kind
  dev : Nat
  regAddr : UInt16
  wdata : UInt16
  lport : Nat
  pReg : Nat
  pc : Pc
  iRet : RCP_RET
  data : Option UInt32
  content : Content
  took : Bool
  deriving DecidableEq

/-- A frame that was sent, and the call that sent it. -/
structure Sent where
  call : Nat
  port : Nat
  frame : List UInt8
  deriving DecidableEq

/-- A reply, and which of the frames it answers. -/
structure Reply where
  get : Nat
  parentPort : Nat
  authKey : List UInt8
  regAddress : UInt16
  regValue : UInt32
  deriving DecidableEq

/-- Calls are counted, and the number of a call is the address of its `RCP_REG`: no
address is given out twice. `listLocked` is `semAccessRcpRegList`, `updating` the
`RCP_RegList_Update` that has found its entry; `holder` says which call a semaphore
was created for, `answered` what the switches have sent. -/
structure State where
  os : Os
  semAccessRcpChannel : Nat
  listLocked : Bool
  rcpRegList : List (Option Nat)
  reg : Nat → RCP_REG
  live : Nat → Bool
  holder : Nat → Option Nat
  gucTxRcpPktBuf : List UInt8
  caller : Nat → Option Caller
  calls : Nat
  updating : Option (Nat × Reply)
  world : World
  sent : List Sent
  answered : List Reply
  inflight : List Reply

def State.set (s : State) (p : Nat) (c : Caller) : State := { s with caller := update s.caller p c }

def State.edit (s : State) (q : Nat) (r : RCP_REG) : State := { s with reg := update s.reg q r }

/-- Frees the semaphore, if it is in use. -/
def State.semDelete (s : State) (os : Bool) (sem_id : Nat) : State :=
  let (t, ret) := gw_semaphore_destroy os s.os sem_id
  { s with os := t, holder := if ret = .OK then update s.holder sem_id none else s.holder }

def State.free (s : State) (q : Nat) : State := { s with live := update s.live q false }

/-- `gw_rcp_sem_create`, when it succeeds. -/
def gw_rcp_sem_create (os : Bool) (s : Os) (name : List Char) (initval : UInt32) : Option (Os × Nat) :=
  match gw_semaphore_init os s false (some name) initval with
  | (t, .OK, some sem_id) => some (t, sem_id)
  | _ => none

/-- `RCP_Init`, when it can create its semaphores. -/
def RCP_Init (os : Os) (w : World) : Option State := do
  let (os, _) ← gw_rcp_sem_create true os ['r', 'c', 'p', '_', 'd', 'e', 'v', 'l', 's', 't'] 1
  let (os, semAccessRcpChannel) ← gw_rcp_sem_create true os ['r', 'c', 'p', '_', 'c', 'h', 'a', 'n'] 1
  let (os, _) ← gw_rcp_sem_create true os ['r', 'c', 'p', ' ', 'r', 'e', 'g', 'l', 'i', 's', 't'] 1
  some {
    os
    semAccessRcpChannel
    listLocked := false
    rcpRegList := List.replicate MAX_RTL_REG_TO_ACCESS none
    reg := fun _ => ⟨0, 0, 0, 0, 0⟩
    live := fun _ => false
    holder := fun _ => none
    gucTxRcpPktBuf := List.replicate RCP_PKT_MAX_LENGTH 0
    caller := fun _ => none
    calls := 0
    updating := none
    world := { w with rcpDevList := fun _ => none }
    sent := []
    answered := []
    inflight := [] }

/-! ## The list of the reads -/

/-- The slot that `RCP_RegList_Insert` writes to. -/
def freeSlot (rcpRegList : List (Option Nat)) : Option Nat := rcpRegList.findIdx? (· = none)

def RCP_RegList_Delete (rcpRegList : List (Option Nat)) (reg : Nat) : List (Option Nat) :=
  match rcpRegList.findIdx? (· = some reg) with
  | none => rcpRegList
  | some i => rcpRegList.set i none

def State.RCP_RegList_Search (s : State) (dev : Nat) (regAddr : UInt16) : Option Nat :=
  s.rcpRegList.reduceOption.find? fun q => regAddr = (s.reg q).address ∧
    (s.world.device dev).switchMac = (s.world.device (s.reg q).dev).switchMac

/-- `RCP_RegList_Update`, up to its search. It takes the lock of the list before it. -/
def State.RCP_RegList_Update (s : State) (r : Reply) : State × RCP_RET :=
  if MAX_RRCP_SWITCH_TO_MANAGE ≤ r.parentPort then (s, .RCP_BAD_PARAM)
  else
    match s.world.rcpDevList r.parentPort with
    | none => (s, .RCP_NOT_INITIALIZED)
    | some dev =>
      if (s.world.device dev).authenKey.toList ≠ r.authKey then (s, .RCP_UNKOWN)
      else
        match s.RCP_RegList_Search dev r.regAddress with
        | none => (s, .RCP_NO_SUCH)
        | some q => ({ s with listLocked := true, updating := some (q, r) }, .RCP_OK)

/-- `RCP_RegList_Update` finds the entry `q` for the reply. -/
def State.Finds (s : State) (r : Reply) (q : Nat) : Prop :=
  r.parentPort < MAX_RRCP_SWITCH_TO_MANAGE ∧
    ∃ dev, s.world.rcpDevList r.parentPort = some dev ∧
      (s.world.device dev).authenKey.toList = r.authKey ∧ s.RCP_RegList_Search dev r.regAddress = some q

/-- The rest of `RCP_RegList_Update`: it writes to the entry that it has found. -/
def State.complete (s : State) : State :=
  match s.updating with
  | none => s
  | some (q, r) =>
    let s := s.edit q { s.reg q with value := r.regValue, validFlag := 1 }
    { s with os := (gw_semaphore_post s.os (s.reg q).semAccess).1, listLocked := false, updating := none }

/-! ## The calls -/

inductive Call where
  | RCP_Read_Reg (dev : Option Nat) (regAddr : UInt16) (data_null : Bool)
  | RCP_Read_32bit_Reg (dev : Option Nat) (regAddr : UInt16) (data_null : Bool)
  | RCP_Write_Reg (dev : Option Nat) (regAddr data : UInt16)
  | RCP_Say_Hello (parentPort : Int)
  deriving DecidableEq

/-- The milliseconds that a call waits for the channel. -/
def Kind.timeout : Kind → Nat
  | read | read32 => RCP_RESPONSE_TIMEOUT
  | write => 1000
  | unicast | broadcast => 200

def Kind.isRead : Kind → Bool
  | read | read32 => true
  | write | unicast | broadcast => false

/-- Only `RCP_Read_Reg` takes `semAccessRcpRegList`. -/
def Kind.locks : Kind → Bool
  | read => true
  | read32 | write | unicast | broadcast => false

/-- What follows `ERROR_RETURN`, or the frame of a call that is not a read. -/
def Kind.exit : Kind → Pc
  | read => .semDelete
  | read32 | write | unicast | broadcast => .give

def Kind.afterDelete : Kind → Pc
  | read => .give
  | read32 | write | unicast | broadcast => .returned

def Kind.afterGive : Kind → Pc
  | read32 => .semDelete
  | broadcast => .port
  | read | write | unicast => .returned

/-- What a call puts into its frame; a HELLO looks the switch up. -/
def Caller.toSend (c : Caller) (w : World) : Content :=
  let d := w.device c.dev
  match c.kind with
  | .read | .read32 => ⟨d.switchMac, REALTEK_RRCP_OPCODE_GET, d.authenKey, some c.regAddr, none⟩
  | .write => ⟨d.switchMac, REALTEK_RRCP_OPCODE_SET, d.authenKey, some c.regAddr, some c.wdata⟩
  | .broadcast => ⟨RcpHelloDMacDefault, REALTEK_RRCP_OPCODE_HELLO, RcpAuthenKeyDefault, none, none⟩
  | .unicast =>
    match w.rcpDevList c.lport with
    | none => ⟨RcpHelloDMacDefault, REALTEK_RRCP_OPCODE_HELLO, RcpAuthenKeyDefault, none, none⟩
    | some dev => ⟨(w.device dev).switchMac, REALTEK_RRCP_OPCODE_HELLO, (w.device dev).authenKey, none, none⟩

/-- The frame of a call. `vid` is the VLAN of the port, or what `RcpVid` happens to hold. -/
def Caller.frame (c : Caller) (w : World) (vid : UInt16) : List UInt8 :=
  let d := w.device c.dev
  match c.kind with
  | .read | .read32 | .write => (c.toSend w).frame w.vlan_dot_1q_enable d.parentMac d.mgtVid
  | .broadcast => (c.toSend w).frame w.vlan_dot_1q_enable w.localMac vid
  | .unicast =>
    (c.toSend w).frame w.vlan_dot_1q_enable w.localMac
      (((w.rcpDevList c.lport).map fun dev => (w.device dev).mgtVid).getD vid)

/-- The port that a call sends on. -/
def Caller.paPort (c : Caller) (w : World) : Nat :=
  match c.kind with
  | .read | .read32 | .write => (w.device c.dev).paPort.toNat
  | .unicast | .broadcast => c.lport

/-- A call that begins; a call that is refused returns at once. -/
def Caller.new (kind : Kind) (dev : Nat) (regAddr wdata : UInt16) (lport pReg : Nat) (pc : Pc)
    (iRet : RCP_RET) : Caller where
  kind := kind
  dev := dev
  regAddr := regAddr
  wdata := wdata
  lport := lport
  pReg := pReg
  pc := pc
  iRet := iRet
  data := none
  content := ⟨RcpHelloDMacDefault, REALTEK_RRCP_OPCODE_HELLO, RcpAuthenKeyDefault, none, none⟩
  took := false

def Kind.semName : Kind → List Char
  | read => ['r', 'e', 'a', 'd', '_', 'r', 'e', 'g']
  | read32 | write | unicast | broadcast => ['r', 'e', 'a', 'd', '_', '3', '2', 'b', 'i', 't']

/-- The start of both reads. `RCP_Read_32bit_Reg` does not look at the result of the
creation: the number of its semaphore is then the 0 of the `memset`. -/
def State.startRead (s : State) (p : Nat) (kind : Kind) (dev : Option Nat) (regAddr : UInt16)
    (data_null mal os : Bool) : State :=
  let c := Caller.new kind (dev.getD 0) regAddr 0 0 s.calls
  match dev with
  | none => s.set p (c .returned .RCP_BAD_PARAM)
  | some dev =>
    if data_null then s.set p (c .returned .RCP_BAD_PARAM)
    else if mal = false then s.set p (c .returned .RCP_NO_MEM)
    else
      match gw_rcp_sem_create os s.os kind.semName 0 with
      | none =>
        if kind.locks then s.set p (c .returned .RCP_ERROR)
        else
          ({ s with live := update s.live s.calls true }.edit s.calls ⟨regAddr, 0, dev, 0, 0⟩).set p
            (c .insert .RCP_OK)
      | some (t, sem_id) =>
        ({ s with
            os := t
            live := update s.live s.calls true
            holder := update s.holder sem_id (some s.calls) }.edit s.calls
              ⟨regAddr, 0, dev, 0, sem_id⟩).set p (c .insert .RCP_OK)

/-- A thread makes a call. `mal` and `os` say whether `malloc` and `sem_init` succeed. -/
def State.start (s : State) (p : Nat) (call : Call) (mal os : Bool) : State :=
  let n := s.calls
  let s :=
    match call with
    | .RCP_Read_Reg dev regAddr data_null => s.startRead p .read dev regAddr data_null mal os
    | .RCP_Read_32bit_Reg dev regAddr data_null => s.startRead p .read32 dev regAddr data_null mal os
    | .RCP_Write_Reg none _ _ => s.set p (.new .write 0 0 0 0 n .returned .RCP_BAD_PARAM)
    | .RCP_Write_Reg (some dev) regAddr data => s.set p (.new .write dev regAddr data 0 n .build .RCP_OK)
    | .RCP_Say_Hello parentPort =>
      if s.world.gulEthRxTaskReady = false then
        s.set p (.new .unicast 0 0 0 0 n .returned .RCP_NOT_INITIALIZED)
      else if 0 < parentPort then
        if (MAX_RRCP_SWITCH_TO_MANAGE : Int) ≤ parentPort then
          s.set p (.new .unicast 0 0 0 0 n .returned .RCP_BAD_PARAM)
        else s.set p (.new .unicast 0 0 0 parentPort.toNat n .port .RCP_OK)
      else if parentPort = 0 then s.set p (.new .unicast 0 0 0 0 n .returned .RCP_OK)
      else s.set p (.new .broadcast 0 0 0 1 n .port .RCP_OK)
  { s with calls := n + 1 }

/-! ## The steps of a call -/

/-- What one turn of the loop of `gw_semaphore_wait` comes to. -/
inductive Tried where
  | again (timeloop : Nat)
  | done (ret_val : GW_E_OSAL)

/-- One turn of the loop of `gw_semaphore_wait`, for a timeout in milliseconds. -/
def gw_semaphore_wait_turn (s : Os) (sem_id timeloop : Nat) : Os × Tried :=
  if GW_OSAL_MAX_COUNT_SEM ≤ sem_id ∨ (s.gw_osal_count_sem_table sem_id).free = true then
    (s, .done .ERR_INVALID_ID)
  else if timeloop = 0 then (s, .done .SEM_TIMEOUT)
  else if (s.gw_osal_count_sem_table sem_id).value = 0 then
    if 100 ≤ timeloop then (s, .again (timeloop - 100)) else (s, .done .SEM_TIMEOUT)
  else (s.set_sem sem_id (s.gw_osal_count_sem_table sem_id).take, .done .OK)

/-- The head of the loop over the ports; a unicast asks for its one port. -/
def Caller.nextPort (c : Caller) (up : Bool) : Caller :=
  if c.kind = .unicast then { c with pc := if up then .build else .returned }
  else if NUM_PORTS_PER_SYSTEM ≤ c.lport then { c with pc := .returned }
  else if up then { c with pc := .build }
  else { c with lport := c.lport + 1 }

def State.insert (s : State) (p : Nat) (c : Caller) (os : Bool) : State :=
  match freeSlot s.rcpRegList with
  | some i => { s with listLocked := s.listLocked || c.kind.locks }.set p { c with pc := .store i }
  | none =>
    if c.kind.locks then
      ((s.semDelete os (s.reg c.pReg).semAccess).free c.pReg).set p
        { c with pc := .returned, iRet := .RCP_NO_RESOURCE }
    else s.set p { c with pc := .returned, iRet := .RCP_NO_RESOURCE }

def State.store (s : State) (p : Nat) (c : Caller) (i : Nat) : State :=
  { s with
    rcpRegList := s.rcpRegList.set i (some c.pReg)
    listLocked := s.listLocked && !c.kind.locks }.set p { c with pc := .build }

def State.build (s : State) (p : Nat) (c : Caller) (vid : UInt16) : State :=
  { s with gucTxRcpPktBuf := c.frame s.world vid }.set p
    { c with content := c.toSend s.world, pc := .take c.kind.timeout }

/-- A take that is not successful is only logged. -/
def State.take (s : State) (p : Nat) (c : Caller) (timeloop : Nat) : State :=
  match gw_semaphore_wait_turn s.os s.semAccessRcpChannel timeloop with
  | (_, .again timeloop) => s.set p { c with pc := .take timeloop }
  | (os, .done ret) => { s with os }.set p { c with pc := .send, took := ret = GW_E_OSAL.OK }

/-- `ok` is what `LIB_IF_PORTSEND` says. -/
def State.send (s : State) (p : Nat) (c : Caller) (ok : Bool) : State :=
  if ok then
    let g : Sent := ⟨c.pReg, c.paPort s.world, s.gucTxRcpPktBuf.take 64⟩
    { s with sent := s.sent ++ [g] }.set p
      { c with pc := if c.kind.isRead then .wait RCP_RESPONSE_TIMEOUT else c.kind.exit }
  else s.set p { c with pc := c.kind.exit, iRet := .RCP_FAIL }

def State.wait (s : State) (p : Nat) (c : Caller) (timeloop : Nat) : State :=
  match gw_semaphore_wait_turn s.os (s.reg c.pReg).semAccess timeloop with
  | (_, .again timeloop) => s.set p { c with pc := .wait timeloop }
  | (os, .done .OK) => { s with os }.set p { c with pc := .value }
  | (_, .done _) => s.set p { c with pc := c.kind.exit, iRet := .RCP_TIMEOUT }

/-- The value that a read gives to its caller. -/
def Kind.result (kind : Kind) (value : UInt32) : UInt32 :=
  if kind = .read then value.toUInt16.toUInt32 else value

def State.value (s : State) (p : Nat) (c : Caller) : State :=
  let r := s.reg c.pReg
  { s with os := (gw_semaphore_post s.os r.semAccess).1 }.set p
    (if r.validFlag = 1 then { c with data := some (c.kind.result r.value), pc := c.kind.exit }
    else { c with data := some (c.kind.result 0xFFFFFFFF), iRet := .RCP_UNKOWN, pc := c.kind.exit })

def State.delete (s : State) (p : Nat) (c : Caller) : State :=
  ({ s with rcpRegList := RCP_RegList_Delete s.rcpRegList c.pReg }.free c.pReg).set p
    { c with pc := c.kind.afterDelete }

def State.give (s : State) (p : Nat) (c : Caller) : State :=
  { s with os := (gw_semaphore_post s.os s.semAccessRcpChannel).1 }.set p
    { c with
      took := false
      pc := c.kind.afterGive
      lport := if c.kind = Kind.broadcast then c.lport + 1 else c.lport }

/-- The next step of a call. `RCP_Read_Reg` waits for the lock of the list; `RCP_Read_32bit_Reg`
does not. -/
def State.turn (s : State) (p : Nat) (c : Caller) (ok : Bool) (vid : UInt16) : State :=
  match c.pc with
  | .port => s.set p (c.nextPort ok)
  | .insert => if c.kind.locks ∧ s.listLocked then s else s.insert p c ok
  | .store i => s.store p c i
  | .build => s.build p c vid
  | .take timeloop => s.take p c timeloop
  | .send => s.send p c ok
  | .wait timeloop => s.wait p c timeloop
  | .value => s.value p c
  | .semDelete => (s.semDelete ok (s.reg c.pReg).semAccess).set p { c with pc := .delete }
  | .delete => if c.kind.locks ∧ s.listLocked then s else s.delete p c
  | .give => s.give p c
  | .returned => s

/-- The switch answers a GET with what the register holds. -/
def State.answer (s : State) (k : Nat) : State :=
  match s.sent[k]? with
  | none => s
  | some g =>
    let i := tagLength g.frame
    if field g.frame (15 + i) 1 ≠ [REALTEK_RRCP_OPCODE_GET] then s
    else
      let regAddress := GET_RCP_PKT_SHORT (field g.frame (18 + i) 2)
      let r : Reply :=
        ⟨k, g.port, field g.frame (16 + i) 2, regAddress, s.world.register g.port regAddress⟩
      { s with answered := s.answered ++ [r], inflight := s.inflight ++ [r] }

/-- A thread makes a call or goes on with it, a switch answers, a reply arrives and is
written to its entry, or something changes outside. -/
inductive Event where
  | call (p : Nat) (call : Call) (mal os : Bool)
  | turn (p : Nat) (ok : Bool) (vid : UInt16)
  | answer (k : Nat)
  | deliver (i : Nat)
  | complete
  | world (w : World)

/-- A thread is in one call at a time. -/
def State.Idle (s : State) (p : Nat) : Bool := (s.caller p).all (·.pc = .returned)

def State.step (s : State) : Event → State
  | .call p call mal os => if s.Idle p then s.start p call mal os else s
  | .turn p ok vid =>
    match s.caller p with
    | none => s
    | some c => s.turn p c ok vid
  | .answer k => s.answer k
  | .deliver i =>
    if s.listLocked then s
    else
      match s.inflight[i]? with
      | none => s
      | some r => ({ s with inflight := s.inflight.eraseIdx i }.RCP_RegList_Update r).1
  | .complete => s.complete
  | .world w => { s with world := w }

/-! ## What a write leaves alone -/

section
variable (s : State) (p : Nat) (c : Caller)

@[simp] theorem set_self : (s.set p c).caller p = some c := update_self _ _ _

theorem set_other {q : Nat} (h : q ≠ p) : (s.set p c).caller q = s.caller q := update_of_ne h _ _

@[simp] theorem edit_self (q : Nat) (r : RCP_REG) : (s.edit q r).reg q = r := update_self _ _ _

theorem edit_other {q k : Nat} (h : k ≠ q) (r : RCP_REG) : (s.edit q r).reg k = s.reg k :=
  update_of_ne h _ _

@[simp] theorem set_os : (s.set p c).os = s.os := rfl

@[simp] theorem set_channel : (s.set p c).semAccessRcpChannel = s.semAccessRcpChannel := rfl

@[simp] theorem set_reg : (s.set p c).reg = s.reg := rfl

@[simp] theorem set_buf : (s.set p c).gucTxRcpPktBuf = s.gucTxRcpPktBuf := rfl

/-- A caller of the new state is the one that was set, or was there before. -/
theorem set_cases {s : State} {p q : Nat} {c d : Caller} (h : (s.set p c).caller q = some d) :
    q = p ∧ d = c ∨ q ≠ p ∧ s.caller q = some d := by
  by_cases hq : q = p
  · subst hq
    rw [set_self, Option.some.injEq] at h
    exact .inl ⟨rfl, h.symm⟩
  · rw [set_other s p c hq] at h
    exact .inr ⟨hq, h⟩

end

/-! ## The start, and single steps -/

theorem init_blank {os : Os} {w : World} {s : State} (h : RCP_Init os w = some s) :
    (∀ p, s.caller p = none) ∧ (s.sent = [] ∧ s.inflight = [] ∧ s.updating = none) ∧
      (∀ q, s.live q = false) ∧ (∀ id, s.holder id = none) ∧
        s.rcpRegList = List.replicate MAX_RTL_REG_TO_ACCESS none := by
  unfold RCP_Init at h
  simp only [Option.bind_eq_bind, Option.bind_eq_some_iff] at h
  obtain ⟨a, -, b, -, c, -, hs⟩ := h
  rw [← Option.some.inj hs]
  exact ⟨fun _ => rfl, ⟨rfl, rfl, rfl⟩, fun _ => rfl, fun _ => rfl, rfl⟩

/-- Nobody is in a call at the start. -/
theorem init_idle {os : Os} {w : World} {s : State} (h : RCP_Init os w = some s) (p : Nat) :
    s.caller p = none := (init_blank h).1 p

theorem init_quiet {os : Os} {w : World} {s : State} (h : RCP_Init os w = some s) :
    s.sent = [] ∧ s.inflight = [] ∧ s.updating = none := (init_blank h).2.1

theorem init_empty {os : Os} {w : World} {s : State} (h : RCP_Init os w = some s) :
    (∀ q, s.live q = false) ∧ (∀ id, s.holder id = none) ∧
      s.rcpRegList = List.replicate MAX_RTL_REG_TO_ACCESS none := (init_blank h).2.2

theorem complete_some {s : State} {q : Nat} {r : Reply} (h : s.updating = some (q, r)) :
    s.complete =
      { s.edit q { s.reg q with value := r.regValue, validFlag := 1 } with
        os := (gw_semaphore_post s.os (s.reg q).semAccess).1
        listLocked := false
        updating := none } := by
  rw [State.complete, h]
  dsimp only
  rw [edit_self]
  rfl

theorem step_turn {s : State} {p : Nat} {c : Caller} (hp : s.caller p = some c) {ok : Bool} {vid : UInt16} :
    s.step (.turn p ok vid) = s.turn p c ok vid := by
  rw [State.step, hp]

/-- A try that fails leaves less time. -/
theorem wait_turn_lt {o o' : Os} {id n m : Nat} (h : gw_semaphore_wait_turn o id n = (o', .again m)) :
    m < n := by
  unfold gw_semaphore_wait_turn at h
  split_ifs at h with hinvalid hn hvalue hlong
  all_goals simp only [Prod.mk.injEq, Tried.again.injEq, reduceCtorEq, and_false] at h
  omega

/-! ## What a step can do -/

/-- The state of a read that has a new `RCP_REG`. -/
def State.reads (s : State) (p : Nat) (kind : Kind) (dev : Nat) (regAddr : UInt16) (os : Os)
    (holder : Nat → Option Nat) (semAccess : Nat) : State :=
  ({ s with os, holder, live := update s.live s.calls true, calls := s.calls + 1 }.edit s.calls
    ⟨regAddr, 0, dev, 0, semAccess⟩).set p (.new kind dev regAddr 0 0 s.calls .insert .RCP_OK)

/-- What a call can begin with: a read has its semaphore or, as a 32-bit read, goes on
without, and any other call is refused or comes to its loop or its frame. -/
inductive State.Starts (s : State) (p : Nat) (os : Bool) : Call → Bool → State → Prop
  | reads {call : Call} {mal : Bool} (kind : Kind) (dev : Nat) (regAddr : UInt16) (t : Os) (sem_id : Nat) :
      kind.isRead = true →
      gw_rcp_sem_create os s.os kind.semName 0 = some (t, sem_id) →
      s.Starts p os call mal (s.reads p kind dev regAddr t (update s.holder sem_id (some s.calls)) sem_id)
  | blind (dev : Nat) (regAddr : UInt16) :
      gw_rcp_sem_create os s.os Kind.read32.semName 0 = none →
      s.Starts p os (.RCP_Read_32bit_Reg (some dev) regAddr false) true
        (s.reads p .read32 dev regAddr s.os s.holder 0)
  | refused {call : Call} {mal : Bool} (kind : Kind) (dev : Nat) (regAddr wdata : UInt16) (lport : Nat)
      (iRet : RCP_RET) : kind.isRead = true → iRet ≠ .RCP_OK →
      s.Starts p os call mal ({ s with calls := s.calls + 1 }.set p
        (.new kind dev regAddr wdata lport s.calls .returned iRet))
  | other {call : Call} {mal : Bool} (kind : Kind) (dev : Nat) (regAddr wdata : UInt16) (lport : Nat)
      (pc : Pc) (iRet : RCP_RET) : kind.isRead = false → pc = .port ∨ pc = .build ∨ pc = .returned →
      s.Starts p os call mal ({ s with calls := s.calls + 1 }.set p
        (.new kind dev regAddr wdata lport s.calls pc iRet))

theorem startRead_starts (s : State) (p : Nat) {kind : Kind} {call : Call} (dev : Option Nat)
    (regAddr : UInt16) (data_null mal os : Bool)
    (hkind : kind = .read ∨ kind = .read32 ∧ call = .RCP_Read_32bit_Reg dev regAddr data_null) :
    s.Starts p os call mal { s.startRead p kind dev regAddr data_null mal os with calls := s.calls + 1 } := by
  have hread : kind.isRead = true := by rcases hkind with rfl | ⟨rfl, -⟩ <;> rfl
  unfold State.startRead
  dsimp only
  split
  · exact .refused kind _ regAddr 0 0 _ hread (by decide)
  · rename_i dev
    by_cases hnull : data_null = true
    · rw [if_pos hnull]
      exact .refused kind _ regAddr 0 0 _ hread (by decide)
    by_cases hmal : mal = false
    · rw [if_neg hnull, if_pos hmal]
      exact .refused kind _ regAddr 0 0 _ hread (by decide)
    rw [if_neg hnull, if_neg hmal]
    cases hcreate : gw_rcp_sem_create os s.os kind.semName 0 with
    | none =>
      rcases hkind with rfl | ⟨rfl, rfl⟩
      · exact .refused .read _ regAddr 0 0 _ hread (by decide)
      · rw [Bool.not_eq_true] at hnull
        rw [Bool.not_eq_false] at hmal
        rw [hnull, hmal]
        exact .blind dev regAddr hcreate
    | some created => exact .reads kind dev regAddr created.1 created.2 hread hcreate

theorem start_starts (s : State) (p : Nat) (call : Call) (mal os : Bool) :
    s.Starts p os call mal (s.start p call mal os) := by
  unfold State.start
  dsimp only
  split
  · exact startRead_starts s p _ _ _ mal os (.inl rfl)
  · exact startRead_starts s p _ _ _ mal os (.inr ⟨rfl, rfl⟩)
  · exact .other .write 0 0 0 0 .returned _ rfl (.inr (.inr rfl))
  · exact .other .write _ _ _ 0 .build _ rfl (.inr (.inl rfl))
  · split_ifs
    · exact .other .unicast 0 0 0 0 .returned _ rfl (.inr (.inr rfl))
    · exact .other .unicast 0 0 0 0 .returned _ rfl (.inr (.inr rfl))
    · exact .other .unicast 0 0 0 _ .port _ rfl (.inl rfl)
    · exact .other .unicast 0 0 0 0 .returned _ rfl (.inr (.inr rfl))
    · exact .other .broadcast 0 0 0 1 .port _ rfl (.inl rfl)

/-- The reply of the switch to a frame. -/
def Sent.reply (g : Sent) (w : World) (k : Nat) : Reply :=
  let i := tagLength g.frame
  let regAddress := GET_RCP_PKT_SHORT (field g.frame (18 + i) 2)
  ⟨k, g.port, field g.frame (16 + i) 2, regAddress, w.register g.port regAddress⟩

/-- What an event can do. -/
inductive State.Takes (s : State) : Event → State → Prop
  | nothing (e : Event) : s.Takes e s
  | call (p : Nat) (call : Call) (mal os : Bool) : s.Idle p = true →
      s.Takes (.call p call mal os) (s.start p call mal os)
  | turn (p : Nat) (c : Caller) (ok : Bool) (vid : UInt16) : s.caller p = some c →
      s.Takes (.turn p ok vid) (s.turn p c ok vid)
  | answer (k : Nat) (g : Sent) : s.sent[k]? = some g →
      s.Takes (.answer k) { s with
        answered := s.answered ++ [g.reply s.world k]
        inflight := s.inflight ++ [g.reply s.world k] }
  | drop (i : Nat) : s.Takes (.deliver i) { s with inflight := s.inflight.eraseIdx i }
  | find (i : Nat) (r : Reply) (q : Nat) : s.listLocked = false → s.inflight[i]? = some r → s.Finds r q →
      s.Takes (.deliver i)
        { s with inflight := s.inflight.eraseIdx i, listLocked := true, updating := some (q, r) }
  | complete (q : Nat) (r : Reply) : s.updating = some (q, r) → s.Takes .complete s.complete
  | world (w : World) : s.Takes (.world w) { s with world := w }

theorem step_takes (s : State) (e : Event) : s.Takes e (s.step e) := by
  unfold State.step
  split
  · split_ifs with hidle
    · exact .call _ _ _ _ hidle
    · exact .nothing _
  · split
    · exact .nothing _
    · exact .turn _ _ _ _ ‹_›
  · unfold State.answer
    split
    · exact .nothing _
    · dsimp only
      split_ifs
      · exact .nothing _
      · exact .answer _ _ ‹_›
  · split_ifs with hlocked
    · exact .nothing _
    · split
      · exact .nothing _
      · rename_i i _ r hr
        unfold State.RCP_RegList_Update
        split_ifs with hport
        · exact .drop i
        · split
          · exact .drop i
          · rename_i dev hdev
            split_ifs with hkey
            · exact .drop i
            · split
              · exact .drop i
              · rename_i q hq
                exact .find i r q (by simpa using hlocked) hr
                  ⟨not_le.mp hport, dev, hdev, not_not.mp hkey, hq⟩
  · cases hu : s.updating with
    | none =>
      unfold State.complete
      rw [hu]
      exact .nothing _
    | some u => exact .complete u.1 u.2 hu
  · exact .world _

/-- One switch, known to the program at port 1. -/
def oneSwitch : World where
  device _ := ⟨#v[0, 0, 0, 0, 0, 1], #v[0, 0, 0, 0, 0, 2], RcpAuthenKeyDefault, 1, 0⟩
  rcpDevList port := if port = 1 then some 0 else none
  vlan_dot_1q_enable := false
  gulEthRxTaskReady := true
  localMac := #v[0, 0, 0, 0, 0, 2]
  register _ _ := 7

end gwdonu.rcp
