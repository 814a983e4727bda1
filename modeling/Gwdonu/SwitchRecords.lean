-- The record of a switch, as its hello reply makes it or changes it, behind the semaphore of
-- the list. When the call leaves the semaphore as it was, and the list whole.
import Gwdonu.SwitchMonitor

namespace gwdonu.switch_records

open Function
open oam (Mem)
open rcp (RCP_RET MAX_RRCP_SWITCH_TO_MANAGE)
open switch_monitor (Mac nullMac Rcp_ChipId_AuthCheck sourceMac)

/-! ## The records -/

inductive AccessFunction where
  | RCP_Read_Reg
  | RCP_Write_Reg
  | gw_rcp_sem_create
  | gw_rcp_sem_delete
  | gw_rcp_sem_take
  | gw_rcp_sem_give
  | RCPLPort2Port
  | RCPPort2LPort
  deriving DecidableEq

/-- The access functions of a record. -/
structure Access where
  frcpReadReg : Option AccessFunction
  frcpWriteReg : Option AccessFunction
  semCreate : Option AccessFunction
  semDelete : Option AccessFunction
  semTake : Option AccessFunction
  semGive : Option AccessFunction
  frcpLPort2Port : Option AccessFunction
  frcpPort2LPort : Option AccessFunction
  deriving DecidableEq

def Access.init : Access where
  frcpReadReg := some .RCP_Read_Reg
  frcpWriteReg := some .RCP_Write_Reg
  semCreate := some .gw_rcp_sem_create
  semDelete := some .gw_rcp_sem_delete
  semTake := some .gw_rcp_sem_take
  semGive := some .gw_rcp_sem_give
  frcpLPort2Port := some .RCPLPort2Port
  frcpPort2LPort := some .RCPPort2LPort

structure RCP_DEV where
  switchMac : Mac
  previousswitchMac : Mac
  parentMac : Mac
  chipID : Vector UInt8 2
  vendorID : Vector UInt8 4
  authenKey : Vector UInt8 2
  upLinkPort : UInt8
  parentPort : UInt8
  paSlot : UInt8
  paPort : UInt8
  onlineStatus : UInt8
  previousOnlineStatus : UInt8
  alarmStatus : UInt8
  alarmMask : UInt8
  timeoutCounter : UInt8
  timeoutFlag : UInt8
  mgtVid : UInt16
  phyAddr : UInt16
  access : Access
  deriving DecidableEq

/-- What `malloc` gave, set to zeros. -/
def RCP_DEV.zeros : RCP_DEV where
  switchMac := nullMac
  previousswitchMac := nullMac
  parentMac := nullMac
  chipID := Vector.replicate 2 0
  vendorID := Vector.replicate 4 0
  authenKey := Vector.replicate 2 0
  upLinkPort := 0
  parentPort := 0
  paSlot := 0
  paPort := 0
  onlineStatus := 0
  previousOnlineStatus := 0
  alarmStatus := 0
  alarmMask := 0
  timeoutCounter := 0
  timeoutFlag := 0
  mgtVid := 0
  phyAddr := 0
  access := ⟨none, none, none, none, none, none, none, none⟩

/-- A record of the list. Whatever makes one sets all of its access functions, and nothing
takes them away. -/
structure Record where
  dev : RCP_DEV
  access : dev.access = Access.init

/-- `semAccessRcpDevList` is how often the semaphore can be taken. -/
structure State where
  rcpDevList : Nat → Option Record
  semAccessRcpDevList : Nat
  vlan_dot_1q_enable : Bool
  gucRcpAlarmMask : UInt8

/-- What the call gets from around it: the VLAN that `LIB_IF_PORT_PVID_GET` writes, if it
writes one, whether the frame with the new key is sent, and whether there is memory. -/
structure Env where
  LIB_IF_PORT_PVID_GET : Option UInt16
  LIB_IF_PORTSEND : Bool
  mal : Bool

/-! ## The program -/

def RcpAuthenKeyGWD : Vector UInt8 2 := #[0x23, 0x79].toVector
def RCP_HELLO_PAYLOAD_OFFSET : Nat := 20

/-- As far as the call reads it. -/
structure RCP_HELLO_PAYLOAD where
  authKey : Vector UInt8 2
  downLinkPort : UInt8
  chipID : Vector UInt8 2
  vendorID : Vector UInt8 4

def payload (pkt : Mem) : RCP_HELLO_PAYLOAD where
  authKey := Vector.ofFn fun k => pkt (RCP_HELLO_PAYLOAD_OFFSET + k)
  downLinkPort := pkt (RCP_HELLO_PAYLOAD_OFFSET + 2)
  chipID := Vector.ofFn fun k => pkt (RCP_HELLO_PAYLOAD_OFFSET + 10 + k)
  vendorID := Vector.ofFn fun k => pkt (RCP_HELLO_PAYLOAD_OFFSET + 12 + k)

/-- Of a record that is there. -/
def RCP_Write_Reg (e : Env) : RCP_RET := if e.LIB_IF_PORTSEND then .RCP_OK else .RCP_FAIL

def RCP_SetAuthenKey (e : Env) (dev : RCP_DEV) (data : UInt16) : RCP_DEV × RCP_RET :=
  let ret := RCP_Write_Reg e
  if ret ≠ .RCP_OK then (dev, ret)
  else ({ dev with authenKey := #v[((data &&& 0xFF00) >>> 8).toUInt8, (data &&& 0x00FF).toUInt8] }, .RCP_OK)

def RCP_DEV.getMgtVid (s : State) (e : Env) (dev : RCP_DEV) : RCP_DEV :=
  { dev with mgtVid := if s.vlan_dot_1q_enable then e.LIB_IF_PORT_PVID_GET.getD dev.mgtVid else 0 }

/-- What the call writes to a record that it made. -/
def RCP_DEV.create (s : State) (e : Env) (parentPort : Nat) (pkt : Mem) : RCP_DEV :=
  { RCP_DEV.zeros.getMgtVid s e with
    access := Access.init
    parentMac := Vector.ofFn fun k => pkt k
    parentPort := .ofNat parentPort
    paSlot := 1
    paPort := .ofNat parentPort }

/-- The key of the packet, or the one that the switch was told. -/
def RCP_DEV.setKey (e : Env) (pkt : Mem) (dev : RCP_DEV) : RCP_DEV :=
  let dev := { dev with authenKey := (payload pkt).authKey }
  if dev.authenKey ≠ RcpAuthenKeyGWD then
    let usAuthenkey := RcpAuthenKeyGWD[0].toUInt16 <<< 8 + RcpAuthenKeyGWD[1].toUInt16
    (RCP_SetAuthenKey e dev usAuthenkey).1
  else dev

/-- What the call writes to every record. -/
def RCP_DEV.hello (s : State) (e : Env) (pkt : Mem) (dev : RCP_DEV) : RCP_DEV :=
  let payload := payload pkt
  let dev := { dev with
    switchMac := sourceMac pkt
    chipID := payload.chipID
    vendorID := payload.vendorID
    upLinkPort := payload.downLinkPort }
  let dev := (dev.getMgtVid s e).setKey e pkt
  { dev with timeoutFlag := 0, timeoutCounter := 0, phyAddr := 0x10, alarmMask := s.gucRcpAlarmMask }

theorem setKey_access (e : Env) (pkt : Mem) (dev : RCP_DEV) : (dev.setKey e pkt).access = dev.access := by
  unfold RCP_DEV.setKey RCP_SetAuthenKey
  dsimp only
  split_ifs <;> rfl

theorem hello_access (s : State) (e : Env) (pkt : Mem) (dev : RCP_DEV) : (dev.hello s e pkt).access = dev.access :=
  setKey_access e pkt _

def Record.create (s : State) (e : Env) (parentPort : Nat) (pkt : Mem) : Record :=
  ⟨.create s e parentPort pkt, rfl⟩

def Record.hello (s : State) (e : Env) (pkt : Mem) (r : Record) : Record :=
  ⟨r.dev.hello s e pkt, (hello_access s e pkt r.dev).trans r.access⟩

/-- `none` when the call does not return: it waits for the semaphore for ever. -/
def State.RCP_DevList_Update (s : State) (e : Env) (parentPort : Nat) (pkt : Option Mem) :
    Option (State × RCP_RET) :=
  if MAX_RRCP_SWITCH_TO_MANAGE ≤ parentPort then some (s, .RCP_BAD_PARAM)
  else
    match pkt with
    | none => some (s, .RCP_BAD_VALUE)
    | some pkt =>
      if ¬ Rcp_ChipId_AuthCheck pkt then some (s, .RCP_UNKOWN)
      else if s.semAccessRcpDevList = 0 then none
      else
        let s := { s with semAccessRcpDevList := s.semAccessRcpDevList - 1 }
        let record := match s.rcpDevList parentPort with
          | some r => some r
          | none => if e.mal then some (.create s e parentPort pkt) else none
        match record with
        | none => some (s, .RCP_NO_MEM)
        | some r =>
          some ({ s with
            rcpDevList := update s.rcpDevList parentPort (some (r.hello s e pkt))
            semAccessRcpDevList := s.semAccessRcpDevList + 1 }, .RCP_OK)

/-! ## What the call should leave -/

/-- The record of a switch that answered. -/
structure RCP_DEV.Complete (dev : RCP_DEV) (pkt : Mem) : Prop where
  access : dev.access = Access.init
  switchMac : dev.switchMac = sourceMac pkt
  authenKey : dev.authenKey = (payload pkt).authKey ∨ dev.authenKey = RcpAuthenKeyGWD
  timeoutCounter : dev.timeoutCounter = 0
  timeoutFlag : dev.timeoutFlag = 0

/-- The semaphore is as it was; a call that fails changes nothing, and one that does not leaves
a complete record, and the others as they were. -/
structure Atomic (s : State) (parentPort : Nat) (pkt : Option Mem) (t : State) (ret : RCP_RET) : Prop where
  released : t.semAccessRcpDevList = s.semAccessRcpDevList
  failed : ret ≠ .RCP_OK → t.rcpDevList = s.rcpDevList
  complete : ret = .RCP_OK → ∃ frame r, pkt = some frame ∧ t.rcpDevList parentPort = some r ∧ r.dev.Complete frame
  others : ret = .RCP_OK → ∀ p, p ≠ parentPort → t.rcpDevList p = s.rcpDevList p

/-- The call gets the semaphore and needs a record, but there is no memory for it. -/
structure Starved (s : State) (e : Env) (parentPort : Nat) (pkt : Option Mem) : Prop where
  port : parentPort < MAX_RRCP_SWITCH_TO_MANAGE
  pkt : ∃ frame, pkt = some frame ∧ Rcp_ChipId_AuthCheck frame
  semAccessRcpDevList : 0 < s.semAccessRcpDevList
  record : s.rcpDevList parentPort = none
  mal : e.mal = false

section
variable {s : State} {e : Env} {parentPort : Nat} {pkt : Option Mem} {frame : Mem} {dev : RCP_DEV}

/-! ## A record -/

/-- The key goes into the register as a word and comes out of it again. -/
theorem key_of_word :
    let usAuthenkey := RcpAuthenKeyGWD[0].toUInt16 <<< 8 + RcpAuthenKeyGWD[1].toUInt16
    #v[((usAuthenkey &&& 0xFF00) >>> 8).toUInt8, (usAuthenkey &&& 0x00FF).toUInt8] = RcpAuthenKeyGWD := by
  decide

theorem setKey_authenKey (e : Env) (pkt : Mem) (dev : RCP_DEV) :
    (dev.setKey e pkt).authenKey = (payload pkt).authKey ∨ (dev.setKey e pkt).authenKey = RcpAuthenKeyGWD := by
  unfold RCP_DEV.setKey RCP_SetAuthenKey
  dsimp only
  split_ifs
  · exact .inl rfl
  · exact .inr key_of_word
  · exact .inl rfl

theorem hello_complete (r : Record) (pkt : Mem) : (r.hello s e pkt).dev.Complete pkt where
  access := (r.hello s e pkt).access
  switchMac := by
    unfold Record.hello RCP_DEV.hello RCP_DEV.setKey RCP_SetAuthenKey
    dsimp only
    split_ifs <;> rfl
  authenKey := setKey_authenKey e pkt _
  timeoutCounter := rfl
  timeoutFlag := rfl

/-! ## The call -/

/-- What a call comes to. -/
inductive State.Updates (s : State) (e : Env) (parentPort : Nat) (pkt : Option Mem) : Option (State × RCP_RET) → Prop
  | refused (ret : RCP_RET) : ret ≠ .RCP_OK → ¬ Starved s e parentPort pkt → s.Updates e parentPort pkt (some (s, ret))
  | waits : ¬ Starved s e parentPort pkt → s.Updates e parentPort pkt none
  | starved : Starved s e parentPort pkt →
      s.Updates e parentPort pkt
        (some ({ s with semAccessRcpDevList := s.semAccessRcpDevList - 1 }, .RCP_NO_MEM))
  | answered (frame : Mem) (r : Record) : ¬ Starved s e parentPort pkt → pkt = some frame →
      s.Updates e parentPort pkt
        (some ({ s with rcpDevList := update s.rcpDevList parentPort (some (r.hello s e frame)) }, .RCP_OK))

theorem update_updates (s : State) (e : Env) (parentPort : Nat) (pkt : Option Mem) :
    s.Updates e parentPort pkt (s.RCP_DevList_Update e parentPort pkt) := by
  unfold State.RCP_DevList_Update
  by_cases hport : MAX_RRCP_SWITCH_TO_MANAGE ≤ parentPort
  · rw [if_pos hport]
    exact .refused _ RCP_RET.noConfusion fun h => absurd h.port (not_lt_of_ge hport)
  · rw [if_neg hport]
    cases pkt with
    | none => exact .refused _ RCP_RET.noConfusion fun ⟨_, ⟨_, hpkt, _⟩, _, _, _⟩ => nomatch hpkt
    | some frame =>
      dsimp only
      by_cases hcheck : Rcp_ChipId_AuthCheck frame
      · rw [if_neg (not_not_intro hcheck)]
        by_cases hsem : s.semAccessRcpDevList = 0
        · rw [if_pos hsem]
          exact .waits fun h => absurd hsem h.semAccessRcpDevList.ne'
        · rw [if_neg hsem]
          have hpos := Nat.pos_of_ne_zero hsem
          rw [Nat.sub_add_cancel hpos]
          cases hrecord : s.rcpDevList parentPort with
          | some r => exact .answered frame r (fun h => nomatch hrecord.symm.trans h.record) rfl
          | none =>
            cases hmal : e.mal with
            | true => exact .answered frame _ (fun h => nomatch hmal.symm.trans h.mal) rfl
            | false => exact .starved ⟨not_le.mp hport, ⟨frame, rfl, hcheck⟩, hpos, hrecord, hmal⟩
      · rw [if_pos hcheck]
        refine .refused _ RCP_RET.noConfusion ?_
        rintro ⟨-, ⟨other, hother, hchecked⟩, -, -, -⟩
        cases hother
        exact hcheck hchecked

/-- The call keeps the semaphore and the list whole if it does not look for memory in vain. -/
theorem an_update_is_atomic_iff_there_is_memory (s : State) (e : Env) (parentPort : Nat) (pkt : Option Mem) :
    (∀ t ret, s.RCP_DevList_Update e parentPort pkt = some (t, ret) → Atomic s parentPort pkt t ret) ↔
      ¬ Starved s e parentPort pkt := by
  have hupdates := update_updates s e parentPort pkt
  generalize s.RCP_DevList_Update e parentPort pkt = result at hupdates
  cases hupdates with
  | refused ret hret hfed =>
    refine iff_of_true ?_ hfed
    rintro _ _ ⟨rfl, rfl⟩
    exact ⟨rfl, fun _ => rfl, fun h => absurd h hret, fun _ _ _ => rfl⟩
  | waits hfed => exact iff_of_true (fun _ _ h => nomatch h) hfed
  | starved hstarved =>
    refine iff_of_false ?_ (not_not_intro hstarved)
    intro h
    have hpos := hstarved.semAccessRcpDevList
    have hreleased := (h _ _ rfl).released
    dsimp only at hreleased
    omega
  | answered frame r hfed hpkt =>
    refine iff_of_true ?_ hfed
    rintro _ _ ⟨rfl, rfl⟩
    exact {
      released := rfl
      failed := fun h => absurd rfl h
      complete := fun _ => ⟨frame, _, hpkt, update_self _ _ _, hello_complete r frame⟩
      others := fun _ p hp => update_of_ne hp _ _ }

/-- The first hello reply of a switch, with no memory for its record, keeps the semaphore. -/
theorem a_reply_without_memory_keeps_the_semaphore :
    ∃ t, State.RCP_DevList_Update ⟨fun _ => none, 1, false, 0⟩ ⟨none, true, false⟩ 3
        (some fun i => if i = 30 then 0xc else 0) = some (t, .RCP_NO_MEM) ∧
      ¬ Atomic ⟨fun _ => none, 1, false, 0⟩ 3 (some fun i => if i = 30 then 0xc else 0) t .RCP_NO_MEM := by
  refine ⟨_, rfl, fun h => ?_⟩
  exact absurd h.released (by decide)

/-! ## The monitor -/

/-- What the monitor looks at. -/
def RCP_DEV.monitor (dev : RCP_DEV) : switch_monitor.RCP_DEV where
  switchMac := dev.switchMac
  previousswitchMac := dev.previousswitchMac
  paPort := dev.paPort
  onlineStatus := dev.onlineStatus
  previousOnlineStatus := dev.previousOnlineStatus
  alarmStatus := dev.alarmStatus
  alarmMask := dev.alarmMask
  timeoutCounter := dev.timeoutCounter
  timeoutFlag := dev.timeoutFlag

def State.monitor (s : State) (m : switch_monitor.State) : switch_monitor.State :=
  { m with
    rcpDevList := fun p => (s.rcpDevList p).map fun r => r.dev.monitor
    semAccessRcpDevList := s.semAccessRcpDevList ≠ 0
    gucRcpAlarmMask := s.gucRcpAlarmMask }

theorem hello_monitor (s : State) (e : Env) (pkt : Mem) (dev : RCP_DEV) :
    (dev.hello s e pkt).monitor = dev.monitor.answer (sourceMac pkt) s.gucRcpAlarmMask := by
  unfold RCP_DEV.hello RCP_DEV.setKey RCP_SetAuthenKey
  dsimp only
  split_ifs <;> rfl

theorem create_monitor (s : State) (e : Env) (parentPort : Nat) (pkt : Mem) :
    (Record.create s e parentPort pkt).dev.monitor = .fresh parentPort := rfl

theorem update_monitor_list (s : State) (parentPort : Nat) (r : Record) :
    (fun p => (update s.rcpDevList parentPort (some r) p).map fun r => r.dev.monitor) =
      update (fun p => (s.rcpDevList p).map fun r => r.dev.monitor) parentPort (some r.dev.monitor) := by
  funext p
  by_cases hp : p = parentPort
  · rw [hp, update_self, update_self]
    rfl
  · rw [update_of_ne hp, update_of_ne hp]

/-- The monitor's records change as these do. -/
theorem update_monitor (s : State) (m : switch_monitor.State) (e : Env) (parentPort : Nat) (frame : Mem)
    (hsem : s.semAccessRcpDevList ≤ 1) :
    (s.monitor m).RCP_DevList_Update e.mal parentPort frame =
      (s.RCP_DevList_Update e parentPort (some frame)).map fun r => (r.1.monitor m, r.2) := by
  unfold State.RCP_DevList_Update switch_monitor.State.RCP_DevList_Update
  by_cases hport : MAX_RRCP_SWITCH_TO_MANAGE ≤ parentPort
  · rw [if_pos hport, if_pos hport]
    rfl
  · rw [if_neg hport, if_neg hport]
    dsimp only
    by_cases hcheck : Rcp_ChipId_AuthCheck frame
    · rw [if_neg (not_not_intro hcheck), if_neg (not_not_intro hcheck)]
      by_cases hfree : s.semAccessRcpDevList = 0
      · rw [if_pos hfree, if_pos (by simp [State.monitor, hfree])]
        rfl
      · have hone : s.semAccessRcpDevList = 1 := by omega
        rw [if_neg hfree, if_neg (by simp [State.monitor, hfree])]
        unfold switch_monitor.State.record
        cases hrecord : s.rcpDevList parentPort with
        | some r =>
          simp [State.monitor, hrecord, hone, update_monitor_list, Record.hello, hello_monitor]
        | none =>
          cases e.mal
          · simp [State.monitor, hrecord, hone]
          · simp [State.monitor, hrecord, hone, update_monitor_list, Record.hello, hello_monitor, create_monitor]
    · rw [if_pos hcheck, if_pos hcheck]
      rfl

end

end gwdonu.switch_records
