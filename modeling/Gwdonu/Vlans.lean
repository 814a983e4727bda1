-- The VLANs of a switch: 32 entries of members and a VID, an index into them for each port,
-- and a cache of the entries in the device.
import Gwdonu.RegisterFields

namespace gwdonu.vlans

open Function calls rcp_registers register_fields
open rcp (RCP_RET)

/-! ## One entry -/

def MAX_RCP_VLAN_NUM : Nat := 32
def MAX_RCP_SWITCH_TO_MANAGE : Nat := 24

def RT8326_VLAN_PORT_MEMBER (e p : Nat) : Nat := (0x031D + 0x0003 * e + 0x0001 * p) % 65536
def RT8326_VLAN_VID (e : Nat) : Nat := (0x031F + 0x0003 * e) % 65536

def cachePort (s : State) (vlanum : Nat) (data : BitVec 32) : State :=
  { s with dev := { s.dev with vlanPort := update s.dev.vlanPort vlanum data } }

def cacheVid (s : State) (vlanum : Nat) (data : BitVec 16) : State :=
  { s with dev := { s.dev with vlanVid := update s.dev.vlanVid vlanum data } }

def RCP_GetVlanPort (vlanum : Nat) : Rcp (BitVec 32) := do
  let tmpdata1 ← RCP_Read_Reg (RT8326_VLAN_PORT_MEMBER vlanum 0)
  let s ← get
  if s.dev.numOfPorts > 16 then
    let tmpdata2 ← RCP_Read_Reg (RT8326_VLAN_PORT_MEMBER vlanum 1)
    return (tmpdata2.setWidth 32 <<< 16) ||| tmpdata1.setWidth 32
  else return tmpdata1.setWidth 32

/-- The part of `RCP_SetVlanPort` for the registers. -/
def setMembers (vlanum : Nat) (data : BitVec 32) : Rcp Unit := do
  let s ← get
  RCP_Write_Reg (RT8326_VLAN_PORT_MEMBER vlanum 0) (data.setWidth 16)
  when (¬ s.dev.numOfPorts ≤ 16) do
    RCP_Write_Reg (RT8326_VLAN_PORT_MEMBER vlanum 1) ((data >>> 16).setWidth 16)

/-- The part of `RCP_SetVlanPort` for the EEPROM. With a member among the ports 9 to 16, the
register that it takes is 24 behind that of the entry. -/
def saveMembers (vlanum : Nat) (data : BitVec 32) : Rcp Unit := do
  if (data &&& 0xff00) >>> 8 = 0 then
    let f ← eeaddrFromReg (RT8326_VLAN_PORT_MEMBER vlanum 0) 0 8
    RCP_SetEepromField f.eeAddr f.eeOffset f.eeLength (data.setWidth 8)
    RCP_SetEepromValue (f.eeAddr + 1) 0
  else
    let f ← eeaddrFromReg (RT8326_VLAN_PORT_MEMBER vlanum MAX_RCP_SWITCH_TO_MANAGE) 8 8
    RCP_SetEepromValue (f.eeAddr - 1) ((data &&& 0xff).setWidth 8)
    RCP_SetEepromField f.eeAddr f.eeOffset f.eeLength (((data &&& 0xff00) >>> 8).setWidth 8)

def RCP_SetVlanPort (vlanum : Nat) (data : BitVec 32) (flag : RCP_FLAG) : Rcp Unit := do
  when (vlanum > 31) (throw .RCP_BAD_VALUE)
  when flag.toRegister (setMembers vlanum data)
  when flag.toEeprom (saveMembers vlanum data)
  modify fun s => cachePort s vlanum data

/-- Whether the port is a member, as the cache has it. -/
def RCP_GetVlanPortExist (slot port vlanum : Nat) : Rcp Bool := do
  let phyPort ← RCPLPort2Port slot port
  let s ← get
  return ((1#32 <<< phyPort) &&& s.dev.vlanPort vlanum) >>> phyPort == 1

def RCP_SetVlanPortAdd (slot port vlanum : Nat) (flag : RCP_FLAG) : Rcp Unit := do
  let phyPort ← RCPLPort2Port slot port
  let portlist ← RCP_GetVlanPort vlanum
  RCP_SetVlanPort vlanum (portlist ||| 1#32 <<< phyPort) flag

def RCP_SetVlanPortDelete (slot port vlanum : Nat) (flag : RCP_FLAG) : Rcp Unit := do
  let phyPort ← RCPLPort2Port slot port
  let portlist ← RCP_GetVlanPort vlanum
  RCP_SetVlanPort vlanum (portlist &&& ~~~(1#32 <<< phyPort)) flag

def RCP_GetVlanVID (vlanum : Nat) : Rcp (BitVec 16) := RCP_GetRegField (RT8326_VLAN_VID vlanum) 0 12

/-- The part of `RCP_SetVlanVID` for the EEPROM. -/
def saveVid (vlanum : Nat) (data : BitVec 16) : Rcp Unit := do
  if (data &&& 0xff00) >>> 8 = 0 then
    let f ← eeaddrFromReg (RT8326_VLAN_VID vlanum) 0 8
    RCP_SetEepromField f.eeAddr f.eeOffset f.eeLength (data.setWidth 8)
    RCP_SetEepromValue (f.eeAddr + 1) 0
  else
    let f ← eeaddrFromReg (RT8326_VLAN_VID vlanum) 8 8
    RCP_SetEepromValue (f.eeAddr - 1) ((data &&& 0xff).setWidth 8)
    RCP_SetEepromField f.eeAddr f.eeOffset f.eeLength (((data &&& 0xff00) >>> 8).setWidth 8)

def RCP_SetVlanVID (vlanum : Nat) (data : BitVec 16) (flag : RCP_FLAG) : Rcp Unit := do
  when (vlanum > 31) (throw .RCP_BAD_VALUE)
  when flag.toRegister (RCP_SetRegisterField (RT8326_VLAN_VID vlanum) 0 12 data)
  when flag.toEeprom (saveVid vlanum data)
  modify fun s => cacheVid s vlanum data

/-! ## The entry of a port -/

def RCP_GetVlanPVID (slot port : Nat) : Rcp (BitVec 16) := do
  let vlanum ← RCP_GetVlanPortIDAssignment slot port
  RCP_GetVlanVID vlanum.toNat

/-- The first entry of the cache with the VID, or the first of all. -/
def numFromVID (dev : RCP_DEV) (vid : BitVec 16) : Nat :=
  ((List.range MAX_RCP_VLAN_NUM).find? fun i => dev.vlanVid i == vid).getD 0

def RCP_GetVlanNumFromVID (vid : BitVec 16) : Rcp Nat := do
  let s ← get
  return numFromVID s.dev vid

def RCP_SetVlanPVID (slot port : Nat) (data : BitVec 16) (flag : RCP_FLAG) : Rcp Unit := do
  let vlanum ← RCP_GetVlanNumFromVID data
  RCP_SetVlanPortIDAssignment slot port (BitVec.ofNat 16 vlanum) flag

def RCP_SetVlanInsert (data : BitVec 16) (flag : RCP_FLAG) : Rcp Unit := do
  when flag.toRegister (RCP_Write_Reg RT8326_VLAN_PVID_CTL_BASE data)
  when flag.toEeprom do
    let f ← eeaddrFromReg RT8326_VLAN_PVID_CTL_BASE 0 8
    if (data &&& 0xff00) >>> 8 = 0 then
      RCP_SetEepromField f.eeAddr f.eeOffset f.eeLength (data.setWidth 8)
      RCP_SetEepromValue (f.eeAddr + 1) 0
    else
      RCP_SetEepromValue (f.eeAddr - 1) ((data &&& 0xff).setWidth 8)
      RCP_SetEepromField f.eeAddr f.eeOffset f.eeLength (((data &&& 0xff00) >>> 8).setWidth 8)

/-! ## Isolation of the ports -/

def RCP_SetVlanPortIsolate (data : BitVec 8) : Rcp Unit :=
  modify fun s => { s with dev := { s.dev with vlanPortIsolate := data } }

def ports (n : Nat) : List Nat := List.range' 1 n

/-- One turn of the loop over the ports, with the entry that is free next. -/
def isolatePort (mgtPort : Nat) (tmpPortList : BitVec 32) (flag : RCP_FLAG) (vlanum port : Nat) : Rcp Nat := do
  RCP_SetVlanOutPortTag 1 port 0 flag
  if port = mgtPort then return vlanum
  else
    let phyPort ← RCPLPort2Port 1 port
    RCP_SetVlanPort vlanum (tmpPortList ||| 1#32 <<< phyPort) flag
    RCP_SetVlanVID vlanum (BitVec.ofNat 16 (vlanum + 1)) flag
    RCP_SetVlanPVID 1 port (BitVec.ofNat 16 (vlanum + 1)) flag
    return vlanum + 1

def RCP_SetVlanMgtPortIsolate (mgtPort : Nat) (flag : RCP_FLAG) : Rcp Unit := do
  RCP_SetVlanVID 0 1 flag
  RCP_SetVlanPort 0 0xffffffff flag
  let phyPort ← RCPLPort2Port 1 mgtPort
  let s ← get
  let _ ← (ports s.dev.numOfPorts).foldlM (isolatePort mgtPort (1#32 <<< phyPort) flag) 1
  forM (List.range' s.dev.numOfPorts (MAX_RCP_VLAN_NUM - s.dev.numOfPorts)) fun vlanum => do
    RCP_SetVlanPort vlanum 0 flag
    RCP_SetVlanVID vlanum 0 flag
  RCP_SetVlanPVID 1 mgtPort 1 flag
  RCP_SetVlanInsert 0 flag

def RCP_SetVlanPortIsolateEn (data : BitVec 16) (mgtPort : Nat) (flag : RCP_FLAG) : Rcp Unit := do
  if data = 0 then
    RCP_SetVlanVID 0 1 flag
    RCP_SetVlanPort 0 0xffffffff flag
    let s ← get
    forM (ports s.dev.numOfPorts) fun port => do
      RCP_SetVlanInsertPVID 1 port 0 flag
      RCP_SetVlanPVID 1 port 1 flag
    forM (List.range' 1 (s.dev.numOfPorts - 1)) fun vlanum => do
      RCP_SetVlanVID vlanum 0 flag
      RCP_SetVlanPort vlanum 0 flag
    RCP_SetVlanPortIsolate 0
  else
    RCP_SetVlanMgtPortIsolate mgtPort flag
    RCP_SetVlanPortIsolate 1

/-! ## The list of VLANs -/

def RCP_SetVlan8021Q (data : BitVec 16) (flag : RCP_FLAG) : Rcp Unit := RCP_SetRegField 0x030B 4 1 data flag

/-- All ports that the device has. -/
def allPorts : RCP_DEVICE_ID → BitVec 32
  | .GH1516 => 0xffff
  | .GH1508 => 0xff
  | .GH1524 => 0xffffff
  | .GH1532 => 0xffffffff

def RCP_SetVlan8021QEnable (enable : BitVec 16) (flag : RCP_FLAG) : Rcp Unit := do
  let s ← get
  when (enable = 0) do
    RCP_SetVlanVID 0 1 flag
    RCP_SetVlanPort 0 (allPorts s.dev.deviceId) flag
    forM (List.range' 1 (MAX_RCP_VLAN_NUM - 1)) fun vlanum => do
      RCP_SetVlanVID vlanum 0 flag
      RCP_SetVlanPort vlanum 0 flag
    forM (ports s.dev.numOfPorts) fun port => do
      RCP_SetVlanPVID 1 port 1 flag
      RCP_SetVlanOutPortTag 1 port 3 flag
    RCP_Write_Reg RT8326_VLAN_PVID_CTL_BASE 0
    RCP_SetEepromValue 0x17a 0
    RCP_SetEepromValue 0x17b 0
    RCP_SetVlanPortIsolate 0
  when (enable ≠ 0) do
    forM (ports s.dev.numOfPorts) fun port => RCP_SetVlanOutPortTag 1 port 0 flag
  RCP_SetVlan8021Q enable flag

/-- A loop that goes on until the call returns `RCP_OK`, for `n` more turns. -/
def untilOk (x : Rcp Unit) : Nat → Rcp Unit
  | 0 => x
  | n + 1 => fun s =>
    match x s with
    | .ok _ t => .ok () t
    | .error _ t => untilOk x n t

/-- `tries` bounds the turns of the loop; a call that is not done then goes on. -/
def RCP_SetVlanEnableSave (tries : Nat) (enable : BitVec 16) : Rcp Unit := do
  let s ← get
  if enable = 1 then
    let mgtPort := RCPPort2LPort s.dev s.dev.upLinkPort
    untilOk (RCP_SetVlanMgtPortIsolate mgtPort .RCP_CONFIG_2_EEPROM) tries
    forM (List.range 0x8f) fun i => RCP_SetEepromValue (0xea + i) 0
  else
    RCP_SetEepromValue 0xba 0xff
    RCP_SetEepromValue 0xbe 0x1
    forM (List.range 0x30) fun i => RCP_SetEepromValue (0xc0 + i) 0

/-! ## The ports of an entry -/

/-- The ports that are in the list, one after the other. -/
def forPorts (dev : RCP_DEV) (portList : BitVec 32) (port_len : Nat) (f : Nat → Rcp Unit) : Rcp Unit :=
  forM (List.range port_len) fun phyPort =>
    if (portList >>> phyPort) &&& 0x1 = 1 then f (RCPPort2LPort dev phyPort) else pure ()

def RCP_SetVlanUntagPortList (vlanum : Nat) (portList : BitVec 32) (port_len : Nat) (flag : RCP_FLAG) :
    Rcp Unit := do
  let s ← get
  let mgtPort := RCPPort2LPort s.dev s.dev.upLinkPort
  let usVid ← RCP_GetVlanVID vlanum
  forPorts s.dev portList port_len fun lPort => do
    forM (List.range MAX_RCP_VLAN_NUM) fun usVlan => do
      let usExist ← RCP_GetVlanPortExist 1 lPort usVlan
      when (usExist ∧ usVlan ≠ vlanum) (RCP_SetVlanPortDelete 1 lPort usVlan flag)
    RCP_SetVlanPortAdd 1 lPort vlanum flag
    when (lPort ≠ mgtPort) (RCP_SetVlanPVID 1 lPort usVid flag)
    RCP_SetVlanInsertPVID 1 lPort 0 flag
    RCP_SetVlanOutPortTag 1 lPort 0 flag

def RCP_SetVlanTaggedPortList (vlanum : Nat) (portList : BitVec 32) (port_len : Nat) (flag : RCP_FLAG) :
    Rcp Unit := do
  let s ← get
  forPorts s.dev portList port_len fun lPort => do
    RCP_SetVlanInsertPVID 1 lPort 1 flag
    RCP_SetVlanPortAdd 1 lPort vlanum flag
    RCP_SetVlanOutPortTag 1 lPort 3 flag

/-- The number of entries that have the port. -/
def countTags (ulPort : Nat) : Rcp Nat :=
  (List.range MAX_RCP_VLAN_NUM).foldlM (fun tagnum num => do
    let existed ← RCP_GetVlanPortExist 1 ulPort num
    return if existed then tagnum + 1 else tagnum) 0

/-- The port goes back to the first entry. -/
def backToFirst (ulPort : Nat) (flag : RCP_FLAG) : Rcp Unit := do
  RCP_SetVlanPVID 1 ulPort 1 flag
  RCP_SetVlanInsertPVID 1 ulPort 0 flag
  RCP_SetVlanOutPortTag 1 ulPort 0 flag
  RCP_SetVlanPortAdd 1 ulPort 0 flag

/-- Port 1 keeps its VID. -/
def firstPortBack (tagnum ulPort : Nat) (flag : RCP_FLAG) : Rcp Unit := do
  when (tagnum = 2) do
    let existed ← RCP_GetVlanPortExist 1 ulPort 0
    when existed do
      RCP_SetVlanInsertPVID 1 ulPort 0 flag
      RCP_SetVlanOutPortTag 1 ulPort 0 flag
  when (tagnum = 1) do
    let existed ← RCP_GetVlanPortExist 1 ulPort 0
    when (¬ existed) do
      RCP_SetVlanInsertPVID 1 ulPort 0 flag
      RCP_SetVlanOutPortTag 1 ulPort 0 flag
      RCP_SetVlanPortAdd 1 ulPort 0 flag

/-- The part of the loop for a port whose frames go out untagged. -/
def deleteUntagged (flag : RCP_FLAG) (ulPort : Nat) : Rcp Unit := do
  RCP_SetVlanPVID 1 ulPort 1 flag
  RCP_SetVlanOutPortTag 1 ulPort 0 flag
  RCP_SetVlanPortAdd 1 ulPort 0 flag

/-- The part of the loop for all other ports. -/
def deleteTagged (vid : BitVec 16) (flag : RCP_FLAG) (ulPort : Nat) : Rcp Unit := do
  let tagnum ← countTags ulPort
  let pvid ← RCP_GetVlanPVID 1 ulPort
  when ((pvid = 1 ∧ tagnum = 2) ∨ tagnum = 1) do
    if ulPort ≠ 1 then backToFirst ulPort flag else firstPortBack tagnum ulPort flag
  when (pvid = vid) (RCP_SetVlanPVID 1 ulPort 1 flag)

def deletePort (vlanum : Nat) (vid : BitVec 16) (flag : RCP_FLAG) (ulPort : Nat) : Rcp Unit := do
  let output ← RCP_GetVlanOutPortTag 1 ulPort
  when (output = 0) (deleteUntagged flag ulPort)
  when (output ≠ 0) (deleteTagged vid flag ulPort)
  RCP_SetVlanPortDelete 1 ulPort vlanum flag

def RCP_SetVlanPortListDelete (vlanum : Nat) (portList : BitVec 32) (port_len : Nat) (flag : RCP_FLAG) :
    Rcp Unit := do
  let s ← get
  let vid ← RCP_GetVlanVID vlanum
  forPorts s.dev portList port_len (deletePort vlanum vid flag)

def RCP_SetVlanDelete (vlanum : Nat) (flag : RCP_FLAG) : Rcp Unit := do
  let s ← get
  let portlist ← RCP_GetVlanPort vlanum
  RCP_SetVlanPortListDelete vlanum portlist s.dev.numOfPorts flag
  RCP_SetVlanVID vlanum 0 flag

end gwdonu.vlans
