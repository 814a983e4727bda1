-- The VLAN commands of the CLI: a VLAN is added or deleted, and ports are put into it or
-- taken out of it.
import Gwdonu.Vlans

namespace gwdonu.vlan_cli

open calls rcp_registers register_fields vlans
open rcp (RCP_RET)

/-! ## Arguments -/

def isspace (c : Char) : Bool := c = ' ' ∨ 9 ≤ c.toNat ∧ c.toNat ≤ 13

/-- The digits that the string starts with. -/
def number (s : List Char) : Int := ((s.takeWhile Char.isDigit).foldl (fun n c => 10 * n + (c.toNat - 48)) 0 : Nat)

/-- What does not fit an `int` becomes the next one that does. -/
def atoi (nptr : List Char) : Int :=
  let value :=
    match nptr.dropWhile isspace with
    | '-' :: rest => - number rest
    | '+' :: rest => number rest
    | rest => number rest
  max (-2 ^ 31) (min value (2 ^ 31 - 1))

def unsignedShort (n : Int) : BitVec 16 := BitVec.ofInt 16 n

/-! ## The table -/

def RCP_GetVlan8021Q : Rcp (BitVec 16) := RCP_GetRegField 0x030B 4 1

def RCP_GetVlanPortIsolate : Rcp (BitVec 8) := do
  let s ← get
  return s.dev.vlanPortIsolate

def exist (dev : RCP_DEV) (vid : BitVec 16) : Bool := (List.range MAX_RCP_VLAN_NUM).any fun i => dev.vlanVid i == vid

def RCP_GetVlanExist (vid : BitVec 16) : Rcp Bool := do
  let s ← get
  return exist s.dev vid

/-- The first entry behind entry 0 without a VID; entry 0 when there is none. -/
def idleNum (dev : RCP_DEV) : Nat :=
  ((List.range' 1 (MAX_RCP_VLAN_NUM - 1)).find? fun num => dev.vlanVid num == 0).getD 0

def RCP_GetVlanIdleNum : Rcp Nat := do
  let s ← get
  return idleNum s.dev

def Rcp_Get_MGT_Port : Rcp Nat := do
  let s ← get
  if s.dev.upLinkPort > s.dev.numOfPorts then throw .RCP_BAD_VALUE
  else return RCPPort2LPort s.dev s.dev.upLinkPort

/-! ## Commands -/

/-- How a command ends: what it prints, or `done` when that is nothing. -/
inductive Reply where
  | done
  | tooShort
  | disabled
  | isolated
  | full
  | existed (vid : BitVec 16)
  | missing (vid : BitVec 16)
  | portError (ulPort : Nat)
  | notIn (ulPort : Nat) (vid : BitVec 16)
  | failed (ret : RCP_RET)
  deriving DecidableEq

/-- A call that fails ends the command. -/
def command (x : Rcp Reply) : Rcp Reply := fun s =>
  match x s with
  | .ok reply t => .ok reply t
  | .error ret t => .ok (.failed ret) t

/-- The tests at the start of the commands. -/
def dotlq (x : Rcp Reply) : Rcp Reply := do
  let en ← RCP_GetVlanPortIsolate
  let vlanen ← RCP_GetVlan8021Q
  if vlanen = 0 then return .disabled
  else if en = 1 then return .isolated
  else x

def cli_int_vlan_dotlq_add (argv : List (List Char)) : Rcp Reply := command <| dotlq <|
  match argv with
  | [] => return .tooShort
  | arg :: _ => do
    let vid := unsignedShort (atoi arg)
    let idlenum ← RCP_GetVlanIdleNum
    if idlenum ≥ MAX_RCP_VLAN_NUM then return .full
    else
      let isExist ← RCP_GetVlanExist vid
      if isExist then return .existed vid
      else
        RCP_SetVlanVID idlenum vid .RCP_CONFIG_2_REGISTER
        return .done

/-- The part of the loop of `cli_int_vlan_dotlq_del` for a port of the VLAN. The part for a port
whose frames go out tagged is, statement for statement, that of `RCP_SetVlanPortListDelete`. -/
def leavePort (vid : BitVec 16) (port : Nat) : Rcp Unit := do
  let output ← RCP_GetVlanOutPortTag 1 port
  if output = 0 then
    RCP_SetVlanPVID 1 port 1 .RCP_CONFIG_2_REGISTER
    RCP_SetVlanPortAdd 1 port 0 .RCP_CONFIG_2_REGISTER
  else deleteTagged vid .RCP_CONFIG_2_REGISTER port

def cli_int_vlan_dotlq_del (argv : List (List Char)) : Rcp Reply := command <| dotlq <|
  match argv with
  | [] => return .tooShort
  | arg :: _ => do
    let vid := unsignedShort (atoi arg)
    let vlanExist ← RCP_GetVlanExist vid
    if vlanExist = false then return .missing vid
    else
      let vlanum ← RCP_GetVlanNumFromVID vid
      let s ← get
      forM (ports s.dev.numOfPorts) fun port => do
        let portExist ← RCP_GetVlanPortExist 1 port vlanum
        when portExist (leavePort vid port)
      RCP_SetVlanPort vlanum 0 .RCP_CONFIG_2_REGISTER
      RCP_SetVlanVID vlanum 0 .RCP_CONFIG_2_REGISTER
      return .done

/-- The loop over a list of ports, up to the first one that has something to print. -/
def eachPort (f : Nat → Rcp Reply) : List Nat → Rcp Reply
  | [] => return .done
  | ulPort :: rest => do
    let s ← get
    if ulPort > s.dev.numOfPorts then return .portError ulPort
    else
      let reply ← f ulPort
      if reply = .done then eachPort f rest else return reply

def addUntagged (vid : BitVec 16) (mgtPort ulPort : Nat) : Rcp Reply := do
  let vlanum ← RCP_GetVlanNumFromVID vid
  when (ulPort ≠ mgtPort) do
    RCP_SetVlanInsertPVID 1 ulPort 0 .RCP_CONFIG_2_REGISTER
    RCP_SetVlanPVID 1 ulPort vid .RCP_CONFIG_2_REGISTER
  RCP_SetVlanPortAdd 1 ulPort vlanum .RCP_CONFIG_2_REGISTER
  forM (List.range MAX_RCP_VLAN_NUM) fun i => do
    let exist ← RCP_GetVlanPortExist 1 ulPort i
    when (exist ∧ i ≠ vlanum) (RCP_SetVlanPortDelete 1 ulPort i .RCP_CONFIG_2_REGISTER)
  RCP_SetVlanOutPortTag 1 ulPort 0 .RCP_CONFIG_2_REGISTER
  return .done

def addTagged (vid : BitVec 16) (ulPort : Nat) : Rcp Reply := do
  let vlanum ← RCP_GetVlanNumFromVID vid
  RCP_SetVlanInsertPVID 1 ulPort 1 .RCP_CONFIG_2_REGISTER
  RCP_SetVlanPortAdd 1 ulPort vlanum .RCP_CONFIG_2_REGISTER
  RCP_SetVlanOutPortTag 1 ulPort 3 .RCP_CONFIG_2_REGISTER
  return .done

/-- `portList` is what `ETH_ParsePortList` makes of the second argument. -/
def cli_int_vlan_dotlq_port_add (argv : List (List Char)) (portList : List Nat) : Rcp Reply := command do
  let mgtPort ← Rcp_Get_MGT_Port
  dotlq <|
    match argv with
    | arg :: _ :: mode :: _ => do
      let vid := unsignedShort (atoi arg)
      let tag := unsignedShort (atoi mode)
      let isExist ← RCP_GetVlanExist vid
      if isExist = false then return .missing vid
      else if tag = 2 then eachPort (addUntagged vid mgtPort) portList
      else eachPort (addTagged vid) portList
    | _ => return .tooShort

/-- The part behind the first test is, statement for statement, that of
`RCP_SetVlanPortListDelete`. -/
def takePort (vid : BitVec 16) (vlanum ulPort : Nat) : Rcp Reply := do
  let portExist ← RCP_GetVlanPortExist 1 ulPort vlanum
  if portExist = false then return .notIn ulPort vid
  else
    deletePort vlanum vid .RCP_CONFIG_2_REGISTER ulPort
    return .done

def cli_int_vlan_dotlq_port_del (argv : List (List Char)) (portList : List Nat) : Rcp Reply := command <| dotlq <|
  match argv with
  | arg :: _ :: _ => do
    let vid := unsignedShort (atoi arg)
    let vlanExist ← RCP_GetVlanExist vid
    if vlanExist = false then return .missing vid
    else
      let vlanum ← RCP_GetVlanNumFromVID vid
      eachPort (takePort vid vlanum) portList
  | _ => return .tooShort

end gwdonu.vlan_cli
