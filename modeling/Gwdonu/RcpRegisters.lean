-- The registers and the EEPROM of a switch behind the RCP channel: an access to one field,
-- in the register, in the EEPROM or in both.
import Gwdonu.Lib.Calls
import Gwdonu.Lib.Fields
import Gwdonu.Rcp

namespace gwdonu.rcp_registers

open Function calls
open rcp (RCP_RET)

/-! ## The devices -/

inductive RCP_DEVICE_ID where
  | GH1508
  | GH1516
  | GH1524
  | GH1532
  deriving DecidableEq

def RCP_DEVICE_ID.toNat : RCP_DEVICE_ID → Nat
  | .GH1508 => 0
  | .GH1516 => 1
  | .GH1524 => 2
  | .GH1532 => 3

def RCP_DEVICE_ID.numOfPorts : RCP_DEVICE_ID → Nat
  | .GH1508 => 8
  | .GH1516 => 16
  | .GH1524 => 24
  | .GH1532 => 32

structure RCP_DEV where
  deviceId : RCP_DEVICE_ID
  upLinkPort : Nat
  parentPort : Nat
  vlanPort : Nat → BitVec 32
  vlanVid : Nat → BitVec 16
  vlanPortIsolate : BitVec 8

def RCP_DEV.numOfPorts (dev : RCP_DEV) : Nat := dev.deviceId.numOfPorts

inductive RCP_FLAG where
  | RCP_CONFIG_2_REGISTER
  | RCP_CONFIG_2_EEPROM
  | RCP_CONFIG_2_BOTH
  deriving DecidableEq

/-- `0x01 == (flag & RCP_CONFIG_REGISTER)` -/
def RCP_FLAG.toRegister : RCP_FLAG → Bool
  | .RCP_CONFIG_2_EEPROM => false
  | _ => true

/-- `0x02 == (flag & RCP_CONFIG_EEPROM)` -/
def RCP_FLAG.toEeprom : RCP_FLAG → Bool
  | .RCP_CONFIG_2_REGISTER => false
  | _ => true

/-! ## Registers -/

/-- The device and its switch. The last four fields are not the program's: the writes that
were tried, which of them fail (by their number and address), what the memory behind a
table holds, and the words of the flash image that were read, with whether for a register. -/
structure State where
  dev : RCP_DEV
  reg : Nat → BitVec 16
  eeprom : Nat → BitVec 8
  writes : List (Nat × BitVec 16)
  writeFails : Nat → Nat → Bool
  behind : Nat
  words : List (Nat × Bool)

/-- A call gives its outputs, or returns something else than `RCP_OK`. -/
abbrev Rcp := EStateM RCP_RET State

def State.put (s : State) (regAddr : Nat) (data : BitVec 16) : State :=
  { s with reg := update s.reg regAddr data, writes := s.writes ++ [(regAddr, data)] }

def State.miss (s : State) (regAddr : Nat) (data : BitVec 16) : State :=
  { s with writes := s.writes ++ [(regAddr, data)] }

def RCP_Read_Reg (regAddr : Nat) : Rcp (BitVec 16) := do
  let s ← get
  return s.reg regAddr

/-- `RCP_TIMEOUT` stands for every way to fail. -/
def RCP_Write_Reg (regAddr : Nat) (data : BitVec 16) : Rcp Unit := do
  let s ← get
  if s.writeFails s.writes.length regAddr then
    set (s.miss regAddr data)
    throw .RCP_TIMEOUT
  else set (s.put regAddr data)

/-- The `int` of the macro, as far as the `mask` goes that takes it. -/
def CALC_MASK (w fieldOffset fieldLen : Nat) : BitVec w :=
  (if fieldLen + fieldOffset ≥ 16 then 0 - 1#32 <<< fieldOffset
    else 1#32 <<< (fieldLen + fieldOffset) - 1#32 <<< fieldOffset).setWidth w

def RCP_GetRegField (regAddr fieldOffset fieldLength : Nat) : Rcp (BitVec 16) := do
  let tmpData ← RCP_Read_Reg regAddr
  return (tmpData &&& CALC_MASK 16 fieldOffset fieldLength) >>> fieldOffset

def RCP_SetRegisterField (regAddr fieldOffset fieldLength : Nat) (data : BitVec 16) : Rcp Unit := do
  let tmpData ← RCP_Read_Reg regAddr
  let mask := CALC_MASK 16 fieldOffset fieldLength
  RCP_Write_Reg regAddr ((tmpData &&& ~~~mask) ||| ((data <<< fieldOffset) &&& mask))

/-! ## The EEPROM -/

def RT8326_EEPROM_RW_CTL : Nat := 0x0217
def RT8326_EEPROM_RW_DATA : Nat := 0x0218
def REALTEK_EEPROM_READ : BitVec 16 := 0x0800
def REALTEK_EEPROM_WRITE : BitVec 16 := 0x0000

/-- The chip is done at once and well, so the loop that waits for it is left out. -/
def RCP_GetEepromValue (eeAddr : Nat) : Rcp (BitVec 8) := do
  RCP_SetRegisterField RT8326_EEPROM_RW_CTL 0 12 (BitVec.ofNat 16 eeAddr ||| REALTEK_EEPROM_READ)
  let s ← get
  return s.eeprom eeAddr

def State.store (s : State) (eeAddr : Nat) (value : BitVec 8) : State :=
  { s with eeprom := update s.eeprom eeAddr value }

def RCP_SetEepromValue (eeAddr : Nat) (value : BitVec 8) : Rcp Unit := do
  RCP_SetRegisterField RT8326_EEPROM_RW_DATA 0 8 (value.setWidth 16)
  RCP_SetRegisterField RT8326_EEPROM_RW_CTL 0 12 (BitVec.ofNat 16 eeAddr ||| REALTEK_EEPROM_WRITE)
  modify fun s => s.store eeAddr value

def RCP_GetEepromField (eeAddr fieldOffset fieldLen : Nat) : Rcp (BitVec 8) := do
  let tmpData ← RCP_GetEepromValue eeAddr
  return (tmpData &&& CALC_MASK 8 fieldOffset fieldLen) >>> fieldOffset

def RCP_SetEepromField (eeAddr fieldOffset fieldLen : Nat) (value : BitVec 8) : Rcp Unit := do
  let tmpData ← RCP_GetEepromValue eeAddr
  let mask := CALC_MASK 8 fieldOffset fieldLen
  RCP_SetEepromValue eeAddr ((tmpData &&& ~~~mask) ||| ((value <<< fieldOffset) &&& mask))

/-! ## The mirror of the registers in the EEPROM -/

def eeMgt : List Nat :=
  [0xc, 0xd, 0xe, 0xf, 0x10, 0x11, 0x12, 0x13, 0x14, 0x15, 0x16, 0x17, 0x18, 0x19, 0x1a, 0x1b, 0x1c, 0x1d]

def eeQos : List Nat := [0x2e, 0x2f, 0x30, 0x31, 0x32, 0x33]

def eePort : List Nat :=
  [0x3a, 0x3b, 0x3c, 0x3d, 0x3e, 0x3f, 0x40, 0x41, 0x42, 0x43, 0x44, 0x45, 0x46, 0x47, 0x48]

def eeMirror : List Nat := [0x72, 0x73, 0x74, 0x75, 0x76, 0x77, 0x78, 0x79, 0x7a, 0x7b]

def eeBW : List Nat :=
  [0x80, 0x81, 0x82, 0x83, 0x84, 0x85, 0x86, 0x87, 0x88, 0x89, 0x8a, 0x8b, 0x8c, 0x8d, 0x8e, 0x8f]

/-- From its entry 11 on, the table counts. -/
def eeVlan : List Nat :=
  [0x98, 0x99, 0x9a, 0x9b, 0x9c, 0x9d, 0x9e, 0x9f, 0xa0, 0xa1, 0x12] ++ List.range' 0xa3 (0x180 - 0xa3)

/-- The table that holds the two addresses of a register, and their place in it. -/
def eeTable (regAddr : Nat) : Option (List Nat × Nat) :=
  if 0x0200 ≤ regAddr ∧ regAddr ≤ 0x0208 then some (eeMgt, regAddr - 0x0200)
  else if 0x020A ≤ regAddr ∧ regAddr ≤ 0x0211 then some (eeBW, regAddr - 0x020A)
  else if 0x0219 ≤ regAddr ∧ regAddr ≤ 0x021D then some (eeMirror, regAddr - 0x0219)
  else if 0x030C ≤ regAddr ∧ regAddr ≤ 0x037D then some (eeVlan, regAddr - 0x030C)
  else if 0x0400 ≤ regAddr ∧ regAddr ≤ 0x0402 then some (eeQos, regAddr - 0x0400)
  else if 0x060A ≤ regAddr ∧ regAddr ≤ 0x0611 then some (eePort, regAddr - 0x060A)
  else none

/-- The entry for the byte of the register that the field is in. -/
def eeIndex (i fieldOffset : Nat) : Nat := if fieldOffset < 8 then 2 * i else 2 * i + 1

structure EeField where
  eeAddr : Nat
  eeOffset : Nat
  eeLength : Nat
  deriving DecidableEq

/-- `behind` is what a read behind the end of a table finds; `none` is `RCP_BAD_PARAM`. -/
def RCP_GetEeaddrFromReg (behind regAddr fieldOffset fieldLength : Nat) : Option EeField :=
  match eeTable regAddr with
  | some (table, i) =>
    some ⟨table.getD (eeIndex i fieldOffset) behind,
      if fieldOffset < 8 then fieldOffset % 256 else (fieldOffset % 256 + 248) % 256, fieldLength % 256⟩
  | none =>
    match regAddr with
    | 0x0300 => some ⟨0x22, fieldOffset % 256, fieldLength % 256⟩
    | 0x0308 => some ⟨0x26, fieldOffset % 256, fieldLength % 256⟩
    | 0x030B => some ⟨0x28, fieldOffset % 256, fieldLength % 256⟩
    | 0x0607 => some ⟨0x38, fieldOffset % 256, fieldLength % 256⟩
    | 0x0608 => some ⟨if fieldOffset < 8 then 0x68 else 0x69, fieldOffset % 256, fieldLength % 256⟩
    | _ => none

def eeaddrFromReg (regAddr fieldOffset fieldLength : Nat) : Rcp EeField := do
  let s ← get
  match RCP_GetEeaddrFromReg s.behind regAddr fieldOffset fieldLength with
  | some f => return f
  | none => throw .RCP_BAD_PARAM

def RCP_SetRegField (regAddr fieldOffset fieldLength : Nat) (data : BitVec 16) (flag : RCP_FLAG) :
    Rcp Unit := do
  when flag.toEeprom do
    let f ← eeaddrFromReg regAddr fieldOffset fieldLength
    RCP_SetEepromField f.eeAddr f.eeOffset f.eeLength (data.setWidth 8)
  when flag.toRegister do
    RCP_SetRegisterField regAddr fieldOffset fieldLength data

/-! ## Ports -/

/-- One slot, and ports from 1 on, as in the rows of `gDevLPortInfo`. -/
def RCPLPort2Port (slot lPort : Nat) : Rcp Nat := do
  let s ← get
  if slot > 1 ∨ slot = 0 then throw .RCP_BAD_VALUE
  else if lPort > s.dev.numOfPorts ∨ lPort = 0 then throw .RCP_BAD_VALUE
  else return lPort - 1

/-- The rows of `gDevPPortInfo` end in a zero. -/
def RCPPort2LPort (dev : RCP_DEV) (phyPort : Nat) : Nat :=
  if phyPort < dev.numOfPorts then phyPort + 1 else 0

/-! ## One field -/

/-- The macro gives the bits of the field, as far as a register goes. -/
theorem CALC_MASK_eq {w : Nat} (hw : w ≤ 16) (off len : Nat) : CALC_MASK w off len = fields.mask w off len := by
  apply BitVec.eq_of_getLsbD_eq
  intro i hi
  rw [CALC_MASK, BitVec.getLsbD_setWidth, fields.getLsbD_mask]
  split_ifs with hlong
  · have hzero : (0 : BitVec 32) - 1#32 <<< off = BitVec.allOnes 32 <<< off := by
      rw [fields.allOnes_shiftLeft]
      exact BitVec.zero_sub _
    rw [hzero, BitVec.getLsbD_shiftLeft, BitVec.getLsbD_allOnes]
    have hlt : i < off + len ↔ True := iff_true_intro (by omega)
    have h32 : i < 32 := by omega
    by_cases hlo : off ≤ i
    · have hlt' : i - off < 32 := by omega
      simp [hi, h32, hlo, hlt, hlt']
    · simp [hi, hlo, Nat.not_le.mp hlo]
  · have h32 : i < 32 := by omega
    rw [← fields.mask_eq_sub, fields.getLsbD_mask]
    simp [hi, h32]

/-- No write to the register fails. -/
def State.Sure (s : State) (regAddr : Nat) : Prop := ∀ n, s.writeFails n regAddr = false

/-- No write fails. -/
def State.Faithful (s : State) : Prop := ∀ regAddr, s.Sure regAddr

/-- A switch with the same content in all registers. -/
def uniform (d : RCP_DEVICE_ID) (r : BitVec 16) : State where
  dev := ⟨d, 0, 1, fun _ => 0, fun _ => 0, 0⟩
  reg _ := r
  eeprom _ := 0
  writes := []
  writeFails _ _ := false
  behind := 0
  words := []

section
variable {s : State} {a off len : Nat} {d : BitVec 16} {E : RCP_RET → State → Prop}

@[simp] theorem put_reg : (s.put a d).reg = update s.reg a d := rfl

@[simp] theorem put_dev : (s.put a d).dev = s.dev := rfl

@[simp] theorem put_eeprom : (s.put a d).eeprom = s.eeprom := rfl

@[simp] theorem put_writeFails : (s.put a d).writeFails = s.writeFails := rfl

@[simp] theorem put_writes : (s.put a d).writes = s.writes ++ [(a, d)] := rfl

@[simp] theorem put_words : (s.put a d).words = s.words := rfl

@[simp] theorem put_behind : (s.put a d).behind = s.behind := rfl

@[simp] theorem put_sure {b : Nat} : (s.put a d).Sure b ↔ s.Sure b := Iff.rfl

@[simp] theorem put_faithful : (s.put a d).Faithful ↔ s.Faithful := Iff.rfl

@[simp] theorem meets_read {Q : BitVec 16 → State → Prop} : Meets (RCP_Read_Reg a) s Q E ↔ Q (s.reg a) s := Iff.rfl

@[simp] theorem meets_getRegField {Q : BitVec 16 → State → Prop} :
    Meets (RCP_GetRegField a off len) s Q E ↔ Q (fields.get (s.reg a) off len) s := by
  rw [fields.get, ← CALC_MASK_eq le_rfl]
  exact Iff.rfl

theorem meets_write {Q : Unit → State → Prop} : Meets (RCP_Write_Reg a d) s Q E ↔
    if s.writeFails s.writes.length a then E .RCP_TIMEOUT (s.miss a d) else Q () (s.put a d) := by
  rw [RCP_Write_Reg, meets_bind, meets_get]
  split_ifs <;> rfl

theorem meets_setRegisterField {Q : Unit → State → Prop} : Meets (RCP_SetRegisterField a off len d) s Q E ↔
    Meets (RCP_Write_Reg a (fields.put (s.reg a) d off len)) s Q E := by
  rw [fields.put, ← CALC_MASK_eq le_rfl]
  exact Iff.rfl

theorem meets_setRegField {Q : Unit → State → Prop} :
    Meets (RCP_SetRegField a off len d .RCP_CONFIG_2_REGISTER) s Q E ↔
      Meets (RCP_SetRegisterField a off len d) s Q E := Iff.rfl

theorem meets_lPort2Port {p : Nat} {Q : Nat → State → Prop} (hp : 1 ≤ p ∧ p ≤ s.dev.numOfPorts) :
    Meets (RCPLPort2Port 1 p) s Q E ↔ Q (p - 1) s := by
  rw [RCPLPort2Port, meets_bind, meets_get, if_neg (by decide), if_neg (by omega), meets_pure]

theorem meets_eeaddrFromReg {Q : EeField → State → Prop} {f : EeField}
    (h : RCP_GetEeaddrFromReg s.behind a off len = some f) : Meets (eeaddrFromReg a off len) s Q E ↔ Q f s := by
  rw [eeaddrFromReg, meets_bind, meets_get, h, meets_pure]

theorem State.Sure.write {Q : Unit → State → Prop} (h : s.Sure a) :
    Meets (RCP_Write_Reg a d) s Q E ↔ Q () (s.put a d) := by
  rw [meets_write, h, if_neg Bool.false_ne_true]

end

/-! ## One byte of the EEPROM -/

/-- The EEPROM is `mem` now, and of the rest, only the registers of the EEPROM changed. -/
structure Stored (s : State) (mem : Nat → BitVec 8) (t : State) : Prop where
  eeprom : t.eeprom = mem
  dev : t.dev = s.dev
  writeFails : t.writeFails = s.writeFails
  behind : t.behind = s.behind
  reg : ∀ a, a ≠ RT8326_EEPROM_RW_CTL → a ≠ RT8326_EEPROM_RW_DATA → t.reg a = s.reg a

section
variable {s t u : State} {mem mem' : Nat → BitVec 8} {eeAddr off len : Nat} {value : BitVec 8}

theorem Stored.trans (h : Stored s mem t) (h' : Stored t mem' u) : Stored s mem' u :=
  ⟨h'.eeprom, h'.dev.trans h.dev, h'.writeFails.trans h.writeFails, h'.behind.trans h.behind,
    fun a hctl hdata => (h'.reg a hctl hdata).trans (h.reg a hctl hdata)⟩

theorem Stored.sure (h : Stored s mem t) {a : Nat} (hs : s.Sure a) : t.Sure a := fun n => by
  rw [h.writeFails]
  exact hs n

theorem stored_ctl (d : BitVec 16) : Stored s s.eeprom (s.put RT8326_EEPROM_RW_CTL d) :=
  ⟨rfl, rfl, rfl, rfl, fun _ hctl _ => update_of_ne hctl _ _⟩

theorem stored_data (d : BitVec 16) : Stored s s.eeprom (s.put RT8326_EEPROM_RW_DATA d) :=
  ⟨rfl, rfl, rfl, rfl, fun _ _ hdata => update_of_ne hdata _ _⟩

theorem Stored.store (h : Stored s mem t) : Stored s (update mem eeAddr value) (t.store eeAddr value) :=
  ⟨by rw [← h.eeprom]; rfl, h.dev, h.writeFails, h.behind, h.reg⟩

section
variable (hctl : s.Sure RT8326_EEPROM_RW_CTL) (hdata : s.Sure RT8326_EEPROM_RW_DATA)
include hctl

theorem gives_getEepromValue :
    Gives (RCP_GetEepromValue eeAddr) s fun v t => v = s.eeprom eeAddr ∧ Stored s s.eeprom t := by
  rw [RCP_GetEepromValue, Gives, meets_bind, meets_setRegisterField, hctl.write]
  exact ⟨rfl, stored_ctl _⟩

theorem gives_getEepromField : Gives (RCP_GetEepromField eeAddr off len) s fun v t =>
    v = fields.get (s.eeprom eeAddr) off len ∧ Stored s s.eeprom t := by
  rw [RCP_GetEepromField, Gives, meets_bind]
  refine (gives_getEepromValue hctl).imp ?_ fun _ _ h => h
  rintro v t ⟨rfl, ht⟩
  rw [CALC_MASK_eq (by decide)]
  exact ⟨rfl, ht⟩

include hdata

theorem gives_setEepromValue :
    Gives (RCP_SetEepromValue eeAddr value) s fun _ t => Stored s (update s.eeprom eeAddr value) t := by
  rw [RCP_SetEepromValue, Gives, meets_bind, meets_setRegisterField, hdata.write, meets_bind,
    meets_setRegisterField, (put_sure.mpr hctl).write, meets_modify]
  exact ((stored_data _).trans (stored_ctl _)).store

theorem gives_setEepromField : Gives (RCP_SetEepromField eeAddr off len value) s fun _ t =>
    Stored s (update s.eeprom eeAddr (fields.put (s.eeprom eeAddr) value off len)) t := by
  rw [RCP_SetEepromField, Gives, meets_bind]
  refine (gives_getEepromValue hctl).imp ?_ fun _ _ h => h
  rintro v t ⟨rfl, ht⟩
  rw [CALC_MASK_eq (by decide)]
  refine (gives_setEepromValue (ht.sure hctl) (ht.sure hdata)).imp ?_ fun _ _ h => h
  intro _ u hu
  rw [ht.eeprom] at hu
  exact ht.trans hu

end

end

end gwdonu.rcp_registers
