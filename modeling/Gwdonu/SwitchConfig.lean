-- The configuration of the switches in flash: 26 records of 160 words. The first holds the
-- addresses of the registers, and that of a port the values for the switch there.
import Gwdonu.RcpRegisters
import Mathlib.Data.List.GetD

namespace gwdonu.switch_config

open Function calls rcp_registers
open rcp (RCP_RET MAX_RRCP_SWITCH_TO_MANAGE)

/-! ## The image -/

/-- The words of `gpusSwitchCfgFileBuf`. -/
abbrev Image := Nat → BitVec 16

def gusSwitchCfgRegAddrArray : List Nat :=
  [0x0200, 0x0300, 0x0307, 0x0308, 0x030B, 0x0400, 0x0401, 0x0402, 0x0607, 0x060A, 0x060B, 0x060C, 0x060D,
    0x060E, 0x060F, 0x0610, 0x0611, 0x0612, 0x0613, 0x0614, 0x0615, 0x0608, 0x0609, 0x0219, 0x021A, 0x021B,
    0x021C, 0x021D, 0x021E, 0x020A, 0x020B, 0x020C, 0x020D, 0x020E, 0x020F, 0x0210, 0x0211, 0x0212, 0x0213,
    0x0214, 0x0215, 0x0301, 0x0302, 0x030C, 0x030D, 0x030E, 0x030F, 0x0310, 0x0311, 0x0312, 0x0313, 0x0314,
    0x0315, 0x0316, 0x0317, 0x0319, 0x031A, 0x031B] ++ List.range' 0x031D (0x037F - 0x031D)

def gusSwitchCfgArraySizeMax : Nat := 159
def gusSwitchCfgArraySizeMaxInFlash : Nat := 160
def gusSwitchDataValidFlag : BitVec 16 := 0x5A5A

/-- `RCP_Init` cuts the list off where the reserved words are. -/
def gusSwitchCfgArraySize : Nat :=
  if gusSwitchCfgRegAddrArray.length > gusSwitchCfgArraySizeMax then gusSwitchCfgArraySizeMax
  else gusSwitchCfgRegAddrArray.length

/-- In bytes. -/
def glSwitchCfgFileSizeMaxInFlash : Nat := 2 * gusSwitchCfgArraySizeMaxInFlash * MAX_RRCP_SWITCH_TO_MANAGE

/-- Where the record of a port starts. -/
def record (port : Nat) : Nat := gusSwitchCfgArraySizeMaxInFlash * port

def memset (buf : Image) (start n : Nat) : Image := fun k => if start ≤ k ∧ k < start + n then 0 else buf k

def memcpy (buf : Image) (start : Nat) (l : List Nat) : Image := fun k =>
  if start ≤ k ∧ k < start + l.length then BitVec.ofNat 16 (l.getD (k - start) 0) else buf k

/-! ## The flash -/

def FLASH_GWD_RCG_SWITCH_CFG_MAX_SIZE : Int := 11 * 1024

/-- The bytes of two words in memory. -/
def wordOf (bigEndian : Bool) (first second : BitVec 8) : BitVec 16 :=
  if bigEndian then first ++ second else second ++ first

def byteOf (bigEndian : Bool) (buf : Image) (i : Nat) : BitVec 8 :=
  if (i % 2 == 0) = bigEndian then (buf (i / 2) >>> 8).setWidth 8 else (buf (i / 2)).setWidth 8

/-- The image in memory, which `RCP_Init` allocated, and the bytes of its place in flash. -/
structure Config where
  buf : Image
  flash : Nat → BitVec 8

/-- `mal` is whether `malloc` has memory for the copy of the user data. -/
def device_conf_write_switch_conf_to_flash (bigEndian mal : Bool) (c : Config) (length : Int) :
    Config × RCP_RET :=
  if length > FLASH_GWD_RCG_SWITCH_CFG_MAX_SIZE ∨ length < 0 then (c, .RCP_ERROR)
  else if mal = false then (c, .RCP_ERROR)
  else ({ c with flash := fun i => if (i : Int) < length then byteOf bigEndian c.buf i else c.flash i }, .RCP_OK)

/-- The image after `RCP_Init` read it, its first bytes as words. -/
def reread (bigEndian : Bool) (flash : Nat → BitVec 8) : Image := fun k =>
  if 2 * k < glSwitchCfgFileSizeMaxInFlash then wordOf bigEndian (flash (2 * k)) (flash (2 * k + 1)) else 0

/-! ## Saving -/

/-- A read of a register, and what it leaves in the word for its value. -/
structure ReadOut where
  ok : Bool
  stored : BitVec 16

/-- A switch that exists when its configuration is saved: what the reads of its registers
give, by their number and address. -/
structure Registered where
  dev : RCP_DEV
  reads : Nat → Nat → ReadOut

def prepareAddressMap (buf : Image) : Image :=
  let buf := memset buf 0 gusSwitchCfgArraySizeMaxInFlash
  let buf := memcpy buf 0 (gusSwitchCfgRegAddrArray.take gusSwitchCfgArraySize)
  let buf := update buf (gusSwitchCfgArraySizeMax - 1) (BitVec.ofNat 16 gusSwitchCfgArraySize)
  update buf gusSwitchCfgArraySizeMax gusSwitchDataValidFlag

/-- One turn of the loop over the registers. -/
def saveRegister (start : Nat) (reads : Nat → Nat → ReadOut) (buf : Image) (j : Nat) : Image :=
  let r := reads j (buf j).toNat
  let buf := update buf (start + j) r.stored
  if r.ok then buf else update buf (start + gusSwitchCfgArraySizeMax) 0

/-- The two last words of a record, packed. -/
def tailWord (dev : RCP_DEV) : BitVec 16 :=
  (if dev.vlanPortIsolate ≠ 0 then 1 else 0) ||| (BitVec.ofNat 16 dev.deviceId.toNat <<< 8)

def saveRecord (buf : Image) (port : Nat) (r : Registered) : Image :=
  let buf := memset buf (record port) gusSwitchCfgArraySizeMaxInFlash
  let buf := update buf (record port + gusSwitchCfgArraySizeMax) gusSwitchDataValidFlag
  let buf := (List.range gusSwitchCfgArraySize).foldl (saveRegister (record port) r.reads) buf
  update buf (record port + (gusSwitchCfgArraySizeMax - 1)) (tailWord r.dev)

/-- The part of a save that is the same for one switch and for all: `none` stands for a
switch that does not exist. -/
def saveIfExists (buf : Image) (port : Nat) : Option Registered → Image
  | none => buf
  | some r => saveRecord buf port r

/-- `switches` are those that exist, by their port. -/
def saveAllRcpDevCfgToFlash (bigEndian mal : Bool) (c : Config) (switches : Nat → Option Registered) :
    Config × RCP_RET :=
  let buf := (List.range' 1 (MAX_RRCP_SWITCH_TO_MANAGE - 1)).foldl (fun buf i => saveIfExists buf i (switches i))
    (prepareAddressMap c.buf)
  device_conf_write_switch_conf_to_flash bigEndian mal { c with buf } glSwitchCfgFileSizeMaxInFlash

def saveOneRcpDevCfgToFlash (bigEndian mal : Bool) (c : Config) (port : Nat) (switch : Option Registered) :
    Config × RCP_RET :=
  let buf := saveIfExists (prepareAddressMap c.buf) port switch
  device_conf_write_switch_conf_to_flash bigEndian mal { c with buf } glSwitchCfgFileSizeMaxInFlash

/-! ## Restoring -/

/-- `reg` is whether the word is taken for a register. -/
def readWord (buf : Image) (k : Nat) (reg : Bool) : Rcp (BitVec 16) := do
  modify fun s => { s with words := s.words ++ [(k, reg)] }
  return buf k

def RCP_GetVlanPortIsolate_InEeprom : Rcp (BitVec 8) := RCP_GetEepromField 0x28 7 1

def setIsolate (data : BitVec 8) : Rcp Unit :=
  modify fun s => { s with dev := { s.dev with vlanPortIsolate := data } }

def isolateFromEeprom : Rcp Unit := do
  let data ← RCP_GetVlanPortIsolate_InEeprom
  setIsolate data

def restoreRegisters (buf : Image) (start arraySize : Nat) : Rcp Unit :=
  forM (List.range arraySize) fun j => do
    let addr ← readWord buf j true
    let data ← readWord buf (start + j) true
    RCP_Write_Reg addr.toNat data

/-- The flag is set from the record even when a write failed. -/
def restoreRecord (buf : Image) (start arraySize : Nat) : Rcp Unit :=
  lastly (restoreRegisters buf start arraySize) do
    let tail ← readWord buf (start + (gusSwitchCfgArraySizeMax - 1)) false
    setIsolate (if tail &&& 0x0001 ≠ 0 then 1 else 0)

def restoreRcpDevCfgFromFlash (buf : Image) : Rcp Unit := do
  let s ← get
  let start := record s.dev.parentPort
  let mark ← readWord buf gusSwitchCfgArraySizeMax false
  if mark = gusSwitchDataValidFlag then
    let arraySize ← readWord buf (gusSwitchCfgArraySizeMax - 1) false
    let mark ← readWord buf (start + gusSwitchCfgArraySizeMax) false
    if mark = gusSwitchDataValidFlag then
      let tail ← readWord buf (start + (gusSwitchCfgArraySizeMax - 1)) false
      if (tail >>> 8).toNat = s.dev.deviceId.toNat then restoreRecord buf start arraySize.toNat
      else isolateFromEeprom
    else isolateFromEeprom
  else isolateFromEeprom

/-! ## Erasing -/

/-- For all switches, `fileLen` is what the variable holds, which nothing was written to. -/
def ereaseRcpDevCfgInFlash (bigEndian mal : Bool) (c : Config) (port : Nat) (allDev : Bool) (fileLen : Int) :
    Config × RCP_RET :=
  if allDev then
    device_conf_write_switch_conf_to_flash bigEndian mal
      { c with buf := memset c.buf 0 (glSwitchCfgFileSizeMaxInFlash / 2) } fileLen
  else if c.buf (record port + gusSwitchCfgArraySizeMax) = gusSwitchDataValidFlag then
    device_conf_write_switch_conf_to_flash bigEndian mal
      { c with buf := update c.buf (record port + gusSwitchCfgArraySizeMax) 0 } glSwitchCfgFileSizeMaxInFlash
  else (c, .RCP_OK)

/-! ## One register in the image -/

/-- The addresses in the image, or those of the program. -/
def readAddr (buf : Image) (fromImage : Bool) (i : Nat) : Rcp (BitVec 16) :=
  if fromImage then readWord buf i true else pure (BitVec.ofNat 16 (gusSwitchCfgRegAddrArray.getD i 0))

def readLen (buf : Image) (fromImage : Bool) : Rcp (BitVec 16) :=
  if fromImage then readWord buf (gusSwitchCfgArraySizeMax - 1) false
  else pure (BitVec.ofNat 16 gusSwitchCfgArraySize)

/-- The loop of `getRegValueInFlash`. -/
def findRegValue (buf : Image) (start usRegAddr : Nat) (fromImage : Bool) : List Nat → Rcp (BitVec 16)
  | [] => throw .RCP_NOT_FOUND
  | i :: is => do
    let addr ← readAddr buf fromImage i
    if addr.toNat = usRegAddr then readWord buf (start + i) true
    else findRegValue buf start usRegAddr fromImage is

def getRegValueInFlash (buf : Image) (usRegAddr : Nat) : Rcp (BitVec 16) := do
  let s ← get
  let start := record s.dev.parentPort
  let mark ← readWord buf gusSwitchCfgArraySizeMax false
  let fromImage := decide (mark = gusSwitchDataValidFlag)
  let usLen ← readLen buf fromImage
  let mark ← readWord buf (start + gusSwitchCfgArraySizeMax) false
  if mark = gusSwitchDataValidFlag then findRegValue buf start usRegAddr fromImage (List.range usLen.toNat)
  else throw .RCP_NOT_INITIALIZED

/-! ## The address record -/

theorem array_length : gusSwitchCfgRegAddrArray.length = 156 := by decide +kernel

theorem array_size : gusSwitchCfgArraySize = 156 := by decide +kernel

theorem array_lt : ∀ a ∈ gusSwitchCfgRegAddrArray, a < 65536 := by decide +kernel

/-- The address of register `j`. -/
def addressOf (j : Nat) : Nat := gusSwitchCfgRegAddrArray.getD j 0

theorem addressOf_lt (j : Nat) : addressOf j < 65536 := by
  rw [addressOf]
  by_cases hj : j < gusSwitchCfgRegAddrArray.length
  · rw [List.getD_eq_getElem _ _ hj]
    exact array_lt _ (List.getElem_mem hj)
  · rw [List.getD_eq_default _ _ (Nat.not_lt.mp hj)]
    exact Nat.zero_lt_succ _

/-- The first record holds the program's own list. -/
structure AddressMap (buf : Image) : Prop where
  addr : ∀ j < 156, (buf j).toNat = addressOf j
  size : buf 158 = 156
  mark : buf 159 = gusSwitchDataValidFlag

theorem prepareAddressMap_other (buf : Image) {k : Nat} (hk : 160 ≤ k) : prepareAddressMap buf k = buf k := by
  have hlength : (gusSwitchCfgRegAddrArray.take gusSwitchCfgArraySize).length = 156 := by decide +kernel
  rw [prepareAddressMap, update_of_ne (by rw [gusSwitchCfgArraySizeMax]; omega),
    update_of_ne (by rw [gusSwitchCfgArraySizeMax]; omega), memcpy, hlength, if_neg (by omega), memset,
    gusSwitchCfgArraySizeMaxInFlash, if_neg (by omega)]

theorem prepareAddressMap_addr (buf : Image) (j : Nat) (hj : j < 156) :
    (prepareAddressMap buf j).toNat = addressOf j := by
  have hlength : (gusSwitchCfgRegAddrArray.take gusSwitchCfgArraySize).length = 156 := by decide +kernel
  have htake : gusSwitchCfgRegAddrArray.take gusSwitchCfgArraySize = gusSwitchCfgRegAddrArray := by decide +kernel
  rw [prepareAddressMap, update_of_ne (by rw [gusSwitchCfgArraySizeMax]; omega),
    update_of_ne (by rw [gusSwitchCfgArraySizeMax]; omega), memcpy, hlength, if_pos (by omega), htake]
  change (BitVec.ofNat 16 (addressOf (j - 0))).toNat = _
  rw [BitVec.toNat_ofNat, Nat.sub_zero]
  exact Nat.mod_eq_of_lt (addressOf_lt j)

theorem prepareAddressMap_map (buf : Image) : AddressMap (prepareAddressMap buf) := by
  refine ⟨prepareAddressMap_addr buf, ?_, ?_⟩
  · rw [prepareAddressMap, update_of_ne (by decide), array_size]
    exact update_self (gusSwitchCfgArraySizeMax - 1) _ _
  · rw [prepareAddressMap]
    exact update_self gusSwitchCfgArraySizeMax _ _

/-! ## The records of the ports -/

def Registered.read (r : Registered) (j : Nat) : ReadOut := r.reads j (addressOf j)

/-- No read of its registers failed. -/
def Registered.Complete (r : Registered) : Prop := ∀ j < 156, (r.read j).ok = true

instance (r : Registered) : Decidable r.Complete := inferInstanceAs (Decidable (∀ j < 156, _))

/-- The record of the port is what was read from the switch. -/
structure RecordOf (buf : Image) (port : Nat) (r : Registered) : Prop where
  value : ∀ j < 156, buf (record port + j) = (r.read j).stored
  tail : buf (record port + 158) = tailWord r.dev
  mark : buf (record port + 159) = if r.Complete then gusSwitchDataValidFlag else 0

section
variable {buf : Image} {start n port : Nat} {r : Registered} {reads : Nat → Nat → ReadOut}

theorem saveRegister_ok (hok : (reads n (buf n).toNat).ok = true) :
    saveRegister start reads buf n = update buf (start + n) (reads n (buf n).toNat).stored := by
  rw [saveRegister]
  exact if_pos hok

theorem saveRegister_failed (hok : (reads n (buf n).toNat).ok = false) :
    saveRegister start reads buf n =
      update (update buf (start + n) (reads n (buf n).toNat).stored) (start + 159) 0 := by
  rw [saveRegister]
  exact if_neg (by rw [hok]; exact Bool.false_ne_true)

/-- The loop over the registers writes the values, and clears the mark if a read fails. -/
theorem saveRegisters_apply (hstart : 160 ≤ start) (hn : n ≤ 156) (k : Nat) :
    (List.range n).foldl (saveRegister start reads) buf k =
      if k = start + 159 then if ∀ j < n, (reads j (buf j).toNat).ok = true then buf k else 0
      else if start ≤ k ∧ k < start + n then (reads (k - start) (buf (k - start)).toNat).stored
      else buf k := by
  induction n generalizing k with
  | zero =>
    have hnone : ¬ (start ≤ k ∧ k < start + 0) := by omega
    rw [if_neg hnone, List.range_zero, List.foldl_nil]
    split_ifs <;> simp_all
  | succ n ih =>
    have hbefore := ih (by omega)
    have haddr : (List.range n).foldl (saveRegister start reads) buf n = buf n := by
      rw [hbefore, if_neg (by omega), if_neg (by omega)]
    have hall : (∀ j < n + 1, (reads j (buf j).toNat).ok = true) ↔
        (∀ j < n, (reads j (buf j).toNat).ok = true) ∧ (reads n (buf n).toNat).ok = true :=
      Nat.forall_lt_succ_right
    rw [List.range_succ, List.foldl_append, List.foldl_cons, List.foldl_nil]
    rw [← haddr] at hall
    cases hok : (reads n ((List.range n).foldl (saveRegister start reads) buf n).toNat).ok with
    | true =>
      rw [saveRegister_ok hok, haddr]
      by_cases hnew : k = start + n
      · rw [hnew, update_self, if_neg (by omega), if_pos (by omega), Nat.add_sub_cancel_left]
      · have hin : start ≤ k ∧ k < start + (n + 1) ↔ start ≤ k ∧ k < start + n := by omega
        rw [update_of_ne hnew, hbefore]
        simp only [hall, hok, and_true, hin]
    | false =>
      rw [saveRegister_failed hok, haddr]
      by_cases hmark : k = start + 159
      · rw [hmark, update_self, if_pos rfl, if_neg]
        rw [hall, hok]
        exact fun h => absurd h.2 Bool.false_ne_true
      · by_cases hnew : k = start + n
        · rw [update_of_ne hmark, hnew, update_self, if_neg (by omega), if_pos (by omega), Nat.add_sub_cancel_left]
        · rw [update_of_ne hmark, update_of_ne hnew, hbefore, if_neg hmark, if_neg hmark]
          have hin : start ≤ k ∧ k < start + (n + 1) ↔ start ≤ k ∧ k < start + n := by omega
          simp [hin]

/-- A record is saved in its own words. -/
theorem saveRecord_other (hport : 1 ≤ port) {k : Nat} (hk : k < record port ∨ record port + 160 ≤ k) :
    saveRecord buf port r k = buf k := by
  have hstart : 160 ≤ record port := Nat.le_mul_of_pos_right 160 hport
  rw [saveRecord, update_of_ne (by rw [gusSwitchCfgArraySizeMax]; omega), array_size,
    saveRegisters_apply hstart le_rfl, if_neg (by omega), if_neg (by omega),
    update_of_ne (by rw [gusSwitchCfgArraySizeMax]; omega), memset, gusSwitchCfgArraySizeMaxInFlash, if_neg (by omega)]

theorem saveRecord_record (hport : 1 ≤ port) (hmap : AddressMap buf) :
    RecordOf (saveRecord buf port r) port r := by
  have hstart : 160 ≤ record port := Nat.le_mul_of_pos_right 160 hport
  -- the addresses are those of the first record, which the record of the port is behind
  have haddr (j : Nat) (hj : j < 156) :
      (update (memset buf (record port) gusSwitchCfgArraySizeMaxInFlash) (record port + gusSwitchCfgArraySizeMax)
        gusSwitchDataValidFlag j).toNat = addressOf j := by
    rw [update_of_ne (by omega), memset, if_neg (by omega), hmap.addr j hj]
  refine ⟨?_, ?_, ?_⟩
  · intro j hj
    rw [saveRecord, update_of_ne (by rw [gusSwitchCfgArraySizeMax]; omega), array_size,
      saveRegisters_apply hstart le_rfl, if_neg (by omega), if_pos (by omega), Nat.add_sub_cancel_left, haddr j hj]
    rfl
  · rw [saveRecord]
    exact update_self (record port + (gusSwitchCfgArraySizeMax - 1)) _ _
  · rw [saveRecord, update_of_ne (by rw [gusSwitchCfgArraySizeMax]; omega), array_size,
      saveRegisters_apply hstart le_rfl, if_pos rfl]
    have hok : (∀ j < 156, (r.reads j (update (memset buf (record port) gusSwitchCfgArraySizeMaxInFlash)
        (record port + gusSwitchCfgArraySizeMax) gusSwitchDataValidFlag j).toNat).ok = true) ↔ r.Complete :=
      forall₂_congr fun j hj => by rw [haddr j hj]; rfl
    simp only [hok]
    rw [show record port + 159 = record port + gusSwitchCfgArraySizeMax from rfl, update_self]

theorem saveIfExists_other (hport : 1 ≤ port) (r : Option Registered) {k : Nat}
    (hk : k < record port ∨ record port + 160 ≤ k) : saveIfExists buf port r k = buf k := by
  cases r with
  | none => rfl
  | some r => exact saveRecord_other hport hk

theorem AddressMap.saveIfExists (h : AddressMap buf) (hport : 1 ≤ port) (r : Option Registered) :
    AddressMap (saveIfExists buf port r) := by
  have hstart : 160 ≤ record port := Nat.le_mul_of_pos_right 160 hport
  refine ⟨fun j hj => ?_, ?_, ?_⟩
  · rw [saveIfExists_other hport r (.inl (by omega))]
    exact h.addr j hj
  · rw [saveIfExists_other hport r (.inl (by omega))]
    exact h.size
  · rw [saveIfExists_other hport r (.inl (by omega))]
    exact h.mark

theorem RecordOf.congr {buf' : Image} (h : RecordOf buf port r)
    (heq : ∀ i < 160, buf' (record port + i) = buf (record port + i)) : RecordOf buf' port r := by
  refine ⟨fun j hj => ?_, ?_, ?_⟩
  · rw [heq j (by omega)]
    exact h.value j hj
  · rw [heq 158 (by decide)]
    exact h.tail
  · rw [heq 159 (by decide)]
    exact h.mark

/-- The records of other ports are not in the way. -/
theorem RecordOf.saveIfExists {port' : Nat} (h : RecordOf buf port r) (hport' : 1 ≤ port') (hne : port ≠ port')
    (r' : Option Registered) : RecordOf (saveIfExists buf port' r') port r := by
  refine h.congr fun i hi => saveIfExists_other hport' r' ?_
  simp only [record, gusSwitchCfgArraySizeMaxInFlash]
  omega

end

/-! ## All switches -/

/-- The records of the switches at the ports. -/
structure Saved (buf : Image) (switches : Nat → Option Registered) (done : List Nat) : Prop where
  map : AddressMap buf
  record : ∀ p ∈ done, ∀ r, switches p = some r → RecordOf buf p r

theorem Saved.foldl {switches : Nat → Option Registered} {l done : List Nat} {buf : Image}
    (h : Saved buf switches done) (hports : ∀ p ∈ l, 1 ≤ p) (hnodup : (done ++ l).Nodup) :
    Saved (l.foldl (fun buf i => saveIfExists buf i (switches i)) buf) switches (done ++ l) := by
  induction l generalizing buf done with
  | nil =>
    rw [List.append_nil]
    exact h
  | cons i l ih =>
    have hi := hports i List.mem_cons_self
    rw [List.foldl_cons, List.append_cons]
    rw [List.append_cons] at hnodup
    refine ih ⟨h.map.saveIfExists hi _, ?_⟩ (fun p hp => hports p (List.mem_cons_of_mem i hp)) hnodup
    intro p hp r hr
    by_cases hpi : p = i
    · subst hpi
      rw [hr]
      exact saveRecord_record hi h.map
    · have hdone : p ∈ done := by simpa [hpi] using hp
      exact (h.record p hdone r hr).saveIfExists hi hpi _

theorem saveAll_saved (buf : Image) (switches : Nat → Option Registered) :
    Saved ((List.range' 1 (MAX_RRCP_SWITCH_TO_MANAGE - 1)).foldl
      (fun buf i => saveIfExists buf i (switches i)) (prepareAddressMap buf)) switches (List.range' 1 25) := by
  have h : Saved (prepareAddressMap buf) switches [] := ⟨prepareAddressMap_map buf, fun p hp => by cases hp⟩
  refine h.foldl (fun p hp => ?_) (by decide)
  rw [List.mem_range'_1] at hp
  exact hp.1

/-! ## The image and its bytes in flash -/

theorem wordOf_byteOf (bigEndian : Bool) (buf : Image) (k : Nat) :
    wordOf bigEndian (byteOf bigEndian buf (2 * k)) (byteOf bigEndian buf (2 * k + 1)) = buf k := by
  have hhalf : (2 * k + 1) / 2 = k := by omega
  have hbytes : ((buf k >>> 8).setWidth 8 ++ (buf k).setWidth 8 : BitVec 16) = buf k := by
    apply BitVec.eq_of_getLsbD_eq
    intro i hi
    rw [BitVec.getLsbD_append, BitVec.getLsbD_setWidth, BitVec.getLsbD_setWidth, BitVec.getLsbD_ushiftRight]
    by_cases hlow : i < 8
    · simp [hlow]
    · have hback : 8 + (i - 8) = i := by omega
      have hhigh : i - 8 < 8 := by omega
      simp [hlow, hhigh, hback]
  cases bigEndian <;> simp [wordOf, byteOf, hhalf, hbytes]

section
variable {bigEndian mal : Bool} {c c' : Config} {port : Nat} {r : Registered} {buf buf' : Image}

/-- A save that succeeds leaves the image in flash as well. -/
theorem write_ok (h : device_conf_write_switch_conf_to_flash bigEndian mal c glSwitchCfgFileSizeMaxInFlash =
    (c', .RCP_OK)) : c'.buf = c.buf ∧ ∀ k < 4160, reread bigEndian c'.flash k = c.buf k := by
  unfold device_conf_write_switch_conf_to_flash at h
  split_ifs at h with hlong hmal
  · cases (Prod.mk.inj h).2
  · cases (Prod.mk.inj h).2
  obtain ⟨rfl, -⟩ := Prod.mk.inj h
  refine ⟨rfl, fun k hk => ?_⟩
  have hlength : glSwitchCfgFileSizeMaxInFlash = 8320 := rfl
  rw [reread, hlength, if_pos (by omega)]
  dsimp only
  rw [if_pos (by omega), if_pos (by omega), wordOf_byteOf]

theorem write_succeeds : (device_conf_write_switch_conf_to_flash bigEndian true c glSwitchCfgFileSizeMaxInFlash).2 =
    .RCP_OK := by
  rw [device_conf_write_switch_conf_to_flash, if_neg (by decide), if_neg (by decide)]

theorem saveAll_succeeds (bigEndian : Bool) (c : Config) (switches : Nat → Option Registered) :
    ∃ c', saveAllRcpDevCfgToFlash bigEndian true c switches = (c', .RCP_OK) :=
  ⟨_, Prod.ext rfl write_succeeds⟩

/-- The image in memory, or what `RCP_Init` makes of the flash. -/
def Loaded (bigEndian : Bool) (c : Config) (buf : Image) : Prop := buf = c.buf ∨ buf = reread bigEndian c.flash

theorem AddressMap.congr (h : AddressMap buf) (heq : ∀ k < 160, buf' k = buf k) : AddressMap buf' := by
  refine ⟨fun j hj => ?_, ?_, ?_⟩
  · rw [heq j (by omega)]
    exact h.addr j hj
  · rw [heq 158 (by decide)]
    exact h.size
  · rw [heq 159 (by decide)]
    exact h.mark

theorem saveAll_loaded {switches : Nat → Option Registered}
    (h : saveAllRcpDevCfgToFlash bigEndian mal c switches = (c', .RCP_OK)) (hbuf : Loaded bigEndian c' buf)
    (hport : 1 ≤ port ∧ port < MAX_RRCP_SWITCH_TO_MANAGE) (hr : switches port = some r) :
    AddressMap buf ∧ RecordOf buf port r := by
  have hsaved := saveAll_saved c.buf switches
  obtain ⟨hsame, hreread⟩ := write_ok h
  have hp : port < 26 := hport.2
  have heq : ∀ k < 4160, buf k = ((List.range' 1 (MAX_RRCP_SWITCH_TO_MANAGE - 1)).foldl
      (fun buf i => saveIfExists buf i (switches i)) (prepareAddressMap c.buf)) k := by
    intro k hk
    rcases hbuf with rfl | rfl
    · rw [hsame]
    · exact hreread k hk
  refine ⟨hsaved.map.congr fun k hk => heq k (by omega), ?_⟩
  refine (hsaved.record port (List.mem_range'_1.mpr (by omega)) r hr).congr fun i hi => heq _ ?_
  simp only [record, gusSwitchCfgArraySizeMaxInFlash]
  omega

end

/-! ## The writes of a restore -/

/-- The writes that are tried, to the first one that fails. -/
def attempts (fails : Nat → Nat → Bool) : Nat → List (Nat × BitVec 16) → List (Nat × BitVec 16)
  | _, [] => []
  | n, x :: l => x :: if fails n x.1 then [] else attempts fails (n + 1) l

theorem attempts_prefix (fails : Nat → Nat → Bool) (n : Nat) (l : List (Nat × BitVec 16)) :
    attempts fails n l <+: l := by
  induction l generalizing n with
  | nil => exact List.prefix_refl []
  | cons x l ih =>
    rw [attempts, List.cons_prefix_cons]
    refine ⟨rfl, ?_⟩
    split_ifs
    · exact List.nil_prefix
    · exact ih (n + 1)

def pairs (buf : Image) (start : Nat) (l : List Nat) : List (Nat × BitVec 16) :=
  l.map fun j => ((buf j).toNat, buf (start + j))

def readWords (s : State) (ks : List (Nat × Bool)) : State := { s with words := s.words ++ ks }

section
variable {s : State} {buf : Image} {start : Nat} {E : RCP_RET → State → Prop}

@[simp] theorem readWords_writes (ks : List (Nat × Bool)) : (readWords s ks).writes = s.writes := rfl

@[simp] theorem readWords_writeFails (ks : List (Nat × Bool)) : (readWords s ks).writeFails = s.writeFails := rfl

@[simp] theorem readWords_dev (ks : List (Nat × Bool)) : (readWords s ks).dev = s.dev := rfl

theorem meets_readWord {k : Nat} {reg : Bool} {Q : BitVec 16 → State → Prop} :
    Meets (readWord buf k reg) s Q E ↔ Q (buf k) (readWords s [(k, reg)]) := Iff.rfl

theorem meets_setIsolate {data : BitVec 8} {Q : Unit → State → Prop} : Meets (setIsolate data) s Q E ↔
    Q () { s with dev := { s.dev with vlanPortIsolate := data } } := Iff.rfl

/-- The record goes to the registers in order, to the first write that fails. -/
theorem restoreRegisters_writes (l : List Nat) (s : State) :
    Meets (forM l fun j => do
      let addr ← readWord buf j true
      let data ← readWord buf (start + j) true
      RCP_Write_Reg addr.toNat data) s
      (fun _ t => t.dev = s.dev ∧ t.writes = s.writes ++ pairs buf start l ∧
        attempts s.writeFails s.writes.length (pairs buf start l) = pairs buf start l)
      fun _ t => t.dev = s.dev ∧
        t.writes = s.writes ++ attempts s.writeFails s.writes.length (pairs buf start l) := by
  induction l generalizing s with
  | nil =>
    rw [List.forM_nil, meets_pure]
    exact ⟨rfl, (List.append_nil _).symm, rfl⟩
  | cons j l ih =>
    rw [List.forM_cons, meets_bind, meets_bind, meets_readWord, meets_bind, meets_readWord, meets_write]
    change if s.writeFails s.writes.length (buf j).toNat then _ else _
    simp only [pairs, List.map_cons, attempts]
    split_ifs with hfails
    · exact ⟨rfl, rfl⟩
    · refine (ih _).imp ?_ ?_
      · rintro _ t ⟨hdev, hwrites, hall⟩
        simp only [put_writes, put_writeFails, readWords_writes, readWords_writeFails, List.length_append,
          List.length_singleton, List.append_assoc, List.singleton_append] at hwrites hall
        exact ⟨hdev, hwrites, congrArg _ hall⟩
      · rintro _ t ⟨hdev, hwrites⟩
        simp only [put_writes, put_writeFails, readWords_writes, readWords_writeFails, List.length_append,
          List.length_singleton, List.append_assoc, List.singleton_append] at hwrites
        exact ⟨hdev, hwrites⟩

/-- The record of the port is taken for a device of this kind. -/
def Restorable (buf : Image) (port : Nat) (d : RCP_DEVICE_ID) : Prop :=
  buf 159 = gusSwitchDataValidFlag ∧ buf (record port + 159) = gusSwitchDataValidFlag ∧
    (buf (record port + 158) >>> 8).toNat = d.toNat

instance (buf : Image) (port : Nat) (d : RCP_DEVICE_ID) : Decidable (Restorable buf port d) :=
  inferInstanceAs (Decidable (_ ∧ _))

/-- The words that a restore reads before the registers. -/
def headWords (port : Nat) : List (Nat × Bool) :=
  [(159, false), (158, false), (record port + 159, false), (record port + 158, false)]

variable {Q : Unit → State → Prop}

theorem restore_record (h : Restorable buf s.dev.parentPort s.dev.deviceId) :
    Meets (restoreRcpDevCfgFromFlash buf) s Q E ↔
      Meets (restoreRecord buf (record s.dev.parentPort) (buf 158).toNat)
        (readWords s (headWords s.dev.parentPort)) Q E := by
  have hwords : readWords (readWords (readWords (readWords s [(159, false)]) [(158, false)])
      [(record s.dev.parentPort + 159, false)]) [(record s.dev.parentPort + 158, false)] =
        readWords s (headWords s.dev.parentPort) := by
    simp [readWords, headWords]
  obtain ⟨hmark, hrecord, hid⟩ := h
  rw [restoreRcpDevCfgFromFlash, meets_bind, meets_get, meets_bind, meets_readWord, gusSwitchCfgArraySizeMax,
    if_pos hmark, meets_bind, meets_readWord, meets_bind, meets_readWord, if_pos hrecord, meets_bind, meets_readWord,
    if_pos hid, ← hwords]

theorem restore_eeprom (h : ¬ Restorable buf s.dev.parentPort s.dev.deviceId) :
    ∃ ks, ks <+: headWords s.dev.parentPort ∧ (Meets (restoreRcpDevCfgFromFlash buf) s Q E ↔
      Meets isolateFromEeprom (readWords s ks) Q E) := by
  rw [restoreRcpDevCfgFromFlash, meets_bind, meets_get, meets_bind, meets_readWord, gusSwitchCfgArraySizeMax]
  by_cases hmark : buf 159 = gusSwitchDataValidFlag
  · rw [if_pos hmark, meets_bind, meets_readWord, meets_bind, meets_readWord]
    by_cases hrecord : buf (record s.dev.parentPort + 159) = gusSwitchDataValidFlag
    · rw [if_pos hrecord, meets_bind, meets_readWord, if_neg fun hid => h ⟨hmark, hrecord, hid⟩]
      refine ⟨headWords s.dev.parentPort, List.prefix_rfl, ?_⟩
      simp [readWords, headWords]
    · rw [if_neg hrecord]
      refine ⟨(headWords s.dev.parentPort).take 3, List.take_prefix .., ?_⟩
      simp [readWords, headWords]
  · rw [if_neg hmark]
    exact ⟨(headWords s.dev.parentPort).take 1, List.take_prefix .., Iff.rfl⟩

/-- The one write that reads the flag from the EEPROM. -/
def flagRequest (s : State) : Nat × BitVec 16 :=
  (RT8326_EEPROM_RW_CTL, fields.put (s.reg RT8326_EEPROM_RW_CTL) (0x28 ||| REALTEK_EEPROM_READ) 0 12)

theorem isolateFromEeprom_writes : Meets isolateFromEeprom s
    (fun _ t => t.writes = s.writes ++ [flagRequest s] ∧
      t.dev = { s.dev with vlanPortIsolate := fields.get (s.eeprom 0x28) 7 1 })
    fun _ t => t.writes = s.writes ++ [flagRequest s] ∧ t.dev = s.dev := by
  rw [isolateFromEeprom, meets_bind, RCP_GetVlanPortIsolate_InEeprom, RCP_GetEepromField, meets_bind,
    RCP_GetEepromValue, meets_bind, meets_setRegisterField, meets_write]
  split_ifs
  · exact ⟨rfl, rfl⟩
  · rw [meets_bind, meets_get, meets_pure, CALC_MASK_eq (by decide)]
    exact ⟨rfl, rfl⟩

/-- A record goes to the registers, to the first write that fails, and the flag to the device. -/
theorem restoreRecord_writes (start n : Nat) : Meets (restoreRecord buf start n) s
    (fun _ t => t.writes = s.writes ++ pairs buf start (List.range n) ∧
      attempts s.writeFails s.writes.length (pairs buf start (List.range n)) = pairs buf start (List.range n) ∧
      t.dev = { s.dev with vlanPortIsolate := if buf (start + 158) &&& 0x0001 ≠ 0 then 1 else 0 })
    fun _ t => t.writes = s.writes ++ attempts s.writeFails s.writes.length (pairs buf start (List.range n)) ∧
      t.dev = { s.dev with vlanPortIsolate := if buf (start + 158) &&& 0x0001 ≠ 0 then 1 else 0 } := by
  rw [restoreRecord, meets_lastly]
  refine (restoreRegisters_writes (List.range n) s).imp ?_ ?_
  · rintro _ t ⟨hdev, hwrites, hall⟩
    rw [meets_bind, meets_readWord, meets_setIsolate, gusSwitchCfgArraySizeMax]
    exact ⟨hwrites, hall, by rw [← hdev]; rfl⟩
  · rintro _ t ⟨hdev, hwrites⟩
    rw [meets_bind, meets_readWord, meets_setIsolate, gusSwitchCfgArraySizeMax]
    exact ⟨hwrites, by rw [← hdev]; rfl⟩

end

/-! ## The law -/

/-- What was read from the switch, register by register. -/
def Registered.pairs (r : Registered) : List (Nat × BitVec 16) :=
  (List.range 156).map fun j => (addressOf j, (r.read j).stored)

def RCP_DEV.flag (dev : RCP_DEV) : BitVec 8 := if dev.vlanPortIsolate ≠ 0 then 1 else 0

section
variable {s : State} {buf : Image} {port : Nat} {r : Registered}

theorem tailWord_id (dev : RCP_DEV) : (tailWord dev >>> 8).toNat = dev.deviceId.toNat := by
  rw [tailWord]
  cases dev.deviceId <;> split_ifs <;> decide

theorem tailWord_flag (dev : RCP_DEV) :
    (if tailWord dev &&& 0x0001 ≠ 0 then (1 : BitVec 8) else 0) = RCP_DEV.flag dev := by
  have hset : ∀ d : RCP_DEVICE_ID, (1 ||| BitVec.ofNat 16 d.toNat <<< 8) &&& 1 ≠ 0 := by
    intro d
    cases d <;> decide
  have hclear : ∀ d : RCP_DEVICE_ID, (0 ||| BitVec.ofNat 16 d.toNat <<< 8) &&& 1 = 0 := by
    intro d
    cases d <;> decide
  rw [tailWord, RCP_DEV.flag]
  by_cases hflag : dev.vlanPortIsolate ≠ 0
  · rw [if_pos hflag, if_pos hflag]
    exact if_pos (hset dev.deviceId)
  · rw [if_neg hflag, if_neg hflag]
    exact if_neg (not_not_intro (hclear dev.deviceId))

theorem toNat_inj {d d' : RCP_DEVICE_ID} : d.toNat = d'.toNat ↔ d = d' := by
  cases d <;> cases d' <;> decide

theorem restorable_iff (hmap : AddressMap buf) (h : RecordOf buf port r) (d : RCP_DEVICE_ID) :
    Restorable buf port d ↔ r.Complete ∧ d = r.dev.deviceId := by
  rw [Restorable, h.mark, h.tail, tailWord_id, toNat_inj, eq_comm (b := d)]
  by_cases hcomplete : r.Complete
  · rw [if_pos hcomplete]
    exact ⟨fun ⟨_, _, hid⟩ => ⟨hcomplete, hid⟩, fun ⟨_, hid⟩ => ⟨hmap.mark, rfl, hid⟩⟩
  · rw [if_neg hcomplete]
    exact ⟨fun ⟨_, hmark, _⟩ => absurd hmark (by decide), fun ⟨h, _⟩ => absurd h hcomplete⟩

theorem pairs_eq (hmap : AddressMap buf) (h : RecordOf buf port r) :
    pairs buf (record port) (List.range (buf 158).toNat) = r.pairs := by
  rw [hmap.size]
  refine List.map_congr_left fun j hj => ?_
  have hlt : j < 156 := List.mem_range.mp hj
  rw [hmap.addr j hlt, h.value j hlt]

end

/-- What a restore does with the record of a switch: the writes, and the flag of the device. -/
def Restores (buf : Image) (s : State) (l : List (Nat × BitVec 16)) (flag : BitVec 8) : Prop :=
  Meets (restoreRcpDevCfgFromFlash buf) s
    (fun _ t => t.writes = s.writes ++ l ∧ t.dev = { s.dev with vlanPortIsolate := flag })
    fun _ t => (∃ tried, tried <+: l ∧ t.writes = s.writes ++ tried) ∧
      t.dev = { s.dev with vlanPortIsolate := flag }

/-- No register of the list is written, only the one that asks for the flag in the EEPROM. -/
def OnlyAsks (buf : Image) (s : State) : Prop :=
  Meets (restoreRcpDevCfgFromFlash buf) s
    (fun _ t => t.writes = s.writes ++ [flagRequest s] ∧
      t.dev = { s.dev with vlanPortIsolate := fields.get (s.eeprom 0x28) 7 1 })
    fun _ t => t.writes = s.writes ++ [flagRequest s] ∧ t.dev = s.dev

section
variable {s : State} {buf : Image} {r : Registered}

theorem restores_of_restorable (hmap : AddressMap buf) (h : RecordOf buf s.dev.parentPort r)
    (hrestorable : Restorable buf s.dev.parentPort s.dev.deviceId) : Restores buf s r.pairs (RCP_DEV.flag r.dev) := by
  rw [Restores, restore_record hrestorable]
  have hflag := tailWord_flag r.dev
  rw [← h.tail] at hflag
  refine (restoreRecord_writes _ _).imp ?_ ?_
  · rintro _ t ⟨hwrites, -, hdev⟩
    rw [pairs_eq hmap h] at hwrites
    rw [hflag] at hdev
    exact ⟨hwrites, hdev⟩
  · rintro _ t ⟨hwrites, hdev⟩
    rw [pairs_eq hmap h] at hwrites
    rw [hflag] at hdev
    exact ⟨⟨_, attempts_prefix _ _ _, hwrites⟩, hdev⟩

theorem onlyAsks_of_not_restorable (h : ¬ Restorable buf s.dev.parentPort s.dev.deviceId) : OnlyAsks buf s := by
  obtain ⟨ks, -, hrest⟩ := restore_eeprom (Q := fun _ t => t.writes = s.writes ++ [flagRequest s] ∧
    t.dev = { s.dev with vlanPortIsolate := fields.get (s.eeprom 0x28) 7 1 })
    (E := fun _ t => t.writes = s.writes ++ [flagRequest s] ∧ t.dev = s.dev) h
  rw [OnlyAsks, hrest]
  exact isolateFromEeprom_writes (s := readWords s ks)

end

/-- A switch none of whose registers answer. -/
def silent : Registered := ⟨⟨.GH1508, 0, 1, fun _ => 0, fun _ => 0, 0⟩, fun _ _ => ⟨false, 0⟩⟩

def emptyConfig : Config := ⟨fun _ => 0, fun _ => 0⟩

/-- A switch all of whose registers hold zero. -/
def zeroed : Registered := ⟨⟨.GH1508, 0, 1, fun _ => 0, fun _ => 0, 0⟩, fun _ _ => ⟨true, 0⟩⟩

end gwdonu.switch_config
