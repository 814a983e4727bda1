-- The commands to the EEPROM of a switch, reply by reply: each waits until the chip is not busy
-- and then asks whether it went well. When a command that did not is never taken for one that did.
import Gwdonu.Lib.Traces
import Gwdonu.RcpRegisters

namespace gwdonu.eeprom_replies

open calls
open traces (Orderly orderly_concat)
open rcp (RCP_RET)
open rcp_registers (CALC_MASK CALC_MASK_eq EeField RCP_FLAG RCP_GetEeaddrFromReg REALTEK_EEPROM_READ
  REALTEK_EEPROM_WRITE RT8326_EEPROM_RW_CTL RT8326_EEPROM_RW_DATA)

/-! ## The chip -/

def Eeprom_Addr_Pos : Nat := 0
def Eeprom_Busy_Pos : Nat := 12
def Eeprom_Result_Pos : Nat := 13
def Eeprom_Read_Pos : Nat := 8

/-- What a call leaves behind: the writes that went out, and, which is not the program's, the result
bits that it read and the bytes that it was given. -/
inductive Event where
  | write (regAddr : Nat) (data : BitVec 16)
  | result (isSet : Bool)
  | byte (eeAddr : Nat) (value : BitVec 8)
  deriving DecidableEq

/-- What comes of the next reads and writes. A read without a reply, or behind the last one, fails,
and so does a write that does not go out. -/
structure Chip where
  replies : List (Option (BitVec 16))
  sends : List Bool
  log : List Event
  deriving DecidableEq

abbrev Call := EStateM RCP_RET Chip

/-- The next reply. -/
def Chip.answer (c : Chip) : Option (BitVec 16 × Chip) :=
  match c.replies with
  | some data :: replies => some (data, { c with replies })
  | _ => none

/-- The next write goes out. -/
def Chip.send (c : Chip) : Option Chip :=
  match c.sends with
  | true :: sends => some { c with sends }
  | _ => none

def Chip.note (c : Chip) (e : Event) : Chip := { c with log := c.log ++ [e] }

/-! ## The program -/

/-- `RCP_TIMEOUT` stands for every way to fail. The address is the chip's to know. -/
def RCP_Read_Reg (_regAddr : Nat) : Call (BitVec 16) := do
  let c ← get
  match c.answer with
  | some (data, c) =>
    set c
    return data
  | none =>
    set { c with replies := c.replies.tail }
    throw .RCP_TIMEOUT

def RCP_Write_Reg (regAddr : Nat) (data : BitVec 16) : Call Unit := do
  let c ← get
  match c.send with
  | some c => set (c.note (.write regAddr data))
  | none =>
    set { c with sends := c.sends.tail }
    throw .RCP_TIMEOUT

def RCP_GetRegField (regAddr fieldOffset fieldLength : Nat) : Call (BitVec 16) := do
  let tmpData ← RCP_Read_Reg regAddr
  return (tmpData &&& CALC_MASK 16 fieldOffset fieldLength) >>> fieldOffset

def RCP_SetRegisterField (regAddr fieldOffset fieldLength : Nat) (data : BitVec 16) : Call Unit := do
  let tmpData ← RCP_Read_Reg regAddr
  let mask := CALC_MASK 16 fieldOffset fieldLength
  RCP_Write_Reg regAddr ((tmpData &&& ~~~mask) ||| ((data <<< fieldOffset) &&& mask))

/-- The `do` on the busy bit. Each turn takes a reply, so the list of them is enough for its turns. -/
def whileBusy : List (Option (BitVec 16)) → Call Unit
  | [] => do
    let _ ← RCP_GetRegField RT8326_EEPROM_RW_CTL Eeprom_Busy_Pos 1
  | _ :: replies => do
    let data ← RCP_GetRegField RT8326_EEPROM_RW_CTL Eeprom_Busy_Pos 1
    when (data ≠ 0) (whileBusy replies)

def waitBusy : Call Unit := do
  let c ← get
  whileBusy c.replies

/-- Whether the result bit is set. -/
def readResult : Call Bool := do
  let data ← RCP_GetRegField RT8326_EEPROM_RW_CTL Eeprom_Result_Pos 1
  modify fun c => c.note (.result (data ≠ 0))
  return data ≠ 0

/-- `value` is what the variable of the caller holds. With the result bit set, it keeps that, and
`ret` is the `RCP_OK` of the read before. -/
def RCP_GetEepromValue (eeAddr : Nat) (value : BitVec 8) : Call (BitVec 8) := do
  RCP_SetRegisterField RT8326_EEPROM_RW_CTL Eeprom_Addr_Pos 12 (BitVec.ofNat 16 eeAddr ||| REALTEK_EEPROM_READ)
  waitBusy
  let failed ← readResult
  if ¬ failed then
    let data ← RCP_GetRegField RT8326_EEPROM_RW_DATA Eeprom_Read_Pos 8
    modify fun c => c.note (.byte eeAddr (data.setWidth 8))
    return data.setWidth 8
  else return value

/-- With the result bit set or not, `RCP_OK` is returned. -/
def RCP_SetEepromValue (eeAddr : Nat) (value : BitVec 8) : Call Unit := do
  RCP_SetRegisterField RT8326_EEPROM_RW_DATA Eeprom_Addr_Pos 8 (value.setWidth 16)
  RCP_SetRegisterField RT8326_EEPROM_RW_CTL Eeprom_Addr_Pos 12 (BitVec.ofNat 16 eeAddr ||| REALTEK_EEPROM_WRITE)
  waitBusy
  let _ ← readResult

/-- `tmpData` is what the variable holds before anything is written to it. -/
def RCP_GetEepromField (tmpData : BitVec 8) (eeAddr fieldOffset fieldLen : Nat) : Call (BitVec 8) := do
  let tmpData ← RCP_GetEepromValue eeAddr tmpData
  return (tmpData &&& CALC_MASK 8 fieldOffset fieldLen) >>> fieldOffset

def RCP_SetEepromField (tmpData : BitVec 8) (eeAddr fieldOffset fieldLen : Nat) (value : BitVec 8) : Call Unit := do
  let tmpData ← RCP_GetEepromValue eeAddr tmpData
  let mask := CALC_MASK 8 fieldOffset fieldLen
  RCP_SetEepromValue eeAddr ((tmpData &&& ~~~mask) ||| ((value <<< fieldOffset) &&& mask))

/-- `behind` is what a read behind the end of a table of addresses finds. -/
def RCP_SetRegField (behind : Nat) (tmpData : BitVec 8) (regAddr fieldOffset fieldLength : Nat) (data : BitVec 16)
    (flag : RCP_FLAG) : Call Unit := do
  when flag.toEeprom do
    match RCP_GetEeaddrFromReg behind regAddr fieldOffset fieldLength with
    | some f => RCP_SetEepromField tmpData f.eeAddr f.eeOffset f.eeLength (data.setWidth 8)
    | none => throw .RCP_BAD_PARAM
  when flag.toRegister do
    RCP_SetRegisterField regAddr fieldOffset fieldLength data

/-! ## What a call should do -/

/-- A call that returns `RCP_OK` read no result bit that was set. -/
def Reports {α : Type} (x : Call α) (c : Chip) : Prop := Meets x c (fun _ t => .result true ∉ t.log) fun _ _ => True

/-- A byte goes to the data register only behind a command that went well, and outside the field
it is the byte that was given. -/
structure WritesBack (eeAddr fieldOffset fieldLen : Nat) (log : List Event) : Prop where
  read : ∀ before data behind, log = before ++ .write RT8326_EEPROM_RW_DATA data :: behind → .result true ∉ before
  keeps : ∀ m : Nat → BitVec 8, (∀ a value, Event.byte a value ∈ log → value = m a) →
    ∀ data, Event.write RT8326_EEPROM_RW_DATA data ∈ log → ∀ i < 8, ¬ (fieldOffset ≤ i ∧ i < fieldOffset + fieldLen) →
      data.getLsbD i = (m eeAddr).getLsbD i

/-- A request of each of the calls. -/
inductive Request where
  | getValue (eeAddr : Nat) (value : BitVec 8)
  | setValue (eeAddr : Nat) (value : BitVec 8)
  | getField (tmpData : BitVec 8) (eeAddr fieldOffset fieldLen : Nat)
  | setField (tmpData : BitVec 8) (eeAddr fieldOffset fieldLen : Nat) (value : BitVec 8)
  | regField (behind : Nat) (tmpData : BitVec 8) (regAddr fieldOffset fieldLength : Nat) (data : BitVec 16)
      (flag : RCP_FLAG)

def Request.Honest (c : Chip) : Request → Prop
  | .getValue eeAddr value => Reports (RCP_GetEepromValue eeAddr value) c
  | .setValue eeAddr value => Reports (RCP_SetEepromValue eeAddr value) c
  | .getField tmpData eeAddr off len => Reports (RCP_GetEepromField tmpData eeAddr off len) c
  | .setField tmpData eeAddr off len value => Reports (RCP_SetEepromField tmpData eeAddr off len value) c ∧
      Always (RCP_SetEepromField tmpData eeAddr off len value) c fun t => WritesBack eeAddr off len t.log
  | .regField behind tmpData regAddr off len data flag =>
      Reports (RCP_SetRegField behind tmpData regAddr off len data flag) c

/-! ## What the chip answers -/

def isBusy (data : BitVec 16) : Bool := (data &&& CALC_MASK 16 Eeprom_Busy_Pos 1) >>> Eeprom_Busy_Pos ≠ 0

def isFailed (data : BitVec 16) : Bool := (data &&& CALC_MASK 16 Eeprom_Result_Pos 1) >>> Eeprom_Result_Pos ≠ 0

/-- One field of a register is read and written. -/
def Chip.update (c : Chip) (regAddr fieldOffset fieldLength : Nat) (data : BitVec 16) : Option Chip := do
  let (old, c) ← c.answer
  let c ← c.send
  return c.note (.write regAddr (fields.put old data fieldOffset fieldLength))

/-- The replies behind the first one that is not busy. -/
def settle : List (Option (BitVec 16)) → Option (List (Option (BitVec 16)))
  | some data :: replies => if isBusy data then settle replies else some replies
  | _ => none

def Chip.settle (c : Chip) : Option Chip := (eeprom_replies.settle c.replies).map fun replies => { c with replies }

/-- The result bit behind a command. -/
def Chip.result (c : Chip) : Option (Bool × Chip) := do
  let c ← c.settle
  c.answer.map fun (data, c) => (isFailed data, c.note (.result (isFailed data)))

/-- The result bit of the command that reads a byte, and of the one that writes it, where everything
up to it comes through. -/
def Chip.readCommand (c : Chip) (eeAddr : Nat) : Option (Bool × Chip) := do
  let c ← c.update RT8326_EEPROM_RW_CTL Eeprom_Addr_Pos 12 (BitVec.ofNat 16 eeAddr ||| REALTEK_EEPROM_READ)
  c.result

def Chip.writeCommand (c : Chip) (eeAddr : Nat) (value : BitVec 8) : Option (Bool × Chip) := do
  let c ← c.update RT8326_EEPROM_RW_DATA Eeprom_Addr_Pos 8 (value.setWidth 16)
  let c ← c.update RT8326_EEPROM_RW_CTL Eeprom_Addr_Pos 12 (BitVec.ofNat 16 eeAddr ||| REALTEK_EEPROM_WRITE)
  c.result

/-- The byte that a caller goes on with. -/
def Chip.byte (c : Chip) (eeAddr : Nat) (value : BitVec 8) (failed : Bool) : Option (BitVec 8 × Chip) :=
  if failed then some (value, c) else
    c.answer.map fun (data, c) =>
      (((data &&& CALC_MASK 16 Eeprom_Read_Pos 8) >>> Eeprom_Read_Pos).setWidth 8,
        c.note (.byte eeAddr (((data &&& CALC_MASK 16 Eeprom_Read_Pos 8) >>> Eeprom_Read_Pos).setWidth 8)))

/-- Whether one of the two commands sets the result bit, where both come through. -/
def Chip.field (c : Chip) (tmpData : BitVec 8) (eeAddr fieldOffset fieldLen : Nat) (value : BitVec 8) :
    Option (Bool × Chip) := do
  let (readFailed, c) ← c.readCommand eeAddr
  let (tmpData, c) ← c.byte eeAddr tmpData readFailed
  let (writeFailed, c) ← c.writeCommand eeAddr (fields.put tmpData value fieldOffset fieldLen)
  return (readFailed || writeFailed, c)

/-- No command of the request comes through with the result bit set, unless the call fails behind it. -/
def Request.Spared (c : Chip) : Request → Prop
  | .getValue eeAddr _ | .getField _ eeAddr _ _ => ∀ c', c.readCommand eeAddr ≠ some (true, c')
  | .setValue eeAddr value => ∀ c', c.writeCommand eeAddr value ≠ some (true, c')
  | .setField tmpData eeAddr off len value =>
      (∀ c', c.readCommand eeAddr = some (true, c') → 
        c'.update RT8326_EEPROM_RW_DATA Eeprom_Addr_Pos 8
            ((fields.put tmpData value off len).setWidth 16) = none) ∧
        ∀ c', c.field tmpData eeAddr off len value ≠ some (true, c')
  | .regField behind tmpData regAddr off len data flag =>
      flag.toEeprom → ∀ f, RCP_GetEeaddrFromReg behind regAddr off len = some f →
        ∀ c', c.field tmpData f.eeAddr f.eeOffset f.eeLength (data.setWidth 8) = some (true, c') →
          flag.toRegister ∧ c'.update regAddr off len data = none

section
variable {c c' : Chip} {regAddr off len eeAddr : Nat} {data : BitVec 16} {value : BitVec 8}
  {P : List Event → Prop}

/-! ## One access -/

theorem answer_log (h : c.answer = some (data, c')) : c'.log = c.log := by
  unfold Chip.answer at h
  split at h
  · cases h
    rfl
  · cases h

/-- A read gives the next reply, or it fails and leaves nothing behind. -/
theorem meets_read {Q : BitVec 16 → Chip → Prop} :
    Meets (RCP_Read_Reg regAddr) c Q (fun _ t => P t.log) ↔ c.answer.elim (P c.log) fun r => Q r.1 r.2 := by
  rw [RCP_Read_Reg, meets_bind, meets_get]
  cases c.answer <;> rfl

theorem meets_write {Q : Unit → Chip → Prop} : Meets (RCP_Write_Reg regAddr data) c Q (fun _ t => P t.log) ↔
    c.send.elim (P c.log) fun c => Q () (c.note (.write regAddr data)) := by
  rw [RCP_Write_Reg, meets_bind, meets_get]
  cases c.send <;> rfl

/-- A field is read and written, or nothing is left behind. -/
theorem meets_update {Q : Unit → Chip → Prop} :
    Meets (RCP_SetRegisterField regAddr off len data) c Q (fun _ t => P t.log) ↔
      (c.update regAddr off len data).elim (P c.log) (Q ()) := by
  unfold Chip.update
  rw [RCP_SetRegisterField, meets_bind, meets_read]
  cases hanswer : c.answer with
  | none => rfl
  | some r =>
    obtain ⟨old, c₁⟩ := r
    simp only [Option.elim_some, Option.bind_eq_bind, Option.bind_some]
    rw [meets_write, CALC_MASK_eq le_rfl, answer_log hanswer]
    cases c₁.send <;> rfl

theorem meets_whileBusy {Q : Unit → Chip → Prop} {replies : List (Option (BitVec 16))} (h : c.replies = replies) :
    Meets (whileBusy replies) c Q (fun _ t => P t.log) ↔ c.settle.elim (P c.log) (Q ()) := by
  unfold Chip.settle
  induction replies generalizing c with
  | nil =>
    rw [whileBusy, meets_bind, RCP_GetRegField, meets_bind, meets_read, Chip.answer, h]
    rfl
  | cons reply replies ih =>
    rw [whileBusy, meets_bind, RCP_GetRegField, meets_bind, meets_read, Chip.answer, h]
    cases reply with
    | none => rfl
    | some data =>
      rw [settle]
      simp only [Option.elim_some, meets_pure]
      by_cases hbusy : isBusy data = true
      · rw [when_true (of_decide_eq_true hbusy), if_pos hbusy]
        exact ih rfl
      · rw [when_false (of_decide_eq_false (Bool.not_eq_true _ ▸ hbusy)), if_neg hbusy, meets_pure]
        rfl

theorem settle_log (h : c.settle = some c') : c'.log = c.log := by
  rw [Chip.settle, Option.map_eq_some_iff] at h
  obtain ⟨replies, -, rfl⟩ := h
  rfl

/-- What is behind a command: the chip gets ready, and its result bit is read. -/
theorem meets_readResult {α : Type} {f : Bool → Call α} {Q : α → Chip → Prop} :
    Meets (do waitBusy; let failed ← readResult; f failed) c Q (fun _ t => P t.log) ↔
      c.result.elim (P c.log) fun r => Meets (f r.1) r.2 Q fun _ t => P t.log := by
  unfold Chip.result
  rw [meets_bind, waitBusy, meets_bind, meets_get, meets_whileBusy rfl]
  cases hsettle : c.settle with
  | none => rfl
  | some c₁ =>
    simp only [Option.elim_some, Option.bind_eq_bind, Option.bind_some]
    rw [meets_bind, readResult, meets_bind, RCP_GetRegField, meets_bind, meets_read, settle_log hsettle]
    cases c₁.answer <;> rfl

/-! ## One command -/

theorem meets_getValue {Q : BitVec 8 → Chip → Prop} :
    Meets (RCP_GetEepromValue eeAddr value) c Q (fun _ t => P t.log) ↔
      (c.update RT8326_EEPROM_RW_CTL Eeprom_Addr_Pos 12 (BitVec.ofNat 16 eeAddr ||| REALTEK_EEPROM_READ)).elim
        (P c.log) fun c => c.result.elim (P c.log) fun r =>
          (r.2.byte eeAddr value r.1).elim (P r.2.log) fun b => Q b.1 b.2 := by
  rw [RCP_GetEepromValue, meets_bind, meets_update]
  cases c.update _ _ _ _ with
  | none => rfl
  | some c₁ =>
    simp only [Option.elim_some]
    rw [meets_readResult]
    cases c₁.result with
    | none => rfl
    | some r =>
      simp only [Option.elim_some]
      cases hfailed : r.1 with
      | true => rfl
      | false =>
        rw [if_pos (by simp), meets_bind, RCP_GetRegField, meets_bind, meets_read, Chip.byte, if_neg (by simp)]
        cases r.2.answer <;> rfl

theorem meets_setValue {Q : Unit → Chip → Prop} :
    Meets (RCP_SetEepromValue eeAddr value) c Q (fun _ t => P t.log) ↔
      (c.update RT8326_EEPROM_RW_DATA Eeprom_Addr_Pos 8 (value.setWidth 16)).elim (P c.log) fun c =>
        (c.update RT8326_EEPROM_RW_CTL Eeprom_Addr_Pos 12 (BitVec.ofNat 16 eeAddr ||| REALTEK_EEPROM_WRITE)).elim
          (P c.log) fun c => c.result.elim (P c.log) fun r => Q () r.2 := by
  rw [RCP_SetEepromValue, meets_bind, meets_update]
  cases c.update _ _ _ _ with
  | none => rfl
  | some c₁ =>
    simp only [Option.elim_some]
    rw [meets_bind, meets_update]
    cases c₁.update _ _ _ _ with
    | none => rfl
    | some c₂ =>
      simp only [Option.elim_some]
      rw [meets_readResult]
      cases c₂.result <;> rfl

/-! ## What a call leaves behind -/

theorem update_log (h : c.update regAddr off len data = some c') :
    ∃ old, c'.log = c.log ++ [.write regAddr (fields.put old data off len)] := by
  unfold Chip.update at h
  cases hanswer : c.answer with
  | none => simp [hanswer] at h
  | some r =>
    obtain ⟨old, c₁⟩ := r
    rw [hanswer] at h
    cases hsend : c₁.send with
    | none => simp [hsend] at h
    | some c₂ =>
      simp only [Option.bind_eq_bind, Option.bind_some, hsend] at h
      cases h
      unfold Chip.send at hsend
      split at hsend
      · cases hsend
        exact ⟨old, by rw [Chip.note, ← answer_log hanswer]⟩
      · cases hsend

theorem result_log {failed : Bool} (h : c.result = some (failed, c')) : c'.log = c.log ++ [.result failed] := by
  unfold Chip.result at h
  cases hsettle : c.settle with
  | none => simp [hsettle] at h
  | some c₁ =>
    simp only [Option.bind_eq_bind, Option.bind_some, hsettle, Option.map_eq_some_iff] at h
    obtain ⟨⟨data, c₂⟩, hanswer, h⟩ := h
    cases h
    rw [Chip.note, answer_log hanswer, settle_log hsettle]

/-- Without the result bit, the byte is the chip's. -/
theorem byte_log {value' : BitVec 8} (h : c.byte eeAddr value false = some (value', c')) :
    c'.log = c.log ++ [.byte eeAddr value'] := by
  rw [Chip.byte, if_neg (by simp), Option.map_eq_some_iff] at h
  obtain ⟨⟨data, c₁⟩, hanswer, h⟩ := h
  cases h
  rw [Chip.note, answer_log hanswer]

theorem byte_failed {value' : BitVec 8} {failed : Bool} (h : c.byte eeAddr value failed = some (value', c')) :
    .result true ∈ c'.log ↔ .result true ∈ c.log := by
  cases failed with
  | true =>
    cases h
    rfl
  | false =>
    rw [byte_log h]
    simp

theorem update_failed (h : c.update regAddr off len data = some c') :
    .result true ∈ c'.log ↔ .result true ∈ c.log := by
  obtain ⟨old, hlog⟩ := update_log h
  rw [hlog]
  simp

theorem result_failed {failed : Bool} (h : c.result = some (failed, c')) :
    .result true ∈ c'.log ↔ .result true ∈ c.log ∨ failed = true := by
  rw [result_log h]
  simp

theorem readCommand_failed {failed : Bool} (h : c.readCommand eeAddr = some (failed, c')) :
    .result true ∈ c'.log ↔ .result true ∈ c.log ∨ failed = true := by
  rw [Chip.readCommand, Option.bind_eq_bind, Option.bind_eq_some_iff] at h
  obtain ⟨c₁, hupdate, hresult⟩ := h
  rw [result_failed hresult, update_failed hupdate]

theorem writeCommand_failed {failed : Bool} (h : c.writeCommand eeAddr value = some (failed, c')) :
    .result true ∈ c'.log ↔ .result true ∈ c.log ∨ failed = true := by
  simp only [Chip.writeCommand, Option.bind_eq_bind, Option.bind_eq_some_iff] at h
  obtain ⟨c₁, hdata, c₂, hcommand, hresult⟩ := h
  rw [result_failed hresult, update_failed hcommand, update_failed hdata]

theorem field_failed {tmpData : BitVec 8} {failed : Bool}
    (h : c.field tmpData eeAddr off len value = some (failed, c')) :
    .result true ∈ c'.log ↔ .result true ∈ c.log ∨ failed = true := by
  simp only [Chip.field, Option.bind_eq_bind, Option.bind_eq_some_iff] at h
  obtain ⟨⟨readFailed, c₁⟩, hread, ⟨tmpData', c₂⟩, hbyte, ⟨writeFailed, c₃⟩, hwrite, h⟩ := h
  cases h
  rw [writeCommand_failed hwrite, byte_failed hbyte, readCommand_failed hread, Bool.or_eq_true, or_assoc]

/-! ## What a call reports -/

theorem elim_true {α : Type} {o : Option α} {Q : α → Prop} : o.elim True Q ↔ ∀ r, o = some r → Q r := by
  cases o with
  | none => simp
  | some r => simp

theorem getValue_ok {Q : BitVec 8 → Chip → Prop} :
    Meets (RCP_GetEepromValue eeAddr value) c Q (fun _ _ => True) ↔
      ∀ r, c.readCommand eeAddr = some r → ∀ b, r.2.byte eeAddr value r.1 = some b → Q b.1 b.2 := by
  refine (meets_getValue (P := fun _ => True)).trans ?_
  simp only [elim_true, Chip.readCommand, Option.bind_eq_bind, Option.bind_eq_some_iff]
  constructor
  · rintro h r ⟨c₁, hupdate, hresult⟩
    exact h c₁ hupdate r hresult
  · intro h c₁ hupdate r hresult
    exact h r ⟨c₁, hupdate, hresult⟩

theorem setValue_ok {Q : Unit → Chip → Prop} :
    Meets (RCP_SetEepromValue eeAddr value) c Q (fun _ _ => True) ↔
      ∀ r, c.writeCommand eeAddr value = some r → Q () r.2 := by
  refine (meets_setValue (P := fun _ => True)).trans ?_
  simp only [elim_true, Chip.writeCommand, Option.bind_eq_bind, Option.bind_eq_some_iff]
  constructor
  · rintro h r ⟨c₁, hdata, c₂, hcommand, hresult⟩
    exact h c₁ hdata c₂ hcommand r hresult
  · intro h c₁ hdata c₂ hcommand r hresult
    exact h r ⟨c₁, hdata, c₂, hcommand, hresult⟩

theorem setField_ok {tmpData : BitVec 8} {Q : Unit → Chip → Prop} :
    Meets (RCP_SetEepromField tmpData eeAddr off len value) c Q (fun _ _ => True) ↔
      ∀ r, c.field tmpData eeAddr off len value = some r → Q () r.2 := by
  rw [RCP_SetEepromField, meets_bind, getValue_ok]
  simp only [setValue_ok, CALC_MASK_eq (show 8 ≤ 16 by decide), Chip.field, Option.bind_eq_bind,
    Option.bind_eq_some_iff]
  constructor
  · rintro h r ⟨r₁, hread, b, hbyte, r₂, hwrite, hr⟩
    cases hr
    exact h r₁ hread b hbyte r₂ hwrite
  · intro h r₁ hread b hbyte r₂ hwrite
    exact h (r₁.1 || r₂.1, r₂.2) ⟨r₁, hread, b, hbyte, r₂, hwrite, rfl⟩

/-- Without a result bit to begin with, none is read exactly if the ways to come through have none. -/
theorem reads_none {o : Option (Bool × Chip)} (hlog : c.log = [])
    (h : ∀ failed c', o = some (failed, c') → (.result true ∈ c'.log ↔ .result true ∈ c.log ∨ failed = true)) :
    (∀ r, o = some r → .result true ∉ r.2.log) ↔ ∀ c', o ≠ some (true, c') := by
  constructor
  · intro hnone c' hr
    exact hnone _ hr ((h true c' hr).mpr (.inr rfl))
  · rintro hspared ⟨failed, c'⟩ hr hmem
    obtain hmem | rfl := (h failed c' hr).mp hmem
    · rw [hlog] at hmem
      cases hmem
    · exact hspared c' hr

theorem reports_getValue (hlog : c.log = []) :
    Reports (RCP_GetEepromValue eeAddr value) c ↔ ∀ c', c.readCommand eeAddr ≠ some (true, c') := by
  rw [Reports, getValue_ok]
  constructor
  · intro h c' hread
    have hmem := h _ hread (value, c') rfl
    exact hmem ((readCommand_failed hread).mpr (.inr rfl))
  · rintro hspared ⟨failed, c'⟩ hread b hbyte hmem
    obtain hmem | rfl := (readCommand_failed hread).mp ((byte_failed hbyte).mp hmem)
    · rw [hlog] at hmem
      cases hmem
    · exact hspared c' hread

theorem reports_setValue (hlog : c.log = []) :
    Reports (RCP_SetEepromValue eeAddr value) c ↔ ∀ c', c.writeCommand eeAddr value ≠ some (true, c') := by
  rw [Reports, setValue_ok]
  exact reads_none hlog fun _ _ => writeCommand_failed

theorem reports_getField {tmpData : BitVec 8} (hlog : c.log = []) :
    Reports (RCP_GetEepromField tmpData eeAddr off len) c ↔ ∀ c', c.readCommand eeAddr ≠ some (true, c') := by
  rw [← reports_getValue hlog, Reports, RCP_GetEepromField, meets_bind]
  exact Iff.rfl

theorem reports_setField {tmpData : BitVec 8} (hlog : c.log = []) :
    Reports (RCP_SetEepromField tmpData eeAddr off len value) c ↔
      ∀ c', c.field tmpData eeAddr off len value ≠ some (true, c') := by
  rw [Reports, setField_ok]
  exact reads_none hlog fun _ _ => field_failed

theorem update_ok {Q : Unit → Chip → Prop} : Meets (RCP_SetRegisterField regAddr off len data) c Q (fun _ _ => True) ↔
    ∀ c', c.update regAddr off len data = some c' → Q () c' := by
  refine (meets_update (P := fun _ => True)).trans ?_
  rw [elim_true]

/-- The register is written behind the EEPROM, if at all. -/
theorem reports_toRegister {flag : RCP_FLAG} : Meets
      (when flag.toRegister (RCP_SetRegisterField regAddr off len data)) c
      (fun _ t => .result true ∉ t.log) (fun _ _ => True) ↔
    (.result true ∈ c.log → flag.toRegister ∧ c.update regAddr off len data = none) := by
  rw [meets_when, update_ok]
  constructor
  · rintro ⟨hto, hnot⟩ hmem
    by_cases hflag : flag.toRegister
    · refine ⟨hflag, Option.eq_none_iff_forall_ne_some.mpr fun c' hupdate => ?_⟩
      exact hto hflag c' hupdate ((update_failed hupdate).mpr hmem)
    · exact absurd hmem (hnot hflag)
  · intro h
    refine ⟨fun _ c' hupdate hmem => ?_, fun hflag hmem => hflag (h hmem).1⟩
    obtain ⟨-, hnone⟩ := h ((update_failed hupdate).mp hmem)
    exact Option.some_ne_none c' (hupdate.symm.trans hnone)

theorem reports_regField {behind : Nat} {tmpData : BitVec 8} {flag : RCP_FLAG} (hlog : c.log = []) :
    Reports (RCP_SetRegField behind tmpData regAddr off len data flag) c ↔
      (Request.regField behind tmpData regAddr off len data flag).Spared c := by
  have hnone : .result true ∉ c.log := by
    rw [hlog]
    exact List.not_mem_nil
  rw [Reports, RCP_SetRegField, meets_bind, meets_when]
  simp only [reports_toRegister]
  cases hflag : flag.toEeprom with
  | false =>
    refine iff_of_true ⟨fun h => (Bool.false_ne_true h).elim, fun _ hmem => absurd hmem hnone⟩ fun h => ?_
    exact absurd (hflag.symm.trans h) Bool.false_ne_true
  | true =>
    rw [Request.Spared, hflag]
    cases hf : RCP_GetEeaddrFromReg behind regAddr off len with
    | none =>
      refine iff_of_true ⟨fun _ => ?_, fun h => absurd rfl h⟩ fun _ f h => by cases h
      exact meets_throw.mpr trivial
    | some f =>
      simp only [true_implies, not_true_eq_false, false_implies, and_true, Option.some.injEq, forall_eq']
      rw [setField_ok]
      constructor
      · intro h c' hfield
        exact h (true, c') hfield ((field_failed hfield).mpr (.inr rfl))
      · rintro h ⟨failed, c'⟩ hfield hmem
        obtain hmem | rfl := (field_failed hfield).mp hmem
        · exact absurd hmem hnone
        · exact h c' hfield

/-! ## What is written back -/

/-- The byte does not go out behind a result bit that is set. -/
def Unfailed (before : List Event) (e : Event) : Prop :=
  ∀ data, e = .write RT8326_EEPROM_RW_DATA data → .result true ∉ before

theorem orderly_unfailed {log : List Event} : Orderly Unfailed log ↔
    ∀ before data behind, log = before ++ .write RT8326_EEPROM_RW_DATA data :: behind → .result true ∉ before :=
  ⟨fun h before data behind heq => h before _ behind heq data rfl,
    fun h before _ behind heq data he => h before data behind (he ▸ heq)⟩

theorem writesBack_of_none {log : List Event} (h : ∀ data, .write RT8326_EEPROM_RW_DATA data ∉ log) :
    WritesBack eeAddr off len log where
  read before data _ heq := absurd (heq ▸ List.mem_append_right before List.mem_cons_self) (h data)
  keeps _ _ data hmem := absurd hmem (h data)

/-- A write elsewhere and a result bit behind it change nothing. -/
theorem writesBack_append {log : List Event} {e : Event} (hdata : ∀ data, .write RT8326_EEPROM_RW_DATA data ≠ e)
    (hbyte : ∀ a value, .byte a value ≠ e) :
    WritesBack eeAddr off len (log ++ [e]) ↔ WritesBack eeAddr off len log := by
  constructor
  · intro h
    refine ⟨orderly_unfailed.mp (orderly_concat.mp (orderly_unfailed.mpr h.read)).1, ?_⟩
    intro m hm data hmem
    refine h.keeps m (fun a value hv => hm a value ?_) data (List.mem_append_left _ hmem)
    exact (List.mem_append.mp hv).resolve_right fun h => hbyte a value (List.mem_singleton.mp h)
  · intro h
    have hfits : Unfailed log e := fun data he => absurd he.symm (hdata data)
    refine ⟨orderly_unfailed.mp (orderly_concat.mpr ⟨orderly_unfailed.mpr h.read, hfits⟩), ?_⟩
    intro m hm data hmem
    refine h.keeps m (fun a value hv => hm a value (List.mem_append_left _ hv)) data ?_
    exact (List.mem_append.mp hmem).resolve_right fun h => hdata data (List.mem_singleton.mp h)

/-- Behind the write of the byte, nothing more is at stake. -/
theorem always_setValue {a : Nat} : Always (RCP_SetEepromValue a value) c (fun t => WritesBack eeAddr off len t.log) ↔
    (c.update RT8326_EEPROM_RW_DATA Eeprom_Addr_Pos 8 (value.setWidth 16)).elim
      (WritesBack eeAddr off len c.log) fun c => WritesBack eeAddr off len c.log := by
  rw [Always, meets_setValue]
  cases c.update _ _ _ _ with
  | none => rfl
  | some c₁ =>
    simp only [Option.elim_some]
    cases hcommand : c₁.update _ _ _ _ with
    | none => rfl
    | some c₂ =>
      obtain ⟨old, hlog⟩ := update_log hcommand
      have hctl : WritesBack eeAddr off len c₂.log ↔ WritesBack eeAddr off len c₁.log := by
        rw [hlog]
        exact writesBack_append (by simp [RT8326_EEPROM_RW_CTL, RT8326_EEPROM_RW_DATA]) (by simp)
      simp only [Option.elim_some]
      cases hresult : c₂.result with
      | none => exact hctl
      | some r =>
        rw [Option.elim_some, result_log hresult, writesBack_append (by simp) (by simp), hctl]

/-- A byte that was given goes back with only the field changed. -/
theorem writesBack_given {log : List Event} {given : BitVec 8} {old : BitVec 16}
    (hnone : ∀ data, .write RT8326_EEPROM_RW_DATA data ∉ log) (hread : .result true ∉ log)
    (hgiven : .byte eeAddr given ∈ log) :
    WritesBack eeAddr off len (log ++ [.write RT8326_EEPROM_RW_DATA
      (fields.put old ((fields.put given value off len).setWidth 16) Eeprom_Addr_Pos 8)]) where
  read := by
    have hbefore : Orderly Unfailed log := by
      rintro before _ behind rfl data rfl
      exact absurd (List.mem_append_right before List.mem_cons_self) (hnone data)
    exact orderly_unfailed.mp (orderly_concat.mpr ⟨hbefore, fun _ _ => hread⟩)
  keeps m hm data hmem i hi hout := by
    obtain rfl := (Event.write.inj (List.mem_singleton.mp ((List.mem_append.mp hmem).resolve_left (hnone data)))).2
    rw [fields.getLsbD_put, if_pos ⟨by omega, Nat.zero_le i, by simpa [Eeprom_Addr_Pos] using hi⟩]
    rw [BitVec.getLsbD_setWidth, Eeprom_Addr_Pos, Nat.sub_zero, decide_eq_true (by omega), Bool.true_and,
      fields.getLsbD_put, if_neg fun h => hout h.2, hm eeAddr given (List.mem_append_left _ hgiven)]

theorem readCommand_log {failed : Bool} (hlog : c.log = []) (h : c.readCommand eeAddr = some (failed, c')) :
    ∃ data, c'.log = [.write RT8326_EEPROM_RW_CTL data, .result failed] := by
  rw [Chip.readCommand, Option.bind_eq_bind, Option.bind_eq_some_iff] at h
  obtain ⟨c₁, hupdate, hresult⟩ := h
  obtain ⟨old, hc₁⟩ := update_log hupdate
  rw [result_log hresult, hc₁, hlog]
  exact ⟨_, rfl⟩

/-- Up to the command of the write, nothing is at stake. -/
theorem always_getValue {a : Nat} {f : BitVec 8 → Call Unit} (hlog : c.log = []) :
    Always (do let value ← RCP_GetEepromValue a value; f value) c (fun t => WritesBack eeAddr off len t.log) ↔
      ∀ r, c.readCommand a = some r → ∀ b, r.2.byte a value r.1 = some b →
        Always (f b.1) b.2 fun t => WritesBack eeAddr off len t.log := by
  rw [Always, meets_bind, meets_getValue, Chip.readCommand]
  cases hcommand : c.update _ _ _ _ with
  | none => exact iff_of_true (writesBack_of_none (by simp [hlog])) fun r h => by cases h
  | some c₁ =>
    obtain ⟨old, hc₁⟩ := update_log hcommand
    rw [hlog, List.nil_append] at hc₁
    simp only [Option.elim_some, Option.bind_eq_bind, Option.bind_some]
    cases hresult : c₁.result with
    | none =>
      refine iff_of_true (writesBack_of_none fun data => ?_) fun r h => by cases h
      simp [hc₁, RT8326_EEPROM_RW_CTL, RT8326_EEPROM_RW_DATA]
    | some r =>
      simp only [Option.elim_some, Option.some.injEq, forall_eq']
      cases hbyte : r.2.byte a value r.1 with
      | none =>
        refine iff_of_true (writesBack_of_none fun data => ?_) fun b h => by cases h
        simp [result_log (show c₁.result = some (r.1, r.2) from hresult), hc₁, RT8326_EEPROM_RW_CTL,
          RT8326_EEPROM_RW_DATA]
      | some b => simp only [Option.elim_some, Option.some.injEq, forall_eq']

/-- A byte that was not given does not go back, and one that was does as it should. -/
theorem writesBack_read {tmpData : BitVec 8} {failed : Bool} {b : BitVec 8 × Chip} (hlog : c.log = [])
    (hread : c.readCommand eeAddr = some (failed, c')) (hbyte : c'.byte eeAddr tmpData failed = some b) :
    Always (RCP_SetEepromValue eeAddr (fields.put b.1 value off len)) b.2
        (fun t => WritesBack eeAddr off len t.log) ↔
      (failed = true → b.2.update RT8326_EEPROM_RW_DATA Eeprom_Addr_Pos 8
        ((fields.put b.1 value off len).setWidth 16) = none) := by
  obtain ⟨given, c₁⟩ := b
  obtain ⟨data, hc'⟩ := readCommand_log hlog hread
  have hnone : ∀ data, .write RT8326_EEPROM_RW_DATA data ∉ c₁.log := fun d => by
    cases failed with
    | true =>
      cases hbyte
      simp [hc', RT8326_EEPROM_RW_CTL, RT8326_EEPROM_RW_DATA]
    | false => simp [byte_log hbyte, hc', RT8326_EEPROM_RW_CTL, RT8326_EEPROM_RW_DATA]
  rw [always_setValue]
  cases hdata : c₁.update RT8326_EEPROM_RW_DATA _ _ _ with
  | none => exact iff_of_true (writesBack_of_none hnone) fun _ => rfl
  | some c₂ =>
    obtain ⟨old, hc₂⟩ := update_log hdata
    rw [Option.elim_some]
    cases failed with
    | true =>
      cases hbyte
      refine iff_of_false (fun h => ?_) fun h => Option.some_ne_none c₂ (h rfl)
      refine h.read c'.log _ [] hc₂ ?_
      simp [hc']
    | false =>
      refine iff_of_true ?_ fun h => (Bool.false_ne_true h).elim
      rw [hc₂]
      have hlog' := byte_log hbyte
      exact writesBack_given hnone (by simp [hlog', hc']) (by simp [hlog'])

/-- The bytes around the field are kept exactly if no byte goes out behind a read that failed. -/
theorem writesBack_setField {tmpData : BitVec 8} (hlog : c.log = []) :
    Always (RCP_SetEepromField tmpData eeAddr off len value) c (fun t => WritesBack eeAddr off len t.log) ↔
      ∀ c', c.readCommand eeAddr = some (true, c') →
        c'.update RT8326_EEPROM_RW_DATA Eeprom_Addr_Pos 8 ((fields.put tmpData value off len).setWidth 16) = none := by
  rw [RCP_SetEepromField, always_getValue hlog]
  simp only [CALC_MASK_eq (show 8 ≤ 16 by decide)]
  constructor
  · intro h c' hread
    exact (writesBack_read hlog hread rfl).mp (h _ hread (tmpData, c') rfl) rfl
  · rintro h ⟨failed, c'⟩ hread b hbyte
    refine (writesBack_read hlog hread hbyte).mpr ?_
    rintro rfl
    cases hbyte
    exact h c' hread

end

/-! ## The law -/

/-- What a chip says of a command that it could not do is passed on exactly where it has nothing
to say: a call that gets to a result bit which is set goes on as if it were not. -/
theorem a_request_is_honest_iff_it_is_spared (request : Request) (replies : List (Option (BitVec 16)))
    (sends : List Bool) :
    request.Honest ⟨replies, sends, []⟩ ↔ request.Spared ⟨replies, sends, []⟩ := by
  cases request with
  | getValue eeAddr value => exact reports_getValue rfl
  | setValue eeAddr value => exact reports_setValue rfl
  | getField tmpData eeAddr off len => exact reports_getField rfl
  | setField tmpData eeAddr off len value =>
    exact and_comm.trans (and_congr (writesBack_setField rfl) (reports_setField rfl))
  | regField behind tmpData regAddr off len data flag => exact reports_regField rfl

/-- The read of the byte at 0x20 fails, and a byte that was never read is stored there. -/
theorem a_byte_that_was_not_read_is_written_back :
    ¬ (Request.setField 0xa5 0x20 0 4 3).Honest
      ⟨[some 0, some 0, some 0x2000, some 0, some 0, some 0, some 0], [true, true, true], []⟩ := by
  rintro ⟨hreports, -⟩
  exact (reports_setField rfl).mp hreports _ (by decide +kernel : Chip.field _ _ _ _ _ _ = some (true, ⟨[], [],
    [.write RT8326_EEPROM_RW_CTL 0x820, .result true, .write RT8326_EEPROM_RW_DATA 0xa3,
      .write RT8326_EEPROM_RW_CTL 0x20, .result false]⟩))

end gwdonu.eeprom_replies
