-- The registers of the PHYs, behind the three registers of the switch that carry the commands to
-- them: when a command waits for the one before it, and what a read gives.
import Gwdonu.Lib.Traces
import Gwdonu.RcpRegisters

namespace gwdonu.phy_access

open Function calls runs
open rcp (RCP_RET)
open rcp_registers (CALC_MASK CALC_MASK_eq RCP_DEVICE_ID)

def RT8326_ACCESS_CTL : Nat := 0x0500
def RT8326_ACCESS_WRITE : Nat := 0x0501
def RT8326_ACCESS_READ : Nat := 0x0502

def PHY_Address_Pos : Nat := 5
def PHY_RW_Pos : Nat := 14
def PHY_Busy_Pos : Nat := 15

/-! ## The chip -/

/-- What becomes of a transfer: it is done, or its request or its reply gets lost. -/
inductive Transfer where
  | done
  | requestLost
  | replyLost
  deriving DecidableEq

/-- What gets to the registers, with what they hold and whether the chip is busy; and, which is not
the chip's, the values that a call gave or took. -/
inductive Event where
  | command (value data : BitVec 16) (isBusy : Bool)
  | data (data : BitVec 16) (isBusy : Bool)
  | gave (address : BitVec 14) (data : BitVec 16)
  | took (address : BitVec 14) (data : BitVec 16)
  deriving DecidableEq

/-- The command takes `left` more reads of the busy bit, and the ones behind it take `durations`.
The transfers behind the last one that is listed are done. -/
structure Chip where
  dev : RCP_DEVICE_ID
  phy : BitVec 14 → BitVec 16
  command : BitVec 16
  data : BitVec 16
  found : BitVec 16
  left : Nat
  durations : List Nat
  transfers : List Transfer
  log : List Event

abbrev Call := EStateM RCP_RET Chip

def isWrite (value : BitVec 16) : Bool := value.getLsbD PHY_RW_Pos

def addressOf (value : BitVec 16) : BitVec 14 := value.setWidth 14

def Chip.note (c : Chip) (e : Event) : Chip := { c with log := c.log ++ [e] }

/-- The command is through: the PHY has the data, or the data is there to be read. -/
def Chip.finish (c : Chip) : Chip :=
  if isWrite c.command then { c with left := 0, phy := update c.phy (addressOf c.command) c.data }
  else { c with left := 0, found := c.phy (addressOf c.command) }

/-- While the chip is busy, it takes no other command. -/
def Chip.begin (c : Chip) (value : BitVec 16) : Chip :=
  let t := c.note (.command value c.data (0 < c.left))
  if 0 < c.left then t
  else
    let t := { t with command := value, left := c.durations.headD 0, durations := c.durations.tail }
    if t.left = 0 then t.finish else t

/-- A read of the busy bit is one less to come. -/
def Chip.turn (c : Chip) : Chip :=
  match c.left with
  | 0 => c
  | 1 => c.finish
  | left + 1 => { c with left }

def Chip.read (c : Chip) (regAddr : Nat) : BitVec 16 × Chip :=
  if regAddr = RT8326_ACCESS_CTL then (fields.put c.command (if 0 < c.left then 1 else 0) PHY_Busy_Pos 1, c.turn)
  else if regAddr = RT8326_ACCESS_READ then (c.found, c)
  else (c.data, c)

def Chip.write (c : Chip) (regAddr : Nat) (data : BitVec 16) : Chip :=
  if regAddr = RT8326_ACCESS_CTL then c.begin data
  else if regAddr = RT8326_ACCESS_WRITE then { c.note (.data data (0 < c.left)) with data }
  else c

def Chip.next (c : Chip) : Transfer := c.transfers.headD .done

def Chip.skip (c : Chip) : Chip := { c with transfers := c.transfers.tail }

/-! ## The program -/

/-- `RCP_TIMEOUT` stands for every way to fail. -/
def RCP_Read_Reg (regAddr : Nat) : Call (BitVec 16) := do
  let c ← get
  match c.next with
  | .done =>
    set (c.skip.read regAddr).2
    return (c.skip.read regAddr).1
  | .requestLost =>
    set c.skip
    throw .RCP_TIMEOUT
  | .replyLost =>
    set (c.skip.read regAddr).2
    throw .RCP_TIMEOUT

def RCP_Write_Reg (regAddr : Nat) (data : BitVec 16) : Call Unit := do
  let c ← get
  match c.next with
  | .done => set (c.skip.write regAddr data)
  | .requestLost =>
    set c.skip
    throw .RCP_TIMEOUT
  | .replyLost =>
    set (c.skip.write regAddr data)
    throw .RCP_TIMEOUT

def RCP_GetRegField (regAddr fieldOffset fieldLength : Nat) : Call (BitVec 16) := do
  let tmpData ← RCP_Read_Reg regAddr
  return (tmpData &&& CALC_MASK 16 fieldOffset fieldLength) >>> fieldOffset

def RCP_SetRegisterField (regAddr fieldOffset fieldLength : Nat) (data : BitVec 16) : Call Unit := do
  let tmpData ← RCP_Read_Reg regAddr
  let mask := CALC_MASK 16 fieldOffset fieldLength
  RCP_Write_Reg regAddr ((tmpData &&& ~~~mask) ||| ((data <<< fieldOffset) &&& mask))

def RCPLPort2Port (slot lPort : Nat) : Call Nat := do
  let c ← get
  if slot > 1 ∨ slot = 0 then throw .RCP_BAD_VALUE
  else if lPort > c.dev.numOfPorts ∨ lPort = 0 then throw .RCP_BAD_VALUE
  else return lPort - 1

def phyAddr (phyPort : Nat) : BitVec 16 :=
  if phyPort ≤ 15 then 0x10 ||| BitVec.ofNat 16 phyPort
  else if phyPort > 15 ∧ phyPort ≤ 23 then 0x08 ||| BitVec.ofNat 16 (phyPort - 16)
  else 0x00 ||| BitVec.ofNat 16 (phyPort - 24)

/-- The `do` on the busy bit, which is clear behind so many turns. -/
def whileBusy : Nat → Call Unit
  | 0 => do
    let _ ← RCP_GetRegField RT8326_ACCESS_CTL PHY_Busy_Pos 1
  | left + 1 => do
    let tmpData ← RCP_GetRegField RT8326_ACCESS_CTL PHY_Busy_Pos 1
    when (tmpData ≠ 0) (whileBusy left)

def waitBusy : Call Unit := do
  let c ← get
  whileBusy c.left

def RCP_GetPhyRegValue (slot port : Nat) (phyReg : BitVec 16) : Call (BitVec 16) := do
  let phyPort ← RCPLPort2Port slot port
  let value := (phyAddr phyPort <<< PHY_Address_Pos) ||| phyReg
  RCP_SetRegisterField RT8326_ACCESS_CTL 0 15 value
  waitBusy
  let data ← RCP_Read_Reg RT8326_ACCESS_READ
  modify fun c => c.note (.gave (addressOf value) data)
  return data

def RCP_SetPhyRegValue (slot port : Nat) (phyReg data : BitVec 16) : Call Unit := do
  let phyPort ← RCPLPort2Port slot port
  let value := (1 <<< PHY_RW_Pos) ||| (phyAddr phyPort <<< PHY_Address_Pos) ||| phyReg
  RCP_Write_Reg RT8326_ACCESS_WRITE data
  waitBusy
  RCP_SetRegisterField RT8326_ACCESS_CTL 0 15 value
  modify fun c => c.note (.took (addressOf value) data)

def RCP_GetPhyRegField (slot port : Nat) (phyReg : BitVec 16) (offset length : Nat) : Call (BitVec 16) := do
  let tmpData ← RCP_GetPhyRegValue slot port phyReg
  return (tmpData &&& CALC_MASK 16 offset length) >>> offset

def RCP_SetPhyRegField (slot port : Nat) (phyReg : BitVec 16) (offset length : Nat) (data : BitVec 16) :
    Call Unit := do
  let tmpData ← RCP_GetPhyRegValue slot port phyReg
  let mask := CALC_MASK 16 offset length
  RCP_SetPhyRegValue slot port phyReg ((tmpData &&& ~~~mask) ||| ((data <<< offset) &&& mask))

/-! ## What the calls should do -/

/-- The registers behind the write commands of a trace. -/
def stored (phy : BitVec 14 → BitVec 16) (log : List Event) : BitVec 14 → BitVec 16 :=
  log.foldl (fun phy e =>
    match e with
    | .command value data _ => if isWrite value then update phy (addressOf value) data else phy
    | _ => phy) phy

/-- Nothing is written while the chip is busy, and what a call gave or took is what the register
holds behind all the writes before it. -/
def Event.Fits (phy : BitVec 14 → BitVec 16) (before : List Event) : Event → Prop
  | .command _ _ isBusy => isBusy = false
  | .data _ isBusy => isBusy = false
  | .gave address value => value = stored phy before address
  | .took address value => stored phy before address = value

def Orderly (phy : BitVec 14 → BitVec 16) (log : List Event) : Prop := traces.Orderly (Event.Fits phy) log

inductive Request where
  | getValue (slot port : Nat) (phyReg : BitVec 16)
  | setValue (slot port : Nat) (phyReg data : BitVec 16)
  | getField (slot port : Nat) (phyReg : BitVec 16) (offset length : Nat)
  | setField (slot port : Nat) (phyReg : BitVec 16) (offset length : Nat) (data : BitVec 16)

/-- The chip behind a call, whatever it returns. -/
def Request.after (c : Chip) : Request → Chip
  | .getValue slot port phyReg => calls.after (RCP_GetPhyRegValue slot port phyReg) c
  | .setValue slot port phyReg data => calls.after (RCP_SetPhyRegValue slot port phyReg data) c
  | .getField slot port phyReg offset length => calls.after (RCP_GetPhyRegField slot port phyReg offset length) c
  | .setField slot port phyReg offset length data =>
      calls.after (RCP_SetPhyRegField slot port phyReg offset length data) c

/-! ## When they do -/

def known (dev : RCP_DEVICE_ID) (slot lPort : Nat) : Prop := slot = 1 ∧ 0 < lPort ∧ lPort ≤ dev.numOfPorts

/-- The command of a read finds the chip free, as its own read of the command register may be the
last that it takes; and the number of the register leaves the bit alone that makes it a write. -/
def ReadsFree (c : Chip) (slot port : Nat) (phyReg : BitVec 16) : Prop :=
  known c.dev slot port → (c.left ≤ 1 ∨ c.next ≠ .done ∨ c.skip.next = .requestLost) ∧ isWrite phyReg = false

/-- The data of a write finds the chip free. -/
def WritesFree (c : Chip) (slot port : Nat) : Prop :=
  known c.dev slot port → c.left = 0 ∨ c.next = .requestLost

def Request.Waits (c : Chip) : Request → Prop
  | .setValue slot port _ _ => WritesFree c slot port
  | .getValue slot port phyReg | .getField slot port phyReg _ _ | .setField slot port phyReg _ _ _ =>
      ReadsFree c slot port phyReg

/-! ## Accesses -/

/-- The chip once the command that it is busy with is through. -/
def Chip.settle (c : Chip) : Chip := if 0 < c.left then c.finish else c

/-- But for the time that is left and the transfers, the chips will be the same. -/
structure Agree (c t : Chip) : Prop where
  phy : t.settle.phy = c.settle.phy
  found : t.settle.found = c.settle.found
  data : t.data = c.data
  log : t.log = c.log

section
variable {c c' t : Chip} {value data phyReg : BitVec 16} {regAddr slot port : Nat} {phy : BitVec 14 → BitVec 16}

theorem Agree.refl (c : Chip) : Agree c c := ⟨rfl, rfl, rfl, rfl⟩

theorem Agree.trans (h : Agree c c') (h' : Agree c' t) : Agree c t :=
  ⟨h'.phy.trans h.phy, h'.found.trans h.found, h'.data.trans h.data, h'.log.trans h.log⟩

theorem agree_skip : Agree c c.skip := by
  have hsettle : c.skip.settle = c.settle.skip := by
    unfold Chip.settle Chip.finish Chip.skip
    split_ifs <;> rfl
  exact ⟨by rw [hsettle, Chip.skip], by rw [hsettle, Chip.skip], rfl, rfl⟩

@[simp] theorem finish_left : c.finish.left = 0 := by
  unfold Chip.finish
  split_ifs <;> rfl

@[simp] theorem finish_data : c.finish.data = c.data := by
  unfold Chip.finish
  split_ifs <;> rfl

@[simp] theorem finish_log : c.finish.log = c.log := by
  unfold Chip.finish
  split_ifs <;> rfl

theorem settle_of_free (h : c.left = 0) : c.settle = c := if_neg (by omega)

theorem turn_left : c.turn.left = c.left - 1 := by
  unfold Chip.turn
  split
  · omega
  · rw [finish_left]
    omega
  · rename_i hleft
    rw [hleft]
    rfl

/-- A turn changes nothing but the time that is left. -/
theorem agree_turn : Agree c c.turn := by
  unfold Chip.turn
  split
  · exact Agree.refl c
  · have hfree : c.finish.settle = c.finish := settle_of_free finish_left
    have hbusy : c.settle = c.finish := if_pos (by omega)
    exact ⟨by rw [hfree, hbusy], by rw [hfree, hbusy], finish_data, finish_log⟩
  · rename_i left hpos hleft
    have hbusy : c.settle = c.finish := if_pos (by omega)
    have hturn : ({ c with left } : Chip).settle = c.finish := by
      rw [Chip.settle, if_pos (Nat.pos_of_ne_zero hpos)]
      rfl
    exact ⟨by rw [hturn, hbusy], by rw [hturn, hbusy], rfl, rfl⟩

theorem agree_read : Agree c (c.read regAddr).2 := by
  by_cases hctl : regAddr = RT8326_ACCESS_CTL
  · rw [Chip.read, if_pos hctl]
    exact agree_turn
  · rw [Chip.read, if_neg hctl]
    split_ifs
    · exact Agree.refl c
    · exact Agree.refl c

theorem turn_next : c.turn.next = c.next := by
  unfold Chip.turn Chip.finish Chip.next
  split
  · rfl
  · split_ifs <;> rfl
  · rfl

theorem meets_read {Q : BitVec 16 → Chip → Prop} {E : RCP_RET → Chip → Prop} (hE : ∀ t, Agree c t → E .RCP_TIMEOUT t)
    (hQ : c.next = .done → Q (c.skip.read regAddr).1 (c.skip.read regAddr).2) : Meets (RCP_Read_Reg regAddr) c Q E := by
  rw [RCP_Read_Reg, meets_bind, meets_get]
  cases hnext : c.next with
  | done => exact hQ hnext
  | requestLost => exact hE _ agree_skip
  | replyLost => exact hE _ (agree_skip.trans agree_read)

/-- The command is on its way, or through. -/
structure Begun (c : Chip) (value : BitVec 16) (t : Chip) : Prop where
  log : ∃ value', t.log = c.log ++ [.command value' c.data false] ∧ isWrite value' = isWrite value ∧
    addressOf value' = addressOf value
  phy : t.settle.phy = if isWrite value then update c.settle.phy (addressOf value) c.data else c.settle.phy
  found : isWrite value = false → t.settle.found = c.settle.phy (addressOf value)

/-- A command to a chip that is free. -/
theorem begun_begin {value' : BitVec 16} (hfree : c.left = 0) (hwrite : isWrite value' = isWrite value)
    (haddress : addressOf value' = addressOf value) : Begun c value (c.begin value') := by
  have hsettle : (c.begin value').settle = ({ c.note (.command value' c.data false) with
      command := value', left := c.durations.headD 0, durations := c.durations.tail } : Chip).finish := by
    rw [Chip.begin, decide_eq_false (by omega), if_neg (by omega)]
    dsimp only
    split_ifs with hleft
    · exact settle_of_free finish_left
    · rw [Chip.settle, if_pos (Nat.pos_of_ne_zero hleft)]
  have hlog : (c.begin value').log = c.log ++ [.command value' c.data false] := by
    rw [Chip.begin, decide_eq_false (by omega), if_neg (by omega)]
    dsimp only
    split_ifs
    · exact finish_log
    · rfl
  refine ⟨⟨value', hlog, hwrite, haddress⟩, ?_, fun hread => ?_⟩
  · rw [hsettle, settle_of_free hfree, Chip.finish, hwrite, haddress]
    split_ifs <;> rfl
  · rw [hsettle, settle_of_free hfree, Chip.finish, hwrite, haddress, hread]
    rfl

theorem Begun.agree_left (h : Agree c c') (hb : Begun c' value t) : Begun c value t where
  log := by rw [← h.log, ← h.data]; exact hb.log
  phy := by rw [hb.phy, h.phy, h.data]
  found hread := by rw [hb.found hread, h.phy]

theorem meets_write_command {value' : BitVec 16} {Q : Unit → Chip → Prop} {E : RCP_RET → Chip → Prop}
    (hwrite : isWrite value' = isWrite value) (haddress : addressOf value' = addressOf value)
    (hfree : c.left = 0 ∨ c.next = .requestLost) (hQ : ∀ t, Begun c value t → Q () t)
    (hE : ∀ t, Agree c t ∨ Begun c value t → E .RCP_TIMEOUT t) :
    Meets (RCP_Write_Reg RT8326_ACCESS_CTL value') c Q E := by
  rw [RCP_Write_Reg, meets_bind, meets_get]
  by_cases hlost : c.next = .requestLost
  · rw [hlost]
    exact hE _ (.inl agree_skip)
  · have hleft : c.skip.left = 0 := hfree.resolve_right hlost
    have hbegun : Begun c value (c.skip.begin value') := (begun_begin hleft hwrite haddress).agree_left agree_skip
    cases hnext : c.next with
    | requestLost => exact absurd hnext hlost
    | done => exact hQ _ hbegun
    | replyLost => exact hE _ (.inr hbegun)

/-- The command is written, 15 bits of it. -/
theorem meets_command {Q : Unit → Chip → Prop} {E : RCP_RET → Chip → Prop}
    (hfree : c.left ≤ 1 ∨ c.next ≠ .done ∨ c.skip.next = .requestLost)
    (hQ : ∀ t, Begun c value t → Q () t) (hE : ∀ t, Agree c t ∨ Begun c value t → E .RCP_TIMEOUT t) :
    Meets (RCP_SetRegisterField RT8326_ACCESS_CTL 0 15 value) c Q E := by
  rw [RCP_SetRegisterField, meets_bind]
  refine meets_read (fun t ht => hE t (.inl ht)) fun hdone => ?_
  have hagree : Agree c (c.skip.read RT8326_ACCESS_CTL).2 := agree_skip.trans agree_read
  have hleft : (c.skip.read RT8326_ACCESS_CTL).2.left = c.left - 1 := turn_left
  have hnext : (c.skip.read RT8326_ACCESS_CTL).2.next = c.skip.next := turn_next
  generalize (c.skip.read RT8326_ACCESS_CTL).2 = c₁ at *
  generalize (c.skip.read RT8326_ACCESS_CTL).1 = old
  rw [CALC_MASK_eq le_rfl]
  change Meets (RCP_Write_Reg RT8326_ACCESS_CTL (fields.put old value 0 15)) c₁ Q E
  have hbits : ∀ i < 15, (fields.put old value 0 15).getLsbD i = value.getLsbD i := fun i hi => by
    rw [fields.getLsbD_put, if_pos (by omega), Nat.sub_zero]
  have haddress : addressOf (fields.put old value 0 15) = addressOf value := by
    apply BitVec.eq_of_getLsbD_eq
    intro i hi
    rw [addressOf, addressOf, BitVec.getLsbD_setWidth, BitVec.getLsbD_setWidth, hbits i (by omega)]
  refine meets_write_command (hbits _ (by decide)) haddress ?_ (fun t ht => hQ t (ht.agree_left hagree)) ?_
  · rw [hnext]
    obtain hleft' | hnot | hlost := hfree
    · exact .inl (by omega)
    · exact absurd hdone hnot
    · exact .inr hlost
  · rintro t (ht | ht)
    · exact hE t (.inl (hagree.trans ht))
    · exact hE t (.inr (ht.agree_left hagree))

theorem busy_bit (h : 0 < c.left) :
    ((c.read RT8326_ACCESS_CTL).1 &&& CALC_MASK 16 PHY_Busy_Pos 1) >>> PHY_Busy_Pos ≠ 0 := by
  rw [CALC_MASK_eq le_rfl]
  change fields.get (fields.put c.command (if 0 < c.left then 1 else 0) PHY_Busy_Pos 1) PHY_Busy_Pos 1 ≠ 0
  rw [if_pos h, fields.get_put _ _ (by decide) (by decide)]
  decide

/-- Behind the wait the chip is free, and nothing else has changed. -/
theorem meets_whileBusy {Q : Unit → Chip → Prop} {E : RCP_RET → Chip → Prop} {left : Nat} (hleft : c.left = left)
    (hQ : ∀ t, Agree c t → t.left = 0 → Q () t) (hE : ∀ t, Agree c t → E .RCP_TIMEOUT t) :
    Meets (whileBusy left) c Q E := by
  have hagree : Agree c (c.skip.read RT8326_ACCESS_CTL).2 := agree_skip.trans agree_read
  have hturn : (c.skip.read RT8326_ACCESS_CTL).2.left = c.left - 1 := turn_left
  induction left generalizing c with
  | zero =>
    rw [whileBusy, meets_bind, RCP_GetRegField, meets_bind]
    exact meets_read hE fun _ => hQ _ hagree (by omega)
  | succ left ih =>
    rw [whileBusy, meets_bind, RCP_GetRegField, meets_bind]
    refine meets_read hE fun _ => ?_
    rw [meets_pure, when_true (busy_bit (show 0 < c.skip.left from hleft ▸ Nat.succ_pos left))]
    have hleft' : (c.skip.read RT8326_ACCESS_CTL).2.left = left := by omega
    exact ih hleft' (fun t ht => hQ t (hagree.trans ht)) (fun t ht => hE t (hagree.trans ht))
      (agree_skip.trans agree_read) turn_left

theorem meets_waitBusy {Q : Unit → Chip → Prop} {E : RCP_RET → Chip → Prop}
    (hQ : ∀ t, Agree c t → t.left = 0 → Q () t) (hE : ∀ t, Agree c t → E .RCP_TIMEOUT t) : Meets waitBusy c Q E := by
  rw [waitBusy, meets_bind, meets_get]
  exact meets_whileBusy rfl hQ hE

/-! ## Calls -/

/-- So far all went well, and the PHYs are as the writes so far leave them. -/
structure Sound (phy : BitVec 14 → BitVec 16) (c : Chip) : Prop where
  orderly : Orderly phy c.log
  phy : c.settle.phy = stored phy c.log

theorem Sound.agree (h : Sound phy c) (ht : Agree c t) : Sound phy t where
  orderly := by rw [ht.log]; exact h.orderly
  phy := by rw [ht.phy, ht.log, h.phy]

theorem stored_concat {log : List Event} {e : Event} : stored phy (log ++ [e]) =
    match e with
    | .command value data _ =>
      if isWrite value then update (stored phy log) (addressOf value) data else stored phy log
    | _ => stored phy log := by
  unfold stored
  rw [List.foldl_append]
  cases e <;> rfl

theorem Sound.begun (h : Sound phy c) (ht : Begun c value t) : Sound phy t := by
  obtain ⟨value', hlog, hwrite, haddress⟩ := ht.log
  constructor
  · rw [hlog]
    exact traces.orderly_concat.mpr ⟨h.orderly, rfl⟩
  · rw [ht.phy, hlog, stored_concat, h.phy]
    dsimp only
    rw [hwrite, haddress]

theorem Sound.note {e : Event} (h : Sound phy c) (he : e.Fits phy c.log)
    (hnot : ∀ value data isBusy, e ≠ .command value data isBusy) : Sound phy (c.note e) where
  orderly := traces.orderly_concat.mpr ⟨h.orderly, he⟩
  phy := by
    have hsettle : (c.note e).settle.phy = c.settle.phy := by
      unfold Chip.settle Chip.finish Chip.note
      split_ifs <;> rfl
    change (c.note e).settle.phy = stored phy (c.log ++ [e])
    rw [hsettle, h.phy, stored_concat]
    cases e with
    | command value data isBusy => exact absurd rfl (hnot value data isBusy)
    | data data isBusy => rfl
    | gave address data => rfl
    | took address data => rfl

theorem meets_port {Q : Nat → Chip → Prop} {E : RCP_RET → Chip → Prop} (hQ : known c.dev slot port → Q (port - 1) c)
    (hE : E .RCP_BAD_VALUE c) : Meets (RCPLPort2Port slot port) c Q E := by
  rw [RCPLPort2Port, meets_bind, meets_get]
  split_ifs with hslot hport
  · exact hE
  · exact hE
  · exact hQ ⟨by omega, by omega, by omega⟩

theorem phyAddr_bit {dev : RCP_DEVICE_ID} (h : known dev slot port) :
    (phyAddr (port - 1) <<< PHY_Address_Pos).getLsbD PHY_RW_Pos = false := by
  have hports : dev.numOfPorts ≤ 32 := by cases dev <;> decide
  have hall : ∀ p < 32, (phyAddr p <<< PHY_Address_Pos).getLsbD PHY_RW_Pos = false := by decide
  exact hall _ (by have hlt := h.2.2; omega)

/-- A read finds what the writes before it leave. -/
theorem meets_getValue (h : Sound phy c) (hfree : ReadsFree c slot port phyReg) :
    Meets (RCP_GetPhyRegValue slot port phyReg) c (fun _ t => Sound phy t ∧ t.left = 0) fun _ t => Sound phy t := by
  rw [RCP_GetPhyRegValue, meets_bind]
  refine meets_port (fun hknown => ?_) h
  obtain ⟨hleft, hreg⟩ := hfree hknown
  have hread : isWrite ((phyAddr (port - 1) <<< PHY_Address_Pos) ||| phyReg) = false := by
    rw [isWrite, BitVec.getLsbD_or, phyAddr_bit hknown, Bool.false_or]
    exact hreg
  generalize (phyAddr (port - 1) <<< PHY_Address_Pos) ||| phyReg = value at *
  rw [meets_bind]
  refine meets_command hleft (fun t₁ ht₁ => ?_) fun t ht => ht.elim h.agree h.begun
  have hsound := h.begun ht₁
  rw [meets_bind]
  refine meets_waitBusy (fun t₂ ht₂ hfree₂ => ?_) fun t ht => hsound.agree ht
  rw [meets_bind]
  refine meets_read (fun t ht => (hsound.agree ht₂).agree ht) fun _ => ?_
  have hgave : t₂.found = stored phy t₂.log (addressOf value) := by
    obtain ⟨value', hlog, hwrite, -⟩ := ht₁.log
    have hfound := ht₂.found.trans (ht₁.found hread)
    rw [settle_of_free hfree₂, h.phy] at hfound
    rw [hfound, ht₂.log, hlog, stored_concat]
    dsimp only
    rw [hwrite, hread, if_neg Bool.false_ne_true]
  exact ⟨((hsound.agree ht₂).agree agree_skip).note hgave fun _ _ _ h => (Event.noConfusion h), hfree₂⟩

theorem meets_write_data {Q : Unit → Chip → Prop} {E : RCP_RET → Chip → Prop} (h : Sound phy c)
    (hfree : c.left = 0 ∨ c.next = .requestLost) (hQ : ∀ t, Sound phy t → t.data = data → Q () t)
    (hE : ∀ t, Sound phy t → E .RCP_TIMEOUT t) : Meets (RCP_Write_Reg RT8326_ACCESS_WRITE data) c Q E := by
  rw [RCP_Write_Reg, meets_bind, meets_get]
  by_cases hlost : c.next = .requestLost
  · rw [hlost]
    exact hE _ (h.agree agree_skip)
  · have hleft : c.skip.left = 0 := hfree.resolve_right hlost
    have hnote : Sound phy (c.skip.note (.data data (0 < c.skip.left))) :=
      (h.agree agree_skip).note (decide_eq_false (by omega)) fun _ _ _ h => (Event.noConfusion h)
    have hsound : Sound phy (c.skip.write RT8326_ACCESS_WRITE data) := by
      have hsettle := hnote.phy
      rw [settle_of_free (c := c.skip.note (.data data (0 < c.skip.left))) hleft] at hsettle
      refine ⟨hnote.orderly, ?_⟩
      rw [settle_of_free (c := c.skip.write RT8326_ACCESS_WRITE data) hleft]
      exact hsettle
    cases hnext : c.next with
    | requestLost => exact absurd hnext hlost
    | done => exact hQ _ hsound rfl
    | replyLost => exact hE _ hsound

theorem meets_setValue (h : Sound phy c) (hfree : WritesFree c slot port) :
    Always (RCP_SetPhyRegValue slot port phyReg data) c (Sound phy) := by
  rw [RCP_SetPhyRegValue, Always, meets_bind]
  refine meets_port (fun hknown => ?_) h
  have hwrites : isWrite ((1 <<< PHY_RW_Pos) ||| (phyAddr (port - 1) <<< PHY_Address_Pos) ||| phyReg) = true := by
    rw [isWrite, BitVec.getLsbD_or, BitVec.getLsbD_or]
    rfl
  generalize (1 <<< PHY_RW_Pos) ||| (phyAddr (port - 1) <<< PHY_Address_Pos) ||| phyReg = value at *
  rw [meets_bind]
  refine meets_write_data h (hfree hknown) (fun t₁ hsound₁ hdata₁ => ?_) fun t ht => ht
  rw [meets_bind]
  refine meets_waitBusy (fun t₂ ht₂ hfree₂ => ?_) fun t ht => hsound₁.agree ht
  have hsound₂ := hsound₁.agree ht₂
  rw [meets_bind]
  refine meets_command (.inl (by omega)) (fun t₃ ht₃ => ?_) fun t ht => ht.elim hsound₂.agree hsound₂.begun
  obtain ⟨value', hlog, hwrite, haddress⟩ := ht₃.log
  refine (hsound₂.begun ht₃).note ?_ fun _ _ _ h => (Event.noConfusion h)
  change stored phy t₃.log (addressOf value) = data
  rw [hlog, stored_concat]
  dsimp only
  rw [hwrite, hwrites, if_pos rfl, haddress, update_self, ht₂.data, hdata₁]

/-- What a call keeps that waits. -/
theorem Sound.after {request : Request} (h : Sound phy c) (hwaits : request.Waits c) : Sound phy (request.after c) := by
  cases request with
  | getValue slot port phyReg =>
    exact always_iff.mp ((meets_getValue h hwaits).imp (fun _ _ ht => ht.1) fun _ _ ht => ht)
  | setValue slot port phyReg data => exact always_iff.mp (meets_setValue h hwaits)
  | getField slot port phyReg offset length =>
    refine always_iff.mp ?_
    rw [RCP_GetPhyRegField, Always, meets_bind]
    exact (meets_getValue h hwaits).imp (fun _ _ ht => ht.1) fun _ _ ht => ht
  | setField slot port phyReg offset length data =>
    refine always_iff.mp ?_
    rw [RCP_SetPhyRegField, Always, meets_bind]
    exact (meets_getValue h hwaits).imp (fun _ _ ht => meets_setValue ht.1 fun _ => .inl ht.2) fun _ _ ht => ht

end

/-! ## The law -/

/-- In a run whose calls all find the chip free, no register is written while it is busy, and each
call gives what the writes before it left. -/
theorem the_registers_are_read_as_written (c : Chip) (requests : List Request) (hlog : c.log = [])
    (hwaits : Along Request.after Request.Waits c requests) :
    Orderly c.settle.phy (run Request.after c requests).log := by
  have hstart : Sound c.settle.phy c := by
    constructor
    · rw [hlog]
      exact traces.orderly_nil
    · rw [hlog]
      rfl
  exact (run_inv (fun _ _ hsound hw => hsound.after hw) hstart hwaits).orderly

/-- A switch with 8 ports whose PHYs are all zero. -/
def fresh (durations : List Nat) : Chip := ⟨.GH1508, fun _ => 0, 0, 0, 0, 0, durations, [], []⟩

/-- The read of the command register is the last that the write takes. -/
theorem a_write_is_read_back : Orderly (fresh [1, 2]).settle.phy
    (run Request.after (fresh [1, 2]) [.setValue 1 1 0 0x2100, .getValue 1 1 0]).log := by
  refine the_registers_are_read_as_written (fresh [1, 2]) _ rfl ⟨fun _ => .inl rfl, fun _ => ?_, trivial⟩
  refine ⟨.inl ?_, by decide⟩
  decide +kernel

/-- A write takes three reads of the busy bit. The command of the read behind it is lost. -/
theorem a_read_does_not_wait : ¬ Orderly (fresh [3]).settle.phy
    (run Request.after (fresh [3]) [.setValue 1 1 0 0x2100, .getValue 1 1 0]).log := by
  intro h
  have hlog : (run Request.after (fresh [3]) [.setValue 1 1 0 0x2100, .getValue 1 1 0]).log =
      [.data 0x2100 false, .command 0x4200 0x2100 false, .took 0x200 0x2100, .command 0x8200 0x2100 true,
        .gave 0x200 0] := by decide +kernel
  exact Bool.false_ne_true (h [.data 0x2100 false, .command 0x4200 0x2100 false, .took 0x200 0x2100]
    (.command 0x8200 0x2100 true) [.gave 0x200 0] hlog).symm

end gwdonu.phy_access
