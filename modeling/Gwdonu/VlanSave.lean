-- The VLANs as they run, saved in the EEPROM: five groups of registers, each copied in its own way,
-- and what of them the places of their bytes hold in the end.
import Gwdonu.EepromMirror
import Gwdonu.Lib.Words
import Gwdonu.VlanEnableSave

namespace gwdonu.vlan_save

open Function calls runs words rcp_registers register_fields vlans
open rcp (RCP_RET)
open eeprom_mirror (low_byte high_byte high_byte_eq_zero)
open vlan_coherence (meets_getVlanPort member_mapped vid_mapped numOfPorts_le_32)
open vlan_edits (portBits)
open vlan_table (member_addr vid_addr index_addr tag_addr)

/-! ## The program -/

def RT8326_VLAN_PRI_BASE : Nat := 0x0319

/-- One turn of a loop that splits a register in its bytes. -/
def saveWord (regAddr eeAddr : Nat) : Rcp Unit := do
  let data ← RCP_Read_Reg regAddr
  RCP_SetEepromValue eeAddr ((data &&& 0xff).setWidth 8)
  RCP_SetEepromValue (eeAddr + 1) (((data >>> 8) &&& 0xff).setWidth 8)

def RCP_SetVlanSave (vlanum : Nat) : Rcp Unit := do
  let vid ← RCP_GetVlanVID vlanum
  RCP_SetVlanVID vlanum vid .RCP_CONFIG_2_EEPROM
  forM (List.range MAX_RCP_VLAN_NUM) fun i => do
    let portlist ← RCP_GetVlanPort i
    RCP_SetVlanPort i portlist .RCP_CONFIG_2_EEPROM
  let data ← RCP_Read_Reg RT8326_VLAN_PVID_CTL_BASE
  RCP_SetEepromValue 0x17a ((data &&& 0xff).setWidth 8)
  RCP_SetEepromValue 0x17b ((data &&& 0xff00).setWidth 8)
  forM (List.range 0x2) fun i => saveWord (RT8326_VLAN_PRI_BASE + i) (0xb2 + i * 2)
  forM (List.range 0x8) fun i => saveWord (0x030c + i) (0x98 + i * 2)

/-! ## What it should leave -/

/-- The bytes that are assigned to a register are its own. -/
def Mirrored (t : State) (regAddr : Nat) : Prop :=
  (∀ f, RCP_GetEeaddrFromReg t.behind regAddr 0 8 = some f → t.eeprom f.eeAddr = low (t.reg regAddr)) ∧
    ∀ f, RCP_GetEeaddrFromReg t.behind regAddr 8 8 = some f → t.eeprom f.eeAddr = high (t.reg regAddr)

structure Saved (t : State) (vlanum : Nat) : Prop where
  vid : Mirrored t (RT8326_VLAN_VID vlanum)
  members : ∀ e < MAX_RCP_VLAN_NUM, ∀ p < 2, Mirrored t (RT8326_VLAN_PORT_MEMBER e p)
  control : Mirrored t RT8326_VLAN_PVID_CTL_BASE
  tags : ∀ q < t.dev.numOfPorts, Mirrored t (RT8326_VLAN_PRI q)
  indexes : ∀ q < t.dev.numOfPorts, Mirrored t (RT8326_VLAN_IDX q)

/-! ## When it does -/

/-- The place of the register in the table, which gives another one for the low byte of 0x0311. -/
def slot (regAddr : Nat) : Nat := 0x98 + 2 * (regAddr - 0x030C)

/-- An entry with a member among the ports 9 to 16. -/
def Far (s : State) (e : Nat) : Prop := high (s.reg (RT8326_VLAN_PORT_MEMBER e 0)) ≠ 0

/-- The EEPROM has the register already. -/
def Kept (s : State) (regAddr : Nat) : Prop := Holds slot s.eeprom regAddr (s.reg regAddr)

/-- What is lost has to be as it is already: the upper bits of the VID and of the control register
are zero; a far entry, which goes to the place of the entry 8 behind it, is like the far one that
went to its own place, or is there; and so are the registers that are not saved at all. -/
structure Spared (s : State) (vlanum : Nat) : Prop where
  vid : s.reg (RT8326_VLAN_VID vlanum) &&& 0x0fff = s.reg (RT8326_VLAN_VID vlanum)
  control : high (s.reg RT8326_VLAN_PVID_CTL_BASE) = 0
  moved : ∀ e < 24, Far s e → Far s (e + 8) →
    s.reg (RT8326_VLAN_PORT_MEMBER e 0) = s.reg (RT8326_VLAN_PORT_MEMBER (e + 8) 0)
  left : ∀ e < 32, Far s e → (e < 8 ∨ ¬ Far s (e - 8)) → Kept s (RT8326_VLAN_PORT_MEMBER e 0)
  second : ∀ e < 32, Kept s (RT8326_VLAN_PORT_MEMBER e 1)
  tags : ∀ q < s.dev.numOfPorts, 16 ≤ q → Kept s (RT8326_VLAN_PRI q)
  indexes : ∀ q < s.dev.numOfPorts, 16 ≤ q → ¬ (26 ≤ q ∧ q < 30) → Kept s (RT8326_VLAN_IDX q)
  low : 10 < s.dev.numOfPorts → s.eeprom 0x12 = low (s.reg 0x0311)

/-! ## The table -/

section
variable {r r' e q : Nat} {s t u : State} {mem : Nat → BitVec 8}

theorem eeVlan_get (behind j : Nat) (hj : j < 228) : eeVlan.getD j behind = if j = 10 then 0x12 else 0x98 + j := by
  have hget : eeVlan[j]? = some (if j = 10 then 0x12 else 0x98 + j) := by
    rw [eeVlan]
    by_cases hfirst : j < 11
    · have hall : ∀ j < 11, [0x98, 0x99, 0x9a, 0x9b, 0x9c, 0x9d, 0x9e, 0x9f, 0xa0, 0xa1, 0x12][j]? =
          some (if j = 10 then 0x12 else 0x98 + j) := by decide
      rw [List.getElem?_append_left hfirst, hall j hfirst]
    · rw [List.getElem?_append_right (Nat.le_of_not_lt hfirst), if_neg (by omega), List.getElem?_range']
      · exact congrArg some (by simp only [List.length_cons, List.length_nil]; omega)
      · simp only [List.length_cons, List.length_nil]
        omega
  rw [List.getD_eq_getElem?_getD, hget, Option.getD_some]

theorem image (behind off : Nat) (hlo : 0x030C ≤ r) (hhi : r ≤ 0x037D) :
    RCP_GetEeaddrFromReg behind r off 8 = some ⟨eeVlan.getD (eeIndex (r - 0x030C) off) behind,
      if off < 8 then off % 256 else (off % 256 + 248) % 256, 8⟩ := by
  have htable : eeTable r = some (eeVlan, r - 0x030C) := by
    rw [eeTable, if_neg (by omega), if_neg (by omega), if_neg (by omega), if_pos ⟨hlo, hhi⟩]
  unfold RCP_GetEeaddrFromReg
  rw [htable]

theorem image_low (behind : Nat) (hlo : 0x030C ≤ r) (hhi : r ≤ 0x037D) :
    RCP_GetEeaddrFromReg behind r 0 8 = some ⟨if r = 0x0311 then 0x12 else slot r, 0, 8⟩ := by
  have hindex : eeIndex (r - 0x030C) 0 = 2 * (r - 0x030C) := if_pos (by decide)
  have hplace : eeVlan.getD (2 * (r - 0x030C)) behind = if r = 0x0311 then 0x12 else slot r := by
    rw [eeVlan_get behind _ (by omega)]
    exact if_congr (by omega) rfl rfl
  rw [image behind 0 hlo hhi, hindex, hplace, if_pos (show 0 < 8 by decide)]

theorem image_high (behind : Nat) (hlo : 0x030C ≤ r) (hhi : r ≤ 0x037D) :
    RCP_GetEeaddrFromReg behind r 8 8 = some ⟨slot r + 1, 0, 8⟩ := by
  have hindex : eeIndex (r - 0x030C) 8 = 2 * (r - 0x030C) + 1 := if_neg (by decide)
  have hplace : eeVlan.getD (2 * (r - 0x030C) + 1) behind = slot r + 1 := by
    have hodd : 2 * (r - 0x030C) + 1 ≠ 10 := by omega
    have hslot : slot r + 1 = 0x98 + (2 * (r - 0x030C) + 1) := Nat.add_assoc _ _ _
    rw [hslot, eeVlan_get behind _ (by omega)]
    exact if_neg hodd
  rw [image behind 8 hlo hhi, hindex, hplace, if_neg (show ¬ 8 < 8 by decide)]

theorem mirrored_iff (hlo : 0x030C ≤ r) (hhi : r ≤ 0x037D) : Mirrored t r ↔
    t.eeprom (if r = 0x0311 then 0x12 else slot r) = low (t.reg r) ∧ t.eeprom (slot r + 1) = high (t.reg r) := by
  rw [Mirrored, image_low _ hlo hhi, image_high _ hlo hhi]
  simp only [Option.some.injEq, forall_eq']

theorem mirrored_of_ne (hlo : 0x030C ≤ r) (hhi : r ≤ 0x037D) (h : r ≠ 0x0311) :
    Mirrored t r ↔ Holds slot t.eeprom r (t.reg r) := by
  rw [mirrored_iff hlo hhi, if_neg h]
  rfl

theorem slot_add (hr : 0x030C ≤ r) : slot r + 0x0618 = 0x98 + 2 * r := by
  unfold slot
  omega

theorem spaced (hr : 0x030C ≤ r) (hr' : 0x030C ≤ r') (h : r ≠ r') : Spaced slot r r' := by
  unfold Spaced slot
  omega

/-! ## Writes to the EEPROM -/

/-- Where the calls for the EEPROM leave the rest. -/
structure After (s : State) (mem : Nat → BitVec 8) (t : State) : Prop where
  eeprom : t.eeprom = mem
  numOfPorts : t.dev.numOfPorts = s.dev.numOfPorts
  behind : t.behind = s.behind
  reg : ∀ a, a ≠ RT8326_EEPROM_RW_CTL → a ≠ RT8326_EEPROM_RW_DATA → t.reg a = s.reg a

/-- If the call returns `RCP_OK`, then as `Q` says. -/
abbrev OnOk {α : Type} (x : Rcp α) (t : State) (Q : α → State → Prop) : Prop := Meets x t Q fun _ _ => True

theorem onOk_setRegisterField {a off len : Nat} {v : BitVec 16} {Q : Unit → State → Prop} (h : After s mem t)
    (ha : a = RT8326_EEPROM_RW_CTL ∨ a = RT8326_EEPROM_RW_DATA) (hQ : ∀ u, After s mem u → Q () u) :
    OnOk (RCP_SetRegisterField a off len v) t Q := by
  have hput : Q () (t.put a (fields.put (t.reg a) v off len)) := by
    refine hQ _ ⟨h.eeprom, h.numOfPorts, h.behind, fun b hctl hdata => ?_⟩
    rw [put_reg, update_of_ne (by rintro rfl; exact ha.elim hctl hdata)]
    exact h.reg b hctl hdata
  rw [OnOk, meets_setRegisterField, meets_write]
  split_ifs
  exact hput

theorem onOk_setEepromValue {a : Nat} {v : BitVec 8} {Q : Unit → State → Prop} (h : After s mem t)
    (hQ : ∀ u, After s (update mem a v) u → Q () u) : OnOk (RCP_SetEepromValue a v) t Q := by
  rw [OnOk, RCP_SetEepromValue, meets_bind]
  refine onOk_setRegisterField h (.inr rfl) fun t ht => ?_
  rw [meets_bind]
  refine onOk_setRegisterField ht (.inl rfl) fun t ht => ?_
  rw [meets_modify]
  exact hQ _ ⟨by rw [← ht.eeprom]; rfl, ht.numOfPorts, ht.behind, ht.reg⟩

/-- A field that is the whole byte. -/
theorem onOk_setEepromField {a : Nat} {v : BitVec 8} {Q : Unit → State → Prop} (h : After s mem t)
    (hQ : ∀ u, After s (update mem a v) u → Q () u) : OnOk (RCP_SetEepromField a 0 8 v) t Q := by
  rw [OnOk, RCP_SetEepromField, meets_bind, RCP_GetEepromValue, meets_bind]
  refine onOk_setRegisterField h (.inl rfl) fun t ht => ?_
  rw [meets_bind, meets_get, meets_pure, CALC_MASK_eq (by decide)]
  change OnOk (RCP_SetEepromValue a (fields.put (t.eeprom a) v 0 8)) t Q
  rw [fields.put_all]
  exact onOk_setEepromValue ht hQ

theorem onOk_eeaddrFromReg {a off len : Nat} {f : EeField} {Q : EeField → State → Prop}
    (hf : RCP_GetEeaddrFromReg t.behind a off len = some f) (hQ : Q f t) : OnOk (eeaddrFromReg a off len) t Q := by
  rw [OnOk, meets_eeaddrFromReg hf]
  exact hQ

/-! ## The saves -/

/-- The two bytes of a register, of which the upper one is zero. -/
theorem onOk_lowSave {w : BitVec 16} {lo : BitVec 8} {Q : Unit → State → Prop} (h : After s mem t) (hlo : 0x030C ≤ r)
    (hhi : r ≤ 0x037D) (hr : r ≠ 0x0311) (hlow : lo = low w) (hzero : high w = 0)
    (hQ : ∀ u, After s (put slot mem (r, w)) u → Q () u) : OnOk (do
      let f ← eeaddrFromReg r 0 8
      RCP_SetEepromField f.eeAddr f.eeOffset f.eeLength lo
      RCP_SetEepromValue (f.eeAddr + 1) 0) t Q := by
  rw [OnOk, meets_bind]
  refine onOk_eeaddrFromReg ((image_low t.behind hlo hhi).trans (by rw [if_neg hr])) ?_
  rw [meets_bind]
  refine onOk_setEepromField h fun u hu => onOk_setEepromValue hu fun u hu => hQ u ?_
  rw [put, ← hlow, hzero]
  exact hu

/-- The two bytes of a register, by way of the upper one. -/
theorem onOk_highSave {w : BitVec 16} {lo hi : BitVec 8} {Q : Unit → State → Prop} (h : After s mem t)
    (hlo : 0x030C ≤ r) (hhi : r ≤ 0x037D) (hlow : lo = low w) (hhigh : hi = high w)
    (hQ : ∀ u, After s (put slot mem (r, w)) u → Q () u) : OnOk (do
      let f ← eeaddrFromReg r 8 8
      RCP_SetEepromValue (f.eeAddr - 1) lo
      RCP_SetEepromField f.eeAddr f.eeOffset f.eeLength hi) t Q := by
  rw [OnOk, meets_bind]
  refine onOk_eeaddrFromReg (image_high t.behind hlo hhi) ?_
  rw [meets_bind]
  refine onOk_setEepromValue h fun u hu => onOk_setEepromField hu fun u hu => hQ u ?_
  rw [put, ← hlow, ← hhigh]
  exact hu

theorem onOk_setVlanVID {v : BitVec 16} {Q : Unit → State → Prop} (h : After s mem t)
    (hQ : ∀ u, e < 32 → After s (put slot mem (RT8326_VLAN_VID e, v)) u → Q () u) :
    OnOk (RCP_SetVlanVID e v .RCP_CONFIG_2_EEPROM) t Q := by
  unfold RCP_SetVlanVID
  by_cases he : e > 31
  · rw [when_true he]
    exact trivial
  have he' : e < 32 := by omega
  obtain ⟨hlo, hhi⟩ := vid_mapped he'
  have hne : RT8326_VLAN_VID e ≠ 0x0311 := by
    rw [vid_addr (by omega)]
    omega
  rw [when_false he, when_false (by decide), when_true (by rfl), OnOk, meets_bind, meets_pure, meets_bind, meets_pure,
    meets_bind]
  have hcached : ∀ u, After s (put slot mem (RT8326_VLAN_VID e, v)) u → Q () (cacheVid u e v) := fun u hu =>
    hQ _ he' ⟨hu.eeprom, hu.numOfPorts, hu.behind, hu.reg⟩
  unfold saveVid
  split_ifs with hzero
  · exact onOk_lowSave h hlo hhi hne rfl ((high_byte_eq_zero v).mp hzero) hcached
  · exact onOk_highSave h hlo hhi (low_byte v) (high_byte v) hcached

/-- The register whose place takes the members of an entry. -/
def target (s : State) (e : Nat) : Nat :=
  RT8326_VLAN_PORT_MEMBER e (if high (s.reg (RT8326_VLAN_PORT_MEMBER e 0)) = 0 then 0 else MAX_RCP_SWITCH_TO_MANAGE)

theorem portBits_bit {i : Nat} (hi : i < 16) (dev : RCP_DEV) (reg : Nat → BitVec 16) :
    (portBits dev reg e).getLsbD i = (reg (RT8326_VLAN_PORT_MEMBER e 0)).getLsbD i := by
  unfold portBits
  split_ifs
  · rw [BitVec.getLsbD_or, BitVec.getLsbD_shiftLeft, BitVec.getLsbD_setWidth, BitVec.getLsbD_setWidth]
    simp [hi, show i < 32 by omega]
  · rw [BitVec.getLsbD_setWidth]
    simp [show i < 32 by omega]

theorem low_portBits (dev : RCP_DEV) (reg : Nat → BitVec 16) :
    (portBits dev reg e).setWidth 8 = low (reg (RT8326_VLAN_PORT_MEMBER e 0)) := by
  apply BitVec.eq_of_getLsbD_eq
  intro i hi
  rw [low, BitVec.getLsbD_setWidth, BitVec.getLsbD_setWidth, portBits_bit (by omega)]

theorem high_portBits (dev : RCP_DEV) (reg : Nat → BitVec 16) :
    (portBits dev reg e >>> 8).setWidth 8 = high (reg (RT8326_VLAN_PORT_MEMBER e 0)) := by
  apply BitVec.eq_of_getLsbD_eq
  intro i hi
  rw [high, BitVec.getLsbD_setWidth, BitVec.getLsbD_setWidth, BitVec.getLsbD_ushiftRight, BitVec.getLsbD_ushiftRight,
    portBits_bit (by omega)]

/-- The members of an entry go to the place of their target. -/
theorem onOk_setVlanPort {dev : RCP_DEV} {Q : Unit → State → Prop} (h : After s mem t) (he : e < 32)
    (hQ : ∀ u, target s e ≤ 0x037D →
      After s (put slot mem (target s e, s.reg (RT8326_VLAN_PORT_MEMBER e 0))) u → Q () u) :
    OnOk (RCP_SetVlanPort e (portBits dev s.reg e) .RCP_CONFIG_2_EEPROM) t Q := by
  obtain ⟨hlo, hhi⟩ := member_mapped he
  have hne : RT8326_VLAN_PORT_MEMBER e 0 ≠ 0x0311 := by
    rw [member_addr (by omega) (by decide)]
    omega
  unfold RCP_SetVlanPort
  rw [when_false (by omega), when_false (by decide), when_true (by rfl), OnOk, meets_bind, meets_pure, meets_bind,
    meets_pure, meets_bind]
  have hcached : ∀ u, target s e ≤ 0x037D →
      After s (put slot mem (target s e, s.reg (RT8326_VLAN_PORT_MEMBER e 0))) u →
      Q () (cachePort u e (portBits dev s.reg e)) := fun u hle hu =>
    hQ _ hle ⟨hu.eeprom, hu.numOfPorts, hu.behind, hu.reg⟩
  have hzero : (portBits dev s.reg e &&& 0xff00) >>> 8 = 0 ↔ high (s.reg (RT8326_VLAN_PORT_MEMBER e 0)) = 0 := by
    rw [high_byte_eq_zero, high_portBits]
  unfold saveMembers
  split_ifs with hfar
  · have htarget : target s e = RT8326_VLAN_PORT_MEMBER e 0 := by rw [target, if_pos (hzero.mp hfar)]
    rw [htarget] at hcached
    exact onOk_lowSave h hlo hhi hne (low_portBits dev s.reg) (hzero.mp hfar) fun u hu => hcached u hhi hu
  · have htarget : target s e = RT8326_VLAN_PORT_MEMBER e MAX_RCP_SWITCH_TO_MANAGE := by
      rw [target, if_neg (mt hzero.mpr hfar)]
    have haddr : RT8326_VLAN_PORT_MEMBER e MAX_RCP_SWITCH_TO_MANAGE = 0x0335 + 3 * e := by
      rw [RT8326_VLAN_PORT_MEMBER, MAX_RCP_SWITCH_TO_MANAGE]
      omega
    rw [htarget] at hcached
    by_cases hle : RT8326_VLAN_PORT_MEMBER e MAX_RCP_SWITCH_TO_MANAGE ≤ 0x037D
    · refine onOk_highSave h (by omega) hle ?_ ?_ fun u hu => hcached u hle hu
      · rw [low_byte, low_portBits]
      · rw [high_byte, high_portBits]
    · rw [meets_bind, eeaddrFromReg, meets_bind, meets_get, vlan_coherence.not_mapped (by omega) (by omega)]
      exact trivial

/-! ## The call -/

theorem eeprom_addr (hlo : 0x030C ≤ r) : r ≠ RT8326_EEPROM_RW_CTL ∧ r ≠ RT8326_EEPROM_RW_DATA := by
  rw [RT8326_EEPROM_RW_CTL, RT8326_EEPROM_RW_DATA]
  omega

theorem After.reg_eq (h : After s mem t) (hlo : 0x030C ≤ r) : t.reg r = s.reg r :=
  h.reg r (eeprom_addr hlo).1 (eeprom_addr hlo).2

theorem onOk_saveWord {a : Nat} {Q : Unit → State → Prop} (h : After s mem t) (hlo : 0x030C ≤ r) (ha : slot r = a)
    (hQ : ∀ u, After s (put slot mem (r, s.reg r)) u → Q () u) : OnOk (saveWord r a) t Q := by
  subst ha
  rw [OnOk, saveWord, meets_bind, meets_read, h.reg_eq hlo, meets_bind]
  refine onOk_setEepromValue h fun u hu => onOk_setEepromValue hu fun u hu => hQ u ?_
  have hhigh : ((s.reg r >>> 8) &&& 0xff).setWidth 8 = high (s.reg r) := low_byte _
  rw [low_byte, hhigh] at hu
  exact hu

def memberWrites (s : State) (l : List Nat) : List (Nat × BitVec 16) :=
  l.map fun e => (target s e, s.reg (RT8326_VLAN_PORT_MEMBER e 0))

/-- So many registers from one on, each in its place. -/
def copies (s : State) (regAddr : Nat) (l : List Nat) : List (Nat × BitVec 16) :=
  l.map fun i => (regAddr + i, s.reg (regAddr + i))

def vidWrite (s : State) (vlanum : Nat) : Nat × BitVec 16 :=
  (RT8326_VLAN_VID vlanum, fields.get (s.reg (RT8326_VLAN_VID vlanum)) 0 12)

/-- All that is written, with the registers whose places take it. -/
def saved (s : State) (vlanum : Nat) : List (Nat × BitVec 16) :=
  [vidWrite s vlanum] ++ memberWrites s (List.range 32) ++
    [(RT8326_VLAN_PVID_CTL_BASE, s.reg RT8326_VLAN_PVID_CTL_BASE &&& 0xff)] ++
    copies s RT8326_VLAN_PRI_BASE (List.range 2) ++ copies s 0x030C (List.range 8)

theorem After.portBits_eq (h : After s mem t) (he : e < 32) : portBits t.dev t.reg e = portBits t.dev s.reg e := by
  have hmember : ∀ p ≤ 1, 0x030C ≤ RT8326_VLAN_PORT_MEMBER e p := fun p hp => by
    rw [member_addr (by omega) hp]
    omega
  rw [portBits, portBits, h.reg_eq (hmember 0 (by decide)), h.reg_eq (hmember 1 (by decide))]

theorem onOk_members (h : After s mem t) : OnOk (forM (List.range MAX_RCP_VLAN_NUM) fun i => do
      let portlist ← RCP_GetVlanPort i
      RCP_SetVlanPort i portlist .RCP_CONFIG_2_EEPROM) t fun _ u =>
    (∀ e < 32, target s e ≤ 0x037D) ∧ After s (run (put slot) mem (memberWrites s (List.range 32))) u := by
  refine Meets.imp (E := fun _ _ => True) (meets_forM (fun done u => (∀ e ∈ done, target s e ≤ 0x037D) ∧
    After s (run (put slot) mem (memberWrites s done)) u) ?_ ⟨fun _ hmem => absurd hmem List.not_mem_nil, h⟩)
    (fun _ u hu => ⟨fun e he => hu.1 e (List.mem_range.mpr he), hu.2⟩) fun _ _ _ => trivial
  rintro done e rest heq u ⟨hdone, hu⟩
  have he : e < 32 := by
    have hmem : e ∈ List.range MAX_RCP_VLAN_NUM := heq ▸ List.mem_append_right _ List.mem_cons_self
    exact List.mem_range.mp hmem
  rw [meets_bind, meets_getVlanPort, hu.portBits_eq he]
  refine onOk_setVlanPort hu he fun u' hle hu' => ⟨?_, ?_⟩
  · intro e' he'
    obtain hmem | hlast := List.mem_append.mp he'
    · exact hdone e' hmem
    · rwa [List.mem_singleton.mp hlast]
  · rw [memberWrites, List.map_append, run_append]
    exact hu'

theorem onOk_copies (base a n : Nat) (h : After s mem t) (hlo : 0x030C ≤ base) (ha : slot base = a) :
    OnOk (forM (List.range n) fun i => saveWord (base + i) (a + i * 2)) t fun _ u =>
      After s (run (put slot) mem (copies s base (List.range n))) u := by
  refine meets_forM (fun done u => After s (run (put slot) mem (copies s base done)) u) ?_ h
  intro done i rest heq u hu
  have hplace : slot (base + i) = a + i * 2 := by
    have hbase := slot_add hlo
    have hnext := slot_add (Nat.le_add_right_of_le hlo : 0x030C ≤ base + i)
    omega
  refine onOk_saveWord hu (by omega) hplace fun u' hu' => ?_
  rw [copies, List.map_append, run_append]
  exact hu'

theorem high_masked (w : BitVec 16) : high (w &&& 0xff) = 0 := by
  refine high_eq_zero_of_lt ?_
  rw [BitVec.toNat_and]
  exact Nat.lt_of_le_of_lt Nat.and_le_right (by decide)

/-- What is left of the upper byte, when it is not shifted down. -/
theorem upper_byte (w : BitVec 16) : (w &&& 0xff00).setWidth 8 = (0 : BitVec 8) := by
  apply BitVec.eq_of_getLsbD_eq
  intro i hi
  have hbit : ∀ i < 8, BitVec.getLsbD (0xff00 : BitVec 16) i = false := by decide
  rw [BitVec.getLsbD_setWidth, BitVec.getLsbD_and, hbit i hi, Bool.and_false, Bool.and_false]
  exact (BitVec.getLsbD_zero ..).symm

theorem onOk_save (s : State) (vlanum : Nat) : OnOk (RCP_SetVlanSave vlanum) s fun _ t =>
    vlanum < 32 ∧ (∀ e < 32, target s e ≤ 0x037D) ∧ After s (run (put slot) s.eeprom (saved s vlanum)) t := by
  have hstart : After s s.eeprom s := ⟨rfl, rfl, rfl, fun _ _ _ => rfl⟩
  rw [OnOk, RCP_SetVlanSave, meets_bind, RCP_GetVlanVID, meets_getRegField, meets_bind]
  refine onOk_setVlanVID hstart fun t hv ht => ?_
  rw [meets_bind]
  refine (onOk_members ht).imp ?_ fun _ _ h => h
  rintro _ t ⟨htarget, ht⟩
  have hctl : 0x030C ≤ RT8326_VLAN_PVID_CTL_BASE := by decide
  rw [meets_bind, meets_read, ht.reg_eq hctl, meets_bind]
  refine onOk_setEepromValue ht fun t ht => ?_
  rw [meets_bind]
  refine onOk_setEepromValue ht fun t ht => ?_
  have hcontrol : After s (run (put slot) s.eeprom ([vidWrite s vlanum] ++ memberWrites s (List.range 32) ++
      [(RT8326_VLAN_PVID_CTL_BASE, s.reg RT8326_VLAN_PVID_CTL_BASE &&& 0xff)])) t := by
    have hplace : slot RT8326_VLAN_PVID_CTL_BASE = 0x17a := by decide
    rw [upper_byte] at ht
    rw [run_append, run_append, run_cons, run_nil, put, high_masked, hplace]
    exact ht
  rw [meets_bind]
  refine (onOk_copies RT8326_VLAN_PRI_BASE 0xb2 2 hcontrol (by decide) (by decide)).imp (fun _ t ht => ?_)
    fun _ _ h => h
  refine (onOk_copies 0x030C 0x98 8 ht (by decide) (by decide)).imp (fun _ t ht => ⟨hv, htarget, ?_⟩) fun _ _ h => h
  rw [saved, run_append, run_append]
  exact ht

/-! ## What the places hold -/

theorem target_near (he : e < 32) (h : ¬ Far s e) : target s e = 0x031D + 3 * e := by
  rw [target, if_pos (not_not.mp h), member_addr (by omega) (by decide), Nat.add_zero]

theorem target_far (he : e < 32) (h : Far s e) : target s e = 0x0335 + 3 * e := by
  rw [target, if_neg h, RT8326_VLAN_PORT_MEMBER, MAX_RCP_SWITCH_TO_MANAGE]
  omega

/-- The members go to places of members. -/
theorem target_member (he : e < 32) : ∃ k, e ≤ k ∧ target s e = 0x031D + 3 * k := by
  by_cases h : Far s e
  · exact ⟨e + 8, by omega, by rw [target_far he h]; omega⟩
  · exact ⟨e, le_rfl, target_near he h⟩

theorem spaced_copies {base : Nat} {l : List Nat} (hr : 0x030C ≤ r) (hbase : 0x030C ≤ base)
    (h : ∀ i ∈ l, r ≠ base + i) : ∀ x ∈ copies s base l, Spaced slot r x.1 := by
  intro x hx
  obtain ⟨i, hi, rfl⟩ := List.mem_map.mp hx
  exact spaced hr (by omega) (h i hi)

theorem spaced_members {l : List Nat} (hr : 0x030C ≤ r) (hl : ∀ e ∈ l, e < 32) (h : ∀ e ∈ l, r ≠ target s e) :
    ∀ x ∈ memberWrites s l, Spaced slot r x.1 := by
  intro x hx
  obtain ⟨e, he, rfl⟩ := List.mem_map.mp hx
  obtain ⟨k, -, hk⟩ := target_member (s := s) (hl e he)
  exact spaced hr (by rw [hk]; omega) (h e he)

theorem holds_copies {base n i : Nat} {w : BitVec 16} (hbase : 0x030C ≤ base) (hi : i < n) :
    Holds slot (run (put slot) mem (copies s base (List.range n))) (base + i) w ↔ s.reg (base + i) = w := by
  have hspaced : ∀ x ∈ copies s base (List.range' (i + 1) (n - (i + 1))), Spaced slot (base + i) x.1 :=
    spaced_copies (by omega) hbase fun j hj => by
      have hlt := List.mem_range'_1.mp hj
      omega
  rw [range_cut hi, copies, List.map_append, List.map_cons]
  exact holds_run_last hspaced

/-- The writes behind the one to the control register. -/
theorem holds_behind_control {vlanum : Nat} {w : BitVec 16} (hr : 0x0314 ≤ r) (htag : r ≠ 0x0319 ∧ r ≠ 0x031A) :
    Holds slot (run (put slot) s.eeprom (saved s vlanum)) r w ↔
      Holds slot (put slot (run (put slot) (put slot s.eeprom (vidWrite s vlanum)) (memberWrites s (List.range 32)))
        (RT8326_VLAN_PVID_CTL_BASE, s.reg RT8326_VLAN_PVID_CTL_BASE &&& 0xff)) r w := by
  have hlo : 0x030C ≤ r := by omega
  have hindex : ∀ i ∈ List.range 8, r ≠ 0x030C + i := fun i hi => by
    have hlt := List.mem_range.mp hi
    omega
  have htag : ∀ i ∈ List.range 2, r ≠ RT8326_VLAN_PRI_BASE + i := fun i hi => by
    have hlt := List.mem_range.mp hi
    rw [RT8326_VLAN_PRI_BASE]
    omega
  rw [saved, run_append, run_append, run_append, run_append, holds_run_other (spaced_copies hlo le_rfl hindex),
    holds_run_other (spaced_copies hlo (by decide) htag), run_cons, run_nil, run_cons, run_nil]

/-- The writes behind the ones to the members. -/
theorem holds_behind_members {vlanum : Nat} {w : BitVec 16} (hr : 0x0314 ≤ r) (htag : r ≠ 0x0319 ∧ r ≠ 0x031A)
    (hctl : r ≠ 0x037D) : Holds slot (run (put slot) s.eeprom (saved s vlanum)) r w ↔
      Holds slot (run (put slot) (put slot s.eeprom (vidWrite s vlanum)) (memberWrites s (List.range 32))) r w := by
  have hne : r ≠ RT8326_VLAN_PVID_CTL_BASE := hctl
  rw [holds_behind_control hr htag, holds_put_other (spaced (by omega) (by decide) hne)]

theorem holds_vid {vlanum : Nat} {w : BitVec 16} (hv : vlanum < 32) :
    Holds slot (run (put slot) s.eeprom (saved s vlanum)) (RT8326_VLAN_VID vlanum) w ↔
      fields.get (s.reg (RT8326_VLAN_VID vlanum)) 0 12 = w := by
  have haddr := vid_addr (e := vlanum) (by omega)
  rw [holds_behind_members (by omega) (by omega) (by omega),
    holds_run_other (spaced_members (by omega) (fun e => List.mem_range.mp) fun e he => ?_), vidWrite, holds_put]
  obtain ⟨k, -, hk⟩ := target_member (s := s) (List.mem_range.mp he)
  omega

/-- The second register of the members is not saved. -/
theorem holds_second {vlanum : Nat} {w : BitVec 16} (hv : vlanum < 32) (he : e < 32) :
    Holds slot (run (put slot) s.eeprom (saved s vlanum)) (RT8326_VLAN_PORT_MEMBER e 1) w ↔
      Holds slot s.eeprom (RT8326_VLAN_PORT_MEMBER e 1) w := by
  have haddr := member_addr (e := e) (q := 1) (by omega) le_rfl
  have hvid := vid_addr (e := vlanum) (by omega)
  rw [holds_behind_members (by omega) (by omega) (by omega),
    holds_run_other (spaced_members (by omega) (fun e => List.mem_range.mp) fun e he => ?_), vidWrite,
    holds_put_other (spaced (by omega) (by omega) (by omega))]
  obtain ⟨k, -, hk⟩ := target_member (s := s) (List.mem_range.mp he)
  omega

theorem holds_control {vlanum : Nat} {w : BitVec 16} :
    Holds slot (run (put slot) s.eeprom (saved s vlanum)) RT8326_VLAN_PVID_CTL_BASE w ↔
      s.reg RT8326_VLAN_PVID_CTL_BASE &&& 0xff = w := by
  rw [holds_behind_control (by decide) (by decide), holds_put]

/-- A register that is not among those that are saved. -/
theorem holds_unsaved {vlanum : Nat} {w : BitVec 16} (hv : vlanum < 32) (hr : 0x0314 ≤ r ∧ r ≤ 0x031C)
    (htag : r ≠ 0x0319 ∧ r ≠ 0x031A) :
    Holds slot (run (put slot) s.eeprom (saved s vlanum)) r w ↔ Holds slot s.eeprom r w := by
  have hvid := vid_addr (e := vlanum) (by omega)
  rw [holds_behind_members hr.1 htag (by omega),
    holds_run_other (spaced_members (by omega) (fun e => List.mem_range.mp) fun e he => ?_), vidWrite,
    holds_put_other (spaced (by omega) (by omega) (by omega))]
  obtain ⟨k, -, hk⟩ := target_member (s := s) (List.mem_range.mp he)
  omega

theorem holds_tag {vlanum i : Nat} {w : BitVec 16} (hi : i < 2) :
    Holds slot (run (put slot) s.eeprom (saved s vlanum)) (RT8326_VLAN_PRI_BASE + i) w ↔
      s.reg (RT8326_VLAN_PRI_BASE + i) = w := by
  have hlo : 0x030C ≤ RT8326_VLAN_PRI_BASE + i := by
    rw [RT8326_VLAN_PRI_BASE]
    omega
  rw [saved, run_append, run_append, holds_run_other (spaced_copies hlo le_rfl fun j hj => ?_),
    holds_copies (by decide) hi]
  have hlt := List.mem_range.mp hj
  rw [RT8326_VLAN_PRI_BASE]
  omega

theorem holds_index {vlanum i : Nat} {w : BitVec 16} (hi : i < 8) :
    Holds slot (run (put slot) s.eeprom (saved s vlanum)) (0x030C + i) w ↔ s.reg (0x030C + i) = w := by
  rw [saved, run_append, holds_copies le_rfl hi]

/-! ## The members -/

theorem holds_first {vlanum : Nat} {w : BitVec 16} (he : e < 32) :
    Holds slot (run (put slot) s.eeprom (saved s vlanum)) (RT8326_VLAN_PORT_MEMBER e 0) w ↔
      Holds slot (run (put slot) (put slot s.eeprom (vidWrite s vlanum)) (memberWrites s (List.range 32)))
        (RT8326_VLAN_PORT_MEMBER e 0) w := by
  have haddr := member_addr (e := e) (q := 0) (by omega) (by decide)
  exact holds_behind_members (by omega) (by omega) (by omega)

/-- The entry `i` goes to the place of `e`, and none behind it does. -/
theorem holds_from {w : BitVec 16} {i : Nat} (he : e < 32) (hi : i < 32)
    (htarget : target s i = RT8326_VLAN_PORT_MEMBER e 0)
    (hlast : ∀ j < 32, i < j → target s j ≠ RT8326_VLAN_PORT_MEMBER e 0) :
    Holds slot (run (put slot) mem (memberWrites s (List.range 32))) (RT8326_VLAN_PORT_MEMBER e 0) w ↔
      s.reg (RT8326_VLAN_PORT_MEMBER i 0) = w := by
  have haddr := member_addr (e := e) (q := 0) (by omega) (by decide)
  have hrest : ∀ j ∈ List.range' (i + 1) (32 - (i + 1)), i < j ∧ j < 32 := fun j hj => by
    have hlt := List.mem_range'_1.mp hj
    omega
  have hspaced : ∀ x ∈ memberWrites s (List.range' (i + 1) (32 - (i + 1))),
      Spaced slot (RT8326_VLAN_PORT_MEMBER e 0) x.1 :=
    spaced_members (by omega) (fun j hj => (hrest j hj).2) fun j hj => (hlast j (hrest j hj).2 (hrest j hj).1).symm
  rw [range_cut hi, memberWrites, List.map_append, List.map_cons, htarget]
  exact holds_run_last hspaced

theorem holds_near {vlanum : Nat} {w : BitVec 16} (he : e < 32) (h : ¬ Far s e) :
    Holds slot (run (put slot) s.eeprom (saved s vlanum)) (RT8326_VLAN_PORT_MEMBER e 0) w ↔
      s.reg (RT8326_VLAN_PORT_MEMBER e 0) = w := by
  have haddr := member_addr (e := e) (q := 0) (by omega) (by decide)
  rw [holds_first he]
  refine holds_from he he ((target_near he h).trans haddr.symm) fun j hj hlt => ?_
  obtain ⟨k, hle, hk⟩ := target_member (s := s) hj
  omega

theorem holds_moved {vlanum : Nat} {w : BitVec 16} (he : e + 8 < 32) (h : Far s e) (h' : Far s (e + 8)) :
    Holds slot (run (put slot) s.eeprom (saved s vlanum)) (RT8326_VLAN_PORT_MEMBER (e + 8) 0) w ↔
      s.reg (RT8326_VLAN_PORT_MEMBER e 0) = w := by
  have haddr := member_addr (e := e + 8) (q := 0) (by omega) (by decide)
  have htarget := target_far (by omega) h
  rw [holds_first he]
  refine holds_from he (by omega) (by omega) fun j hj hlt => ?_
  by_cases hj' : Far s j
  · rw [target_far hj hj']
    omega
  · rw [target_near hj hj', haddr]
    have hne : j ≠ e + 8 := fun heq => hj' (heq ▸ h')
    omega

theorem holds_left {vlanum : Nat} {w : BitVec 16} (hv : vlanum < 32) (he : e < 32) (h : Far s e)
    (hno : e < 8 ∨ ¬ Far s (e - 8)) :
    Holds slot (run (put slot) s.eeprom (saved s vlanum)) (RT8326_VLAN_PORT_MEMBER e 0) w ↔
      Holds slot s.eeprom (RT8326_VLAN_PORT_MEMBER e 0) w := by
  have haddr := member_addr (e := e) (q := 0) (by omega) (by decide)
  have hvid := vid_addr (e := vlanum) (by omega)
  rw [holds_first he, holds_run_other (spaced_members (by omega) (fun j => List.mem_range.mp) fun j hj => ?_), vidWrite,
    holds_put_other (spaced (by omega) (by omega) (by omega))]
  have hj := List.mem_range.mp hj
  by_cases hj' : Far s j
  · rw [target_far hj hj']
    have hne : ¬ (8 ≤ e ∧ j = e - 8) := fun heq => hno.elim (by omega) fun hno => hno (heq.2 ▸ hj')
    omega
  · rw [target_near hj hj']
    have hne : j ≠ e := fun heq => hj' (heq ▸ h)
    omega

/-! ## The law -/

theorem masked_vid {w : BitVec 16} : fields.get w 0 12 = w ↔ w &&& 0x0fff = w := by
  have hmask : fields.mask 16 0 12 = 0x0fff := by decide
  rw [fields.get, hmask, BitVec.ushiftRight_zero]

theorem masked_control {w : BitVec 16} : w &&& 0xff = w ↔ high w = 0 := by
  rw [ext_iff, high_masked]
  exact ⟨fun h => h.2.symm, fun h => ⟨low_byte w, h.symm⟩⟩

theorem mirrored_members {vlanum : Nat} (hv : vlanum < 32) (ht : t.eeprom = run (put slot) s.eeprom (saved s vlanum))
    (hreg : ∀ r, 0x030C ≤ r → t.reg r = s.reg r) : (∀ e < 32, ∀ p < 2, Mirrored t (RT8326_VLAN_PORT_MEMBER e p)) ↔
      (∀ e < 24, Far s e → Far s (e + 8) →
        s.reg (RT8326_VLAN_PORT_MEMBER e 0) = s.reg (RT8326_VLAN_PORT_MEMBER (e + 8) 0)) ∧
      (∀ e < 32, Far s e → (e < 8 ∨ ¬ Far s (e - 8)) → Kept s (RT8326_VLAN_PORT_MEMBER e 0)) ∧
      ∀ e < 32, Kept s (RT8326_VLAN_PORT_MEMBER e 1) := by
  have hmember : ∀ e < 32, ∀ p < 2, Mirrored t (RT8326_VLAN_PORT_MEMBER e p) ↔
      Holds slot (run (put slot) s.eeprom (saved s vlanum)) (RT8326_VLAN_PORT_MEMBER e p)
        (s.reg (RT8326_VLAN_PORT_MEMBER e p)) := fun e he p hp => by
    have haddr := member_addr (e := e) (q := p) (by omega) (by omega)
    rw [mirrored_of_ne (by omega) (by omega) (by omega), hreg _ (by omega), ht]
  constructor
  · intro h
    refine ⟨fun e he hfar hfar' => ?_, fun e he hfar hno => ?_, fun e he => ?_⟩
    · have hnext := (hmember (e + 8) (by omega) 0 (by decide)).mp (h _ (by omega) 0 (by decide))
      exact (holds_moved (by omega) hfar hfar').mp hnext
    · exact (holds_left hv he hfar hno).mp ((hmember e he 0 (by decide)).mp (h e he 0 (by decide)))
    · exact (holds_second hv he).mp ((hmember e he 1 (by decide)).mp (h e he 1 (by decide)))
  · rintro ⟨hmoved, hleft, hsecond⟩ e he p hp
    refine (hmember e he p hp).mpr ?_
    obtain rfl | rfl : p = 0 ∨ p = 1 := by omega
    · by_cases hfar : Far s e
      · by_cases hno : e < 8 ∨ ¬ Far s (e - 8)
        · exact (holds_left hv he hfar hno).mpr (hleft e he hfar hno)
        · obtain ⟨hle, hfar'⟩ := not_or.mp hno
          obtain ⟨i, rfl⟩ := Nat.exists_eq_add_of_le' (Nat.not_lt.mp hle)
          rw [Nat.add_sub_cancel, not_not] at hfar'
          exact (holds_moved he hfar' hfar).mpr (hmoved i (by omega) hfar' hfar)
      · exact (holds_near he hfar).mpr rfl
    · exact (holds_second hv he).mpr (hsecond e he)

/-! ## The ports -/

theorem mirrored_tag {vlanum : Nat} (hv : vlanum < 32) (ht : t.eeprom = run (put slot) s.eeprom (saved s vlanum))
    (hreg : ∀ r, 0x030C ≤ r → t.reg r = s.reg r) (hq : q < 32) :
    Mirrored t (RT8326_VLAN_PRI q) ↔ (16 ≤ q → Kept s (RT8326_VLAN_PRI q)) := by
  have haddr := tag_addr q
  rw [mirrored_of_ne (by omega) (by omega) (by omega), hreg _ (by omega), ht]
  by_cases hfirst : q < 16
  · have hsaved : RT8326_VLAN_PRI q = RT8326_VLAN_PRI_BASE + q / 8 := haddr
    rw [hsaved, holds_tag (by omega)]
    exact iff_of_true rfl fun h => absurd hfirst (Nat.not_lt.mpr h)
  · rw [holds_unsaved hv (by omega) (by omega)]
    exact ⟨fun h _ => h, fun h => h (Nat.not_lt.mp hfirst)⟩

/-- The low byte of the register 0x0311 is assigned a place that is not written to. -/
theorem mirrored_low {vlanum : Nat} (ht : t.eeprom = run (put slot) s.eeprom (saved s vlanum))
    (hreg : ∀ r, 0x030C ≤ r → t.reg r = s.reg r) : Mirrored t 0x0311 ↔ s.eeprom 0x12 = low (s.reg 0x0311) := by
  have hhigh : Holds slot t.eeprom (0x030C + 5) (s.reg (0x030C + 5)) := by
    rw [ht]
    exact (holds_index (by decide)).mpr rfl
  have hlow : t.eeprom 0x12 = s.eeprom 0x12 := by
    rw [ht]
    refine run_byte fun x _ => ?_
    unfold slot
    omega
  rw [mirrored_iff (by decide) (by decide), if_pos rfl, hreg _ (by decide), hlow]
  exact and_iff_left hhigh.2

theorem mirrored_index {vlanum : Nat} (hv : vlanum < 32) (ht : t.eeprom = run (put slot) s.eeprom (saved s vlanum))
    (hreg : ∀ r, 0x030C ≤ r → t.reg r = s.reg r) (hq : q < 32) (hlow : q / 2 ≠ 5) :
    Mirrored t (RT8326_VLAN_IDX q) ↔ (16 ≤ q → ¬ (26 ≤ q ∧ q < 30) → Kept s (RT8326_VLAN_IDX q)) := by
  have haddr := index_addr q
  rw [mirrored_of_ne (by omega) (by omega) (by omega), hreg _ (by omega), ht]
  by_cases hfirst : q < 16
  · rw [haddr, holds_index (by omega)]
    exact iff_of_true rfl fun h => absurd hfirst (Nat.not_lt.mpr h)
  by_cases htag : 26 ≤ q ∧ q < 30
  · -- these two registers are tag registers as well
    have hsaved : RT8326_VLAN_IDX q = RT8326_VLAN_PRI_BASE + (q / 2 - 13) := by
      rw [haddr, RT8326_VLAN_PRI_BASE]
      omega
    rw [hsaved, holds_tag (by omega)]
    exact iff_of_true rfl fun _ h => absurd htag h
  · rw [holds_unsaved hv (by omega) (by omega)]
    exact ⟨fun h _ _ => h, fun h => h (Nat.not_lt.mp hfirst) htag⟩

/-! ## The law -/

theorem saved_iff {vlanum : Nat} (hv : vlanum < 32) (ht : After s (run (put slot) s.eeprom (saved s vlanum)) t) :
    Saved t vlanum ↔ Spared s vlanum := by
  have hreg : ∀ r, 0x030C ≤ r → t.reg r = s.reg r := fun r hr => ht.reg_eq hr
  have hmax : s.dev.numOfPorts ≤ 32 := numOfPorts_le_32 s.dev.deviceId
  have hnum := ht.numOfPorts
  have hvid : Mirrored t (RT8326_VLAN_VID vlanum) ↔
      s.reg (RT8326_VLAN_VID vlanum) &&& 0x0fff = s.reg (RT8326_VLAN_VID vlanum) := by
    have haddr := vid_addr (e := vlanum) (by omega)
    rw [mirrored_of_ne (by omega) (by omega) (by omega), hreg _ (by omega), ht.eeprom, holds_vid hv, masked_vid]
  have hcontrol : Mirrored t RT8326_VLAN_PVID_CTL_BASE ↔ high (s.reg RT8326_VLAN_PVID_CTL_BASE) = 0 := by
    rw [mirrored_of_ne (by decide) (by decide) (by decide), hreg _ (by decide), ht.eeprom, holds_control,
      masked_control]
  have hmembers := mirrored_members hv ht.eeprom hreg
  have htag : ∀ q < s.dev.numOfPorts, _ := fun q hq => mirrored_tag (q := q) hv ht.eeprom hreg (by omega)
  have hindex : ∀ q < s.dev.numOfPorts, q / 2 ≠ 5 → _ := fun q hq hne =>
    mirrored_index (q := q) hv ht.eeprom hreg (by omega) hne
  have hlow : ∀ q, q / 2 = 5 → (Mirrored t (RT8326_VLAN_IDX q) ↔ s.eeprom 0x12 = low (s.reg 0x0311)) := by
    intro q hq
    rw [index_addr, hq]
    exact mirrored_low ht.eeprom hreg
  constructor
  · intro h
    obtain ⟨hmoved, hleft, hsecond⟩ := hmembers.mp h.members
    refine ⟨hvid.mp h.vid, hcontrol.mp h.control, hmoved, hleft, hsecond, fun q hq => ?_, fun q hq hlo hno => ?_,
      fun h10 => ?_⟩
    · exact (htag q hq).mp (h.tags q (by omega))
    · exact (hindex q hq (by omega)).mp (h.indexes q (by omega)) hlo hno
    · exact (hlow 10 (by decide)).mp (h.indexes 10 (by omega))
  · intro h
    refine ⟨hvid.mpr h.vid, hmembers.mpr ⟨h.moved, h.left, h.second⟩, hcontrol.mpr h.control, fun q hq => ?_,
      fun q hq => ?_⟩
    · exact (htag q (by omega)).mpr (h.tags q (by omega))
    · by_cases hq5 : q / 2 = 5
      · exact (hlow q hq5).mpr (h.low (by omega))
      · exact (hindex q (by omega) hq5).mpr (h.indexes q (by omega))

end

/-! ## When it returns `RCP_OK` -/

/-- The entries behind 24 that are far have no place, and they are what fails. -/
theorem gives_save {s : State} {vlanum : Nat} (hs : s.Faithful) (hv : vlanum < 32)
    (h : ∀ e < 32, 24 < e → ¬ Far s e) : Gives (RCP_SetVlanSave vlanum) s fun _ _ => True := by
  let I : State → Prop := fun u => vlan_enable_save.Fair s.dev.deviceId u ∧ ∃ mem, After s mem u
  have hstart : After s s.eeprom s := ⟨rfl, rfl, rfl, fun _ _ _ => rfl⟩
  have hkept : ∀ a v u, I u → Gives (RCP_SetEepromValue a v) u fun _ u => I u := by
    rintro a v u ⟨hfair, mem, hu⟩
    exact ((vlan_enable_save.works_setEepromValue u hfair).and (onOk_setEepromValue hu fun _ hu => hu)).imp
      (fun _ _ ht => ⟨ht.1.2, _, ht.2⟩) fun _ _ h => h.1
  have hword : ∀ r a u, I u → Gives (saveWord r a) u fun _ u => I u := fun r a u hu => by
    rw [saveWord, Gives, meets_bind, meets_read, meets_bind]
    exact (hkept _ _ u hu).imp (fun _ u hu => hkept _ _ u hu) fun _ _ h => h
  have hmember : ∀ e ∈ List.range MAX_RCP_VLAN_NUM, ∀ u, I u → Gives (do
      let portlist ← RCP_GetVlanPort e
      RCP_SetVlanPort e portlist .RCP_CONFIG_2_EEPROM) u fun _ u => I u := by
    rintro e he u ⟨hfair, mem, hu⟩
    have he : e < 32 := List.mem_range.mp he
    have hlow : vlan_enable_save.Low (portBits u.dev s.reg e) ∨ e ≤ 24 := by
      by_cases hbehind : 24 < e
      · have hnear : high (s.reg (RT8326_VLAN_PORT_MEMBER e 0)) = 0 := not_not.mp (h e he hbehind)
        left
        rw [vlan_enable_save.Low, high_byte_eq_zero, high_portBits, hnear]
      · exact .inr (Nat.not_lt.mp hbehind)
    rw [Gives, meets_bind, meets_getVlanPort, hu.portBits_eq he]
    exact ((vlan_enable_save.works_setVlanPort he hlow u hfair).and
      (onOk_setVlanPort hu he fun _ _ hu => hu)).imp (fun _ _ ht => ⟨ht.1.2, _, ht.2⟩) fun _ _ h => h.1
  rw [Gives, RCP_SetVlanSave, meets_bind, RCP_GetVlanVID, meets_getRegField, meets_bind]
  have hvid : ∀ v, OnOk (RCP_SetVlanVID vlanum v .RCP_CONFIG_2_EEPROM) s fun _ u => ∃ mem, After s mem u :=
    fun v => onOk_setVlanVID hstart fun _ _ hu => ⟨_, hu⟩
  refine ((vlan_enable_save.works_setVlanVID hv s ⟨rfl, hs⟩).and (hvid _)).imp (fun _ u hu => ?_) fun _ _ h => h.1
  have hu : I u := ⟨hu.1.2, hu.2⟩
  rw [meets_bind]
  refine (meets_forM_inv hmember hu).imp (fun _ u hu => ?_) fun _ _ h => h
  rw [meets_bind, meets_read, meets_bind]
  refine (hkept _ _ u hu).imp (fun _ u hu => ?_) fun _ _ h => h
  rw [meets_bind]
  refine (hkept _ _ u hu).imp (fun _ u hu => ?_) fun _ _ h => h
  rw [meets_bind]
  refine (meets_forM_inv (fun i _ u hu => hword _ _ u hu) hu).imp (fun _ u hu => ?_) fun _ _ h => h
  exact (meets_forM_inv (fun i _ u hu => hword _ _ u hu) hu).imp (fun _ _ _ => trivial) fun _ _ h => h

/-- When the call returns `RCP_OK`, the EEPROM has what runs exactly if nothing of it is lost. -/
theorem what_runs_is_saved_iff_it_is_spared (s : State) (vlanum : Nat) :
    OnOk (RCP_SetVlanSave vlanum) s fun _ t => Saved t vlanum ↔ Spared s vlanum :=
  (onOk_save s vlanum).imp (fun _ _ ⟨hv, _, ht⟩ => saved_iff hv ht) fun _ _ h => h

/-- Where something is lost, it is nowhere. -/
theorem unsaved {s : State} {vlanum : Nat} (hs : s.Faithful) (hv : vlanum < 32) (h : ∀ e < 32, 24 < e → ¬ Far s e)
    (hnot : ¬ Spared s vlanum) : ∃ t, RCP_SetVlanSave vlanum s = .ok () t ∧ ¬ Saved t vlanum := by
  have hends := (gives_save hs hv h).and (onOk_save s vlanum)
  obtain ⟨_, t, hok, -, -, -, ht⟩ := Gives.exists (hends.imp (fun _ _ h => h) fun _ _ h => h.1)
  exact ⟨t, hok, fun hsaved => hnot ((saved_iff hv ht).mp hsaved)⟩

/-- A switch with a bit set for port 9 in the control register, and no other anywhere. -/
def port9 : State := { uniform .GH1516 0 with reg := update (fun _ => 0) RT8326_VLAN_PVID_CTL_BASE 0x0100 }

theorem port9_reg (a : Nat) : port9.reg a = if a = RT8326_VLAN_PVID_CTL_BASE then 0x0100 else 0 :=
  update_apply (f := fun _ => 0) ..

/-- The bit for port 9 is not saved. -/
theorem the_upper_control_byte_is_lost :
    port9.Faithful ∧ ∃ t, RCP_SetVlanSave 0 port9 = .ok () t ∧ ¬ Saved t 0 := by
  have hfaithful : port9.Faithful := fun _ => fun _ => rfl
  refine ⟨hfaithful, unsaved hfaithful (by decide) (fun e he _ hfar => ?_) fun h => ?_⟩
  · have haddr := member_addr (e := e) (q := 0) (by omega) (by decide)
    have hne : RT8326_VLAN_PORT_MEMBER e 0 ≠ RT8326_VLAN_PVID_CTL_BASE := by
      rw [haddr, RT8326_VLAN_PVID_CTL_BASE]
      omega
    rw [Far, port9_reg, if_neg hne] at hfar
    exact hfar (by decide)
  · have hcontrol := h.control
    rw [port9_reg, if_pos rfl] at hcontrol
    exact absurd hcontrol (by decide)

end gwdonu.vlan_save
