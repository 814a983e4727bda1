-- The mirror of the registers in the EEPROM: a byte of a register has a byte there, by
-- tables that are written by hand.
import Gwdonu.Vlans
import Mathlib.Data.List.GetD

namespace gwdonu.eeprom_mirror

open Function calls rcp_registers register_fields vlans
open rcp (RCP_RET)

/-! ## The law -/

def InByte (off len : Nat) : Prop := 1 ≤ len ∧ (off + len ≤ 8 ∨ 8 ≤ off ∧ off + len ≤ 16)

instance (off len : Nat) : Decidable (InByte off len) := inferInstanceAs (Decidable (_ ∧ _))

/-- The table of the register has an entry for the byte. -/
def InRange (r off : Nat) : Prop :=
  match eeTable r with
  | some (table, i) => eeIndex i off < table.length
  | none => True

instance (r off : Nat) : Decidable (InRange r off) := by
  unfold InRange
  split <;> infer_instance

/-- A field in a byte of a register, with its image. -/
structure Mapped (behind r off len : Nat) (f : EeField) : Prop where
  inByte : InByte off len
  inRange : InRange r off
  image : RCP_GetEeaddrFromReg behind r off len = some f

def EeField.content (f : EeField) (mem : Nat → BitVec 8) : BitVec 8 :=
  fields.get (mem f.eeAddr) f.eeOffset f.eeLength

/-- The field has its place in a table, its byte is the image of no other one, and what is
set for it is stored in its image and changes no other image. -/
structure Mirrored (r off len : Nat) : Prop where
  inRange : InRange r off
  apart : ∀ behind r' off' len' f f', RCP_GetEeaddrFromReg behind r off len = some f →
    Mapped behind r' off' len' f' → (r', off' / 8) ≠ (r, off / 8) → f'.eeAddr ≠ f.eeAddr
  stored : ∀ (s : State) (data : BitVec 16) (f : EeField), s.Faithful → data.toNat < 2 ^ len →
    RCP_GetEeaddrFromReg s.behind r off len = some f →
    Gives (RCP_SetRegField r off len data .RCP_CONFIG_2_EEPROM) s fun _ t =>
      EeField.content f t.eeprom = data.setWidth 8 ∧
      ∀ r' off' len' f', Mapped s.behind r' off' len' f' →
        r' ≠ r ∨ off + len ≤ off' ∨ off' + len' ≤ off →
        EeField.content f' t.eeprom = EeField.content f' s.eeprom

/-- Both bytes of four registers have one image, so have the low bytes of two others, one
byte is behind its table, and one offset is not taken modulo 8. -/
def Good (r off : Nat) : Prop :=
  r ≠ 0x0300 ∧ r ≠ 0x0308 ∧ r ≠ 0x030B ∧ r ≠ 0x0607 ∧ (off < 8 → r ≠ 0x0203 ∧ r ≠ 0x0311) ∧
    (8 ≤ off → r ≠ 0x0608 ∧ r ≠ 0x0611)

instance (r off : Nat) : Decidable (Good r off) := inferInstanceAs (Decidable (_ ∧ _))

/-- The call changes the two bytes of the register's image, to these 16 bits. -/
def TwoBytes (r : Nat) (x : Rcp Unit) (data : BitVec 16) : Prop :=
  ∀ (s : State) (low high : EeField), s.Faithful → RCP_GetEeaddrFromReg s.behind r 0 8 = some low →
    RCP_GetEeaddrFromReg s.behind r 8 8 = some high →
    Gives x s fun _ t =>
      t.eeprom = update (update s.eeprom low.eeAddr (data.setWidth 8)) high.eeAddr ((data >>> 8).setWidth 8)

/-! ## The images -/

/-- The image of a byte. -/
def imageAddr (b : Nat × Nat) : Nat := (RCP_GetEeaddrFromReg 0 b.1 (8 * b.2) 1).elim 0 EeField.eeAddr

def imageBit (b : Nat × Nat) : Nat := 1 <<< imageAddr b

def mappedRegs : List Nat :=
  List.range' 0x0200 9 ++ List.range' 0x020A 8 ++ List.range' 0x0219 5 ++ [0x0300, 0x0308, 0x030B] ++
    List.range' 0x030C 114 ++ List.range' 0x0400 3 ++ [0x0607, 0x0608] ++ List.range' 0x060A 8

def mappedBytes : List (Nat × Nat) := (mappedRegs.product [0, 1]).filter fun b => decide (InRange b.1 (8 * b.2))

section
variable {behind r off len r' off' len' : Nat} {f f' : EeField}

theorem InByte.lt (h : InByte off len) : off < 16 ∧ off % 8 + len ≤ 8 := by
  obtain ⟨hlen, h | h⟩ := h <;> omega

theorem eeIndex_byte (h : InByte off len) (i : Nat) : eeIndex i (8 * (off / 8)) = eeIndex i off := by
  have hlt := h.lt.1
  rw [eeIndex, eeIndex]
  by_cases hoff : off < 8
  · rw [if_pos hoff, if_pos (by omega)]
  · rw [if_neg hoff, if_neg (by omega)]

theorem inRange_byte (h : InByte off len) : InRange r (8 * (off / 8)) ↔ InRange r off := by
  rw [InRange, InRange]
  split
  · rw [eeIndex_byte h]
  · rfl

/-- What the mapping gives for a field. -/
theorem image_eq (hbyte : InByte off len) (hrange : InRange r off)
    (h : RCP_GetEeaddrFromReg behind r off len = some f) :
    f.eeAddr = imageAddr (r, off / 8) ∧ f.eeLength = len ∧ (Good r off → f.eeOffset = off % 8) ∧
      (RCP_GetEeaddrFromReg 0 r (8 * (off / 8)) 1).isSome = true := by
  obtain ⟨hlt, hfit⟩ := hbyte.lt
  have hlen : len % 256 = len := by omega
  have hoff : off % 256 = off := by omega
  have hsmall : 8 * (off / 8) < 8 ↔ off < 8 := by omega
  rw [imageAddr]
  unfold RCP_GetEeaddrFromReg at h ⊢
  unfold InRange at hrange
  cases htable : eeTable r with
  | some p =>
    obtain ⟨table, i⟩ := p
    simp only [htable] at h hrange ⊢
    obtain rfl := Option.some.inj h
    refine ⟨?_, hlen, fun _ => ?_, rfl⟩
    · rw [Option.elim_some, eeIndex_byte hbyte, List.getD_eq_getElem _ _ hrange, List.getD_eq_getElem _ _ hrange]
    · dsimp only
      rw [hoff]
      split_ifs <;> omega
  | none =>
    simp only [htable] at h ⊢
    split at h
    case h_1 | h_2 | h_3 | h_4 =>
      obtain rfl := Option.some.inj h
      exact ⟨rfl, hlen, fun hgood => absurd hgood (by simp [Good]), rfl⟩
    case h_5 =>
      obtain rfl := Option.some.inj h
      refine ⟨by simp only [Option.elim_some, hsmall], hlen, fun hgood => ?_, rfl⟩
      have hlow : off < 8 := by
        by_contra hhigh
        exact (hgood.2.2.2.2.2 (by omega)).1 rfl
      change off % 256 = off % 8
      omega
    case h_6 => cases h

theorem isSome_behind (behind behind' r off len off' len' : Nat) :
    (RCP_GetEeaddrFromReg behind r off len).isSome = (RCP_GetEeaddrFromReg behind' r off' len').isSome := by
  unfold RCP_GetEeaddrFromReg
  cases eeTable r with
  | some p => rfl
  | none =>
    dsimp only
    split <;> rfl

theorem mem_mappedRegs_of_table {p : List Nat × Nat} (h : eeTable r = some p) : r ∈ mappedRegs := by
  unfold eeTable at h
  simp only [mappedRegs, List.mem_append, List.mem_range'_1]
  split_ifs at h <;> omega

theorem mem_mappedRegs (h : RCP_GetEeaddrFromReg behind r off len = some f) : r ∈ mappedRegs := by
  unfold RCP_GetEeaddrFromReg at h
  cases htable : eeTable r with
  | some p => exact mem_mappedRegs_of_table htable
  | none =>
    simp only [htable] at h
    split at h
    case h_6 => cases h
    all_goals decide

theorem nodup_mappedRegs : mappedRegs.Nodup :=
  (List.isChain_iff_pairwise.mp (show mappedRegs.IsChain (· < ·) by decide +kernel)).imp Nat.ne_of_lt

theorem mem_mappedBytes (hbyte : InByte off len) (hrange : InRange r off)
    (h : RCP_GetEeaddrFromReg behind r off len = some f) : (r, off / 8) ∈ mappedBytes := by
  have hlt := hbyte.lt.1
  rw [mappedBytes, List.mem_filter, List.pair_mem_product, decide_eq_true_eq, inRange_byte hbyte]
  refine ⟨⟨mem_mappedRegs h, ?_⟩, hrange⟩
  rw [List.mem_cons, List.mem_singleton]
  omega

theorem nodup_mappedBytes : mappedBytes.Nodup :=
  (nodup_mappedRegs.product (by decide)).filter _

theorem good_checked : ∀ b ∈ mappedBytes, Good b.1 (8 * b.2) ↔
    imageBit b &&& (fields.cover (mappedBytes.map imageBit)).2 = 0 ∧ b ≠ (0x0608, 1) := by
  decide +kernel

theorem good_byte (hoff : off < 16) : Good r off ↔ Good r (8 * (off / 8)) := by
  have hlow : 8 * (off / 8) < 8 ↔ off < 8 := by omega
  have hhigh : 8 ≤ 8 * (off / 8) ↔ 8 ≤ off := by omega
  rw [Good, Good, hlow, hhigh]

/-- The bytes that have an image of their own. -/
theorem good_iff (hoff : off < 16) (h : (r, off / 8) ∈ mappedBytes) : Good r off ↔
    (∀ b ∈ mappedBytes, b ≠ (r, off / 8) → imageAddr b ≠ imageAddr (r, off / 8)) ∧
      (r, off / 8) ≠ (0x0608, 1) := by
  rw [good_byte hoff, good_checked (r, off / 8) h, fields.and_cover_eq_zero nodup_mappedBytes h]
  refine and_congr_left fun _ => forall₃_congr fun b _ _ => ?_
  simp only [imageBit, Nat.one_shiftLeft, Nat.testBit_two_pow, decide_eq_true_eq, decide_eq_false_iff_not]
  exact ⟨fun h heq => h _ rfl heq, fun h k hk heq => h (heq.trans hk.symm)⟩

theorem exists_mapped {b : Nat × Nat} (h : b ∈ mappedBytes) :
    b.2 < 2 ∧ ∃ f, Mapped 0 b.1 (8 * b.2) 1 f ∧ f.eeAddr = imageAddr b := by
  obtain ⟨r, k⟩ := b
  rw [mappedBytes, List.mem_filter, List.pair_mem_product, decide_eq_true_eq, List.mem_cons, List.mem_singleton] at h
  obtain ⟨⟨hreg, hk⟩, hrange⟩ := h
  have hall : ∀ r ∈ mappedRegs, (RCP_GetEeaddrFromReg 0 r 0 1).isSome = true := by decide +kernel
  have hsome := hall r hreg
  rw [isSome_behind 0 0 r 0 1 (8 * k) 1] at hsome
  obtain ⟨f, hf⟩ := Option.isSome_iff_exists.mp hsome
  refine ⟨by dsimp only; omega, f, ⟨⟨le_rfl, by dsimp only; omega⟩, hrange, hf⟩, ?_⟩
  rw [imageAddr, hf, Option.elim_some]

/-- Of a good byte, no other byte has the image. -/
theorem Mapped.apart (hbyte : InByte off len) (hrange : InRange r off)
    (h : RCP_GetEeaddrFromReg behind r off len = some f) (hgood : Good r off)
    (h' : Mapped behind r' off' len' f') (heq : f'.eeAddr = f.eeAddr) : (r', off' / 8) = (r, off / 8) := by
  by_contra hne
  refine ((good_iff hbyte.lt.1 (mem_mappedBytes hbyte hrange h)).mp hgood).1 _
    (mem_mappedBytes h'.inByte h'.inRange h'.image) hne ?_
  rw [← (image_eq hbyte hrange h).1, ← (image_eq h'.inByte h'.inRange h'.image).1, heq]

/-! ## What is stored -/

variable {s : State} {data : BitVec 16}

/-- The EEPROM after a field was set there. -/
theorem gives_setRegField_eeprom (hs : s.Faithful) (h : RCP_GetEeaddrFromReg s.behind r off len = some f) :
    Gives (RCP_SetRegField r off len data .RCP_CONFIG_2_EEPROM) s fun _ t =>
      t.eeprom = update s.eeprom f.eeAddr
        (fields.put (s.eeprom f.eeAddr) (data.setWidth 8) f.eeOffset f.eeLength) := by
  have hto : RCP_FLAG.RCP_CONFIG_2_EEPROM.toEeprom = true := rfl
  have hnot : ¬ RCP_FLAG.RCP_CONFIG_2_EEPROM.toRegister = true := nofun
  rw [RCP_SetRegField, Gives, when_true hto, when_false hnot, meets_bind, meets_bind, meets_eeaddrFromReg h]
  refine (gives_setEepromField (hs _) (hs _)).imp ?_ fun _ _ h => h
  intro _ t ht
  exact ht.eeprom

theorem mirrored_of_good (hbyte : InByte off len) (hrange : InRange r off) (hgood : Good r off) :
    Mirrored r off len := by
  refine ⟨hrange, ?_, ?_⟩
  · intro behind r' off' len' f f' hf hf' hne heq
    exact hne (Mapped.apart hbyte hrange hf hgood hf' heq)
  · intro s data f hs hdata hf
    obtain ⟨-, hlength, hoffset, -⟩ := image_eq hbyte hrange hf
    have hfit := hbyte.lt.2
    refine (gives_setRegField_eeprom hs hf).imp ?_ fun _ _ h => h
    intro _ t ht
    refine ⟨?_, ?_⟩
    · rw [EeField.content, ht, update_self, hlength, hoffset hgood]
      refine fields.get_put _ _ hfit ?_
      rw [BitVec.toNat_setWidth]
      exact Nat.lt_of_le_of_lt (Nat.mod_le _ _) hdata
    · intro r' off' len' f' hf' hother
      rw [EeField.content, EeField.content, ht]
      by_cases haddr : f'.eeAddr = f.eeAddr
      · have hsame := Mapped.apart hbyte hrange hf hgood hf' haddr
        obtain ⟨rfl, hbytes⟩ := Prod.mk.inj hsame
        have hgood' : Good r' off' := by
          have hoff := hf'.inByte.lt.1
          rw [good_iff hoff (mem_mappedBytes hf'.inByte hf'.inRange hf'.image), hbytes]
          exact (good_iff hbyte.lt.1 (mem_mappedBytes hbyte hrange hf)).mp hgood
        obtain ⟨-, hlength', hoffset', -⟩ := image_eq hf'.inByte hf'.inRange hf'.image
        have hfit' := hf'.inByte.lt.2
        rw [haddr, update_self, hlength', hoffset' hgood', hlength, hoffset hgood]
        refine fields.get_put_other _ _ fun i hi hlo hhi hin => ?_
        omega
      · rw [update_of_ne haddr]

/-- An EEPROM with the same content in all bytes. -/
def blank (d : RCP_DEVICE_ID) : State := uniform d 0

theorem good_of_mirrored (hbyte : InByte off len) (h : RCP_GetEeaddrFromReg 0 r off len = some f)
    (hmirrored : Mirrored r off len) : Good r off := by
  have hrange := hmirrored.inRange
  rw [good_iff hbyte.lt.1 (mem_mappedBytes hbyte hrange h)]
  refine ⟨?_, ?_⟩
  · intro b hb hne heq
    obtain ⟨hk, f', hf', haddr⟩ := exists_mapped hb
    refine hmirrored.apart 0 b.1 (8 * b.2) 1 f f' h hf' ?_ ?_
    · rw [Nat.mul_div_cancel_left _ (by decide)]
      exact hne
    · rw [haddr, heq, (image_eq hbyte hrange h).1]
  · intro heq
    obtain ⟨rfl, hhigh⟩ := Prod.mk.inj heq
    have hoff : 8 ≤ off := by omega
    have hlt := hbyte.lt.1
    have hone : (1#16).toNat < 2 ^ len := Nat.one_lt_two_pow (by have := hbyte.1; omega)
    obtain ⟨_, t, -, hcontent, -⟩ := (hmirrored.stored (blank .GH1508) 1 f (fun _ _ => rfl) hone h).exists
    have hoffset : f.eeOffset = off := by
      change some (EeField.mk _ (off % 256) _) = some f at h
      rw [← Option.some.inj h]
      exact Nat.mod_eq_of_lt (by omega)
    rw [EeField.content, fields.get_of_le _ (by omega)] at hcontent
    cases hcontent

end

/-! ## The entries of the VLANs -/

theorem eeTable_vlan {i : Nat} (hi : i < 114) : eeTable (0x030C + i) = some (eeVlan, i) := by
  unfold eeTable
  rw [if_neg (by omega), if_neg (by omega), if_neg (by omega), if_pos (by omega), Nat.add_sub_cancel_left]

/-- From its register 6 on, the table has the bytes in a row. -/
theorem vlan_image {i : Nat} (hi : i < 114) (h6 : 6 ≤ i) (behind : Nat) :
    RCP_GetEeaddrFromReg behind (0x030C + i) 0 8 = some ⟨0x98 + 2 * i, 0, 8⟩ ∧
      RCP_GetEeaddrFromReg behind (0x030C + i) 8 8 = some ⟨0x98 + 2 * i + 1, 0, 8⟩ := by
  have hall : ∀ i < 114, 6 ≤ i → eeVlan[2 * i]? = some (0x98 + 2 * i) ∧
      eeVlan[2 * i + 1]? = some (0x98 + 2 * i + 1) := by decide +kernel
  obtain ⟨hlow, hhigh⟩ := hall i hi h6
  unfold RCP_GetEeaddrFromReg
  rw [eeTable_vlan hi]
  simp [eeIndex, List.getD_eq_getElem?_getD, hlow, hhigh]

section
variable {s : State} {r : Nat} {f : EeField} {v w : BitVec 8}

/-- The first byte as a field, then the one behind it. -/
theorem gives_saveLow (hs : s.Faithful) {a : Nat} (h : RCP_GetEeaddrFromReg s.behind r 0 8 = some ⟨a, 0, 8⟩) :
    Gives (do
      let f ← eeaddrFromReg r 0 8
      RCP_SetEepromField f.eeAddr f.eeOffset f.eeLength v
      RCP_SetEepromValue (f.eeAddr + 1) w) s fun _ t =>
        Stored s (update (update s.eeprom a v) (a + 1) w) t := by
  rw [Gives, meets_bind, meets_eeaddrFromReg h, meets_bind]
  refine (gives_setEepromField (hs _) (hs _)).imp ?_ fun _ _ h => h
  intro _ t ht
  rw [fields.put_all] at ht
  refine (gives_setEepromValue (ht.sure (hs _)) (ht.sure (hs _))).imp ?_ fun _ _ h => h
  intro _ u hu
  rw [ht.eeprom] at hu
  exact ht.trans hu

/-- The byte before, then the second byte as a field. -/
theorem gives_saveHigh (hs : s.Faithful) {a : Nat}
    (h : RCP_GetEeaddrFromReg s.behind r 8 8 = some ⟨a + 1, 0, 8⟩) :
    Gives (do
      let f ← eeaddrFromReg r 8 8
      RCP_SetEepromValue (f.eeAddr - 1) v
      RCP_SetEepromField f.eeAddr f.eeOffset f.eeLength w) s fun _ t =>
        Stored s (update (update s.eeprom a v) (a + 1) w) t := by
  rw [Gives, meets_bind, meets_eeaddrFromReg h, meets_bind]
  refine (gives_setEepromValue (hs _) (hs _)).imp ?_ fun _ _ h => h
  intro _ t ht
  refine (gives_setEepromField (ht.sure (hs _)) (ht.sure (hs _))).imp ?_ fun _ _ h => h
  intro _ u hu
  rw [fields.put_all, ht.eeprom] at hu
  exact ht.trans hu

end

/-! ### The bytes of a mask -/

section
variable {w : Nat} (data : BitVec w)

theorem low_byte : (data &&& 0xff).setWidth 8 = data.setWidth 8 := by
  apply BitVec.eq_of_getLsbD_eq
  intro i hi
  have hbit : ∀ i < 8, Nat.testBit 0xff i = true := by decide
  have hlt : data.getLsbD i = true → i < w := BitVec.lt_of_getLsbD
  simp only [BitVec.getLsbD_setWidth, BitVec.getLsbD_and, BitVec.ofNat_eq_ofNat, BitVec.getLsbD_ofNat, hbit i hi]
  grind

theorem high_byte : ((data &&& 0xff00) >>> 8).setWidth 8 = (data >>> 8).setWidth 8 := by
  apply BitVec.eq_of_getLsbD_eq
  intro i hi
  have hbit : ∀ i < 8, Nat.testBit 0xff00 (8 + i) = true := by decide
  have hlt : data.getLsbD (8 + i) = true → 8 + i < w := BitVec.lt_of_getLsbD
  simp only [BitVec.getLsbD_setWidth, BitVec.getLsbD_ushiftRight, BitVec.getLsbD_and, BitVec.ofNat_eq_ofNat,
    BitVec.getLsbD_ofNat, hbit i hi]
  grind

theorem high_byte_eq_zero : (data &&& 0xff00) >>> 8 = 0 ↔ (data >>> 8).setWidth 8 = (0 : BitVec 8) := by
  constructor
  · intro h
    rw [← high_byte, h]
    simp
  · intro h
    apply BitVec.eq_of_getLsbD_eq
    intro i hi
    rw [BitVec.getLsbD_ushiftRight, BitVec.getLsbD_and, BitVec.ofNat_eq_ofNat, BitVec.getLsbD_ofNat]
    by_cases hlt : i < 8
    · have hbit := congrArg (BitVec.getLsbD · i) h
      simp [hlt] at hbit
      simp [hbit]
    · have hbit : Nat.testBit 0xff00 (8 + i) = false :=
        Nat.testBit_lt_two_pow (Nat.lt_of_lt_of_le (show 0xff00 < 2 ^ 16 by decide)
          (Nat.pow_le_pow_right (by decide) (by omega)))
      simp [hbit]

theorem mask_eq_zero : data &&& 0xff00 = 0 ↔ (data &&& 0xff00) >>> 8 = 0 := by
  constructor
  · intro h
    rw [h]
    simp
  · intro h
    apply BitVec.eq_of_getLsbD_eq
    intro i hi
    by_cases hlt : i < 8
    · have hbit : ∀ i < 8, Nat.testBit 0xff00 i = false := by decide
      rw [BitVec.getLsbD_and, BitVec.ofNat_eq_ofNat, BitVec.getLsbD_ofNat, hbit i hlt]
      simp
    · have hbit := congrArg (BitVec.getLsbD · (i - 8)) h
      simp only [BitVec.getLsbD_ushiftRight] at hbit
      rw [Nat.add_sub_cancel' (Nat.not_lt.mp hlt)] at hbit
      rw [hbit]
      simp

theorem narrow_high_byte (data : BitVec 32) : ((data.setWidth 16) >>> 8).setWidth 8 = (data >>> 8).setWidth 8 := by
  apply BitVec.eq_of_getLsbD_eq
  intro i hi
  have hlt : 8 + i < 16 := by omega
  simp [hlt]

end

section
variable {s : State} {r e : Nat}

theorem member_eq (he : e ≤ 31) : RT8326_VLAN_PORT_MEMBER e 0 = 0x030C + (0x11 + 3 * e) := by
  rw [RT8326_VLAN_PORT_MEMBER]
  omega

theorem vid_eq (he : e ≤ 31) : RT8326_VLAN_VID e = 0x030C + (0x13 + 3 * e) := by
  rw [RT8326_VLAN_VID]
  omega

theorem saveVid_stored (hs : s.Faithful) (he : e ≤ 31) (data : BitVec 16) :
    Gives (saveVid e data) s fun _ t =>
      Stored s (update (update s.eeprom (0x98 + 2 * (0x13 + 3 * e)) (data.setWidth 8))
        (0x98 + 2 * (0x13 + 3 * e) + 1) ((data >>> 8).setWidth 8)) t := by
  obtain ⟨hlow, hhigh⟩ := vlan_image (i := 0x13 + 3 * e) (by omega) (by omega) s.behind
  rw [← vid_eq he] at hlow hhigh
  rw [saveVid]
  split_ifs with hzero
  · rw [(high_byte_eq_zero data).mp hzero]
    exact gives_saveLow hs hlow
  · rw [low_byte, high_byte]
    exact gives_saveHigh hs hhigh

theorem saveMembers_stored (hs : s.Faithful) (he : e ≤ 31) {data : BitVec 32} (hzero : (data &&& 0xff00) >>> 8 = 0) :
    Gives (saveMembers e data) s fun _ t =>
      Stored s (update (update s.eeprom (0x98 + 2 * (0x11 + 3 * e)) (data.setWidth 8))
        (0x98 + 2 * (0x11 + 3 * e) + 1) 0) t := by
  obtain ⟨hlow, -⟩ := vlan_image (i := 0x11 + 3 * e) (by omega) (by omega) s.behind
  rw [← member_eq he] at hlow
  rw [saveMembers, if_pos hzero]
  exact gives_saveLow hs hlow

/-! ## The VLAN calls -/

theorem vid_twoBytes (he : e ≤ 31) (data : BitVec 16) :
    TwoBytes (RT8326_VLAN_VID e) (RCP_SetVlanVID e data .RCP_CONFIG_2_EEPROM) data := by
  intro s low high hs hlow hhigh
  have himage := vlan_image (i := 0x13 + 3 * e) (by omega) (by omega) s.behind
  rw [← vid_eq he, hlow, hhigh] at himage
  obtain ⟨rfl, rfl⟩ := And.imp Option.some.inj Option.some.inj himage
  have hnot : ¬ RCP_FLAG.RCP_CONFIG_2_EEPROM.toRegister = true := nofun
  have hto : RCP_FLAG.RCP_CONFIG_2_EEPROM.toEeprom = true := rfl
  rw [RCP_SetVlanVID, Gives, meets_bind, when_false (by omega), meets_pure, meets_bind, when_false hnot, meets_pure,
    meets_bind, when_true hto]
  refine (saveVid_stored hs he data).imp ?_ fun _ _ h => h
  intro _ t ht
  rw [meets_modify]
  exact ht.eeprom

theorem port_twoBytes (he : e ≤ 31) {data : BitVec 32} (h : data &&& 0xff00 = 0) :
    TwoBytes (RT8326_VLAN_PORT_MEMBER e 0) (RCP_SetVlanPort e data .RCP_CONFIG_2_EEPROM) (data.setWidth 16) := by
  intro s low high hs hlow hhigh
  have hzero := (mask_eq_zero data).mp h
  have himage := vlan_image (i := 0x11 + 3 * e) (by omega) (by omega) s.behind
  rw [← member_eq he, hlow, hhigh] at himage
  obtain ⟨rfl, rfl⟩ := And.imp Option.some.inj Option.some.inj himage
  have hnot : ¬ RCP_FLAG.RCP_CONFIG_2_EEPROM.toRegister = true := nofun
  have hto : RCP_FLAG.RCP_CONFIG_2_EEPROM.toEeprom = true := rfl
  rw [RCP_SetVlanPort, Gives, meets_bind, when_false (by omega), meets_pure, meets_bind, when_false hnot, meets_pure,
    meets_bind, when_true hto]
  refine (saveMembers_stored hs he hzero).imp ?_ fun _ _ h => h
  intro _ t ht
  rw [meets_modify]
  rw [BitVec.setWidth_setWidth_of_le _ (by decide), narrow_high_byte, (high_byte_eq_zero data).mp hzero]
  exact ht.eeprom

/-- With a member among the ports 9 to 16, the second byte of the entry stays as it was. -/
theorem not_port_twoBytes (he : e ≤ 31) {data : BitVec 32} (h : data &&& 0xff00 ≠ 0) :
    ¬ TwoBytes (RT8326_VLAN_PORT_MEMBER e 0) (RCP_SetVlanPort e data .RCP_CONFIG_2_EEPROM) (data.setWidth 16) := by
  intro htwo
  have hzero := mt (mask_eq_zero data).mpr h
  obtain ⟨hlow, hhigh⟩ := vlan_image (i := 0x11 + 3 * e) (by omega) (by omega) 0
  rw [← member_eq he] at hlow hhigh
  have hset := htwo (blank .GH1508) _ _ (fun _ _ => rfl) hlow hhigh
  have hnot : ¬ RCP_FLAG.RCP_CONFIG_2_EEPROM.toRegister = true := nofun
  have hto : RCP_FLAG.RCP_CONFIG_2_EEPROM.toEeprom = true := rfl
  rw [RCP_SetVlanPort, Gives, meets_bind, when_false (by omega), meets_pure, meets_bind, when_false hnot, meets_pure,
    meets_bind, when_true hto, saveMembers, if_neg hzero] at hset
  by_cases hlast : e ≤ 24
  · have hother : RT8326_VLAN_PORT_MEMBER e MAX_RCP_SWITCH_TO_MANAGE = 0x030C + (0x29 + 3 * e) := by
      rw [RT8326_VLAN_PORT_MEMBER, MAX_RCP_SWITCH_TO_MANAGE]
      omega
    have himage := (vlan_image (i := 0x29 + 3 * e) (by omega) (by omega) 0).2
    rw [← hother] at himage
    obtain ⟨_, t, hstored, ht⟩ := Gives.both (gives_saveHigh (fun _ _ => rfl) himage) hset
    rw [meets_modify] at ht
    have hbyte := congrFun (hstored.eeprom.symm.trans ht) (0x98 + 2 * (0x11 + 3 * e) + 1)
    rw [update_self, update_of_ne (by omega), update_of_ne (by omega), narrow_high_byte] at hbyte
    exact hzero ((high_byte_eq_zero data).mpr hbyte.symm)
  · have hnone : ∀ e < 32, 24 < e →
        RCP_GetEeaddrFromReg 0 (RT8326_VLAN_PORT_MEMBER e MAX_RCP_SWITCH_TO_MANAGE) 8 8 = none := by decide +kernel
    rw [meets_bind, eeaddrFromReg, meets_bind, meets_get] at hset
    simp only [blank, uniform, hnone e (by omega) (by omega), meets_throw] at hset

end

theorem inRange_of_good {behind r off len : Nat} {f : EeField} (hbyte : InByte off len)
    (h : RCP_GetEeaddrFromReg behind r off len = some f) (hgood : Good r off) : InRange r off := by
  have hall : ∀ r ∈ mappedRegs, ∀ k < 2, Good r (8 * k) → InRange r (8 * k) := by decide +kernel
  have hlt := hbyte.lt.1
  rw [← inRange_byte hbyte]
  refine hall r (mem_mappedRegs h) (off / 8) (by omega) ?_
  rwa [← good_byte hlt]

/-- The low bytes of the index register of the ports 11 and 12 and of the first register of
the MAC have the same image. -/
theorem a_port_index_overwrites_the_mac :
    RCP_GetEeaddrFromReg 0 0x0203 0 8 = some ⟨0x12, 0, 8⟩ ∧
      RCP_GetEeaddrFromReg 0 0x0311 0 8 = some ⟨0x12, 0, 8⟩ ∧ ¬ Mirrored 0x0311 0 8 := by
  refine ⟨by decide, by decide, fun h => ?_⟩
  exact h.apart 0 0x0203 0 8 ⟨0x12, 0, 8⟩ ⟨0x12, 0, 8⟩ (by decide) ⟨by decide, by decide, by decide⟩ (by decide) rfl

/-- A field is mirrored just when its byte is good, the members of a VLAN just when none of
them is among the ports 9 to 16, and a VID always. -/
theorem a_field_is_mirrored_iff_its_byte_is_good (behind r off len : Nat) (f : EeField) (hbyte : InByte off len)
    (hf : RCP_GetEeaddrFromReg behind r off len = some f) (e : Nat) (he : e ≤ 31) (data : BitVec 32)
    (vid : BitVec 16) :
    (Mirrored r off len ↔ Good r off) ∧
    (TwoBytes (RT8326_VLAN_PORT_MEMBER e 0) (RCP_SetVlanPort e data .RCP_CONFIG_2_EEPROM) (data.setWidth 16) ↔
      data &&& 0xff00 = 0) ∧
    TwoBytes (RT8326_VLAN_VID e) (RCP_SetVlanVID e vid .RCP_CONFIG_2_EEPROM) vid := by
  refine ⟨?_, ?_, vid_twoBytes he vid⟩
  · have hsome : (RCP_GetEeaddrFromReg 0 r off len).isSome = true := by
      rw [isSome_behind 0 behind r off len off len, hf]
      rfl
    obtain ⟨f₀, hf₀⟩ := Option.isSome_iff_exists.mp hsome
    exact ⟨good_of_mirrored hbyte hf₀, fun hgood => mirrored_of_good hbyte (inRange_of_good hbyte hf hgood) hgood⟩
  · exact ⟨fun h => by_contra fun hne => not_port_twoBytes he hne h, fun h => port_twoBytes he h⟩

theorem the_first_port_control_byte_is_mirrored : Mirrored 0x060A 0 8 :=
  (a_field_is_mirrored_iff_its_byte_is_good 0 0x060A 0 8 ⟨0x3a, 0, 8⟩ (by decide) (by decide) 31 (by decide) 0
    0).1.mpr (by decide)

end gwdonu.eeprom_mirror
