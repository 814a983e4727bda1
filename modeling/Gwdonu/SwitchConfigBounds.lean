-- The words that are read of the flash image: those of the address record and of the
-- record of the device, for every content of the image.
import Gwdonu.SwitchConfig
import Mathlib.Data.Finset.Card

namespace gwdonu.switch_config_bounds

open Function calls rcp_registers switch_config

/-! ## The words -/

/-- A word of the two records, and none of the two last ones if it is for a register. -/
def Allowed (port : Nat) (w : Nat × Bool) : Prop :=
  (w.1 / 160 = 0 ∨ w.1 / 160 = port) ∧ (w.2 = true → w.1 % 160 < 158)

instance (port : Nat) (w : Nat × Bool) : Decidable (Allowed port w) := inferInstanceAs (Decidable (_ ∧ _))

/-- Since `s`, only allowed words were read. -/
def ReadsOnly (port : Nat) (s t : State) : Prop := ∃ ks, t.words = s.words ++ ks ∧ ∀ w ∈ ks, Allowed port w

/-- The image leads no call for the device at the port out of the two records. -/
structure InBounds (buf : Image) (port : Nat) : Prop where
  restore : ∀ s : State, s.dev.parentPort = port → Always (restoreRcpDevCfgFromFlash buf) s (ReadsOnly port s)
  value : ∀ s : State, s.dev.parentPort = port → ∀ usRegAddr : BitVec 16,
    Always (getRegValueInFlash buf usRegAddr.toNat) s (ReadsOnly port s)

/-- A record is only used with the mark of the addresses and its own. -/
def FitsRecord (buf : Image) (port : Nat) : Prop :=
  buf 159 = gusSwitchDataValidFlag → buf (record port + 159) = gusSwitchDataValidFlag → (buf 158).toNat ≤ 158

instance (buf : Image) (port : Nat) : Decidable (FitsRecord buf port) := inferInstanceAs (Decidable (_ → _))

section
variable {buf : Image} {port start : Nat} {s t u : State}

@[simp] theorem readWords_words (ks : List (Nat × Bool)) : (readWords s ks).words = s.words ++ ks := rfl

theorem ReadsOnly.refl : ReadsOnly port s s :=
  ⟨[], (List.append_nil _).symm, fun _ hw => absurd hw List.not_mem_nil⟩

theorem ReadsOnly.congr (h : ReadsOnly port s t) (hwords : u.words = t.words) : ReadsOnly port s u := by
  obtain ⟨ks, hks, hall⟩ := h
  exact ⟨ks, hwords.trans hks, hall⟩

theorem ReadsOnly.read (h : ReadsOnly port s t) {ks : List (Nat × Bool)} (hks : ∀ w ∈ ks, Allowed port w) :
    ReadsOnly port s (readWords t ks) := by
  obtain ⟨ks', hks', hall⟩ := h
  refine ⟨ks' ++ ks, ?_, ?_⟩
  · rw [readWords_words, hks', List.append_assoc]
  · intro w hw
    rcases List.mem_append.mp hw with hw | hw
    · exact hall w hw
    · exact hks w hw

theorem ReadsOnly.word (h : ReadsOnly port s t) {k : Nat} {reg : Bool} (hk : Allowed port (k, reg)) :
    ReadsOnly port s (readWords t [(k, reg)]) := by
  refine h.read fun w hw => ?_
  rw [List.mem_singleton.mp hw]
  exact hk

theorem allowed_addr {i : Nat} (hi : i < 158) : Allowed port (i, true) :=
  ⟨.inl (by dsimp only; omega), fun _ => by dsimp only; omega⟩

theorem allowed_data {i : Nat} (hi : i < 158) : Allowed port (record port + i, true) := by
  simp only [Allowed, record, gusSwitchCfgArraySizeMaxInFlash]
  exact ⟨.inr (by omega), fun _ => by omega⟩

theorem allowed_tail {i : Nat} (hi : i < 160) : Allowed port (i, false) :=
  ⟨.inl (by dsimp only; omega), fun h => absurd h Bool.false_ne_true⟩

theorem allowed_record_tail {i : Nat} (hi : i < 160) : Allowed port (record port + i, false) := by
  simp only [Allowed, record, gusSwitchCfgArraySizeMaxInFlash]
  exact ⟨.inr (by omega), fun h => absurd h Bool.false_ne_true⟩

theorem allowed_head {ks : List (Nat × Bool)} (hks : ks <+: headWords port) : ∀ w ∈ ks, Allowed port w := by
  intro w hw
  have hmem := hks.subset hw
  simp only [headWords, List.mem_cons, List.not_mem_nil, or_false] at hmem
  rcases hmem with rfl | rfl | rfl | rfl
  · exact allowed_tail (by decide)
  · exact allowed_tail (by decide)
  · exact allowed_record_tail (by decide)
  · exact allowed_record_tail (by decide)

/-! ## What the calls read -/

theorem write_reads (h : ReadsOnly port s t) (regAddr : Nat) (data : BitVec 16) :
    Always (RCP_Write_Reg regAddr data) t (ReadsOnly port s) := by
  rw [Always, meets_write]
  split_ifs
  · exact h.congr rfl
  · exact h.congr rfl

theorem restoreRegisters_reads {n : Nat} (hn : n ≤ 158) (h : ReadsOnly port s t) :
    Always (restoreRegisters buf (record port) n) t (ReadsOnly port s) := by
  rw [restoreRegisters]
  refine meets_forM_inv (fun j hj u hu => ?_) h
  have hlt : j < 158 := (List.mem_range.mp hj).trans_le hn
  rw [meets_bind, meets_readWord, meets_bind, meets_readWord]
  exact write_reads ((hu.word (allowed_addr hlt)).word (allowed_data hlt)) _ _

theorem isolateFromEeprom_reads (h : ReadsOnly port s t) : Always isolateFromEeprom t (ReadsOnly port s) := by
  rw [isolateFromEeprom, Always, meets_bind, RCP_GetVlanPortIsolate_InEeprom, RCP_GetEepromField, meets_bind,
    RCP_GetEepromValue, meets_bind, meets_setRegisterField]
  refine (write_reads h _ _).imp ?_ fun _ _ hu => hu
  intro _ u hu
  rw [meets_bind, meets_get, meets_pure, meets_pure, meets_setIsolate]
  exact hu.congr rfl

theorem restoreRecord_reads {n : Nat} (hn : n ≤ 158) (h : ReadsOnly port s t) :
    Always (restoreRecord buf (record port) n) t (ReadsOnly port s) := by
  have htail : ∀ u, ReadsOnly port s u →
      ReadsOnly port s (readWords u [(record port + (gusSwitchCfgArraySizeMax - 1), false)]) :=
    fun u hu => hu.word (allowed_record_tail (by decide))
  rw [restoreRecord, Always, meets_lastly]
  refine (restoreRegisters_reads hn h).imp ?_ ?_
  · intro _ u hu
    rw [meets_bind, meets_readWord, meets_setIsolate]
    exact (htail u hu).congr rfl
  · intro _ u hu
    rw [meets_bind, meets_readWord, meets_setIsolate]
    exact (htail u hu).congr rfl

theorem restore_reads (h : FitsRecord buf port) (hport : s.dev.parentPort = port) :
    Always (restoreRcpDevCfgFromFlash buf) s (ReadsOnly port s) := by
  by_cases hrestorable : Restorable buf s.dev.parentPort s.dev.deviceId
  · rw [Always, restore_record hrestorable]
    rw [hport] at hrestorable ⊢
    exact restoreRecord_reads (h hrestorable.1 hrestorable.2.1) (ReadsOnly.refl.read (allowed_head List.prefix_rfl))
  · obtain ⟨ks, hks, hrest⟩ := restore_eeprom (Q := fun _ => ReadsOnly port s) (E := fun _ => ReadsOnly port s)
      hrestorable
    rw [hport] at hks
    rw [Always, hrest]
    exact isolateFromEeprom_reads (ReadsOnly.refl.read (allowed_head hks))

theorem readAddr_reads {fromImage : Bool} {i : Nat} (h : ReadsOnly port s t) (hi : i < 158) :
    Always (readAddr buf fromImage i) t (ReadsOnly port s) := by
  rw [readAddr]
  split_ifs
  · exact h.word (allowed_addr hi)
  · exact h

theorem readLen_reads {fromImage : Bool} (h : ReadsOnly port s t) : Meets (readLen buf fromImage) t
    (fun usLen u => ReadsOnly port s u ∧ ((fromImage = true → (buf 158).toNat ≤ 158) → usLen.toNat ≤ 158))
    fun _ => ReadsOnly port s := by
  rw [readLen]
  split_ifs with hfrom
  · exact ⟨h.word (allowed_tail (by decide)), fun hlen => hlen hfrom⟩
  · rw [array_size]
    exact ⟨h, fun _ => by decide⟩

/-- The loop reads addresses up to the one it looks for, and one value. -/
theorem findRegValue_reads {usRegAddr : Nat} {fromImage : Bool} (l : List Nat) (hl : ∀ i ∈ l, i < 158)
    (h : ReadsOnly port s t) :
    Always (findRegValue buf (record port) usRegAddr fromImage l) t (ReadsOnly port s) := by
  induction l generalizing t with
  | nil => exact h
  | cons i l ih =>
    have hi := hl i List.mem_cons_self
    have hrest := fun u => ih (t := u) fun j hj => hl j (List.mem_cons_of_mem i hj)
    rw [findRegValue, Always, meets_bind]
    refine (readAddr_reads h hi).imp ?_ fun _ _ hu => hu
    intro addr u hu
    split_ifs
    · exact hu.word (allowed_data hi)
    · exact hrest u hu

theorem getRegValue_reads (h : FitsRecord buf port) (hport : s.dev.parentPort = port) (usRegAddr : Nat) :
    Always (getRegValueInFlash buf usRegAddr) s (ReadsOnly port s) := by
  rw [getRegValueInFlash, Always, meets_bind, meets_get, meets_bind, meets_readWord, meets_bind, hport]
  refine (readLen_reads (ReadsOnly.refl.word (allowed_tail (by decide)))).imp ?_ fun _ _ hu => hu
  rintro usLen u ⟨hu, hlen⟩
  have hmark : ReadsOnly port s (readWords u [(record port + gusSwitchCfgArraySizeMax, false)]) :=
    hu.word (allowed_record_tail (by decide))
  rw [meets_bind, meets_readWord]
  split_ifs with hvalid
  · refine findRegValue_reads _ (fun i hi => ?_) hmark
    exact (List.mem_range.mp hi).trans_le (hlen fun hfrom => h (of_decide_eq_true hfrom) hvalid)
  · exact hmark

/-! ## A size word that is too large -/

/-- There are more addresses than a size word can name. -/
theorem exists_absent {n : Nat} (hn : n < 65536) : ∃ a : BitVec 16, ∀ i < n, buf i ≠ a := by
  have hcard : ((Finset.range n).image fun i => (buf i).toNat).card < (Finset.range 65536).card := by
    rw [Finset.card_range]
    exact (Finset.card_image_le.trans_eq (Finset.card_range n)).trans_lt hn
  obtain ⟨a, ha, hnot⟩ := Finset.exists_mem_notMem_of_card_lt_card hcard
  refine ⟨BitVec.ofNat 16 a, fun i hi heq => hnot ?_⟩
  rw [Finset.mem_image]
  refine ⟨i, Finset.mem_range.mpr hi, ?_⟩
  rw [heq, BitVec.toNat_ofNat]
  exact Nat.mod_eq_of_lt (Finset.mem_range.mp ha)

/-- An address that is not there is compared with every word up to the size. -/
theorem findRegValue_absent {a : BitVec 16} {Q : BitVec 16 → State → Prop} {E : rcp.RCP_RET → State → Prop}
    (l : List Nat) (h : ∀ i ∈ l, buf i ≠ a) :
    Meets (findRegValue buf start a.toNat true l) s Q E ↔
      E .RCP_NOT_FOUND (readWords s (l.map fun i => (i, true))) := by
  induction l generalizing s with
  | nil =>
    rw [findRegValue, meets_throw, readWords, List.map_nil, List.append_nil]
  | cons i l ih =>
    have hi : (buf i).toNat ≠ a.toNat := fun heq => h i List.mem_cons_self (BitVec.eq_of_toNat_eq heq)
    have hwords : readWords (readWords s [(i, true)]) (l.map fun i => (i, true)) =
        readWords s ((i :: l).map fun i => (i, true)) := by
      simp [readWords]
    rw [findRegValue, meets_bind, readAddr, if_pos rfl, meets_readWord, if_neg hi,
      ih fun j hj => h j (List.mem_cons_of_mem i hj), hwords]

theorem getRegValue_absent {a : BitVec 16} {Q : BitVec 16 → State → Prop} {E : rcp.RCP_RET → State → Prop}
    (hmark : buf 159 = gusSwitchDataValidFlag) (hrecord : buf (record s.dev.parentPort + 159) = gusSwitchDataValidFlag)
    (ha : ∀ i < (buf 158).toNat, buf i ≠ a) :
    Meets (getRegValueInFlash buf a.toNat) s Q E ↔ E .RCP_NOT_FOUND
      (readWords s ([(159, false), (158, false), (record s.dev.parentPort + 159, false)] ++
        (List.range (buf 158).toNat).map fun i => (i, true))) := by
  have hsize : gusSwitchCfgArraySizeMax - 1 = 158 := rfl
  rw [getRegValueInFlash, meets_bind, meets_get, meets_bind, meets_readWord, meets_bind, readLen,
    hsize, gusSwitchCfgArraySizeMax, if_pos (decide_eq_true hmark), meets_readWord, meets_bind, meets_readWord,
    if_pos hrecord, decide_eq_true hmark,
    findRegValue_absent _ fun i hi => ha i (List.mem_range.mp hi)]
  simp [readWords]

theorem fits_of_inBounds (h : InBounds buf port) : FitsRecord buf port := by
  intro hmark hrecord
  by_contra hlong
  obtain ⟨a, ha⟩ : ∃ a : BitVec 16, ∀ i < (buf 158).toNat, buf i ≠ a := exists_absent (buf 158).isLt
  obtain ⟨s, rfl⟩ : ∃ s : State, s.dev.parentPort = port := ⟨⟨⟨.GH1508, 0, port, fun _ => 0, fun _ => 0, 0⟩,
    fun _ => 0, fun _ => 0, [], fun _ _ => false, 0, []⟩, rfl⟩
  have hvalue := h.value s rfl a
  rw [Always, getRegValue_absent hmark hrecord ha] at hvalue
  obtain ⟨ks, hks, hall⟩ := hvalue
  have hmem : (158, true) ∈ ks := by
    rw [← List.append_cancel_left hks]
    simp
    omega
  exact absurd ((hall _ hmem).2 rfl) (by decide)

end

/-- A flash with all marks valid and a size word of 159. -/
def oversized : Nat → BitVec 8 := fun i => if i % 320 = 318 ∨ i % 320 = 319 then 0x5A else if i = 316 then 159 else 0

/-- The size word is then taken for the address of a register. -/
theorem a_size_of_159_reads_the_tail_words : ¬ InBounds (reread false oversized) 1 :=
  fun h => absurd (fits_of_inBounds h) (by decide)

/-- The calls stay in the two records, and off the tail words, just when the size word
fits a record or a mark is missing. -/
theorem the_image_is_read_in_bounds_iff_its_size_fits (buf : Image) (port : Nat) :
    InBounds buf port ↔ FitsRecord buf port :=
  ⟨fits_of_inBounds, fun h => ⟨fun _ => restore_reads h, fun _ hport a => getRegValue_reads h hport a.toNat⟩⟩

end gwdonu.switch_config_bounds
