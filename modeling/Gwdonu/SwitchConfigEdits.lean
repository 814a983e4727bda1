-- Saving or erasing the record of one switch: what the restores of the others still write,
-- and what is left after all records are erased.
import Gwdonu.SwitchConfig

namespace gwdonu.switch_config_edits

open Function calls rcp_registers switch_config
open rcp (RCP_RET MAX_RRCP_SWITCH_TO_MANAGE)

/-! ## Two images -/

/-- A restore at the port writes the same from both images. -/
def Same (buf buf' : Image) (port : Nat) : Prop := ∀ s : State, s.dev.parentPort = port →
  (after (restoreRcpDevCfgFromFlash buf) s).writes = (after (restoreRcpDevCfgFromFlash buf') s).writes

/-- The record of the port is for no kind of device. -/
def Unused (buf : Image) (port : Nat) : Prop := ∀ d, ¬ Restorable buf port d

/-- The addresses and values that a restore at the port goes through. -/
def recordOf (buf : Image) (port : Nat) : List (Nat × BitVec 16) :=
  pairs buf (record port) (List.range (buf 158).toNat)

section
variable {buf buf' : Image} {port : Nat}

theorem attempts_sure (n : Nat) (l : List (Nat × BitVec 16)) : attempts (fun _ _ => false) n l = l := by
  induction l generalizing n with
  | nil => rfl
  | cons x l ih => rw [attempts, if_neg Bool.false_ne_true, ih]

theorem writes_restorable {s : State} (h : Restorable buf s.dev.parentPort s.dev.deviceId) :
    (after (restoreRcpDevCfgFromFlash buf) s).writes =
      s.writes ++ attempts s.writeFails s.writes.length (recordOf buf s.dev.parentPort) := by
  refine (always_iff (P := fun t : State => t.writes = _)).mp ?_
  rw [Always, restore_record h]
  refine (restoreRecord_writes _ _).imp ?_ fun _ _ h => h.1
  rintro _ t ⟨hwrites, hall, -⟩
  exact hwrites.trans (congrArg _ hall.symm)

theorem writes_not_restorable {s : State} (h : ¬ Restorable buf s.dev.parentPort s.dev.deviceId) :
    (after (restoreRcpDevCfgFromFlash buf) s).writes = s.writes ++ [flagRequest s] := by
  refine (always_iff (P := fun t : State => t.writes = _)).mp ?_
  exact (onlyAsks_of_not_restorable h).imp (fun _ _ h => h.1) fun _ _ h => h.1

/-- A device of this kind at the port, whose writes all succeed. -/
def device (d : RCP_DEVICE_ID) (port : Nat) : State where
  dev := ⟨d, 0, port, fun _ => 0, fun _ => 0, 0⟩
  reg _ := 0
  eeprom _ := 0
  writes := []
  writeFails _ _ := false
  behind := 0
  words := []

/-- Where the heads of the records agree, the restores do just when their registers do. -/
theorem same_iff (h : ∀ d, Restorable buf port d ↔ Restorable buf' port d) :
    Same buf buf' port ↔ Unused buf port ∨ recordOf buf port = recordOf buf' port := by
  constructor
  · intro hsame
    by_contra! hnot
    obtain ⟨hused, hne⟩ := hnot
    simp only [Unused, not_forall, not_not] at hused
    obtain ⟨d, hd⟩ := hused
    have hwrites := hsame (device d port) rfl
    rw [writes_restorable (s := device d port) hd, writes_restorable (s := device d port) ((h d).mp hd)] at hwrites
    have hlists := List.append_cancel_left hwrites
    rw [device, attempts_sure, attempts_sure] at hlists
    exact hne hlists
  · rintro hor s rfl
    by_cases hd : Restorable buf s.dev.parentPort s.dev.deviceId
    · have hrecord := hor.resolve_left fun hunused => hunused _ hd
      rw [writes_restorable hd, writes_restorable ((h _).mp hd), hrecord]
    · rw [writes_not_restorable hd, writes_not_restorable (mt (h _).mpr hd)]

theorem restorable_congr (hmark : buf 159 = buf' 159) (hrecord : ∀ i, 158 ≤ i → i < 160 →
    buf (record port + i) = buf' (record port + i)) (d : RCP_DEVICE_ID) :
    Restorable buf port d ↔ Restorable buf' port d := by
  rw [Restorable, Restorable, hmark, hrecord 158 (by decide) (by decide), hrecord 159 (by decide) (by decide)]

/-- Two records are the same just when they have one length and agree word for word. -/
theorem recordOf_eq_iff : recordOf buf port = recordOf buf' port ↔
    (buf 158).toNat = (buf' 158).toNat ∧
      ∀ j < (buf 158).toNat, buf j = buf' j ∧ buf (record port + j) = buf' (record port + j) := by
  have hlength (b : Image) : (recordOf b port).length = (b 158).toNat := by
    rw [recordOf, pairs, List.length_map, List.length_range]
  constructor
  · intro h
    have hsize : (buf 158).toNat = (buf' 158).toNat := by rw [← hlength, ← hlength, h]
    refine ⟨hsize, fun j hj => ?_⟩
    rw [recordOf, recordOf, ← hsize] at h
    have hpair := List.map_inj_left.mp h j (List.mem_range.mpr hj)
    rw [Prod.mk.injEq] at hpair
    exact ⟨BitVec.eq_of_toNat_eq hpair.1, hpair.2⟩
  · rintro ⟨hsize, hall⟩
    rw [recordOf, recordOf, ← hsize]
    refine List.map_inj_left.mpr fun j hj => ?_
    obtain ⟨haddr, hdata⟩ := hall j (List.mem_range.mp hj)
    rw [haddr, hdata]

/-! ## Saving one switch -/

/-- The image that a save of the switch at `p` leaves. -/
def savedOne (buf : Image) (p : Nat) (switch : Option Registered) : Image :=
  saveIfExists (prepareAddressMap buf) p switch

theorem saveOne_buf (bigEndian mal : Bool) (c : Config) (p : Nat) (switch : Option Registered) :
    (saveOneRcpDevCfgToFlash bigEndian mal c p switch).1.buf = savedOne c.buf p switch := by
  rw [saveOneRcpDevCfgToFlash, device_conf_write_switch_conf_to_flash]
  split_ifs <;> rfl

variable {p : Nat}

theorem savedOne_record (switch : Option Registered) (hp : 1 ≤ p) (hport : 1 ≤ port) (hne : port ≠ p) {i : Nat}
    (hi : i < 160) : savedOne buf p switch (record port + i) = buf (record port + i) := by
  have hother : record port + i < record p ∨ record p + 160 ≤ record port + i := by
    simp only [record, gusSwitchCfgArraySizeMaxInFlash]
    omega
  have hbehind : 160 ≤ record port + i := by
    simp only [record, gusSwitchCfgArraySizeMaxInFlash]
    omega
  rw [savedOne, saveIfExists_other hp switch hother, prepareAddressMap_other buf hbehind]

theorem savedOne_map (switch : Option Registered) (hp : 1 ≤ p) : AddressMap (savedOne buf p switch) :=
  (prepareAddressMap_map buf).saveIfExists hp switch

/-- A save keeps the records of the other ports, but puts its own addresses in front. -/
theorem saveOne_same_iff (switch : Option Registered) (hp : 1 ≤ p) (hport : 1 ≤ port) (hne : port ≠ p)
    (hmark : buf 159 = gusSwitchDataValidFlag) :
    Same buf (savedOne buf p switch) port ↔ Unused buf port ∨ AddressMap buf := by
  have hmap : AddressMap (savedOne buf p switch) := savedOne_map switch hp
  have hrecord {i : Nat} (hi : i < 160) : savedOne buf p switch (record port + i) = buf (record port + i) :=
    savedOne_record switch hp hport hne hi
  rw [same_iff (restorable_congr (hmark.trans hmap.mark.symm) fun i _ hi => (hrecord hi).symm), recordOf_eq_iff,
    hmap.size]
  refine or_congr_right ⟨?_, ?_⟩
  · rintro ⟨hsize, hall⟩
    have hsize' : (buf 158).toNat = 156 := hsize
    refine ⟨fun j hj => ?_, BitVec.eq_of_toNat_eq hsize, hmark⟩
    rw [(hall j (by omega)).1]
    exact hmap.addr j hj
  · intro h
    refine ⟨congrArg BitVec.toNat h.size, fun j hj => ?_⟩
    have hlt : j < 156 := by
      rw [h.size] at hj
      exact hj
    refine ⟨BitVec.eq_of_toNat_eq ?_, (hrecord (by omega)).symm⟩
    rw [h.addr j hlt, hmap.addr j hlt]

/-! ## Erasing -/

/-- The image that an erasure of the record at `p` leaves. -/
def erasedOne (buf : Image) (p : Nat) : Image :=
  if buf (record p + 159) = gusSwitchDataValidFlag then update buf (record p + 159) 0 else buf

theorem erease_buf (bigEndian mal : Bool) (c : Config) (p : Nat) (fileLen : Int) :
    (ereaseRcpDevCfgInFlash bigEndian mal c p false fileLen).1.buf = erasedOne c.buf p := by
  rw [ereaseRcpDevCfgInFlash, if_neg Bool.false_ne_true, erasedOne, gusSwitchCfgArraySizeMax,
    device_conf_write_switch_conf_to_flash]
  split_ifs <;> rfl

/-- A restore at the port does not come to the mark of the record at `p`. -/
def Misses (buf : Image) (port p : Nat) : Prop :=
  ∀ j < (buf 158).toNat, j ≠ record p + 159 ∧ record port + j ≠ record p + 159

/-- The mark is a word like any other for a restore that goes as far. -/
theorem erasedOne_same_iff (hp : 1 ≤ p) (hne : port ≠ p) :
    Same buf (erasedOne buf p) port ↔
      buf (record p + 159) ≠ gusSwitchDataValidFlag ∨ Unused buf port ∨ Misses buf port p := by
  by_cases hvalid : buf (record p + 159) = gusSwitchDataValidFlag
  · have hother {k : Nat} (hk : k ≠ record p + 159) : erasedOne buf p k = buf k := by
      rw [erasedOne, if_pos hvalid, update_of_ne hk]
    have hword (k : Nat) : buf k = erasedOne buf p k ↔ k ≠ record p + 159 := by
      refine ⟨?_, fun hk => (hother hk).symm⟩
      rintro h rfl
      rw [erasedOne, if_pos hvalid, update_self, hvalid] at h
      exact absurd h (by decide)
    have hfront {k : Nat} (hk : k < 160) : buf k = erasedOne buf p k := by
      refine (hother ?_).symm
      simp only [record, gusSwitchCfgArraySizeMaxInFlash]
      omega
    have hrecord (i : Nat) (hi : i < 160) : buf (record port + i) = erasedOne buf p (record port + i) := by
      refine (hother ?_).symm
      simp only [record, gusSwitchCfgArraySizeMaxInFlash]
      omega
    rw [same_iff (restorable_congr (hfront (by decide)) fun i _ hi => hrecord i hi), recordOf_eq_iff,
      ← hfront (by decide : 158 < 160)]
    simp only [hword, hvalid, ne_eq, not_true_eq_false, false_or, true_and, Misses]
  · rw [erasedOne, if_neg hvalid]
    exact iff_of_true (fun _ _ => rfl) (.inl hvalid)

theorem erasedOne_unused : Unused (erasedOne buf p) p := by
  rintro d ⟨-, hmark, -⟩
  rw [erasedOne] at hmark
  split_ifs at hmark with hvalid
  · rw [update_self] at hmark
    exact absurd hmark (by decide)
  · exact hvalid hmark

/-! ## Erasing all records -/

theorem erasedAll_buf (bigEndian mal : Bool) (c : Config) (p : Nat) (fileLen : Int) {k : Nat} (hk : k < 4160) :
    (ereaseRcpDevCfgInFlash bigEndian mal c p true fileLen).1.buf k = 0 := by
  have hzero : memset c.buf 0 (glSwitchCfgFileSizeMaxInFlash / 2) k = 0 := if_pos ⟨k.zero_le, by
    rw [Nat.zero_add]
    exact hk⟩
  rw [ereaseRcpDevCfgInFlash, if_pos rfl, device_conf_write_switch_conf_to_flash]
  split_ifs
  · exact hzero
  · exact hzero
  · exact hzero

theorem erasedAll_flash {bigEndian mal : Bool} {c : Config} {p : Nat} {fileLen : Int}
    (hok : (ereaseRcpDevCfgInFlash bigEndian mal c p true fileLen).2 = .RCP_OK) (i : Nat) (hi : i < 8320) :
    (ereaseRcpDevCfgInFlash bigEndian mal c p true fileLen).1.flash i =
      if (i : Int) < fileLen then 0 else c.flash i := by
  have hbuf := erasedAll_buf bigEndian mal c p fileLen (by omega : i / 2 < 4160)
  rw [ereaseRcpDevCfgInFlash, if_pos rfl, device_conf_write_switch_conf_to_flash] at hok hbuf ⊢
  split_ifs at hok hbuf ⊢ with hlong hmal hlt
  · dsimp only at hbuf ⊢
    rw [if_pos hlt, byteOf, hbuf]
    split_ifs <;> rfl
  · exact if_neg hlt

theorem wordOf_zero_ne (bigEndian : Bool) (second : BitVec 8) :
    wordOf bigEndian 0 second ≠ gusSwitchDataValidFlag := by
  revert second
  cases bigEndian <;> decide +kernel

/-- No record of a port is left. -/
def AllUnused (buf : Image) : Prop := ∀ q, 1 ≤ q ∧ q < MAX_RRCP_SWITCH_TO_MANAGE → Unused buf q

/-- The first mark goes, or nothing behind it does. -/
theorem erasedAll_unused_iff {bigEndian mal : Bool} {c : Config} {p : Nat} {fileLen : Int}
    (hok : (ereaseRcpDevCfgInFlash bigEndian mal c p true fileLen).2 = .RCP_OK) :
    AllUnused (reread bigEndian (ereaseRcpDevCfgInFlash bigEndian mal c p true fileLen).1.flash) ↔
      319 ≤ fileLen ∨ AllUnused (reread bigEndian c.flash) := by
  have hflash := erasedAll_flash hok
  have hlength : glSwitchCfgFileSizeMaxInFlash = 8320 := rfl
  by_cases hlen : 319 ≤ fileLen
  · refine iff_of_true ?_ (.inl hlen)
    rintro q - d ⟨hmark, -, -⟩
    rw [reread, hlength, if_pos (by decide), hflash 318 (by decide), if_pos (by omega)] at hmark
    exact wordOf_zero_ne _ _ hmark
  · have hkept {k : Nat} (hk : 159 ≤ k) (hk' : k < 4160) :
        reread bigEndian (ereaseRcpDevCfgInFlash bigEndian mal c p true fileLen).1.flash k =
          reread bigEndian c.flash k := by
      have hfirst : ¬ ((2 * k : Nat) : Int) < fileLen := by omega
      have hsecond : ¬ ((2 * k + 1 : Nat) : Int) < fileLen := by omega
      rw [reread, reread, hflash _ (by omega), hflash _ (by omega), if_neg hfirst, if_neg hsecond]
    rw [or_iff_right hlen]
    refine forall₂_congr fun q hq => forall_congr' fun d => not_congr ?_
    have hlt : q < 26 := hq.2
    refine restorable_congr (hkept le_rfl (by decide)) (fun i hi hi' => hkept ?_ ?_) d
    · simp only [record, gusSwitchCfgArraySizeMaxInFlash]
      omega
    · simp only [record, gusSwitchCfgArraySizeMaxInFlash]
      omega

theorem erasedAll_unused (bigEndian mal : Bool) (c : Config) (p : Nat) (fileLen : Int) :
    AllUnused (ereaseRcpDevCfgInFlash bigEndian mal c p true fileLen).1.buf := by
  rintro q - d ⟨hmark, -, -⟩
  rw [erasedAll_buf bigEndian mal c p fileLen (by decide)] at hmark
  exact absurd hmark (by decide)

end

/-- An image of a firmware with one register, and switches at all ports. -/
def oldImage : Image := fun k =>
  if k % 160 = 159 then gusSwitchDataValidFlag else if k = 158 then 1 else if k = 0 then 0x0201 else 0

def oldConfig : Config := ⟨oldImage, byteOf false oldImage⟩

end gwdonu.switch_config_edits
