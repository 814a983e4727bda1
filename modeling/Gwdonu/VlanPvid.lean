-- The PVID of a port, set by its VID and read back: one goes to the entry by a search of the
-- cache, the other comes from the entry by the registers. When the two agree.
import Gwdonu.VlanCommands

namespace gwdonu.vlan_pvid

open Function calls rcp_registers register_fields vlans vlan_table
open rcp (RCP_RET)
open vlan_commands (Coherent Known numFromVID_known)
open vlan_edits (vidOf)

/-! ## What a set and a get should do -/

/-- The device and its switch are as before, whatever was tried. -/
structure SameTables (s t : State) : Prop where
  reg : t.reg = s.reg
  eeprom : t.eeprom = s.eeprom
  dev : t.dev = s.dev

/-- What was set is read back, and of no other port anything else than before; a VID that is not
in the table is turned down. -/
structure Agrees (s : State) (slot port : Nat) (vid : BitVec 16) : Prop where
  own : ∀ t, RCP_SetVlanPVID slot port vid .RCP_CONFIG_2_REGISTER s = .ok () t →
    RCP_GetVlanPVID slot port t = .ok vid t
  others : ∀ t, RCP_SetVlanPVID slot port vid .RCP_CONFIG_2_REGISTER s = .ok () t →
    ∀ slot' port', (slot', port') ≠ (slot, port) → ∀ d, RCP_GetVlanPVID slot' port' s = .ok d s →
      RCP_GetVlanPVID slot' port' t = .ok d t
  rejected : ¬ Known s vid →
    ∃ ret t, RCP_SetVlanPVID slot port vid .RCP_CONFIG_2_REGISTER s = .error ret t ∧ SameTables s t

/-- The port is one of the device. -/
def ValidPort (s : State) (slot port : Nat) : Prop := slot = 1 ∧ 1 ≤ port ∧ port ≤ s.dev.numOfPorts

section
variable {s t : State} {slot port q : Nat} {v : BitVec 16} {E : RCP_RET → State → Prop}

/-! ## The calls -/

theorem meets_badPort {Q : Nat → State → Prop} (h : ¬ ValidPort s slot port) :
    Meets (RCPLPort2Port slot port) s Q E ↔ E .RCP_BAD_VALUE s := by
  unfold ValidPort at h
  rw [RCPLPort2Port, meets_bind, meets_get]
  by_cases hslot : slot > 1 ∨ slot = 0
  · rw [if_pos hslot, meets_throw]
  · rw [if_neg hslot, if_pos (by omega), meets_throw]

theorem meets_setBadPort {Q : Unit → State → Prop} (h : ¬ ValidPort s slot port) :
    Meets (RCP_SetVlanPVID slot port v .RCP_CONFIG_2_REGISTER) s Q E ↔ E .RCP_BAD_VALUE s := by
  rw [RCP_SetVlanPVID, meets_bind, RCP_GetVlanNumFromVID, meets_bind, meets_get, meets_pure,
    RCP_SetVlanPortIDAssignment, portSet, meets_bind, meets_badPort h]

theorem meets_getBadPort {Q : BitVec 16 → State → Prop} (h : ¬ ValidPort s slot port) :
    Meets (RCP_GetVlanPVID slot port) s Q E ↔ E .RCP_BAD_VALUE s := by
  rw [RCP_GetVlanPVID, meets_bind, RCP_GetVlanPortIDAssignment, portGet, meets_bind, meets_badPort h]

theorem meets_setPvid {Q : Unit → State → Prop} (hq : q < s.dev.numOfPorts) :
    Meets (RCP_SetVlanPVID 1 (q + 1) v .RCP_CONFIG_2_REGISTER) s Q E ↔
      if s.writeFails s.writes.length (RT8326_VLAN_IDX q) then
        E .RCP_TIMEOUT (s.miss (RT8326_VLAN_IDX q) (fields.put (s.reg (RT8326_VLAN_IDX q))
          (BitVec.ofNat 16 (numFromVID s.dev v)) (VID_Index_Pos q) 5))
      else Q () (withIndex s q (BitVec.ofNat 16 (numFromVID s.dev v))) := by
  rw [RCP_SetVlanPVID, meets_bind, RCP_GetVlanNumFromVID, meets_bind, meets_get, meets_pure,
    RCP_SetVlanPortIDAssignment, portSet, meets_bind, meets_lPort2Port ⟨by omega, hq⟩, meets_setRegField,
    meets_setRegisterField, meets_write]
  rfl

theorem meets_getPvid {Q : BitVec 16 → State → Prop} (hq : q < s.dev.numOfPorts) :
    Meets (RCP_GetVlanPVID 1 (q + 1)) s Q E ↔ Q (vid s (index s q)) s := by
  rw [RCP_GetVlanPVID, meets_bind, RCP_GetVlanPortIDAssignment, portGet, meets_bind,
    meets_lPort2Port ⟨by omega, hq⟩, meets_getRegField, RCP_GetVlanVID, meets_getRegField]
  rfl

/-! ## Set and get -/

/-- What a set leaves that returns `RCP_OK`. -/
theorem setPvid_ok (hq : q < s.dev.numOfPorts) (h : RCP_SetVlanPVID 1 (q + 1) v .RCP_CONFIG_2_REGISTER s = .ok () t) :
    t = withIndex s q (BitVec.ofNat 16 (numFromVID s.dev v)) := by
  rw [ok_iff, Gives, meets_setPvid hq] at h
  split at h
  · exact h.elim
  · exact h.2.symm

theorem valid_of_set (h : RCP_SetVlanPVID slot port v .RCP_CONFIG_2_REGISTER s = .ok () t) :
    ValidPort s slot port := by
  by_contra hbad
  rw [ok_iff, Gives, meets_setBadPort hbad] at h
  exact h

theorem valid_of_get {d : BitVec 16} (h : RCP_GetVlanPVID slot port s = .ok d t) : ValidPort s slot port := by
  by_contra hbad
  rw [ok_iff, Gives, meets_getBadPort hbad] at h
  exact h

theorem ValidPort.exists (h : ValidPort s slot port) : slot = 1 ∧ ∃ q, port = q + 1 ∧ q < s.dev.numOfPorts := by
  obtain ⟨hslot, hlo, hhi⟩ := h
  exact ⟨hslot, port - 1, by omega, by omega⟩

theorem numFromVID_lt (dev : RCP_DEV) (v : BitVec 16) : numFromVID dev v < 32 := by
  unfold numFromVID
  cases hfind : (List.range MAX_RCP_VLAN_NUM).find? fun i => dev.vlanVid i == v with
  | none => decide
  | some e => exact List.mem_range.mp (List.mem_of_find?_eq_some hfind)

theorem index_set (s : State) (q r : Nat) (v : BitVec 16) :
    index (withIndex s q (BitVec.ofNat 16 (numFromVID s.dev v))) r =
      if r = q then numFromVID s.dev v else index s r := by
  have hlt := numFromVID_lt s.dev v
  have hword : (BitVec.ofNat 16 (numFromVID s.dev v)).toNat = numFromVID s.dev v := by
    rw [BitVec.toNat_ofNat, Nat.mod_eq_of_lt (by omega)]
  rw [index_withIndex (hword.trans_lt hlt), hword]

/-- A VID of the table is read back. -/
theorem get_own (hcoherent : Coherent s) (hknown : Known s v)
    (h : RCP_SetVlanPVID slot port v .RCP_CONFIG_2_REGISTER s = .ok () t) :
    RCP_GetVlanPVID slot port t = .ok v t := by
  obtain ⟨rfl, q, rfl, hq⟩ := (valid_of_set h).exists
  obtain ⟨hlt, hvid⟩ := numFromVID_known hcoherent hknown
  have hq32 := Nat.lt_of_lt_of_le hq (numOfPorts_le s.dev)
  have hsame : q < (withIndex s q (BitVec.ofNat 16 (numFromVID s.dev v))).dev.numOfPorts := hq
  rw [setPvid_ok hq h, ok_iff, Gives, meets_getPvid hsame, index_set, if_pos rfl, vid_withIndex (by omega) hq32]
  exact ⟨hvid, rfl⟩

/-- The other ports keep their entries. -/
theorem get_others (h : RCP_SetVlanPVID slot port v .RCP_CONFIG_2_REGISTER s = .ok () t)
    {slot' port' : Nat} (hne : (slot', port') ≠ (slot, port)) {d : BitVec 16}
    (hget : RCP_GetVlanPVID slot' port' s = .ok d s) : RCP_GetVlanPVID slot' port' t = .ok d t := by
  obtain ⟨rfl, q, rfl, hq⟩ := (valid_of_set h).exists
  obtain ⟨rfl, r, rfl, hr⟩ := (valid_of_get hget).exists
  have hq32 := Nat.lt_of_lt_of_le hq (numOfPorts_le s.dev)
  have hrq : r ≠ q := fun heq => hne (by rw [heq])
  have hsame : r < (withIndex s q (BitVec.ofNat 16 (numFromVID s.dev v))).dev.numOfPorts := hr
  have hindex := index_lt s r
  rw [ok_iff, Gives, meets_getPvid hr] at hget
  rw [setPvid_ok hq h, ok_iff, Gives, meets_getPvid hsame, index_set, if_neg hrq, vid_withIndex (by omega) hq32]
  exact ⟨hget.1, rfl⟩

/-! ## A VID that is not in the table -/

/-- The one write of the set does not get through. -/
def WriteFails (s : State) (port : Nat) : Prop := s.writeFails s.writes.length (RT8326_VLAN_IDX (port - 1)) = true

theorem rejected_badPort (h : ¬ ValidPort s slot port) (v : BitVec 16) :
    ∃ ret t, RCP_SetVlanPVID slot port v .RCP_CONFIG_2_REGISTER s = .error ret t ∧ SameTables s t := by
  refine ⟨.RCP_BAD_VALUE, s, ?_, rfl, rfl, rfl⟩
  rw [error_iff, meets_setBadPort h]
  exact ⟨rfl, rfl⟩

theorem rejected_write (hq : q < s.dev.numOfPorts) (hfails : WriteFails s (q + 1)) (v : BitVec 16) :
    ∃ ret t, RCP_SetVlanPVID 1 (q + 1) v .RCP_CONFIG_2_REGISTER s = .error ret t ∧ SameTables s t := by
  unfold WriteFails at hfails
  rw [Nat.add_sub_cancel] at hfails
  have hset : RCP_SetVlanPVID 1 (q + 1) v .RCP_CONFIG_2_REGISTER s = .error .RCP_TIMEOUT
      (s.miss (RT8326_VLAN_IDX q) (fields.put (s.reg (RT8326_VLAN_IDX q))
        (BitVec.ofNat 16 (numFromVID s.dev v)) (VID_Index_Pos q) 5)) := by
    rw [error_iff, meets_setPvid hq, if_pos hfails]
    exact ⟨rfl, rfl⟩
  exact ⟨_, _, hset, rfl, rfl, rfl⟩

/-- Whatever the VID, the set goes through. -/
theorem set_ok (hq : q < s.dev.numOfPorts) (hwrites : ¬ WriteFails s (q + 1)) (v : BitVec 16) :
    RCP_SetVlanPVID 1 (q + 1) v .RCP_CONFIG_2_REGISTER s =
      .ok () (withIndex s q (BitVec.ofNat 16 (numFromVID s.dev v))) := by
  unfold WriteFails at hwrites
  rw [Nat.add_sub_cancel] at hwrites
  rw [ok_iff, Gives, meets_setPvid hq, if_neg hwrites]
  exact ⟨rfl, rfl⟩

theorem vidOf_zeros (e : Nat) : vidOf (uniform .GH1508 0).reg e = 0 := by
  simp [uniform, vidOf, writes.read, fields.get]

theorem coherent_zeros : Coherent (uniform .GH1508 0) := by
  refine ⟨fun e _ => (vidOf_zeros e).symm, fun e _ q _ => ?_⟩
  simp [uniform, vlan_edits.isMember, writes.read, fields.get]

end

end gwdonu.vlan_pvid
