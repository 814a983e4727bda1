-- The VLAN table in the registers of a switch: members, VIDs and the index of each port,
-- and what the register calls do to them.
import Gwdonu.Vlans

namespace gwdonu.vlan_table

open Function calls rcp_registers register_fields vlans
open rcp (RCP_RET)

/-! ## The table -/

/-- Physical port `q` is a member of entry `e`. -/
def member (s : State) (e q : Nat) : Bool :=
  if q < 16 then (s.reg (RT8326_VLAN_PORT_MEMBER e 0)).getLsbD q
  else (s.reg (RT8326_VLAN_PORT_MEMBER e 1)).getLsbD (q - 16)

def vid (s : State) (e : Nat) : BitVec 16 := fields.get (s.reg (RT8326_VLAN_VID e)) 0 12

/-- The entry that the PVID of physical port `q` selects. -/
def index (s : State) (q : Nat) : Nat := (fields.get (s.reg (RT8326_VLAN_IDX q)) (VID_Index_Pos q) 5).toNat

def outTag (s : State) (q : Nat) : BitVec 16 := fields.get (s.reg (RT8326_VLAN_PRI q)) (PriTagCtrl_Pos q) 2

/-! ## The changes -/

def withMembers (s : State) (e : Nat) (data : BitVec 32) : State :=
  if s.dev.numOfPorts ≤ 16 then s.put (RT8326_VLAN_PORT_MEMBER e 0) (data.setWidth 16)
  else (s.put (RT8326_VLAN_PORT_MEMBER e 0) (data.setWidth 16)).put (RT8326_VLAN_PORT_MEMBER e 1)
    ((data >>> 16).setWidth 16)

def withVid (s : State) (e : Nat) (data : BitVec 16) : State :=
  s.put (RT8326_VLAN_VID e) (fields.put (s.reg (RT8326_VLAN_VID e)) data 0 12)

def withField (s : State) (addr pos : Nat → Nat) (len q : Nat) (data : BitVec 16) : State :=
  s.put (addr q) (fields.put (s.reg (addr q)) data (pos q) len)

abbrev withIndex (s : State) (q : Nat) (data : BitVec 16) : State := withField s RT8326_VLAN_IDX VID_Index_Pos 5 q data

abbrev withTag (s : State) (q : Nat) (data : BitVec 16) : State := withField s RT8326_VLAN_PRI PriTagCtrl_Pos 2 q data

/-- What no VLAN call changes. -/
structure SameSwitch (s t : State) : Prop where
  writeFails : t.writeFails = s.writeFails
  deviceId : t.dev.deviceId = s.dev.deviceId
  upLinkPort : t.dev.upLinkPort = s.dev.upLinkPort

section
variable {s t u : State} {a e e' q r : Nat} {d : BitVec 16} {data : BitVec 32}

theorem SameSwitch.refl : SameSwitch s s := ⟨rfl, rfl, rfl⟩

theorem SameSwitch.trans (h : SameSwitch s t) (h' : SameSwitch t u) : SameSwitch s u :=
  ⟨h'.writeFails.trans h.writeFails, h'.deviceId.trans h.deviceId, h'.upLinkPort.trans h.upLinkPort⟩

theorem SameSwitch.numOfPorts (h : SameSwitch s t) : t.dev.numOfPorts = s.dev.numOfPorts := by
  rw [RCP_DEV.numOfPorts, RCP_DEV.numOfPorts, h.deviceId]

theorem SameSwitch.put (h : SameSwitch s t) : SameSwitch s (t.put a d) := h.trans ⟨rfl, rfl, rfl⟩

theorem SameSwitch.cachePort (h : SameSwitch s t) : SameSwitch s (cachePort t e data) := h.trans ⟨rfl, rfl, rfl⟩

theorem SameSwitch.cacheVid (h : SameSwitch s t) : SameSwitch s (cacheVid t e d) := h.trans ⟨rfl, rfl, rfl⟩

theorem SameSwitch.withMembers (h : SameSwitch s t) : SameSwitch s (withMembers t e data) := by
  rw [vlan_table.withMembers]
  split_ifs
  · exact h.put
  · exact h.put.put

theorem numOfPorts_le (dev : RCP_DEV) : dev.numOfPorts ≤ 32 := by
  rw [RCP_DEV.numOfPorts]
  cases dev.deviceId <;> decide

/-! ## The registers of the table -/

theorem member_addr (he : e ≤ 31) (hq : q ≤ 1) : RT8326_VLAN_PORT_MEMBER e q = 0x031D + 3 * e + q := by
  rw [RT8326_VLAN_PORT_MEMBER]
  omega

theorem vid_addr (he : e ≤ 31) : RT8326_VLAN_VID e = 0x031F + 3 * e := by
  rw [RT8326_VLAN_VID]
  omega

theorem index_addr (q : Nat) : RT8326_VLAN_IDX q = 0x030C + q / 2 := by
  rw [RT8326_VLAN_IDX, Nat.shiftRight_eq_div_pow]

theorem tag_addr (q : Nat) : RT8326_VLAN_PRI q = 0x0319 + q / 8 := by
  rw [RT8326_VLAN_PRI, Nat.shiftRight_eq_div_pow]

theorem index_pos (q : Nat) : VID_Index_Pos q = q % 2 * 8 := by
  rw [VID_Index_Pos, Nat.and_one_is_mod, Nat.zero_add]

/-! ## One write -/

theorem member_put (he : e ≤ 31) (ha : a ≠ 0x031D + 3 * e ∧ a ≠ 0x031E + 3 * e) :
    member (s.put a d) e q = member s e q := by
  rw [member, member, member_addr he (by decide), member_addr he (by decide), put_reg, update_of_ne (by omega),
    update_of_ne (by omega)]

theorem vid_put (he : e ≤ 31) (ha : a ≠ 0x031F + 3 * e) : vid (s.put a d) e = vid s e := by
  rw [vid, vid, vid_addr he, put_reg, update_of_ne ha.symm]

theorem index_put (ha : a ≠ 0x030C + q / 2) : index (s.put a d) q = index s q := by
  rw [index, index, index_addr, put_reg, update_of_ne ha.symm]

theorem index_lt (s : State) (q : Nat) : index s q < 32 := fields.toNat_get_lt _

@[simp] theorem cachePort_reg : (cachePort s e data).reg = s.reg := rfl

@[simp] theorem cacheVid_reg : (cacheVid s e d).reg = s.reg := rfl

@[simp] theorem member_cachePort : member (cachePort s e' data) e q = member s e q := rfl

@[simp] theorem member_cacheVid : member (cacheVid s e' d) e q = member s e q := rfl

@[simp] theorem vid_cachePort : vid (cachePort s e' data) e = vid s e := rfl

@[simp] theorem vid_cacheVid : vid (cacheVid s e' d) e = vid s e := rfl

@[simp] theorem index_cachePort : index (cachePort s e data) q = index s q := rfl

@[simp] theorem index_cacheVid : index (cacheVid s e d) q = index s q := rfl

@[simp] theorem outTag_cachePort : outTag (cachePort s e data) q = outTag s q := rfl

@[simp] theorem outTag_cacheVid : outTag (cacheVid s e d) q = outTag s q := rfl

/-! ## The members of an entry -/

theorem member_withMembers (he : e ≤ 31) (he' : e' ≤ 31) (hq : q < s.dev.numOfPorts) :
    member (withMembers s e data) e' q = if e' = e then data.getLsbD q else member s e' q := by
  by_cases heq : e' = e
  · subst heq
    rw [if_pos rfl, member, member_addr he' (by decide), member_addr he' (by decide), withMembers,
      member_addr he' (by decide), member_addr he' (by decide)]
    by_cases hfew : s.dev.numOfPorts ≤ 16
    · have hlt : q < 16 := by omega
      rw [if_pos hfew, if_pos hlt, put_reg, update_self, BitVec.getLsbD_setWidth]
      simp [hlt]
    · rw [if_neg hfew, put_reg, put_reg, update_of_ne (by omega), update_self, update_self, BitVec.getLsbD_setWidth,
        BitVec.getLsbD_setWidth, BitVec.getLsbD_ushiftRight]
      have hle := numOfPorts_le s.dev
      split_ifs with hlt
      · simp [hlt]
      · have hback : 16 + (q - 16) = q := by omega
        have hhigh : q - 16 < 16 := by omega
        simp [hback, hhigh]
  · rw [if_neg heq, withMembers, member_addr he (by decide), member_addr he (by decide)]
    split_ifs
    · exact member_put he' (by omega)
    · exact (member_put he' (by omega)).trans (member_put he' (by omega))

/-- A register that is not one of the entry. -/
theorem withMembers_reg (he : e ≤ 31) (ha : a ≠ 0x031D + 3 * e ∧ a ≠ 0x031E + 3 * e) :
    (withMembers s e data).reg a = s.reg a := by
  rw [withMembers, member_addr he (by decide), member_addr he (by decide)]
  split_ifs
  · rw [put_reg, update_of_ne (by omega)]
  · rw [put_reg, update_of_ne (by omega), put_reg, update_of_ne (by omega)]

theorem vid_withMembers (he : e ≤ 31) (he' : e' ≤ 31) : vid (withMembers s e data) e' = vid s e' := by
  rw [vid, vid, vid_addr he', withMembers_reg he (by omega)]

theorem index_withMembers (he : e ≤ 31) (hq : q < 32) : index (withMembers s e data) q = index s q := by
  rw [index, index, index_addr, withMembers_reg he (by omega)]

@[simp] theorem withMembers_dev : (withMembers s e data).dev = s.dev := by
  rw [withMembers]
  split_ifs <;> rfl

/-! ## The VID of an entry -/

@[simp] theorem withVid_dev : (withVid s e d).dev = s.dev := rfl

theorem member_withVid (he : e ≤ 31) (he' : e' ≤ 31) : member (withVid s e d) e' q = member s e' q :=
  member_put he' (by rw [vid_addr he]; omega)

theorem vid_withVid (he : e ≤ 31) (he' : e' ≤ 31) (hd : d.toNat < 4096) :
    vid (withVid s e d) e' = if e' = e then d else vid s e' := by
  by_cases heq : e' = e
  · subst heq
    rw [if_pos rfl, vid, withVid, put_reg, update_self]
    exact fields.get_put _ _ (by decide) hd
  · rw [if_neg heq]
    exact vid_put he' (by rw [vid_addr he]; omega)

theorem index_withVid (he : e ≤ 31) (hq : q < 32) : index (withVid s e d) q = index s q :=
  index_put (by rw [vid_addr he]; omega)

/-! ## The fields of a port -/

@[simp] theorem withField_dev {addr pos : Nat → Nat} {len : Nat} : (withField s addr pos len q d).dev = s.dev := rfl

theorem member_withIndex (he : e ≤ 31) (hq : q < 32) : member (withIndex s q d) e r = member s e r :=
  member_put he (by rw [index_addr]; omega)

theorem vid_withIndex (he : e ≤ 31) (hq : q < 32) : vid (withIndex s q d) e = vid s e :=
  vid_put he (by rw [index_addr]; omega)

theorem index_withIndex (hd : d.toNat < 32) : index (withIndex s q d) r = if r = q then d.toNat else index s r := by
  by_cases heq : r = q
  · subst heq
    rw [if_pos rfl, index, withIndex, withField, put_reg, update_self,
      fields.get_put _ _ (by rw [index_pos]; omega) hd]
  · rw [if_neg heq]
    by_cases haddr : q / 2 = r / 2
    · have hreg : RT8326_VLAN_IDX r = RT8326_VLAN_IDX q := by rw [index_addr, index_addr, haddr]
      rw [index, index, withIndex, withField, put_reg, hreg, update_self,
        fields.get_put_other _ _ fun i _ hlo hhi => by rw [index_pos] at hlo hhi ⊢; omega]
    · exact index_put (by rw [index_addr]; omega)

theorem member_withTag (he : e ≤ 31) (hq : q < 32) : member (withTag s q d) e r = member s e r :=
  member_put he (by rw [tag_addr]; omega)

theorem index_withTag (h : r / 2 ≠ 13 + q / 8) : index (withTag s q d) r = index s r :=
  index_put (by rw [tag_addr]; omega)

end

end gwdonu.vlan_table
