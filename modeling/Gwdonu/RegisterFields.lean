-- The settings of a port that are one field of a register each. The positions come from
-- macros: a base, so many ports to a register, and so many bits for a port.
import Gwdonu.RcpRegisters

namespace gwdonu.register_fields

open Function calls rcp_registers
open rcp (RCP_RET)

/-! ## The macros -/

def RT8326_PORT_CTL (i : Nat) : Nat := 0x020A + (i >>> 1)
def RX_Bandwidth_Pos (i : Nat) : Nat := 0 + (i &&& (2 - 1)) * 8
def TX_Bandwidth_Pos (i : Nat) : Nat := 4 + (i &&& (2 - 1)) * 8
def RT8326_MIB_OBJ_SEL (i : Nat) : Nat := 0x0700 + (i >>> 1)
def RX_MIB_OBJ_Pos (i : Nat) : Nat := 0 + (i &&& (2 - 1)) * 6
def TX_MIB_OBJ_Pos (i : Nat) : Nat := 2 + (i &&& (2 - 1)) * 6
def DN_MIB_OBJ_Pos (i : Nat) : Nat := 4 + (i &&& (2 - 1)) * 6
def RT8326_VLAN_IDX (i : Nat) : Nat := 0x030C + (i >>> 1)
def VID_Index_Pos (i : Nat) : Nat := 0 + (i &&& (2 - 1)) * 8
def RT8326_VLAN_PRI (i : Nat) : Nat := 0x0319 + (i >>> 3)
def PriTagCtrl_Pos (i : Nat) : Nat := 0 + (i &&& (8 - 1)) * 2
def RT8326_VLAN_PVID_CTL_BASE : Nat := 0x037D
def RT8326_PORT_PRI (i : Nat) : Nat := 0x0401 + (decide (i > 15)).toNat
def Port_Pri_Pos (i : Nat) : Nat := 0 + (i &&& (16 - 1)) * 1
def RT8326_PORT_MIRROR (i : Nat) : Nat := 0x0219 + (decide (i > 15)).toNat
def Port_Mirror_Pos (i : Nat) : Nat := 0 + (i &&& (16 - 1)) * 1
def RT8326_RX_MIRROR (i : Nat) : Nat := 0x021B + (decide (i > 15)).toNat
def RX_Mirror_Pos (i : Nat) : Nat := 0 + (i &&& (16 - 1)) * 1
def RT8326_TX_MIRROR (i : Nat) : Nat := 0x021D + (decide (i > 15)).toNat
def TX_Mirror_Pos (i : Nat) : Nat := 0 + (i &&& (16 - 1)) * 1
def RT8326_ALT_LEARN (i : Nat) : Nat := 0x0301 + (decide (i > 15)).toNat
def ALT_Learn_POS (i : Nat) : Nat := 1 + (i &&& (16 - 1)) * 1

/-! ## The accessors -/

def portGet (addr pos : Nat → Nat) (len slot port : Nat) : Rcp (BitVec 16) := do
  let phyPort ← RCPLPort2Port slot port
  RCP_GetRegField (addr phyPort) (pos phyPort) len

def portSet (addr pos : Nat → Nat) (len slot port : Nat) (data : BitVec 16) (flag : RCP_FLAG) : Rcp Unit := do
  let phyPort ← RCPLPort2Port slot port
  RCP_SetRegField (addr phyPort) (pos phyPort) len data flag

def RCP_GetPortRxBandwidth := portGet RT8326_PORT_CTL RX_Bandwidth_Pos 4
def RCP_SetPortRxBandwidth := portSet RT8326_PORT_CTL RX_Bandwidth_Pos 4
def RCP_GetPortTxBandwidth := portGet RT8326_PORT_CTL TX_Bandwidth_Pos 4
def RCP_SetPortTxBandwidth := portSet RT8326_PORT_CTL TX_Bandwidth_Pos 4
def RCP_GetMIBRxObject := portGet RT8326_MIB_OBJ_SEL RX_MIB_OBJ_Pos 2
def RCP_SetMIBRxObject := portSet RT8326_MIB_OBJ_SEL RX_MIB_OBJ_Pos 2
def RCP_GetMIBTxObject := portGet RT8326_MIB_OBJ_SEL TX_MIB_OBJ_Pos 2
def RCP_SetMIBTxObject := portSet RT8326_MIB_OBJ_SEL TX_MIB_OBJ_Pos 2
def RCP_GetMIBDnObject := portGet RT8326_MIB_OBJ_SEL DN_MIB_OBJ_Pos 2
def RCP_SetMIBDnObject := portSet RT8326_MIB_OBJ_SEL DN_MIB_OBJ_Pos 2
def RCP_GetVlanPortIDAssignment := portGet RT8326_VLAN_IDX VID_Index_Pos 5
def RCP_SetVlanPortIDAssignment := portSet RT8326_VLAN_IDX VID_Index_Pos 5
def RCP_GetVlanOutPortTag := portGet RT8326_VLAN_PRI PriTagCtrl_Pos 2
def RCP_SetVlanOutPortTag := portSet RT8326_VLAN_PRI PriTagCtrl_Pos 2
/-- The register of the base, and the port for the position. -/
def RCP_GetVlanInsertPVID := portGet (fun _ => RT8326_VLAN_PVID_CTL_BASE) (fun phyPort => phyPort) 1
def RCP_SetVlanInsertPVID := portSet (fun _ => RT8326_VLAN_PVID_CTL_BASE) (fun phyPort => phyPort) 1
def RCP_GetQosPortPriority := portGet RT8326_PORT_PRI Port_Pri_Pos 1
def RCP_SetQosPortPriority := portSet RT8326_PORT_PRI Port_Pri_Pos 1
def RCP_GetMirrorPort := portGet RT8326_PORT_MIRROR Port_Mirror_Pos 1
def RCP_SetMirrorPort := portSet RT8326_PORT_MIRROR Port_Mirror_Pos 1
def RCP_GetMirrorRxPort := portGet RT8326_RX_MIRROR RX_Mirror_Pos 1
def RCP_SetMirrorRxPort := portSet RT8326_RX_MIRROR RX_Mirror_Pos 1
def RCP_GetMirrorTxPort := portGet RT8326_TX_MIRROR TX_Mirror_Pos 1
def RCP_SetMirrorTxPort := portSet RT8326_TX_MIRROR TX_Mirror_Pos 1
def RCP_GetAtuLearning := portGet RT8326_ALT_LEARN ALT_Learn_POS 1
def RCP_SetAtuLearning := portSet RT8326_ALT_LEARN ALT_Learn_POS 1

inductive Accessor where
  | PortRxBandwidth
  | PortTxBandwidth
  | MIBRxObject
  | MIBTxObject
  | MIBDnObject
  | VlanPortIDAssignment
  | VlanOutPortTag
  | VlanInsertPVID
  | QosPortPriority
  | MirrorPort
  | MirrorRxPort
  | MirrorTxPort
  | AtuLearning
  deriving DecidableEq

namespace Accessor

def Get : Accessor → Nat → Nat → Rcp (BitVec 16)
  | PortRxBandwidth => RCP_GetPortRxBandwidth
  | PortTxBandwidth => RCP_GetPortTxBandwidth
  | MIBRxObject => RCP_GetMIBRxObject
  | MIBTxObject => RCP_GetMIBTxObject
  | MIBDnObject => RCP_GetMIBDnObject
  | VlanPortIDAssignment => RCP_GetVlanPortIDAssignment
  | VlanOutPortTag => RCP_GetVlanOutPortTag
  | VlanInsertPVID => RCP_GetVlanInsertPVID
  | QosPortPriority => RCP_GetQosPortPriority
  | MirrorPort => RCP_GetMirrorPort
  | MirrorRxPort => RCP_GetMirrorRxPort
  | MirrorTxPort => RCP_GetMirrorTxPort
  | AtuLearning => RCP_GetAtuLearning

def Set : Accessor → Nat → Nat → BitVec 16 → RCP_FLAG → Rcp Unit
  | PortRxBandwidth => RCP_SetPortRxBandwidth
  | PortTxBandwidth => RCP_SetPortTxBandwidth
  | MIBRxObject => RCP_SetMIBRxObject
  | MIBTxObject => RCP_SetMIBTxObject
  | MIBDnObject => RCP_SetMIBDnObject
  | VlanPortIDAssignment => RCP_SetVlanPortIDAssignment
  | VlanOutPortTag => RCP_SetVlanOutPortTag
  | VlanInsertPVID => RCP_SetVlanInsertPVID
  | QosPortPriority => RCP_SetQosPortPriority
  | MirrorPort => RCP_SetMirrorPort
  | MirrorRxPort => RCP_SetMirrorRxPort
  | MirrorTxPort => RCP_SetMirrorTxPort
  | AtuLearning => RCP_SetAtuLearning

/-! ## Where their fields are -/

def addr : Accessor → Nat → Nat
  | PortRxBandwidth | PortTxBandwidth => RT8326_PORT_CTL
  | MIBRxObject | MIBTxObject | MIBDnObject => RT8326_MIB_OBJ_SEL
  | VlanPortIDAssignment => RT8326_VLAN_IDX
  | VlanOutPortTag => RT8326_VLAN_PRI
  | VlanInsertPVID => fun _ => RT8326_VLAN_PVID_CTL_BASE
  | QosPortPriority => RT8326_PORT_PRI
  | MirrorPort => RT8326_PORT_MIRROR
  | MirrorRxPort => RT8326_RX_MIRROR
  | MirrorTxPort => RT8326_TX_MIRROR
  | AtuLearning => RT8326_ALT_LEARN

def pos : Accessor → Nat → Nat
  | PortRxBandwidth => RX_Bandwidth_Pos
  | PortTxBandwidth => TX_Bandwidth_Pos
  | MIBRxObject => RX_MIB_OBJ_Pos
  | MIBTxObject => TX_MIB_OBJ_Pos
  | MIBDnObject => DN_MIB_OBJ_Pos
  | VlanPortIDAssignment => VID_Index_Pos
  | VlanOutPortTag => PriTagCtrl_Pos
  | VlanInsertPVID => fun phyPort => phyPort
  | QosPortPriority => Port_Pri_Pos
  | MirrorPort => Port_Mirror_Pos
  | MirrorRxPort => RX_Mirror_Pos
  | MirrorTxPort => TX_Mirror_Pos
  | AtuLearning => ALT_Learn_POS

def len : Accessor → Nat
  | PortRxBandwidth | PortTxBandwidth => 4
  | MIBRxObject | MIBTxObject | MIBDnObject | VlanOutPortTag => 2
  | VlanPortIDAssignment => 5
  | _ => 1

/-- On the device, the field of the port is in its register and in no other field. -/
def Clear (d : RCP_DEVICE_ID) (p : Nat) : Accessor → Prop
  | VlanInsertPVID => p ≤ 16
  | AtuLearning => p ≠ 16 ∧ p ≠ 32
  | PortRxBandwidth | PortTxBandwidth => p ≤ 30
  | MirrorPort => d = .GH1532 → 16 < p
  | VlanPortIDAssignment => p ≤ 26
  | VlanOutPortTag => d = .GH1532 → 24 < p ∨ p % 4 = 0
  | _ => True

instance (d : RCP_DEVICE_ID) (p : Nat) (a : Accessor) : Decidable (a.Clear d p) := by
  unfold Clear
  split <;> infer_instance

theorem Get_eq (a : Accessor) : a.Get = portGet a.addr a.pos a.len := by cases a <;> rfl

theorem Set_eq (a : Accessor) : a.Set = portSet a.addr a.pos a.len := by cases a <;> rfl

theorem len_bounds (a : Accessor) : 0 < a.len ∧ a.len ≤ 16 := by cases a <;> decide

end Accessor

/-! ## The law -/

/-- What is set for port `p` reads back for it, and no other setting changes. -/
def Separate (d : RCP_DEVICE_ID) (a : Accessor) (p : Nat) : Prop :=
  ∀ (s : State) (data : BitVec 16), s.Faithful → s.dev.deviceId = d → data.toNat < 2 ^ a.len →
    Gives (a.Set 1 p data .RCP_CONFIG_2_REGISTER) s fun _ t =>
      (Gives (a.Get 1 p) t fun v _ => v = data) ∧
      ∀ a' : Accessor, ∀ p', 1 ≤ p' → p' ≤ d.numOfPorts → (a', p') ≠ (a, p) →
        Gives (a'.Get 1 p') t fun v _ => Gives (a'.Get 1 p') s fun v' _ => v = v'

/-! ## Which bits the fields have -/

def accessors : List Accessor :=
  [.PortRxBandwidth, .PortTxBandwidth, .MIBRxObject, .MIBTxObject, .MIBDnObject, .VlanPortIDAssignment,
    .VlanOutPortTag, .VlanInsertPVID, .QosPortPriority, .MirrorPort, .MirrorRxPort, .MirrorTxPort, .AtuLearning]

def portFields (n : Nat) : List (Accessor × Nat) := accessors.product (List.range n)

/-- The bits of all registers in a row, 16 for each. -/
def bits (f : Accessor × Nat) : Nat := (fields.mask 16 (f.1.pos f.2) f.1.len).toNat <<< (16 * f.1.addr f.2)

section
variable {n i i' k p : Nat} {a a' : Accessor} {d : RCP_DEVICE_ID}

theorem mem_portFields : (a, i) ∈ portFields n ↔ i < n := by
  rw [portFields, List.pair_mem_product, List.mem_range, and_iff_right]
  cases a <;> decide

theorem nodup_portFields (n : Nat) : (portFields n).Nodup :=
  List.Nodup.product (by decide) List.nodup_range

theorem testBit_bits : (bits (a, i)).testBit k = true ↔
    a.addr i = k / 16 ∧ a.pos i ≤ k % 16 ∧ k % 16 < a.pos i + a.len := by
  rw [bits, Nat.testBit_shiftLeft, BitVec.testBit_toNat, fields.getLsbD_mask]
  simp only [Bool.and_eq_true, decide_eq_true_eq]
  omega

/-- Which fields are apart, on each device. -/
theorem clear_checked : ∀ f ∈ portFields d.numOfPorts, f.1.Clear d (f.2 + 1) ↔
    f.1.pos f.2 + f.1.len ≤ 16 ∧ bits f &&& (fields.cover ((portFields d.numOfPorts).map bits)).2 = 0 := by
  cases d <;> decide +kernel

/-- No bit of the field is in another one. -/
def Apart (d : RCP_DEVICE_ID) (a : Accessor) (i : Nat) : Prop :=
  ∀ a' : Accessor, ∀ i' < d.numOfPorts, (a', i') ≠ (a, i) →
    ∀ k, (bits (a, i)).testBit k = true → (bits (a', i')).testBit k = false

theorem clear_iff (hi : i < d.numOfPorts) : a.Clear d (i + 1) ↔ a.pos i + a.len ≤ 16 ∧ Apart d a i := by
  have hmem : (a, i) ∈ portFields d.numOfPorts := mem_portFields.mpr hi
  rw [clear_checked (a, i) hmem, fields.and_cover_eq_zero (nodup_portFields _) hmem, Prod.forall]
  simp only [mem_portFields, Apart]

/-! ## The accesses -/

variable {s : State} {E : RCP_RET → State → Prop} {data : BitVec 16}

theorem meets_Get {Q : BitVec 16 → State → Prop} (hi : i < s.dev.numOfPorts) :
    Meets (a.Get 1 (i + 1)) s Q E ↔ Q (fields.get (s.reg (a.addr i)) (a.pos i) a.len) s := by
  rw [a.Get_eq, portGet, meets_bind, meets_lPort2Port ⟨by omega, hi⟩, meets_getRegField]
  exact Iff.rfl

theorem meets_Set {Q : Unit → State → Prop} (hs : s.Faithful) (hi : i < s.dev.numOfPorts) :
    Meets (a.Set 1 (i + 1) data .RCP_CONFIG_2_REGISTER) s Q E ↔
      Q () (s.put (a.addr i) (fields.put (s.reg (a.addr i)) data (a.pos i) a.len)) := by
  rw [a.Set_eq, portSet, meets_bind, meets_lPort2Port ⟨by omega, hi⟩, meets_setRegField, meets_setRegisterField,
    State.Sure.write (hs _)]
  exact Iff.rfl

/-! ## The exact condition -/

/-- What a set of the field does to another field. -/
theorem get_set_other (h : Apart d a i) (hi' : i' < d.numOfPorts) (hne : (a', i') ≠ (a, i)) :
    fields.get (update s.reg (a.addr i) (fields.put (s.reg (a.addr i)) data (a.pos i) a.len) (a'.addr i'))
      (a'.pos i') a'.len = fields.get (s.reg (a'.addr i')) (a'.pos i') a'.len := by
  by_cases haddr : a'.addr i' = a.addr i
  · rw [haddr, update_self]
    refine fields.get_put_other _ _ fun j hj hlo hhi hin => ?_
    have hfalse := h a' i' hi' hne (16 * a.addr i + j) (testBit_bits.mpr (by omega))
    have htrue : (bits (a', i')).testBit (16 * a.addr i + j) = true := testBit_bits.mpr (by omega)
    rw [htrue] at hfalse
    cases hfalse
  · rw [update_of_ne haddr]

theorem separate_of_clear (hi : i < d.numOfPorts) (h : a.Clear d (i + 1)) : Separate d a (i + 1) := by
  intro s data hs hd hdata
  obtain ⟨hfits, hapart⟩ := (clear_iff hi).mp h
  have hn : s.dev.numOfPorts = d.numOfPorts := by rw [RCP_DEV.numOfPorts, hd]
  rw [Gives, meets_Set hs (hn ▸ hi)]
  refine ⟨?_, ?_⟩
  · rw [Gives, meets_Get (hn ▸ hi), put_reg, update_self]
    exact fields.get_put _ _ hfits hdata
  · intro a' p' hp' hn' hne
    obtain ⟨i', rfl⟩ : ∃ i', p' = i' + 1 := ⟨p' - 1, by omega⟩
    have hne' : (a', i') ≠ (a, i) := by
      simpa using hne
    rw [Gives, meets_Get (hn ▸ hn'), Gives, meets_Get (hn ▸ hn'), put_reg]
    exact get_set_other hapart hn' hne'

theorem clear_of_separate (hi : i < d.numOfPorts) (h : Separate d a (i + 1)) : a.Clear d (i + 1) := by
  have hset (r data : BitVec 16) (hdata : data.toNat < 2 ^ a.len) := h (uniform d r) data (fun _ _ => rfl) rfl hdata
  simp only [Gives] at hset
  obtain ⟨hpos, hlen⟩ := a.len_bounds
  rw [clear_iff hi]
  refine ⟨?_, ?_⟩
  · by_contra hlong
    obtain ⟨data, hdata, hlost⟩ := fields.get_put_long (0 : BitVec 16) hpos hlen (Nat.not_le.mp hlong)
    have hback := hset 0 data hdata
    rw [meets_Set (fun _ _ => rfl) hi, meets_Get hi, put_reg, update_self] at hback
    exact hlost hback.1
  · intro a' i' hi' hne k hk
    by_contra hshared
    rw [Bool.not_eq_false, testBit_bits] at hshared
    rw [testBit_bits] at hk
    have hne' : (a', i' + 1) ≠ (a, i + 1) := by
      simpa using hne
    obtain ⟨r, data, hdata, hshows⟩ := fields.get_put_shared (Nat.mod_lt k (by decide)) hk.2 hshared.2
    have hother := hset r data hdata
    rw [meets_Set (fun _ _ => rfl) hi] at hother
    have hsame := hother.2 a' (i' + 1) (by omega) hi' hne'
    rw [meets_Get hi', meets_Get hi', put_reg, hshared.1, ← hk.1, update_self] at hsame
    exact hshows hsame

end

/-- Port 17 has no bit in the register of the first 16 ports, where its flag goes. -/
theorem insertPVID_of_port_17_is_lost : ¬ Separate .GH1524 .VlanInsertPVID 17 := by
  intro h
  have hset := h (uniform .GH1524 0) 1 (fun _ _ => rfl) rfl (by decide)
  rw [Gives, meets_Set (fun _ _ => rfl) (by decide), Gives, meets_Get (by decide)] at hset
  exact absurd hset.1 (by decide)

/-- A setting of a port reads back and leaves all others alone just when its field is clear. -/
theorem a_setting_is_separate_iff_its_field_is_clear (d : RCP_DEVICE_ID) (a : Accessor) (p : Nat)
    (hp : 1 ≤ p) (hn : p ≤ d.numOfPorts) : Separate d a p ↔ a.Clear d p := by
  obtain ⟨i, rfl⟩ : ∃ i, p = i + 1 := ⟨p - 1, by omega⟩
  exact ⟨clear_of_separate hn, separate_of_clear hn⟩

theorem the_last_index_of_16_ports_is_separate : Separate .GH1516 .VlanPortIDAssignment 16 :=
  (a_setting_is_separate_iff_its_field_is_clear .GH1516 .VlanPortIDAssignment 16 (by decide)
    (by decide)).mpr (by decide)

end gwdonu.register_fields
