-- The settings of a switch as a store. What was set last of a setting is what it reads, whatever
-- else was set meanwhile, in the registers or in the EEPROM, and whatever of it failed; apart from
-- the settings that share their bits.
import Gwdonu.Lib.Runs
import Gwdonu.VlanCli

namespace gwdonu.switch_settings

open Function calls rcp_registers register_fields runs
open rcp (RCP_RET)
open vlans (RCP_SetVlan8021Q)
open vlan_cli (RCP_GetVlan8021Q)

/-! ## The program -/

def RT8326_SWITCH_CTL : Nat := 0x0001
def RT8326_RRCP_CTL_BASE : Nat := 0x0200
def RT8326_ALT_CONFIG : Nat := 0x0300
def RT8326_IGMP_SNOOP_BASE : Nat := 0x0308
def RT8326_VLAN_CTL_BASE : Nat := 0x030B
def RT8326_QOS_CTL_BASE : Nat := 0x0400
def RT8326_GLOBAL_PORT_CTL_BASE : Nat := 0x0607

def RCP_GetMaxPktLength := RCP_GetRegField RT8326_SWITCH_CTL 0 2
def RCP_SetMaxPktLength (data : BitVec 16) := RCP_SetRegField RT8326_SWITCH_CTL 0 2 data .RCP_CONFIG_2_REGISTER
def RCP_GetFullDuplexFC := RCP_GetRegField RT8326_GLOBAL_PORT_CTL_BASE 0 1
def RCP_SetFullDuplexFC := RCP_SetRegField RT8326_GLOBAL_PORT_CTL_BASE 0 1
/-- The bit of the full duplex. -/
def RCP_GetHalfDuplexFC := RCP_GetRegField RT8326_GLOBAL_PORT_CTL_BASE 0 1
def RCP_SetHalfDuplexFC := RCP_SetRegField RT8326_GLOBAL_PORT_CTL_BASE 0 1
def RCP_GetBroadcastFC := RCP_GetRegField RT8326_GLOBAL_PORT_CTL_BASE 2 1
def RCP_SetBroadcastFC := RCP_SetRegField RT8326_GLOBAL_PORT_CTL_BASE 2 1
def RCP_GetMulticastFC := RCP_GetRegField RT8326_GLOBAL_PORT_CTL_BASE 3 1
def RCP_SetMulticastFC := RCP_SetRegField RT8326_GLOBAL_PORT_CTL_BASE 3 1
def RCP_GetBroadcastStormFilter := RCP_GetRegField RT8326_GLOBAL_PORT_CTL_BASE 4 1
def RCP_SetBroadcastStormFilter := RCP_SetRegField RT8326_GLOBAL_PORT_CTL_BASE 4 1
def RCP_GetLoopDetect := RCP_GetRegField RT8326_RRCP_CTL_BASE 2 1
def RCP_SetLoopDetect := RCP_SetRegField RT8326_RRCP_CTL_BASE 2 1
def RCP_GetIGMPSnooping := RCP_GetRegField RT8326_IGMP_SNOOP_BASE 0 1
def RCP_SetIGMPSnooping := RCP_SetRegField RT8326_IGMP_SNOOP_BASE 0 1
def RCP_GetQosDiffPriority := RCP_GetRegField RT8326_QOS_CTL_BASE 0 1
def RCP_SetQosDiffPriority := RCP_SetRegField RT8326_QOS_CTL_BASE 0 1
def RCP_GetQosVlanPriority := RCP_GetRegField RT8326_QOS_CTL_BASE 1 1
def RCP_SetQosVlanPriority := RCP_SetRegField RT8326_QOS_CTL_BASE 1 1
def RCP_GetQosMapMode := RCP_GetRegField RT8326_QOS_CTL_BASE 0 2
def RCP_SetQosMapMode := RCP_SetRegField RT8326_QOS_CTL_BASE 0 2
def RCP_GetQosAdapterFC := RCP_GetRegField RT8326_QOS_CTL_BASE 2 1
def RCP_SetQosAdapterFC := RCP_SetRegField RT8326_QOS_CTL_BASE 2 1
def RCP_GetQosPrioRatio := RCP_GetRegField RT8326_QOS_CTL_BASE 3 2
def RCP_SetQosPrioRatio := RCP_SetRegField RT8326_QOS_CTL_BASE 3 2
def RCP_GetVlanEnable := RCP_GetRegField RT8326_VLAN_CTL_BASE 0 1
def RCP_SetVlanEnable := RCP_SetRegField RT8326_VLAN_CTL_BASE 0 1
def RCP_GetVlanUnicastLeaky := RCP_GetRegField RT8326_VLAN_CTL_BASE 1 1
def RCP_SetVlanUnicastLeaky := RCP_SetRegField RT8326_VLAN_CTL_BASE 1 1
def RCP_GetVlanArpLeaky := RCP_GetRegField RT8326_VLAN_CTL_BASE 2 1
def RCP_SetVlanArpLeaky := RCP_SetRegField RT8326_VLAN_CTL_BASE 2 1
def RCP_GetVlanMulticastLeaky := RCP_GetRegField RT8326_VLAN_CTL_BASE 3 1
def RCP_SetVlanMulticastLeaky := RCP_SetRegField RT8326_VLAN_CTL_BASE 3 1
def RCP_GetVlan8021QTagOnly := RCP_GetRegField RT8326_VLAN_CTL_BASE 5 1
def RCP_SetVlan8021QTagOnly := RCP_SetRegField RT8326_VLAN_CTL_BASE 5 1
def RCP_GetVlanIRMember := RCP_GetRegField RT8326_VLAN_CTL_BASE 6 1
def RCP_SetVlanIRMember := RCP_SetRegField RT8326_VLAN_CTL_BASE 6 1
def RCP_GetVlanIngressFilter := RCP_GetRegField RT8326_VLAN_CTL_BASE 6 1
def RCP_SetVlanIngressFilter := RCP_SetRegField RT8326_VLAN_CTL_BASE 6 1
def RCP_GetAtuAgingEnable := RCP_GetRegField RT8326_ALT_CONFIG 0 1
def RCP_SetAtuAgingEnable := RCP_SetRegField RT8326_ALT_CONFIG 0 1
def RCP_GetAtuFastAgingEnable := RCP_GetRegField RT8326_ALT_CONFIG 1 1
def RCP_SetAtuFastAgingEnable := RCP_SetRegField RT8326_ALT_CONFIG 1 1
def RCP_GetAtuCtrlFrameFilter := RCP_GetRegField RT8326_ALT_CONFIG 2 1
def RCP_SetAtuCtrlFrameFilter := RCP_SetRegField RT8326_ALT_CONFIG 2 1

/-- A setting of the device, or of its port `i + 1`. -/
inductive Setting where
  | MaxPktLength
  | FullDuplexFC
  | HalfDuplexFC
  | BroadcastFC
  | MulticastFC
  | BroadcastStormFilter
  | LoopDetect
  | IGMPSnooping
  | QosDiffPriority
  | QosVlanPriority
  | QosMapMode
  | QosAdapterFC
  | QosPrioRatio
  | VlanEnable
  | VlanUnicastLeaky
  | VlanArpLeaky
  | VlanMulticastLeaky
  | Vlan8021Q
  | Vlan8021QTagOnly
  | VlanIRMember
  | VlanIngressFilter
  | AtuAgingEnable
  | AtuFastAgingEnable
  | AtuCtrlFrameFilter
  | port (a : Accessor) (i : Nat)
  deriving DecidableEq

namespace Setting

def Get : Setting → Rcp (BitVec 16)
  | MaxPktLength => RCP_GetMaxPktLength
  | FullDuplexFC => RCP_GetFullDuplexFC
  | HalfDuplexFC => RCP_GetHalfDuplexFC
  | BroadcastFC => RCP_GetBroadcastFC
  | MulticastFC => RCP_GetMulticastFC
  | BroadcastStormFilter => RCP_GetBroadcastStormFilter
  | LoopDetect => RCP_GetLoopDetect
  | IGMPSnooping => RCP_GetIGMPSnooping
  | QosDiffPriority => RCP_GetQosDiffPriority
  | QosVlanPriority => RCP_GetQosVlanPriority
  | QosMapMode => RCP_GetQosMapMode
  | QosAdapterFC => RCP_GetQosAdapterFC
  | QosPrioRatio => RCP_GetQosPrioRatio
  | VlanEnable => RCP_GetVlanEnable
  | VlanUnicastLeaky => RCP_GetVlanUnicastLeaky
  | VlanArpLeaky => RCP_GetVlanArpLeaky
  | VlanMulticastLeaky => RCP_GetVlanMulticastLeaky
  | Vlan8021Q => RCP_GetVlan8021Q
  | Vlan8021QTagOnly => RCP_GetVlan8021QTagOnly
  | VlanIRMember => RCP_GetVlanIRMember
  | VlanIngressFilter => RCP_GetVlanIngressFilter
  | AtuAgingEnable => RCP_GetAtuAgingEnable
  | AtuFastAgingEnable => RCP_GetAtuFastAgingEnable
  | AtuCtrlFrameFilter => RCP_GetAtuCtrlFrameFilter
  | port a i => a.Get 1 (i + 1)

def Set : Setting → BitVec 16 → RCP_FLAG → Rcp Unit
  | MaxPktLength => fun data _ => RCP_SetMaxPktLength data
  | FullDuplexFC => RCP_SetFullDuplexFC
  | HalfDuplexFC => RCP_SetHalfDuplexFC
  | BroadcastFC => RCP_SetBroadcastFC
  | MulticastFC => RCP_SetMulticastFC
  | BroadcastStormFilter => RCP_SetBroadcastStormFilter
  | LoopDetect => RCP_SetLoopDetect
  | IGMPSnooping => RCP_SetIGMPSnooping
  | QosDiffPriority => RCP_SetQosDiffPriority
  | QosVlanPriority => RCP_SetQosVlanPriority
  | QosMapMode => RCP_SetQosMapMode
  | QosAdapterFC => RCP_SetQosAdapterFC
  | QosPrioRatio => RCP_SetQosPrioRatio
  | VlanEnable => RCP_SetVlanEnable
  | VlanUnicastLeaky => RCP_SetVlanUnicastLeaky
  | VlanArpLeaky => RCP_SetVlanArpLeaky
  | VlanMulticastLeaky => RCP_SetVlanMulticastLeaky
  | Vlan8021Q => RCP_SetVlan8021Q
  | Vlan8021QTagOnly => RCP_SetVlan8021QTagOnly
  | VlanIRMember => RCP_SetVlanIRMember
  | VlanIngressFilter => RCP_SetVlanIngressFilter
  | AtuAgingEnable => RCP_SetAtuAgingEnable
  | AtuFastAgingEnable => RCP_SetAtuFastAgingEnable
  | AtuCtrlFrameFilter => RCP_SetAtuCtrlFrameFilter
  | port a i => a.Set 1 (i + 1)

/-! ## The store -/

/-- How many bits it has. -/
def len : Setting → Nat
  | MaxPktLength | QosMapMode | QosPrioRatio => 2
  | port a _ => a.len
  | _ => 1

/-- Some settings go by two names. -/
def name : Setting → Setting
  | HalfDuplexFC => FullDuplexFC
  | VlanIngressFilter => VlanIRMember
  | x => x

/-- Nothing but the setting itself is kept in its bits: no other setting, and no access to the
EEPROM. -/
def Own (d : RCP_DEVICE_ID) : Setting → Prop
  | port a i => i < d.numOfPorts ∧ a.Clear d (i + 1) ∧ (a = .PortRxBandwidth ∨ a = .PortTxBandwidth → i < 26)
  | _ => True

instance (d : RCP_DEVICE_ID) (x : Setting) : Decidable (x.Own d) := by
  unfold Own
  split <;> infer_instance

end Setting

/-- What each setting is, under its first name. -/
abbrev Store := Setting → BitVec 16

/-- As many bits as a setting has. -/
def low (len : Nat) (data : BitVec 16) : BitVec 16 := BitVec.ofNat 16 (data.toNat % 2 ^ len)

/-- The two priorities make up the mode. -/
def Store.read (m : Store) : Setting → BitVec 16
  | .QosMapMode => m .QosVlanPriority <<< 1 ||| m .QosDiffPriority
  | x => m x.name

def Store.write (m : Store) (x : Setting) (data : BitVec 16) : Store :=
  match x with
  | .QosMapMode => update (update m .QosDiffPriority (low 1 data)) .QosVlanPriority (low 1 (data >>> 1))
  | x => update m x.name (low x.len data)

structure Call where
  setting : Setting
  data : BitVec 16
  flag : RCP_FLAG

/-- The length of packets has no flag. -/
def Call.toRegister (c : Call) : Bool := c.setting = .MaxPktLength ∨ c.flag.toRegister

/-- A call that fails sets nothing, and neither does one that is only for the EEPROM. -/
def step (now : State × Store) (c : Call) : State × Store :=
  match c.setting.Set c.data c.flag now.1 with
  | .ok _ t => (t, if c.toRegister then now.2.write c.setting c.data else now.2)
  | .error _ t => (t, now.2)

/-- What the settings are at the start. -/
def Store.shown (s : State) : Store := fun x =>
  match x.Get s with
  | .ok data _ => data
  | .error _ _ => 0

/-! ## Where the settings are -/

namespace Setting

def addr : Setting → Nat
  | MaxPktLength => RT8326_SWITCH_CTL
  | LoopDetect => RT8326_RRCP_CTL_BASE
  | IGMPSnooping => RT8326_IGMP_SNOOP_BASE
  | FullDuplexFC | HalfDuplexFC | BroadcastFC | MulticastFC | BroadcastStormFilter => RT8326_GLOBAL_PORT_CTL_BASE
  | QosDiffPriority | QosVlanPriority | QosMapMode | QosAdapterFC | QosPrioRatio => RT8326_QOS_CTL_BASE
  | AtuAgingEnable | AtuFastAgingEnable | AtuCtrlFrameFilter => RT8326_ALT_CONFIG
  | port a i => a.addr i
  | _ => RT8326_VLAN_CTL_BASE

def pos : Setting → Nat
  | QosVlanPriority | VlanUnicastLeaky | AtuFastAgingEnable => 1
  | BroadcastFC | LoopDetect | QosAdapterFC | VlanArpLeaky | AtuCtrlFrameFilter => 2
  | MulticastFC | QosPrioRatio | VlanMulticastLeaky => 3
  | BroadcastStormFilter | Vlan8021Q => 4
  | Vlan8021QTagOnly => 5
  | VlanIRMember | VlanIngressFilter => 6
  | port a i => a.pos i
  | _ => 0

/-- The device has the port. -/
def Exists (d : RCP_DEVICE_ID) : Setting → Prop
  | port _ i => i < d.numOfPorts
  | _ => True

/-- A first name, and not one for two. -/
def Base (y : Setting) : Prop := y.name = y ∧ y ≠ .QosMapMode

def devices : List Setting :=
  [MaxPktLength, FullDuplexFC, HalfDuplexFC, BroadcastFC, MulticastFC, BroadcastStormFilter, LoopDetect, IGMPSnooping,
    QosDiffPriority, QosVlanPriority, QosMapMode, QosAdapterFC, QosPrioRatio, VlanEnable, VlanUnicastLeaky,
    VlanArpLeaky, VlanMulticastLeaky, Vlan8021Q, Vlan8021QTagOnly, VlanIRMember, VlanIngressFilter, AtuAgingEnable,
    AtuFastAgingEnable, AtuCtrlFrameFilter]

theorem device_or_port (x : Setting) : x ∈ devices ∨ ∃ a i, x = port a i := by
  cases x with
  | port a i => exact .inr ⟨a, i, rfl⟩
  | _ => exact .inl (by decide)

theorem Get_eq {x : Setting} (hx : x ∈ devices) : x.Get = RCP_GetRegField x.addr x.pos x.len := by
  cases x with
  | port a i => exact absurd hx (by simp [devices])
  | _ => rfl

/-- No setting has a bit of the other. -/
def Apart (x y : Setting) : Prop :=
  x.addr = y.addr → ∀ i, i < 16 → x.pos ≤ i → i < x.pos + x.len → ¬ (y.pos ≤ i ∧ i < y.pos + y.len)

theorem devices_checked : ∀ x ∈ devices, ∀ y ∈ devices, x.name ≠ y.name →
    (x = .QosMapMode → y ≠ .QosDiffPriority ∧ y ≠ .QosVlanPriority) →
    (y = .QosMapMode → x ≠ .QosDiffPriority ∧ x ≠ .QosVlanPriority) →
    x.addr ≠ y.addr ∨ x.pos + x.len ≤ y.pos ∨ y.pos + y.len ≤ x.pos := by
  decide +kernel

theorem ports_checked : ∀ a ∈ accessors, ∀ i ∈ List.range 32, (∀ x ∈ devices, x.addr ≠ a.addr i) ∧
    (a.addr i = RT8326_EEPROM_RW_CTL ∨ a.addr i = RT8326_EEPROM_RW_DATA →
      (a = .PortRxBandwidth ∨ a = .PortTxBandwidth) ∧ 26 ≤ i) := by
  decide +kernel

theorem devices_fit : ∀ x ∈ devices, x.pos + x.len ≤ 16 ∧ x.addr ≠ RT8326_EEPROM_RW_CTL ∧
    x.addr ≠ RT8326_EEPROM_RW_DATA := by
  decide +kernel

theorem name_place (x : Setting) : x.name.addr = x.addr ∧ x.name.pos = x.pos ∧ x.name.len = x.len := by
  cases x <;> exact ⟨rfl, rfl, rfl⟩

section
variable {d : RCP_DEVICE_ID} {x y : Setting}

theorem port_checked (a : Accessor) {i : Nat} (hi : i < d.numOfPorts) : (∀ x ∈ devices, x.addr ≠ a.addr i) ∧
    (a.addr i = RT8326_EEPROM_RW_CTL ∨ a.addr i = RT8326_EEPROM_RW_DATA →
      (a = .PortRxBandwidth ∨ a = .PortTxBandwidth) ∧ 26 ≤ i) := by
  have hn : d.numOfPorts ≤ 32 := by cases d <;> decide
  exact ports_checked a (by cases a <;> decide) i (List.mem_range.mpr (by omega))

theorem Own.exists (h : x.Own d) : x.Exists d := by
  cases x with
  | port a i => exact h.1
  | _ => trivial

theorem Own.fits (h : x.Own d) : x.pos + x.len ≤ 16 := by
  rcases x.device_or_port with hx | ⟨a, i, rfl⟩
  · exact (devices_fit x hx).1
  · exact ((clear_iff h.1).mp h.2.1).1

theorem Own.register (h : x.Own d) : x.addr ≠ RT8326_EEPROM_RW_CTL ∧ x.addr ≠ RT8326_EEPROM_RW_DATA := by
  rcases x.device_or_port with hx | ⟨a, i, rfl⟩
  · exact (devices_fit x hx).2
  · have hclear : a.addr i = RT8326_EEPROM_RW_CTL ∨ a.addr i = RT8326_EEPROM_RW_DATA → False := by
      intro heeprom
      obtain ⟨ha, hi⟩ := (port_checked a h.1).2 heeprom
      exact absurd (h.2.2 ha) (Nat.not_lt.mpr hi)
    exact ⟨fun he => hclear (.inl he), fun he => hclear (.inr he)⟩

theorem Base.of_device (hy : y.Base) (hx : x.name ≠ y)
    (hmode : x = .QosMapMode → y ≠ .QosDiffPriority ∧ y ≠ .QosVlanPriority) (hxd : x ∈ devices)
    (hyd : y ∈ devices) : x.Apart y := by
  have hne : x.name ≠ y.name := by
    rw [hy.1]
    exact hx
  intro haddr i _ hlo hhi hin
  rcases devices_checked x hxd y hyd hne hmode (fun h => absurd h hy.2) with h | h | h
  · exact h haddr
  · omega
  · omega

/-- A setting with bits of its own has none of another. -/
theorem Own.apart (h : y.Own d) (hy : y.Base) (hx : x.Exists d) (hne : x.name ≠ y)
    (hmode : x = .QosMapMode → y ≠ .QosDiffPriority ∧ y ≠ .QosVlanPriority) : x.Apart y := by
  rcases x.device_or_port with hxd | ⟨a, i, rfl⟩
  · rcases y.device_or_port with hyd | ⟨a', i', rfl⟩
    · exact hy.of_device hne hmode hxd hyd
    · intro haddr
      exact absurd haddr ((port_checked a' h.1).1 x hxd)
  · rcases y.device_or_port with hyd | ⟨a', i', rfl⟩
    · intro haddr
      exact absurd haddr.symm ((port_checked a hx).1 y hyd)
    · have hapart := ((clear_iff h.1).mp h.2.1).2
      have hpair : (a, i) ≠ (a', i') := by
        intro he
        obtain ⟨rfl, rfl⟩ := Prod.mk.inj he
        exact hne rfl
      intro haddr k hk hlo hhi hin
      change a.addr i = a'.addr i' at haddr
      change a.pos i ≤ k at hlo
      change k < a.pos i + a.len at hhi
      change a'.pos i' ≤ k ∧ k < a'.pos i' + a'.len at hin
      have hfalse := hapart a i hx hpair (16 * a'.addr i' + k) (testBit_bits.mpr (by omega))
      have htrue : (bits (a, i)).testBit (16 * a'.addr i' + k) = true := testBit_bits.mpr (by omega)
      rw [htrue] at hfalse
      cases hfalse

end

end Setting

/-! ## The accesses -/

/-- The field of the setting. -/
def field (reg : Nat → BitVec 16) (x : Setting) : BitVec 16 := fields.get (reg x.addr) x.pos x.len

/-- Of the device and its registers, only those of the EEPROM change. -/
structure Quiet (s t : State) : Prop where
  dev : t.dev = s.dev
  reg : ∀ a, a ≠ RT8326_EEPROM_RW_CTL → a ≠ RT8326_EEPROM_RW_DATA → t.reg a = s.reg a

section
variable {s t u : State}

theorem Quiet.rfl : Quiet s s := ⟨Eq.refl _, fun _ _ _ => Eq.refl _⟩

theorem Quiet.trans (h : Quiet s t) (h' : Quiet t u) : Quiet s u :=
  ⟨h'.dev.trans h.dev, fun a hctl hdata => (h'.reg a hctl hdata).trans (h.reg a hctl hdata)⟩

theorem quiet_write {a : Nat} (ha : a = RT8326_EEPROM_RW_CTL ∨ a = RT8326_EEPROM_RW_DATA) (off len : Nat)
    (data : BitVec 16) : Always (RCP_SetRegisterField a off len data) s (Quiet s) := by
  rw [Always, meets_setRegisterField, meets_write]
  split_ifs
  · exact ⟨Eq.refl _, fun _ _ _ => Eq.refl _⟩
  · refine ⟨Eq.refl _, fun b hctl hdata => update_of_ne ?_ _ _⟩
    rintro rfl
    rcases ha with rfl | rfl
    · exact hctl (Eq.refl _)
    · exact hdata (Eq.refl _)

theorem quiet_getEepromValue (eeAddr : Nat) : Always (RCP_GetEepromValue eeAddr) s (Quiet s) := by
  rw [RCP_GetEepromValue, Always, meets_bind]
  exact (quiet_write (.inl (Eq.refl _)) _ _ _).imp (fun _ t ht => ht) fun _ _ ht => ht

theorem quiet_setEepromValue (eeAddr : Nat) (value : BitVec 8) :
    Always (RCP_SetEepromValue eeAddr value) s (Quiet s) := by
  rw [RCP_SetEepromValue, Always, meets_bind]
  refine (quiet_write (.inr (Eq.refl _)) _ _ _).imp (fun _ t ht => ?_) fun _ _ ht => ht
  rw [meets_bind]
  refine (quiet_write (.inl (Eq.refl _)) _ _ _).imp (fun _ u hu => ?_) fun _ _ hu => ht.trans hu
  rw [meets_modify]
  exact ⟨(ht.trans hu).dev, (ht.trans hu).reg⟩

theorem quiet_setEepromField (eeAddr off len : Nat) (value : BitVec 8) :
    Always (RCP_SetEepromField eeAddr off len value) s (Quiet s) := by
  rw [RCP_SetEepromField, Always, meets_bind]
  refine (quiet_getEepromValue eeAddr).imp (fun v t ht => ?_) fun _ _ ht => ht
  exact (quiet_setEepromValue eeAddr _).imp (fun _ _ hu => ht.trans hu) fun _ _ hu => ht.trans hu

theorem quiet_eeprom (toEeprom : Prop) [Decidable toEeprom] (a off len : Nat) (data : BitVec 16) :
    Always (when toEeprom do
      let f ← eeaddrFromReg a off len
      RCP_SetEepromField f.eeAddr f.eeOffset f.eeLength (data.setWidth 8)) s (Quiet s) := by
  rw [Always, meets_when]
  refine ⟨fun _ => ?_, fun _ => Quiet.rfl⟩
  rw [meets_bind, eeaddrFromReg, meets_bind, meets_get]
  split
  · exact quiet_setEepromField _ _ _ _
  · exact Quiet.rfl

/-- A set changes the register when it is for it and returns `RCP_OK`, and nothing else. -/
theorem meets_setRegField' (a off len : Nat) (data : BitVec 16) (flag : RCP_FLAG) :
    Meets (RCP_SetRegField a off len data flag) s
      (fun _ t => Quiet (if flag.toRegister then s.put a (fields.put (s.reg a) data off len) else s) t)
      fun _ t => Quiet s t := by
  rw [RCP_SetRegField, meets_bind]
  refine (quiet_eeprom flag.toEeprom a off len data).imp (fun _ t ht => ?_) fun _ _ ht => ht
  rw [meets_when]
  refine ⟨fun hflag => ?_, fun hflag => ?_⟩
  · rw [if_pos hflag, meets_setRegisterField, meets_write]
    split_ifs
    · exact ⟨ht.dev, ht.reg⟩
    · refine ⟨ht.dev, fun b hctl hdata => ?_⟩
      by_cases hb : b = a
      · subst hb
        rw [put_reg, put_reg, update_self, update_self, ht.reg b hctl hdata]
      · rw [put_reg, put_reg, update_of_ne hb, update_of_ne hb, ht.reg b hctl hdata]
  · rw [if_neg hflag]
    exact ht

theorem meets_Get {x : Setting} (hx : x.Exists s.dev.deviceId) {Q : BitVec 16 → State → Prop}
    {E : RCP_RET → State → Prop} : Meets x.Get s Q E ↔ Q (field s.reg x) s := by
  rcases x.device_or_port with hdevice | ⟨a, i, rfl⟩
  · rw [Setting.Get_eq hdevice, meets_getRegField]
    exact Iff.rfl
  · exact register_fields.meets_Get hx

theorem shown_eq {x : Setting} (hx : x.Exists s.dev.deviceId) : Store.shown s x = field s.reg x := by
  have hget : x.Get s = .ok (field s.reg x) s := ok_iff.mpr ((meets_Get hx).mpr ⟨rfl, rfl⟩)
  unfold Store.shown
  rw [hget]

theorem toRegister_eq {x : Setting} (hx : x ≠ .MaxPktLength) {data : BitVec 16} {flag : RCP_FLAG} :
    Call.toRegister ⟨x, data, flag⟩ = flag.toRegister := by
  simp [Call.toRegister, hx]

/-- What a set does to a setting of the device, and that it fails for a port that is not there. -/
theorem meets_Set (c : Call) : Meets (c.setting.Set c.data c.flag) s
    (fun _ t => c.setting.Exists s.dev.deviceId ∧ Quiet (if c.toRegister then
      s.put c.setting.addr (fields.put (s.reg c.setting.addr) c.data c.setting.pos c.setting.len) else s) t)
    fun _ t => Quiet s t := by
  obtain ⟨x, data, flag⟩ := c
  cases x with
  | port a i =>
    have hset : (Setting.port a i).Set data flag = portSet a.addr a.pos a.len 1 (i + 1) data flag := by
      change a.Set 1 (i + 1) data flag = _
      rw [a.Set_eq]
    by_cases hi : i < s.dev.numOfPorts
    · rw [hset, portSet, meets_bind, meets_lPort2Port ⟨by omega, hi⟩]
      refine (meets_setRegField' _ _ _ data flag).imp (fun _ t ht => ⟨hi, ?_⟩) fun _ _ ht => ht
      rw [toRegister_eq]
      · exact ht
      · intro hmax
        cases hmax
    · rw [hset, portSet, meets_bind, RCPLPort2Port, meets_bind, meets_get, if_neg (by decide), if_pos (by omega),
        meets_throw]
      exact Quiet.rfl
  | MaxPktLength =>
    refine (meets_setRegField' _ _ _ data .RCP_CONFIG_2_REGISTER).imp (fun _ t ht => ⟨trivial, ?_⟩) fun _ _ ht => ht
    have hflag : Call.toRegister ⟨.MaxPktLength, data, flag⟩ = true := by simp [Call.toRegister]
    rw [hflag]
    exact ht
  | _ =>
    refine (meets_setRegField' _ _ _ data flag).imp (fun _ t ht => ⟨trivial, ?_⟩) fun _ _ ht => ht
    rw [toRegister_eq]
    · exact ht
    · intro hmax
      cases hmax

end

/-! ## The law -/

theorem low_one_eq (data : BitVec 16) : (low 1 data == 1) = data.getLsbD 0 := by
  rw [low, BitVec.getLsbD, Nat.testBit_zero]
  rcases Nat.mod_two_eq_zero_or_one data.toNat with h | h
  · rw [pow_one, h]
    rfl
  · rw [pow_one, h]
    rfl

/-- The store has what is in the registers, under the first names. -/
def Holds (d : RCP_DEVICE_ID) (reg : Nat → BitVec 16) (m : Store) : Prop :=
  ∀ y : Setting, y.Base → y.Own d → m y = field reg y

section
variable {d : RCP_DEVICE_ID} {reg reg' : Nat → BitVec 16} {m : Store} {x y : Setting} {data : BitVec 16}

theorem Holds.congr (h : Holds d reg m)
    (hreg : ∀ a, a ≠ RT8326_EEPROM_RW_CTL → a ≠ RT8326_EEPROM_RW_DATA → reg' a = reg a) : Holds d reg' m := by
  intro y hy hown
  obtain ⟨hctl, hdata⟩ := hown.register
  rw [h y hy hown, field, field, hreg _ hctl hdata]

/-- What was written, as the field reads it. -/
theorem field_written (hfit : x.pos + x.len ≤ 16) :
    field (update reg x.addr (fields.put (reg x.addr) data x.pos x.len)) x = low x.len data := by
  rw [field, update_self, fields.get_put_inside _ _ le_rfl le_rfl hfit, Nat.sub_self, fields.get_low]
  rfl

theorem field_apart (h : x.Apart y) :
    field (update reg x.addr (fields.put (reg x.addr) data x.pos x.len)) y = field reg y := by
  unfold field
  by_cases haddr : y.addr = x.addr
  · rw [haddr, update_self]
    exact fields.get_put_other _ _ fun i hi hlo hhi => h haddr.symm i hi hlo hhi
  · rw [update_of_ne haddr]

theorem Holds.write (h : Holds d reg m) (hx : x.Exists d) :
    Holds d (update reg x.addr (fields.put (reg x.addr) data x.pos x.len)) (m.write x data) := by
  intro y hy hown
  by_cases hmode : x = .QosMapMode
  · subst hmode
    change update (update m Setting.QosDiffPriority (low 1 data)) Setting.QosVlanPriority (low 1 (data >>> 1)) y = _
    by_cases hvlan : y = .QosVlanPriority
    · subst hvlan
      rw [update_self]
      change low 1 (data >>> 1) = fields.get (update reg 0x0400 (fields.put (reg 0x0400) data 0 2) 0x0400) 1 1
      rw [update_self, fields.get_put_inside _ _ (by decide) (by decide) (by decide), fields.get_shift, fields.get_low]
      rfl
    · rw [update_of_ne hvlan]
      by_cases hdiff : y = .QosDiffPriority
      · subst hdiff
        rw [update_self]
        change low 1 data = fields.get (update reg 0x0400 (fields.put (reg 0x0400) data 0 2) 0x0400) 0 1
        rw [update_self, fields.get_put_inside _ _ (by decide) (by decide) (by decide), fields.get_low]
        rfl
      · rw [update_of_ne hdiff, h y hy hown]
        exact (field_apart (hown.apart hy hx (fun he => hy.2 he.symm) fun _ => ⟨hdiff, hvlan⟩)).symm
  · have hwrite : m.write x data = update m x.name (low x.len data) := by
      cases x <;> first | rfl | exact absurd rfl hmode
    rw [hwrite]
    by_cases hname : x.name = y
    · subst hname
      obtain ⟨haddr, hpos, hlen⟩ := x.name_place
      have hfit := hown.fits
      rw [hpos, hlen] at hfit
      rw [update_self, field, haddr, hpos, hlen]
      exact (field_written hfit).symm
    · rw [update_of_ne (Ne.symm hname), h y hy hown]
      exact (field_apart (hown.apart hy hx hname fun he => absurd he hmode)).symm

/-- What the store has for a setting is what is in its bits. -/
theorem Holds.read (h : Holds d reg m) (hown : x.Own d) : m.read x = field reg x := by
  by_cases hmode : x = .QosMapMode
  · subst hmode
    change m .QosVlanPriority <<< 1 ||| m .QosDiffPriority = fields.get (reg 0x0400) 0 2
    rw [h .QosVlanPriority ⟨rfl, nofun⟩ trivial, h .QosDiffPriority ⟨rfl, nofun⟩ trivial,
      fields.get_parts _ 1 (by decide)]
    rfl
  · have hread : m.read x = m x.name := by
      cases x <;> first | rfl | exact absurd rfl hmode
    have hbase : x.name.Base := by
      cases x <;> first | exact absurd rfl hmode | exact ⟨rfl, nofun⟩
    have hname : x.name.Own d := by
      cases x <;> first | exact trivial | exact hown
    obtain ⟨haddr, hpos, hlen⟩ := x.name_place
    rw [hread, h x.name hbase hname, field, haddr, hpos, hlen]
    rfl

end

section
variable {d : RCP_DEVICE_ID} {now : State × Store}

theorem step_holds (hd : now.1.dev.deviceId = d) (h : Holds d now.1.reg now.2) (c : Call) :
    (step now c).1.dev.deviceId = d ∧ Holds d (step now c).1.reg (step now c).2 := by
  have hset : Meets (c.setting.Set c.data c.flag) now.1 _ _ := meets_Set c
  unfold Meets at hset
  unfold step
  split at hset
  · rename_i heq
    rw [heq]
    obtain ⟨hexists, hdev, hreg⟩ := hset
    cases hflag : c.toRegister with
    | false =>
      rw [hflag, if_neg Bool.false_ne_true] at hdev hreg
      exact ⟨by rw [hdev, hd], h.congr hreg⟩
    | true =>
      rw [hflag, if_pos rfl] at hdev hreg
      rw [hd] at hexists
      exact ⟨by rw [hdev, put_dev, hd], (h.write hexists).congr hreg⟩
  · rename_i heq
    rw [heq]
    exact ⟨by rw [hset.dev, hd], h.congr hset.reg⟩

end

/-- Any run of sets, with any flags and any writes that fail, leaves each setting that has bits of
its own what the sets that returned `RCP_OK` make of it as a store. -/
theorem the_settings_are_a_store (s : State) (calls : List Call) (x : Setting) (hx : x.Own s.dev.deviceId) :
    Gives x.Get (run step (s, Store.shown s) calls).1 fun data _ =>
      data = (run step (s, Store.shown s) calls).2.read x := by
  have hstart : Holds s.dev.deviceId s.reg (Store.shown s) := fun y _ hown => shown_eq hown.exists
  obtain ⟨hd, hholds⟩ := run_inv (P := fun _ _ => True)
    (I := fun now => now.1.dev.deviceId = s.dev.deviceId ∧ Holds s.dev.deviceId now.1.reg now.2)
    (fun now c h _ => step_holds h.1 h.2 c) ⟨rfl, hstart⟩ (along_of (fun _ _ _ => trivial) (s, Store.shown s))
  rw [Gives, meets_Get (by rw [hd]; exact hx.exists)]
  exact (hholds.read hx).symm

/-- Half duplex is set, the mode in both places, and then a priority for the EEPROM alone. -/
def changes : List Call :=
  [⟨.HalfDuplexFC, 1, .RCP_CONFIG_2_REGISTER⟩, ⟨.QosMapMode, 2, .RCP_CONFIG_2_BOTH⟩,
    ⟨.QosDiffPriority, 1, .RCP_CONFIG_2_EEPROM⟩, ⟨.port .MIBRxObject 3, 3, .RCP_CONFIG_2_EEPROM⟩]

theorem the_mode_stays_2 :
    (Gives (Setting.Get .QosMapMode)
      (run step (uniform .GH1524 0, Store.shown (uniform .GH1524 0)) changes).1 fun data _ =>
        data = (run step (uniform .GH1524 0, Store.shown (uniform .GH1524 0)) changes).2.read .QosMapMode) ∧
      (run step (uniform .GH1524 0, Store.shown (uniform .GH1524 0)) changes).2.read .QosMapMode = 2 :=
  ⟨the_settings_are_a_store (uniform .GH1524 0) changes .QosMapMode trivial, by decide +kernel⟩

/-- The register that carries the commands to the EEPROM has the bandwidth of port 27. -/
theorem an_eeprom_access_changes_the_bandwidth_of_port_27 :
    field (run step (uniform .GH1532 0, Store.shown (uniform .GH1532 0))
      [⟨.QosMapMode, 2, .RCP_CONFIG_2_EEPROM⟩]).1.reg (.port .PortRxBandwidth 26) ≠
      field (uniform .GH1532 0).reg (.port .PortRxBandwidth 26) := by
  decide +kernel

end gwdonu.switch_settings
