-- The isolation of the ports in the EEPROM, which is tried until it goes well: from which port to
-- the switch above it ever does.
import Gwdonu.Lib.Outcomes
import Gwdonu.VlanCoherence

namespace gwdonu.vlan_enable_save

open calls outcomes rcp_registers register_fields vlans vlan_coherence vlan_table
open rcp (RCP_RET)

/-! ## The program -/

/-- `RCP_SetVlanMgtPortIsolate` of a device whose `numOfPorts` need not be that of its `deviceId`. -/
def mgtPortIsolate (numOfPorts mgtPort : Nat) (flag : RCP_FLAG) : Rcp Unit := do
  RCP_SetVlanVID 0 1 flag
  RCP_SetVlanPort 0 0xffffffff flag
  let phyPort ← RCPLPort2Port 1 mgtPort
  let _ ← (ports numOfPorts).foldlM (isolatePort mgtPort (1#32 <<< phyPort) flag) 1
  forM (List.range' numOfPorts (MAX_RCP_VLAN_NUM - numOfPorts)) fun vlanum => do
    RCP_SetVlanPort vlanum 0 flag
    RCP_SetVlanVID vlanum 0 flag
  RCP_SetVlanPVID 1 mgtPort 1 flag
  RCP_SetVlanInsert 0 flag

/-- What `mgtPort` holds behind the conversion, which leaves it as it was for a port that is not in
the tables. -/
def mgtPortOf (dev : RCP_DEV) (mgtPort : Nat) : Nat :=
  if dev.upLinkPort > dev.numOfPorts then mgtPort else RCPPort2LPort dev dev.upLinkPort

/-- `RCP_SetVlanEnableSave` behind the conversion. -/
def enableSave (numOfPorts mgtPort tries : Nat) (enable : BitVec 16) : Rcp Unit := do
  if enable = 1 then
    untilOk (mgtPortIsolate numOfPorts mgtPort .RCP_CONFIG_2_EEPROM) tries
    forM (List.range 0x8f) fun i => RCP_SetEepromValue (0xea + i) 0
  else
    RCP_SetEepromValue 0xba 0xff
    RCP_SetEepromValue 0xbe 0x1
    forM (List.range 0x30) fun i => RCP_SetEepromValue (0xc0 + i) 0

/-- `mgtPort` is what the variable holds before anything is written to it. -/
def saveEnable (numOfPorts mgtPort tries : Nat) (enable : BitVec 16) : Rcp Unit := do
  let s ← get
  enableSave numOfPorts (mgtPortOf s.dev mgtPort) tries enable

/-- So many tries are enough: one of them returns `RCP_OK`, and the loop ends. -/
def Terminates (s : State) (numOfPorts mgtPort : Nat) (enable : BitVec 16) : Prop :=
  ∃ tries, Gives (saveEnable numOfPorts mgtPort tries enable) s fun _ _ => True

/-- The ports are in the tables for a device with so many, and the entries of all of them have a
place in the EEPROM. -/
def Fits (numOfPorts maxPort port : Nat) : Prop :=
  numOfPorts ≤ maxPort ∧ 1 ≤ port ∧ port ≤ maxPort ∧ ¬ (26 ≤ numOfPorts ∧ 9 ≤ port ∧ port ≤ 16)

/-! ## Outcomes -/

/-- The device is this one, and no write fails. -/
def Fair (d : RCP_DEVICE_ID) (s : State) : Prop := s.dev.deviceId = d ∧ s.Faithful

section
variable {d : RCP_DEVICE_ID} {a off len e eeAddr port : Nat} {v : BitVec 16} {data : BitVec 32} {value : BitVec 8}

/-- The call goes well from every state, with any value. -/
abbrev Works {α : Type} (d : RCP_DEVICE_ID) (x : Rcp α) : Prop := Succeeds (Fair d) x fun _ => True

theorem works_pure {α : Type} {b : α} : Works d (pure b) := succeeds_pure trivial

theorem works_setRegisterField : Works d (RCP_SetRegisterField a off len v) := by
  intro s hs
  rw [Gives, meets_setRegisterField, (hs.2 a).write]
  exact ⟨trivial, hs⟩

theorem works_getEepromValue : Works d (RCP_GetEepromValue eeAddr) :=
  works_setRegisterField.bind fun _ _ => succeeds_get fun _ _ => works_pure

theorem works_setEepromValue : Works d (RCP_SetEepromValue eeAddr value) :=
  works_setRegisterField.bind fun _ _ => works_setRegisterField.bind fun _ _ => fun _ hs => ⟨trivial, hs⟩

theorem works_setEepromField : Works d (RCP_SetEepromField eeAddr off len value) :=
  works_getEepromValue.bind fun _ _ => works_setEepromValue

theorem works_eeaddrFromReg (h : ∀ behind, (RCP_GetEeaddrFromReg behind a off len).isSome) :
    Works d (eeaddrFromReg a off len) := by
  refine succeeds_get fun s _ => ?_
  obtain ⟨f, hf⟩ := Option.isSome_iff_exists.mp (h s.behind)
  rw [hf]
  exact works_pure

theorem fails_eeaddrFromReg (h : ∀ behind, RCP_GetEeaddrFromReg behind a off len = none) :
    Fails (Fair d) (eeaddrFromReg a off len) := by
  refine fails_get fun s _ => ?_
  rw [h]
  exact fails_throw

theorem works_setRegField (h : ∀ behind, (RCP_GetEeaddrFromReg behind a off len).isSome) :
    Works d (RCP_SetRegField a off len v .RCP_CONFIG_2_EEPROM) :=
  ((works_eeaddrFromReg h).bind fun _ _ => works_setEepromField).bind fun _ _ => works_pure

theorem succeeds_lPort2Port (hp : 1 ≤ port ∧ port ≤ d.numOfPorts) :
    Succeeds (Fair d) (RCPLPort2Port 1 port) fun phyPort => phyPort = port - 1 := by
  intro s hs
  rw [Gives, meets_lPort2Port ⟨hp.1, hp.2.trans_eq (congrArg RCP_DEVICE_ID.numOfPorts hs.1).symm⟩]
  exact ⟨rfl, hs⟩

theorem fails_lPort2Port (hp : ¬ (1 ≤ port ∧ port ≤ d.numOfPorts)) : Fails (Fair d) (RCPLPort2Port 1 port) := by
  refine fails_get fun s hs => ?_
  have hn : s.dev.numOfPorts = d.numOfPorts := congrArg RCP_DEVICE_ID.numOfPorts hs.1
  rw [if_neg (by decide), if_pos (by omega)]
  exact fails_throw

theorem works_setVlanOutPortTag (hp : 1 ≤ port ∧ port ≤ d.numOfPorts) :
    Works d (RCP_SetVlanOutPortTag 1 port v .RCP_CONFIG_2_EEPROM) := by
  have hle := numOfPorts_le_32 d
  refine (succeeds_lPort2Port hp).bind fun phyPort hphy => works_setRegField (mapped ?_ ?_)
  · rw [tag_addr]
    omega
  · rw [tag_addr]
    omega

theorem works_setVlanPVID (hp : 1 ≤ port ∧ port ≤ d.numOfPorts) :
    Works d (RCP_SetVlanPVID 1 port v .RCP_CONFIG_2_EEPROM) := by
  have hle := numOfPorts_le_32 d
  refine succeeds_get fun s _ => ?_
  refine (succeeds_lPort2Port hp).bind fun phyPort hphy => works_setRegField (mapped ?_ ?_)
  · rw [index_addr]
    omega
  · rw [index_addr]
    omega

theorem works_setVlanVID (he : e < 32) : Works d (RCP_SetVlanVID e v .RCP_CONFIG_2_EEPROM) := by
  obtain ⟨hlo, hhi⟩ := vid_mapped he
  have hsave : Works d (saveVid e v) := by
    unfold saveVid
    split_ifs
    · exact (works_eeaddrFromReg (mapped hlo hhi)).bind fun _ _ =>
        works_setEepromField.bind fun _ _ => works_setEepromValue
    · exact (works_eeaddrFromReg (mapped hlo hhi)).bind fun _ _ =>
        works_setEepromValue.bind fun _ _ => works_setEepromField
  unfold RCP_SetVlanVID
  rw [when_false (by omega), when_false (by decide), when_true (by rfl)]
  exact works_pure.bind fun _ _ => works_pure.bind fun _ _ => hsave.bind fun _ _ =>
    fun _ hs => ⟨trivial, hs⟩

/-- No member is among the ports 9 to 16. -/
def Low (data : BitVec 32) : Prop := (data &&& 0xff00) >>> 8 = 0

theorem member_far (he : e < 32) : RT8326_VLAN_PORT_MEMBER e MAX_RCP_SWITCH_TO_MANAGE = 0x0335 + 3 * e := by
  rw [RT8326_VLAN_PORT_MEMBER, MAX_RCP_SWITCH_TO_MANAGE]
  omega

theorem works_setVlanPort (he : e < 32) (h : Low data ∨ e ≤ 24) :
    Works d (RCP_SetVlanPort e data .RCP_CONFIG_2_EEPROM) := by
  obtain ⟨hlo, hhi⟩ := member_mapped he
  have hfar := member_far he
  have hsave : Works d (saveMembers e data) := by
    unfold saveMembers
    split_ifs with hlow
    · exact (works_eeaddrFromReg (mapped hlo hhi)).bind fun _ _ =>
        works_setEepromField.bind fun _ _ => works_setEepromValue
    · have hnear : e ≤ 24 := h.resolve_left hlow
      exact (works_eeaddrFromReg (mapped (by omega) (by omega))).bind fun _ _ => works_setEepromValue.bind fun _ _ =>
        works_setEepromField
  unfold RCP_SetVlanPort
  rw [when_false (by omega), when_false (by decide), when_true (by rfl)]
  exact works_pure.bind fun _ _ => works_pure.bind fun _ _ => hsave.bind fun _ _ =>
    fun _ hs => ⟨trivial, hs⟩

/-- The register that is 24 behind that of the entry is behind the table. -/
theorem fails_setVlanPort (he : e < 32) (hfar : 24 < e) (hlow : ¬ Low data) :
    Fails (Fair d) (RCP_SetVlanPort e data .RCP_CONFIG_2_EEPROM) := by
  have haddr := member_far he
  have hsave : Fails (Fair d) (saveMembers e data) := by
    unfold saveMembers
    rw [if_neg (show ¬ (data &&& 0xff00) >>> 8 = 0 from hlow)]
    exact (fails_eeaddrFromReg (not_mapped (by omega) (by omega))).bind
  unfold RCP_SetVlanPort
  rw [when_false (by omega), when_false (by decide), when_true (by rfl)]
  exact works_pure.fails fun _ _ => works_pure.fails fun _ _ => hsave.bind

theorem works_setVlanInsert : Works d (RCP_SetVlanInsert v .RCP_CONFIG_2_EEPROM) := by
  unfold RCP_SetVlanInsert
  rw [when_false (by decide), when_true (by rfl)]
  refine works_pure.bind fun _ _ => (works_eeaddrFromReg (mapped (by decide) (by decide))).bind fun _ _ => ?_
  split_ifs
  · exact works_setEepromField.bind fun _ _ => works_setEepromValue
  · exact works_setEepromValue.bind fun _ _ => works_setEepromField

/-! ## One try -/

theorem low_or {x y : BitVec 32} : Low (x ||| y) ↔ Low x ∧ Low y := by
  rw [Low, BitVec.and_or_distrib_right, BitVec.ushiftRight_or_distrib]
  exact BitVec.or_eq_zero_iff

theorem low_bit {q : Nat} (hq : q < 32) : Low (1#32 <<< q) ↔ ¬ (8 ≤ q ∧ q ≤ 15) := by
  have hall : ∀ q < 32, ((1#32 <<< q) &&& 0xff00#32) >>> 8 = 0#32 ↔ ¬ (8 ≤ q ∧ q ≤ 15) := by decide
  exact hall q hq

/-- The entry that is free next, behind so many ports. -/
def entry (mgtPort k : Nat) : Nat := if mgtPort ≤ k then k else k + 1

theorem entry_succ {mgtPort k : Nat} : entry mgtPort (k + 1) =
    if k + 1 = mgtPort then entry mgtPort k else entry mgtPort k + 1 := by
  unfold entry
  split_ifs
  all_goals omega

/-- The entries of the first ports have their place. -/
def Room (mgtPort k : Nat) : Prop :=
  ∀ q < k, q + 1 ≠ mgtPort → Low (1#32 <<< (mgtPort - 1) ||| 1#32 <<< q) ∨ entry mgtPort q ≤ 24

theorem succeeds_isolatePorts {mgtPort k : Nat} (hmgt : 1 ≤ mgtPort ∧ mgtPort ≤ d.numOfPorts) (hk : k ≤ d.numOfPorts)
    (hroom : Room mgtPort k) : Succeeds (Fair d) ((List.range' 1 k).foldlM
      (isolatePort mgtPort (1#32 <<< (mgtPort - 1)) .RCP_CONFIG_2_EEPROM) 1) (· = entry mgtPort k) := by
  have hle := numOfPorts_le_32 d
  induction k with
  | zero => exact succeeds_pure (by rw [entry, if_neg (by omega)])
  | succ k ih =>
    rw [List.range'_concat, List.foldlM_append]
    refine (ih (by omega) fun q hq => hroom q (by omega)).bind fun vlanum hvlanum => ?_
    rw [List.foldlM_cons, Nat.one_mul, Nat.add_comm 1 k]
    refine Succeeds.bind (V := (· = entry mgtPort (k + 1))) ?_ fun b hb => succeeds_pure hb
    have hport : 1 ≤ k + 1 ∧ k + 1 ≤ d.numOfPorts := ⟨by omega, hk⟩
    have hlt : k + 1 ≠ mgtPort → entry mgtPort k < 32 := fun hne => by
      unfold entry
      split_ifs
      · omega
      · omega
    rw [isolatePort, hvlanum, entry_succ]
    refine (works_setVlanOutPortTag hport).bind fun _ _ => ?_
    split_ifs with hne
    · exact succeeds_pure rfl
    · refine (succeeds_lPort2Port hport).bind fun phyPort hphy => ?_
      rw [hphy, Nat.add_sub_cancel]
      refine (works_setVlanPort (hlt hne) (hroom k (Nat.lt_succ_self k) hne)).bind fun _ _ => ?_
      exact (works_setVlanVID (hlt hne)).bind fun _ _ => (works_setVlanPVID hport).bind fun _ _ => succeeds_pure rfl

theorem room {port k : Nat} (hk : k ≤ 32) (hport : 1 ≤ port ∧ port ≤ 32) (h : ¬ (26 ≤ k ∧ 9 ≤ port ∧ port ≤ 16)) :
    Room port k := by
  intro q hq hne
  rw [low_or, low_bit (by omega), low_bit (by omega)]
  by_cases hlow : (8 ≤ port - 1 ∧ port - 1 ≤ 15) ∨ (8 ≤ q ∧ q ≤ 15)
  · right
    unfold entry
    split_ifs
    · omega
    · omega
  · exact .inl (not_or.mp hlow)

variable {n mgtPort : Nat}

theorem works_mgtPortIsolate (h : Fits n d.numOfPorts mgtPort) :
    Works d (mgtPortIsolate n mgtPort .RCP_CONFIG_2_EEPROM) := by
  have hle := numOfPorts_le_32 d
  obtain ⟨hn, hone, hmax, hfar⟩ := h
  have hlow : Low 0 := by rfl
  refine (works_setVlanVID (by decide)).bind fun _ _ => ?_
  refine (works_setVlanPort (by decide) (.inr (by decide))).bind fun _ _ => ?_
  refine (succeeds_lPort2Port ⟨hone, hmax⟩).bind fun phyPort hphy => ?_
  rw [hphy, ports]
  refine (succeeds_isolatePorts ⟨hone, hmax⟩ hn (room (by omega) (by omega) hfar)).bind fun _ _ => ?_
  refine Succeeds.bind (V := fun _ => True) (Succeeds.forM fun vlanum hmem => ?_) fun _ _ =>
    (works_setVlanPVID ⟨hone, hmax⟩).bind fun _ _ => works_setVlanInsert
  have hlt : vlanum < 32 := by
    have hin := (List.mem_range'_1.mp hmem).2
    rw [MAX_RCP_VLAN_NUM] at hin
    omega
  exact (works_setVlanPort hlt (.inl hlow)).bind fun _ _ => works_setVlanVID hlt

/-- The entry 25 belongs to port 26, and has the linked port among its members. -/
theorem fails_port_26 (hd : d.numOfPorts = 32) (hmgt : 9 ≤ mgtPort ∧ mgtPort ≤ 16) :
    Fails (Fair d) (isolatePort mgtPort (1#32 <<< (mgtPort - 1)) .RCP_CONFIG_2_EEPROM 25 26) := by
  have hport : 1 ≤ 26 ∧ 26 ≤ d.numOfPorts := by omega
  rw [isolatePort, if_neg (by omega)]
  refine (works_setVlanOutPortTag hport).fails fun _ _ => (succeeds_lPort2Port hport).fails fun phyPort hphy => ?_
  refine Fails.bind (fails_setVlanPort (by decide) (by decide) ?_)
  rw [low_or, low_bit (by omega)]
  omega

/-- A turn that fails behind those of the first ports. -/
theorem fails_isolatePorts {k : Nat} (hk : k < n) (hkd : k ≤ d.numOfPorts) (hmgt : 1 ≤ mgtPort ∧ mgtPort ≤ d.numOfPorts)
    (hroom : Room mgtPort k)
    (h : Fails (Fair d) (isolatePort mgtPort (1#32 <<< (mgtPort - 1)) .RCP_CONFIG_2_EEPROM (entry mgtPort k) (k + 1))) :
    Fails (Fair d) ((List.range' 1 n).foldlM
      (isolatePort mgtPort (1#32 <<< (mgtPort - 1)) .RCP_CONFIG_2_EEPROM) 1) := by
  rw [runs.range'_cut hk, Nat.add_comm 1 k, List.foldlM_append]
  refine (succeeds_isolatePorts hmgt hkd hroom).fails fun vlanum hvlanum => ?_
  rw [List.foldlM_cons, hvlanum]
  exact h.bind

theorem fails_mgtPortIsolate (h : ¬ Fits n d.numOfPorts mgtPort) :
    Fails (Fair d) (mgtPortIsolate n mgtPort .RCP_CONFIG_2_EEPROM) := by
  have hle := numOfPorts_le_32 d
  have hports : d.numOfPorts = 32 ∨ d.numOfPorts ≤ 24 := by cases d <;> decide
  refine (works_setVlanVID (by decide)).fails fun _ _ => ?_
  refine (works_setVlanPort (by decide) (.inr (by decide))).fails fun _ _ => ?_
  by_cases hmgt : 1 ≤ mgtPort ∧ mgtPort ≤ d.numOfPorts
  · refine (succeeds_lPort2Port hmgt).fails fun phyPort hphy => ?_
    rw [hphy, ports]
    refine Fails.bind ?_
    by_cases hfar : 26 ≤ n ∧ d.numOfPorts = 32 ∧ 9 ≤ mgtPort ∧ mgtPort ≤ 16
    · obtain ⟨hn, hd, hfar⟩ := hfar
      refine fails_isolatePorts (k := 25) (by omega) (by omega) hmgt (room (by decide) (by omega) (by omega)) ?_
      rw [show entry mgtPort 25 = 25 from if_pos (by omega)]
      exact fails_port_26 hd hfar
    · have hmore : d.numOfPorts < n := by
        unfold Fits at h
        omega
      refine fails_isolatePorts hmore le_rfl hmgt (room hle (by omega) (by omega)) ?_
      exact Fails.bind (fails_lPort2Port (by omega)).bind
  · exact (fails_lPort2Port hmgt).bind

theorem always_mgtPortIsolate (n : Nat) {s : State} (hs : Fair d s) :
    Always (mgtPortIsolate n mgtPort .RCP_CONFIG_2_EEPROM) s (Fair d) := by
  by_cases h : Fits n d.numOfPorts mgtPort
  · exact (works_mgtPortIsolate h s hs).imp (fun _ _ ht => ht.2) fun _ _ h => h.elim
  · exact (fails_mgtPortIsolate h s hs).imp (fun _ _ h => h.elim) fun _ _ ht => ht

/-- With as many ports as its `deviceId` has, this is `RCP_SetVlanMgtPortIsolate`. -/
theorem mgtPortIsolate_eq {s : State} (hs : Fair d s) : RCP_SetVlanMgtPortIsolate mgtPort .RCP_CONFIG_2_EEPROM s =
    mgtPortIsolate d.numOfPorts mgtPort .RCP_CONFIG_2_EEPROM s := by
  refine (works_setVlanVID (by decide)).congr (fun _ _ _ hs => ?_) hs
  refine (works_setVlanPort (by decide) (.inr (by decide))).congr (fun _ _ _ hs => ?_) hs
  by_cases hport : 1 ≤ mgtPort ∧ mgtPort ≤ d.numOfPorts
  · refine (succeeds_lPort2Port hport).congr (fun _ t _ ht => ?_) hs
    obtain rfl := ht.1
    rfl
  · exact (fails_lPort2Port hport).congr hs

end

/-! ## The loop -/

section
variable {I : State → Prop} {x : Rcp Unit}

theorem succeeds_untilOk (h : Succeeds I x fun _ => True) (n : Nat) : Succeeds I (untilOk x n) fun _ => True := by
  induction n with
  | zero => exact h
  | succ n ih =>
    intro s hs
    obtain ⟨b, t, hx, ht⟩ := (h s hs).exists
    unfold Gives Meets untilOk
    rw [hx]
    exact ht

/-- A call that fails from every state is tried for ever. -/
theorem fails_untilOk (h : Fails I x) (n : Nat) : Fails I (untilOk x n) := by
  induction n with
  | zero => exact h
  | succ n ih =>
    intro s hs
    have hfail := h s hs
    unfold Meets at hfail ⊢
    unfold untilOk
    split at hfail
    · exact hfail.elim
    · rename_i heq
      rw [heq]
      exact ih _ hfail

/-- Calls that do the same in the states of `I` are tried alike. -/
theorem untilOk_congr {y : Rcp Unit} (h : ∀ s, I s → x s = y s) (hx : ∀ s, I s → Always x s I) (n : Nat) :
    ∀ s, I s → untilOk x n s = untilOk y n s := by
  induction n with
  | zero => exact h
  | succ n ih =>
    intro s hs
    have hkeeps := hx s hs
    unfold untilOk
    rw [← h s hs]
    unfold Always Meets at hkeeps
    split
    · rfl
    · rename_i heq
      rw [heq] at hkeeps
      exact ih _ hkeeps

end

/-! ## The law -/

theorem works_enableSave {d : RCP_DEVICE_ID} {n mgtPort : Nat} {enable : BitVec 16}
    (h : enable = 1 → Fits n d.numOfPorts mgtPort) : Works d (enableSave n mgtPort 0 enable) := by
  unfold enableSave
  split_ifs with henable
  · exact (succeeds_untilOk (works_mgtPortIsolate (h henable)) 0).bind fun _ _ => Succeeds.forM fun _ _ =>
      works_setEepromValue
  · exact works_setEepromValue.bind fun _ _ => works_setEepromValue.bind fun _ _ => Succeeds.forM fun _ _ =>
      works_setEepromValue

theorem fails_enableSave {d : RCP_DEVICE_ID} {n mgtPort : Nat} (h : ¬ Fits n d.numOfPorts mgtPort) (tries : Nat) :
    Fails (Fair d) (enableSave n mgtPort tries 1) := by
  unfold enableSave
  rw [if_pos rfl]
  exact (fails_untilOk (fails_mgtPortIsolate h) tries).bind

/-- With as many ports as its `deviceId` has, and a variable that holds 0, this is
`RCP_SetVlanEnableSave`. -/
theorem saveEnable_eq {s : State} (hs : s.Faithful) (tries : Nat) (enable : BitVec 16) :
    RCP_SetVlanEnableSave tries enable s = saveEnable s.dev.numOfPorts 0 tries enable s := by
  have hfair : Fair s.dev.deviceId s := ⟨rfl, hs⟩
  have hport : mgtPortOf s.dev 0 = RCPPort2LPort s.dev s.dev.upLinkPort := by
    unfold mgtPortOf
    split_ifs with h
    · rw [RCPPort2LPort, if_neg (by omega)]
    · rfl
  by_cases henable : enable = 1
  · subst henable
    let old := RCP_SetVlanMgtPortIsolate (RCPPort2LPort s.dev s.dev.upLinkPort) .RCP_CONFIG_2_EEPROM
    let new := mgtPortIsolate s.dev.numOfPorts (RCPPort2LPort s.dev s.dev.upLinkPort) .RCP_CONFIG_2_EEPROM
    have heq : ∀ t, Fair s.dev.deviceId t → old t = new t := fun t ht => mgtPortIsolate_eq ht
    have hkeeps : ∀ t, Fair s.dev.deviceId t → Always old t (Fair s.dev.deviceId) := by
      intro t ht
      rw [Always, Meets, heq t ht]
      exact always_mgtPortIsolate s.dev.numOfPorts ht
    change EStateM.bind (untilOk old tries) _ s = EStateM.bind (untilOk _ tries) _ s
    rw [hport, EStateM.bind, EStateM.bind, untilOk_congr heq hkeeps tries s hfair]
  · unfold RCP_SetVlanEnableSave saveEnable enableSave
    simp only [if_neg henable]

theorem terminates_iff {s : State} (hs : s.Faithful) (n mgtPort : Nat) (enable : BitVec 16) :
    Terminates s n mgtPort enable ↔ (enable = 1 → Fits n s.dev.numOfPorts (mgtPortOf s.dev mgtPort)) := by
  have hfair : Fair s.dev.deviceId s := ⟨rfl, hs⟩
  have hstart : ∀ tries, Gives (saveEnable n mgtPort tries enable) s (fun _ _ => True) ↔
      Gives (enableSave n (mgtPortOf s.dev mgtPort) tries enable) s fun _ _ => True := fun tries => meets_bind
  unfold Terminates
  simp only [hstart]
  constructor
  · rintro ⟨tries, hgives⟩ rfl
    by_contra hnot
    exact (fails_enableSave hnot tries).not_gives hfair hgives
  · intro h
    exact ⟨0, (works_enableSave h s hfair).imp (fun _ _ _ => trivial) fun _ _ h => h⟩

/-- The loop ends exactly if the ports of the device, and the one to the switch above, are in the
tables of its `deviceId`, and no entry behind 24 has one of the ports 9 to 16; or there is no loop. -/
theorem the_save_ends_iff_the_entries_fit (s : State) (hs : s.Faithful) (numOfPorts mgtPort : Nat)
    (enable : BitVec 16) :
    Terminates s numOfPorts mgtPort enable ↔ (enable = 1 →
      if s.dev.upLinkPort > s.dev.numOfPorts then Fits numOfPorts s.dev.numOfPorts mgtPort
      else Fits numOfPorts s.dev.numOfPorts (s.dev.upLinkPort + 1)) := by
  rw [terminates_iff hs]
  refine imp_congr_right fun _ => ?_
  unfold mgtPortOf RCPPort2LPort Fits
  split_ifs
  · rfl
  · rfl
  · omega

/-- A switch whose port to the switch above is this one. -/
def linked (d : RCP_DEVICE_ID) (upLinkPort : Nat) : State :=
  { uniform d 0 with dev := { (uniform d 0).dev with upLinkPort } }

theorem port_3_of_8_is_saved : Terminates (linked .GH1508 2) 8 0 1 :=
  (the_save_ends_iff_the_entries_fit (linked .GH1508 2) (fun _ _ => rfl) 8 0 1).mpr fun _ => by
    rw [if_neg (by decide)]
    exact ⟨by decide, by decide, by decide, by decide⟩

/-- A switch with 32 ports whose ninth one is linked is tried for ever. -/
theorem port_9_of_32_is_tried_for_ever : (linked .GH1532 8).Faithful ∧ ¬ Terminates (linked .GH1532 8) 32 0 1 := by
  refine ⟨fun _ _ => rfl, fun h => ?_⟩
  have hfits := (terminates_iff (fun _ _ => rfl) 32 0 1).mp h rfl
  exact hfits.2.2.2 ⟨by decide, by decide, by decide⟩

end gwdonu.vlan_enable_save
