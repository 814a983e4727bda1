-- The copy of the VLAN table in the device, when writes to the switch may fail: which calls
-- leave it the same as the registers, whatever they return.
import Gwdonu.VlanCommands

namespace gwdonu.vlan_coherence

open Function calls runs rcp_registers register_fields vlans vlan_edits
open rcp (RCP_RET)
open vlan_commands (Coherent)
open vlan_table (withMembers withVid member_addr vid_addr index_addr tag_addr numOfPorts_le)

/-! ## The law -/

inductive Call where
  | setVID (vlanum : Nat) (data : BitVec 16) (flag : RCP_FLAG)
  | setPort (vlanum : Nat) (data : BitVec 32) (flag : RCP_FLAG)
  | portAdd (slot port vlanum : Nat) (flag : RCP_FLAG)
  | portDelete (slot port vlanum : Nat) (flag : RCP_FLAG)
  | mgtPortIsolate (mgtPort : Nat) (flag : RCP_FLAG)
  | enable8021Q (enable : BitVec 16) (flag : RCP_FLAG)
  | enableSave (tries : Nat) (enable : BitVec 16)
  deriving DecidableEq

def Call.call : Call → Rcp Unit
  | .setVID vlanum data flag => RCP_SetVlanVID vlanum data flag
  | .setPort vlanum data flag => RCP_SetVlanPort vlanum data flag
  | .portAdd slot port vlanum flag => RCP_SetVlanPortAdd slot port vlanum flag
  | .portDelete slot port vlanum flag => RCP_SetVlanPortDelete slot port vlanum flag
  | .mgtPortIsolate mgtPort flag => RCP_SetVlanMgtPortIsolate mgtPort flag
  | .enable8021Q enable flag => RCP_SetVlan8021QEnable enable flag
  | .enableSave tries enable => RCP_SetVlanEnableSave tries enable

def step (s : State) (c : Call) : State := after c.call s

/-- The copy has what the registers have behind the call, whatever that returns. -/
def Keeps (s : State) (c : Call) : Prop := Coherent (step s c)

/-! ## What a call tries -/

/-- What a call does, in its order, as far as it can make the copy differ: a write that may fail, a
place where the call gives up, and a copy that is set to something else than the registers have. The
flag says that an entry is in its registers and not in its copy yet. -/
inductive Try where
  | write (regAddr : Nat) (halfway : Bool)
  | stop (halfway : Bool)
  | differ
  deriving DecidableEq

/-- The first write that fails and the place where the call gives up are not halfway, and the copy is
not made to differ before them. Writes are numbered from `k` on. -/
def Spares (writeFails : Nat → Nat → Bool) : Nat → List Try → Prop
  | _, [] => True
  | k, .write regAddr halfway :: l =>
    if writeFails k regAddr then halfway = false else Spares writeFails (k + 1) l
  | _, .stop halfway :: _ => halfway = false
  | _, .differ :: _ => False

instance (writeFails : Nat → Nat → Bool) : ∀ k l, Decidable (Spares writeFails k l)
  | _, [] => .isTrue trivial
  | k, .write regAddr halfway :: l =>
    have : Decidable (Spares writeFails (k + 1) l) := instDecidableSpares writeFails (k + 1) l
    inferInstanceAs (Decidable (if writeFails k regAddr then halfway = false else Spares writeFails (k + 1) l))
  | _, .stop halfway :: _ => inferInstanceAs (Decidable (halfway = false))
  | _, .differ :: _ => .isFalse id

def eepromValue (halfway : Bool) : List Try :=
  [.write RT8326_EEPROM_RW_DATA halfway, .write RT8326_EEPROM_RW_CTL halfway]

def eepromField (halfway : Bool) : List Try := .write RT8326_EEPROM_RW_CTL halfway :: eepromValue halfway

/-- The bytes of a value in the EEPROM, the one of the field first if the upper one is empty. -/
def saveTries (low halfway : Bool) : List Try :=
  if low then eepromField halfway ++ eepromValue halfway else eepromValue halfway ++ eepromField halfway

def vidTries (vlanum : Nat) (data : BitVec 16) (flag : RCP_FLAG) : List Try :=
  if vlanum > 31 then [.stop false]
  else if flag.toRegister then
    [.write (RT8326_VLAN_VID vlanum) false] ++ (if data.toNat < 4096 then [] else [.differ]) ++
      if flag.toEeprom then saveTries ((data &&& 0xff00) >>> 8 = 0) true else []
  else (if flag.toEeprom then saveTries ((data &&& 0xff00) >>> 8 = 0) false else []) ++ [.differ]

/-- With a member among the ports 9 to 16, the entries from 25 on have no place in the EEPROM. -/
def memberTries (vlanum : Nat) (data : BitVec 32) (halfway : Bool) : List Try :=
  if (data &&& 0xff00) >>> 8 = 0 then saveTries true halfway
  else if vlanum > 24 then [.stop halfway] else saveTries false halfway

def portTries (numOfPorts vlanum : Nat) (data : BitVec 32) (flag : RCP_FLAG) : List Try :=
  if vlanum > 31 then [.stop false]
  else if flag.toRegister then
    [.write (RT8326_VLAN_PORT_MEMBER vlanum 0) false] ++
      (if numOfPorts ≤ 16 then [] else [.write (RT8326_VLAN_PORT_MEMBER vlanum 1) true]) ++
      if flag.toEeprom then memberTries vlanum data true else []
  else (if flag.toEeprom then memberTries vlanum data false else []) ++ [.differ]

/-- A field of a register that is not one of the table. -/
def fieldTries (regAddr : Nat) (flag : RCP_FLAG) : List Try :=
  (if flag.toEeprom then eepromField false else []) ++ if flag.toRegister then [.write regAddr false] else []

def isolateTries (numOfPorts mgtPort : Nat) (tmpPortList : BitVec 32) (flag : RCP_FLAG) : Nat → List Nat → List Try
  | _, [] => []
  | vlanum, port :: ports =>
    fieldTries (RT8326_VLAN_PRI (port - 1)) flag ++
      if port = mgtPort then isolateTries numOfPorts mgtPort tmpPortList flag vlanum ports
      else
        portTries numOfPorts vlanum (tmpPortList ||| 1#32 <<< (port - 1)) flag ++
          (vidTries vlanum (BitVec.ofNat 16 (vlanum + 1)) flag ++
            (fieldTries (RT8326_VLAN_IDX (port - 1)) flag ++
              isolateTries numOfPorts mgtPort tmpPortList flag (vlanum + 1) ports))

def emptyTries (numOfPorts : Nat) (flag : RCP_FLAG) (vlanum : Nat) : List Try :=
  portTries numOfPorts vlanum 0 flag ++ vidTries vlanum 0 flag

def mgtPortTries (numOfPorts mgtPort : Nat) (flag : RCP_FLAG) : List Try :=
  vidTries 0 1 flag ++ (portTries numOfPorts 0 0xffffffff flag ++
    if 1 ≤ mgtPort ∧ mgtPort ≤ numOfPorts then
      isolateTries numOfPorts mgtPort (1#32 <<< (mgtPort - 1)) flag 1 (ports numOfPorts) ++
        (List.range' numOfPorts (MAX_RCP_VLAN_NUM - numOfPorts)).flatMap (emptyTries numOfPorts flag)
    else [.stop false])

/-- The tries of a call, up to the last one that can make the copy differ. -/
def Call.tries (s : State) : Call → List Try
  | .setVID vlanum data flag => vidTries vlanum data flag
  | .setPort vlanum data flag => portTries s.dev.numOfPorts vlanum data flag
  | .portAdd slot port vlanum flag =>
    if slot = 1 ∧ 1 ≤ port ∧ port ≤ s.dev.numOfPorts then
      portTries s.dev.numOfPorts vlanum (portBits s.dev s.reg vlanum ||| 1#32 <<< (port - 1)) flag
    else []
  | .portDelete slot port vlanum flag =>
    if slot = 1 ∧ 1 ≤ port ∧ port ≤ s.dev.numOfPorts then
      portTries s.dev.numOfPorts vlanum (portBits s.dev s.reg vlanum &&& ~~~(1#32 <<< (port - 1))) flag
    else []
  | .mgtPortIsolate mgtPort flag => mgtPortTries s.dev.numOfPorts mgtPort flag
  | .enable8021Q enable flag =>
    if enable = 0 then
      vidTries 0 1 flag ++ (portTries s.dev.numOfPorts 0 (allPorts s.dev.deviceId) flag ++
        (List.range' 1 (MAX_RCP_VLAN_NUM - 1)).flatMap fun vlanum =>
          vidTries vlanum 0 flag ++ portTries s.dev.numOfPorts vlanum 0 flag)
    else []
  | .enableSave _ enable => if enable = 1 then [.differ] else []

/-- The failures of the switch spare the call: the first write that fails is not one between the registers
of an entry and its copy, and no entry gets another copy than it has registers. -/
def Spared (s : State) (c : Call) : Prop := Spares s.writeFails s.writes.length (c.tries s)

instance (s : State) (c : Call) : Decidable (Spared s c) := inferInstanceAs (Decidable (Spares ..))

/-! ## The copy -/

/-- The copy has what the registers have, once `f` is done to it. -/
def Ahead (f : RCP_DEV → RCP_DEV) (s : State) : Prop := Coherent { s with dev := f s.dev }

/-- The register is not one of the table. -/
def Aside (regAddr : Nat) : Prop := regAddr < 0x031D ∨ 0x037D ≤ regAddr

section
variable {f : RCP_DEV → RCP_DEV} {s : State} {a e q : Nat} {v : BitVec 16}

theorem coherent_put (h : Coherent s) (ha : Aside a) : Coherent (s.put a v) := by
  have hne : ∀ e < 32, a ≠ (vidAt e).addr ∧ ∀ q < 32, a ≠ (memberAt e q).addr := by
    intro e he
    refine ⟨?_, fun q hq => ?_⟩
    · rw [vidAt_addr he]
      rcases ha with ha | ha <;> omega
    · rw [memberAt_addr he hq]
      rcases ha with ha | ha <;> omega
  refine ⟨fun e he => ?_, fun e he q hq => ?_⟩
  · rw [put_dev, h.vids e he, vidOf, vidOf, writes.read, writes.read, put_reg, update_of_ne (hne e he).1.symm]
  · rw [put_dev, h.members e he q hq, isMember_eq, isMember_eq, put_reg,
      update_of_ne ((hne e he).2 q (port_lt hq)).symm]

theorem Ahead.put (h : Ahead f s) (ha : Aside a) : Ahead f (s.put a v) := coherent_put h ha

theorem aside_ctl : Aside RT8326_EEPROM_RW_CTL := by
  unfold Aside
  decide

theorem aside_data : Aside RT8326_EEPROM_RW_DATA := by
  unfold Aside
  decide

theorem aside_index (hq : q < 32) : Aside (RT8326_VLAN_IDX q) := by
  rw [index_addr, Aside]
  omega

theorem aside_tag (hq : q < 32) : Aside (RT8326_VLAN_PRI q) := by
  rw [tag_addr, Aside]
  omega

end

/-! ## Rules -/

/-- From the states of `I` on, the call makes the tries and ends in one of `J`, as long as they are
spared. If it fails before, the copy has what the registers have. -/
def Guarded {α : Type} (d : RCP_DEVICE_ID) (I : State → Prop) (x : Rcp α) (l : List Try) (J : State → Prop) : Prop :=
  ∀ s rest, s.dev.deviceId = d → I s → Spares s.writeFails s.writes.length (l ++ rest) →
    Meets x s (fun _ t => t.dev.deviceId = d ∧ J t ∧ Spares t.writeFails t.writes.length rest) fun _ t => Coherent t

section
variable {α β : Type} {d : RCP_DEVICE_ID} {I J K : State → Prop} {x : Rcp α} {g : α → Rcp β} {l l' : List Try}
  {f : RCP_DEV → RCP_DEV} {halfway : Bool} {a off len : Nat} {v : BitVec 16}

theorem guarded_pure {b : α} : Guarded d I (pure b : Rcp α) [] I := fun _ _ hd hI hspares => ⟨hd, hI, hspares⟩

theorem Guarded.bind (hx : Guarded d I x l J) (hg : ∀ b, Guarded d J (g b) l' K) :
    Guarded d I (x >>= g) (l ++ l') K := by
  intro s rest hd hI hspares
  rw [List.append_assoc] at hspares
  rw [meets_bind]
  refine (hx s (l' ++ rest) hd hI hspares).imp ?_ fun _ _ h => h
  rintro b t ⟨hd, hJ, hspares⟩
  exact hg b t rest hd hJ hspares

/-- A call that looks at the state, and goes on with what it sees. -/
theorem guarded_get {g : State → Rcp β} (h : ∀ s, s.dev.deviceId = d → Guarded d I (g s) l J) :
    Guarded d I (get >>= g) l J := fun s rest hd => h s hd s rest hd

theorem guarded_throw_bind {e : RCP_RET} (h : halfway = false → ∀ s, I s → Coherent s) :
    Guarded d I ((throw e : Rcp α) >>= g) [.stop halfway] J := fun s _ _ hI hspares => h hspares s hI

theorem guarded_differ : Guarded d I x (.differ :: l) J := fun _ _ _ _ hspares => hspares.elim

/-- The copy differs from here on, so the call must not get here. -/
theorem Guarded.differ (h : Guarded d I x l K) : Guarded d I x (l ++ [.differ]) J := by
  intro s rest hd hI hspares
  rw [List.append_assoc] at hspares
  exact (h s _ hd hI hspares).imp (fun _ _ ht => ht.2.2.elim) fun _ _ h => h

theorem Guarded.of_eq (h : Guarded d I x l J) (heq : l = l') : Guarded d I x l' J := heq ▸ h

/-- A write that does not fail halfway. -/
theorem meets_tried {s : State} {rest : List Try} (hd : s.dev.deviceId = d) (hok : J (s.put a v))
    (hfail : halfway = false → Coherent s)
    (hspares : Spares s.writeFails s.writes.length (.write a halfway :: rest)) :
    Meets (RCP_Write_Reg a v) s
      (fun _ t => t.dev.deviceId = d ∧ J t ∧ Spares t.writeFails t.writes.length rest) fun _ t => Coherent t := by
  rw [Spares] at hspares
  rw [meets_write]
  split_ifs at hspares ⊢
  · exact ⟨(hfail hspares).vids, (hfail hspares).members⟩
  · refine ⟨hd, hok, ?_⟩
    rw [put_writes, List.length_append]
    exact hspares

theorem guarded_setRegisterField (hok : ∀ s, I s → J (s.put a (fields.put (s.reg a) v off len)))
    (hfail : halfway = false → ∀ s, I s → Coherent s) :
    Guarded d I (RCP_SetRegisterField a off len v) [.write a halfway] J := by
  intro s rest hd hI hspares
  rw [meets_setRegisterField]
  exact meets_tried hd (hok s hI) (fun h => hfail h s hI) hspares

/-! ## The EEPROM -/

/-- A register that the mirror has a place for. -/
theorem guarded_eeaddrFromReg (h : ∀ behind, (RCP_GetEeaddrFromReg behind a off len).isSome) :
    Guarded d I (eeaddrFromReg a off len) [] I := by
  refine guarded_get fun s _ => ?_
  obtain ⟨field, hfield⟩ := Option.isSome_iff_exists.mp (h s.behind)
  rw [hfield]
  exact guarded_pure

section
variable {eeAddr : Nat} {value : BitVec 8} (hhalf : halfway = false → f = id)
include hhalf

theorem ahead_coherent : halfway = false → ∀ s, Ahead f s → Coherent s := by
  rintro hfalse s hs
  rw [hhalf hfalse] at hs
  exact hs

theorem guarded_aside (ha : Aside a) :
    Guarded d (Ahead f) (RCP_SetRegisterField a off len v) [.write a halfway] (Ahead f) :=
  guarded_setRegisterField (fun _ hs => hs.put ha) (ahead_coherent hhalf)

theorem guarded_eepromValue :
    Guarded d (Ahead f) (RCP_SetEepromValue eeAddr value) (eepromValue halfway) (Ahead f) :=
  (guarded_aside hhalf aside_data).bind fun _ => (guarded_aside hhalf aside_ctl).bind fun _ =>
    fun _ _ hd hI hspares => ⟨hd, ⟨hI.vids, hI.members⟩, hspares⟩

theorem guarded_eepromField :
    Guarded d (Ahead f) (RCP_SetEepromField eeAddr off len value) (eepromField halfway) (Ahead f) := by
  have hget : Guarded d (Ahead f) (RCP_GetEepromValue eeAddr) [.write RT8326_EEPROM_RW_CTL halfway] (Ahead f) :=
    (guarded_aside hhalf aside_ctl).bind fun _ => guarded_get fun _ _ => guarded_pure
  exact hget.bind fun _ => guarded_eepromValue hhalf

end

/-- The registers of the indexes, tags and entries. -/
theorem mapped (hlo : 0x030C ≤ a) (hhi : a ≤ 0x037D) (behind : Nat) :
    (RCP_GetEeaddrFromReg behind a off len).isSome := by
  have htable : eeTable a = some (eeVlan, a - 0x030C) := by
    rw [eeTable, if_neg (by omega), if_neg (by omega), if_neg (by omega), if_pos ⟨hlo, hhi⟩]
  unfold RCP_GetEeaddrFromReg
  rw [htable]
  rfl

theorem not_mapped (hlo : 0x037D < a) (hhi : a < 0x0400) (behind : Nat) :
    RCP_GetEeaddrFromReg behind a off len = none := by
  have htable : eeTable a = none := by
    rw [eeTable, if_neg (by omega), if_neg (by omega), if_neg (by omega), if_neg (by omega), if_neg (by omega),
      if_neg (by omega)]
  unfold RCP_GetEeaddrFromReg
  rw [htable]
  dsimp only
  split
  all_goals first
    | omega
    | rfl

/-! ## One entry -/

section
variable {e q : Nat} {data : BitVec 32} {flag : RCP_FLAG}

theorem member_mapped (he : e < 32) : 0x030C ≤ RT8326_VLAN_PORT_MEMBER e 0 ∧ RT8326_VLAN_PORT_MEMBER e 0 ≤ 0x037D := by
  rw [member_addr (by omega) (by decide)]
  omega

theorem vid_mapped (he : e < 32) : 0x030C ≤ RT8326_VLAN_VID e ∧ RT8326_VLAN_VID e ≤ 0x037D := by
  rw [vid_addr (by omega)]
  omega

theorem guarded_saveVid (hhalf : halfway = false → f = id) (he : e < 32) :
    Guarded d (Ahead f) (saveVid e v) (saveTries ((v &&& 0xff00) >>> 8 = 0) halfway) (Ahead f) := by
  obtain ⟨hlo, hhi⟩ := vid_mapped he
  unfold saveVid saveTries
  by_cases hlow : (v &&& 0xff00) >>> 8 = 0
  · rw [if_pos hlow, if_pos (decide_eq_true hlow)]
    exact (guarded_eeaddrFromReg (mapped hlo hhi)).bind fun _ =>
      (guarded_eepromField hhalf).bind fun _ => guarded_eepromValue hhalf
  · rw [if_neg hlow, if_neg (by simpa using hlow)]
    exact (guarded_eeaddrFromReg (mapped hlo hhi)).bind fun _ =>
      (guarded_eepromValue hhalf).bind fun _ => guarded_eepromField hhalf

theorem guarded_saveMembers (hhalf : halfway = false → f = id) (he : e < 32) :
    Guarded d (Ahead f) (saveMembers e data) (memberTries e data halfway) (Ahead f) := by
  obtain ⟨hlo, hhi⟩ := member_mapped he
  unfold saveMembers memberTries saveTries
  by_cases hlow : (data &&& 0xff00) >>> 8 = 0
  · rw [if_pos hlow, if_pos hlow, if_pos rfl]
    exact (guarded_eeaddrFromReg (mapped hlo hhi)).bind fun _ =>
      (guarded_eepromField hhalf).bind fun _ => guarded_eepromValue hhalf
  · rw [if_neg hlow, if_neg hlow, if_neg Bool.false_ne_true]
    have haddr : RT8326_VLAN_PORT_MEMBER e MAX_RCP_SWITCH_TO_MANAGE = 0x0335 + 3 * e := by
      rw [RT8326_VLAN_PORT_MEMBER, MAX_RCP_SWITCH_TO_MANAGE]
      omega
    by_cases hfar : e > 24
    · rw [if_pos hfar]
      intro s rest hd hI hspares
      rw [meets_bind, eeaddrFromReg, meets_bind, meets_get, not_mapped (by omega) (by omega)]
      exact ahead_coherent hhalf hspares s hI
    · rw [if_neg hfar]
      exact (guarded_eeaddrFromReg (mapped (by omega) (by omega))).bind fun _ =>
        (guarded_eepromValue hhalf).bind fun _ => guarded_eepromField hhalf

def withPort (vlanum : Nat) (data : BitVec 32) (dev : RCP_DEV) : RCP_DEV :=
  { dev with vlanPort := update dev.vlanPort vlanum data }

theorem ahead_withMembers {s : State} (h : Coherent s) (he : e < 32) :
    Ahead (withPort e data) (withMembers s e data) := by
  have hdev : (withMembers s e data).dev = s.dev := vlan_table.withMembers_dev
  refine ⟨fun e' he' => ?_, fun e' he' q hq => ?_⟩
  · have hvid : vidOf (withMembers s e data).reg e' = vidOf s.reg e' := vlan_table.vid_withMembers (by omega) (by omega)
    dsimp only
    rw [hdev, hvid]
    exact h.vids e' he'
  · dsimp only at hq ⊢
    rw [hdev] at hq ⊢
    have hq : q < s.dev.numOfPorts := hq
    rw [isMember_withMembers he he' (port_lt hq) (by omega), withPort]
    dsimp only
    by_cases heq : e' = e
    · rw [heq, update_self, if_pos rfl]
    · rw [update_of_ne heq, if_neg heq]
      exact h.members e' he' q hq

/-- The second half of the members is written with the first one in its register. -/
theorem guarded_setMembers (he : e < 32) : Guarded d Coherent (setMembers e data)
    ([.write (RT8326_VLAN_PORT_MEMBER e 0) false] ++
      if d.numOfPorts ≤ 16 then [] else [.write (RT8326_VLAN_PORT_MEMBER e 1) true]) (Ahead (withPort e data)) := by
  intro s rest hd hI hspares
  have hn : s.dev.numOfPorts = d.numOfPorts := congrArg RCP_DEVICE_ID.numOfPorts hd
  have hwritten : Ahead (withPort e data) (withMembers s e data) := ahead_withMembers hI he
  rw [withMembers, hn] at hwritten
  rw [List.append_assoc] at hspares
  rw [setMembers, meets_bind, meets_get, meets_bind]
  refine (meets_tried (J := fun t => t = s.put (RT8326_VLAN_PORT_MEMBER e 0) (data.setWidth 16)) hd rfl
    (fun _ => hI) hspares).imp ?_ fun _ _ h => h
  rintro _ t ⟨hd, rfl, hspares⟩
  rw [hn]
  by_cases hfew : d.numOfPorts ≤ 16
  · rw [when_false (not_not.mpr hfew)]
    rw [if_pos hfew] at hspares hwritten
    exact ⟨hd, hwritten, hspares⟩
  · rw [when_true hfew]
    rw [if_neg hfew] at hspares hwritten
    exact meets_tried hd hwritten (by simp) hspares

theorem guarded_setVlanPort (e : Nat) (data : BitVec 32) (flag : RCP_FLAG) :
    Guarded d Coherent (RCP_SetVlanPort e data flag) (portTries d.numOfPorts e data flag) Coherent := by
  have hcache : Guarded d (Ahead (withPort e data)) (modify fun s => cachePort s e data : Rcp Unit) [] Coherent :=
    fun _ _ hd hI hspares => ⟨hd, hI, hspares⟩
  unfold RCP_SetVlanPort portTries
  by_cases hbad : e > 31
  · rw [when_true hbad, if_pos hbad]
    exact guarded_throw_bind fun _ _ hs => hs
  have he : e < 32 := by omega
  rw [when_false hbad, if_neg hbad]
  refine guarded_pure.bind fun _ => ?_
  cases flag with
  | RCP_CONFIG_2_REGISTER => exact (guarded_setMembers he).bind fun _ => guarded_pure.bind fun _ => hcache
  | RCP_CONFIG_2_EEPROM =>
    exact guarded_pure.bind fun _ =>
      (guarded_saveMembers (f := id) (fun _ => rfl) he).bind fun _ => guarded_differ
  | RCP_CONFIG_2_BOTH =>
    refine (guarded_setMembers he).bind fun _ =>
      ((guarded_saveMembers (fun h => (Bool.false_ne_true h.symm).elim) he).bind fun _ => hcache).of_eq ?_
    exact List.append_nil _

def withVID (vlanum : Nat) (data : BitVec 16) (dev : RCP_DEV) : RCP_DEV :=
  { dev with vlanVid := update dev.vlanVid vlanum data }

theorem ahead_withVid {s : State} (h : Coherent s) (he : e < 32) (hv : v.toNat < 4096) :
    Ahead (withVID e v) (withVid s e v) := by
  refine ⟨fun e' he' => ?_, fun e' he' q hq => ?_⟩
  · have hvid : vidOf (withVid s e v).reg e' = if e' = e then v else vidOf s.reg e' :=
      vlan_table.vid_withVid (by omega) (by omega) hv
    dsimp only
    rw [hvid, ← h.vids e' he']
    exact update_apply ..
  · refine (h.members e' he' q hq).trans ?_
    change _ = isMember (writes.write s.reg ⟨vidAt e, v⟩) e' q
    rw [isMember_write (member_apart_vid he' (port_lt hq) he).symm]

theorem guarded_setVlanVID (e : Nat) (v : BitVec 16) (flag : RCP_FLAG) :
    Guarded d Coherent (RCP_SetVlanVID e v flag) (vidTries e v flag) Coherent := by
  have hcache : Guarded d (Ahead (withVID e v)) (modify fun s => cacheVid s e v : Rcp Unit) [] Coherent :=
    fun _ _ hd hI hspares => ⟨hd, hI, hspares⟩
  unfold RCP_SetVlanVID vidTries
  by_cases hbad : e > 31
  · rw [when_true hbad, if_pos hbad]
    exact guarded_throw_bind fun _ _ hs => hs
  have he : e < 32 := by omega
  rw [when_false hbad, if_neg hbad]
  refine guarded_pure.bind fun _ => ?_
  have hwrite : Guarded d Coherent (RCP_SetRegisterField (RT8326_VLAN_VID e) 0 12 v)
      ([.write (RT8326_VLAN_VID e) false] ++ if v.toNat < 4096 then [] else [.differ]) (Ahead (withVID e v)) := by
    by_cases hv : v.toNat < 4096
    · rw [if_pos hv]
      exact guarded_setRegisterField (fun s hs => ahead_withVid hs he hv) fun _ _ hs => hs
    · rw [if_neg hv]
      have htried : Guarded d Coherent (RCP_SetRegisterField (RT8326_VLAN_VID e) 0 12 v)
          [.write (RT8326_VLAN_VID e) false] fun _ => True :=
        guarded_setRegisterField (fun _ _ => trivial) fun _ _ hs => hs
      exact htried.differ
  cases flag with
  | RCP_CONFIG_2_REGISTER => exact hwrite.bind fun _ => guarded_pure.bind fun _ => hcache
  | RCP_CONFIG_2_EEPROM =>
    exact guarded_pure.bind fun _ =>
      (guarded_saveVid (f := id) (fun _ => rfl) he).bind fun _ => guarded_differ
  | RCP_CONFIG_2_BOTH =>
    refine hwrite.bind fun _ =>
      ((guarded_saveVid (fun h => (Bool.false_ne_true h.symm).elim) he).bind fun _ => hcache).of_eq ?_
    exact List.append_nil _

end

/-! ## One port -/

section
variable {q p port : Nat} {flag : RCP_FLAG}

theorem guarded_setRegField (ha : Aside a) (hmapped : ∀ behind, (RCP_GetEeaddrFromReg behind a off len).isSome) :
    Guarded d Coherent (RCP_SetRegField a off len v flag) (fieldTries a flag) Coherent := by
  have hee : Guarded d Coherent (do
      let field ← eeaddrFromReg a off len
      RCP_SetEepromField field.eeAddr field.eeOffset field.eeLength (v.setWidth 8)) (eepromField false) Coherent :=
    (guarded_eeaddrFromReg hmapped).bind fun _ => guarded_eepromField (f := id) fun _ => rfl
  have hreg : Guarded d Coherent (RCP_SetRegisterField a off len v) [.write a false] Coherent :=
    guarded_aside (f := id) (fun _ => rfl) ha
  unfold RCP_SetRegField fieldTries
  cases flag with
  | RCP_CONFIG_2_REGISTER => exact guarded_pure.bind fun _ => hreg
  | RCP_CONFIG_2_EEPROM => exact hee.bind fun _ => guarded_pure
  | RCP_CONFIG_2_BOTH => exact hee.bind fun _ => hreg

theorem guarded_lPort2Port (hp : 1 ≤ port ∧ port ≤ d.numOfPorts) {g : Nat → Rcp β}
    (h : Guarded d I (g (port - 1)) l J) : Guarded d I (RCPLPort2Port 1 port >>= g) l J := by
  intro s rest hd hI hspares
  rw [meets_bind, meets_lPort2Port ⟨hp.1, hp.2.trans_eq (congrArg RCP_DEVICE_ID.numOfPorts hd).symm⟩]
  exact h s rest hd hI hspares

theorem numOfPorts_le_32 (d : RCP_DEVICE_ID) : d.numOfPorts ≤ 32 := by cases d <;> decide

theorem guarded_setVlanOutPortTag (hp : 1 ≤ port ∧ port ≤ d.numOfPorts) :
    Guarded d Coherent (RCP_SetVlanOutPortTag 1 port v flag) (fieldTries (RT8326_VLAN_PRI (port - 1)) flag)
      Coherent := by
  have hle := numOfPorts_le_32 d
  refine guarded_lPort2Port hp (guarded_setRegField (aside_tag (by omega)) (mapped ?_ ?_))
  · rw [tag_addr]
    omega
  · rw [tag_addr]
    omega

theorem guarded_setVlanPVID (hp : 1 ≤ port ∧ port ≤ d.numOfPorts) :
    Guarded d Coherent (RCP_SetVlanPVID 1 port v flag) (fieldTries (RT8326_VLAN_IDX (port - 1)) flag) Coherent := by
  have hle := numOfPorts_le_32 d
  refine guarded_get fun s _ => ?_
  refine guarded_lPort2Port hp (guarded_setRegField (aside_index (by omega)) (mapped ?_ ?_))
  · rw [index_addr]
    omega
  · rw [index_addr]
    omega

theorem guarded_isolate (mgtPort : Nat) (tmpPortList : BitVec 32) (l : List Nat)
    (hl : ∀ port ∈ l, 1 ≤ port ∧ port ≤ d.numOfPorts) (vlanum : Nat) :
    Guarded d Coherent (l.foldlM (isolatePort mgtPort tmpPortList flag) vlanum)
      (isolateTries d.numOfPorts mgtPort tmpPortList flag vlanum l) Coherent := by
  induction l generalizing vlanum with
  | nil => exact guarded_pure
  | cons port l ih =>
    obtain ⟨hp, hl⟩ := List.forall_mem_cons.mp hl
    rw [List.foldlM_cons, isolateTries, isolatePort, bind_assoc]
    refine (guarded_setVlanOutPortTag hp).bind fun _ => ?_
    by_cases hmgt : port = mgtPort
    · rw [if_pos hmgt, if_pos hmgt, pure_bind]
      exact ih hl vlanum
    · rw [if_neg hmgt, if_neg hmgt, bind_assoc]
      refine guarded_lPort2Port hp ?_
      rw [bind_assoc]
      refine (guarded_setVlanPort vlanum _ flag).bind fun _ => ?_
      rw [bind_assoc]
      refine (guarded_setVlanVID vlanum _ flag).bind fun _ => ?_
      rw [bind_assoc]
      refine (guarded_setVlanPVID hp).bind fun _ => ?_
      rw [pure_bind]
      exact ih hl (vlanum + 1)

theorem Guarded.forM {γ : Type} {g : γ → Rcp Unit} {tries : γ → List Try} {l : List γ}
    (h : ∀ c ∈ l, Guarded d I (g c) (tries c) I) : Guarded d I (forM l g) (l.flatMap tries) I := by
  induction l with
  | nil => exact guarded_pure
  | cons c l ih =>
    obtain ⟨hc, hl⟩ := List.forall_mem_cons.mp h
    rw [List.forM_cons, List.flatMap_cons]
    exact hc.bind fun _ => ih hl

/-! ## Calls that leave the table alone -/

/-- Whatever fails. -/
def Harmless {α : Type} (d : RCP_DEVICE_ID) (x : Rcp α) : Prop :=
  ∀ s, s.dev.deviceId = d → Coherent s → Meets x s (fun _ t => t.dev.deviceId = d ∧ Coherent t) fun _ t => Coherent t

theorem Guarded.harmless (h : Guarded d Coherent x l Coherent) (hl : ∀ writeFails k, Spares writeFails k l) :
    Harmless d x := by
  intro s hd hs
  refine (h s [] hd hs ?_).imp (fun _ _ ht => ⟨ht.1, ht.2.1⟩) fun _ _ h => h
  rw [List.append_nil]
  exact hl ..

theorem Harmless.bind (hx : Harmless d x) (hg : ∀ b, Harmless d (g b)) : Harmless d (x >>= g) := by
  intro s hd hs
  rw [meets_bind]
  exact (hx s hd hs).imp (fun b t ht => hg b t ht.1 ht.2) fun _ _ h => h

theorem Harmless.forM {γ : Type} {g : γ → Rcp Unit} {l : List γ} (h : ∀ c ∈ l, Harmless d (g c)) :
    Harmless d (forM l g) := by
  induction l with
  | nil => exact guarded_pure.harmless fun _ _ => trivial
  | cons c l ih =>
    obtain ⟨hc, hl⟩ := List.forall_mem_cons.mp h
    rw [List.forM_cons]
    exact hc.bind fun _ => ih hl

/-- The tries of the call are all that can make the copy differ. -/
def Ends {α : Type} (d : RCP_DEVICE_ID) (x : Rcp α) (l : List Try) : Prop :=
  ∀ s, s.dev.deviceId = d → Coherent s → Spares s.writeFails s.writes.length l → Always x s Coherent

theorem Harmless.ends (h : Harmless d x) : Ends d x [] :=
  fun s hd hs _ => (h s hd hs).imp (fun _ _ ht => ht.2) fun _ _ h => h

theorem Guarded.ends (h : Guarded d Coherent x l Coherent) : Ends d x l := by
  intro s hd hs hspares
  rw [← List.append_nil l] at hspares
  exact (h s [] hd hs hspares).imp (fun _ _ ht => ht.2.1) fun _ _ h => h

theorem Guarded.before (hx : Guarded d Coherent x l Coherent) (hg : ∀ b, Ends d (g b) l') :
    Ends d (x >>= g) (l ++ l') := by
  intro s hd hs hspares
  rw [Always, meets_bind]
  exact (hx s l' hd hs hspares).imp (fun b t ht => hg b t ht.1 ht.2.1 ht.2.2) fun _ _ h => h

theorem Harmless.before (hx : Harmless d x) (hg : ∀ b, Harmless d (g b)) : Ends d (x >>= g) [] := (hx.bind hg).ends

theorem ends_get {g : State → Rcp β} (h : ∀ s, s.dev.deviceId = d → Ends d (g s) l) : Ends d (get >>= g) l :=
  fun s hd => h s hd s hd

theorem ends_lPort2Port {port : Nat} (hp : 1 ≤ port ∧ port ≤ d.numOfPorts) {g : Nat → Rcp β}
    (h : Ends d (g (port - 1)) l) : Ends d (RCPLPort2Port 1 port >>= g) l := by
  intro s hd hs hspares
  rw [Always, meets_bind, meets_lPort2Port ⟨hp.1, hp.2.trans_eq (congrArg RCP_DEVICE_ID.numOfPorts hd).symm⟩]
  exact h s hd hs hspares

/-- A port that the device does not have. -/
theorem ends_lPort2Port_bad {slot port : Nat} (hp : ¬ (slot = 1 ∧ 1 ≤ port ∧ port ≤ d.numOfPorts)) {g : Nat → Rcp β} :
    Ends d (RCPLPort2Port slot port >>= g) l := by
  intro s hd hs _
  have hn : s.dev.numOfPorts = d.numOfPorts := congrArg RCP_DEVICE_ID.numOfPorts hd
  rw [Always, meets_bind, RCPLPort2Port, meets_bind, meets_get]
  split_ifs
  · exact hs
  · exact hs
  · omega

theorem spares_eepromField (writeFails : Nat → Nat → Bool) (k : Nat) {l : List Try}
    (h : ∀ k, Spares writeFails k l) : Spares writeFails k (eepromField false ++ l) := by
  simp only [eepromField, eepromValue, List.cons_append, List.nil_append, Spares]
  split_ifs
  all_goals first
    | rfl
    | exact h _

theorem spares_field (writeFails : Nat → Nat → Bool) (k : Nat) : Spares writeFails k (fieldTries p flag) := by
  have hwrite (k : Nat) : Spares writeFails k [.write p false] := by
    rw [Spares]
    split_ifs
    · rfl
    · trivial
  unfold fieldTries
  cases flag with
  | RCP_CONFIG_2_REGISTER => exact hwrite k
  | RCP_CONFIG_2_EEPROM => exact spares_eepromField writeFails k fun _ => trivial
  | RCP_CONFIG_2_BOTH => exact spares_eepromField writeFails k hwrite

theorem harmless_setVlanPVID (hp : 1 ≤ port ∧ port ≤ d.numOfPorts) : Harmless d (RCP_SetVlanPVID 1 port v flag) :=
  (guarded_setVlanPVID hp).harmless spares_field

theorem harmless_setVlanOutPortTag (hp : 1 ≤ port ∧ port ≤ d.numOfPorts) :
    Harmless d (RCP_SetVlanOutPortTag 1 port v flag) := (guarded_setVlanOutPortTag hp).harmless spares_field

theorem harmless_write (ha : Aside a) : Harmless d (RCP_Write_Reg a v) := by
  intro s hd hs
  rw [meets_write]
  split_ifs
  · exact ⟨hs.vids, hs.members⟩
  · exact ⟨hd, coherent_put hs ha⟩

theorem harmless_setRegisterField (ha : Aside a) : Harmless d (RCP_SetRegisterField a off len v) := by
  intro s hd hs
  rw [meets_setRegisterField]
  exact harmless_write ha s hd hs

theorem harmless_eepromValue {eeAddr : Nat} {value : BitVec 8} : Harmless d (RCP_SetEepromValue eeAddr value) :=
  (harmless_setRegisterField aside_data).bind fun _ => (harmless_setRegisterField aside_ctl).bind fun _ =>
    fun _ hd hs => ⟨hd, hs.vids, hs.members⟩

theorem harmless_eepromField {eeAddr : Nat} {value : BitVec 8} :
    Harmless d (RCP_SetEepromField eeAddr off len value) := by
  have hget : Harmless d (RCP_GetEepromValue eeAddr) := (harmless_setRegisterField aside_ctl).bind fun _ =>
    (guarded_get fun _ _ => guarded_pure).harmless fun _ _ => trivial
  exact hget.bind fun _ => harmless_eepromValue

theorem Harmless.when {c : Prop} [Decidable c] {x : Rcp Unit} (h : Harmless d x) : Harmless d (when c x) := by
  by_cases hc : c
  · rw [when_true hc]
    exact h
  · rw [when_false hc]
    exact fun _ hd hs => ⟨hd, hs⟩

theorem aside_insert : Aside RT8326_VLAN_PVID_CTL_BASE := by
  unfold Aside
  decide

theorem harmless_setVlanInsert : Harmless d (RCP_SetVlanInsert v flag) := by
  refine (harmless_write aside_insert).when.bind fun _ => Harmless.when ?_
  have hfield : Harmless d (eeaddrFromReg RT8326_VLAN_PVID_CTL_BASE 0 8) :=
    (guarded_eeaddrFromReg (mapped (by decide) (by decide))).harmless fun _ _ => trivial
  refine hfield.bind fun field => ?_
  split_ifs
  · exact harmless_eepromField.bind fun _ => harmless_eepromValue
  · exact harmless_eepromValue.bind fun _ => harmless_eepromField

end

/-! ## The calls -/

section
variable {flag : RCP_FLAG}

theorem port_in_ports {port n : Nat} (h : port ∈ ports n) : 1 ≤ port ∧ port ≤ n := by
  obtain ⟨hlo, hhi⟩ := List.mem_range'_1.mp h
  omega

theorem ends_mgtPortIsolate (mgtPort : Nat) :
    Ends d (RCP_SetVlanMgtPortIsolate mgtPort flag) (mgtPortTries d.numOfPorts mgtPort flag) := by
  refine (guarded_setVlanVID 0 1 flag).before fun _ => (guarded_setVlanPort 0 _ flag).before fun _ => ?_
  by_cases hp : 1 ≤ mgtPort ∧ mgtPort ≤ d.numOfPorts
  · rw [if_pos hp]
    refine ends_lPort2Port hp (ends_get fun s hd => ?_)
    have hn : s.dev.numOfPorts = d.numOfPorts := congrArg RCP_DEVICE_ID.numOfPorts hd
    rw [hn]
    refine (guarded_isolate mgtPort _ _ (fun _ => port_in_ports) 1).before fun _ => ?_
    rw [← List.append_nil ((List.range' _ _).flatMap _)]
    refine (Guarded.forM fun vlanum _ => (guarded_setVlanPort vlanum 0 flag).bind fun _ =>
      guarded_setVlanVID vlanum 0 flag).before fun _ => ?_
    exact (harmless_setVlanPVID hp).before fun _ => harmless_setVlanInsert
  · exact ends_lPort2Port_bad fun h => hp h.2

theorem ends_8021QEnable (enable : BitVec 16) : Ends d (RCP_SetVlan8021QEnable enable flag)
    (if enable = 0 then
      vidTries 0 1 flag ++ (portTries d.numOfPorts 0 (allPorts d) flag ++
        (List.range' 1 (MAX_RCP_VLAN_NUM - 1)).flatMap fun vlanum =>
          vidTries vlanum 0 flag ++ portTries d.numOfPorts vlanum 0 flag)
    else []) := by
  refine ends_get fun s hd => ?_
  have hn : s.dev.numOfPorts = d.numOfPorts := congrArg RCP_DEVICE_ID.numOfPorts hd
  have h8021Q : Harmless d (RCP_SetVlan8021Q enable flag) :=
    (guarded_setRegField (.inl (by decide)) fun _ => rfl).harmless spares_field
  rw [hn, hd]
  by_cases henable : enable = 0
  · rw [when_true henable, when_false (not_not.mpr henable), if_pos henable]
    simp only [bind_assoc, pure_bind]
    refine (guarded_setVlanVID 0 1 flag).before fun _ => (guarded_setVlanPort 0 _ flag).before fun _ => ?_
    rw [← List.append_nil ((List.range' _ _).flatMap _)]
    refine (Guarded.forM fun vlanum _ => (guarded_setVlanVID vlanum 0 flag).bind fun _ =>
      guarded_setVlanPort vlanum 0 flag).before fun _ => ?_
    refine (Harmless.forM fun port hport => ?_).before fun _ => ?_
    · exact (harmless_setVlanPVID (port_in_ports hport)).bind fun _ =>
        harmless_setVlanOutPortTag (port_in_ports hport)
    · refine (harmless_write aside_insert).bind fun _ => harmless_eepromValue.bind fun _ =>
        harmless_eepromValue.bind fun _ => ?_
      have hisolate : Harmless d (RCP_SetVlanPortIsolate 0) := fun _ hd hs => ⟨hd, hs.vids, hs.members⟩
      exact hisolate.bind fun _ => h8021Q
  · rw [when_false henable, when_true henable, if_neg henable, pure_bind]
    refine (Harmless.forM fun port hport => ?_).before fun _ => h8021Q
    exact harmless_setVlanOutPortTag (port_in_ports hport)

theorem ends_enableSave (tries : Nat) (enable : BitVec 16) :
    Ends d (RCP_SetVlanEnableSave tries enable) (if enable = 1 then [.differ] else []) := by
  by_cases henable : enable = 1
  · rw [if_pos henable]
    exact fun _ _ _ hspares => hspares.elim
  · rw [if_neg henable]
    refine ends_get fun s _ => ?_
    rw [if_neg henable]
    exact harmless_eepromValue.before fun _ => harmless_eepromValue.bind fun _ => Harmless.forM fun _ _ =>
      harmless_eepromValue

theorem meets_getVlanPort {s : State} {vlanum : Nat} {Q : BitVec 32 → State → Prop} {E : RCP_RET → State → Prop} :
    Meets (RCP_GetVlanPort vlanum) s Q E ↔ Q (portBits s.dev s.reg vlanum) s := by
  rw [RCP_GetVlanPort, meets_bind, meets_read, meets_bind, meets_get, portBits]
  split_ifs <;> rfl

/-- A call for one member reads the others from the registers. -/
theorem keeps_setMember {s : State} (slot port vlanum : Nat) (g : BitVec 32 → Nat → BitVec 32) (hs : Coherent s)
    (h : Spares s.writeFails s.writes.length
      (if slot = 1 ∧ 1 ≤ port ∧ port ≤ s.dev.numOfPorts then
        portTries s.dev.numOfPorts vlanum (g (portBits s.dev s.reg vlanum) (port - 1)) flag else [])) :
    Always (do
      let phyPort ← RCPLPort2Port slot port
      let portlist ← RCP_GetVlanPort vlanum
      RCP_SetVlanPort vlanum (g portlist phyPort) flag) s Coherent := by
  by_cases hp : slot = 1 ∧ 1 ≤ port ∧ port ≤ s.dev.numOfPorts
  · obtain ⟨rfl, hp⟩ := hp
    rw [if_pos ⟨rfl, hp⟩] at h
    rw [Always, meets_bind, meets_lPort2Port hp, meets_bind, meets_getVlanPort]
    exact (guarded_setVlanPort vlanum _ flag).ends s rfl hs h
  · exact ends_lPort2Port_bad hp s rfl hs h

end

end

/-! ## Runs -/

theorem keeps_of_spared {s : State} {c : Call} (hs : Coherent s) (h : Spared s c) : Keeps s c := by
  refine always_iff.mp ?_
  cases c with
  | setVID vlanum data flag => exact (guarded_setVlanVID vlanum data flag).ends s rfl hs h
  | setPort vlanum data flag => exact (guarded_setVlanPort vlanum data flag).ends s rfl hs h
  | portAdd slot port vlanum flag =>
    exact keeps_setMember slot port vlanum (fun portlist phyPort => portlist ||| 1#32 <<< phyPort) hs h
  | portDelete slot port vlanum flag =>
    exact keeps_setMember slot port vlanum (fun portlist phyPort => portlist &&& ~~~(1#32 <<< phyPort)) hs h
  | mgtPortIsolate mgtPort flag => exact ends_mgtPortIsolate mgtPort s rfl hs h
  | enable8021Q enable flag => exact ends_8021QEnable enable s rfl hs h
  | enableSave tries enable => exact ends_enableSave tries enable s rfl hs h

/-- The copy of the table has what the registers have behind every call of a run, as long as the
failures spare the calls. -/
theorem the_copy_is_the_table_while_the_calls_are_spared (s : State) (cs : List Call) (hs : Coherent s)
    (h : Along step Spared s cs) : Along step Keeps s cs :=
  along_imp (I := Coherent) (fun _ _ => keeps_of_spared) (fun _ _ => keeps_of_spared) hs h

/-- A switch of 24 ports without any VLAN, where the second write fails. -/
def sample : State where
  dev := ⟨.GH1524, 0, 1, fun _ => 0, fun _ => 0, 0⟩
  reg _ := 0
  eeprom _ := 0
  writes := []
  writeFails k _ := k = 1
  behind := 0
  words := []

theorem sample_coherent : Coherent sample := ⟨by decide +kernel, by decide +kernel⟩

/-- Half the members are written, a VID is too wide, and a VID goes to the EEPROM only. -/
theorem some_calls_make_the_copy_differ : Coherent sample ∧
    ¬ Along step Keeps sample [.setPort 1 0xff .RCP_CONFIG_2_REGISTER] ∧
    ¬ Along step Keeps sample [.setVID 1 4097 .RCP_CONFIG_2_REGISTER] ∧
    ¬ Along step Keeps sample
      [.setVID 1 2 .RCP_CONFIG_2_REGISTER, .setVID 1 3 .RCP_CONFIG_2_REGISTER, .setVID 1 5 .RCP_CONFIG_2_EEPROM] := by
  refine ⟨sample_coherent, ?_, ?_, ?_⟩
  · rintro ⟨h, -⟩
    exact absurd (h.members 1 (by decide) 0 (by decide)) (by decide +kernel)
  · rintro ⟨h, -⟩
    exact absurd (h.vids 1 (by decide)) (by decide +kernel)
  · rintro ⟨-, -, h, -⟩
    exact absurd (h.vids 1 (by decide)) (by decide +kernel)

theorem the_copy_after_three_calls : Along step Keeps sample
    [.setVID 1 5 .RCP_CONFIG_2_REGISTER, .setVID 2 6 .RCP_CONFIG_2_REGISTER, .portAdd 1 3 1 .RCP_CONFIG_2_BOTH] :=
  the_copy_is_the_table_while_the_calls_are_spared sample _ sample_coherent (by decide +kernel)

end gwdonu.vlan_coherence
