-- The watch over loops behind a switch: a port that loops is shut, and what is known of it goes by
-- the port alone, whatever the other ports do and whatever accesses fail.
import Gwdonu.Lib.Runs
import Gwdonu.SwitchSettings

namespace gwdonu.switch_loops

open Function calls rcp_registers register_fields runs switch_settings
open rcp (RCP_RET)
open vlan_cli (Rcp_Get_MGT_Port)

def RT8326_PORT_DISABLE (i : Nat) : Nat := 0x0608 + (decide (i > 15)).toNat
def Port_Disable_Pos (i : Nat) : Nat := 0 + (i &&& (16 - 1)) * 1

/-! ## The program -/

/-- A switch and what is known of the loops behind it. `mgtPort` is the variable of the thread. Not
the program's is which accesses to the PHYs and which reads of a port get lost, by their number. -/
structure Watch where
  switch : State
  loopStatus : BitVec 32
  loopAndDown : BitVec 32
  mgtPort : Nat
  accesses : Nat
  lost : Nat → Bool

namespace Watch

variable (w : Watch)

def call {α : Type} (x : Rcp α) : Except RCP_RET α × Watch :=
  match x w.switch with
  | .ok a t => (.ok a, { w with switch := t })
  | .error ret t => (.error ret, { w with switch := t })

/-- A call behind an access that can get lost. -/
def access {α : Type} (x : Rcp α) : Except RCP_RET α × Watch :=
  let t := { w with accesses := w.accesses + 1 }
  if w.lost w.accesses then (.error .RCP_TIMEOUT, t) else t.call x

def RCP_GetPortEnable (slot port : Nat) : Except RCP_RET (BitVec 16) × Watch :=
  match w.call (RCPLPort2Port slot port) with
  | (.error ret, t) => (.error ret, t)
  | (.ok phyPort, t) => t.access (RCP_GetRegField (RT8326_PORT_DISABLE phyPort) (Port_Disable_Pos phyPort) 1)

/-- `RCP_SetPhyPowerDown` comes first. What it does to the PHY is not seen here. -/
def RCP_SetPortEnable (slot port : Nat) (data : BitVec 16) (flag : RCP_FLAG) : Except RCP_RET Unit × Watch :=
  match w.call (RCPLPort2Port slot port) with
  | (.error ret, t) => (.error ret, t)
  | (.ok phyPort, t) =>
    t.access (RCP_SetRegField (RT8326_PORT_DISABLE phyPort) (Port_Disable_Pos phyPort) 1 data flag)

def isSet (bits : BitVec 32) (phyPort : Nat) : Bool := (bits &&& ((1 : BitVec 32) <<< phyPort)) >>> phyPort == 1

/-- A port that was shut and has been enabled since is not marked any more. -/
def checkPort (phyPort port : Nat) : Watch :=
  if isSet w.loopAndDown phyPort then
    match w.RCP_GetPortEnable 1 port with
    | (.ok portstatus, t) =>
      if portstatus ≠ 0 then { t with loopStatus := t.loopStatus &&& ~~~((1 : BitVec 32) <<< (port - 1)) }
      else { t with loopAndDown := t.loopAndDown &&& ~~~((1 : BitVec 32) <<< (port - 1)) }
    | (.error _, t) => t
  else w

def shutPort (portlist : BitVec 32) (phyPort port : Nat) : Watch :=
  if isSet portlist phyPort then
    if port ≠ w.mgtPort then
      let t := { w with loopStatus := w.loopStatus ||| ((1 : BitVec 32) <<< (port - 1)) }
      match t.RCP_SetPortEnable 1 port 1 .RCP_CONFIG_2_REGISTER with
      | (.ok _, t) => { t with loopAndDown := t.loopAndDown ||| ((1 : BitVec 32) <<< (port - 1)) }
      | (.error _, t) => t
    else w
  else w

def watchPort (portlist : BitVec 32) (phyPort : Nat) : Watch :=
  let port := RCPPort2LPort w.switch.dev phyPort
  (w.checkPort phyPort port).shutPort portlist phyPort port

/-- The part of the loop for one switch; `portlist` is what `RCP_GetLoopPort` gives. -/
def rcp_loopdetect_monitor (portlist : Except RCP_RET (BitVec 32)) : Watch :=
  let t := if w.switch.dev.upLinkPort > w.switch.dev.numOfPorts then w
    else { w with mgtPort := RCPPort2LPort w.switch.dev w.switch.dev.upLinkPort }
  match portlist with
  | .ok portlist => run (fun t phyPort => t.watchPort portlist phyPort) t (List.range w.switch.dev.numOfPorts)
  | .error _ => t

end Watch

/-- What the commands print. -/
inductive Line where
  | mgtFailed (ret : RCP_RET)
  | management (ulPort : Nat)
  | portError (ulPort : Nat)
  | disabled (ulPort : Nat)
  | disableFailed (ulPort : Nat) (ret : RCP_RET)
  | enabled (ulPort : Nat)
  | enableFailed (ulPort : Nat) (ret : RCP_RET)
  | loop (port : Nat)
  | noLoop
  | loopFailed (ret : RCP_RET)
  | down (port : Nat)
  | noDown
  deriving DecidableEq

namespace Watch

/-- The loop over the list of ports. -/
def setPorts (word : String) : Watch → List Nat → Watch × List Line
  | w, [] => (w, [])
  | w, ulPort :: rest =>
    if ulPort > w.switch.dev.numOfPorts then (w, [.portError ulPort])
    else if word = "0" then
      match w.RCP_SetPortEnable 1 ulPort 1 .RCP_CONFIG_2_REGISTER with
      | (.error ret, t) => (t, [.disableFailed ulPort ret])
      | (.ok _, t) => ((t.setPorts word rest).1, .disabled ulPort :: (t.setPorts word rest).2)
    else
      match w.RCP_SetPortEnable 1 ulPort 0 .RCP_CONFIG_2_REGISTER with
      | (.error ret, t) => (t, [.enableFailed ulPort ret])
      | (.ok _, t) => ((t.setPorts word rest).1, .enabled ulPort :: (t.setPorts word rest).2)

/-- The branch with two arguments. `portList` is what `ETH_ParsePortList` makes of the first one, and
ends at a 0. -/
def cli_int_port_en (w : Watch) (word : String) (portList : List Nat) : Watch × List Line :=
  match w.call Rcp_Get_MGT_Port with
  | (.error ret, t) => (t, [.mgtFailed ret])
  | (.ok mgtPort, t) =>
    if mgtPort ∈ portList.takeWhile (· ≠ 0) then (t, [.management mgtPort])
    else t.setPorts word (portList.takeWhile (· ≠ 0))

/-- The ports of the bits. -/
def portsOf (dev : RCP_DEV) (bits : BitVec 32) : List Nat :=
  ((List.range dev.numOfPorts).filter (isSet bits)).map (RCPPort2LPort dev)

/-- `portlist` is what `RCP_GetLoopPort` gives. -/
def cli_int_show_loop_port (w : Watch) (portlist : Except RCP_RET (BitVec 32)) : List Line :=
  (match portlist with
    | .ok portlist => if portlist ≠ 0 then (portsOf w.switch.dev portlist).map .loop else [.noLoop]
    | .error ret => [.loopFailed ret]) ++
  if w.loopAndDown ≠ 0 then (portsOf w.switch.dev w.loopAndDown).map .down else [.noDown]

end Watch

/-- A round of the thread, or a command. -/
inductive Event where
  | round (portlist : Except RCP_RET (BitVec 32))
  | port_en (word : String) (portList : List Nat)
  | show_loop_port (portlist : Except RCP_RET (BitVec 32))

def step (w : Watch) : Event → Watch × List Line
  | .round portlist => (w.rcp_loopdetect_monitor portlist, [])
  | .port_en word portList => w.cli_int_port_en word portList
  | .show_loop_port portlist => (w, w.cli_int_show_loop_port portlist)

/-! ## A port by itself -/

/-- What is to be known of a port: whether it is shut, whether its last report of a loop stands, and
whether it is marked as shut for a loop. -/
@[ext]
structure Port where
  isDisabled : Bool
  isLooped : Bool
  isMarked : Bool
  deriving DecidableEq

/-- What a port sees of an event. -/
inductive Seen where
  | round (isReported : Bool)
  | enable
  | disable
  | nothing
  deriving DecidableEq

/-- A port that is found shut loses its report, one that is found enabled its mark. -/
def Port.check (p : Port) (isRead : Bool) : Port :=
  if p.isMarked ∧ isRead then
    if p.isDisabled then { p with isLooped := false } else { p with isMarked := false }
  else p

/-- A report stands whether the port could be shut or not. -/
def Port.shut (p : Port) (isReported isSet : Bool) : Port :=
  if isReported then ⟨p.isDisabled || isSet, true, p.isMarked || isSet⟩ else p

/-- `isRead` and `isSet` are what became of the accesses. -/
def Port.Turns (p : Port) (seen : Seen) (p' : Port) : Prop :=
  match seen with
  | .round isReported => ∃ isRead isSet, p' = (p.check isRead).shut isReported isSet
  | .enable => p' = p ∨ p' = { p with isDisabled := false }
  | .disable => p' = p ∨ p' = { p with isDisabled := true }
  | .nothing => p' = p

def Watch.port (w : Watch) (i : Nat) : Port where
  isDisabled := fields.get (w.switch.reg (RT8326_PORT_DISABLE i)) (Port_Disable_Pos i) 1 == 1
  isLooped := w.loopStatus.getLsbD i
  isMarked := w.loopAndDown.getLsbD i

/-- What port `i + 1` of the device sees. -/
def Event.seen (dev : RCP_DEV) (i : Nat) : Event → Seen
  | .round (.ok portlist) => .round (portlist.getLsbD i ∧ i ≠ dev.upLinkPort)
  | .round (.error _) => .nothing
  | .port_en word portList =>
    if i + 1 ∈ portList.takeWhile (· ≠ 0) ∧ i ≠ dev.upLinkPort then if word = "0" then .disable else .enable
    else .nothing
  | .show_loop_port _ => .nothing

/-! ## Bits -/

section
variable {i j n : Nat} {bits : BitVec 32}

theorem getLsbD_shift (hi : i < 32) : ((1 : BitVec 32) <<< j).getLsbD i = decide (i = j) := by
  rw [BitVec.getLsbD_shiftLeft, decide_eq_true hi, Bool.true_and]
  change (!decide (i < j) && (1#32).getLsbD (i - j)) = decide (i = j)
  rw [BitVec.getLsbD_one, Bool.eq_iff_iff]
  simp only [Bool.and_eq_true, Bool.not_eq_true', decide_eq_true_eq, decide_eq_false_iff_not]
  omega

theorem isSet_eq (hi : i < 32) : Watch.isSet bits i = bits.getLsbD i := by
  have hbit : (bits &&& ((1 : BitVec 32) <<< i)) >>> i = if bits.getLsbD i then 1 else 0 := by
    apply BitVec.eq_of_getLsbD_eq
    intro k hk
    have hone : (if bits.getLsbD i then 1 else 0 : BitVec 32).getLsbD k = (bits.getLsbD i && decide (k = 0)) := by
      cases bits.getLsbD i
      · exact BitVec.getLsbD_zero
      · change (1#32).getLsbD k = decide (k = 0)
        rw [BitVec.getLsbD_one]
        exact Bool.true_and _
    rw [BitVec.getLsbD_ushiftRight, BitVec.getLsbD_and, hone]
    by_cases hzero : k = 0
    · rw [hzero, Nat.add_zero, getLsbD_shift hi, decide_eq_true rfl, decide_eq_true rfl]
    · rw [decide_eq_false hzero, Bool.and_false]
      by_cases hlt : i + k < 32
      · rw [getLsbD_shift hlt, decide_eq_false (by omega), Bool.and_false]
      · rw [BitVec.getLsbD_of_ge _ _ (Nat.not_lt.mp hlt), Bool.false_and]
  rw [Watch.isSet, hbit]
  cases bits.getLsbD i <;> rfl

theorem set_other (hi : i < 32) (hij : i ≠ j) : (bits ||| ((1 : BitVec 32) <<< j)).getLsbD i = bits.getLsbD i := by
  rw [BitVec.getLsbD_or, getLsbD_shift hi, decide_eq_false hij, Bool.or_false]

theorem set_self (hj : j < 32) : (bits ||| ((1 : BitVec 32) <<< j)).getLsbD j = true := by
  rw [BitVec.getLsbD_or, getLsbD_shift hj, decide_eq_true rfl, Bool.or_true]

theorem clear_other (hi : i < 32) (hij : i ≠ j) :
    (bits &&& ~~~((1 : BitVec 32) <<< j)).getLsbD i = bits.getLsbD i := by
  rw [BitVec.getLsbD_and, BitVec.getLsbD_not, getLsbD_shift hi, decide_eq_true hi, decide_eq_false hij]
  exact Bool.and_true _

theorem clear_self (hj : j < 32) : (bits &&& ~~~((1 : BitVec 32) <<< j)).getLsbD j = false := by
  rw [BitVec.getLsbD_and, BitVec.getLsbD_not, getLsbD_shift hj, decide_eq_true hj, decide_eq_true rfl]
  exact Bool.and_false _

theorem disable_checked : ∀ i ∈ List.range 32, ∀ j ∈ List.range 32, RT8326_PORT_DISABLE i = RT8326_PORT_DISABLE j →
    Port_Disable_Pos i = Port_Disable_Pos j → i = j := by
  decide +kernel

theorem disable_fits : ∀ i ∈ List.range 32, Port_Disable_Pos i + 1 ≤ 16 := by
  decide +kernel

/-- The bit of a port behind a write to that of a port. -/
theorem disable_put {reg : Nat → BitVec 16} {data : BitVec 16} (hi : i < 32) (hj : j < 32) :
    (fields.get (update reg (RT8326_PORT_DISABLE j)
      (fields.put (reg (RT8326_PORT_DISABLE j)) data (Port_Disable_Pos j) 1) (RT8326_PORT_DISABLE i))
        (Port_Disable_Pos i) 1 == 1) =
      if i = j then data.getLsbD 0 else fields.get (reg (RT8326_PORT_DISABLE i)) (Port_Disable_Pos i) 1 == 1 := by
  by_cases hij : i = j
  · subst hij
    have hfit := disable_fits i (List.mem_range.mpr hi)
    rw [if_pos rfl, update_self, fields.get_put_inside _ _ le_rfl le_rfl hfit, Nat.sub_self, fields.get_low,
      ← low_one_eq]
    rfl
  · rw [if_neg hij]
    by_cases haddr : RT8326_PORT_DISABLE i = RT8326_PORT_DISABLE j
    · rw [haddr, update_self]
      refine congrArg (· == 1) (fields.get_put_other _ _ fun k _ hlo hhi hin => ?_)
      have hne : Port_Disable_Pos i ≠ Port_Disable_Pos j := fun hpos =>
        hij (disable_checked i (List.mem_range.mpr hi) j (List.mem_range.mpr hj) haddr hpos)
      omega
    · rw [update_of_ne haddr]

end

/-! ## The accesses -/

section
variable {w t : Watch} {s : State} {i j : Nat} {data : BitVec 16} {isSet : Bool}

theorem call_port (hj : j < w.switch.dev.numOfPorts) : w.call (RCPLPort2Port 1 (j + 1)) = (.ok j, w) := by
  have hport : RCPLPort2Port 1 (j + 1) w.switch = .ok j w.switch :=
    ok_iff.mpr ((meets_lPort2Port ⟨Nat.le_add_left 1 j, hj⟩).mpr ⟨rfl, rfl⟩)
  unfold Watch.call
  rw [hport]

theorem getField_ok (regAddr off len : Nat) :
    RCP_GetRegField regAddr off len s = .ok (fields.get (s.reg regAddr) off len) s := by
  rw [ok_iff, Gives, meets_getRegField]
  exact ⟨rfl, rfl⟩

theorem getPortEnable_eq (hj : j < w.switch.dev.numOfPorts) : w.RCP_GetPortEnable 1 (j + 1) =
    (if w.lost w.accesses then .error .RCP_TIMEOUT
      else .ok (fields.get (w.switch.reg (RT8326_PORT_DISABLE j)) (Port_Disable_Pos j) 1),
      { w with accesses := w.accesses + 1 }) := by
  unfold Watch.RCP_GetPortEnable
  rw [call_port hj]
  unfold Watch.access
  by_cases hlost : w.lost w.accesses = true
  · simp only [if_pos hlost]
  · simp only [if_neg hlost]
    unfold Watch.call
    dsimp only
    rw [getField_ok]

/-- The flag of port `j` is set, or it is not; the rest is as before. -/
structure Watch.Sets (w t : Watch) (j : Nat) (data : BitVec 16) (isSet : Bool) : Prop where
  dev : t.switch.dev = w.switch.dev
  mgtPort : t.mgtPort = w.mgtPort
  loopStatus : t.loopStatus = w.loopStatus
  loopAndDown : t.loopAndDown = w.loopAndDown
  reg : t.switch.reg = if isSet then update w.switch.reg (RT8326_PORT_DISABLE j)
    (fields.put (w.switch.reg (RT8326_PORT_DISABLE j)) data (Port_Disable_Pos j) 1) else w.switch.reg

theorem setPortEnable_sets (hj : j < w.switch.dev.numOfPorts) (data : BitVec 16) :
    (∃ t, w.RCP_SetPortEnable 1 (j + 1) data .RCP_CONFIG_2_REGISTER = (.ok (), t) ∧ w.Sets t j data true) ∨
      ∃ ret t, w.RCP_SetPortEnable 1 (j + 1) data .RCP_CONFIG_2_REGISTER = (.error ret, t) ∧ w.Sets t j data false := by
  unfold Watch.RCP_SetPortEnable
  rw [call_port hj]
  unfold Watch.access
  by_cases hlost : w.lost w.accesses = true
  · refine .inr ⟨.RCP_TIMEOUT, { w with accesses := w.accesses + 1 }, ?_, rfl, rfl, rfl, rfl, rfl⟩
    simp [hlost]
  · have hset : Meets (RCP_SetRegField (RT8326_PORT_DISABLE j) (Port_Disable_Pos j) 1 data .RCP_CONFIG_2_REGISTER)
        w.switch (fun _ t => t = w.switch.put (RT8326_PORT_DISABLE j)
          (fields.put (w.switch.reg (RT8326_PORT_DISABLE j)) data (Port_Disable_Pos j) 1))
        fun _ t => t.dev = w.switch.dev ∧ t.reg = w.switch.reg := by
      rw [meets_setRegField, meets_setRegisterField, meets_write]
      split_ifs
      · exact ⟨rfl, rfl⟩
      · rfl
    unfold Meets at hset
    unfold Watch.call
    simp only [hlost, Bool.false_eq_true, if_false]
    split at hset
    · rename_i heq
      rw [heq]
      refine .inl ⟨_, rfl, ?_⟩
      subst hset
      exact ⟨rfl, rfl, rfl, rfl, rfl⟩
    · rename_i heq
      rw [heq]
      exact .inr ⟨_, _, rfl, hset.1, rfl, rfl, rfl, hset.2⟩

theorem Watch.Sets.port (h : w.Sets t j data isSet) (hi : i < 32) (hj : j < 32) :
    t.port i = if i = j ∧ isSet then { w.port i with isDisabled := data.getLsbD 0 } else w.port i := by
  have hlooped : (t.port i).isLooped = (w.port i).isLooped := congrArg (·.getLsbD i) h.loopStatus
  have hmarked : (t.port i).isMarked = (w.port i).isMarked := congrArg (·.getLsbD i) h.loopAndDown
  have hdisabled : (t.port i).isDisabled = if i = j ∧ isSet then data.getLsbD 0 else (w.port i).isDisabled := by
    change (fields.get (t.switch.reg _) _ _ == 1) = _
    rw [h.reg]
    cases isSet with
    | false => simp [Watch.port]
    | true =>
      rw [if_pos rfl, disable_put hi hj]
      simp [Watch.port]
  by_cases hij : i = j ∧ isSet
  · rw [if_pos hij] at hdisabled ⊢
    exact Port.ext hdisabled hlooped hmarked
  · rw [if_neg hij] at hdisabled ⊢
    exact Port.ext hdisabled hlooped hmarked

end

/-! ## One turn of the loop -/

/-- Of the ports, only `j` is not as before, but as `p` says. -/
structure Watch.Does (w t : Watch) (j : Nat) (p : Port) : Prop where
  dev : t.switch.dev = w.switch.dev
  mgtPort : t.mgtPort = w.mgtPort
  other : ∀ i, i < 32 → i ≠ j → t.port i = w.port i
  self : t.port j = p

section
variable {w t u : Watch} {i j : Nat} {p q : Port}

theorem Watch.Does.rfl : w.Does w j (w.port j) := ⟨Eq.refl _, Eq.refl _, fun _ _ _ => Eq.refl _, Eq.refl _⟩

theorem Watch.Does.trans (h : w.Does t j p) (h' : t.Does u j q) : w.Does u j q :=
  ⟨h'.dev.trans h.dev, h'.mgtPort.trans h.mgtPort,
    fun i hi hij => (h'.other i hi hij).trans (h.other i hi hij), h'.self⟩

theorem does_access : w.Does { w with accesses := w.accesses + 1 } j (w.port j) :=
  ⟨rfl, rfl, fun _ _ _ => rfl, rfl⟩

theorem does_clear_status (hj : j < 32) :
    w.Does { w with loopStatus := w.loopStatus &&& ~~~((1 : BitVec 32) <<< j) } j { w.port j with isLooped := false } :=
  ⟨rfl, rfl, fun _ hi hij => Port.ext rfl (clear_other hi hij) rfl, Port.ext rfl (clear_self hj) rfl⟩

theorem does_clear_down (hj : j < 32) :
    w.Does { w with loopAndDown := w.loopAndDown &&& ~~~((1 : BitVec 32) <<< j) } j
      { w.port j with isMarked := false } :=
  ⟨rfl, rfl, fun _ hi hij => Port.ext rfl rfl (clear_other hi hij), Port.ext rfl rfl (clear_self hj)⟩

theorem does_set_status (hj : j < 32) :
    w.Does { w with loopStatus := w.loopStatus ||| ((1 : BitVec 32) <<< j) } j { w.port j with isLooped := true } :=
  ⟨rfl, rfl, fun _ hi hij => Port.ext rfl (set_other hi hij) rfl, Port.ext rfl (set_self hj) rfl⟩

theorem does_set_down (hj : j < 32) :
    w.Does { w with loopAndDown := w.loopAndDown ||| ((1 : BitVec 32) <<< j) } j { w.port j with isMarked := true } :=
  ⟨rfl, rfl, fun _ hi hij => Port.ext rfl rfl (set_other hi hij), Port.ext rfl rfl (set_self hj)⟩

theorem Watch.Sets.does {data : BitVec 16} {isSet : Bool} (h : w.Sets t j data isSet) (hj : j < 32) :
    w.Does t j (if isSet then { w.port j with isDisabled := data.getLsbD 0 } else w.port j) := by
  refine ⟨h.dev, h.mgtPort, fun i hi hij => ?_, ?_⟩
  · rw [h.port hi hj, if_neg fun hb => hij hb.1]
  · rw [h.port hj hj]
    cases isSet <;> simp

theorem bit_eq_zero {r : BitVec 16} {pos : Nat} (h : (fields.get r pos 1 == 1) = false) : fields.get r pos 1 = 0 := by
  have hlt : (fields.get r pos 1).toNat < 2 ^ 1 := fields.toNat_get_lt r
  have hne : fields.get r pos 1 ≠ 1 := by simpa using h
  have hval : (fields.get r pos 1).toNat ≠ 1 := fun hone => hne (BitVec.eq_of_toNat_eq hone)
  exact BitVec.eq_of_toNat_eq (by change _ = 0; omega)

theorem checkPort_does (hj : j < w.switch.dev.numOfPorts) (h32 : j < 32) :
    ∃ isRead, w.Does (w.checkPort j (j + 1)) j ((w.port j).check isRead) := by
  unfold Watch.checkPort
  rw [isSet_eq h32, getPortEnable_eq hj]
  by_cases hmarked : w.loopAndDown.getLsbD j = true
  · rw [if_pos hmarked]
    by_cases hlost : w.lost w.accesses = true
    · refine ⟨false, ?_⟩
      rw [if_pos hlost, Port.check, if_neg (by simp)]
      exact does_access
    · refine ⟨true, ?_⟩
      rw [if_neg hlost, Port.check, if_pos ⟨hmarked, rfl⟩]
      dsimp only
      by_cases hdisabled : (w.port j).isDisabled = true
      · have hone : fields.get (w.switch.reg (RT8326_PORT_DISABLE j)) (Port_Disable_Pos j) 1 = 1 := eq_of_beq hdisabled
        rw [if_pos hdisabled, hone, if_pos (by decide)]
        exact does_access.trans (does_clear_status h32)
      · have hzero := bit_eq_zero (Bool.eq_false_iff.mpr hdisabled)
        rw [if_neg hdisabled, hzero, if_neg (by decide)]
        exact does_access.trans (does_clear_down h32)
  · refine ⟨true, ?_⟩
    rw [if_neg hmarked, Port.check, if_neg fun h => hmarked h.1]
    exact .rfl

theorem shutPort_does (portlist : BitVec 32) (hj : j < w.switch.dev.numOfPorts) (h32 : j < 32) : ∃ isSet,
    w.Does (w.shutPort portlist j (j + 1)) j
      ((w.port j).shut (portlist.getLsbD j ∧ j + 1 ≠ w.mgtPort) isSet) := by
  unfold Watch.shutPort
  rw [isSet_eq h32]
  by_cases hreported : portlist.getLsbD j = true ∧ j + 1 ≠ w.mgtPort
  · rw [if_pos hreported.1, if_pos hreported.2, decide_eq_true hreported]
    have hstatus : w.Does { w with loopStatus := w.loopStatus ||| ((1 : BitVec 32) <<< j) } j
        { w.port j with isLooped := true } := does_set_status h32
    rw [Nat.add_sub_cancel]
    generalize ({ w with loopStatus := w.loopStatus ||| ((1 : BitVec 32) <<< j) } : Watch) = v at hstatus
    have hself := hstatus.self
    have hv : j < v.switch.dev.numOfPorts := hstatus.dev.symm ▸ hj
    dsimp only
    rcases setPortEnable_sets hv 1 with ⟨t, heq, hsets⟩ | ⟨ret, t, heq, hsets⟩
    · refine ⟨true, ?_⟩
      rw [heq]
      have hdoes := (hstatus.trans (hsets.does h32)).trans (does_set_down h32)
      rw [(hsets.does h32).self, hself] at hdoes
      simpa [Port.shut] using hdoes
    · refine ⟨false, ?_⟩
      rw [heq]
      have hdoes := hstatus.trans (hsets.does h32)
      rw [hself] at hdoes
      simpa [Port.shut] using hdoes
  · refine ⟨true, ?_⟩
    rw [decide_eq_false hreported, Port.shut, if_neg Bool.false_ne_true]
    by_cases hbit : portlist.getLsbD j = true
    · rw [if_pos hbit, if_neg fun hne => hreported ⟨hbit, hne⟩]
      exact .rfl
    · rw [if_neg hbit]
      exact .rfl

theorem watchPort_does (portlist : BitVec 32) (hj : j < w.switch.dev.numOfPorts) (h32 : j < 32) : ∃ isRead isSet,
    w.Does (w.watchPort portlist j) j
      (((w.port j).check isRead).shut (portlist.getLsbD j ∧ j + 1 ≠ w.mgtPort) isSet) := by
  have hport : RCPPort2LPort w.switch.dev j = j + 1 := if_pos hj
  obtain ⟨isRead, hcheck⟩ := checkPort_does hj h32
  have hj' : j < (w.checkPort j (j + 1)).switch.dev.numOfPorts := hcheck.dev.symm ▸ hj
  obtain ⟨isSet, hshut⟩ := shutPort_does portlist hj' h32
  rw [hcheck.self, hcheck.mgtPort] at hshut
  refine ⟨isRead, isSet, ?_⟩
  rw [Watch.watchPort, hport]
  exact hcheck.trans hshut

/-- Behind the loop, each port that it came to has had one turn. -/
theorem watch_loop (portlist : BitVec 32) {l : List Nat} (hnodup : l.Nodup) (hl : ∀ j ∈ l, j < w.switch.dev.numOfPorts)
    (h32 : w.switch.dev.numOfPorts ≤ 32) :
    (run (fun t phyPort => t.watchPort portlist phyPort) w l).switch.dev = w.switch.dev ∧
      ∀ i, i < 32 → (i ∉ l → (run (fun t phyPort => t.watchPort portlist phyPort) w l).port i = w.port i) ∧
        (i ∈ l → ∃ isRead isSet, (run (fun t phyPort => t.watchPort portlist phyPort) w l).port i =
          ((w.port i).check isRead).shut (portlist.getLsbD i ∧ i + 1 ≠ w.mgtPort) isSet) := by
  induction l generalizing w with
  | nil => exact ⟨rfl, fun i _ => ⟨fun _ => rfl, fun h => absurd h List.not_mem_nil⟩⟩
  | cons j rest ih =>
    obtain ⟨hnot, hnodup⟩ := List.nodup_cons.mp hnodup
    obtain ⟨hj, hrest⟩ := List.forall_mem_cons.mp hl
    obtain ⟨isRead, isSet, hdoes⟩ := watchPort_does portlist hj (lt_of_lt_of_le hj h32)
    rw [run_cons]
    obtain ⟨hdev, hports⟩ := ih (w := w.watchPort portlist j) hnodup (hdoes.dev.symm ▸ hrest) (hdoes.dev.symm ▸ h32)
    refine ⟨hdev.trans hdoes.dev, fun i hi => ⟨fun hi' => ?_, fun hi' => ?_⟩⟩
    · obtain ⟨hne, hi'⟩ := List.ne_and_not_mem_of_not_mem_cons hi'
      rw [(hports i hi).1 hi', hdoes.other i hi hne]
    · rcases List.mem_cons.mp hi' with rfl | hi'
      · exact ⟨isRead, isSet, by rw [(hports i hi).1 hnot, hdoes.self]⟩
      · have hne : i ≠ j := fun he => hnot (he ▸ hi')
        rw [← hdoes.other i hi hne, ← hdoes.mgtPort]
        exact (hports i hi).2 hi'

/-! ## The command -/

/-- Of each port, at most the flag is set, and only for the ports of the list. -/
structure Watch.Flags (w t : Watch) (l : List Nat) (isDisabled : Bool) : Prop where
  dev : t.switch.dev = w.switch.dev
  mgtPort : t.mgtPort = w.mgtPort
  other : ∀ i, i < 32 → i + 1 ∉ l → t.port i = w.port i
  listed : ∀ i, i < 32 → t.port i = w.port i ∨ t.port i = { w.port i with isDisabled }

variable {l : List Nat} {isDisabled : Bool}

theorem Watch.Flags.rfl : w.Flags w l isDisabled :=
  ⟨Eq.refl _, Eq.refl _, fun _ _ _ => Eq.refl _, fun _ _ => .inl (Eq.refl _)⟩

theorem Watch.Flags.trans (h : w.Flags t l isDisabled) (h' : t.Flags u l isDisabled) : w.Flags u l isDisabled := by
  refine ⟨h'.dev.trans h.dev, h'.mgtPort.trans h.mgtPort, fun i hi hl => (h'.other i hi hl).trans (h.other i hi hl),
    fun i hi => ?_⟩
  rcases h'.listed i hi with heq | heq
  · rw [heq]
    exact h.listed i hi
  · rw [heq]
    rcases h.listed i hi with heq' | heq'
    · exact .inr (by rw [heq'])
    · exact .inr (by rw [heq'])

theorem Watch.Flags.mono {l' : List Nat} (h : w.Flags t l isDisabled) (hl : l ⊆ l') : w.Flags t l' isDisabled :=
  ⟨h.dev, h.mgtPort, fun i hi hl' => h.other i hi fun hmem => hl' (hl hmem), h.listed⟩

theorem Watch.Sets.flags {data : BitVec 16} {isSet : Bool} (h : w.Sets t j data isSet) (hj : j < 32)
    (hl : j + 1 ∈ l) : w.Flags t l (data.getLsbD 0) := by
  refine ⟨h.dev, h.mgtPort, fun i hi hi' => ?_, fun i hi => ?_⟩
  · rw [h.port hi hj, if_neg]
    rintro ⟨rfl, -⟩
    exact hi' hl
  · rw [h.port hi hj]
    split_ifs
    · exact .inr (Eq.refl _)
    · exact .inl (Eq.refl _)

theorem setPorts_flags (word : String) (hl : ∀ port ∈ l, 1 ≤ port) (h32 : w.switch.dev.numOfPorts ≤ 32) :
    w.Flags (w.setPorts word l).1 l (word = "0") := by
  induction l generalizing w with
  | nil => exact .rfl
  | cons ulPort rest ih =>
    obtain ⟨hlo, hrest⟩ := List.forall_mem_cons.mp hl
    obtain ⟨j, rfl⟩ : ∃ j, ulPort = j + 1 := ⟨ulPort - 1, by omega⟩
    have hrest' (t : Watch) (hflags : w.Flags t ((j + 1) :: rest) (word = "0")) :
        w.Flags (t.setPorts word rest).1 ((j + 1) :: rest) (word = "0") :=
      hflags.trans ((ih hrest (hflags.dev.symm ▸ h32)).mono (List.subset_cons_self _ _))
    unfold Watch.setPorts
    by_cases hout : j + 1 > w.switch.dev.numOfPorts
    · rw [if_pos hout]
      exact .rfl
    · have hj : j < w.switch.dev.numOfPorts := by omega
      have hmem : j + 1 ∈ (j + 1) :: rest := List.mem_cons_self
      rw [if_neg hout]
      by_cases hword : word = "0"
      · rw [if_pos hword]
        have hone : decide (word = "0") = (1 : BitVec 16).getLsbD 0 := by
          rw [decide_eq_true hword]
          rfl
        rcases setPortEnable_sets hj 1 with ⟨t, heq, hsets⟩ | ⟨ret, t, heq, hsets⟩
        · rw [heq]
          exact hrest' t (hone ▸ hsets.flags (by omega) hmem)
        · rw [heq]
          exact hone ▸ hsets.flags (by omega) hmem
      · rw [if_neg hword]
        have hzero : decide (word = "0") = (0 : BitVec 16).getLsbD 0 := by
          rw [decide_eq_false hword]
          rfl
        rcases setPortEnable_sets hj 0 with ⟨t, heq, hsets⟩ | ⟨ret, t, heq, hsets⟩
        · rw [heq]
          exact hrest' t (hzero ▸ hsets.flags (by omega) hmem)
        · rw [heq]
          exact hzero ▸ hsets.flags (by omega) hmem

end

/-! ## Runs -/

section
variable {w : Watch} {i : Nat}

theorem mgtPort_ok (hup : w.switch.dev.upLinkPort ≤ w.switch.dev.numOfPorts) :
    w.call Rcp_Get_MGT_Port = (.ok (RCPPort2LPort w.switch.dev w.switch.dev.upLinkPort), w) := by
  have hget : Rcp_Get_MGT_Port w.switch = .ok (RCPPort2LPort w.switch.dev w.switch.dev.upLinkPort) w.switch := by
    rw [ok_iff, Gives, Rcp_Get_MGT_Port, meets_bind, meets_get, if_neg (Nat.not_lt.mpr hup)]
    exact ⟨rfl, rfl⟩
  unfold Watch.call
  rw [hget]

theorem mgtPort_eq {dev : RCP_DEV} (hi : i < dev.numOfPorts) :
    i + 1 = RCPPort2LPort dev dev.upLinkPort ↔ i = dev.upLinkPort := by
  by_cases hup : dev.upLinkPort < dev.numOfPorts
  · rw [RCPPort2LPort, if_pos hup]
    exact Nat.add_right_cancel_iff
  · rw [RCPPort2LPort, if_neg hup]
    exact iff_of_false (Nat.succ_ne_zero i) fun he => hup (he ▸ hi)

theorem round_turns (hup : w.switch.dev.upLinkPort ≤ w.switch.dev.numOfPorts) (h32 : w.switch.dev.numOfPorts ≤ 32)
    (portlist : Except RCP_RET (BitVec 32)) :
    (w.rcp_loopdetect_monitor portlist).switch.dev = w.switch.dev ∧ ∀ i < w.switch.dev.numOfPorts,
      (w.port i).Turns ((Event.round portlist).seen w.switch.dev i) ((w.rcp_loopdetect_monitor portlist).port i) := by
  unfold Watch.rcp_loopdetect_monitor
  rw [if_neg (Nat.not_lt.mpr hup)]
  cases portlist with
  | error ret => exact ⟨rfl, fun i _ => rfl⟩
  | ok portlist =>
    obtain ⟨hdev, hports⟩ := watch_loop (w := { w with
      mgtPort := RCPPort2LPort w.switch.dev w.switch.dev.upLinkPort }) portlist List.nodup_range
      (fun _ hj => List.mem_range.mp hj) h32
    refine ⟨hdev, fun i hi => ?_⟩
    obtain ⟨isRead, isSet, hport⟩ := (hports i (by omega)).2 (List.mem_range.mpr hi)
    refine ⟨isRead, isSet, hport.trans ?_⟩
    have hiff : (portlist.getLsbD i = true ∧ i + 1 ≠ RCPPort2LPort w.switch.dev w.switch.dev.upLinkPort) ↔
        (portlist.getLsbD i = true ∧ i ≠ w.switch.dev.upLinkPort) :=
      and_congr_right fun _ => (mgtPort_eq hi).not
    exact congrArg (fun isReported => ((w.port i).check isRead).shut isReported isSet) (decide_eq_decide.mpr hiff)

theorem port_en_turns (hup : w.switch.dev.upLinkPort ≤ w.switch.dev.numOfPorts) (h32 : w.switch.dev.numOfPorts ≤ 32)
    (word : String) (portList : List Nat) :
    (w.cli_int_port_en word portList).1.switch.dev = w.switch.dev ∧ ∀ i < w.switch.dev.numOfPorts,
      (w.port i).Turns ((Event.port_en word portList).seen w.switch.dev i)
        ((w.cli_int_port_en word portList).1.port i) := by
  unfold Watch.cli_int_port_en
  rw [mgtPort_ok hup]
  dsimp only [Event.seen]
  generalize hl : portList.takeWhile (· ≠ 0) = l
  by_cases hmgt : RCPPort2LPort w.switch.dev w.switch.dev.upLinkPort ∈ l
  · rw [if_pos hmgt]
    refine ⟨rfl, fun i _ => ?_⟩
    split_ifs
    · exact .inl rfl
    · exact .inl rfl
    · rfl
  · rw [if_neg hmgt]
    have hpos : ∀ port ∈ l, 1 ≤ port := by
      intro port hport
      rw [← hl] at hport
      have hne : decide (port ≠ 0) = true := List.all_eq_true.mp List.all_takeWhile port hport
      exact Nat.pos_of_ne_zero (of_decide_eq_true hne)
    have hflags := setPorts_flags word hpos h32
    refine ⟨hflags.dev, fun i hi => ?_⟩
    by_cases hmem : i + 1 ∈ l
    · have hup : i ≠ w.switch.dev.upLinkPort := fun he => hmgt ((mgtPort_eq hi).mpr he ▸ hmem)
      rw [if_pos ⟨hmem, hup⟩]
      have hlisted := hflags.listed i (by omega)
      by_cases hword : word = "0"
      · rw [if_pos hword]
        rwa [decide_eq_true hword] at hlisted
      · rw [if_neg hword]
        rwa [decide_eq_false hword] at hlisted
    · rw [if_neg fun h => hmem h.1]
      exact hflags.other i (by omega) hmem

theorem numOfPorts_le (dev : RCP_DEV) : dev.numOfPorts ≤ 32 := by
  rw [RCP_DEV.numOfPorts]
  cases dev.deviceId <;> decide

theorem step_turns (hup : w.switch.dev.upLinkPort ≤ w.switch.dev.numOfPorts) (e : Event) :
    (step w e).1.switch.dev = w.switch.dev ∧ ∀ i < w.switch.dev.numOfPorts,
      (w.port i).Turns (e.seen w.switch.dev i) ((step w e).1.port i) := by
  have h32 : w.switch.dev.numOfPorts ≤ 32 := numOfPorts_le _
  cases e with
  | round portlist => exact round_turns hup h32 portlist
  | port_en word portList => exact port_en_turns hup h32 word portList
  | show_loop_port portlist => exact ⟨rfl, fun _ _ => rfl⟩

end

theorem next_dev {w t : Watch} (hup : w.switch.dev.upLinkPort ≤ w.switch.dev.numOfPorts)
    (ht : t.switch.dev = w.switch.dev) (e : Event) : (next step t e).switch.dev = w.switch.dev :=
  (step_turns (by rwa [ht]) e).1.trans ht

theorem run_dev {w : Watch} (hup : w.switch.dev.upLinkPort ≤ w.switch.dev.numOfPorts) (es : List Event) :
    (run (next step) w es).switch.dev = w.switch.dev :=
  run_inv (I := fun t => t.switch.dev = w.switch.dev) (P := fun _ _ => True) (fun _ e ht _ => next_dev hup ht e) rfl
    (along_true w es)

/-- The access for its third port is lost. -/
def watch : Watch := ⟨uniform .GH1508 0, 0, 0, 0, 0, fun n => n == 1⟩

/-- Three ports loop, the first of them the management port, and the second one is enabled behind it. -/
def afternoon : List Event :=
  [.round (.ok 7), .round (.ok 0), .show_loop_port (.ok 0), .port_en "1" [2], .round (.ok 0), .show_loop_port (.ok 0)]

/-- A port that is marked as shut for a loop is shut. -/
def Port.Honest (p : Port) : Prop := p.isMarked = true → p.isDisabled = true

theorem Port.Turns.honest {p p' : Port} {seen : Seen} (h : p.Turns seen p') (hseen : seen ≠ .enable) (hp : p.Honest) :
    p'.Honest := by
  cases seen with
  | enable => exact absurd rfl hseen
  | disable =>
    rcases h with rfl | rfl
    · exact hp
    · exact fun _ => rfl
  | nothing =>
    cases h
    exact hp
  | round isReported =>
    obtain ⟨isRead, isSet, rfl⟩ := h
    have hcheck : (p.check isRead).Honest := by
      unfold Port.check
      split_ifs
      · exact hp
      · exact nofun
      · exact hp
    unfold Port.shut
    split_ifs
    · intro hmarked
      rcases Bool.or_eq_true_iff.mp hmarked with h | h
      · exact Bool.or_eq_true_iff.mpr (.inl (hcheck h))
      · exact Bool.or_eq_true_iff.mpr (.inr h)
    · exact hcheck

theorem Port.check_flag (p : Port) (isRead : Bool) : (p.check isRead).isDisabled = p.isDisabled := by
  unfold Port.check
  split_ifs <;> rfl

/-- What shuts a port is a command or a loop. -/
theorem Port.Turns.open {p p' : Port} {seen : Seen} (h : p.Turns seen p') (hround : seen ≠ .round true)
    (hdisable : seen ≠ .disable) (hp : p.isDisabled = false) : p'.isDisabled = false := by
  cases seen with
  | disable => exact absurd rfl hdisable
  | enable =>
    rcases h with rfl | rfl
    · exact hp
    · rfl
  | nothing =>
    cases h
    exact hp
  | round isReported =>
    obtain ⟨isRead, isSet, rfl⟩ := h
    cases isReported with
    | true => exact absurd rfl hround
    | false => exact (p.check_flag isRead).trans hp

/-- The management port sees no loop and no command. -/
theorem seen_mgt (dev : RCP_DEV) (e : Event) : e.seen dev dev.upLinkPort = .round false ∨
    e.seen dev dev.upLinkPort = .nothing := by
  cases e with
  | round portlist =>
    cases portlist with
    | error ret => exact .inr rfl
    | ok portlist => exact .inl (congrArg Seen.round (decide_eq_false fun h => h.2 rfl))
  | port_en word portList => exact .inr (if_neg fun h => h.2 rfl)
  | show_loop_port portlist => exact .inr rfl

theorem Port.Turns.same_flag {p p' : Port} {seen : Seen} (h : p.Turns seen p')
    (hseen : seen = .round false ∨ seen = .nothing) : p'.isDisabled = p.isDisabled := by
  rcases hseen with rfl | rfl
  · obtain ⟨isRead, isSet, rfl⟩ := h
    exact p.check_flag isRead
  · cases h
    rfl

/-- What the turns of a port keep, a run keeps. -/
theorem run_keeps {w : Watch} {i : Nat} {P : Port → Prop} {S : Seen → Prop}
    (hturns : ∀ p p' seen, S seen → p.Turns seen p' → P p → P p')
    (hup : w.switch.dev.upLinkPort ≤ w.switch.dev.numOfPorts) (hi : i < w.switch.dev.numOfPorts) {es : List Event}
    (hes : ∀ e ∈ es, S (e.seen w.switch.dev i)) (hP : P (w.port i)) : P ((run (next step) w es).port i) := by
  have hstep : ∀ (t : Watch) (e : Event), (t.switch.dev = w.switch.dev ∧ P (t.port i)) → S (e.seen w.switch.dev i) →
      (next step t e).switch.dev = w.switch.dev ∧ P ((next step t e).port i) := by
    rintro t e ⟨hdev, hP⟩ hS
    obtain ⟨hdev', hport⟩ := step_turns (w := t) (by rwa [hdev]) e
    have hturn := hport i (by rwa [hdev])
    rw [hdev] at hturn
    exact ⟨hdev'.trans hdev, hturns _ _ _ hS hturn hP⟩
  exact (run_inv hstep ⟨rfl, hP⟩ (along_of (fun _ e he => hes e he) w)).2

theorem mem_portsOf {dev : RCP_DEV} {i : Nat} {bits : BitVec 32} (hi : i < dev.numOfPorts)
    (h32 : dev.numOfPorts ≤ 32) : i + 1 ∈ Watch.portsOf dev bits ↔ bits.getLsbD i = true := by
  rw [Watch.portsOf, List.mem_map]
  refine ⟨fun ⟨j, hj, hport⟩ => ?_, fun hbit => ⟨i, ?_, if_pos hi⟩⟩
  · obtain ⟨hrange, hset⟩ := List.mem_filter.mp hj
    have hlt : j < dev.numOfPorts := List.mem_range.mp hrange
    have hij : j + 1 = i + 1 := (if_pos hlt).symm.trans hport
    rw [isSet_eq (by omega)] at hset
    exact Nat.add_right_cancel hij ▸ hset
  · rw [List.mem_filter, List.mem_range, isSet_eq (by omega)]
    exact ⟨hi, hbit⟩

theorem shows_down {w : Watch} {i : Nat} (hi : i < w.switch.dev.numOfPorts) (portlist : Except RCP_RET (BitVec 32)) :
    Line.down (i + 1) ∈ w.cli_int_show_loop_port portlist ↔ (w.port i).isMarked = true := by
  have h32 : w.switch.dev.numOfPorts ≤ 32 := numOfPorts_le _
  have hloops : Line.down (i + 1) ∉ (match portlist with
      | .ok portlist => if portlist ≠ 0 then (Watch.portsOf w.switch.dev portlist).map Line.loop else [.noLoop]
      | .error ret => [.loopFailed ret]) := by
    cases portlist with
    | error ret => simp
    | ok portlist =>
      dsimp only
      split_ifs <;> simp
  unfold Watch.cli_int_show_loop_port
  rw [List.mem_append, or_iff_right hloops]
  change _ ↔ w.loopAndDown.getLsbD i = true
  by_cases hzero : w.loopAndDown ≠ 0
  · rw [if_pos hzero, ← mem_portsOf hi h32, List.mem_map]
    exact ⟨fun ⟨_, hport, he⟩ => Line.down.inj he ▸ hport, fun hport => ⟨_, hport, rfl⟩⟩
  · rw [if_neg hzero, not_not.mp hzero]
    exact iff_of_false (by simp) (by simp)

end gwdonu.switch_loops
