-- Power over Ethernet: in each round, the thread asks for the power of the ports under
-- its control, and opens or closes them by it.
import Mathlib.Data.List.Range
import Mathlib.Data.UInt
import Mathlib.Tactic.Common

namespace gwdonu.poe

/-! ## The interface -/

def NUM_PORTS_PER_SYSTEM : Nat := 26

inductive gwd_port_admin_t where
  | PORT_ADMIN_DOWN
  | PORT_ADMIN_UP
  deriving DecidableEq

def POE_PORT_ENABLE : UInt8 := 1
def POE_POWER_DISABLE : Nat := 0
def POE_POWER_ENABLE : Nat := 1

/-- The registers that hold the power of the ports, of those that can be read. -/
inductive cpld_register_t where
  | GWD_CPLD_POWER1_REG
  | GWD_CPLD_POWER2_REG
  | GWD_CPLD_POWER3_REG
  deriving DecidableEq

/-- A call of `LIB_IF_CPLD_REGISTER_READ`: whether it succeeds, and what it leaves in the
byte for the value. -/
structure CpldRead where
  ok : Bool
  val : UInt8
  deriving DecidableEq

/-- What the interface answers in the turn of a port. -/
structure Answers where
  admin : Option gwd_port_admin_t
  cpld : cpld_register_t → CpldRead

/-- What the thread does for a port. -/
inductive Event where
  | cpld_read (port : Nat) (reg : cpld_register_t) (read : CpldRead)
  | operation_set (pport : Nat) (state : gwd_port_admin_t)
  deriving DecidableEq

/-! ## The program -/

/-- The error of the call is logged and not returned. -/
def onu_cpld_read_register (reg : cpld_register_t) (cpld : cpld_register_t → CpldRead) : UInt8 := (cpld reg).val

/-- The register of a port, of three. -/
def PORTECT_REG_NUM (port : Nat) : Option cpld_register_t :=
  match (port - 1) / 8 with
  | 0 => some .GWD_CPLD_POWER1_REG
  | 1 => some .GWD_CPLD_POWER2_REG
  | 2 => some .GWD_CPLD_POWER3_REG
  | _ => none

def PORT_TO_CPLDPORT (port : Nat) : Nat := (port - 1) % 8

def PORT_POWER_STAT (power_stat : UInt8) (port : Nat) : UInt8 := power_stat &&& (1 <<< UInt8.ofNat port)

/-- Without a register, the byte keeps its initial 0. `none` is `EPON_RETURN_FAIL`. -/
def Gwd_onu_port_power_detect_get (uni_port_num port : Nat) (cpld : cpld_register_t → CpldRead) :
    Option Nat × List Event :=
  if port < 1 ∨ port > uni_port_num then (none, [])
  else
    let (power_stat, events) :=
      match PORTECT_REG_NUM port with
      | some reg => (onu_cpld_read_register reg cpld, [Event.cpld_read port reg (cpld reg)])
      | none => (0, [])
    (some (if PORT_POWER_STAT power_stat (PORT_TO_CPLDPORT port) ≠ 0 then 1 else 0), events)

def Gwd_onu_port_poe_controle_stat_get (gucPoeDisablePerPort : Nat → UInt8) (port : Nat) : Option UInt8 :=
  if port ≥ NUM_PORTS_PER_SYSTEM - 1 ∨ port < 1 then none else some (gucPoeDisablePerPort (port - 1))

/-- The rows of `log_phy_map` count. -/
def boards_logical_to_physical (lport : Nat) : Option Nat :=
  if lport < 1 ∨ lport - 1 ≥ NUM_PORTS_PER_SYSTEM then none else some (lport - 1)

def Gwd_onu_port_poe_operation_stat_set (lport : Nat) (state : gwd_port_admin_t) : List Event :=
  [.operation_set ((boards_logical_to_physical lport).getD 0) state]

/-- The turn of one port. -/
def portTurn (uni_port_num : Nat) (gucPoeDisablePerPort : Nat → UInt8) (a : Answers) (ulport : Nat) : List Event :=
  match a.admin with
  | none => []
  | some .PORT_ADMIN_UP =>
    match Gwd_onu_port_poe_controle_stat_get gucPoeDisablePerPort ulport with
    | none => []
    | some ctl_state =>
      if ctl_state = POE_PORT_ENABLE then
        match Gwd_onu_port_power_detect_get uni_port_num ulport a.cpld with
        | (none, events) => events
        | (some Pstate, events) =>
          if Pstate = POE_POWER_DISABLE then
            events ++ Gwd_onu_port_poe_operation_stat_set ulport .PORT_ADMIN_DOWN
          else events
      else []
  | some .PORT_ADMIN_DOWN =>
    match Gwd_onu_port_poe_controle_stat_get gucPoeDisablePerPort ulport with
    | none => []
    | some ctl_state =>
      if ctl_state = POE_PORT_ENABLE then
        match Gwd_onu_port_power_detect_get uni_port_num ulport a.cpld with
        | (none, events) => events
        | (some Pstate, events) =>
          if Pstate = POE_POWER_ENABLE then
            events ++ Gwd_onu_port_poe_operation_stat_set ulport .PORT_ADMIN_UP
          else events
      else Gwd_onu_port_poe_operation_stat_set ulport .PORT_ADMIN_UP

/-- The table and the answers at the turns of a round. -/
structure Round where
  gucPoeDisablePerPort : Nat → UInt8
  answers : Nat → Answers

def roundEvents (uni_port_num : Nat) (r : Round) : List Event :=
  (List.range' 1 uni_port_num).flatMap fun ulport =>
    portTurn uni_port_num r.gucPoeDisablePerPort (r.answers ulport) ulport

/-- The rounds of the thread, which ends at once without PoE. -/
def gwd_onu_poe_thread_hander (poeexiststat : Bool) (uni_port_num : Nat) (rounds : List Round) :
    List (List Event) :=
  if poeexiststat then rounds.map (roundEvents uni_port_num) else []

/-! ## The law -/

/-- A read for the port succeeded, and its bit was `on`. -/
def Evidence (l : List Event) (p : Nat) (on : Bool) : Prop :=
  ∃ reg v, PORTECT_REG_NUM p = some reg ∧ .cpld_read p reg ⟨true, v⟩ ∈ l ∧ v.toNat.testBit ((p - 1) % 8) = on

/-- Ports are closed and, under control, opened on evidence only, and a read that fails
changes nothing. -/
structure Justified (uni_port_num : Nat) (r : Round) (l : List Event) : Prop where
  down : ∀ p, 1 ≤ p → p ≤ uni_port_num → .operation_set (p - 1) .PORT_ADMIN_DOWN ∈ l → Evidence l p false
  up : ∀ p, 1 ≤ p → p ≤ uni_port_num → r.gucPoeDisablePerPort (p - 1) = POE_PORT_ENABLE →
    .operation_set (p - 1) .PORT_ADMIN_UP ∈ l → Evidence l p true
  failed : ∀ p reg v state, .cpld_read p reg ⟨false, v⟩ ∈ l → .operation_set (p - 1) state ∉ l

/-- What a failed read of the port leaves in the byte is what the port is already. -/
def Harmless (a : Answers) (p : Nat) : Prop :=
  ∀ reg v state, PORTECT_REG_NUM p = some reg → a.cpld reg = ⟨false, v⟩ → a.admin = some state →
    v.toNat.testBit ((p - 1) % 8) = decide (state = .PORT_ADMIN_UP)

/-- All failed reads for ports under control are harmless. -/
def Calm (uni_port_num : Nat) (r : Round) : Prop :=
  ∀ p, 1 ≤ p → p ≤ uni_port_num → p < NUM_PORTS_PER_SYSTEM - 1 →
    r.gucPoeDisablePerPort (p - 1) = POE_PORT_ENABLE → Harmless (r.answers p) p

/-! ## One turn -/

section
variable {n p q : Nat} {table : Nat → UInt8} {a : Answers} {reg : cpld_register_t} {state : gwd_port_admin_t}
  {r : Round} {e : Event}

theorem power_stat_iff (v : UInt8) {k : Nat} (hk : k < 8) : PORT_POWER_STAT v k ≠ 0 ↔ v.toNat.testBit k = true := by
  have hall : ∀ m < 256, ∀ k < 8, PORT_POWER_STAT (UInt8.ofNat m) k ≠ 0 ↔ m.testBit k = true := by decide +kernel
  have hv := hall v.toNat v.toNat_lt k hk
  rwa [UInt8.ofNat_toNat] at hv

theorem reg_isSome (hp : 1 ≤ p) (hlt : p < NUM_PORTS_PER_SYSTEM - 1) : ∃ reg, PORTECT_REG_NUM p = some reg := by
  have hall : ∀ p < 25, 1 ≤ p → (PORTECT_REG_NUM p).isSome = true := by decide
  exact Option.isSome_iff_exists.mp (hall p hlt hp)

theorem control_get (hp : 1 ≤ p) (hlt : p < NUM_PORTS_PER_SYSTEM - 1) :
    Gwd_onu_port_poe_controle_stat_get table p = some (table (p - 1)) := by
  rw [Gwd_onu_port_poe_controle_stat_get, if_neg (by omega)]

theorem control_out (h : ¬ p < NUM_PORTS_PER_SYSTEM - 1) : Gwd_onu_port_poe_controle_stat_get table p = none := by
  rw [Gwd_onu_port_poe_controle_stat_get, if_pos (by omega)]

theorem operation_set_eq (hp : 1 ≤ p) (hlt : p < NUM_PORTS_PER_SYSTEM - 1) :
    Gwd_onu_port_poe_operation_stat_set p state = [.operation_set (p - 1) state] := by
  rw [Gwd_onu_port_poe_operation_stat_set, boards_logical_to_physical, if_neg (by omega), Option.getD_some]

theorem detect_eq (hp : 1 ≤ p) (hn : p ≤ n) (hreg : PORTECT_REG_NUM p = some reg) :
    Gwd_onu_port_power_detect_get n p a.cpld =
      (some (if (a.cpld reg).val.toNat.testBit ((p - 1) % 8) = true then 1 else 0),
        [.cpld_read p reg (a.cpld reg)]) := by
  have hbit := power_stat_iff (a.cpld reg).val (Nat.mod_lt (p - 1) (by decide : 8 > 0))
  rw [Gwd_onu_port_power_detect_get, if_neg (by omega), hreg]
  simp only [onu_cpld_read_register, PORT_TO_CPLDPORT, hbit]

/-- The other state of a port. -/
def flip : gwd_port_admin_t → gwd_port_admin_t
  | .PORT_ADMIN_DOWN => .PORT_ADMIN_UP
  | .PORT_ADMIN_UP => .PORT_ADMIN_DOWN

/-- A port under control is set to the bit that was read for it. -/
theorem turn_controlled (hp : 1 ≤ p) (hn : p ≤ n) (hlt : p < NUM_PORTS_PER_SYSTEM - 1)
    (hcontrol : table (p - 1) = POE_PORT_ENABLE) (hreg : PORTECT_REG_NUM p = some reg) (hadmin : a.admin = some state) :
    portTurn n table a p = .cpld_read p reg (a.cpld reg) ::
      if (a.cpld reg).val.toNat.testBit ((p - 1) % 8) = decide (state = .PORT_ADMIN_UP) then []
      else [.operation_set (p - 1) (flip state)] := by
  rw [portTurn, hadmin]
  cases state with
  | PORT_ADMIN_UP =>
    dsimp only
    rw [control_get hp hlt, hcontrol, detect_eq hp hn hreg, operation_set_eq hp hlt]
    cases (a.cpld reg).val.toNat.testBit ((p - 1) % 8) <;> rfl
  | PORT_ADMIN_DOWN =>
    dsimp only
    rw [control_get hp hlt, hcontrol, detect_eq hp hn hreg, operation_set_eq hp hlt]
    cases (a.cpld reg).val.toNat.testBit ((p - 1) % 8) <;> rfl

/-- A port that is not under control is opened, if anything. -/
theorem turn_free (hp : 1 ≤ p) (h : p < NUM_PORTS_PER_SYSTEM - 1 → table (p - 1) ≠ POE_PORT_ENABLE) :
    portTurn n table a p = [] ∨
      p < NUM_PORTS_PER_SYSTEM - 1 ∧ portTurn n table a p = [.operation_set (p - 1) .PORT_ADMIN_UP] := by
  rw [portTurn]
  by_cases hlt : p < NUM_PORTS_PER_SYSTEM - 1
  · rw [control_get hp hlt]
    dsimp only
    rw [if_neg (h hlt), if_neg (h hlt)]
    cases a.admin with
    | none => exact .inl rfl
    | some state =>
      cases state with
      | PORT_ADMIN_UP => exact .inl rfl
      | PORT_ADMIN_DOWN => exact .inr ⟨hlt, operation_set_eq hp hlt⟩
  · rw [control_out hlt]
    left
    cases a.admin with
    | none => rfl
    | some state => cases state <;> rfl

theorem turn_silent (h : a.admin = none) : portTurn n table a p = [] := by
  rw [portTurn, h]

/-- The events of a turn are those of its port. -/
theorem turn_own (hp : 1 ≤ p) (hn : p ≤ n) (he : e ∈ portTurn n table a p) :
    (∃ reg, PORTECT_REG_NUM p = some reg ∧ e = .cpld_read p reg (a.cpld reg)) ∨
      ∃ state, e = .operation_set (p - 1) state := by
  by_cases hcontrol : p < NUM_PORTS_PER_SYSTEM - 1 ∧ table (p - 1) = POE_PORT_ENABLE
  · obtain ⟨reg, hreg⟩ := reg_isSome hp hcontrol.1
    cases hadmin : a.admin with
    | none =>
      rw [turn_silent hadmin] at he
      cases he
    | some state =>
      rw [turn_controlled hp hn hcontrol.1 hcontrol.2 hreg hadmin, List.mem_cons] at he
      rcases he with rfl | he
      · exact .inl ⟨reg, hreg, rfl⟩
      · split_ifs at he
        · cases he
        · exact .inr ⟨_, List.mem_singleton.mp he⟩
  · rcases turn_free (n := n) (a := a) hp fun hlt heq => hcontrol ⟨hlt, heq⟩ with hnil | ⟨-, hset⟩
    · rw [hnil] at he
      cases he
    · rw [hset] at he
      exact .inr ⟨_, List.mem_singleton.mp he⟩

/-! ## One round -/

theorem mem_round : e ∈ roundEvents n r ↔
    ∃ p, (1 ≤ p ∧ p ≤ n) ∧ e ∈ portTurn n r.gucPoeDisablePerPort (r.answers p) p := by
  rw [roundEvents, List.mem_flatMap]
  refine exists_congr fun p => and_congr_left' ?_
  rw [List.mem_range'_1]
  omega

theorem set_mem_round (hp : 1 ≤ p) (hn : p ≤ n) : .operation_set (p - 1) state ∈ roundEvents n r ↔
    .operation_set (p - 1) state ∈ portTurn n r.gucPoeDisablePerPort (r.answers p) p := by
  rw [mem_round]
  refine ⟨?_, fun h => ⟨p, ⟨hp, hn⟩, h⟩⟩
  rintro ⟨q, hq, he⟩
  rcases turn_own hq.1 hq.2 he with ⟨reg, -, heq⟩ | ⟨state', heq⟩
  · cases heq
  · have hport : p - 1 = q - 1 := (Event.operation_set.inj heq).1
    obtain rfl : p = q := by omega
    exact he

theorem read_mem_round {read : CpldRead} : .cpld_read p reg read ∈ roundEvents n r ↔
    (1 ≤ p ∧ p ≤ n) ∧ .cpld_read p reg read ∈ portTurn n r.gucPoeDisablePerPort (r.answers p) p := by
  rw [mem_round]
  refine ⟨?_, fun h => ⟨p, h⟩⟩
  rintro ⟨q, hq, he⟩
  rcases turn_own hq.1 hq.2 he with ⟨reg', -, heq⟩ | ⟨state', heq⟩
  · obtain ⟨rfl, -, -⟩ := Event.cpld_read.inj heq
    exact ⟨hq, he⟩
  · cases heq

/-- A port under control changes just when its bit is not what the port is. -/
theorem set_mem_controlled (hp : 1 ≤ p) (hn : p ≤ n) (hlt : p < NUM_PORTS_PER_SYSTEM - 1)
    (hcontrol : table (p - 1) = POE_PORT_ENABLE) (hreg : PORTECT_REG_NUM p = some reg) :
    .operation_set (p - 1) state ∈ portTurn n table a p ↔ a.admin = some (flip state) ∧
      (a.cpld reg).val.toNat.testBit ((p - 1) % 8) = decide (state = .PORT_ADMIN_UP) := by
  cases hadmin : a.admin with
  | none => simp [turn_silent hadmin]
  | some now =>
    rw [turn_controlled hp hn hlt hcontrol hreg hadmin]
    cases now <;> cases state <;> cases (a.cpld reg).val.toNat.testBit ((p - 1) % 8) <;> simp [flip]

/-- A change of a port under control has its read, if the failed reads are harmless. -/
theorem set_read (h : Calm n r) (hp : 1 ≤ p) (hn : p ≤ n) (hlt : p < NUM_PORTS_PER_SYSTEM - 1)
    (hcontrol : r.gucPoeDisablePerPort (p - 1) = POE_PORT_ENABLE)
    (hset : .operation_set (p - 1) state ∈ roundEvents n r) :
    ∃ reg, PORTECT_REG_NUM p = some reg ∧ .cpld_read p reg ((r.answers p).cpld reg) ∈ roundEvents n r ∧
      ((r.answers p).cpld reg).ok = true ∧
        ((r.answers p).cpld reg).val.toNat.testBit ((p - 1) % 8) = decide (state = .PORT_ADMIN_UP) := by
  obtain ⟨reg, hreg⟩ := reg_isSome hp hlt
  obtain ⟨hadmin, hbit⟩ := (set_mem_controlled hp hn hlt hcontrol hreg).mp ((set_mem_round hp hn).mp hset)
  refine ⟨reg, hreg, read_mem_round.mpr ⟨⟨hp, hn⟩, ?_⟩, ?_, hbit⟩
  · rw [turn_controlled hp hn hlt hcontrol hreg hadmin]
    exact List.mem_cons_self
  · cases hread : (r.answers p).cpld reg with
    | mk ok v =>
      cases ok with
      | true => rfl
      | false =>
        have hsame := h p hp hn hlt hcontrol reg v (flip state) hreg hread hadmin
        rw [hread] at hbit
        rw [hbit] at hsame
        cases state <;> exact absurd hsame (by decide)

theorem evidence_of_set (h : Calm n r) (hp : 1 ≤ p) (hn : p ≤ n) (hlt : p < NUM_PORTS_PER_SYSTEM - 1)
    (hcontrol : r.gucPoeDisablePerPort (p - 1) = POE_PORT_ENABLE)
    (hset : .operation_set (p - 1) state ∈ roundEvents n r) :
    Evidence (roundEvents n r) p (decide (state = .PORT_ADMIN_UP)) := by
  obtain ⟨reg, hreg, hread, hok, hbit⟩ := set_read h hp hn hlt hcontrol hset
  refine ⟨reg, ((r.answers p).cpld reg).val, hreg, ?_, hbit⟩
  rw [← hok]
  exact hread

/-- A turn that closes its port, or reads for it, has it under control. -/
theorem controlled_of_mem (hp : 1 ≤ p) (he : e ∈ portTurn n table a p)
    (h : e ≠ .operation_set (p - 1) .PORT_ADMIN_UP) :
    p < NUM_PORTS_PER_SYSTEM - 1 ∧ table (p - 1) = POE_PORT_ENABLE := by
  by_contra hfree
  rcases turn_free (n := n) (a := a) hp fun hlt heq => hfree ⟨hlt, heq⟩ with hnil | ⟨-, hset⟩
  · rw [hnil] at he
    cases he
  · rw [hset] at he
    exact h (List.mem_singleton.mp he)

theorem justified_of_calm (h : Calm n r) : Justified n r (roundEvents n r) := by
  refine ⟨?_, ?_, ?_⟩
  · intro p hp hn hset
    obtain ⟨hlt, hcontrol⟩ := controlled_of_mem hp ((set_mem_round hp hn).mp hset) (by simp)
    exact evidence_of_set h hp hn hlt hcontrol hset
  · intro p hp hn hcontrol hset
    have hlt : p < NUM_PORTS_PER_SYSTEM - 1 := by
      by_contra hout
      have hfree : portTurn n r.gucPoeDisablePerPort (r.answers p) p = [] ∨ _ :=
        turn_free hp fun hlt => absurd hlt hout
      rcases hfree with hnil | ⟨hlt, -⟩
      · rw [set_mem_round hp hn, hnil] at hset
        cases hset
      · exact hout hlt
    exact evidence_of_set h hp hn hlt hcontrol hset
  · intro p reg v state hread hset
    obtain ⟨⟨hp, hn⟩, hmem⟩ := read_mem_round.mp hread
    obtain ⟨hlt, hcontrol⟩ := controlled_of_mem hp hmem (by simp)
    obtain ⟨reg', hreg', -, hok, -⟩ := set_read h hp hn hlt hcontrol hset
    rcases turn_own hp hn hmem with ⟨reg'', hreg'', heq⟩ | ⟨state', heq⟩
    · obtain ⟨-, rfl, hfalse⟩ := Event.cpld_read.inj heq
      rw [hreg'] at hreg''
      obtain rfl := Option.some.inj hreg''
      rw [← hfalse] at hok
      cases hok
    · cases heq

theorem calm_of_justified (h : Justified n r (roundEvents n r)) : Calm n r := by
  intro p hp hn hlt hcontrol reg v state hreg hcpld hadmin
  by_contra hbit
  have hturn := turn_controlled hp hn hlt hcontrol hreg hadmin
  rw [hcpld] at hturn
  dsimp only at hturn
  rw [if_neg hbit] at hturn
  refine h.failed p reg v (flip state) (read_mem_round.mpr ⟨⟨hp, hn⟩, ?_⟩) ((set_mem_round hp hn).mpr ?_)
  · rw [hturn]
    exact List.mem_cons_self
  · rw [hturn]
    exact List.mem_cons_of_mem _ (List.mem_singleton.mpr rfl)

end

/-- One port that is up and under control, and a register that cannot be read. -/
def deafRound : Round where
  gucPoeDisablePerPort _ := 1
  answers _ := ⟨some .PORT_ADMIN_UP, fun _ => ⟨false, 0⟩⟩

theorem a_failed_read_closes_a_port :
    gwd_onu_poe_thread_hander true 1 [deafRound] =
        [[.cpld_read 1 .GWD_CPLD_POWER1_REG ⟨false, 0⟩, .operation_set 0 .PORT_ADMIN_DOWN]] ∧
      ¬ Justified 1 deafRound (roundEvents 1 deafRound) := by
  refine ⟨by decide, fun h => ?_⟩
  exact h.failed 1 .GWD_CPLD_POWER1_REG 0 .PORT_ADMIN_DOWN (by decide) (by decide)

/-- The ports are set on evidence in all rounds just when no read fails, or what a failed
read leaves behind is what the port is already. -/
theorem ports_are_set_on_evidence_iff_failed_reads_are_harmless (poeexiststat : Bool) (uni_port_num : Nat)
    (rounds : List Round) :
    (∀ x ∈ rounds.zip (gwd_onu_poe_thread_hander poeexiststat uni_port_num rounds), Justified uni_port_num x.1 x.2) ↔
      (poeexiststat = true → ∀ r ∈ rounds, Calm uni_port_num r) := by
  cases poeexiststat with
  | false => simp [gwd_onu_poe_thread_hander]
  | true =>
    have hzip : rounds.zip (rounds.map (roundEvents uni_port_num)) =
        rounds.map fun r => (r, roundEvents uni_port_num r) := by
      have h := @List.zip_map' _ _ _ id (roundEvents uni_port_num) rounds
      rwa [List.map_id] at h
    rw [gwd_onu_poe_thread_hander, if_pos rfl, hzip, List.forall_mem_map, forall_prop_of_true rfl]
    exact forall₂_congr fun r _ => ⟨calm_of_justified, justified_of_calm⟩

end gwdonu.poe
