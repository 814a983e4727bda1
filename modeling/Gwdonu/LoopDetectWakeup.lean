-- How often a port that was shut down for a loop is woken up. The counter of a
-- port has eight bits, and 255 stands for stopped as well.
import Gwdonu.LoopDetectNodes

namespace gwdonu.gwd_eth_loop_detect

open Function gwd_port_admin_t runs

/-! ## The calls, as they come -/

/-- The calls of loop detection, each with what it finds outside, and what
somebody else does to the admin state of a port. -/
inductive Event where
  | wakeup (a : Api) (session : SessionID) (vid : UInt16)
  | check (a : Api) (vid : UInt16) (lport : Option Nat)
  | rev (a : Api) (session : SessionID) (packet : List UInt8) (port : Nat) (vid : UInt16)
  | cls (vid : UInt16)
  | report (a : Api) (vid : UInt16) (session : Option SessionID)
  | reset (a : Api) (force : Bool) (session : Option SessionID)
  | free
  | timer
  | admin (lport : Nat) (st : gwd_port_admin_t)

/-- `commands` holds those of the last call. -/
def Lpb.call (c : Config) (s : Lpb) (e : Event) : Lpb :=
  let s := { s with commands := [] }
  match e with
  | .wakeup a session vid => lpbDetectWakeupPorts c a session s vid
  | .check a vid lport => lpbDetectCheckMacTable c a s vid lport
  | .rev a session packet port vid => lpbDetectRevPacketHandle c a session s packet port vid
  | .cls vid => clsPortLpbStatus s vid
  | .report a vid session => reportPortsLpbStatus a s vid session
  | .reset a force session => resetLpbPort c a s force session
  | .free => freeLpbStatusList s
  | .timer =>
    { s with timeCounter := if s.timeCounter = LPB_OAM_SEND_INTERVAL then 0 else s.timeCounter + 1 }
  | .admin lport st => { s with admin := update s.admin lport st }

def Event.wakesUp (vid : UInt16) : Event → Bool
  | .wakeup _ _ v => v = vid
  | _ => false

def Event.detects (vid : UInt16) : Event → Bool
  | .check _ v _ => v = vid
  | .rev _ _ _ _ v => v = vid
  | _ => false

/-- What opens a port for another reason than the loop of the VLAN. -/
def Event.opensAnyway (vid : UInt16) : Event → Bool
  | .wakeup _ _ v => v ≠ vid
  | .reset .. => true
  | .admin .. => true
  | _ => false

/-- The calls, with two counts for one port of one VLAN. -/
structure Watched where
  lpb : Lpb
  wakes : Nat
  waited : Nat

def Watched.init : Watched := ⟨Lpb.init, 0, 0⟩

section
variable (c : Config) (vid : UInt16) (p : Nat)

/-- `wakes` is how often the port was woken up, since its status was last cleared
or somebody else opened it; `waited` is the intervals since it was shut down. -/
def Watched.step (t : Watched) (e : Event) : Watched :=
  let s := t.lpb.call c e
  { lpb := s
    wakes :=
      if (s.portOf vid p).lpbmask = 0 then 0
      else if e.wakesUp vid then t.wakes + if (p, PORT_ADMIN_UP) ∈ s.commands then 1 else 0
      else if t.lpb.admin p = PORT_ADMIN_DOWN ∧ s.admin p = PORT_ADMIN_UP then 0
      else t.wakes
    waited :=
      if e.wakesUp vid then t.waited + 1
      else if e.detects vid ∧ t.lpb.admin p = PORT_ADMIN_UP ∧ s.admin p = PORT_ADMIN_DOWN then 0
      else t.waited }

/-- A wake-up is one of `maxwakeup` and comes after `waitforwakeup` intervals; a
loop that is found after the last of them leaves the port without one; and from
then on it stays down until somebody else opens it. -/
def Bounded (t : Watched) (e : Event) : Prop :=
  let s := t.lpb.call c e
  (e.wakesUp vid = true → (p, PORT_ADMIN_UP) ∈ s.commands →
    t.wakes < c.maxwakeup.toNat ∧ c.waitforwakeup.toNat ≤ t.waited + 1) ∧
  (e.detects vid = true → t.lpb.admin p = PORT_ADMIN_UP → s.admin p = PORT_ADMIN_DOWN →
    t.wakes = c.maxwakeup.toNat → ¬ (s.portOf vid p).wakes c) ∧
  (e.opensAnyway vid = false → t.lpb.admin p = PORT_ADMIN_DOWN → t.wakes = c.maxwakeup.toNat →
    s.admin p = PORT_ADMIN_DOWN)

/-- A loop frame that came in on the uplink shuts the uplink down and marks the port. -/
def Strays (s : Lpb) : Event → Prop
  | .rev a _ packet port v => v = vid ∧ loopPort a port vid = p ∧ ¬ boards_port_is_uni port ∧
      isLoopFrame packet ∧ s.gulLoopIgnorePort port = false ∧ c.shutsDown ∧
      s.admin port = PORT_ADMIN_UP ∧ a.set port = true
  | _ => False

/-- Such a frame marks the port only while it has a wake-up left, or was not woken
up yet, or is down and not stopped. -/
def InPlace (t : Watched) (e : Event) : Prop :=
  Strays c vid p t.lpb e → (t.lpb.portOf vid p).wakes c ∨ t.wakes = 0 ∨
    (t.lpb.admin p = PORT_ADMIN_DOWN ∧ (t.lpb.portOf vid p).lpbportwakeupcounter ≠ 255)

end

/-! ## One port -/

section
variable {c : Config} {a : Api} {b : SessionID} {s : Lpb} {vid v : UInt16} {i p : Nat} {x : Port}

/-- The port after the first half of the body. -/
def Port.clear (x : Port) : Port :=
  if x.silent then
    { x with lpbmask := 0, lpbportwakeupcounter := 0, slpcounter := 0, lpbClearCnt := 0 }
  else x

/-- The port is woken up. -/
def Port.due (c : Config) (x : Port) : Prop :=
  x.clear.waits c ∧ (c.waitforwakeup.toNat : Int) ≤ (x.clear.slpcounter + 1).toInt

instance (c : Config) (x : Port) : Decidable (x.due c) := inferInstanceAs (Decidable (_ ∧ _))

/-- The port after the body. -/
def Port.wakeup (c : Config) (x : Port) : Port :=
  if x.due c then
    { x.clear with
      lpbportdown := 0, slpcounter := 0, lpbportwakeupcounter := x.clear.lpbportwakeupcounter + 1 }
  else if x.clear.waits c then { x.clear with slpcounter := x.clear.slpcounter + 1 }
  else x.clear

theorem clear_snd : (clearPort a b v s i x).2 = x.clear := by
  unfold clearPort Port.clear
  split
  · rfl
  · rfl

theorem clear_admin : (clearPort a b v s i x).1.admin = s.admin := by
  unfold clearPort
  split
  · exact send_admin _ _
  · rfl

theorem clear_commands : (clearPort a b v s i x).1.commands = s.commands := by
  unfold clearPort
  split
  · exact send_commands _ _
  · rfl

/-- What the body does to its port, and what it tells it. -/
theorem wakeupPort_eq : (wakeupPort c a b v s i x).2 = x.wakeup c ∧
    (wakeupPort c a b v s i x).1.commands =
      s.commands ++ (if x.due c then [(i, PORT_ADMIN_UP)] else []) ∧
    ∀ p, (wakeupPort c a b v s i x).1.admin p =
      if p = i ∧ x.due c ∧ a.set i = true then PORT_ADMIN_UP else s.admin p := by
  have hx := clear_snd (a := a) (b := b) (v := v) (s := s) (i := i) (x := x)
  have hadmin := clear_admin (a := a) (b := b) (v := v) (s := s) (i := i) (x := x)
  have hcommands := clear_commands (a := a) (b := b) (v := v) (s := s) (i := i) (x := x)
  unfold wakeupPort Port.wakeup
  dsimp only
  rw [hx]
  by_cases hw : x.clear.waits c
  · by_cases hd : (c.waitforwakeup.toNat : Int) ≤ (x.clear.slpcounter + 1).toInt
    · have hdue : x.due c := ⟨hw, hd⟩
      rw [if_pos hw, if_pos hd, if_pos hdue, if_pos hdue]
      refine ⟨rfl, ?_, ?_⟩
      · rw [send_commands, set_commands, hcommands]
      · intro p
        rw [send_admin, set_admin, hadmin]
        simp [hdue]
    · have hdue : ¬ x.due c := fun h => hd h.2
      rw [if_pos hw, if_neg hd, if_neg hdue, if_neg hdue, if_pos hw]
      refine ⟨rfl, ?_, ?_⟩
      · rw [hcommands, List.append_nil]
      · intro p
        rw [hadmin]
        simp [hdue]
  · have hdue : ¬ x.due c := fun h => hw h.1
    rw [if_neg hw, if_neg hdue, if_neg hdue, if_neg hw]
    refine ⟨rfl, ?_, ?_⟩
    · rw [hcommands, List.append_nil]
    · intro p
      rw [hadmin]
      simp [hdue]

/-- A port without a node is not woken up. -/
theorem noPort_wakeup : ¬ noPort.due c ∧ noPort.wakeup c = noPort := by
  have hclear : noPort.clear = noPort := rfl
  have hwaits : ¬ noPort.waits c := by
    rintro ⟨⟨hmask, -⟩, -⟩
    cases hmask
  have hdue : ¬ noPort.due c := by
    rintro ⟨hw, -⟩
    rw [hclear] at hw
    exact hwaits hw
  refine ⟨hdue, ?_⟩
  rw [Port.wakeup, if_neg hdue, hclear, if_neg hwaits]

/-- The port, its admin state, and whether it was told to open, in a loop over a node. -/
def seen (p : Nat) (q : Lpb × (Nat → Port)) : Port × gwd_port_admin_t × Bool :=
  (q.2 p, q.1.admin p, decide ((p, PORT_ADMIN_UP) ∈ q.1.commands))

/-- What the turn of the port changes of it. -/
def wakeSeen (c : Config) (a : Api) (p : Nat) (x : Port × gwd_port_admin_t × Bool) :
    Port × gwd_port_admin_t × Bool :=
  (x.1.wakeup c, if x.1.due c ∧ a.set p = true then PORT_ADMIN_UP else x.2.1,
    x.2.2 || decide (x.1.due c))

/-- What a wake-up of the VLAN does to the port. -/
theorem wakeup_port (hp : p ∈ ports) (vid : UInt16) (s : Lpb) (hs : (p, PORT_ADMIN_UP) ∉ s.commands) :
    (lpbDetectWakeupPorts c a b s vid).portOf vid p = (s.portOf vid p).wakeup c ∧
      ((p, PORT_ADMIN_UP) ∈ (lpbDetectWakeupPorts c a b s vid).commands ↔
        (s.portOf vid p).due c) ∧
      (lpbDetectWakeupPorts c a b s vid).admin p =
        if (s.portOf vid p).due c ∧ a.set p = true then PORT_ADMIN_UP else s.admin p := by
  unfold lpbDetectWakeupPorts
  cases h : s.getVlanLpbStasNode vid with
  | none =>
    obtain ⟨hdue, hsame⟩ := noPort_wakeup (c := c)
    rw [forPorts_none h, portOf_none h, hsame, if_neg (fun h => hdue h.1)]
    exact ⟨rfl, ⟨fun h => absurd h hs, fun h => absurd h hdue⟩, rfl⟩
  | some n =>
    have hother : ∀ (q : Lpb × (Nat → Port)) (i : Nat), i ≠ p →
        seen p ((wakeupPort c a b vid).turn q i) = seen p q := by
      rintro ⟨s, port⟩ i hi
      obtain ⟨-, hcommands, hadmin⟩ :=
        wakeupPort_eq (c := c) (a := a) (b := b) (v := vid) (s := s) (i := i) (x := port i)
      unfold seen Body.turn
      dsimp only
      rw [update_of_ne (Ne.symm hi), hadmin p, if_neg (fun h => hi h.1.symm), hcommands]
      congr 3
      rw [List.mem_append, eq_iff_iff, or_iff_left]
      split
      · intro hmem
        exact hi (Prod.mk.inj (List.mem_singleton.mp hmem)).1.symm
      · exact List.not_mem_nil
    have hself : ∀ q : Lpb × (Nat → Port), seen p ((wakeupPort c a b vid).turn q p) =
        wakeSeen c a p (seen p q) := by
      rintro ⟨s, port⟩
      obtain ⟨hport, hcommands, hadmin⟩ :=
        wakeupPort_eq (c := c) (a := a) (b := b) (v := vid) (s := s) (i := p) (x := port p)
      unfold seen wakeSeen Body.turn
      dsimp only
      rw [update_self, hport, hadmin p, hcommands]
      by_cases hdue : (port p).due c
      · simp [hdue]
      · simp [hdue]
    have hrun := view_once hother hself ports_nodup hp (s, n.port)
    have hport : (run (wakeupPort c a b vid).turn (s, n.port) ports).2 p = (n.port p).wakeup c :=
      congrArg Prod.fst hrun
    have hadmin : (run (wakeupPort c a b vid).turn (s, n.port) ports).1.admin p =
        if (n.port p).due c ∧ a.set p = true then PORT_ADMIN_UP else s.admin p :=
      congrArg (fun x => x.2.1) hrun
    have hcommand : decide ((p, PORT_ADMIN_UP) ∈
        (run (wakeupPort c a b vid).turn (s, n.port) ports).1.commands) =
          (decide ((p, PORT_ADMIN_UP) ∈ s.commands) || decide ((n.port p).due c)) :=
      congrArg (fun x => x.2.2) hrun
    rw [forPorts_self wakeup_local h, portOf_some h, forPorts_some h]
    refine ⟨hport, ?_, hadmin⟩
    rw [decide_eq_false hs, Bool.false_or, decide_eq_decide] at hcommand
    exact hcommand

/-! ## The other calls -/

/-- What the marking of a port that is shut down does to its wake-ups. -/
inductive ShutBy (c : Config) (x x' : Port) : Prop
  | again (h : x.wakes c) (counter : x'.lpbportwakeupcounter = x.lpbportwakeupcounter)
      (slp : x'.slpcounter = 0)
  | restarted (h : x.lpbportwakeupcounter = 255) (counter : x'.lpbportwakeupcounter = 0)
      (slp : x'.slpcounter = 0)
  | stopped (h : ¬ x.wakes c) (counter : x'.lpbportwakeupcounter = 255) (mask : x'.lpbmask = 1)
  | first (h : x.lpbportwakeupcounter = 0) (counter : x'.lpbportwakeupcounter = 0)
      (slp : x'.slpcounter = 0)

variable {info : Option ALARM_LOOP} {lport port : Nat}

theorem mark_shut : ShutBy c x (x.mark c true info) := by
  unfold Port.mark
  dsimp only
  rw [if_pos rfl]
  by_cases hw : x.wakes c
  · rw [if_pos (show Port.wakes c { x with lpbClearCnt := 0, lpbmask := 1 } from hw)]
    exact .again hw rfl rfl
  · rw [if_neg (show ¬ Port.wakes c { x with lpbClearCnt := 0, lpbmask := 1 } from hw)]
    by_cases h : x.lpbportwakeupcounter = 255
    · rw [if_pos h]
      exact .restarted h rfl rfl
    · rw [if_neg h]
      exact .stopped hw rfl rfl

theorem marked_shut : ShutBy c (s.portOf vid p) (s.marked c a vid true info p) := by
  unfold Lpb.marked
  split
  · rename_i n h
    rw [portOf_some h]
    exact mark_shut
  · rename_i h
    rw [portOf_none h]
    split
    · exact .first rfl rfl rfl
    · exact .first rfl rfl rfl

theorem marked_quiet : Quiet (s.portOf vid p) (s.marked c a vid false info p) := by
  unfold Lpb.marked
  split
  · rename_i n h
    rw [portOf_some h]
    exact ⟨rfl, rfl, fun h => nomatch h⟩
  · rename_i h
    rw [portOf_none h]
    split
    · exact ⟨rfl, rfl, fun h => nomatch h⟩
    · exact Quiet.refl _

/-- What a call does to the port, when it is not a wake-up of its VLAN: nothing
much, or it shuts the port down, or it marks it for a frame from the uplink. -/
inductive Step (c : Config) (vid : UInt16) (p : Nat) (s s' : Lpb) (e : Event) : Prop
  | calm (h : Quiet (s.portOf vid p) (s'.portOf vid p) ∨ s'.portOf vid p = noPort)
      (hdown : e.detects vid = true → s.admin p = PORT_ADMIN_UP → s'.admin p = PORT_ADMIN_UP)
  | shut (x : Port) (hshut : ShutBy c (s.portOf vid p) x)
      (h : Quiet x (s'.portOf vid p) ∨ s'.portOf vid p = noPort ∧ x.lpbmask = 0)
      (hpolicy : c.shutsDown) (hup : s.admin p = PORT_ADMIN_UP) (hdown : s'.admin p = PORT_ADMIN_DOWN)
  | stray (x : Port) (hstray : Strays c vid p s e) (hshut : ShutBy c (s.portOf vid p) x)
      (h : Quiet x (s'.portOf vid p) ∨ s'.portOf vid p = noPort) (hadmin : s'.admin p = s.admin p)

/-- Flags and commands do not matter. -/
theorem step_flags {f : Nat → Bool} {l : List (Nat × gwd_port_admin_t)} {s' : Lpb} {e : Event}
    (h : Step c vid p { s with gulLoopRecFlag := f, commands := l } s' e) : Step c vid p s s' e := by
  cases h with
  | calm h hdown => exact .calm h hdown
  | shut x hshut h hpolicy hup hdown => exact .shut x hshut h hpolicy hup hdown
  | stray x hstray hshut h hadmin =>
    refine .stray x ?_ hshut h hadmin
    cases e with
    | rev => exact hstray
    | _ => cases hstray

theorem markOpen_calm :
    Quiet (s.portOf vid p) ((setPortLpbStatus c a s v lport false info).portOf vid p) := by
  rw [mark_portOf]
  split
  · exact marked_quiet
  · exact Quiet.refl _

/-- The port that a loop came in on is shut down, and the one that it is put
down to is marked. -/
theorem shut_portOf : (setPortLpbStatus c a (s.port_admin_set a port PORT_ADMIN_DOWN).1 v lport true
      info).portOf vid p =
    if v = vid ∧ lport = p then s.marked c a vid true info p else s.portOf vid p :=
  mark_portOf true info

theorem shut_admin (hset : a.set port = true) :
    (setPortLpbStatus c a (s.port_admin_set a port PORT_ADMIN_DOWN).1 v lport true info).admin p =
      if p = port then PORT_ADMIN_DOWN else s.admin p := by
  rw [mark_admin, set_admin]
  simp [hset]

theorem set_fails (hset : ¬ a.set port = true) (st : gwd_port_admin_t) :
    (s.port_admin_set a port st).1.admin = s.admin := if_neg hset

theorem check_step (s : Lpb) (found : Option Nat) :
    Step c vid p s (lpbDetectCheckMacTable c a s v found) (.check a v found) := by
  have hcls : Step c vid p s (clsPortLpbStatus s v) (.check a v found) := by
    refine .calm (.inl (cls_calm v)) ?_
    intro _ hup
    rw [cls_admin]
    exact hup
  have hsame : Step c vid p s s (.check a v found) := .calm (.inl (Quiet.refl _)) fun _ hup => hup
  unfold lpbDetectCheckMacTable
  cases found with
  | none => exact hcls
  | some lport =>
    dsimp only
    by_cases huni : boards_port_is_uni lport
    · rw [if_pos huni]
      split
      · exact hsame
      · by_cases hpolicy : c.shutsDown
        · rw [if_pos hpolicy]
          by_cases hup : s.admin lport = PORT_ADMIN_UP
          · rw [if_pos hup]
            change Step c vid p s (if a.set lport = true then setPortLpbStatus c a
              (s.port_admin_set a lport PORT_ADMIN_DOWN).1 v lport true none
              else (s.port_admin_set a lport PORT_ADMIN_DOWN).1) _
            by_cases hset : a.set lport = true
            · rw [if_pos hset]
              by_cases hhit : v = vid ∧ lport = p
              · refine .shut (s.marked c a vid true none p) marked_shut ?_ hpolicy (hhit.2 ▸ hup) ?_
                · left
                  rw [shut_portOf, if_pos hhit]
                  exact Quiet.refl _
                · rw [shut_admin hset, if_pos hhit.2.symm]
              · refine .calm ?_ ?_
                · left
                  rw [shut_portOf, if_neg hhit]
                  exact Quiet.refl _
                · intro hv hup'
                  have hne : p ≠ lport := fun h => hhit ⟨of_decide_eq_true hv, h.symm⟩
                  rw [shut_admin hset, if_neg hne]
                  exact hup'
            · rw [if_neg hset]
              refine .calm (.inl (Quiet.refl _)) ?_
              intro _ hup'
              rw [set_fails hset]
              exact hup'
          · rw [if_neg hup]
            exact hsame
        · rw [if_neg hpolicy]
          refine .calm (.inl markOpen_calm) ?_
          intro _ hup
          rw [mark_admin]
          exact hup
    · rw [if_neg huni]
      exact hcls

theorem ports_uni (hp : p ∈ ports) : boards_port_is_uni p := by
  rw [ports, List.mem_range'_1] at hp
  unfold boards_port_is_uni
  have : gulNumOfPortsPerSystem = 26 := rfl
  omega

theorem loopPort_uni (h : boards_port_is_uni port) : loopPort a port v = port := if_pos h

/-- A loop frame, when the port that it came in on is open and takes the command. -/
theorem revShut_step (hp : p ∈ ports) (vid : UInt16) (hs : s.Distinct) {i : Option ALARM_LOOP}
    {packet : List UInt8} (hframe : isLoopFrame packet) (hlisten : s.gulLoopIgnorePort port = false)
    (hpolicy : c.shutsDown) (hup : s.admin port = PORT_ADMIN_UP) (hset : a.set port = true) :
    Step c vid p s (reportPortsLpbStatus a (setPortLpbStatus c a
      (s.port_admin_set a port PORT_ADMIN_DOWN).1 v (loopPort a port v) true i) v (some b))
      (.rev a b packet port v) := by
  have hdistinct : (s.port_admin_set a port PORT_ADMIN_DOWN).1.Distinct := hs
  have hcalm := report_calm (s := setPortLpbStatus c a (s.port_admin_set a port PORT_ADMIN_DOWN).1 v
    (loopPort a port v) true i) (a := a) hp (mark_distinct hdistinct true i) v vid (some b)
  have hadmin := congrFun (report_admin (a := a) (setPortLpbStatus c a
    (s.port_admin_set a port PORT_ADMIN_DOWN).1 v (loopPort a port v) true i) v (some b)) p
  rw [shut_admin hset] at hadmin
  rw [shut_portOf] at hcalm
  by_cases hhit : v = vid ∧ loopPort a port v = p
  · rw [if_pos hhit] at hcalm
    by_cases huni : boards_port_is_uni port
    · have hport : p = port := by rw [← hhit.2, loopPort_uni huni]
      rw [if_pos hport] at hadmin
      exact .shut _ marked_shut hcalm hpolicy (hport ▸ hup) hadmin
    · have hne : p ≠ port := fun h => huni (h ▸ ports_uni hp)
      rw [if_neg hne] at hadmin
      refine .stray _ ?_ marked_shut (hcalm.imp_right And.left) hadmin
      exact ⟨hhit.1, hhit.1 ▸ hhit.2, huni, hframe, hlisten, hpolicy, hup, hset⟩
  · rw [if_neg hhit] at hcalm
    refine .calm (hcalm.imp_right And.left) ?_
    intro hv hup'
    have hne : p ≠ port := by
      rintro rfl
      exact hhit ⟨of_decide_eq_true hv, loopPort_uni (ports_uni hp)⟩
    rw [if_neg hne] at hadmin
    exact hadmin.trans hup'

theorem rev_step (hp : p ∈ ports) (hs : s.Distinct) (packet : List UInt8) (port : Nat) :
    Step c vid p s (lpbDetectRevPacketHandle c a b s packet port v) (.rev a b packet port v) := by
  have hsame : ∀ f, Step c vid p s { s with gulLoopRecFlag := f } (.rev a b packet port v) :=
    fun _ => .calm (.inl (Quiet.refl _)) fun _ hup => hup
  unfold lpbDetectRevPacketHandle
  by_cases hskip : ¬ isLoopFrame packet ∨ s.gulLoopIgnorePort port = true
  · rw [if_pos hskip]
    exact hsame s.gulLoopRecFlag
  · rw [if_neg hskip]
    rw [not_or, not_not, Bool.not_eq_true] at hskip
    by_cases hpolicy : c.shutsDown
    · rw [if_pos hpolicy]
      by_cases hup : s.admin port = PORT_ADMIN_UP
      · rw [if_pos hup]
        by_cases hset : a.set port = true
        · have hstep := revShut_step (v := v) (b := b)
            (s := { s with gulLoopRecFlag := update s.gulLoopRecFlag (loopPort a port v) true })
            (i := some (revAlarm packet)) hp vid hs hskip.1 hskip.2 hpolicy hup hset
          refine step_flags (f := update s.gulLoopRecFlag (loopPort a port v) true)
            (l := s.commands) ?_
          simp only [Lpb.port_admin_set, if_pos hset] at hstep ⊢
          exact hstep
        · dsimp only [Lpb.port_admin_set]
          rw [if_neg hset]
          refine .calm (.inl (Quiet.refl _)) ?_
          intro _ hup'
          exact (congrFun (if_neg hset) p).trans hup'
      · rw [if_neg hup]
        exact hsame _
    · rw [if_neg hpolicy]
      refine .calm ?_ ?_
      · exact .inl (markOpen_calm
          (s := { s with gulLoopRecFlag := update s.gulLoopRecFlag (loopPort a port v) true }))
      · intro _ hup
        rw [mark_admin]
        exact hup

theorem call_step (hp : p ∈ ports) (hs : s.Distinct) (e : Event) (he : e.wakesUp vid = false) :
    Step c vid p s (s.call c e) e := by
  cases e with
  | wakeup a session v =>
    refine .calm ?_ (fun h => nomatch h)
    left
    rw [Lpb.call, wakeup_other (of_decide_eq_false he)]
    exact Quiet.refl _
  | check a v found => exact step_flags (check_step _ found)
  | rev a session packet port v =>
    exact step_flags (f := s.gulLoopRecFlag) (l := [])
      (rev_step (s := { s with commands := [] }) hp hs packet port)
  | cls v => exact .calm (.inl (cls_calm (s := { s with commands := [] }) v)) (fun h => nomatch h)
  | report a v session =>
    have hcalm := report_calm (s := { s with commands := [] }) (a := a) hp hs v vid session
    exact .calm (hcalm.imp_right And.left) (fun h => nomatch h)
  | reset a force session =>
    exact .calm (.inl (reset_calm (s := { s with commands := [] }) force)) (fun h => nomatch h)
  | free => exact .calm (.inr rfl) (fun h => nomatch h)
  | timer => exact .calm (.inl (Quiet.refl _)) (fun h => nomatch h)
  | admin lport st => exact .calm (.inl (Quiet.refl _)) (fun h => nomatch h)

theorem check_distinct (hs : s.Distinct) (v : UInt16) (found : Option Nat) :
    (lpbDetectCheckMacTable c a s v found).Distinct := by
  unfold lpbDetectCheckMacTable
  split
  · exact cls_distinct hs v
  · split_ifs
    · exact hs
    · dsimp only [Lpb.port_admin_set]
      split
      · apply mark_distinct
        exact hs
      · exact hs
    · exact hs
    · exact mark_distinct hs _ _
    · exact cls_distinct hs v

theorem rev_distinct (hs : s.Distinct) (packet : List UInt8) (port : Nat) (v : UInt16) :
    (lpbDetectRevPacketHandle c a b s packet port v).Distinct := by
  unfold lpbDetectRevPacketHandle
  dsimp only [Lpb.port_admin_set]
  split_ifs
  · exact hs
  · apply report_distinct
    apply mark_distinct
    exact hs
  · exact hs
  · exact hs
  · apply mark_distinct
    exact hs

theorem call_distinct (hs : s.Distinct) (e : Event) : (s.call c e).Distinct := by
  have hs : ({ s with commands := [] } : Lpb).Distinct := hs
  cases e with
  | wakeup a session v => exact wakeup_distinct hs v
  | cls v => exact cls_distinct hs v
  | report a v session => exact report_distinct hs v
  | reset a force session => exact reset_distinct hs force
  | free => exact List.nodup_nil
  | timer => exact hs
  | admin lport st => exact hs
  | check a v found => exact check_distinct hs v found
  | rev a session packet port v => exact rev_distinct hs packet port v

theorem set_down (h : s.admin p = PORT_ADMIN_DOWN) (port : Nat) :
    (s.port_admin_set a port PORT_ADMIN_DOWN).1.admin p = PORT_ADMIN_DOWN := by
  rw [set_admin]
  split
  · rfl
  · exact h

/-- A port that is down is not opened by a call that wakes up no port. -/
theorem call_down (h : s.admin p = PORT_ADMIN_DOWN) (e : Event) (he : e.wakesUp vid = false)
    (hanyway : e.opensAnyway vid = false) : (s.call c e).admin p = PORT_ADMIN_DOWN := by
  cases e with
  | wakeup a session v =>
    have hv : v = vid := by simpa [Event.opensAnyway] using hanyway
    exact absurd hv (of_decide_eq_false he)
  | reset => cases hanyway
  | admin => cases hanyway
  | free => exact h
  | timer => exact h
  | cls v => exact (congrFun (cls_admin { s with commands := [] } v) p).trans h
  | report a v session =>
    exact (congrFun (report_admin (a := a) { s with commands := [] } v session) p).trans h
  | check a v found =>
    rw [Lpb.call]
    unfold lpbDetectCheckMacTable
    split
    · exact (congrFun (cls_admin { s with commands := [] } v) p).trans h
    · split_ifs
      · exact h
      · dsimp only
        split
        · rw [mark_admin]
          exact set_down (s := { s with commands := [] }) h _
        · exact set_down (s := { s with commands := [] }) h _
      · exact h
      · rw [mark_admin]
        exact h
      · exact (congrFun (cls_admin { s with commands := [] } v) p).trans h
  | rev a session packet port v =>
    rw [Lpb.call]
    unfold lpbDetectRevPacketHandle
    dsimp only
    split_ifs
    · exact h
    · rw [report_admin, mark_admin]
      exact set_down (s := { s with gulLoopRecFlag := _, commands := [] }) h port
    · exact set_down (s := { s with gulLoopRecFlag := _, commands := [] }) h port
    · exact h
    · rw [mark_admin]
      exact h

/-! ## What is kept -/

/-- The counts of a port against what its node says. -/
structure Counted (c : Config) (x : Port) (st : gwd_port_admin_t) (wakes waited : Nat) : Prop where
  count : x.lpbportwakeupcounter ≠ 255 → wakes ≤ x.lpbportwakeupcounter.toNat
  slept : x.lpbportwakeupcounter ≠ 255 →
    0 ≤ x.slpcounter.toInt ∧ x.slpcounter.toInt ≤ waited ∧ x.slpcounter.toInt ≤ 65535
  stopped : x.lpbportwakeupcounter = 255 → st = PORT_ADMIN_UP → wakes = 0
  policy : ¬ c.shutsDown → x.lpbportdown ≠ 1

variable {x' : Port} {st st' : gwd_port_admin_t} {wakes wakes' waited waited' : Nat}

theorem zero_slept (waited : Nat) : 0 ≤ (0 : Int32).toInt ∧ (0 : Int32).toInt ≤ (waited : Int) ∧
    (0 : Int32).toInt ≤ 65535 := ⟨le_rfl, Int.natCast_nonneg _, by decide⟩

theorem noPort_counted : Counted c noPort st 0 waited := by
  refine ⟨fun _ => le_rfl, fun _ => zero_slept _, ?_, ?_⟩
  · intro h
    cases h
  · intro _ h
    cases h

theorem counted_calm (h : Counted c x st wakes waited) (hx : Quiet x x' ∨ x' = noPort)
    (hle : wakes' ≤ wakes) (hgone : x'.lpbmask = 0 → wakes' = 0)
    (hup : st = PORT_ADMIN_DOWN → st' = PORT_ADMIN_UP → wakes' = 0) (hwaited : waited ≤ waited') :
    Counted c x' st' wakes' waited' := by
  rcases hx with hx | rfl
  · refine ⟨?_, ?_, ?_, fun hpolicy hdown => h.policy hpolicy (hx.down hdown)⟩
    · rw [hx.counter]
      exact fun hne => hle.trans (h.count hne)
    · rw [hx.counter, hx.slp]
      intro hne
      obtain ⟨h0, hle, hmax⟩ := h.slept hne
      exact ⟨h0, hle.trans (Int.ofNat_le.mpr hwaited), hmax⟩
    · rw [hx.counter]
      intro hstop hst'
      cases st with
      | PORT_ADMIN_UP => exact Nat.le_zero.mp ((h.stopped hstop rfl) ▸ hle)
      | PORT_ADMIN_DOWN => exact hup rfl hst'
  · rw [hgone rfl]
    exact noPort_counted

/-- The counter of a port that may be woken up again does not stand for stopped. -/
theorem wakes_ne (hc : c.maxwakeup.toNat ≤ 254) (h : x.wakes c) : x.lpbportwakeupcounter ≠ 255 := by
  intro h255
  rw [Port.wakes, h255] at h
  have : (255 : UInt8).toNat = 255 := rfl
  omega

theorem counted_shut (h : Counted c x PORT_ADMIN_UP wakes waited) (hshut : ShutBy c x x')
    (hpolicy : c.shutsDown) : Counted c x' PORT_ADMIN_DOWN wakes 0 := by
  have hslept : x'.slpcounter = 0 →
      0 ≤ x'.slpcounter.toInt ∧ x'.slpcounter.toInt ≤ ((0 : Nat) : Int) ∧ x'.slpcounter.toInt ≤ 65535 := by
    intro h0
    rw [h0]
    decide
  have hstopped : PORT_ADMIN_DOWN = PORT_ADMIN_UP → wakes = 0 := fun h => nomatch h
  cases hshut with
  | again hw hcounter hslp =>
    refine ⟨?_, fun _ => hslept hslp, fun _ => hstopped, fun hno => absurd hpolicy hno⟩
    rw [hcounter]
    exact h.count
  | restarted h255 hcounter hslp =>
    refine ⟨?_, fun _ => hslept hslp, fun _ => hstopped, fun hno => absurd hpolicy hno⟩
    rw [h.stopped h255 rfl]
    exact fun _ => Nat.zero_le _
  | stopped hno hcounter _ =>
    refine ⟨fun hne => absurd hcounter hne, fun hne => absurd hcounter hne, fun _ => hstopped,
      fun hno => absurd hpolicy hno⟩
  | first h0 hcounter hslp =>
    refine ⟨?_, fun _ => hslept hslp, fun _ => hstopped, fun hno => absurd hpolicy hno⟩
    rw [hcounter, ← h0]
    exact fun _ => h.count (by rw [h0]; decide)

theorem counted_stray (h : Counted c x st wakes waited) (hshut : ShutBy c x x')
    (hc : c.maxwakeup.toNat ≤ 254) (hpolicy : c.shutsDown)
    (hplace : x.wakes c ∨ wakes = 0 ∨ (st = PORT_ADMIN_DOWN ∧ x.lpbportwakeupcounter ≠ 255)) :
    Counted c x' st wakes waited := by
  have hslept : x'.slpcounter = 0 → 0 ≤ x'.slpcounter.toInt ∧
      x'.slpcounter.toInt ≤ (waited : Int) ∧ x'.slpcounter.toInt ≤ 65535 := by
    intro h0
    rw [h0]
    exact zero_slept _
  cases hshut with
  | again hw hcounter hslp =>
    refine ⟨?_, fun _ => hslept hslp, ?_, fun hno => absurd hpolicy hno⟩
    · rw [hcounter]
      exact h.count
    · rw [hcounter]
      exact fun h255 => absurd h255 (wakes_ne hc hw)
  | restarted h255 hcounter hslp =>
    have hzero : wakes = 0 := by
      rcases hplace with hw | h0 | ⟨-, hne⟩
      · exact absurd h255 (wakes_ne hc hw)
      · exact h0
      · exact absurd h255 hne
    refine ⟨?_, fun _ => hslept hslp, fun _ _ => hzero, fun hno => absurd hpolicy hno⟩
    rw [hzero]
    exact fun _ => Nat.zero_le _
  | stopped hno hcounter _ =>
    refine ⟨fun hne => absurd hcounter hne, fun hne => absurd hcounter hne, ?_,
      fun hno => absurd hpolicy hno⟩
    intro _ hup
    rcases hplace with hw | h0 | ⟨hdown, -⟩
    · exact absurd hw hno
    · exact h0
    · rw [hup] at hdown
      cases hdown
  | first h0 hcounter hslp =>
    have hne : x.lpbportwakeupcounter ≠ 255 := by
      rw [h0]
      decide
    refine ⟨?_, fun _ => hslept hslp, ?_, fun hno => absurd hpolicy hno⟩
    · rw [hcounter, ← h0]
      exact fun _ => h.count hne
    · rw [hcounter]
      exact fun h => nomatch h

/-- A port that is due is one that is not cleared. -/
theorem due_iff : x.due c ↔
    ¬ x.silent ∧ x.waits c ∧ (c.waitforwakeup.toNat : Int) ≤ (x.slpcounter + 1).toInt := by
  unfold Port.due Port.clear
  by_cases hs : x.silent
  · rw [if_pos hs]
    refine ⟨?_, fun h => absurd hs h.1⟩
    rintro ⟨⟨⟨hmask, -⟩, -⟩, -⟩
    cases hmask
  · rw [if_neg hs]
    exact ⟨fun h => ⟨hs, h⟩, fun h => h.2⟩

theorem slp_succ (h0 : 0 ≤ x.slpcounter.toInt) (hmax : x.slpcounter.toInt ≤ 65535) :
    (x.slpcounter + 1).toInt = x.slpcounter.toInt + 1 := by
  rw [Int32.toInt_add, show (1 : Int32).toInt = 1 from rfl, Int.bmod_eq_of_le]
  · omega
  · omega

/-- A wake-up that is due is one of `maxwakeup`, after `waitforwakeup` intervals. -/
theorem due_bounded (hc : c.maxwakeup.toNat ≤ 254 ∨ ¬ c.shutsDown)
    (h : Counted c x st wakes waited) (hdue : x.due c) :
    wakes < c.maxwakeup.toNat ∧ c.waitforwakeup.toNat ≤ waited + 1 ∧
      c.maxwakeup.toNat ≤ 254 ∧ x.lpbportwakeupcounter ≠ 255 := by
  obtain ⟨-, ⟨⟨-, -, hdown⟩, hwakes⟩, hwait⟩ := due_iff.mp hdue
  have hsmall : c.maxwakeup.toNat ≤ 254 := by
    rcases hc with hc | hc
    · exact hc
    · exact absurd hdown.symm (h.policy hc)
  have hne := wakes_ne hsmall hwakes
  obtain ⟨h0, hslept, hmax⟩ := h.slept hne
  rw [slp_succ h0 hmax] at hwait
  refine ⟨(h.count hne).trans_lt hwakes, ?_, hsmall, hne⟩
  omega

theorem silent_wakeup (h : x.silent) : ¬ x.due c ∧ x.wakeup c =
    { x with lpbmask := 0, lpbportwakeupcounter := 0, slpcounter := 0, lpbClearCnt := 0 } := by
  have hdue : ¬ x.due c := fun hdue => (due_iff.mp hdue).1 h
  have hwaits : ¬ x.clear.waits c := by
    rw [Port.clear, if_pos h]
    rintro ⟨⟨hmask, -⟩, -⟩
    cases hmask
  refine ⟨hdue, ?_⟩
  rw [Port.wakeup, if_neg hdue, if_neg hwaits, Port.clear, if_pos h]

theorem loud_wakeup (h : ¬ x.silent) : x.wakeup c =
    if x.due c then { x with
      lpbportdown := 0, slpcounter := 0, lpbportwakeupcounter := x.lpbportwakeupcounter + 1 }
    else if x.waits c then { x with slpcounter := x.slpcounter + 1 }
    else x := by
  rw [Port.wakeup, Port.clear, if_neg h]

theorem loud_mask (h : ¬ x.silent) : (x.wakeup c).lpbmask = x.lpbmask := by
  rw [loud_wakeup h]
  split
  · rfl
  · split
    · rfl
    · rfl

theorem waits_mask (h : x.waits c) : x.lpbmask ≠ 0 := by
  obtain ⟨⟨hmask, -⟩, -⟩ := h
  rw [← hmask]
  decide

/-- A wake-up is counted. -/
theorem counted_due (hc : c.maxwakeup.toNat ≤ 254 ∨ ¬ c.shutsDown)
    (h : Counted c x st wakes waited) (hdue : x.due c) :
    Counted c (x.wakeup c) st' (wakes + 1) (waited + 1) := by
  obtain ⟨hloud, ⟨-, hwakes⟩, -⟩ := due_iff.mp hdue
  obtain ⟨-, -, hsmall, hne⟩ := due_bounded hc h hdue
  have hnext : (x.lpbportwakeupcounter + 1).toNat = x.lpbportwakeupcounter.toNat + 1 := by
    rw [Port.wakes] at hwakes
    rw [UInt8.toNat_add, Nat.mod_eq_of_lt]
    · rfl
    · have : (1 : UInt8).toNat = 1 := rfl
      omega
  rw [loud_wakeup hloud, if_pos hdue]
  refine ⟨?_, ?_, ?_, ?_⟩
  · intro _
    rw [hnext]
    exact Nat.succ_le_succ (h.count hne)
  · exact fun _ => zero_slept _
  · intro h255
    rw [Port.wakes] at hwakes
    rw [show x.lpbportwakeupcounter + 1 = 255 from h255] at hnext
    have : (255 : UInt8).toNat = 255 := rfl
    omega
  · intro _ hdown
    cases hdown

/-- The others only wait. -/
theorem counted_waiting (h : Counted c x st wakes waited) (hdue : ¬ x.due c)
    (hle : wakes' ≤ wakes) (hgone : (x.wakeup c).lpbmask = 0 → wakes' = 0) :
    Counted c (x.wakeup c) st wakes' (waited + 1) := by
  have hup : st = PORT_ADMIN_DOWN → st = PORT_ADMIN_UP → wakes' = 0 := by
    intro hd hu
    rw [hd] at hu
    cases hu
  by_cases hs : x.silent
  · rw [(silent_wakeup hs).2] at hgone ⊢
    rw [hgone rfl]
    refine ⟨fun _ => le_rfl, fun _ => zero_slept _, ?_, h.policy⟩
    intro h255
    cases h255
  · rw [loud_wakeup hs, if_neg hdue] at hgone ⊢
    by_cases hw : x.waits c
    · rw [if_pos hw] at hgone ⊢
      refine ⟨fun hne => hle.trans (h.count hne), ?_, ?_, h.policy⟩
      · intro hne
        obtain ⟨h0, hslept, hmax⟩ := h.slept hne
        have hsucc := slp_succ h0 hmax
        have hwait : (x.slpcounter + 1).toInt < c.waitforwakeup.toNat := by
          by_contra hge
          exact hdue (due_iff.mpr ⟨hs, hw, Int.not_lt.mp hge⟩)
        have hlt := c.waitforwakeup.toNat_lt
        change 0 ≤ (x.slpcounter + 1).toInt ∧ (x.slpcounter + 1).toInt ≤ _ ∧
          (x.slpcounter + 1).toInt ≤ _
        push_cast
        omega
      · intro h255 hu
        exact Nat.le_zero.mp ((h.stopped h255 hu) ▸ hle)
    · rw [if_neg hw] at hgone ⊢
      exact counted_calm h (.inl (Quiet.refl _)) hle hgone hup (Nat.le_succ _)

/-! ## Every run -/

/-- What holds of the port after every call. -/
structure Kept (c : Config) (vid : UInt16) (p : Nat) (t : Watched) : Prop where
  distinct : t.lpb.Distinct
  counted : Counted c (t.lpb.portOf vid p) (t.lpb.admin p) t.wakes t.waited

theorem init_kept (c : Config) (vid : UInt16) (p : Nat) : Kept c vid p .init :=
  ⟨List.nodup_nil, noPort_counted⟩

variable {t : Watched} {e : Event}

/-- The wake-up of the VLAN, as the port sees it. -/
theorem own_wakeup (hp : p ∈ ports) (he : e.wakesUp vid = true) (s : Lpb) :
    (s.call c e).portOf vid p = (s.portOf vid p).wakeup c ∧
      ((p, PORT_ADMIN_UP) ∈ (s.call c e).commands ↔ (s.portOf vid p).due c) ∧
      (¬ (s.portOf vid p).due c → (s.call c e).admin p = s.admin p) := by
  cases e with
  | wakeup a session v =>
    obtain rfl : v = vid := of_decide_eq_true he
    obtain ⟨hport, hcommand, hadmin⟩ := wakeup_port (c := c) (a := a) (b := session) hp v
      { s with commands := [] } List.not_mem_nil
    refine ⟨hport, hcommand, ?_⟩
    intro hdue
    exact hadmin.trans (if_neg fun h => hdue h.1)
  | _ => cases he

theorem wakeup_kept (hp : p ∈ ports) (hc : c.maxwakeup.toNat ≤ 254 ∨ ¬ c.shutsDown)
    (h : Kept c vid p t) (he : e.wakesUp vid = true) : Kept c vid p (t.step c vid p e) := by
  obtain ⟨hport, hcommand, hadmin⟩ := own_wakeup (c := c) hp he t.lpb
  refine ⟨call_distinct h.distinct e, ?_⟩
  dsimp only [Watched.step]
  rw [if_pos he, if_pos he, hport]
  by_cases hdue : (t.lpb.portOf vid p).due c
  · have hmask : ¬ ((t.lpb.portOf vid p).wakeup c).lpbmask = 0 := by
      obtain ⟨hloud, hwaits, -⟩ := due_iff.mp hdue
      rw [loud_mask hloud]
      exact waits_mask hwaits
    rw [if_neg hmask, if_pos (hcommand.mpr hdue)]
    exact counted_due hc h.counted hdue
  · rw [if_neg (mt hcommand.mp hdue), hadmin hdue]
    refine counted_waiting h.counted hdue ?_ ?_
    · split
      · exact Nat.zero_le _
      · exact le_rfl
    · exact fun hmask => if_pos hmask

theorem other_kept (hp : p ∈ ports) (hc : c.maxwakeup.toNat ≤ 254 ∨ ¬ c.shutsDown)
    (h : Kept c vid p t) (he : e.wakesUp vid = false) (hplace : InPlace c vid p t e) :
    Kept c vid p (t.step c vid p e) := by
  refine ⟨call_distinct h.distinct e, ?_⟩
  have hoff : ¬ e.wakesUp vid = true := by simp [he]
  dsimp only [Watched.step]
  rw [if_neg hoff, if_neg hoff]
  -- the count of wake-ups goes to zero, or stays
  obtain ⟨w, hw⟩ : ∃ w, w = if ((t.lpb.call c e).portOf vid p).lpbmask = 0 then 0
    else if t.lpb.admin p = PORT_ADMIN_DOWN ∧ (t.lpb.call c e).admin p = PORT_ADMIN_UP then 0
    else t.wakes := ⟨_, rfl⟩
  have hle : w ≤ t.wakes := by
    rw [hw]
    split_ifs <;> omega
  have hgone : ((t.lpb.call c e).portOf vid p).lpbmask = 0 → w = 0 := by
    intro hmask
    rw [hw, if_pos hmask]
  have hopen : t.lpb.admin p = PORT_ADMIN_DOWN → (t.lpb.call c e).admin p = PORT_ADMIN_UP →
      w = 0 := by
    intro hd hu
    rw [hw]
    split
    · rfl
    · exact if_pos ⟨hd, hu⟩
  rw [← hw]
  have hcount := h.counted
  cases call_step (c := c) hp h.distinct e he with
  | calm hquiet hdown =>
    have hnot : ¬ (e.detects vid = true ∧ t.lpb.admin p = PORT_ADMIN_UP ∧
        (t.lpb.call c e).admin p = PORT_ADMIN_DOWN) := by
      rintro ⟨hd, hu, hdn⟩
      rw [hdown hd hu] at hdn
      cases hdn
    rw [if_neg hnot]
    exact counted_calm hcount hquiet hle hgone hopen le_rfl
  | shut x hshut hquiet hpolicy hup hdown =>
    rw [hup] at hcount
    refine counted_calm (counted_shut hcount hshut hpolicy) (hquiet.imp_right And.left) hle hgone ?_
      (Nat.zero_le _)
    intro _ hu
    rw [hdown] at hu
    cases hu
  | stray x hstray hshut hquiet hadmin =>
    have hnot : ¬ (e.detects vid = true ∧ t.lpb.admin p = PORT_ADMIN_UP ∧
        (t.lpb.call c e).admin p = PORT_ADMIN_DOWN) := by
      rintro ⟨-, hu, hdn⟩
      rw [hadmin, hu] at hdn
      cases hdn
    have hpolicy : c.shutsDown := by
      cases e with
      | rev => exact hstray.2.2.2.2.2.1
      | _ => cases hstray
    have hsmall : c.maxwakeup.toNat ≤ 254 := hc.resolve_right (not_not.mpr hpolicy)
    rw [if_neg hnot]
    exact counted_calm (counted_stray hcount hshut hsmall hpolicy (hplace hstray)) hquiet hle hgone
      hopen le_rfl

theorem step_kept (hp : p ∈ ports) (hc : c.maxwakeup.toNat ≤ 254 ∨ ¬ c.shutsDown) (t : Watched)
    (e : Event) (h : Kept c vid p t) (hplace : InPlace c vid p t e) :
    Kept c vid p (t.step c vid p e) := by
  cases he : e.wakesUp vid with
  | true => exact wakeup_kept hp hc h he
  | false => exact other_kept hp hc h he hplace

/-- A port whose wake-ups are all used up is stopped when it is shut down again. -/
theorem shut_stops (hc : c.maxwakeup.toNat ≤ 254) {s' : Lpb} (hcount : Counted c x PORT_ADMIN_UP wakes waited)
    (hused : wakes = c.maxwakeup.toNat) (hshut : ShutBy c x x')
    (h : Quiet x' (s'.portOf vid p) ∨ s'.portOf vid p = noPort ∧ x'.lpbmask = 0) :
    ¬ (s'.portOf vid p).wakes c := by
  have hnone : wakes = 0 → ¬ (s'.portOf vid p).wakes c := by
    intro h0 hw
    rw [Port.wakes, ← hused, h0] at hw
    exact absurd hw (Nat.not_lt_zero _)
  cases hshut with
  | again hw _ _ =>
    have hle := hcount.count (wakes_ne hc hw)
    rw [Port.wakes] at hw
    omega
  | restarted h255 _ _ => exact hnone (hcount.stopped h255 rfl)
  | first h0 _ _ =>
    have hle := hcount.count (by rw [h0]; decide)
    rw [h0] at hle
    exact hnone (Nat.le_zero.mp hle)
  | stopped _ hcounter hmask =>
    rcases h with h | ⟨-, hgone⟩
    · intro hw
      exact wakes_ne hc hw (h.counter.trans hcounter)
    · rw [hmask] at hgone
      cases hgone

theorem step_bounded (hp : p ∈ ports) (hc : c.maxwakeup.toNat ≤ 254 ∨ ¬ c.shutsDown) (t : Watched)
    (e : Event) (h : Kept c vid p t) : Bounded c vid p t e := by
  refine ⟨?_, ?_, ?_⟩
  · intro he hopened
    obtain ⟨-, hcommand, -⟩ := own_wakeup (c := c) hp he t.lpb
    obtain ⟨hwakes, hwaited, -⟩ := due_bounded hc h.counted (hcommand.mp hopened)
    exact ⟨hwakes, hwaited⟩
  · intro hd hup hdown hused
    have he : e.wakesUp vid = false := by
      cases e with
      | wakeup => cases hd
      | _ => rfl
    have hcount := h.counted
    rw [hup] at hcount
    cases call_step (c := c) hp h.distinct e he with
    | calm _ hno =>
      rw [hno hd hup] at hdown
      cases hdown
    | shut x hshut hquiet hpolicy _ _ =>
      exact shut_stops (hc.resolve_right (not_not.mpr hpolicy)) hcount hused hshut hquiet
    | stray x _ _ _ hadmin =>
      rw [hadmin, hup] at hdown
      cases hdown
  · intro hanyway hdown hused
    cases he : e.wakesUp vid with
    | false => exact call_down hdown e he hanyway
    | true =>
      obtain ⟨-, -, hsame⟩ := own_wakeup (c := c) hp he t.lpb
      rw [hsame, hdown]
      intro hdue
      obtain ⟨hwakes, -⟩ := due_bounded hc h.counted hdue
      omega

theorem wakeups_bounded (hp : p ∈ ports) (hc : c.maxwakeup.toNat ≤ 254 ∨ ¬ c.shutsDown)
    {es : List Event} (h : Along (Watched.step c vid p) (InPlace c vid p) .init es) :
    Along (Watched.step c vid p) (Bounded c vid p) .init es :=
  along_imp (step_kept hp hc) (fun t e hkept _ => step_bounded hp hc t e hkept)
    (init_kept c vid p) h

end

end gwdonu.gwd_eth_loop_detect
