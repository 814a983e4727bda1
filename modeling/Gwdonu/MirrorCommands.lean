-- The commands that say which ports are mirrored, and to which port: what they show is what they
-- made, there is one port at most to mirror to, and the management port takes no part.
import Gwdonu.Lib.Edits
import Gwdonu.SwitchSettings

namespace gwdonu.mirror_commands

open Function calls edits rcp_registers register_fields runs switch_settings
open rcp (RCP_RET)
open vlan_cli (Rcp_Get_MGT_Port atoi unsignedShort)
open vlans (ports)

/-! ## The program -/

inductive Direction where
  | ingress
  | egress
  deriving DecidableEq

/-- How a command ends: what it prints, or `done` when that is nothing. A table has a port for its
third column, or no such column. -/
inductive Reply where
  | done
  | tooShort
  | onlyOne
  | portError
  | management (ulPort : Nat)
  | already (ulPort : Nat)
  | table (mirrorPort : Option Nat) (rows : List (Nat × Direction))
  | failed (ret : RCP_RET)
  deriving DecidableEq

def Reply.isFailed : Reply → Bool
  | failed _ => true
  | _ => false

/-- A call that fails ends the command. -/
def command (x : Rcp Reply) : Rcp Reply := fun s =>
  match x s with
  | .ok reply t => .ok reply t
  | .error ret t => .ok (.failed ret) t

/-- The loop that looks for a port that frames are mirrored to. -/
def seek : List Nat → Rcp Bool
  | [] => return false
  | port :: rest => do
    let exit ← RCP_GetMirrorPort 1 port
    if exit = 1 then return true else seek rest

/-- The loop over the list of ports; a word that is no word leaves the port as it is. -/
def mirrorTo (mgtPort : Nat) (word : String) : Nat → List Nat → Rcp Reply
  | _, [] => return .done
  | portonly, ulPort :: rest => do
    let s ← get
    if portonly + 1 > 1 then return .onlyOne
    else if ulPort > s.dev.numOfPorts then return .portError
    else if ulPort = mgtPort then return .management ulPort
    else if word = "enable" then do
      let exit ← seek (ports s.dev.numOfPorts)
      if exit then return .already ulPort
      else do
        RCP_SetMirrorPort 1 ulPort 1 .RCP_CONFIG_2_REGISTER
        mirrorTo mgtPort word (portonly + 1) rest
    else if word = "disable" then do
      RCP_SetMirrorPort 1 ulPort 0 .RCP_CONFIG_2_REGISTER
      mirrorTo mgtPort word (portonly + 1) rest
    else mirrorTo mgtPort word (portonly + 1) rest

/-- `portList` is what `ETH_ParsePortList` makes of the first argument, and ends at a 0. -/
def cli_int_port_mirror_to (argv : List String) (portList : List Nat) : Rcp Reply := command do
  let mgtPort ← Rcp_Get_MGT_Port
  match argv with
  | _ :: word :: _ => mirrorTo mgtPort word 0 (portList.takeWhile (· ≠ 0))
  | _ => return .tooShort

def mirrorFrom (way : String) (enable : BitVec 16) : List Nat → Rcp Reply
  | [] => return .done
  | ulPort :: rest => do
    let s ← get
    if ulPort > s.dev.numOfPorts then return .portError
    else do
      when (way = "i" ∨ way = "a") (RCP_SetMirrorRxPort 1 ulPort enable .RCP_CONFIG_2_REGISTER)
      when (way = "e" ∨ way = "a") (RCP_SetMirrorTxPort 1 ulPort enable .RCP_CONFIG_2_REGISTER)
      mirrorFrom way enable rest

/-- The lines of a port. -/
def lines (port : Nat) (rx tx : Bool) : List (Nat × Direction) :=
  (if rx then [(port, .ingress)] else []) ++ if tx then [(port, .egress)] else []

/-- The two loops over all ports, the one that reads and the one that prints. -/
def sources : List Nat → List (Nat × Direction) → Rcp Reply
  | [], rows => return .table none rows
  | i :: rest, rows => do
    let mirrorRx ← RCP_GetMirrorRxPort 1 i
    let mirrorTx ← RCP_GetMirrorTxPort 1 i
    sources rest (rows ++ lines i (mirrorRx = 1) (mirrorTx = 1))

/-- `portList` is what `ETH_ParsePortList` makes of the second argument, and ends at a 0. -/
def cli_int_port_mirror_from (argv : List String) (portList : List Nat) : Rcp Reply := command <|
  match argv with
  | [_] | [_, _] => return .tooShort
  | [way, _, arg] => do
    let mgtPort ← Rcp_Get_MGT_Port
    if mgtPort ∈ portList.takeWhile (· ≠ 0) then return .management mgtPort
    else mirrorFrom way (unsignedShort (atoi arg.toList)) (portList.takeWhile (· ≠ 0))
  | _ => do
    let s ← get
    sources (ports s.dev.numOfPorts) []

def showAll : List Nat → Nat → List (Nat × Direction) → Rcp Reply
  | [], mirrorPort, rows => return .table (some mirrorPort) rows
  | ulPort :: rest, mirrorPort, rows => do
    let mirrorRx ← RCP_GetMirrorRxPort 1 ulPort
    let mirrorTx ← RCP_GetMirrorTxPort 1 ulPort
    let mirrorData ← RCP_GetMirrorPort 1 ulPort
    showAll rest (if mirrorData = 1 then ulPort else mirrorPort) (rows ++ lines ulPort (mirrorRx = 1) (mirrorTx = 1))

def cli_int_port_mirror_show : Rcp Reply := command do
  let s ← get
  showAll (ports s.dev.numOfPorts) 0 []

inductive Command where
  | mirror_to (argv : List String) (portList : List Nat)
  | mirror_from (argv : List String) (portList : List Nat)
  | mirror_show

def Command.exec : Command → Rcp Reply
  | mirror_to argv portList => cli_int_port_mirror_to argv portList
  | mirror_from argv portList => cli_int_port_mirror_from argv portList
  | mirror_show => cli_int_port_mirror_show

/-- No command fails itself: it says that it failed. -/
def step (s : State) (cmd : Command) : State × Option Reply :=
  match cmd.exec s with
  | .ok reply t => (t, some reply)
  | .error _ t => (t, none)

/-! ## What the commands are for -/

/-- What a port can be: the one that frames are mirrored to, or one whose frames are mirrored. -/
inductive Mark where
  | dest
  | rx
  | tx
  deriving DecidableEq

abbrev Board := Mark → Nat → Bool

/-- A mark is put on a port, or taken off. -/
structure Edit where
  mark : Mark
  port : Nat
  value : Bool
  deriving DecidableEq

def Board.edit (b : Board) (e : Edit) : Board := update b e.mark (update (b e.mark) e.port e.value)

/-- What a command is to change, one after the other, and to answer. -/
structure Plan where
  edits : List Edit
  reply : Reply

namespace Board

variable (b : Board) (n : Nat)

def planTo (mgtPort : Nat) (word : String) : List Nat → Plan
  | [] => ⟨[], .done⟩
  | ulPort :: rest =>
    if ulPort > n then ⟨[], .portError⟩
    else if ulPort = mgtPort then ⟨[], .management ulPort⟩
    else
      let reply := if rest = [] then .done else .onlyOne
      if word = "enable" then
        if (ports n).any (b .dest) then ⟨[], .already ulPort⟩ else ⟨[⟨.dest, ulPort, true⟩], reply⟩
      else if word = "disable" then ⟨[⟨.dest, ulPort, false⟩], reply⟩
      else ⟨[], reply⟩

def editsFrom (way : String) (value : Bool) (ulPort : Nat) : List Edit :=
  (if way = "i" ∨ way = "a" then [⟨.rx, ulPort, value⟩] else []) ++
    if way = "e" ∨ way = "a" then [⟨.tx, ulPort, value⟩] else []

/-- Up to the first port that there is not. -/
def planFrom (way : String) (value : Bool) (portList : List Nat) : Plan where
  edits := (portList.takeWhile (· ≤ n)).flatMap (editsFrom way value)
  reply := if portList.all (· ≤ n) then .done else .portError

def rows : List (Nat × Direction) := (ports n).flatMap fun port => lines port (b .rx port) (b .tx port)

/-- The last one, if there is one. -/
def target : Nat := ((ports n).filter (b .dest)).getLast?.getD 0

def plan (dev : RCP_DEV) : Command → Plan
  | .mirror_to argv portList =>
    if dev.upLinkPort > dev.numOfPorts then ⟨[], .failed .RCP_BAD_VALUE⟩
    else
      match argv with
      | _ :: word :: _ =>
        b.planTo dev.numOfPorts (RCPPort2LPort dev dev.upLinkPort) word (portList.takeWhile (· ≠ 0))
      | _ => ⟨[], .tooShort⟩
  | .mirror_from argv portList =>
    match argv with
    | [_] | [_, _] => ⟨[], .tooShort⟩
    | [way, _, arg] =>
      if dev.upLinkPort > dev.numOfPorts then ⟨[], .failed .RCP_BAD_VALUE⟩
      else if RCPPort2LPort dev dev.upLinkPort ∈ portList.takeWhile (· ≠ 0) then
        ⟨[], .management (RCPPort2LPort dev dev.upLinkPort)⟩
      else planFrom dev.numOfPorts way ((unsignedShort (atoi arg.toList)).getLsbD 0) (portList.takeWhile (· ≠ 0))
    | _ => ⟨[], .table none (b.rows dev.numOfPorts)⟩
  | .mirror_show => ⟨[], .table (some (b.target dev.numOfPorts)) (b.rows dev.numOfPorts)⟩

end Board

def Mark.accessor : Mark → Accessor
  | dest => .MirrorPort
  | rx => .MirrorRxPort
  | tx => .MirrorTxPort

def Mark.setting (m : Mark) (port : Nat) : Setting := .port m.accessor (port - 1)

/-- The marks on the ports of a switch. -/
def Board.of (s : State) : Board := fun m port =>
  decide (1 ≤ port ∧ port ≤ s.dev.numOfPorts) && (field s.reg (m.setting port) == 1)

/-- The switch does not change but for its marks, and a write can fail where one of them does. -/
def frame (dev : RCP_DEV) (writeFails : Nat → Nat → Bool) : Frame State Board Edit where
  I s := s.dev = dev ∧ s.writeFails = writeFails
  view := Board.of
  edit := Board.edit
  mayFail := ∃ n a, writeFails n a = true

/-! ## The marks -/

def marks : List Mark := [.dest, .rx, .tx]

theorem marks_checked : ∀ m ∈ marks, ∀ m' ∈ marks, ∀ i ∈ List.range 32, ∀ i' ∈ List.range 32, (m, i) ≠ (m', i') →
    m.accessor.addr i = m'.accessor.addr i' → m.accessor.pos i ≠ m'.accessor.pos i' := by
  decide +kernel

theorem marks_fit : ∀ m ∈ marks, ∀ i ∈ List.range 32, m.accessor.pos i + 1 ≤ 16 := by
  decide +kernel

section
variable {s : State} {m m' : Mark} {i i' port n : Nat} {data : BitVec 16} {dev : RCP_DEV}
  {writeFails : Nat → Nat → Bool} {mgtPort : Nat} {word way : String} {l : List Nat}

theorem mem_marks (m : Mark) : m ∈ marks := by cases m <;> decide

theorem len_eq (m : Mark) : m.accessor.len = 1 := by cases m <;> rfl

theorem numOfPorts_le (d : RCP_DEVICE_ID) : d.numOfPorts ≤ 32 := by cases d <;> decide

theorem mark_apart (hi : i < 32) (hi' : i' < 32) (hne : (m, i) ≠ (m', i')) :
    (Setting.port m.accessor i).Apart (.port m'.accessor i') := by
  intro haddr k _ hlo hhi hin
  have hpos := marks_checked m (mem_marks m) m' (mem_marks m') i (List.mem_range.mpr hi) i' (List.mem_range.mpr hi')
    hne haddr
  have hlen := len_eq m
  have hlen' := len_eq m'
  change m.accessor.pos i ≤ k at hlo
  change k < m.accessor.pos i + m.accessor.len at hhi
  change m'.accessor.pos i' ≤ k ∧ k < m'.accessor.pos i' + m'.accessor.len at hin
  omega

/-- A write to the bit of a port is the edit of its mark. -/
theorem of_put (hi : i < s.dev.numOfPorts) : Board.of (s.put (m.accessor.addr i)
    (fields.put (s.reg (m.accessor.addr i)) data (m.accessor.pos i) m.accessor.len)) =
      (Board.of s).edit ⟨m, i + 1, data.getLsbD 0⟩ := by
  have hn : s.dev.numOfPorts ≤ 32 := numOfPorts_le _
  have hfit := marks_fit m (mem_marks m) i (List.mem_range.mpr (by omega))
  have hwritten : field (update s.reg (m.accessor.addr i) (fields.put (s.reg (m.accessor.addr i)) data
      (m.accessor.pos i) m.accessor.len)) (.port m.accessor i) = low m.accessor.len data :=
    field_written (by change m.accessor.pos i + m.accessor.len ≤ 16; rw [len_eq]; exact hfit)
  funext m' port
  by_cases hport : 1 ≤ port ∧ port ≤ s.dev.numOfPorts
  · obtain ⟨i', rfl⟩ : ∃ i', port = i' + 1 := ⟨port - 1, by omega⟩
    by_cases hsame : (m, i) = (m', i')
    · obtain ⟨rfl, rfl⟩ := Prod.mk.inj hsame
      rw [Board.edit, update_self, update_self, ← low_one_eq]
      change (decide (1 ≤ i + 1 ∧ i + 1 ≤ s.dev.numOfPorts) && (field _ (.port m.accessor i) == 1)) = _
      rw [decide_eq_true hport, Bool.true_and]
      exact congrArg (· == 1) (hwritten.trans (by rw [len_eq]))
    · have hother : (Board.of s).edit ⟨m, i + 1, data.getLsbD 0⟩ m' (i' + 1) = Board.of s m' (i' + 1) := by
        unfold Board.edit
        by_cases hm : m' = m
        · subst hm
          rw [update_self, update_of_ne]
          rintro he
          exact hsame (by rw [Nat.add_right_cancel he])
        · rw [update_of_ne hm]
      rw [hother]
      change (_ && (field _ (.port m'.accessor i') == 1)) = (_ && (field s.reg (.port m'.accessor i') == 1))
      have hi' : i' < 32 := by have hlt := hport.2; omega
      exact congrArg (fun v => _ && (v == 1)) (field_apart (mark_apart (by omega) hi' hsame))
  · have hother : (Board.of s).edit ⟨m, i + 1, data.getLsbD 0⟩ m' port = Board.of s m' port := by
      unfold Board.edit
      by_cases hm : m' = m
      · subst hm
        rw [update_self, update_of_ne]
        rintro rfl
        exact hport ⟨Nat.le_add_left 1 i, hi⟩
      · rw [update_of_ne hm]
    rw [hother]
    change (decide (1 ≤ port ∧ port ≤ s.dev.numOfPorts) && _) = (decide (1 ≤ port ∧ port ≤ s.dev.numOfPorts) && _)
    rw [decide_eq_false hport]
    rfl

/-! ## The calls -/

theorem makes_set (m : Mark) (hport : 1 ≤ port ∧ port ≤ dev.numOfPorts) :
    (frame dev writeFails).Makes (m.accessor.Set 1 port data .RCP_CONFIG_2_REGISTER) s [⟨m, port, data.getLsbD 0⟩]
      fun _ => True := by
  obtain ⟨i, rfl⟩ : ∃ i, port = i + 1 := ⟨port - 1, by omega⟩
  refine Frame.makes_edit ?_
  rintro ⟨rfl, rfl⟩
  have hi : i < s.dev.numOfPorts := hport.2
  rw [m.accessor.Set_eq, portSet, meets_bind, meets_lPort2Port ⟨by omega, hi⟩, meets_setRegField,
    meets_setRegisterField, meets_write]
  split_ifs with hfails
  · exact ⟨⟨_, _, hfails⟩, ⟨rfl, rfl⟩, rfl⟩
  · exact ⟨trivial, ⟨rfl, rfl⟩, of_put hi⟩

theorem makes_get (m : Mark) (hport : 1 ≤ port ∧ port ≤ dev.numOfPorts) :
    (frame dev writeFails).Makes (m.accessor.Get 1 port) s [] fun data => decide (data = 1) = Board.of s m port := by
  obtain ⟨i, rfl⟩ : ∃ i, port = i + 1 := ⟨port - 1, by omega⟩
  refine Frame.makes_read ?_
  rintro ⟨rfl, rfl⟩
  rw [Gives, register_fields.meets_Get hport.2]
  refine ⟨?_, ⟨rfl, rfl⟩, rfl⟩
  rw [Board.of, decide_eq_true hport, Bool.true_and]
  rfl

theorem makes_when {p : Prop} [Decidable p] {x : Rcp Unit} {es : List Edit}
    (h : (frame dev writeFails).Makes x s es fun _ => True) :
    (frame dev writeFails).Makes (when p x) s (if p then es else []) fun _ => True := by
  by_cases hp : p
  · rw [when, if_pos hp, if_pos hp]
    exact h
  · rw [when, if_neg hp, if_neg hp]
    exact Frame.makes_pure trivial

theorem makes_seek (hl : ∀ port ∈ l, 1 ≤ port ∧ port ≤ dev.numOfPorts) :
    (frame dev writeFails).Makes (seek l) s [] fun exit => exit = l.any (Board.of s .dest) := by
  induction l generalizing s with
  | nil => exact Frame.makes_pure rfl
  | cons port rest ih =>
    obtain ⟨hport, hrest⟩ := List.forall_mem_cons.mp hl
    refine Frame.Makes.bind (makes_get .dest hport) fun exit t hexit hview => ?_
    rw [List.any_cons, ← hexit]
    by_cases h : exit = 1
    · rw [if_pos h, decide_eq_true h]
      exact Frame.makes_pure rfl
    · rw [if_neg h, decide_eq_false h, Bool.false_or]
      have hsame : Board.of t = Board.of s := hview
      exact hsame ▸ ih hrest

theorem in_ports {port n : Nat} (h : port ∈ ports n) : 1 ≤ port ∧ port ≤ n := by
  have hmem := List.mem_range'_1.mp h
  omega

/-- Behind the first port of the list. -/
theorem makes_mirrorTo_rest (rest : List Nat) : (frame dev writeFails).Makes (mirrorTo mgtPort word 1 rest) s []
    (· = if rest = [] then .done else .onlyOne) := by
  cases rest with
  | nil => exact Frame.makes_pure rfl
  | cons ulPort rest =>
    refine Frame.makes_get fun _ => ?_
    exact Frame.makes_pure rfl

theorem makes_mirrorTo (hl : ∀ port ∈ l, 1 ≤ port) : (frame dev writeFails).Makes (mirrorTo mgtPort word 0 l) s
    ((Board.of s).planTo dev.numOfPorts mgtPort word l).edits
    (· = ((Board.of s).planTo dev.numOfPorts mgtPort word l).reply) := by
  cases l with
  | nil => exact Frame.makes_pure rfl
  | cons ulPort rest =>
    rw [mirrorTo]
    refine Frame.makes_get fun hI => ?_
    rw [if_neg (by decide), hI.1, Board.planTo]
    by_cases hout : ulPort > dev.numOfPorts
    · rw [if_pos hout, if_pos hout]
      exact Frame.makes_pure rfl
    · have hport : 1 ≤ ulPort ∧ ulPort ≤ dev.numOfPorts := ⟨hl _ List.mem_cons_self, by omega⟩
      have hset (data : BitVec 16) (s : State) : (frame dev writeFails).Makes (do
          RCP_SetMirrorPort 1 ulPort data .RCP_CONFIG_2_REGISTER
          mirrorTo mgtPort word (0 + 1) rest) s [⟨.dest, ulPort, data.getLsbD 0⟩]
          (· = if rest = [] then .done else .onlyOne) :=
        Frame.Makes.bind (makes_set .dest hport) fun _ _ _ _ => makes_mirrorTo_rest rest
      rw [if_neg hout, if_neg hout]
      by_cases hmgt : ulPort = mgtPort
      · rw [if_pos hmgt, if_pos hmgt]
        exact Frame.makes_pure rfl
      · rw [if_neg hmgt, if_neg hmgt]
        dsimp only
        by_cases henable : word = "enable"
        · rw [if_pos henable, if_pos henable]
          have hseek : (frame dev writeFails).Makes (seek (ports dev.numOfPorts)) s [] fun exit =>
              exit = (ports dev.numOfPorts).any (Board.of s .dest) := makes_seek fun _ h => in_ports h
          by_cases hany : (ports dev.numOfPorts).any (Board.of s .dest) = true
          · rw [if_pos hany]
            refine hseek.bind fun exit t hexit hview => ?_
            rw [if_pos (hexit.trans hany)]
            exact Frame.makes_pure rfl
          · rw [if_neg hany]
            refine hseek.bind fun exit t hexit hview => ?_
            rw [if_neg fun h => hany (hexit.symm.trans h)]
            exact hset 1 t
        · rw [if_neg henable, if_neg henable]
          by_cases hdisable : word = "disable"
          · rw [if_pos hdisable, if_pos hdisable]
            exact hset 0 s
          · rw [if_neg hdisable, if_neg hdisable]
            exact makes_mirrorTo_rest rest

theorem makes_mirrorFrom {enable : BitVec 16} (hl : ∀ port ∈ l, 1 ≤ port) :
    (frame dev writeFails).Makes (mirrorFrom way enable l) s
      (Board.planFrom dev.numOfPorts way (enable.getLsbD 0) l).edits
      (· = (Board.planFrom dev.numOfPorts way (enable.getLsbD 0) l).reply) := by
  induction l generalizing s with
  | nil => exact Frame.makes_pure rfl
  | cons ulPort rest ih =>
    obtain ⟨hlo, hrest⟩ := List.forall_mem_cons.mp hl
    rw [mirrorFrom]
    refine Frame.makes_get fun hI => ?_
    rw [hI.1, Board.planFrom, List.takeWhile_cons, List.all_cons]
    by_cases hout : ulPort > dev.numOfPorts
    · have hnot : decide (ulPort ≤ dev.numOfPorts) = false := decide_eq_false (by omega)
      rw [if_pos hout, hnot]
      exact Frame.makes_pure rfl
    · have hin : decide (ulPort ≤ dev.numOfPorts) = true := decide_eq_true (by omega)
      rw [if_neg hout, hin, if_pos rfl, Bool.true_and, List.flatMap_cons, Board.editsFrom, List.append_assoc]
      refine (makes_when (makes_set .rx ⟨hlo, by omega⟩)).bind fun _ t _ _ => ?_
      refine (makes_when (makes_set .tx ⟨hlo, by omega⟩)).bind fun _ u _ _ => ?_
      exact ih hrest

theorem makes_sources (hl : ∀ port ∈ l, 1 ≤ port ∧ port ≤ dev.numOfPorts) (rows : List (Nat × Direction)) :
    (frame dev writeFails).Makes (sources l rows) s []
      (· = .table none (rows ++ l.flatMap fun port => lines port (Board.of s .rx port) (Board.of s .tx port))) := by
  induction l generalizing s rows with
  | nil => exact Frame.makes_pure (by rw [List.flatMap_nil, List.append_nil])
  | cons port rest ih =>
    obtain ⟨hport, hrest⟩ := List.forall_mem_cons.mp hl
    refine (makes_get .rx hport).bind fun mirrorRx t hrx ht => ?_
    refine (makes_get .tx hport).bind fun mirrorTx u htx hu => ?_
    have ht : Board.of t = Board.of s := ht
    have hu : Board.of u = Board.of s := hu.trans ht
    rw [ht] at htx
    rw [List.flatMap_cons, ← List.append_assoc, hrx, htx, ← hu]
    exact ih hrest _

theorem makes_showAll (hl : ∀ port ∈ l, 1 ≤ port ∧ port ≤ dev.numOfPorts) (mirrorPort : Nat)
    (rows : List (Nat × Direction)) : (frame dev writeFails).Makes (showAll l mirrorPort rows) s []
      (· = .table (some ((l.filter (Board.of s .dest)).getLast?.getD mirrorPort))
        (rows ++ l.flatMap fun port => lines port (Board.of s .rx port) (Board.of s .tx port))) := by
  induction l generalizing s mirrorPort rows with
  | nil => exact Frame.makes_pure (by rw [List.flatMap_nil, List.append_nil]; rfl)
  | cons port rest ih =>
    obtain ⟨hport, hrest⟩ := List.forall_mem_cons.mp hl
    refine (makes_get .rx hport).bind fun mirrorRx t hrx ht => ?_
    refine (makes_get .tx hport).bind fun mirrorTx u htx hu => ?_
    refine (makes_get .dest hport).bind fun mirrorData v hdest hv => ?_
    have ht : Board.of t = Board.of s := ht
    have hu : Board.of u = Board.of s := hu.trans ht
    have hv : Board.of v = Board.of s := hv.trans hu
    rw [ht] at htx
    rw [hu] at hdest
    have htarget : ((port :: rest).filter (Board.of s .dest)).getLast?.getD mirrorPort =
        (rest.filter (Board.of s .dest)).getLast?.getD (if mirrorData = 1 then port else mirrorPort) := by
      rw [List.filter_cons, ← hdest]
      by_cases h : mirrorData = 1
      · rw [if_pos (decide_eq_true h), if_pos h, List.getLast?_cons, Option.getD_some]
      · rw [if_neg (by rw [decide_eq_false h]; exact Bool.false_ne_true), if_neg h]
    rw [htarget, List.flatMap_cons, ← List.append_assoc, hrx, htx, ← hv]
    exact ih hrest _ _

end

/-! ## The commands -/

/-- The marks behind some edits. -/
def Board.apply (b : Board) (es : List Edit) : Board := es.foldl Board.edit b

/-- A command ends as planned, or says that it failed and has made the edits before the one that did. -/
def Ends (s : State) (plan : Plan) (reply : Reply) (t : State) : Prop :=
  t.dev = s.dev ∧ t.writeFails = s.writeFails ∧ (reply = plan.reply ∧ Board.of t = (Board.of s).apply plan.edits ∨
    ¬ s.Faithful ∧ reply.isFailed ∧ ∃ k < plan.edits.length, Board.of t = (Board.of s).apply (plan.edits.take k))

section
variable {s : State} {E : RCP_RET → State → Prop} {x : Rcp Reply} {Q : Reply → State → Prop}

theorem meets_command : Meets (command x) s Q E ↔ Meets x s Q fun ret t => Q (.failed ret) t := by
  unfold Meets command
  cases x s <;> rfl

theorem meets_plan {plan : Plan} (h : (frame s.dev s.writeFails).Makes x s plan.edits (· = plan.reply)) :
    Meets (command x) s (Ends s plan) E := by
  rw [meets_command]
  refine (h ⟨rfl, rfl⟩).imp ?_ ?_
  · rintro reply t ⟨hreply, ⟨hdev, hfails⟩, hview⟩
    exact ⟨hdev, hfails, .inl ⟨hreply, hview⟩⟩
  · rintro ret t ⟨⟨n, a, hfail⟩, ⟨hdev, hfails⟩, hview⟩
    refine ⟨hdev, hfails, .inr ⟨fun hs => ?_, rfl, hview⟩⟩
    rw [hs a n] at hfail
    cases hfail

theorem meets_mgt {f : Nat → Rcp Reply} :
    Meets (do let mgtPort ← Rcp_Get_MGT_Port; f mgtPort) s Q (fun ret t => Q (.failed ret) t) ↔
    if s.dev.upLinkPort > s.dev.numOfPorts then Q (.failed .RCP_BAD_VALUE) s
    else Meets (f (RCPPort2LPort s.dev s.dev.upLinkPort)) s Q fun ret t => Q (.failed ret) t := by
  rw [meets_bind, Rcp_Get_MGT_Port, meets_bind, meets_get]
  split_ifs <;> exact Iff.rfl

theorem nonzero_pos {l : List Nat} : ∀ port ∈ l.takeWhile (· ≠ 0), 1 ≤ port := by
  intro port hport
  have hne : decide (port ≠ 0) = true := List.all_eq_true.mp List.all_takeWhile port hport
  exact Nat.pos_of_ne_zero (of_decide_eq_true hne)

/-- A command that does nothing but what it answers. -/
theorem ends_as_it_was (reply : Reply) : Ends s ⟨[], reply⟩ reply s := ⟨rfl, rfl, .inl ⟨rfl, rfl⟩⟩

theorem meets_exec (cmd : Command) : Meets cmd.exec s (Ends s ((Board.of s).plan s.dev cmd)) E := by
  cases cmd with
  | mirror_to argv portList =>
    change Meets (command _) s (Ends s (if _ then _ else _)) E
    rw [meets_command, meets_mgt]
    by_cases hup : s.dev.upLinkPort > s.dev.numOfPorts
    · rw [if_pos hup, if_pos hup]
      exact ends_as_it_was _
    · rw [if_neg hup, if_neg hup]
      match argv with
      | [] => exact ends_as_it_was _
      | [_] => exact ends_as_it_was _
      | _ :: word :: _ => exact meets_command.mp (meets_plan (E := E) (makes_mirrorTo nonzero_pos))
  | mirror_from argv portList =>
    have hsources : Meets (command do let s ← get; sources (ports s.dev.numOfPorts) []) s
        (Ends s ⟨[], .table none ((Board.of s).rows s.dev.numOfPorts)⟩) E := by
      refine meets_plan (Frame.makes_get fun _ => ?_)
      exact makes_sources (fun _ h => in_ports h) []
    match argv with
    | [] => exact hsources
    | [_] => exact ends_as_it_was _
    | [_, _] => exact ends_as_it_was _
    | [way, _, arg] =>
      change Meets (command _) s (Ends s (if _ then _ else if _ then _ else _)) E
      rw [meets_command, meets_mgt]
      by_cases hup : s.dev.upLinkPort > s.dev.numOfPorts
      · rw [if_pos hup, if_pos hup]
        exact ends_as_it_was _
      · rw [if_neg hup, if_neg hup]
        by_cases hmgt : RCPPort2LPort s.dev s.dev.upLinkPort ∈ portList.takeWhile (· ≠ 0)
        · rw [if_pos hmgt, if_pos hmgt]
          exact ends_as_it_was _
        · rw [if_neg hmgt, if_neg hmgt]
          exact meets_command.mp (meets_plan (E := E) (makes_mirrorFrom nonzero_pos))
    | _ :: _ :: _ :: _ :: _ => exact hsources
  | mirror_show =>
    refine meets_plan (Frame.makes_get fun _ => ?_)
    exact makes_showAll (fun _ h => in_ports h) 0 []

theorem step_ends (s : State) (cmd : Command) : ∃ reply, (step s cmd).2 = some reply ∧
    Ends s ((Board.of s).plan s.dev cmd) reply (step s cmd).1 := by
  have hexec : Meets cmd.exec s _ fun _ _ => False := meets_exec cmd
  unfold Meets at hexec
  unfold step
  split at hexec
  · rename_i heq
    rw [heq]
    exact ⟨_, rfl, hexec⟩
  · exact hexec.elim

end

/-! ## Sessions -/

/-- There is one port at most that frames are mirrored to. -/
def Board.AtMostOne (b : Board) : Prop := ∀ p q, b .dest p = true → b .dest q = true → p = q

/-- No edit of a plan is for the management port, and one that makes a port the one to mirror to is
the only one, and there is no such port yet. -/
structure Plan.Safe (p : Plan) (b : Board) (dev : RCP_DEV) : Prop where
  mgt : ∀ e ∈ p.edits, e.port ≠ RCPPort2LPort dev dev.upLinkPort
  dest : (∀ e ∈ p.edits, e.mark ≠ .dest) ∨
    ∃ port value, p.edits = [⟨.dest, port, value⟩] ∧ (value = true → ∀ q, b .dest q = false)

section
variable {b : Board} {dev : RCP_DEV} {word way : String} {l : List Nat} {e : Edit} {es : List Edit}

theorem safe_nil {reply : Reply} : Plan.Safe ⟨[], reply⟩ b dev :=
  ⟨fun _ he => absurd he List.not_mem_nil, .inl fun _ he => absurd he List.not_mem_nil⟩

/-- The marks are on ports of the device. -/
def Board.Inside (b : Board) (n : Nat) : Prop := ∀ m port, b m port = true → port ∈ ports n

theorem inside_of (s : State) : (Board.of s).Inside s.dev.numOfPorts := by
  intro m port h
  have hport := of_decide_eq_true (Bool.and_eq_true_iff.mp h).1
  exact List.mem_range'_1.mpr (by omega)

theorem safe_planTo (hb : b.Inside dev.numOfPorts) :
    (b.planTo dev.numOfPorts (RCPPort2LPort dev dev.upLinkPort) word l).Safe b dev := by
  cases l with
  | nil => exact safe_nil
  | cons ulPort rest =>
    rw [Board.planTo]
    by_cases hout : ulPort > dev.numOfPorts
    · rw [if_pos hout]
      exact safe_nil
    · by_cases hmgt : ulPort = RCPPort2LPort dev dev.upLinkPort
      · rw [if_neg hout, if_pos hmgt]
        exact safe_nil
      · rw [if_neg hout, if_neg hmgt]
        have hsafe (value : Bool) (reply : Reply) (hvalue : value = true → ∀ q, b .dest q = false) :
            Plan.Safe ⟨[⟨.dest, ulPort, value⟩], reply⟩ b dev := by
          refine ⟨fun e he => ?_, .inr ⟨_, _, rfl, hvalue⟩⟩
          rw [List.mem_singleton.mp he]
          exact hmgt
        dsimp only
        by_cases henable : word = "enable"
        · rw [if_pos henable]
          by_cases hany : (ports dev.numOfPorts).any (b .dest) = true
          · rw [if_pos hany]
            exact safe_nil
          · rw [if_neg hany]
            refine hsafe _ _ fun _ q => Bool.eq_false_iff.mpr fun hq => hany ?_
            exact List.any_eq_true.mpr ⟨q, hb _ _ hq, hq⟩
        · rw [if_neg henable]
          by_cases hdisable : word = "disable"
          · rw [if_pos hdisable]
            exact hsafe _ _ nofun
          · rw [if_neg hdisable]
            exact safe_nil

theorem of_editsFrom {value : Bool} {ulPort : Nat} (he : e ∈ Board.editsFrom way value ulPort) :
    e.port = ulPort ∧ e.mark ≠ .dest := by
  unfold Board.editsFrom at he
  rcases List.mem_append.mp he with he | he
  · split_ifs at he
    · rw [List.mem_singleton.mp he]
      exact ⟨rfl, nofun⟩
    · cases he
  · split_ifs at he
    · rw [List.mem_singleton.mp he]
      exact ⟨rfl, nofun⟩
    · cases he

theorem safe_planFrom {value : Bool} (hmgt : RCPPort2LPort dev dev.upLinkPort ∉ l) :
    (Board.planFrom dev.numOfPorts way value l).Safe b dev := by
  have hmem (e) (he : e ∈ (Board.planFrom dev.numOfPorts way value l).edits) : e.port ∈ l ∧ e.mark ≠ .dest := by
    obtain ⟨ulPort, hport, he⟩ := List.mem_flatMap.mp he
    obtain ⟨rfl, hmark⟩ := of_editsFrom he
    exact ⟨(List.takeWhile_sublist _).mem hport, hmark⟩
  exact ⟨fun e he heq => hmgt (heq ▸ (hmem e he).1), .inl fun e he => (hmem e he).2⟩

theorem safe_plan (hb : b.Inside dev.numOfPorts) (cmd : Command) : (b.plan dev cmd).Safe b dev := by
  cases cmd with
  | mirror_to argv portList =>
    change Plan.Safe (if _ then _ else _) b dev
    by_cases hup : dev.upLinkPort > dev.numOfPorts
    · rw [if_pos hup]
      exact safe_nil
    · rw [if_neg hup]
      match argv with
      | [] => exact safe_nil
      | [_] => exact safe_nil
      | _ :: _ :: _ => exact safe_planTo hb
  | mirror_from argv portList =>
    match argv with
    | [] => exact safe_nil
    | [_] => exact safe_nil
    | [_, _] => exact safe_nil
    | [way, _, arg] =>
      change Plan.Safe (if _ then _ else if _ then _ else _) b dev
      by_cases hup : dev.upLinkPort > dev.numOfPorts
      · rw [if_pos hup]
        exact safe_nil
      · rw [if_neg hup]
        by_cases hmgt : RCPPort2LPort dev dev.upLinkPort ∈ portList.takeWhile (· ≠ 0)
        · rw [if_pos hmgt]
          exact safe_nil
        · rw [if_neg hmgt]
          exact safe_planFrom hmgt
    | _ :: _ :: _ :: _ :: _ => exact safe_nil
  | mirror_show => exact safe_nil

/-- Edits for other ports leave a port as it is. -/
theorem apply_port {port : Nat} (hes : ∀ e ∈ es, e.port ≠ port) (m : Mark) : b.apply es m port = b m port := by
  induction es generalizing b with
  | nil => rfl
  | cons e es ih =>
    obtain ⟨he, hes⟩ := List.forall_mem_cons.mp hes
    refine (ih hes).trans ?_
    unfold Board.edit
    by_cases hm : m = e.mark
    · rw [hm, update_self, update_of_ne he.symm]
    · rw [update_of_ne hm]

theorem apply_mark {m : Mark} (hes : ∀ e ∈ es, e.mark ≠ m) : b.apply es m = b m := by
  induction es generalizing b with
  | nil => rfl
  | cons e es ih =>
    obtain ⟨he, hes⟩ := List.forall_mem_cons.mp hes
    exact (ih hes).trans (update_of_ne he.symm _ _)

theorem Plan.Safe.atMostOne {p : Plan} (h : p.Safe b dev) (hb : b.AtMostOne) (hes : es <+: p.edits) :
    (b.apply es).AtMostOne := by
  rcases h.dest with hmarks | ⟨port, value, hedits, hvalue⟩
  · have hsame : b.apply es .dest = b .dest := apply_mark fun e he => hmarks e (hes.subset he)
    intro q r hq hr
    rw [hsame] at hq hr
    exact hb q r hq hr
  · rw [hedits] at hes
    rcases List.prefix_cons_iff.mp hes with rfl | ⟨rest, rfl, hrest⟩
    · exact hb
    · rw [List.prefix_nil.mp hrest]
      intro q r hq hr
      change update b .dest (update (b .dest) port value) .dest q = true at hq
      change update b .dest (update (b .dest) port value) .dest r = true at hr
      rw [update_self] at hq hr
      cases value with
      | true =>
        -- no other port is marked yet
        have hport (q : Nat) (hq : update (b .dest) port true q = true) : q = port := by
          by_contra hne
          rw [update_of_ne hne, hvalue rfl q] at hq
          cases hq
        rw [hport q hq, hport r hr]
      | false =>
        have hold (q : Nat) (hq : update (b .dest) port false q = true) : b .dest q = true := by
          by_cases he : q = port
          · subst he
            rw [update_self] at hq
            cases hq
          · rwa [update_of_ne he] at hq
        exact hb q r (hold q hq) (hold r hr)

end

/-- What a step makes is the start of its plan. -/
theorem step_prefix (s : State) (cmd : Command) : (step s cmd).1.dev = s.dev ∧
    ∃ es, es <+: ((Board.of s).plan s.dev cmd).edits ∧ Board.of (step s cmd).1 = (Board.of s).apply es := by
  obtain ⟨reply, -, hdev, -, ⟨-, hof⟩ | ⟨-, -, k, -, hof⟩⟩ := step_ends s cmd
  · exact ⟨hdev, _, List.prefix_rfl, hof⟩
  · exact ⟨hdev, _, List.take_prefix _ _, hof⟩

/-- What a session from `s` on keeps. -/
structure Kept (s t : State) : Prop where
  dev : t.dev = s.dev
  one : (Board.of t).AtMostOne
  mgt : ∀ m, Board.of t m (RCPPort2LPort s.dev s.dev.upLinkPort) = Board.of s m (RCPPort2LPort s.dev s.dev.upLinkPort)

theorem Kept.step {s t : State} (h : Kept s t) (cmd : Command) : Kept s (next step t cmd) := by
  obtain ⟨hdev, es, hes, hof⟩ := step_prefix t cmd
  have hsafe := safe_plan (inside_of t) cmd
  constructor
  · exact hdev.trans h.dev
  · rw [next, hof]
    exact hsafe.atMostOne h.one hes
  · intro m
    rw [next, hof, ← h.dev, apply_port (fun e he => hsafe.mgt e (hes.subset he)), h.dev, h.mgt]

/-- The command does what its plan says, or says that it failed, where a write did. -/
def Sound (s : State) (cmd : Command) : Prop :=
  ∃ reply, (step s cmd).2 = some reply ∧ Ends s ((Board.of s).plan s.dev cmd) reply (step s cmd).1

/-- In any session, whatever writes fail, each command answers and makes what its plan says, or fails
behind the edits that come before the write that failed. The management port keeps its marks, and
where there was one port at most to mirror to, there is one at most. -/
theorem the_commands_mirror_to_one_port (s : State) (hone : (Board.of s).AtMostOne) (cmds : List Command) :
    Along (next step) Sound s cmds ∧ (Board.of (run (next step) s cmds)).AtMostOne ∧
      ∀ m, Board.of (run (next step) s cmds) m (RCPPort2LPort s.dev s.dev.upLinkPort) =
        Board.of s m (RCPPort2LPort s.dev s.dev.upLinkPort) := by
  have hstart : Kept s s := ⟨rfl, hone, fun _ => rfl⟩
  have hend : Kept s (run (next step) s cmds) := run_inv (fun _ cmd h _ => h.step cmd) hstart (along_true s cmds)
  exact ⟨along_of (fun s cmd _ => step_ends s cmd) s, hend.one, hend.mgt⟩

/-- Its third write fails. -/
def worn : State := { uniform .GH1508 0 with writeFails := fun n _ => n == 2 }

/-- The egress of port 4 is not marked, and port 5 not at all. -/
def session : List Command :=
  [.mirror_to ["2", "enable"] [2], .mirror_to ["3", "enable"] [3], .mirror_from ["a", "1,4", "1"] [1, 4],
    .mirror_from ["a", "4,5", "1"] [4, 5], .mirror_show]

theorem no_mark_of_worn (p : Nat) : Board.of worn .dest p = false := by
  have hfield : field worn.reg (Mark.dest.setting p) = 0 := by
    simp [field, fields.get, worn, uniform]
  rw [Board.of, hfield]
  exact Bool.and_false _

theorem port_4_is_half_mirrored :
    (Along (next step) Sound worn session ∧ (Board.of (run (next step) worn session)).AtMostOne ∧
      ∀ m, Board.of (run (next step) worn session) m (RCPPort2LPort worn.dev worn.dev.upLinkPort) =
        Board.of worn m (RCPPort2LPort worn.dev worn.dev.upLinkPort)) ∧
      outputs step worn session =
        [some .done, some (.already 3), some (.management 1), some (.failed .RCP_TIMEOUT),
          some (.table (some 2) [(4, .ingress)])] :=
  ⟨the_commands_mirror_to_one_port worn (fun p _ hp _ => nomatch (no_mark_of_worn p).symm.trans hp) session,
    by decide +kernel⟩

end gwdonu.mirror_commands
