-- Broadcast storms: what the thread counts for each port, and the notifications
-- that it sends. A storm that comes back before the last one is reported as ended
-- upsets them, and nothing else does.
import Gwdonu.Lib.Runs
import Mathlib.Data.List.Range
import Mathlib.Data.UInt
import Mathlib.Logic.Function.Basic

namespace gwdonu.gwd_broadstorm

open Function runs

/-! ## The program -/

def NUM_PORTS_PER_SYSTEM : Nat := 26
def ENABLE : UInt64 := 1

structure broadcast_storm_s where
  gulBcStormThreshold : UInt64
  gulBcStormStat : UInt64

/-- The counters and flags of one port. -/
structure Storm where
  ulBcStormEventCnt : UInt16
  ulBcStormStopCnt : UInt16
  havebroadcaststorm : UInt16
  havebroadcaststorm_end : UInt16
  timeCouter : UInt16
  startCouter : UInt16
  deriving DecidableEq

def Storm.init : Storm := ⟨0, 0, 0, 0, 0, 0⟩

/-- The interface calls for a port, and the notifications. -/
inductive Out where
  | speed_limit (logical_port : Nat) (rate : UInt32)
  | admin_down (logical_port : Nat)
  | bcstorm_msg (port : Nat) (operate state : UInt8)
  deriving DecidableEq

namespace Storm

variable (broad_storm : broadcast_storm_s) (logical_port : Nat) (rate : UInt64) (s : Storm)

/-- The counters, and the end of the limit after four low rates. -/
def count : Storm × List Out :=
  if rate > broad_storm.gulBcStormThreshold then
    ({ s with
        ulBcStormEventCnt := s.ulBcStormEventCnt + 1, ulBcStormStopCnt := 0, timeCouter := 0 }, [])
  else
    let s := { s with
      ulBcStormEventCnt := 0
      timeCouter := if s.startCouter = 0 then 0 else s.timeCouter + 1 }
    if s.havebroadcaststorm_end ≠ 0 then
      let s := { s with ulBcStormStopCnt := s.ulBcStormStopCnt + 1 }
      if s.ulBcStormStopCnt > 3 then
        ({ s with
            startCouter := 1, timeCouter := 0, havebroadcaststorm_end := 0, havebroadcaststorm := 0 },
          [.speed_limit logical_port 0])
      else (s, [])
    else (s, [])

/-- A storm is detected after four high rates in a row. -/
def detect : Storm × List Out :=
  if s.ulBcStormEventCnt > 3 then
    let (s, out) :=
      if broad_storm.gulBcStormStat = ENABLE then
        ({ s with havebroadcaststorm := 1, havebroadcaststorm_end := 1 },
          [.admin_down logical_port, .bcstorm_msg logical_port 2 1])
      else if s.havebroadcaststorm = 0 then
        ({ s with havebroadcaststorm := 1, havebroadcaststorm_end := 1 },
          [.speed_limit logical_port 64, .bcstorm_msg logical_port 1 1])
      else (s, [.speed_limit logical_port 64])
    ({ s with ulBcStormEventCnt := 0 }, out)
  else (s, [])

/-- And reported as ended three intervals after the end of its limit. -/
def ended : Storm × List Out :=
  if s.timeCouter > 2 then
    ({ s with startCouter := 0, timeCouter := 0 }, [.bcstorm_msg logical_port 1 2])
  else (s, [])

/-- An interval of a port whose link is up. -/
def interval : Storm × List Out :=
  let (s, counted) := s.count broad_storm logical_port rate
  let (s, detected) := s.detect broad_storm logical_port
  let (s, ended) := s.ended logical_port
  (s, counted ++ detected ++ ended)

end Storm

/-- What the thread finds of a port: no answer, no link, or a broadcast rate. -/
inductive Sample where
  | failed
  | down
  | up (rate : UInt64)

/-- The counters of all ports, and everything that was called and sent. -/
structure Broad where
  storm : Nat → Storm
  out : List Out

def Broad.init : Broad := ⟨fun _ => .init, []⟩

/-- The port number of 0 wraps around, and is too large. -/
def gwd_logical_to_physical : Nat → Option Nat
  | 0 => none
  | pport + 1 => if pport ≥ NUM_PORTS_PER_SYSTEM then none else some pport

/-- The settings of an interval, the number of ports, and what is found of them. -/
structure Interval where
  broad_storm : broadcast_storm_s
  ports : Nat
  sample : Nat → Sample

def Interval.turn (e : Interval) (b : Broad) (logical_port : Nat) : Broad :=
  match gwd_logical_to_physical logical_port, e.sample logical_port with
  | some physical_port, .up rate =>
    let (s, out) := (b.storm physical_port).interval e.broad_storm logical_port rate
    { storm := update b.storm physical_port s, out := b.out ++ out }
  | _, _ => b

/-- One turn of the `while` of `broad_storm_thread`. -/
def Broad.broad_storm_thread (b : Broad) (e : Interval) : Broad :=
  (List.range' 1 e.ports).foldl e.turn b

/-! ## The notifications of a port -/

/-- The operation and the state of a notification for the port. -/
def Out.message (p : Nat) : Out → Option (UInt8 × UInt8)
  | .bcstorm_msg port operate state => if port = p then some (operate, state) else none
  | _ => none

def Broad.messages (b : Broad) (p : Nat) : List (UInt8 × UInt8) := b.out.filterMap (Out.message p)

/-- A storm is reported as ended when one was detected since the last such report,
and a storm that is limited is not reported while the one before has not ended. -/
def Alternate (l : List (UInt8 × UInt8)) : Prop :=
  ∀ pre m post, l = pre ++ m :: post →
    (m.2 = 2 → pre.getLast?.map Prod.snd = some 1) ∧
    (m = (1, 1) → pre.getLast?.map Prod.snd ≠ some 1)

/-- The fourth high rate in a row comes between the end of the limit of a storm and
the report that the storm has ended. -/
def Recurs (p : Nat) (b : Broad) (e : Interval) : Prop :=
  ∃ rate physical_port, p ∈ List.range' 1 e.ports ∧ gwd_logical_to_physical p = some physical_port ∧
    e.sample p = .up rate ∧ rate > e.broad_storm.gulBcStormThreshold ∧
    (b.storm physical_port).ulBcStormEventCnt + 1 > 3 ∧ (b.storm physical_port).startCouter ≠ 0

section
variable {c : broadcast_storm_s} {e : Interval} {b : Broad} {s : Storm} {l : List (UInt8 × UInt8)}
  {m : UInt8 × UInt8} {i p : Nat} {rate : UInt64}

theorem alternate_nil : Alternate [] := by
  intro pre m post h
  cases pre with
  | nil => cases h
  | cons => cases h

theorem alternate_append (h : Alternate l)
    (hm : (m.2 = 2 → l.getLast?.map Prod.snd = some 1) ∧
      (m = (1, 1) → l.getLast?.map Prod.snd ≠ some 1)) : Alternate (l ++ [m]) := by
  intro pre x post heq
  rcases post.eq_nil_or_concat with rfl | ⟨post, y, rfl⟩
  · obtain ⟨rfl, hx⟩ := List.append_inj' heq rfl
    cases hx
    exact hm
  · have hsplit : l ++ [m] = (pre ++ x :: post) ++ [y] := by simpa using heq
    exact h pre x post (List.append_inj' hsplit rfl).1

/-- Two reports of an end, or two of one limited storm, one behind the other. -/
theorem not_alternate_ended (l fs : List (UInt8 × UInt8)) (op : UInt8) :
    ¬ Alternate (l ++ (op, 2) :: (op, 2) :: fs) := by
  intro h
  have hlast := (h (l ++ [(op, 2)]) (op, 2) fs (by simp)).1 rfl
  simp at hlast

theorem not_alternate_detected (hlast : l.getLast?.map Prod.snd = some 1) (fs : List (UInt8 × UInt8)) :
    ¬ Alternate (l ++ (1, 1) :: fs) :=
  fun h => (h l (1, 1) fs rfl).2 rfl hlast

/-! ## One port -/

@[simp] theorem message_limit (limit : UInt32) : Out.message p (.speed_limit i limit) = none := rfl

@[simp] theorem message_down : Out.message p (.admin_down i) = none := rfl

@[simp] theorem message_own (op state : UInt8) :
    Out.message p (.bcstorm_msg p op state) = some (op, state) := if_pos rfl

theorem message_other (hi : i ≠ p) (op state : UInt8) :
    Out.message p (.bcstorm_msg i op state) = none := if_neg hi

theorem count_messages : ((s.count c i rate).2).filterMap (Out.message p) = [] := by
  unfold Storm.count
  split
  · rfl
  · dsimp only
    split
    · split
      · rfl
      · rfl
    · rfl

theorem detect_other (hi : i ≠ p) : ((s.detect c i).2).filterMap (Out.message p) = [] := by
  unfold Storm.detect
  split
  · split_ifs
    · simp [message_other hi]
    · simp [message_other hi]
    · rfl
  · rfl

theorem ended_other (hi : i ≠ p) : ((s.ended i).2).filterMap (Out.message p) = [] := by
  unfold Storm.ended
  split
  · simp [message_other hi]
  · rfl

/-- The notifications of an interval are for its port. -/
theorem interval_other (hi : i ≠ p) :
    ((s.interval c i rate).2).filterMap (Out.message p) = [] := by
  unfold Storm.interval
  simp [count_messages, detect_other hi, ended_other hi]

theorem physical_inj {q r : Nat} (hi : gwd_logical_to_physical i = some q)
    (hp : gwd_logical_to_physical p = some r) (hne : i ≠ p) : r ≠ q := by
  unfold gwd_logical_to_physical at hi hp
  cases i with
  | zero => cases hi
  | succ i =>
    cases p with
    | zero => cases hp
    | succ p =>
      simp only [Option.ite_none_left_eq_some, Option.some.injEq] at hi hp
      omega

/-- The port and the notifications for it. -/
def seen (p : Nat) (b : Broad) : Storm × List (UInt8 × UInt8) :=
  (((gwd_logical_to_physical p).map b.storm).getD .init, b.messages p)

/-- What an interval does to them, when the thread comes to the port. -/
def seenTurn (e : Interval) (p : Nat) (x : Storm × List (UInt8 × UInt8)) :
    Storm × List (UInt8 × UInt8) :=
  match gwd_logical_to_physical p, e.sample p with
  | some _, .up rate =>
    let (s, out) := x.1.interval e.broad_storm p rate
    (s, x.2 ++ out.filterMap (Out.message p))
  | _, _ => x

theorem turn_own (b : Broad) : seen p (e.turn b p) = seenTurn e p (seen p b) := by
  unfold Interval.turn seenTurn seen
  cases hp : gwd_logical_to_physical p with
  | none => rfl
  | some r =>
    cases e.sample p with
    | failed => rfl
    | down => rfl
    | up rate => simp [Broad.messages]

theorem turn_other (b : Broad) (i : Nat) (hi : i ≠ p) : seen p (e.turn b i) = seen p b := by
  unfold Interval.turn
  cases hphys : gwd_logical_to_physical i with
  | none => rfl
  | some q =>
    cases e.sample i with
    | failed => rfl
    | down => rfl
    | up rate =>
      have hmessages : ((b.storm q).interval e.broad_storm i rate).2.filterMap (Out.message p) = [] :=
        interval_other hi
      cases hp : gwd_logical_to_physical p with
      | none => simp [seen, Broad.messages, hp, hmessages]
      | some r =>
        have hne : r ≠ q := physical_inj hphys hp hi
        simp [seen, Broad.messages, hp, hmessages, update_of_ne hne]

/-- What a turn of the thread does to a port. -/
theorem thread_seen (b : Broad) (e : Interval) :
    seen p (b.broad_storm_thread e) =
      if p ∈ List.range' 1 e.ports then seenTurn e p (seen p b) else seen p b := by
  split
  · rename_i hp
    exact view_once (v := seen p) turn_other turn_own List.nodup_range' hp b
  · rename_i hp
    exact view_none (v := seen p) turn_other hp b

/-! ## The law of one port -/

/-- How far the storms of a port are, and what was sent last: there is none, there is
one, or its limit has ended and that is not reported yet. -/
inductive Phase (s : Storm) (last : Option UInt8) : Prop
  | calm (hstart : s.startCouter = 0) (htime : s.timeCouter = 0) (hend : s.havebroadcaststorm_end = 0)
      (hstorm : s.havebroadcaststorm = 0) (hlast : last ≠ some 1)
  | storm (hstart : s.startCouter = 0) (htime : s.timeCouter = 0) (hend : s.havebroadcaststorm_end ≠ 0)
      (hstorm : s.havebroadcaststorm ≠ 0) (hlast : last = some 1)
  | released (hstart : s.startCouter = 1) (hend : s.havebroadcaststorm_end = 0)
      (hstorm : s.havebroadcaststorm = 0) (hlast : last = some 1)

/-- What a port keeps, along with what was sent for it. -/
structure Lawful (x : Storm × List (UInt8 × UInt8)) : Prop where
  phase : Phase x.1 (x.2.getLast?.map Prod.snd)
  alternate : Alternate x.2

theorem ended_zero (h : s.timeCouter = 0) : s.ended p = (s, []) := by
  unfold Storm.ended
  rw [h]
  rfl

/-- The counters after a high rate. -/
def Storm.raised (s : Storm) : Storm :=
  { s with ulBcStormEventCnt := s.ulBcStormEventCnt + 1, ulBcStormStopCnt := 0, timeCouter := 0 }

/-- A high rate: the fourth in a row is a storm. -/
theorem interval_high (h : rate > c.gulBcStormThreshold) :
    s.interval c p rate = s.raised.detect c p := by
  unfold Storm.interval Storm.count Storm.raised
  rw [if_pos h]
  dsimp only
  rw [ended_zero]
  · simp
  · unfold Storm.detect
    split_ifs
    · rfl
    · rfl
    · rfl
    · rfl

/-- A low rate is no storm. -/
theorem interval_low (h : ¬ rate > c.gulBcStormThreshold) : s.interval c p rate =
    (((s.count c p rate).1.ended p).1, (s.count c p rate).2 ++ ((s.count c p rate).1.ended p).2) := by
  have hzero : (s.count c p rate).1.ulBcStormEventCnt = 0 := by
    unfold Storm.count
    rw [if_neg h]
    dsimp only
    split
    · split
      · rfl
      · rfl
    · rfl
  have hdetect : (s.count c p rate).1.detect c p = ((s.count c p rate).1, []) := by
    unfold Storm.detect
    rw [hzero]
    rfl
  unfold Storm.interval
  dsimp only
  rw [hdetect]
  simp

theorem Lawful.silent (h : Lawful (s, l)) {s' : Storm} (hphase : Phase s' (l.getLast?.map Prod.snd)) :
    Lawful (s', l ++ []) := by
  rw [List.append_nil]
  exact ⟨hphase, h.alternate⟩

/-- One notification more. -/
theorem Lawful.send (h : Lawful (s, l)) {s' : Storm} (hphase : Phase s' (some m.2))
    (hm : (m.2 = 2 → l.getLast?.map Prod.snd = some 1) ∧
      (m = (1, 1) → l.getLast?.map Prod.snd ≠ some 1)) : Lawful (s', l ++ [m]) := by
  refine ⟨?_, alternate_append h.alternate hm⟩
  rw [List.getLast?_concat]
  exact hphase

/-- The port is shut down for a storm, whether there was one or not. -/
theorem detect_shutdown (hstorm : s.ulBcStormEventCnt > 3) (hmode : c.gulBcStormStat = ENABLE) :
    s.detect c p = ({ s with
      ulBcStormEventCnt := 0, havebroadcaststorm := 1, havebroadcaststorm_end := 1 },
      [.admin_down p, .bcstorm_msg p 2 1]) := by
  unfold Storm.detect
  rw [if_pos hstorm, if_pos hmode]

theorem detect_limit (hstorm : s.ulBcStormEventCnt > 3) (hmode : c.gulBcStormStat ≠ ENABLE)
    (hnone : s.havebroadcaststorm = 0) :
    s.detect c p = ({ s with
      ulBcStormEventCnt := 0, havebroadcaststorm := 1, havebroadcaststorm_end := 1 },
      [.speed_limit p 64, .bcstorm_msg p 1 1]) := by
  unfold Storm.detect
  rw [if_pos hstorm, if_neg hmode, if_pos hnone]

theorem detect_again (hstorm : s.ulBcStormEventCnt > 3) (hmode : c.gulBcStormStat ≠ ENABLE)
    (hsome : s.havebroadcaststorm ≠ 0) :
    s.detect c p = ({ s with ulBcStormEventCnt := 0 }, [.speed_limit p 64]) := by
  unfold Storm.detect
  rw [if_pos hstorm, if_neg hmode, if_neg hsome]

theorem high_lawful (hx : Lawful (s, l)) (hrate : rate > c.gulBcStormThreshold)
    (hcalm : s.ulBcStormEventCnt + 1 > 3 → s.startCouter = 0) :
    Lawful ((s.interval c p rate).1, l ++ (s.interval c p rate).2.filterMap (Out.message p)) := by
  have hone : (1 : UInt16) ≠ 0 := by decide
  have hphase : Phase s (l.getLast?.map Prod.snd) := hx.phase
  rw [interval_high hrate]
  by_cases hstorm : s.ulBcStormEventCnt + 1 > 3
  · have hstart := hcalm hstorm
    by_cases hmode : c.gulBcStormStat = ENABLE
    · rw [detect_shutdown (s := s.raised) hstorm hmode]
      simp only [List.filterMap_cons, List.filterMap_nil, message_down, message_own]
      exact hx.send (.storm hstart rfl hone hone rfl)
        ⟨fun h => absurd h (by decide), fun h => absurd h (by decide)⟩
    · cases hphase with
      | calm _ _ _ hnone hlast =>
        rw [detect_limit (s := s.raised) hstorm hmode hnone]
        simp only [List.filterMap_cons, List.filterMap_nil, message_limit, message_own]
        exact hx.send (.storm hstart rfl hone hone rfl)
          ⟨fun h => absurd h (by decide), fun _ => hlast⟩
      | storm _ _ hend hsome hlast =>
        rw [detect_again (s := s.raised) hstorm hmode hsome]
        exact hx.silent (.storm hstart rfl hend hsome hlast)
      | released hreleased => exact absurd (hstart.symm.trans hreleased) hone.symm
  · have hnot : s.raised.detect c p = (s.raised, []) := by
      unfold Storm.detect
      exact if_neg hstorm
    rw [hnot]
    cases hphase with
    | calm hstart _ hend hnone hlast => exact hx.silent (.calm hstart rfl hend hnone hlast)
    | storm hstart _ hend hsome hlast => exact hx.silent (.storm hstart rfl hend hsome hlast)
    | released hreleased hend hnone hlast => exact hx.silent (.released hreleased hend hnone hlast)

theorem low_lawful (hx : Lawful (s, l)) (hrate : ¬ rate > c.gulBcStormThreshold) :
    Lawful ((s.interval c p rate).1, l ++ (s.interval c p rate).2.filterMap (Out.message p)) := by
  have hphase : Phase s (l.getLast?.map Prod.snd) := hx.phase
  rw [interval_low hrate]
  dsimp only
  rw [List.filterMap_append, count_messages, List.nil_append]
  cases hphase with
  | calm hstart _ hend hnone hlast =>
    have hcount : (s.count c p rate).1 = { s with ulBcStormEventCnt := 0, timeCouter := 0 } := by
      unfold Storm.count
      simp [hrate, hstart, hend]
    rw [hcount, ended_zero rfl]
    exact hx.silent (.calm hstart rfl hend hnone hlast)
  | storm hstart _ hend hsome hlast =>
    by_cases hstop : s.ulBcStormStopCnt + 1 > 3
    · have hcount : (s.count c p rate).1 = { s with
          ulBcStormEventCnt := 0, ulBcStormStopCnt := s.ulBcStormStopCnt + 1, startCouter := 1
          timeCouter := 0, havebroadcaststorm_end := 0, havebroadcaststorm := 0 } := by
        unfold Storm.count
        simp [hrate, hend, hstop]
      rw [hcount, ended_zero rfl]
      exact hx.silent (.released rfl rfl rfl hlast)
    · have hcount : (s.count c p rate).1 = { s with
          ulBcStormEventCnt := 0, ulBcStormStopCnt := s.ulBcStormStopCnt + 1, timeCouter := 0 } := by
        unfold Storm.count
        simp [hrate, hstart, hend, hstop]
      rw [hcount, ended_zero rfl]
      exact hx.silent (.storm hstart rfl hend hsome hlast)
  | released hone hend hnone hlast =>
    have hcount : (s.count c p rate).1 =
        { s with ulBcStormEventCnt := 0, timeCouter := s.timeCouter + 1 } := by
      unfold Storm.count
      simp [hrate, hone, hend]
    rw [hcount]
    unfold Storm.ended
    dsimp only
    split
    · simp only [List.filterMap_cons, List.filterMap_nil, message_own]
      exact hx.send (.calm rfl rfl hend hnone (by decide))
        ⟨fun _ => hlast, fun h => absurd h (by decide)⟩
    · exact hx.silent (.released hone hend hnone hlast)

/-! ## Every run -/

theorem thread_lawful (h : Lawful (seen p b)) (hcalm : ¬ Recurs p b e) :
    Lawful (seen p (b.broad_storm_thread e)) := by
  rw [thread_seen]
  split
  · rename_i hmem
    unfold seenTurn
    split
    · rename_i q rate hphys hsample
      by_cases hrate : rate > e.broad_storm.gulBcStormThreshold
      · refine high_lawful h hrate ?_
        intro hstorm
        by_contra hstart
        refine hcalm ⟨rate, q, hmem, hphys, hsample, hrate, ?_, ?_⟩
        · simpa [seen, hphys] using hstorm
        · simpa [seen, hphys] using hstart
      · exact low_lawful h hrate
    · exact h
  · exact h

theorem init_lawful (p : Nat) : Lawful (seen p .init) := by
  have hstorm : (seen p .init).1 = .init := by
    unfold seen Broad.init
    cases gwd_logical_to_physical p with
    | none => rfl
    | some q => rfl
  refine ⟨?_, alternate_nil⟩
  rw [hstorm]
  exact .calm rfl rfl rfl rfl (by simp [seen, Broad.messages, Broad.init])

theorem run_lawful {es : List Interval}
    (h : Along Broad.broad_storm_thread (fun b e => ¬ Recurs p b e) .init es) :
    Lawful (seen p (run Broad.broad_storm_thread .init es)) :=
  run_inv (I := fun b => Lawful (seen p b)) (fun _ _ hb he => thread_lawful hb he) (init_lawful p) h

/-! ## And a storm that recurs upsets the notifications -/

/-- The interval as it goes on when nobody sends anything. -/
def Interval.quiet (e : Interval) : Interval := { e with sample := fun _ => .up 0 }

/-- What some quiet intervals make of a port, and what is sent in them. -/
def Storm.lull (s : Storm) : Nat → Storm × List (UInt8 × UInt8)
  | 0 => (s, [])
  | n + 1 =>
    let (s, out) := s.interval ⟨0, 0⟩ 0 0
    let (s, messages) := s.lull n
    (s, out.filterMap (Out.message 0) ++ messages)

/-- The settings and the port do not matter for a low rate. -/
theorem interval_quiet : (s.interval c p 0).1 = (s.interval ⟨0, 0⟩ 0 0).1 ∧
    (s.interval c p 0).2.filterMap (Out.message p) =
      (s.interval ⟨0, 0⟩ 0 0).2.filterMap (Out.message 0) := by
  have hlow (c : broadcast_storm_s) : ¬ 0 > c.gulBcStormThreshold := by simp
  have hcount : (s.count c p 0).1 = (s.count ⟨0, 0⟩ 0 0).1 := by
    unfold Storm.count
    rw [if_neg (hlow c), if_neg (hlow ⟨0, 0⟩)]
    dsimp only
    split
    · split
      · rfl
      · rfl
    · rfl
  rw [interval_low (hlow c), interval_low (hlow ⟨0, 0⟩)]
  simp only [List.filterMap_append, count_messages, List.nil_append, hcount]
  unfold Storm.ended
  split
  · simp
  · simp

theorem quiet_seen (hmem : p ∈ List.range' 1 e.ports) {q : Nat}
    (hphys : gwd_logical_to_physical p = some q) (hb : seen p b = (s, l)) (n : Nat) :
    seen p (run Broad.broad_storm_thread b (List.replicate n e.quiet)) =
      ((s.lull n).1, l ++ (s.lull n).2) := by
  induction n generalizing b s l with
  | zero => simpa [Storm.lull] using hb
  | succ n ih =>
    have hmem' : p ∈ List.range' 1 e.quiet.ports := hmem
    have hstep : seen p (b.broad_storm_thread e.quiet) = ((s.interval ⟨0, 0⟩ 0 0).1,
        l ++ (s.interval ⟨0, 0⟩ 0 0).2.filterMap (Out.message 0)) := by
      obtain ⟨hstorm, hout⟩ : (s.interval e.broad_storm p 0).1 = _ ∧ _ = _ := interval_quiet
      rw [thread_seen, if_pos hmem', hb, ← hstorm, ← hout]
      unfold seenTurn
      rw [hphys]
      rfl
    rw [List.replicate_succ, run_cons, ih hstep, List.append_assoc]
    rfl

theorem recurs_upsets (h : Lawful (seen p b)) (hr : Recurs p b e) :
    ∃ fs, ¬ Alternate ((run Broad.broad_storm_thread b (e :: fs)).messages p) := by
  obtain ⟨rate, q, hmem, hphys, hsample, hrate, hevent, hstart⟩ := hr
  have hb : seen p b = (b.storm q, b.messages p) := by simp [seen, hphys]
  rw [hb] at h
  have hphase : Phase (b.storm q) ((b.messages p).getLast?.map Prod.snd) := h.phase
  cases hphase with
  | calm hnone => exact absurd hnone hstart
  | storm hnone => exact absurd hnone hstart
  | released hone _ hnone hlast =>
    have hturn : seen p (b.broad_storm_thread e) = (((b.storm q).raised.detect e.broad_storm p).1,
        b.messages p ++
          ((b.storm q).raised.detect e.broad_storm p).2.filterMap (Out.message p)) := by
      rw [thread_seen, if_pos hmem, hb]
      unfold seenTurn
      rw [hphys, hsample]
      dsimp only
      rw [interval_high hrate]
    by_cases hmode : e.broad_storm.gulBcStormStat = ENABLE
    · -- the end of the storm before is still reported, and the end of this one as well
      rw [detect_shutdown (s := (b.storm q).raised) hevent hmode] at hturn
      have hquiet := congrArg Prod.snd (quiet_seen hmem hphys hturn 7)
      refine ⟨List.replicate 7 e.quiet, ?_⟩
      have hmessages : (run Broad.broad_storm_thread b (e :: List.replicate 7 e.quiet)).messages p =
          (b.messages p ++ [(2, 1)]) ++ [(1, 2), (1, 2)] := by
        rw [run_cons]
        refine hquiet.trans ?_
        simp only [Storm.raised, hone, List.filterMap_cons, List.filterMap_nil, message_down, message_own]
        congr 1
      rw [hmessages]
      exact not_alternate_ended _ _ _
    · rw [detect_limit (s := (b.storm q).raised) hevent hmode hnone] at hturn
      refine ⟨[], ?_⟩
      have hmessages : (b.broad_storm_thread e).messages p = b.messages p ++ [(1, 1)] := by
        have hsent := congrArg Prod.snd hturn
        simpa [seen, List.filterMap_cons] using hsent
      rw [run_cons, run_nil, hmessages]
      exact not_alternate_detected hlast _

/-- The notifications of a port alternate as long as no storm of it recurs, and
when one does, they fail to from some interval on. -/
theorem storm_notifications_alternate (p : Nat) :
    (∀ es, Along Broad.broad_storm_thread (fun b e => ¬ Recurs p b e) .init es →
      Alternate ((run Broad.broad_storm_thread .init es).messages p)) ∧
    ∀ es e, Along Broad.broad_storm_thread (fun b e => ¬ Recurs p b e) .init es →
      Recurs p (run Broad.broad_storm_thread .init es) e →
      ∃ fs, ¬ Alternate ((run Broad.broad_storm_thread .init (es ++ e :: fs)).messages p) := by
  refine ⟨fun es h => (run_lawful h).alternate, ?_⟩
  intro es e h hr
  simp only [run_append]
  exact recurs_upsets (run_lawful h) hr

/-- A port that the rate is limited of has a storm reported twice, and one that is
shut down has its end reported twice. -/
theorem a_storm_recurs_before_its_end_is_reported :
    let intervals (stat : UInt64) (rates : List UInt64) : List Interval :=
      rates.map fun rate => ⟨⟨1000, stat⟩, 1, fun _ => .up rate⟩
    let storms (stat : UInt64) (ends : Nat) : Broad :=
      run Broad.broad_storm_thread .init (intervals stat (List.replicate 4 2000 ++ List.replicate 4 0 ++
        List.replicate 4 2000 ++ List.replicate ends 0))
    (storms 0 0).messages 1 = [(1, 1), (1, 1)] ∧ ¬ Alternate ((storms 0 0).messages 1) ∧
    (storms ENABLE 7).messages 1 = [(2, 1), (2, 1), (1, 2), (1, 2)] ∧
      ¬ Alternate ((storms ENABLE 7).messages 1) := by
  intro intervals storms
  have hlimit : (storms 0 0).messages 1 = [(1, 1)] ++ [(1, 1)] := by decide +kernel
  have hshutdown : (storms ENABLE 7).messages 1 = [(2, 1), (2, 1)] ++ [(1, 2), (1, 2)] := by
    decide +kernel
  refine ⟨hlimit, ?_, hshutdown, ?_⟩
  · rw [hlimit]
    exact not_alternate_detected rfl _
  · rw [hshutdown]
    exact not_alternate_ended _ _ _

end

end gwdonu.gwd_broadstorm
