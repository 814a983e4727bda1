-- Lists of ports and of ranges of ports on the command line. The ports that a list names,
-- and those that the parser gives for it.
import Gwdonu.Lib.Mentions
import Gwdonu.PortSlots
import Mathlib.Logic.Function.Basic

namespace gwdonu.port_lists

open Function scanner mentions
open port_slots (ScanState Argv Closed lexis atol comma dash list list_closed)

/-! ## The program -/

def ETH_FILTER_MAX_PORT_NUM_ON_SLOT : Nat := 32

/-- The array `roter_port`, with what lies behind it, how many ports are in it, and the places of it that
were written. -/
structure Ports where
  roter_port : Nat → Nat
  port_i : Nat
  written : List Nat

def Ports.put (t : Ports) (port : Nat) : Ports :=
  ⟨update t.roter_port t.port_i port, t.port_i + 1, t.written ++ [t.port_i]⟩

section
variable (onu_roter_port_num : Nat)

/-- The search for a port in the first twenty places. At the last of them it is put behind the others,
and then it is looked at whether there is such a port. -/
def search (port : Nat) : List Nat → Ports → Ports × Bool
  | [], t => (t, true)
  | i :: is, t =>
    if t.roter_port i = port then (t, true)
    else if i = 19 then
      let t := t.put port
      if onu_roter_port_num < port then (t, false) else search port is t
    else search port is t

def namePort (t : Ports) (port : Nat) : Ports × Bool := search onu_roter_port_num port (List.range 20) t

/-- The loop over a range, for the ports that are left of it. -/
def namePorts : List Nat → Ports → Ports × Bool
  | [], t => (t, true)
  | port :: ports, t =>
    let r := namePort onu_roter_port_num t port
    if r.2 then namePorts ports r.1 else r

structure Parse where
  ulState : ScanState
  ulPort : Nat
  ports : Ports

/-- A number that is the port of an element, or the first one of a range. -/
def Parse.port (s : Parse) (ulState : ScanState) (ulPort : Nat) : Parse × Bool :=
  let r := namePort onu_roter_port_num s.ports ulPort
  (⟨ulState, ulPort, r.1⟩, r.2)

/-- The separators of each state. There is no way into `STATE_PS`. -/
def separators (s : Parse) (cToken : UInt8) : Option (List UInt8 → Parse × Bool) :=
  match s.ulState with
  | .STATE_S =>
    if cToken = comma then some fun digit_temp => s.port onu_roter_port_num .STATE_S (atol digit_temp)
    else if cToken = dash then some fun digit_temp => s.port onu_roter_port_num .STATE_PE (atol digit_temp)
    else none
  | .STATE_PS =>
    if cToken = comma then some fun digit_temp =>
      let ulPort := atol digit_temp
      if 20 ≤ ulPort then ({ s with ulPort }, false) else s.port onu_roter_port_num .STATE_S ulPort
    else if cToken = dash then some fun digit_temp => s.port onu_roter_port_num .STATE_PE (atol digit_temp)
    else none
  | .STATE_PE =>
    if cToken = comma then some fun digit_temp =>
      let ulPort_E := atol digit_temp
      let (ul_i, ul_e) := if s.ulPort < ulPort_E then (s.ulPort, ulPort_E) else (ulPort_E, s.ulPort)
      let r := namePorts onu_roter_port_num (List.range' ul_i (ul_e + 1 - ul_i)) s.ports
      (⟨.STATE_S, s.ulPort, r.1⟩, r.2)
    else none

/-- The array behind `bzero`. -/
def noPorts (behind : Nat → Nat) : Ports :=
  ⟨fun i => if i < ETH_FILTER_MAX_PORT_NUM_ON_SLOT then 0 else behind i, 0, []⟩

/-- The list that is returned, and the places of `digit_temp` and `roter_port` that are written. -/
structure Parsed where
  ports : Option (List Nat)
  digit_temp : List Nat
  roter_port : List Nat

/-- `behind` is what lies behind the array on the stack; there is memory for the two copies. -/
def ETH_ParsePortList (behind : Nat → Nat) (argv : Argv) : Parsed :=
  let r := Scan.scan lexis (separators onu_roter_port_num) ⟨⟨.STATE_S, 0, noPorts behind⟩, [], []⟩ (list argv)
  let t := r.1.state.ports
  ⟨if r.2 then some ((List.range (t.port_i + 1)).map t.roter_port) else none, r.1.written, t.written⟩

end

/-! ## The law -/

/-- The ports that a range names: the one that it begins with, and all from the lower to the higher one. -/
def rangePorts (a b : Nat) : List Nat := a :: List.range' (min a b) (max a b + 1 - min a b)

/-- The ports that the numbers of a list name, up to where it is no list any more, and whether it is one
throughout. -/
def named : List (Token UInt8) → List Nat × Bool
  | [] => ([], true)
  | [(n, c)] =>
    if lexis.Number n ∧ c = comma then ([atol n], true)
    else if lexis.Number n ∧ c = dash then ([atol n], false)
    else ([], false)
  | (n, c) :: (b, c') :: ts =>
    if lexis.Number n ∧ c = comma then (atol n :: (named ((b, c') :: ts)).1, (named ((b, c') :: ts)).2)
    else if lexis.Number n ∧ c = dash then
      if lexis.Number b ∧ c' = comma then (rangePorts (atol n) (atol b) ++ (named ts).1, (named ts).2)
      else ([atol n], false)
    else ([], false)

/-- The ports up to the first one that there is not. -/
def reached (onu_roter_port_num : Nat) : List Nat → List Nat
  | [] => []
  | port :: ports => if onu_roter_port_num < port then [port] else port :: reached onu_roter_port_num ports

def numbers (argv : Argv) : List (Token UInt8) := tokens lexis [] (list argv)

/-- What is written lies in its array, and what is given are the ports that the argument names, each once
in the order of their first mentions, with a zero behind them, or nothing, if it is no list or names a port
that there is not. -/
structure GivesNamed (onu_roter_port_num : Nat) (argv : Argv) : Prop where
  digit_temp : ∀ behind, ∀ k ∈ (ETH_ParsePortList onu_roter_port_num behind argv).digit_temp, k < 12
  roter_port : ∀ behind, ∀ k ∈ (ETH_ParsePortList onu_roter_port_num behind argv).roter_port,
    k < ETH_FILTER_MAX_PORT_NUM_ON_SLOT
  null : (named (numbers argv)).2 = false ∨ (∃ port ∈ (named (numbers argv)).1, onu_roter_port_num < port) →
    ∀ behind, (ETH_ParsePortList onu_roter_port_num behind argv).ports = none
  ports : (named (numbers argv)).2 = true → (∀ port ∈ (named (numbers argv)).1, port ≤ onu_roter_port_num) →
    ∀ behind, (ETH_ParsePortList onu_roter_port_num behind argv).ports =
      some (distinct (named (numbers argv)).1 ++ [0])

/-- An argument that is a list names no port 0 among its first twenty ports, those behind them once each,
and no more than 31; of any other one, no more than 32 mentions take a place up to where it fails. -/
def Fits (onu_roter_port_num : Nat) (argv : Argv) : Prop :=
  let ports := (named (numbers argv)).1
  if (named (numbers argv)).2 = true ∧ ∀ port ∈ ports, port ≤ onu_roter_port_num then
    ComeOnce 0 20 ports ∧ (distinct ports).length < ETH_FILTER_MAX_PORT_NUM_ON_SLOT
  else places 0 20 (reached onu_roter_port_num ports) ≤ ETH_FILTER_MAX_PORT_NUM_ON_SLOT

/-! ## The search -/

variable {num : Nat} {behind : Nat → Nat} {t : Ports} {ms : List Nat} {port : Nat}

/-- The array holds the table of these mentions. -/
structure Holds (behind : Nat → Nat) (t : Ports) (ms : List Nat) : Prop where
  port_i : t.port_i = (table 0 20 ms).length
  roter_port : ∀ i, t.roter_port i =
    (table 0 20 ms)[i]?.getD (if i < ETH_FILTER_MAX_PORT_NUM_ON_SLOT then 0 else behind i)
  written : t.written = List.range (table 0 20 ms).length

theorem holds_noPorts (behind : Nat → Nat) : Holds behind (noPorts behind) [] := ⟨rfl, fun _ => rfl, rfl⟩

theorem search_eq (num port n : Nat) {i : Nat} (hi : i + (n + 1) = 20) (t : Ports) :
    search num port (List.range' i (n + 1)) t =
      if port ∈ (List.range' i (n + 1)).map t.roter_port then (t, true) else (t.put port, decide (port ≤ num)) := by
  induction n generalizing i with
  | zero =>
    obtain rfl : i = 19 := by omega
    have hlast : port ∈ (List.range' 19 1).map t.roter_port ↔ t.roter_port 19 = port :=
      List.mem_singleton.trans eq_comm
    rw [if_congr hlast rfl rfl]
    by_cases hfound : t.roter_port 19 = port
    · rw [if_pos hfound]
      exact if_pos hfound
    · rw [if_neg hfound]
      refine (if_neg hfound).trans ((if_pos rfl).trans ?_)
      dsimp only
      split_ifs with hover
      · rw [decide_eq_false (Nat.not_le.mpr hover)]
      · rw [decide_eq_true (Nat.le_of_not_lt hover)]
        rfl
  | succ n ih =>
    rw [List.range'_succ, search, List.map_cons, if_congr List.mem_cons rfl rfl]
    by_cases hfound : t.roter_port i = port
    · rw [if_pos hfound, if_pos (Or.inl hfound.symm)]
    · rw [if_neg hfound, if_neg (by omega), ih (by omega), if_congr (or_iff_right fun h => hfound h.symm) rfl rfl]

/-- The search finds what the table finds. -/
theorem found_iff (h : Holds behind t ms) (port : Nat) :
    port ∈ (List.range' 0 20).map t.roter_port ↔ Found 0 20 (table 0 20 ms) port := by
  have hin (j : Nat) (hj : j < 20) : t.roter_port j = (table 0 20 ms)[j]?.getD 0 := by
    rw [h.roter_port, if_pos (Nat.lt_of_lt_of_le hj (by decide))]
  rw [List.mem_map]
  constructor
  · rintro ⟨j, hmem, heq⟩
    have hj : j < 20 := (List.mem_range'_1.mp hmem).2
    rw [hin j hj] at heq
    cases hget : (table 0 20 ms)[j]? with
    | none =>
      rw [hget] at heq
      exact Or.inr ⟨heq.symm, Nat.lt_of_le_of_lt (List.getElem?_eq_none_iff.mp hget) hj⟩
    | some v =>
      rw [hget] at heq
      refine Or.inl (List.mem_iff_getElem?.mpr ⟨j, ?_⟩)
      rw [List.getElem?_take_of_lt hj, hget]
      exact congrArg some heq
  · rintro (hmem | ⟨rfl, hroom⟩)
    · obtain ⟨j, hj⟩ := List.mem_iff_getElem?.mp hmem
      have hlt : j < 20 := by
        obtain ⟨hlen, -⟩ := List.getElem?_eq_some_iff.mp hj
        rw [List.length_take] at hlen
        omega
      rw [List.getElem?_take_of_lt hlt] at hj
      exact ⟨j, List.mem_range'_1.mpr ⟨Nat.zero_le j, hlt⟩, by rw [hin j hlt, hj]; rfl⟩
    · refine ⟨_, List.mem_range'_1.mpr ⟨Nat.zero_le _, hroom⟩, ?_⟩
      rw [hin _ hroom, List.getElem?_eq_none (Nat.le_refl _)]
      rfl

theorem namePort_eq (h : Holds behind t ms) (num port : Nat) : namePort num t port =
    if Found 0 20 (table 0 20 ms) port then (t, true) else (t.put port, decide (port ≤ num)) := by
  rw [namePort, List.range_eq_range', search_eq num port 19 rfl t, if_congr (found_iff h port) rfl rfl]

/-- A port that is put behind the others. -/
theorem holds_put (h : Holds behind t ms) (hnew : ¬ Found 0 20 (table 0 20 ms) port) :
    Holds behind (t.put port) (ms ++ [port]) := by
  have htable : table 0 20 (ms ++ [port]) = table 0 20 ms ++ [port] := by
    rw [table_concat, add, if_neg hnew]
  refine ⟨?_, fun i => ?_, ?_⟩
  · rw [htable, List.length_append, ← h.port_i]
    rfl
  · change update t.roter_port t.port_i port i = _
    rw [htable, h.port_i]
    by_cases hi : i = (table 0 20 ms).length
    · rw [hi, update_self, List.getElem?_concat_length]
      rfl
    · rw [update_of_ne hi, h.roter_port]
      by_cases hlt : i < (table 0 20 ms).length
      · rw [List.getElem?_append_left hlt]
      · rw [List.getElem?_eq_none (by omega),
          List.getElem?_eq_none (by rw [List.length_append, List.length_singleton]; omega)]
  · change t.written ++ [t.port_i] = _
    rw [htable, h.written, h.port_i, List.length_append, List.length_singleton, List.range_succ]

/-! ## The ports of a list -/

/-- A step or a run has read these ports behind those that the array holds, and goes on just when it is
`ok` and each of them is one that there is. -/
structure Reads (num : Nat) (behind : Nat → Nat) (ms ports : List Nat) (ok : Bool) (r : Ports × Bool) : Prop where
  holds : Holds behind r.1 (ms ++ reached num ports)
  go_iff : r.2 = true ↔ ok = true ∧ ∀ port ∈ ports, port ≤ num

theorem reached_append (num : Nat) (ports qs : List Nat) : reached num (ports ++ qs) =
    if ∀ port ∈ ports, port ≤ num then ports ++ reached num qs else reached num ports := by
  induction ports with
  | nil => exact (if_pos nofun).symm
  | cons port ports ih =>
    rw [List.cons_append, reached, reached, ih, if_congr List.forall_mem_cons rfl rfl]
    by_cases hover : num < port
    · rw [if_pos hover, if_pos hover, if_neg fun h => Nat.not_le.mpr hover h.1]
    · rw [if_neg hover, if_neg hover, if_congr (and_iff_right (Nat.le_of_not_lt hover)) rfl rfl]
      split_ifs
      all_goals rfl

theorem reached_of_le {ports : List Nat} (h : ∀ port ∈ ports, port ≤ num) : reached num ports = ports := by
  have heq := reached_append num ports []
  rw [List.append_nil, if_pos h] at heq
  exact heq.trans (List.append_nil ports)

/-- Where all that was read goes on, what follows is read behind it. -/
theorem Reads.append {ports qs : List Nat} {ok : Bool} {r r' : Ports × Bool} (h : Reads num behind ms ports true r)
    (hnext : (∀ port ∈ ports, port ≤ num) → Holds behind r.1 (ms ++ ports) → Reads num behind (ms ++ ports) qs ok r') :
    Reads num behind ms (ports ++ qs) ok (if r.2 = true then r' else r) := by
  have hgo : r.2 = true ↔ ∀ port ∈ ports, port ≤ num := h.go_iff.trans (and_iff_right rfl)
  by_cases hall : ∀ port ∈ ports, port ≤ num
  · have hholds := h.holds
    rw [reached_of_le hall] at hholds
    obtain ⟨hholds', hiff⟩ := hnext hall hholds
    rw [if_pos (hgo.mpr hall)]
    refine ⟨?_, ?_⟩
    · rw [reached_append, if_pos hall, ← List.append_assoc]
      exact hholds'
    · rw [hiff, List.forall_mem_append, and_iff_right hall]
  · have hstop : ¬ r.2 = true := fun h => hall (hgo.mp h)
    rw [if_neg hstop]
    refine ⟨?_, ?_⟩
    · rw [reached_append, if_neg hall]
      exact h.holds
    · rw [List.forall_mem_append]
      exact iff_of_false hstop fun hboth => hall hboth.2.1

theorem forall_mem_append_le {ports : List Nat} (hle : ∀ m ∈ ms, m ≤ num) (hports : ∀ port ∈ ports, port ≤ num) :
    ∀ m ∈ ms ++ ports, m ≤ num := List.forall_mem_append.mpr ⟨hle, hports⟩

/-- All that was mentioned is a port that there is. -/
theorem namePort_reads (h : Holds behind t ms) (hle : ∀ m ∈ ms, m ≤ num) (port : Nat) :
    Reads num behind ms [port] true (namePort num t port) := by
  have hreached : reached num [port] = [port] := by
    unfold reached
    split_ifs
    all_goals rfl
  rw [namePort_eq h]
  by_cases hfound : Found 0 20 (table 0 20 ms) port
  · have htable : table 0 20 (ms ++ [port]) = table 0 20 ms := by
      rw [table_concat, add, if_pos hfound]
    have hport : port ≤ num := by
      rcases hfound with hmem | ⟨rfl, -⟩
      · exact hle port (mem_of_mem_table (List.mem_of_mem_take hmem))
      · exact Nat.zero_le num
    rw [if_pos hfound]
    refine ⟨?_, iff_of_true rfl ⟨rfl, List.forall_mem_singleton.mpr hport⟩⟩
    rw [hreached]
    exact ⟨by rw [htable]; exact h.port_i, by rw [htable]; exact h.roter_port, by rw [htable]; exact h.written⟩
  · rw [if_neg hfound]
    refine ⟨?_, ?_⟩
    · rw [hreached]
      exact holds_put h hfound
    · rw [List.forall_mem_singleton, decide_eq_true_eq]
      exact (and_iff_right rfl).symm

theorem reads_nil (h : Holds behind t ms) (ok : Bool) : Reads num behind ms [] ok (t, ok) :=
  ⟨by rw [reached, List.append_nil]; exact h, (and_iff_left nofun).symm⟩

theorem namePorts_reads (ports : List Nat) (h : Holds behind t ms) (hle : ∀ m ∈ ms, m ≤ num) :
    Reads num behind ms ports true (namePorts num ports t) := by
  induction ports generalizing t ms with
  | nil => exact reads_nil h true
  | cons port ports ih =>
    exact (namePort_reads h hle port).append fun hport hholds => ih hholds (forall_mem_append_le hle hport)

/-! ## The numbers of a list -/

/-- What a step or a run of the scanner does to the ports. -/
def portsOf (r : Parse × Bool) : Ports × Bool := (r.1.ports, r.2)

variable {ts : List (Token UInt8)} {tok : Token UInt8} {s : Parse} {ports qs : List Nat} {ok : Bool}

theorem run_reads (hstep : Reads num behind ms ports true (portsOf (step lexis (separators num) s tok)))
    (hnext : (∀ port ∈ ports, port ≤ num) → Holds behind (step lexis (separators num) s tok).1.ports (ms ++ ports) →
      Reads num behind (ms ++ ports) qs ok
        (portsOf (run lexis (separators num) (step lexis (separators num) s tok).1 ts))) :
    Reads num behind ms (ports ++ qs) ok (portsOf (run lexis (separators num) s (tok :: ts))) := by
  have happend := hstep.append hnext
  have heq : portsOf (run lexis (separators num) s (tok :: ts)) =
      if (portsOf (step lexis (separators num) s tok)).2 = true then
        portsOf (run lexis (separators num) (step lexis (separators num) s tok).1 ts)
      else portsOf (step lexis (separators num) s tok) := by
    rw [run_cons]
    exact apply_ite portsOf _ _ _
  rw [heq]
  exact happend

/-- A number that is turned down at once. -/
theorem run_turned_down (hstep : step lexis (separators num) s tok = (s, false)) (h : Holds behind s.ports ms) :
    Reads num behind ms [] false (portsOf (run lexis (separators num) s (tok :: ts))) := by
  rw [run_cons, hstep]
  exact reads_nil h false

theorem step_comma (num : Nat) (hs : s.ulState = .STATE_S) {n : List UInt8} (hn : lexis.Number n) :
    step lexis (separators num) s (n, comma) = s.port num .STATE_S (atol n) := by
  have hsep : separators num s comma = some fun digit_temp => s.port num .STATE_S (atol digit_temp) := by
    unfold separators
    rw [hs]
    exact if_pos rfl
  exact step_of_some hsep hn

theorem step_dash (num : Nat) (hs : s.ulState = .STATE_S) {n : List UInt8} (hn : lexis.Number n) :
    step lexis (separators num) s (n, dash) = s.port num .STATE_PE (atol n) := by
  have hsep : separators num s dash = some fun digit_temp => s.port num .STATE_PE (atol digit_temp) := by
    unfold separators
    rw [hs]
    exact (if_neg (by decide)).trans (if_pos rfl)
  exact step_of_some hsep hn

theorem step_bad (hs : s.ulState = .STATE_S) {n : List UInt8} {c : UInt8} (hcomma : ¬ (lexis.Number n ∧ c = comma))
    (hdash : ¬ (lexis.Number n ∧ c = dash)) : step lexis (separators num) s (n, c) = (s, false) := by
  unfold step
  split
  · rfl
  · rename_i f hf
    refine if_neg fun hn => ?_
    unfold separators at hf
    rw [hs] at hf
    dsimp only at hf
    split_ifs at hf with h1 h2
    · exact hcomma ⟨hn, h1⟩
    · exact hdash ⟨hn, h2⟩

theorem range_eq (a b : Nat) :
    (let (ul_i, ul_e) := if a < b then (a, b) else (b, a)
    List.range' ul_i (ul_e + 1 - ul_i)) = List.range' (min a b) (max a b + 1 - min a b) := by
  by_cases h : a < b
  · rw [if_pos h, Nat.min_eq_left (Nat.le_of_lt h), Nat.max_eq_right (Nat.le_of_lt h)]
  · rw [if_neg h, Nat.min_eq_right (Nat.le_of_not_lt h), Nat.max_eq_left (Nat.le_of_not_lt h)]

theorem step_end (num : Nat) (hs : s.ulState = .STATE_PE) {b : List UInt8} (hb : lexis.Number b) :
    step lexis (separators num) s (b, comma) =
      (let r := namePorts num (List.range' (min s.ulPort (atol b)) (max s.ulPort (atol b) + 1 - min s.ulPort (atol b)))
        s.ports
      (⟨.STATE_S, s.ulPort, r.1⟩, r.2)) := by
  rw [← range_eq]
  have hsep : separators num s comma = some fun digit_temp =>
      let ulPort_E := atol digit_temp
      let (ul_i, ul_e) := if s.ulPort < ulPort_E then (s.ulPort, ulPort_E) else (ulPort_E, s.ulPort)
      let r := namePorts num (List.range' ul_i (ul_e + 1 - ul_i)) s.ports
      (⟨.STATE_S, s.ulPort, r.1⟩, r.2) := by
    unfold separators
    rw [hs]
    exact if_pos rfl
  exact step_of_some hsep hb

theorem step_end_bad (hs : s.ulState = .STATE_PE) {b : List UInt8} {c : UInt8}
    (hcomma : ¬ (lexis.Number b ∧ c = comma)) :
    step lexis (separators num) s (b, c) = (s, false) := by
  unfold step
  split
  · rfl
  · rename_i f hf
    refine if_neg fun hb => ?_
    unfold separators at hf
    rw [hs] at hf
    dsimp only at hf
    split_ifs at hf with h1
    exact hcomma ⟨hb, h1⟩

/-- A port of its own, and what comes behind it. -/
theorem run_comma (hs : s.ulState = .STATE_S) (h : Holds behind s.ports ms) (hle : ∀ m ∈ ms, m ≤ num) {n : List UInt8}
    (hn : lexis.Number n)
    (hnext : ∀ {ms s}, s.ulState = .STATE_S → Holds behind s.ports ms → (∀ m ∈ ms, m ≤ num) →
      Reads num behind ms qs ok (portsOf (run lexis (separators num) s ts))) :
    Reads num behind ms (atol n :: qs) ok (portsOf (run lexis (separators num) s ((n, comma) :: ts))) := by
  have hstep := step_comma num hs hn
  change Reads num behind ms ([atol n] ++ qs) ok _
  refine run_reads ?_ fun hport hholds => ?_
  · rw [hstep]
    exact namePort_reads h hle (atol n)
  · rw [hstep] at hholds ⊢
    exact hnext rfl hholds (forall_mem_append_le hle hport)

/-- The first port of a range, and what comes behind it. -/
theorem run_dash (hs : s.ulState = .STATE_S) (h : Holds behind s.ports ms) (hle : ∀ m ∈ ms, m ≤ num) {n : List UInt8}
    (hn : lexis.Number n)
    (hnext : ∀ {s}, s.ulState = .STATE_PE → s.ulPort = atol n → Holds behind s.ports (ms ++ [atol n]) →
      (∀ m ∈ ms ++ [atol n], m ≤ num) →
      Reads num behind (ms ++ [atol n]) qs ok (portsOf (run lexis (separators num) s ts))) :
    Reads num behind ms (atol n :: qs) ok (portsOf (run lexis (separators num) s ((n, dash) :: ts))) := by
  have hstep := step_dash num hs hn
  change Reads num behind ms ([atol n] ++ qs) ok _
  refine run_reads ?_ fun hport hholds => ?_
  · rw [hstep]
    exact namePort_reads h hle (atol n)
  · rw [hstep] at hholds ⊢
    exact hnext rfl rfl hholds (forall_mem_append_le hle hport)

/-- What the scanner reads of a list whose last number has a comma behind it. -/
theorem run_named (hclosed : Closed ts) (hs : s.ulState = .STATE_S) (h : Holds behind s.ports ms)
    (hle : ∀ m ∈ ms, m ≤ num) :
    Reads num behind ms (named ts).1 (named ts).2 (portsOf (run lexis (separators num) s ts)) := by
  induction ts using named.induct generalizing ms s with
  | case1 => exact reads_nil h true
  | case2 n c hn =>
    obtain ⟨hnumber, rfl⟩ := hn
    rw [named, if_pos ⟨hnumber, rfl⟩]
    exact run_comma hs h hle hnumber fun _ h _ => reads_nil h true
  | case3 n c hn hd =>
    have hc : c = comma := hclosed (n, c) rfl
    exact absurd ⟨hd.1, hc⟩ hn
  | case4 n c hn hd =>
    rw [named, if_neg hn, if_neg hd]
    exact run_turned_down (step_bad hs hn hd) h
  | case5 n c b c' ts hn ih =>
    obtain ⟨hnumber, rfl⟩ := hn
    rw [named, if_pos ⟨hnumber, rfl⟩]
    exact run_comma hs h hle hnumber fun hs h hle => ih hclosed.tail hs h hle
  | case6 n c b c' ts hn hd hb ih =>
    obtain ⟨hnumber, rfl⟩ := hd
    obtain ⟨hnumber', rfl⟩ := hb
    rw [named, if_neg hn, if_pos ⟨hnumber, rfl⟩, if_pos ⟨hnumber', rfl⟩]
    refine run_dash hs h hle hnumber fun {s} hs hulPort h hle => ?_
    have hstep := step_end num hs hnumber'
    rw [hulPort] at hstep
    refine run_reads ?_ fun hports hholds => ?_
    · rw [hstep]
      exact namePorts_reads _ h hle
    · rw [hstep] at hholds ⊢
      exact ih hclosed.tail.tail rfl hholds (forall_mem_append_le hle hports)
  | case7 n c b c' ts hn hd hb =>
    obtain ⟨hnumber, rfl⟩ := hd
    rw [named, if_neg hn, if_pos ⟨hnumber, rfl⟩, if_neg hb]
    exact run_dash hs h hle hnumber fun hs _ h _ => run_turned_down (step_end_bad hs hb) h
  | case8 n c b c' ts hn hd =>
    rw [named, if_neg hn, if_neg hd]
    exact run_turned_down (step_bad hs hn hd) h

/-! ## The argument -/

/-- What the parser has read at its end. -/
theorem parse_reads (num : Nat) (behind : Nat → Nat) (argv : Argv) :
    let r := Scan.scan lexis (separators num) ⟨⟨.STATE_S, 0, noPorts behind⟩, [], []⟩ (list argv)
    Reads num behind [] (named (numbers argv)).1 (named (numbers argv)).2 (r.1.state.ports, r.2) := by
  intro r
  have hrun : (r.1.state, r.2) = run lexis (separators num) ⟨.STATE_S, 0, noPorts behind⟩ (numbers argv) :=
    scan_fresh argv.1 (by decide) (by decide) (by decide) _
  change Reads num behind [] _ _ (portsOf (r.1.state, r.2))
  rw [hrun]
  exact run_named (list_closed argv).1 rfl (holds_noPorts behind) nofun

theorem given_eq (h : Holds behind t ms) : (List.range (t.port_i + 1)).map t.roter_port =
    table 0 20 ms ++ [if (table 0 20 ms).length < ETH_FILTER_MAX_PORT_NUM_ON_SLOT then 0
      else behind (table 0 20 ms).length] := by
  rw [h.port_i, List.range_succ, List.map_append, List.map_singleton, h.roter_port,
    List.getElem?_eq_none (Nat.le_refl _), Option.getD_none]
  congr 1
  refine List.ext_getElem (by rw [List.length_map, List.length_range]) fun i hi hlt => ?_
  rw [List.getElem_map, List.getElem_range, h.roter_port, List.getElem?_eq_getElem hlt]
  rfl

theorem digit_temp_in_bounds (num : Nat) (behind : Nat → Nat) (argv : Argv) :
    ∀ k ∈ (ETH_ParsePortList num behind argv).digit_temp, k < 12 :=
  fun k hk => Nat.lt_succ_of_lt (fresh_written (list argv) (by decide) _ k hk)

/-- The places that are written, and what is given. -/
theorem parsed_eq (num : Nat) (behind : Nat → Nat) (argv : Argv) :
    let T := table 0 20 (reached num (named (numbers argv)).1)
    (ETH_ParsePortList num behind argv).roter_port = List.range T.length ∧
      (ETH_ParsePortList num behind argv).ports =
        if (named (numbers argv)).2 = true ∧ ∀ port ∈ (named (numbers argv)).1, port ≤ num then
          some (T ++ [if T.length < ETH_FILTER_MAX_PORT_NUM_ON_SLOT then 0 else behind T.length])
        else none := by
  intro T
  obtain ⟨hholds, hgo⟩ := parse_reads num behind argv
  rw [List.nil_append] at hholds
  refine ⟨hholds.written, ?_⟩
  unfold ETH_ParsePortList
  dsimp only
  rw [given_eq hholds]
  exact if_congr hgo rfl rfl

theorem fits_array_iff {n : Nat} :
    (∀ k ∈ List.range n, k < ETH_FILTER_MAX_PORT_NUM_ON_SLOT) ↔ n ≤ ETH_FILTER_MAX_PORT_NUM_ON_SLOT := by
  constructor
  · intro h
    by_contra hmore
    exact Nat.lt_irrefl _ (h _ (List.mem_range.mpr (Nat.lt_of_not_le hmore)))
  · intro h k hk
    exact Nat.lt_of_lt_of_le (List.mem_range.mp hk) h

/-- A list is given when its ports take places as they are distinct, and a place is left for the 0 behind them. -/
theorem list_given_iff {argv : Argv}
    (hgood : (named (numbers argv)).2 = true ∧ ∀ port ∈ (named (numbers argv)).1, port ≤ num) :
    GivesNamed num argv ↔ table 0 20 (named (numbers argv)).1 = distinct (named (numbers argv)).1 ∧
      (distinct (named (numbers argv)).1).length < ETH_FILTER_MAX_PORT_NUM_ON_SLOT := by
  have hwritten (behind : Nat → Nat) := (parsed_eq num behind argv).1
  have hports (behind : Nat → Nat) := (parsed_eq num behind argv).2
  rw [reached_of_le hgood.2] at hwritten hports
  constructor
  · intro h
    have hlast := (hports fun _ => 1).symm.trans (h.ports hgood.1 hgood.2 fun _ => 1)
    rw [if_pos hgood] at hlast
    obtain ⟨heq, hzero⟩ := List.append_inj' (Option.some.inj hlast) rfl
    refine ⟨heq, ?_⟩
    rw [← heq]
    by_contra hmore
    rw [if_neg hmore] at hzero
    exact absurd (List.head_eq_of_cons_eq hzero) (by decide)
  · rintro ⟨heq, hfew⟩
    refine ⟨fun behind => digit_temp_in_bounds _ behind argv, fun behind => ?_, fun hbad => ?_, fun _ _ behind => ?_⟩
    · rw [hwritten, fits_array_iff, heq]
      exact Nat.le_of_lt hfew
    · rcases hbad with hbad | ⟨port, hmem, hover⟩
      · exact absurd (hbad.symm.trans hgood.1) Bool.false_ne_true
      · exact absurd (hgood.2 port hmem) (Nat.not_le.mpr hover)
    · rw [hports, if_pos hgood, heq, if_pos hfew]

/-- What is no list is turned down, and only has to stay inside the array. -/
theorem turned_down_iff {argv : Argv}
    (hbad : ¬ ((named (numbers argv)).2 = true ∧ ∀ port ∈ (named (numbers argv)).1, port ≤ num)) :
    GivesNamed num argv ↔
      (table 0 20 (reached num (named (numbers argv)).1)).length ≤ ETH_FILTER_MAX_PORT_NUM_ON_SLOT := by
  have hwritten (behind : Nat → Nat) := (parsed_eq num behind argv).1
  have hports (behind : Nat → Nat) := (parsed_eq num behind argv).2
  constructor
  · intro h
    have hin := h.roter_port fun _ => 0
    rwa [hwritten, fits_array_iff] at hin
  · intro hfew
    refine ⟨fun behind => digit_temp_in_bounds _ behind argv, fun behind => ?_, fun _ behind => ?_, fun hok hle => ?_⟩
    · rw [hwritten, fits_array_iff]
      exact hfew
    · rw [hports, if_neg hbad]
    · exact absurd ⟨hok, hle⟩ hbad

/-- The ports 1 to 21, and 21 again. -/
def twentyOneTwice : Argv := ⟨[0x31, 0x2d, 0x32, 0x31, 0x2c, 0x32, 0x31], by decide⟩

end gwdonu.port_lists
