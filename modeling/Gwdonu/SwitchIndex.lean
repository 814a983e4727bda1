-- The calls that SNMP walks the switches with, and those that look one up by its MAC. What
-- they make of a table, of an empty one, and of a MAC that no switch has.
import Gwdonu.Lib.Cursor
import Gwdonu.SwitchMonitor

namespace gwdonu.switch_index

open cursor
open rcp (RCP_RET MAX_RRCP_SWITCH_TO_MANAGE)
open switch_monitor (Mac)

/-! ## The program -/

abbrev Table := switch_monitor.State

/-- What a call returns, and what it stores, if it does. -/
structure Answer where
  ret : RCP_RET
  index : Option Nat
  deriving DecidableEq

/-- The six parts of an object identifier, each cut to a byte. -/
def convertOidToChar (oidMac : Vector UInt32 6) : Mac := oidMac.map UInt32.toUInt8

/-- The loops of the four calls: they end at the first port that is `hit`; of the others they count
those that are `missed`, and compare the count behind the loop. -/
def scan (hit missed : Nat → Bool) (fails : Nat → Bool) : List Nat → Nat → Answer
  | [], flag => ⟨if fails flag then .RCP_ERROR else .RCP_OK, none⟩
  | i :: ports, flag =>
    if hit i then ⟨.RCP_OK, some i⟩ else scan hit missed fails ports (if missed i then flag + 1 else flag)

/-- The ports `i` and behind. -/
def portsFrom (i : Nat) : List Nat := List.range' i (MAX_RRCP_SWITCH_TO_MANAGE - i)

section
variable (s : Table)

/-- The valid device at the port has this MAC. -/
def HasMac (mac : Mac) (i : Nat) : Prop := s.RCP_Dev_Is_Valid i ∧ (s.rcpDevList i).map (·.switchMac) = some mac

instance (mac : Mac) (i : Nat) : Decidable (HasMac s mac i) := inferInstanceAs (Decidable (_ ∧ _))

def RCP_GetDevIndexByMac (mac : Vector UInt32 6) : Answer :=
  scan (fun i => HasMac s (convertOidToChar mac) i) (fun _ => true) (· = MAX_RRCP_SWITCH_TO_MANAGE) (portsFrom 1) 0

def RCP_GetValidIndex (mac : Vector UInt32 6) : Answer :=
  scan (fun i => HasMac s (convertOidToChar mac) i) (fun i => s.RCP_Dev_Is_Valid i) (· = 0) (portsFrom 1) 0

def RCP_GetFirstIndex : Answer :=
  scan (fun i => s.RCP_Dev_Is_Valid i) (fun _ => true) (· = MAX_RRCP_SWITCH_TO_MANAGE) (portsFrom 1) 0

/-- For an index that an `int` holds. -/
def RCP_GetNextIndex (index : Nat) : Answer :=
  if index = 0 then ⟨.RCP_ERROR, none⟩
  else
    scan (fun i => s.RCP_Dev_Is_Valid i ∧ i ≠ 0) (fun _ => true)
      (fun flag => flag + index + 1 = MAX_RRCP_SWITCH_TO_MANAGE)
      (portsFrom (index + 1)) 0

/-! ## The law -/

/-- The walk from what a call has answered: the next call gets the index that this one stored, and
the walk is over when a call fails. -/
inductive Walk : Answer → List Nat → Prop
  | stops (answer : Answer) : answer.ret ≠ .RCP_OK → Walk answer []
  | visit (answer : Answer) (i : Nat) (l : List Nat) : answer.ret = .RCP_OK → answer.index = some i →
      Walk (RCP_GetNextIndex s i) l → Walk answer (i :: l)

def validPorts : List Nat := (portsFrom 1).filter fun i => s.RCP_Dev_Is_Valid i

/-- The call succeeds just when a device has the MAC, and stores the lowest port that has it. -/
structure Finds (mac : Mac) (answer : Answer) : Prop where
  ok : answer.ret = .RCP_OK ↔ ∃ i, 1 ≤ i ∧ HasMac s mac i
  lowest : answer.ret = .RCP_OK →
    ∃ i, answer.index = some i ∧ 1 ≤ i ∧ HasMac s mac i ∧ ∀ j, 1 ≤ j → j < i → ¬ HasMac s mac j

def Populated : Prop := ∃ i, 1 ≤ i ∧ s.RCP_Dev_Is_Valid i

def Known (mac : Mac) : Prop := ∃ i, 1 ≤ i ∧ HasMac s mac i

end

variable {s : Table} {hit missed fails : Nat → Bool} {l : List Nat} {i flag : Nat} {mac : Mac} {answer : Answer}

/-! ## The loops -/

theorem scan_hit (h : l.find? hit = some i) : scan hit missed fails l flag = ⟨.RCP_OK, some i⟩ := by
  induction l generalizing flag with
  | nil => cases h
  | cons j l ih =>
    rw [scan]
    by_cases hj : hit j
    · rw [List.find?_cons_of_pos hj] at h
      rw [if_pos hj, Option.some.inj h]
    · rw [List.find?_cons_of_neg hj] at h
      rw [if_neg hj, ih h]

theorem scan_miss (h : l.find? hit = none) : scan hit missed fails l flag =
    ⟨if fails (flag + l.countP missed) then .RCP_ERROR else .RCP_OK, none⟩ := by
  induction l generalizing flag with
  | nil => rfl
  | cons j l ih =>
    have hj : ¬ hit j := List.find?_eq_none.mp h j List.mem_cons_self
    rw [List.find?_cons_of_neg hj] at h
    rw [scan, if_neg hj, ih h, List.countP_cons]
    by_cases hm : missed j
    · rw [if_pos hm, if_pos hm, Nat.add_comm (l.countP missed), Nat.add_assoc]
    · rw [if_neg hm, if_neg hm, Nat.add_zero]

theorem mem_portsFrom {j : Nat} : i ∈ portsFrom j ↔ j ≤ i ∧ i < MAX_RRCP_SWITCH_TO_MANAGE := by
  rw [portsFrom, List.mem_range'_1]
  omega

theorem mem_validPorts : i ∈ validPorts s ↔ 1 ≤ i ∧ s.RCP_Dev_Is_Valid i := by
  rw [validPorts, List.mem_filter, mem_portsFrom, decide_eq_true_eq, and_assoc]
  exact and_congr_right fun _ => and_iff_right_of_imp And.left

theorem validPorts_sorted (s : Table) : Sorted id (validPorts s) :=
  (List.pairwise_lt_range' (s := 1) (n := MAX_RRCP_SWITCH_TO_MANAGE - 1)).filter _

/-- The valid ports behind a port are those that the loop of the next call comes to. -/
theorem after_eq (hi : i < MAX_RRCP_SWITCH_TO_MANAGE) :
    after id (validPorts s) i = (portsFrom (i + 1)).filter fun j => s.RCP_Dev_Is_Valid j := by
  have hsplit : portsFrom 1 = List.range' 1 i ++ portsFrom (i + 1) := by
    have hparts := List.range'_append_1 (s := 1) (m := i) (n := MAX_RRCP_SWITCH_TO_MANAGE - (i + 1))
    rw [show i + (MAX_RRCP_SWITCH_TO_MANAGE - (i + 1)) = MAX_RRCP_SWITCH_TO_MANAGE - 1 by omega] at hparts
    rw [Nat.add_comm 1 i] at hparts
    exact hparts.symm
  have hlow : (List.range' 1 i).filter (fun j => decide (i < id j)) = [] := by
    rw [List.filter_eq_nil_iff]
    intro j hj
    rw [List.mem_range'_1] at hj
    simp
    omega
  have hhigh : (portsFrom (i + 1)).filter (fun j => decide (i < id j)) = portsFrom (i + 1) := by
    rw [List.filter_eq_self]
    intro j hj
    exact decide_eq_true (mem_portsFrom.mp hj).1
  unfold after validPorts
  rw [List.filter_comm, hsplit, List.filter_append, hlow, List.nil_append, hhigh]

/-! ## The walk -/

theorem next_eq (hpos : 1 ≤ i) (hi : i < MAX_RRCP_SWITCH_TO_MANAGE) : RCP_GetNextIndex s i =
    match after id (validPorts s) i with
    | [] => ⟨.RCP_ERROR, none⟩
    | j :: _ => ⟨.RCP_OK, some j⟩ := by
  have hfind : (portsFrom (i + 1)).find? (fun j => s.RCP_Dev_Is_Valid j ∧ j ≠ 0) =
      (after id (validPorts s) i).head? := by
    rw [after_eq hi, ← List.head?_filter]
    refine congrArg List.head? (List.filter_congr fun j hj => ?_)
    have hlt := (mem_portsFrom.mp hj).1
    rw [decide_eq_decide]
    exact and_iff_left (by omega)
  rw [RCP_GetNextIndex, if_neg (by omega)]
  cases hafter : after id (validPorts s) i with
  | nil =>
    rw [hafter] at hfind
    rw [scan_miss hfind, List.countP_true, portsFrom, List.length_range']
    simp
    omega
  | cons j l =>
    rw [hafter] at hfind
    exact scan_hit hfind

/-- From a valid port on, the walk visits the valid ports behind it. -/
theorem walk_next (hpos : 1 ≤ i) (hi : i < MAX_RRCP_SWITCH_TO_MANAGE) :
    Walk s (RCP_GetNextIndex s i) (after id (validPorts s) i) := by
  generalize hl : after id (validPorts s) i = l
  induction l generalizing i with
  | nil =>
    rw [next_eq hpos hi, hl]
    exact .stops _ (by decide)
  | cons j l ih =>
    rw [next_eq hpos hi, hl]
    have hj : j ∈ validPorts s := (mem_after.mp (hl ▸ List.mem_cons_self)).1
    obtain ⟨hone, hvalid⟩ := mem_validPorts.mp hj
    exact .visit _ j l rfl rfl (ih hone hvalid.1 ((validPorts_sorted s).after_cons hl))

/-- The first call never fails: its loop is one shorter than it asks. -/
theorem first_eq (s : Table) : RCP_GetFirstIndex s = ⟨.RCP_OK, (validPorts s).head?⟩ := by
  have hfind : (portsFrom 1).find? (fun i => s.RCP_Dev_Is_Valid i) = (validPorts s).head? := (List.head?_filter ..).symm
  unfold RCP_GetFirstIndex
  cases hhead : (validPorts s).head? with
  | none =>
    rw [hhead] at hfind
    rw [scan_miss hfind, List.countP_true, if_neg (by decide)]
  | some i =>
    rw [hhead] at hfind
    exact scan_hit hfind

theorem walk_first : Walk s (RCP_GetFirstIndex s) (validPorts s) ↔ Populated s := by
  rw [first_eq]
  cases hports : validPorts s with
  | nil =>
    refine iff_of_false ?_ ?_
    · intro hwalk
      cases hwalk with
      | stops _ hret => exact hret rfl
    · rintro ⟨i, hi⟩
      have hmem := mem_validPorts.mpr hi
      rw [hports] at hmem
      cases hmem
  | cons i l =>
    have hi : i ∈ validPorts s := hports ▸ List.mem_cons_self
    obtain ⟨hpos, hvalid⟩ := mem_validPorts.mp hi
    refine iff_of_true ?_ ⟨i, hpos, hvalid⟩
    have hafter : after id (validPorts s) 0 = i :: l := by
      rw [← hports]
      unfold after
      rw [List.filter_eq_self]
      exact fun j hj => decide_eq_true (mem_validPorts.mp hj).1
    have hnext := walk_next (s := s) hpos hvalid.1
    rw [show after id (validPorts s) i = l from (validPorts_sorted s).after_cons hafter] at hnext
    exact .visit _ i l rfl rfl hnext

/-! ## The look-up -/

theorem find_known (h : Known s mac) : ∃ i, (portsFrom 1).find? (fun i => HasMac s mac i) = some i := by
  obtain ⟨i, hi, hmac⟩ := h
  refine Option.isSome_iff_exists.mp (List.find?_isSome.mpr ⟨i, mem_portsFrom.mpr ⟨hi, hmac.1.1⟩, ?_⟩)
  exact decide_eq_true hmac

theorem find_unknown (h : ¬ Known s mac) : (portsFrom 1).find? (fun i => HasMac s mac i) = none := by
  rw [List.find?_eq_none]
  intro i hi hmac
  exact h ⟨i, (mem_portsFrom.mp hi).1, of_decide_eq_true hmac⟩

/-- A loop that hits the ports of the MAC stores the lowest one. -/
theorem scan_finds (h : Known s mac) : Finds s mac (scan (fun i => HasMac s mac i) missed fails (portsFrom 1) 0) := by
  obtain ⟨i, hfind⟩ := find_known h
  rw [scan_hit hfind]
  obtain ⟨hmac, hi, hleast⟩ := List.find?_range'_eq_some.mp hfind
  refine ⟨iff_of_true rfl h, fun _ => ⟨i, rfl, (List.mem_range'_1.mp hi).1, of_decide_eq_true hmac, ?_⟩⟩
  intro j hj hji hother
  have hmissed := hleast j hj hji
  rw [decide_eq_true hother] at hmissed
  cases hmissed

theorem unknown_finds (h : ¬ Known s mac) : Finds s mac answer ↔ answer.ret ≠ .RCP_OK :=
  ⟨fun hfinds hret => h (hfinds.ok.mp hret),
    fun hret => ⟨iff_of_false hret h, fun hok => absurd hok hret⟩⟩

/-- The count of misses is never as high as the call asks. -/
theorem byMac_finds (s : Table) (mac : Vector UInt32 6) :
    Finds s (convertOidToChar mac) (RCP_GetDevIndexByMac s mac) ↔ Known s (convertOidToChar mac) := by
  by_cases hknown : Known s (convertOidToChar mac)
  · exact iff_of_true (scan_finds hknown) hknown
  · rw [unknown_finds hknown]
    refine iff_of_false (not_not.mpr ?_) hknown
    rw [RCP_GetDevIndexByMac, scan_miss (find_unknown hknown), List.countP_true, if_neg (by decide)]

/-- The call counts the valid devices that have another MAC. -/
theorem validIndex_finds (s : Table) (mac : Vector UInt32 6) :
    Finds s (convertOidToChar mac) (RCP_GetValidIndex s mac) ↔
      (Populated s → Known s (convertOidToChar mac)) := by
  by_cases hknown : Known s (convertOidToChar mac)
  · exact iff_of_true (scan_finds hknown) fun _ => hknown
  · have hcount : (portsFrom 1).countP (fun i => s.RCP_Dev_Is_Valid i) = 0 ↔ ¬ Populated s := by
      rw [List.countP_eq_zero]
      constructor
      · rintro hnone ⟨i, hpos, hvalid⟩
        exact hnone i (mem_portsFrom.mpr ⟨hpos, hvalid.1⟩) (decide_eq_true hvalid)
      · intro hempty i hi hvalid
        exact hempty ⟨i, (mem_portsFrom.mp hi).1, of_decide_eq_true hvalid⟩
    rw [unknown_finds hknown, RCP_GetValidIndex, scan_miss (find_unknown hknown), Nat.zero_add]
    by_cases hpopulated : Populated s
    · refine iff_of_false (not_not.mpr ?_) fun h => hknown (h hpopulated)
      exact if_neg fun h => hcount.mp (of_decide_eq_true h) hpopulated
    · refine iff_of_true ?_ fun h => absurd h hpopulated
      rw [if_pos (decide_eq_true (hcount.mpr hpopulated))]
      decide

/-- The walk is right just when there is a device to walk to; the call by MAC, when there is one
with the MAC; and the other one, when there is or the table is empty. -/
theorem the_table_is_read_right_iff_it_has_what_is_looked_for (s : Table) :
    (Walk s (RCP_GetFirstIndex s) (validPorts s) ↔ Populated s) ∧
      ∀ mac, (Finds s (convertOidToChar mac) (RCP_GetDevIndexByMac s mac) ↔ Known s (convertOidToChar mac)) ∧
        (Finds s (convertOidToChar mac) (RCP_GetValidIndex s mac) ↔
          (Populated s → Known s (convertOidToChar mac))) :=
  ⟨walk_first, fun mac => ⟨byMac_finds s mac, validIndex_finds s mac⟩⟩

/-- In an empty table, the first call succeeds, and so does the one by MAC. -/
theorem an_empty_table_is_walked_and_searched :
    ¬ Walk (.init true) (RCP_GetFirstIndex (.init true)) (validPorts (.init true)) ∧
      ¬ Finds (.init true) (convertOidToChar (Vector.replicate 6 7))
        (RCP_GetDevIndexByMac (.init true) (Vector.replicate 6 7)) := by
  refine ⟨?_, ?_⟩
  · intro hwalk
    cases hwalk with
    | stops _ hret => exact hret (by decide)
  · intro hfinds
    obtain ⟨i, hindex, -⟩ := hfinds.lowest (by decide)
    have hnone : (RCP_GetDevIndexByMac (.init true) (Vector.replicate 6 7)).index = none := by decide
    rw [hnone] at hindex
    cases hindex

end gwdonu.switch_index
