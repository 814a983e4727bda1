-- The forwarding table is copied into the buffer for user addresses, entry after entry.
-- When each record in the buffer is of one entry alone: its address and its lowest port.
import Gwdonu.LocateUser
import Mathlib.Logic.Function.Basic
import Mathlib.Order.Bounds.Basic

namespace gwdonu.gw_usermac

open Function oam

/-! ## The program -/

/-- `phy_log_map`, for unit 0. -/
def phy_log_map : List Nat :=
  [1, 2, 3, 4, 5, 6, 7, 8, 9, 10, 11, 12, 13, 14, 15, 16, 17, 18, 19, 20, 21, 22, 23, 24, 25, 26, 0xFF]

/-- What it returns, and what `*lport` is then: the map may have nothing but `0xFF` there. -/
def boards_physical_to_logical (pport lport : Nat) : Bool × Nat :=
  if pport > PHY_PORT_MAX then (false, lport)
  else
    let lport := phy_log_map.getD pport 0xFF
    (lport ≠ 0xFF, lport)

/-- The variables of `user_mac_onu_fdb_get`. They are not set anew for each entry.
`phyportmember` are the ports that are `PHY_OK`. -/
structure FdbVars where
  vid : UInt32
  lastmac : List UInt8
  egports : UInt32
  i : Nat
  logport : Nat
  phyportmember : List Nat
  macbuf : Nat → localMacsave_t
  ifhavemac : UInt32

/-- The `for` over `phyport`. -/
def FdbVars.ports (v : FdbVars) : List Nat → FdbVars
  | [] => v
  | phyport :: ports =>
    if phyport ∈ v.phyportmember then
      let (known, logport) := boards_physical_to_logical phyport v.logport
      let v := { v with logport }
      if ¬ known then v.ports ports
      else if logport > NUM_PORTS_PER_SYSTEM ∨ logport < NUM_PORTS_MINIMUM_SYSYTEM then v.ports ports
      else { v with macbuf := update v.macbuf v.i { v.macbuf v.i with egport := logport } }
    else v.ports ports

/-- The end of a turn, which puts the address into the buffer. -/
def FdbVars.store (v : FdbVars) : FdbVars :=
  let v := { v with
    macbuf := update v.macbuf v.i { v.macbuf v.i with swmac := v.lastmac }
    i := v.i + 1 }
  if v.i ≥ USR_MAC_MAX_T then v else { v with ifhavemac := NOMAC }

/-- One turn of the `while`, with the entry that the table gave. -/
def FdbVars.turn (v : FdbVars) (e : FdbEntry) : FdbVars :=
  let v := { v with vid := e.vid, lastmac := e.mac, egports := e.egports }
  if onu_mulimac_cheak v.lastmac then v
  else
    let v := { v with phyportmember := onu_bitport_phyport_get v.egports }
    if v.phyportmember = [] then v
    else
      let v := v.ports (List.range PHY_PORT_MAX)
      if v.logport = 0 then v else v.store

/-- The `while`, over the entries that the table gives. It breaks off when the buffer is full. -/
def FdbVars.entries (v : FdbVars) : List FdbEntry → FdbVars
  | [] => v
  | e :: es =>
    let v := v.turn e
    if v.i ≥ USR_MAC_MAX_T then v else v.entries es

/-- `macbuf` is the buffer of the caller. What is counted in the end is `i`. -/
def user_mac_onu_fdb_get (es : List FdbEntry) (lastmac : List UInt8) (macbuf : Nat → localMacsave_t) :
    FdbVars :=
  FdbVars.entries ⟨0, lastmac, 0, 0, 0, [], macbuf, HAVEMAC⟩ es

/-- The records that were stored. -/
def FdbVars.stored (v : FdbVars) : List localMacsave_t := (List.range v.i).map v.macbuf

/-! ## What a record should be -/

/-- The address of a group of stations: the lowest bit of its first byte is set. -/
def Multicast (mac : List UInt8) : Prop := mac.headD 0 &&& 1 = 1

instance (mac : List UInt8) : Decidable (Multicast mac) := inferInstanceAs (Decidable (_ = _))

/-- The logical ports of a bitmap, as far as they are valid. -/
def validPorts (egports : UInt32) : Set Nat :=
  { logport | ∃ phyport, egports.toNat.testBit phyport ∧
      boards_physical_to_logical phyport 0 = (true, logport) ∧
      ¬ (logport > NUM_PORTS_PER_SYSTEM ∨ logport < NUM_PORTS_MINIMUM_SYSYTEM) }

/-- The record is of this entry: a unicast address, and its own lowest port. -/
structure Extracts (r : localMacsave_t) (e : FdbEntry) : Prop where
  mac : r.swmac = e.mac
  unicast : ¬ Multicast e.mac
  egport : IsLeast (validPorts e.egports) r.egport

/-- Each record is of an entry of its own, in their order, and the other entries are skipped. -/
def Extracted (records : List localMacsave_t) (es : List FdbEntry) : Prop :=
  ∃ chosen : List FdbEntry, chosen.Sublist es ∧ List.Forall₂ Extracts records chosen

section
variable {v : FdbVars} {e : FdbEntry} {es : List FdbEntry} {egports : UInt32} {logport phyport : Nat}

/-! ## Ports -/

theorem physical_to_logical (h : phyport < PHY_PORT_MAX) (lport : Nat) :
    boards_physical_to_logical phyport lport = (true, phyport + 1) := by
  unfold boards_physical_to_logical
  rw [if_neg (by omega)]
  have hmap : ∀ p < PHY_PORT_MAX, phy_log_map.getD p 0xFF = p + 1 ∧ p + 1 ≠ 0xFF := by decide
  obtain ⟨hport, hne⟩ := hmap phyport h
  simp only [hport]
  rw [decide_eq_true hne]

/-- No port from 26 on has a logical number. -/
theorem physical_to_logical_none (h : ¬ phyport < PHY_PORT_MAX) (lport : Nat) :
    (boards_physical_to_logical phyport lport).1 = false := by
  unfold boards_physical_to_logical
  split
  · rfl
  · rename_i hle
    have heq : phyport = PHY_PORT_MAX := by omega
    rw [heq]
    decide

theorem port_valid (h : phyport < PHY_PORT_MAX) :
    ¬ (phyport + 1 > NUM_PORTS_PER_SYSTEM ∨ phyport + 1 < NUM_PORTS_MINIMUM_SYSYTEM) := by
  unfold PHY_PORT_MAX at h
  unfold NUM_PORTS_PER_SYSTEM NUM_PORTS_MINIMUM_SYSYTEM
  omega

theorem mem_validPorts : logport ∈ validPorts egports ↔
    ∃ phyport ∈ onu_bitport_phyport_get egports, logport = phyport + 1 := by
  unfold onu_bitport_phyport_get validPorts
  simp only [List.mem_filter, List.mem_range, Set.mem_ofPred_eq]
  constructor
  · rintro ⟨phyport, hbit, hlogical, -⟩
    by_cases hlt : phyport < PHY_PORT_MAX
    · rw [physical_to_logical hlt] at hlogical
      exact ⟨phyport, ⟨hlt, hbit⟩, (Prod.mk.inj hlogical).2.symm⟩
    · have hnone := physical_to_logical_none hlt 0
      rw [hlogical] at hnone
      cases hnone
  · rintro ⟨phyport, ⟨hlt, hbit⟩, rfl⟩
    exact ⟨phyport, hbit, physical_to_logical hlt 0, port_valid hlt⟩

/-- The first port that the loop finds is the lowest of all. -/
theorem egport_least : egport egports = some logport ↔ IsLeast (validPorts egports) logport := by
  have hsorted : (onu_bitport_phyport_get egports).Pairwise (· < ·) :=
    List.Pairwise.filter _ List.pairwise_lt_range
  rw [egport_eq]
  unfold IsLeast lowerBounds
  simp only [mem_validPorts, Set.mem_ofPred_eq]
  generalize onu_bitport_phyport_get egports = members at *
  cases members with
  | nil => simp
  | cons p ports =>
    rw [List.pairwise_cons] at hsorted
    simp only [List.head?_cons, Option.map_some, Option.some.injEq]
    constructor
    · rintro rfl
      refine ⟨⟨p, List.mem_cons_self, rfl⟩, ?_⟩
      rintro _ ⟨q, hq, rfl⟩
      rcases List.mem_cons.mp hq with rfl | hq
      · rfl
      · exact Nat.succ_le_succ (hsorted.1 q hq).le
    · rintro ⟨⟨q, hq, rfl⟩, hleast⟩
      have hle := hleast ⟨p, List.mem_cons_self, rfl⟩
      rcases List.mem_cons.mp hq with rfl | hq
      · rfl
      · have := hsorted.1 q hq
        omega

/-! ## One entry -/

/-- What the `for` comes to: the first port of the entry, or nothing. -/
theorem ports_eq {ports : List Nat} (h : ∀ p ∈ ports, p < PHY_PORT_MAX) :
    v.ports ports = match ports.find? (· ∈ v.phyportmember) with
      | none => v
      | some p => { v with
          logport := p + 1
          macbuf := update v.macbuf v.i { v.macbuf v.i with egport := p + 1 } } := by
  induction ports with
  | nil => rfl
  | cons p ports ih =>
    have hp := h p List.mem_cons_self
    unfold FdbVars.ports
    rw [List.find?_cons]
    by_cases hmem : p ∈ v.phyportmember
    · rw [if_pos hmem, physical_to_logical hp, decide_eq_true hmem]
      dsimp only
      rw [if_neg (not_not.mpr rfl), if_neg (port_valid hp)]
    · rw [if_neg hmem, ih fun q hq => h q (List.mem_cons_of_mem p hq)]
      simp [hmem]

theorem find_member (egports : UInt32) :
    (List.range PHY_PORT_MAX).find? (· ∈ onu_bitport_phyport_get egports) =
      (onu_bitport_phyport_get egports).head? := by
  rw [← List.head?_filter]
  congr 1
  refine List.filter_congr fun p hp => ?_
  simp [onu_bitport_phyport_get, List.mem_range.mp hp]

/-- The loop ends with the first port of the entry. -/
theorem ports_first {p : Nat} {ports : List Nat} (hmember : v.phyportmember = p :: ports)
    (hports : onu_bitport_phyport_get egports = p :: ports) :
    v.ports (List.range PHY_PORT_MAX) = { v with
      logport := p + 1
      macbuf := update v.macbuf v.i { v.macbuf v.i with egport := p + 1 } } := by
  have hfind := find_member egports
  rw [ports_eq fun _ => List.mem_range.mp, hmember, ← hports, hfind, hports]
  rfl

/-- The record that an entry leaves, if it has a port. -/
def record (e : FdbEntry) : Option localMacsave_t := (egport e.egports).map fun logport => ⟨logport, e.mac⟩

theorem stored_congr (v : FdbVars) {v' : FdbVars} (hi : v'.i = v.i) (h : ∀ j < v.i, v'.macbuf j = v.macbuf j) :
    v'.stored = v.stored := by
  unfold FdbVars.stored
  rw [hi]
  exact List.map_congr_left fun j hj => h j (List.mem_range.mp hj)

@[simp] theorem stored_length (v : FdbVars) : v.stored.length = v.i := by
  simp [FdbVars.stored]

theorem store_stored (v : FdbVars) :
    v.store.stored = v.stored ++ [{ v.macbuf v.i with swmac := v.lastmac }] := by
  have hrange : (List.range (v.i + 1)).map (update v.macbuf v.i { v.macbuf v.i with swmac := v.lastmac }) =
      v.stored ++ [{ v.macbuf v.i with swmac := v.lastmac }] := by
    unfold FdbVars.stored
    rw [List.range_succ, List.map_append, List.map_singleton, update_self]
    congr 1
    refine List.map_congr_left fun j hj => update_of_ne ?_ _ _
    exact (List.mem_range.mp hj).ne
  unfold FdbVars.store
  dsimp only
  split
  · exact hrange
  · exact hrange

/-- What was found for an entry before is not seen again: the record is of this entry, or
there is none. -/
theorem turn_stored (v : FdbVars) (e : FdbEntry) : (v.turn e).stored = v.stored ++ (record e).toList := by
  unfold FdbVars.turn record
  dsimp only
  rw [egport_eq, onu_mulimac_cheak_false, if_neg Bool.false_ne_true]
  cases hmembers : onu_bitport_phyport_get e.egports with
  | nil =>
    rw [if_pos rfl]
    simp [FdbVars.stored]
  | cons p ports =>
    rw [if_neg (List.cons_ne_nil p ports), ports_first rfl hmembers]
    dsimp only
    rw [if_neg (Nat.succ_ne_zero p), store_stored]
    congr 1
    · exact stored_congr v rfl fun j hj => update_of_ne hj.ne _ _
    · simp

/-! ## The whole table -/

theorem entries_stored (h : v.i < USR_MAC_MAX_T) (es : List FdbEntry) :
    (v.entries es).stored = v.stored ++ (es.filterMap record).take (USR_MAC_MAX_T - v.i) := by
  induction es generalizing v with
  | nil => simp [FdbVars.entries]
  | cons e es ih =>
    have hturn := turn_stored v e
    have hcount : (v.turn e).i = v.i + (record e).toList.length := by
      rw [← stored_length, hturn, List.length_append, stored_length]
    unfold FdbVars.entries
    rw [List.filterMap_cons]
    cases hrecord : record e with
    | none =>
      rw [hrecord] at hturn hcount
      simp only [Option.toList_none, List.length_nil, Nat.add_zero, List.append_nil] at hturn hcount
      dsimp only
      rw [if_neg (by omega), ih (by omega), hturn, hcount]
    | some r =>
      rw [hrecord] at hturn hcount
      simp only [Option.toList_some, List.length_singleton] at hturn hcount
      have htake : USR_MAC_MAX_T - v.i = (USR_MAC_MAX_T - (v.i + 1)) + 1 := by omega
      dsimp only
      rw [htake, List.take_succ_cons]
      split
      · -- the buffer is full
        have hfull : USR_MAC_MAX_T - (v.i + 1) = 0 := by omega
        rw [hfull, List.take_zero, hturn]
      · rw [ih (by omega), hturn, hcount, List.append_assoc]
        rfl

/-- The entries that have a port, as far as there is room for them. -/
def taken (es : List FdbEntry) : List FdbEntry := (es.filter FdbEntry.Usable).take USR_MAC_MAX_T

theorem filterMap_pairs (es : List FdbEntry) :
    List.Forall₂ (fun r e => record e = some r) (es.filterMap record) (es.filter FdbEntry.Usable) := by
  induction es with
  | nil => exact .nil
  | cons e es ih =>
    have husable : e.Usable = (record e).isSome := by
      unfold FdbEntry.Usable record
      rw [Option.isSome_map]
    rw [List.filterMap_cons, List.filter_cons, husable]
    cases hrecord : record e with
    | none => exact ih
    | some r => exact .cons hrecord ih

theorem stored_pairs (es : List FdbEntry) (lastmac : List UInt8) (macbuf : Nat → localMacsave_t) :
    List.Forall₂ (fun r e => record e = some r) (user_mac_onu_fdb_get es lastmac macbuf).stored (taken es) := by
  have hempty : (0 : Nat) < USR_MAC_MAX_T := by decide
  unfold user_mac_onu_fdb_get taken
  rw [entries_stored hempty]
  exact List.forall₂_take _ (filterMap_pairs es)

/-- The address of a record is the one of its entry. -/
theorem record_swmac {r : localMacsave_t} (h : record e = some r) : r.swmac = e.mac := by
  obtain ⟨logport, -, rfl⟩ := Option.map_eq_some_iff.mp h
  rfl

theorem record_extracts {r : localMacsave_t} (h : record e = some r) (hunicast : ¬ Multicast e.mac) :
    Extracts r e := by
  obtain ⟨logport, hport, rfl⟩ := Option.map_eq_some_iff.mp h
  exact ⟨rfl, hunicast, egport_least.mp hport⟩

theorem extracted_unicast {records : List localMacsave_t} {chosen : List FdbEntry}
    (hpairs : List.Forall₂ (fun r e => record e = some r) records es)
    (hchosen : List.Forall₂ Extracts records chosen) : ∀ e ∈ es, ¬ Multicast e.mac := by
  have hrecords : ∀ r ∈ records, ¬ Multicast r.swmac := by
    have hunicast : List.Forall₂ (fun r e => ¬ Multicast r.swmac ∧ Extracts r e) records chosen :=
      hchosen.imp fun r e h => ⟨h.mac ▸ h.unicast, h⟩
    exact ((List.forall₂_and_left records chosen).mp hunicast).1
  have hentries : List.Forall₂ (fun e r => ¬ Multicast e.mac ∧ record e = some r) es records :=
    ((List.forall₂_and_left records es).mpr ⟨hrecords, hpairs⟩).flip.imp
      fun e r h => ⟨record_swmac h.2 ▸ h.1, h.2⟩
  exact ((List.forall₂_and_left es records).mp hentries).1

/-- Every record is of one entry, with a unicast address and the lowest port of that
entry, if no entry that takes a place is a multicast one. -/
theorem the_records_are_unicast_iff_the_entries_are (es : List FdbEntry) (lastmac : List UInt8)
    (macbuf : Nat → localMacsave_t) :
    Extracted (user_mac_onu_fdb_get es lastmac macbuf).stored es ↔ ∀ e ∈ taken es, ¬ Multicast e.mac := by
  have hpairs := stored_pairs es lastmac macbuf
  constructor
  · rintro ⟨chosen, -, hchosen⟩
    exact extracted_unicast hpairs hchosen
  · intro hunicast
    refine ⟨taken es, (List.take_sublist _ _).trans List.filter_sublist, ?_⟩
    have hboth := (List.forall₂_and_left (taken es) _).mpr ⟨hunicast, hpairs.flip⟩
    exact hboth.flip.imp fun r e h => record_extracts h.2 h.1

/-- The address of a group, on port 0, is taken for the one of a station. -/
theorem a_group_address_is_stored : ¬ Extracted
    (user_mac_onu_fdb_get [⟨1, [1, 0, 0x5e, 0, 0, 1], 1, rfl⟩] nullmac fun _ => ⟨0, nullmac⟩).stored
    [⟨1, [1, 0, 0x5e, 0, 0, 1], 1, rfl⟩] := by
  rintro ⟨chosen, -, hchosen⟩
  have hunicast := extracted_unicast (stored_pairs _ _ _) hchosen
  revert hunicast
  decide

end

end gwdonu.gw_usermac
