-- The event log: records are written into a ring of slots in memory, each behind
-- a byte that says that the slot is in use, and read slot after slot.
import Gwdonu.Lib.Ring
import Gwdonu.Lib.Runs
import Mathlib.Data.UInt

namespace gwdonu.gw_log

open Function rings runs

/-! ## The program -/

def GW_MAX_EVENT_LOG_NUM : Nat := 1024
def GW_EVENT_LOG_LENGTH : Nat := 128

/-- The bytes of `g_eventmsgqueue`, one slot after another. -/
structure Log where
  g_eventmsgqueue : Nat → UInt8
  log_current_slot : Nat

def Log.init : Log := ⟨fun _ => 0, 0⟩

def memset (memory : Nat → UInt8) (dest : Nat) (c : UInt8) (n : Nat) : Nat → UInt8 :=
  fun a => if dest ≤ a ∧ a < dest + n then c else memory a

def memcpy (memory : Nat → UInt8) (dest : Nat) (src : Nat → UInt8) (n : Nat) : Nat → UInt8 :=
  fun a => if dest ≤ a ∧ a < dest + n then src (a - dest) else memory a

/-- `rec` is what the pointer shows, if it is not `NULL`. -/
def Log.gw_log_add_record (log : Log) (rec : Option (Nat → UInt8)) (len : Int) : Log × Nat :=
  match rec with
  | none => (log, log.log_current_slot)
  | some rec =>
    if len > 0 then
      let pmsg :=
        if log.log_current_slot < GW_MAX_EVENT_LOG_NUM - 1 then
          (log.log_current_slot + 1) * GW_EVENT_LOG_LENGTH
        else 0
      let memory := memset log.g_eventmsgqueue pmsg 0 GW_EVENT_LOG_LENGTH
      let memory := update memory pmsg 1
      let memory :=
        if len < GW_EVENT_LOG_LENGTH - 2 then memcpy memory (pmsg + 1) rec len.toNat
        else memcpy memory (pmsg + 1) rec (GW_EVENT_LOG_LENGTH - 2)
      let log_current_slot :=
        if log.log_current_slot = GW_MAX_EVENT_LOG_NUM - 1 then 0 else log.log_current_slot + 1
      (⟨memory, log_current_slot⟩, log_current_slot)
    else (log, log.log_current_slot)

/-- The `valid` of a slot's entry. -/
def Log.valid (log : Log) (slot : Nat) : Bool :=
  log.g_eventmsgqueue (slot * GW_EVENT_LOG_LENGTH) ≠ 0

/-- The address of its `text`. -/
def text (slot : Nat) : Nat := slot * GW_EVENT_LOG_LENGTH + 1

/-- The `do` of `gw_log_getnext_record`, for some turns. -/
def Log.first_valid (log : Log) : Nat → Nat → Option Nat
  | 0, _ => none
  | fuel + 1, i =>
    if log.valid i then some i
    else log.first_valid fuel (if i = GW_MAX_EVENT_LOG_NUM - 1 then 0 else i + 1)

/-- The text and its slot. When no slot is in use, the loop does not end. -/
def Log.gw_log_getnext_record (log : Log) (slot : Int) : Option (Nat × Nat) :=
  let start :=
    if ¬ (slot < 0 ∨ slot ≥ GW_MAX_EVENT_LOG_NUM) then
      if slot = GW_MAX_EVENT_LOG_NUM - 1 then 0 else slot.toNat + 1
    else log.log_current_slot
  (log.first_valid GW_MAX_EVENT_LOG_NUM start).map fun i => (text i, i)

/-! ## The ring -/

structure Call where
  buf : Option (Nat → UInt8)
  len : Int

def Log.call (log : Log) (c : Call) : Log := (log.gw_log_add_record c.buf c.len).1

/-- The record that a call adds. -/
def Call.record (c : Call) : Option ((Nat → UInt8) × Nat) :=
  if c.len > 0 then c.buf.map fun buf => (buf, c.len.toNat) else none

/-- The slot holds the record, as far as there is room, and a NUL behind it. -/
def Log.Holds (log : Log) (slot : Nat) (record : (Nat → UInt8) × Nat) : Prop :=
  let length := min record.2 (GW_EVENT_LOG_LENGTH - 2)
  (∀ i < length, log.g_eventmsgqueue (text slot + i) = record.1 i) ∧
    log.g_eventmsgqueue (text slot + length) = 0 ∧
    text slot + length < (slot + 1) * GW_EVENT_LOG_LENGTH

/-- The bytes of a text. -/
def Log.bytes (log : Log) (slot : Nat) : List UInt8 :=
  (List.range (GW_EVENT_LOG_LENGTH - 1)).map fun i => log.g_eventmsgqueue (text slot + i)

/-- The bytes that a record is kept as. -/
def kept (record : (Nat → UInt8) × Nat) : List UInt8 :=
  (List.range (GW_EVENT_LOG_LENGTH - 1)).map fun i =>
    if i < min record.2 (GW_EVENT_LOG_LENGTH - 2) then record.1 i else 0

/-- The slots that are in use. -/
def Log.ring (log : Log) : RingBuffer (List UInt8) where
  slot slot := if log.valid slot then some (log.bytes slot) else none
  cursor := log.log_current_slot

section
variable {log : Log} {c : Call} {record : (Nat → UInt8) × Nat} {slot : Nat} {l : List (List UInt8)}

theorem call_none (h : c.record = none) : log.call c = log := by
  unfold Call.record at h
  unfold Log.call Log.gw_log_add_record
  cases hbuf : c.buf with
  | none => rfl
  | some buf =>
    by_cases hlen : c.len > 0
    · simp [hlen, hbuf] at h
    · simp [hlen]

/-- One record is copied, cut off or not. -/
theorem memcpy_cut (memory : Nat → UInt8) (dest : Nat) (src : Nat → UInt8) (len : Int) (n : Nat) :
    (if len < n then memcpy memory dest src len.toNat else memcpy memory dest src n) =
      memcpy memory dest src (min len.toNat n) := by
  split
  · rw [Nat.min_eq_left (by omega)]
  · rw [Nat.min_eq_right (by omega)]

theorem call_some (h : c.record = some record) (hslot : log.log_current_slot < GW_MAX_EVENT_LOG_NUM) :
    let slot := succ GW_MAX_EVENT_LOG_NUM log.log_current_slot
    let pmsg := slot * GW_EVENT_LOG_LENGTH
    log.call c = ⟨memcpy (update (memset log.g_eventmsgqueue pmsg 0 GW_EVENT_LOG_LENGTH) pmsg 1) (pmsg + 1)
      record.1 (min record.2 (GW_EVENT_LOG_LENGTH - 2)), slot⟩ := by
  intro slot pmsg
  unfold Call.record at h
  split at h
  · rename_i hlen
    obtain ⟨buf, hbuf, rfl⟩ := Option.map_eq_some_iff.mp h
    have hpmsg : (if log.log_current_slot < GW_MAX_EVENT_LOG_NUM - 1 then
        (log.log_current_slot + 1) * GW_EVENT_LOG_LENGTH else 0) = pmsg := by
      unfold pmsg slot succ
      split_ifs
      · omega
      · rfl
      · simp
      · omega
    unfold Log.call Log.gw_log_add_record
    rw [hbuf]
    dsimp only
    rw [if_pos hlen, hpmsg]
    exact congrArg (Log.mk · _) (memcpy_cut _ _ _ _ _)
  · cases h

/-- What a call leaves in the memory of the slots. -/
theorem call_byte (h : c.record = some record) (hslot : log.log_current_slot < GW_MAX_EVENT_LOG_NUM)
    {i : Nat} (hi : i < GW_EVENT_LOG_LENGTH) :
    (log.call c).g_eventmsgqueue (slot * GW_EVENT_LOG_LENGTH + i) =
      if slot = succ GW_MAX_EVENT_LOG_NUM log.log_current_slot then
        if i = 0 then 1
        else if i - 1 < min record.2 (GW_EVENT_LOG_LENGTH - 2) then record.1 (i - 1) else 0
      else log.g_eventmsgqueue (slot * GW_EVENT_LOG_LENGTH + i) := by
  have hlength : min record.2 (GW_EVENT_LOG_LENGTH - 2) < 127 := by
    unfold GW_EVENT_LOG_LENGTH
    omega
  rw [call_some h hslot]
  generalize succ GW_MAX_EVENT_LOG_NUM log.log_current_slot = current
  generalize min record.2 (GW_EVENT_LOG_LENGTH - 2) = length at *
  unfold GW_EVENT_LOG_LENGTH at *
  dsimp only
  by_cases hcurrent : slot = current
  · subst hcurrent
    rw [if_pos rfl]
    unfold memcpy
    cases i with
    | zero => simp
    | succ i =>
      have haddress : slot * 128 + (i + 1) - (slot * 128 + 1) = i := by omega
      by_cases hlt : i < length
      · rw [if_pos (by omega), haddress]
        simp [hlt]
      · rw [if_neg (by omega), update_of_ne (by omega)]
        simp [memset, hlt, hi]
  · unfold memcpy memset
    rw [if_neg hcurrent, if_neg (by omega), update_of_ne (by omega), if_neg (by omega)]

theorem call_valid (h : c.record = some record) (hslot : log.log_current_slot < GW_MAX_EVENT_LOG_NUM) :
    (log.call c).valid slot =
      if slot = succ GW_MAX_EVENT_LOG_NUM log.log_current_slot then true else log.valid slot := by
  unfold Log.valid
  rw [← Nat.add_zero (slot * GW_EVENT_LOG_LENGTH), call_byte h hslot (by decide), if_pos rfl]
  split
  · simp
  · rfl

theorem call_bytes (h : c.record = some record) (hslot : log.log_current_slot < GW_MAX_EVENT_LOG_NUM) :
    (log.call c).bytes slot =
      if slot = succ GW_MAX_EVENT_LOG_NUM log.log_current_slot then kept record else log.bytes slot := by
  have hbyte (i : Nat) (hi : i < GW_EVENT_LOG_LENGTH - 1) :
      (log.call c).g_eventmsgqueue (text slot + i) =
        if slot = succ GW_MAX_EVENT_LOG_NUM log.log_current_slot then
          if i < min record.2 (GW_EVENT_LOG_LENGTH - 2) then record.1 i else 0
        else log.g_eventmsgqueue (text slot + i) := by
    have hlt : 1 + i < GW_EVENT_LOG_LENGTH := by omega
    unfold text
    rw [Nat.add_assoc, call_byte h hslot hlt, if_neg (show ¬ 1 + i = 0 by omega), Nat.add_sub_cancel_left]
  unfold Log.bytes kept
  split
  · rename_i hcurrent
    refine List.map_congr_left fun i hi => ?_
    rw [hbyte i (List.mem_range.mp hi), if_pos hcurrent]
  · rename_i hcurrent
    refine List.map_congr_left fun i hi => ?_
    rw [hbyte i (List.mem_range.mp hi), if_neg hcurrent]

/-- A call with a record pushes it. -/
theorem call_ring (h : c.record = some record) (hslot : log.log_current_slot < GW_MAX_EVENT_LOG_NUM) :
    (log.call c).ring = log.ring.push GW_MAX_EVENT_LOG_NUM (kept record) := by
  unfold Log.ring RingBuffer.push
  congr 1
  · funext slot
    rw [call_valid h hslot, call_bytes h hslot, update_apply]
    dsimp only
    split
    · rfl
    · rfl
  · rw [call_some h hslot]

theorem init_ring : rings.Holds GW_MAX_EVENT_LOG_NUM Log.init.ring [] :=
  ⟨by decide, fun _ _ => rfl⟩

theorem run_ring (calls : List Call) (h : rings.Holds GW_MAX_EVENT_LOG_NUM log.ring l) :
    rings.Holds GW_MAX_EVENT_LOG_NUM (run Log.call log calls).ring
      (((calls.filterMap Call.record).map kept).reverse ++ l) := by
  induction calls generalizing log l with
  | nil => exact h
  | cons c calls ih =>
    rw [run_cons, List.filterMap_cons]
    cases hrecord : c.record with
    | none =>
      rw [call_none hrecord]
      exact ih h
    | some record =>
      have hpush := h.push (kept record)
      rw [← call_ring hrecord h.cursor] at hpush
      simpa using ih hpush

@[simp] theorem ring_isSome (log : Log) (i : Nat) : (log.ring.slot i).isSome = log.valid i := by
  simp [Log.ring, apply_ite]

theorem first_valid_scan (log : Log) (fuel i : Nat) : log.first_valid fuel i =
    scan GW_MAX_EVENT_LOG_NUM (fun i => (log.ring.slot i).isSome) fuel i := by
  induction fuel generalizing i with
  | zero => rfl
  | succ fuel ih =>
    unfold Log.first_valid scan
    rw [ring_isSome, ih]
    rfl

theorem getnext_ring (hslot : slot < GW_MAX_EVENT_LOG_NUM) :
    (log.gw_log_getnext_record slot).map Prod.snd = log.ring.next GW_MAX_EVENT_LOG_NUM slot := by
  have hstart : (if ¬ ((slot : Int) < 0 ∨ (slot : Int) ≥ GW_MAX_EVENT_LOG_NUM) then
      if (slot : Int) = GW_MAX_EVENT_LOG_NUM - 1 then 0 else (slot : Int).toNat + 1
      else log.log_current_slot) = succ GW_MAX_EVENT_LOG_NUM slot := by
    unfold GW_MAX_EVENT_LOG_NUM succ at *
    rw [if_pos (by omega)]
    split_ifs <;> omega
  unfold Log.gw_log_getnext_record RingBuffer.next
  dsimp only
  rw [hstart, first_valid_scan, Option.map_map]
  exact Option.map_id'

/-- What a slot's bytes are is what the record was. -/
theorem bytes_hold (h : log.bytes slot = kept record) : log.Holds slot record := by
  unfold Log.bytes kept at h
  rw [List.map_inj_left] at h
  unfold Log.Holds
  intro length
  have hlength : length < GW_EVENT_LOG_LENGTH - 1 := by
    unfold length GW_EVENT_LOG_LENGTH
    omega
  refine ⟨?_, ?_, ?_⟩
  · intro i hi
    rw [h i (List.mem_range.mpr (hi.trans hlength)), if_pos hi]
  · rw [h length (List.mem_range.mpr hlength), if_neg (lt_irrefl length)]
  · unfold text
    rw [Nat.add_one_mul]
    omega

/-- The log holds the last records, the newest at the current slot, and the walk
from there comes to each of them, the oldest first. -/
theorem the_log_holds_the_last_records (calls : List Call) (h : calls.filterMap Call.record ≠ []) :
    let log := run Log.call .init calls
    let records := calls.filterMap Call.record
    let last := records.drop (records.length - GW_MAX_EVENT_LOG_NUM)
    ∃ slots, visits (fun slot => (log.gw_log_getnext_record slot).map Prod.snd) last.length
        log.log_current_slot = some slots ∧
      slots.Nodup ∧ slots.getLast? = some log.log_current_slot ∧
      (∀ slot, slot ∈ slots ↔ slot < GW_MAX_EVENT_LOG_NUM ∧ log.valid slot) ∧
      List.Forall₂ log.Holds slots last := by
  intro log records last
  have hring := run_ring calls init_ring
  rw [List.append_nil] at hring
  have hlength : min ((records.map kept).reverse).length GW_MAX_EVENT_LOG_NUM = last.length := by
    simp [last]
    omega
  have hpos : 0 < last.length := by
    have := List.length_pos_iff.mpr h
    simp only [last, records, List.length_drop, GW_MAX_EVENT_LOG_NUM]
    omega
  have hlast : (((records.map kept).reverse).take last.length).reverse = last.map kept := by
    have hdrop : records.length - last.length = records.length - GW_MAX_EVENT_LOG_NUM := by
      simp only [last, List.length_drop]
      omega
    rw [List.take_reverse, List.reverse_reverse, List.length_map, hdrop, ← List.map_drop]
  refine ⟨log.ring.slots GW_MAX_EVENT_LOG_NUM last.length, ?_, ?_, slots_getLast log.ring hpos, ?_, ?_⟩
  · have hnext (slot : Nat) (hslot : slot < GW_MAX_EVENT_LOG_NUM) :
        (log.gw_log_getnext_record slot).map Prod.snd = log.ring.next GW_MAX_EVENT_LOG_NUM slot :=
      getnext_ring hslot
    have hsame := visits_congr hnext (fun i j hi hj => RingBuffer.next_lt hi hj) last.length hring.cursor
    refine hsame.trans ?_
    rw [← hlength]
    exact hring.visits_all
  · rw [← hlength]
    exact hring.slots_nodup
  · intro slot
    rw [← hlength, ← ring_isSome]
    exact hring.mem_slots
  · have hholds := hring.slots_hold hlength.ge
    rw [hlast, List.forall₂_map_right_iff] at hholds
    refine hholds.imp fun slot record hslot => bytes_hold ?_
    unfold Log.ring at hslot
    simp only [Option.ite_none_right_eq_some, Option.some.injEq] at hslot
    exact hslot.2

/-- A short record, a call without one and a record that is cut off. -/
theorem two_records_are_logged :
    let calls : List Call := [⟨some fun _ => 65, 3⟩, ⟨none, 5⟩, ⟨some fun _ => 66, 200⟩]
    let log := run Log.call .init calls
    let records := calls.filterMap Call.record
    let last := records.drop (records.length - GW_MAX_EVENT_LOG_NUM)
    ∃ slots, visits (fun slot => (log.gw_log_getnext_record slot).map Prod.snd) last.length
        log.log_current_slot = some slots ∧
      slots.Nodup ∧ slots.getLast? = some log.log_current_slot ∧
      (∀ slot, slot ∈ slots ↔ slot < GW_MAX_EVENT_LOG_NUM ∧ log.valid slot) ∧
      List.Forall₂ log.Holds slots last :=
  the_log_holds_the_last_records [⟨some fun _ => 65, 3⟩, ⟨none, 5⟩, ⟨some fun _ => 66, 200⟩]
    (by simp [Call.record])

/-! ## The end of a walk -/

/-- `gw_log_getnext_record` with `nextslot`, which may be `NULL`, and with the turns that its
loop is given: what it returns, and what `nextslot` shows then. -/
def Log.getnext (log : Log) (turns : Nat) (slot : Int) (nextslot : Option Int) :
    Option (Option Nat × Option Int) :=
  match nextslot with
  | none => some (none, none)
  | some _ =>
    let start :=
      if ¬ (slot < 0 ∨ slot ≥ GW_MAX_EVENT_LOG_NUM) then
        if slot = GW_MAX_EVENT_LOG_NUM - 1 then 0 else slot.toNat + 1
      else log.log_current_slot
    (log.first_valid turns start).map fun i => (some (text i), some i)

/-- Some number of turns is enough, and what comes back is `NULL` or the text of a record. -/
def Log.Walks (log : Log) (slot : Int) (nextslot : Option Int) : Prop :=
  ∃ turns ret next, log.getnext turns slot nextslot = some (ret, next) ∧
    ∀ address, ret = some address → ∃ i < GW_MAX_EVENT_LOG_NUM, address = text i ∧ log.valid i

theorem start_lt (hslot : log.log_current_slot < GW_MAX_EVENT_LOG_NUM) (slot : Int) :
    (if ¬ (slot < 0 ∨ slot ≥ GW_MAX_EVENT_LOG_NUM) then
      if slot = GW_MAX_EVENT_LOG_NUM - 1 then 0 else slot.toNat + 1
      else log.log_current_slot) < GW_MAX_EVENT_LOG_NUM := by
  unfold GW_MAX_EVENT_LOG_NUM at *
  split_ifs <;> omega

theorem run_nothing {calls : List Call} (h : calls.filterMap Call.record = []) (log : Log) :
    run Log.call log calls = log := by
  induction calls generalizing log with
  | nil => rfl
  | cons c calls ih =>
    rw [List.filterMap_cons] at h
    cases hrecord : c.record with
    | none =>
      rw [hrecord] at h
      rw [run_cons, call_none hrecord]
      exact ih h log
    | some record =>
      rw [hrecord] at h
      cases h

theorem init_walks_not (slot : Int) (nextslot : Int) : ¬ Log.init.Walks slot (some nextslot) := by
  rintro ⟨turns, ret, next, hwalk, -⟩
  have hstart := start_lt (show Log.init.log_current_slot < GW_MAX_EVENT_LOG_NUM by decide) slot
  have hempty : ∀ j < GW_MAX_EVENT_LOG_NUM, (Log.init.ring.slot j).isSome = false := fun _ _ => rfl
  unfold Log.getnext at hwalk
  dsimp only at hwalk
  rw [first_valid_scan, scan_none hstart hempty] at hwalk
  cases hwalk

theorem ring_walks (hring : rings.Holds GW_MAX_EVENT_LOG_NUM log.ring l) (hl : l ≠ []) (slot : Int)
    (nextslot : Int) : log.Walks slot (some nextslot) := by
  have hstart := start_lt hring.cursor slot
  obtain ⟨i, hi⟩ := hring.scan_some hl hstart
  refine ⟨GW_MAX_EVENT_LOG_NUM, some (text i), some i, ?_, ?_⟩
  · unfold Log.getnext
    dsimp only
    rw [first_valid_scan, hi]
    rfl
  · intro address haddress
    cases haddress
    refine ⟨i, scan_lt hstart hi, rfl, ?_⟩
    rw [← ring_isSome]
    exact scan_valid hi

/-- A walk through the log ends, and with a record, if something was ever logged, or if there
is nowhere to put the slot. -/
theorem a_walk_ends_iff_something_was_logged (calls : List Call) (slot : Int) (nextslot : Option Int) :
    (run Log.call .init calls).Walks slot nextslot ↔
      nextslot = none ∨ ∃ c ∈ calls, c.record.isSome := by
  have hsome : (∃ c ∈ calls, c.record.isSome) ↔ calls.filterMap Call.record ≠ [] := by
    simp [List.filterMap_eq_nil_iff, Option.isSome_iff_ne_none]
  rw [hsome]
  cases nextslot with
  | none =>
    have hnull : (run Log.call .init calls).Walks slot none :=
      ⟨0, none, none, rfl, fun _ h => nomatch h⟩
    simp [hnull]
  | some nextslot =>
    constructor
    · intro hwalks
      right
      intro hnone
      rw [run_nothing hnone] at hwalks
      exact init_walks_not slot nextslot hwalks
    · rintro (hnull | hlogged)
      · cases hnull
      · have hring := run_ring calls init_ring
        refine ring_walks hring ?_ slot nextslot
        simpa using hlogged

/-- The first look into the log that nothing was written to does not come back. -/
theorem an_empty_log_is_walked_for_ever : ¬ (run Log.call .init []).Walks (-1) (some 0) :=
  init_walks_not (-1) 0

end

end gwdonu.gw_log
