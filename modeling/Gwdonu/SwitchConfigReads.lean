-- One register of the configuration in flash, read from the image and written by a restore.
-- When the value that is read is the one that the restore writes last.
import Gwdonu.SwitchConfig

namespace gwdonu.switch_config

open Function calls rcp_registers
open rcp (RCP_RET)

/-! ## The two readers -/

/-- The writes that a restore makes. -/
def restored (buf : Image) (s : State) : List (Nat × BitVec 16) :=
  (after (restoreRcpDevCfgFromFlash buf) s).writes.drop s.writes.length

/-- The value that goes last to a register. -/
def lastTo (l : List (Nat × BitVec 16)) (a : Nat) : Option (BitVec 16) :=
  (l.reverse.find? fun w => w.1 = a).map Prod.snd

/-- What is read of the register is what a restore leaves in it. -/
def ReadsBack (buf : Image) (s : State) (a : BitVec 16) : Prop :=
  ∀ v, (∃ t, getRegValueInFlash buf a.toNat s = .ok v t) ↔ lastTo (restored buf s) a.toNat = some v

/-- The first place of the address among the first `n` words, and the last one. -/
def FirstAt (buf : Image) (a : BitVec 16) (n i : Nat) : Prop := i < n ∧ buf i = a ∧ ∀ k < i, buf k ≠ a

def LastAt (buf : Image) (a : BitVec 16) (n i : Nat) : Prop := i < n ∧ buf i = a ∧ ∀ k, i < k → k < n → buf k ≠ a

/-- With both marks, the register has one value, in its first place and in its last. Without the
mark of the addresses it is none of the program's own list, and without either mark not the one
that the EEPROM is read through. -/
def OneValue (buf : Image) (port : Nat) (a : BitVec 16) : Prop :=
  if buf (record port + 159) = gusSwitchDataValidFlag then
    if buf 159 = gusSwitchDataValidFlag then
      ∀ i j, FirstAt buf a (buf 158).toNat i → LastAt buf a (buf 158).toNat j →
        buf (record port + i) = buf (record port + j)
    else a.toNat ∉ gusSwitchCfgRegAddrArray ∧ a.toNat ≠ RT8326_EEPROM_RW_CTL
  else a.toNat ≠ RT8326_EEPROM_RW_CTL

section
variable {s t : State} {buf : Image} {start port n i j : Nat} {a v : BitVec 16} {l : List Nat} {p : Nat → Bool}

/-! ## First and last -/

theorem find_last : (List.range n).reverse.find? p = some i ↔ i < n ∧ p i ∧ ∀ k, i < k → k < n → ¬ p k := by
  induction n with
  | zero => simp
  | succ n ih =>
    rw [List.range_succ, List.reverse_concat, List.find?_cons]
    cases hn : p n with
    | true =>
      simp only [Option.some.injEq]
      constructor
      · rintro rfl
        exact ⟨Nat.lt_succ_self _, hn, fun k hlo hhi => absurd hhi (by omega)⟩
      · rintro ⟨hi, -, hlast⟩
        by_contra hne
        exact hlast n (by omega) (Nat.lt_succ_self n) hn
    | false =>
      simp only [ih]
      constructor
      · rintro ⟨hi, hp, hlast⟩
        refine ⟨by omega, hp, fun k hlo hhi => ?_⟩
        by_cases hk : k = n
        · rw [hk, hn]
          exact Bool.false_ne_true
        · exact hlast k hlo (by omega)
      · rintro ⟨hi, hp, hlast⟩
        have hne : i ≠ n := fun heq => by rw [heq, hn] at hp; cases hp
        exact ⟨by omega, hp, fun k hlo hhi => hlast k hlo (by omega)⟩

theorem lastTo_pairs (buf : Image) (start : Nat) (l : List Nat) (a : Nat) :
    lastTo (pairs buf start l) a = (l.reverse.find? fun j => (buf j).toNat = a).map fun j => buf (start + j) := by
  unfold lastTo pairs
  rw [← List.map_reverse, List.find?_map, Option.map_map]
  rfl

/-! ## The restore -/

theorem attempts_all {fails : Nat → Nat → Bool} (h : ∀ m b, fails m b = false) (m : Nat) (l : List (Nat × BitVec 16)) :
    attempts fails m l = l := by
  induction l generalizing m with
  | nil => rfl
  | cons x l ih => rw [attempts, h, ih (m + 1), if_neg Bool.false_ne_true]

theorem restored_eq {l : List (Nat × BitVec 16)}
    (h : Always (restoreRcpDevCfgFromFlash buf) s fun t => t.writes = s.writes ++ l) : restored buf s = l := by
  unfold restored
  rw [always_iff.mp h, List.drop_left]

theorem restored_record (hs : s.Faithful) (h : Restorable buf s.dev.parentPort s.dev.deviceId) :
    restored buf s = pairs buf (record s.dev.parentPort) (List.range (buf 158).toNat) := by
  refine restored_eq ?_
  rw [Always, restore_record h]
  refine (restoreRecord_writes _ _).imp ?_ ?_
  · rintro _ t ⟨hwrites, -, -⟩
    exact hwrites
  · rintro _ t ⟨hwrites, -⟩
    exact hwrites.trans (congrArg (s.writes ++ ·) (attempts_all (fun m b => hs b m) _ _))

theorem restored_eeprom (h : ¬ Restorable buf s.dev.parentPort s.dev.deviceId) :
    restored buf s = [flagRequest s] := by
  obtain ⟨ks, -, hiff⟩ := restore_eeprom (Q := fun _ t => t.writes = s.writes ++ [flagRequest s])
    (E := fun _ t => t.writes = s.writes ++ [flagRequest s]) h
  refine restored_eq (hiff.mpr ?_)
  exact isolateFromEeprom_writes.imp (fun _ t ht => ht.1) fun _ t ht => ht.1

/-! ## The look into the image -/

/-- The address at a place. -/
def addrAt (buf : Image) (fromImage : Bool) (i : Nat) : Nat :=
  if fromImage then (buf i).toNat else addressOf i

/-- A call that gives the value of `r`, if there is one. -/
theorem value_iff {x : Rcp (BitVec 16)} {r : Option (BitVec 16)}
    (h : Meets x s (fun v _ => r = some v) fun _ _ => r = none) : (∃ t, x s = .ok v t) ↔ r = some v := by
  unfold Meets at h
  cases hx : x s with
  | ok w t =>
    rw [hx] at h
    rw [show r = some w from h]
    simp
  | error e t =>
    rw [hx] at h
    rw [show r = none from h]
    simp

/-- The value at the first place of the address. -/
def firstAt (buf : Image) (start a : Nat) (fromImage : Bool) (l : List Nat) : Option (BitVec 16) :=
  (l.find? fun i => addrAt buf fromImage i = a).map fun i => buf (start + i)

theorem findRegValue_first (fromImage : Bool) (a : Nat) (l : List Nat) (s : State) :
    Meets (findRegValue buf start a fromImage l) s (fun v _ => firstAt buf start a fromImage l = some v)
      fun _ _ => firstAt buf start a fromImage l = none := by
  induction l generalizing s with
  | nil => exact rfl
  | cons i l ih =>
    have haddr : Meets (readAddr buf fromImage i) s
        (fun addr _ => addr.toNat = addrAt buf fromImage i) fun _ _ => False := by
      unfold readAddr addrAt
      cases fromImage with
      | true => exact rfl
      | false =>
        rw [if_neg Bool.false_ne_true, if_neg Bool.false_ne_true, meets_pure, BitVec.toNat_ofNat]
        exact Nat.mod_eq_of_lt (addressOf_lt i)
    rw [findRegValue, meets_bind]
    refine haddr.imp ?_ fun _ _ h => h.elim
    rintro addr t haddr
    unfold firstAt
    rw [haddr, List.find?_cons]
    split_ifs with hfound
    · rw [decide_eq_true hfound, meets_readWord]
      rfl
    · rw [decide_eq_false hfound]
      exact ih t

/-- What is read, by the two marks. -/
def valueOf (buf : Image) (port : Nat) (a : BitVec 16) : Option (BitVec 16) :=
  if buf (record port + 159) = gusSwitchDataValidFlag then
    if buf 159 = gusSwitchDataValidFlag then
      firstAt buf (record port) a.toNat true (List.range (buf 158).toNat)
    else firstAt buf (record port) a.toNat false (List.range gusSwitchCfgArraySize)
  else none

theorem getRegValue_value (buf : Image) (s : State) (a : BitVec 16) :
    Meets (getRegValueInFlash buf a.toNat) s (fun v _ => valueOf buf s.dev.parentPort a = some v)
      fun _ _ => valueOf buf s.dev.parentPort a = none := by
  unfold valueOf
  rw [getRegValueInFlash, meets_bind, meets_get, meets_bind, meets_readWord, meets_bind]
  by_cases hmark : buf 159 = gusSwitchDataValidFlag
  · rw [gusSwitchCfgArraySizeMax, decide_eq_true hmark, readLen, if_pos rfl, meets_readWord, meets_bind, meets_readWord,
      if_pos hmark]
    split_ifs
    · exact findRegValue_first true _ _ _
    · exact rfl
  · have hsize : (BitVec.ofNat 16 gusSwitchCfgArraySize).toNat = gusSwitchCfgArraySize := by
      rw [array_size]
      rfl
    rw [gusSwitchCfgArraySizeMax, decide_eq_false hmark, readLen, if_neg Bool.false_ne_true, meets_pure, meets_bind,
      meets_readWord, if_neg hmark, hsize]
    generalize gusSwitchCfgArraySize = n
    split_ifs
    · exact findRegValue_first false _ _ _
    · exact rfl

theorem readsBack_iff : ReadsBack buf s a ↔ valueOf buf s.dev.parentPort a = lastTo (restored buf s) a.toNat := by
  unfold ReadsBack
  simp only [value_iff (getRegValue_value buf s a)]
  exact Option.ext_iff.symm

/-! ## Where they agree -/

theorem find_firstAt : ((List.range n).find? fun i => addrAt buf true i = a.toNat) = some i ↔ FirstAt buf a n i := by
  unfold FirstAt addrAt
  rw [List.find?_range_eq_some, List.mem_range]
  simp [BitVec.toNat_inj, and_left_comm]

theorem find_lastAt : ((List.range n).reverse.find? fun i => (buf i).toNat = a.toNat) = some i ↔ LastAt buf a n i := by
  unfold LastAt
  rw [find_last]
  simp [BitVec.toNat_inj]

/-- There is a first place where there is a last one. -/
theorem find_none_iff : ((List.range n).find? fun i => addrAt buf true i = a.toNat) = none ↔
    ((List.range n).reverse.find? fun i => (buf i).toNat = a.toNat) = none := by
  unfold addrAt
  simp [List.find?_eq_none]

theorem first_eq_last : firstAt buf start a.toNat true (List.range n) =
    lastTo (pairs buf start (List.range n)) a.toNat ↔
      ∀ i j, FirstAt buf a n i → LastAt buf a n j → buf (start + i) = buf (start + j) := by
  rw [lastTo_pairs, firstAt]
  cases hfirst : (List.range n).find? fun i => addrAt buf true i = a.toNat with
  | none =>
    rw [find_none_iff.mp hfirst]
    refine iff_of_true rfl fun i j hi _ => ?_
    rw [find_firstAt.mpr hi] at hfirst
    cases hfirst
  | some i =>
    cases hlast : (List.range n).reverse.find? fun i => (buf i).toNat = a.toNat with
    | none =>
      rw [find_none_iff.mpr hlast] at hfirst
      cases hfirst
    | some j =>
      simp only [Option.map_some, Option.some.injEq]
      constructor
      · intro heq i' j' hi' hj'
        rw [← find_firstAt, hfirst] at hi'
        rw [← find_lastAt, hlast] at hj'
        cases hi'
        cases hj'
        exact heq
      · intro h
        exact h i j (find_firstAt.mp hfirst) (find_lastAt.mp hlast)

/-- The program's own list is searched for nothing but its addresses. -/
theorem own_none : firstAt buf start a.toNat false (List.range gusSwitchCfgArraySize) = none ↔
    a.toNat ∉ gusSwitchCfgRegAddrArray := by
  have hlength : gusSwitchCfgArraySize = gusSwitchCfgRegAddrArray.length := array_size.trans array_length.symm
  rw [firstAt, Option.map_eq_none_iff, List.find?_eq_none, List.mem_iff_getElem, hlength]
  unfold addrAt addressOf
  constructor
  · rintro h ⟨i, hi, heq⟩
    refine h i (List.mem_range.mpr hi) ?_
    rw [if_neg Bool.false_ne_true, List.getD_eq_getElem _ _ hi, heq]
    exact decide_eq_true rfl
  · intro h i hi hfound
    rw [List.mem_range] at hi
    rw [if_neg Bool.false_ne_true, List.getD_eq_getElem _ _ hi, decide_eq_true_eq] at hfound
    exact h ⟨i, hi, hfound⟩

theorem lastTo_single (a : Nat) (w : Nat × BitVec 16) : lastTo [w] a = if w.1 = a then some w.2 else none := by
  unfold lastTo
  rw [List.reverse_singleton, List.find?_singleton]
  split_ifs with h h' h'
  · rfl
  · exact absurd (of_decide_eq_true h) h'
  · exact absurd (decide_eq_true h') h
  · rfl

/-- No register is in both the program's list and the way to the EEPROM. -/
theorem ctl_not_own : RT8326_EEPROM_RW_CTL ∉ gusSwitchCfgRegAddrArray := by decide +kernel

theorem eeprom_lastTo (s : State) (a : Nat) : lastTo [flagRequest s] a = none ↔ a ≠ RT8326_EEPROM_RW_CTL := by
  rw [lastTo_single, flagRequest]
  split_ifs with h
  · simp [← h]
  · simp [Ne.symm h]

/-- The record of port 1 alone, with no addresses in the image. -/
def recordOnly : Image := fun k => if k = 319 then gusSwitchDataValidFlag else 0

end

end gwdonu.switch_config
