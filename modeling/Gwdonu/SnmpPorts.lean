-- The port lists of SNMP: a word with a bit for each port, and octets whose first bit is the
-- highest one. When one conversion takes back what the other one did.
import Mathlib.Algebra.Ring.Nat
import Mathlib.Data.List.Basic
import Mathlib.Logic.Function.Basic

namespace gwdonu.snmp_ports

open Function

/-! ## The program -/

abbrev Octets := Nat → BitVec 8

/-- The turn of the loop for the port `i`; the octet is filled up, not written anew. -/
def toOctet (portList : BitVec 32) (newList : Octets) (i : Nat) : Octets :=
  let tmp1 := (portList &&& 1#32 <<< i) >>> i
  update newList (i / 8) ((tmp1 <<< (7 - i % 8) ||| (newList (i / 8)).setWidth 32).setWidth 8)

def RCP_PortListToSNMP (numOfPorts : Nat) (portList : BitVec 32) (newList : Octets) : Octets :=
  (List.range numOfPorts).foldl (toOctet portList) newList

def fromOctet (newList : Octets) (tmp2 : BitVec 32) (i : Nat) : BitVec 32 :=
  let tmp1 := ((newList (i / 8)).setWidth 32 &&& 1#32 <<< (7 - i % 8)) >>> (7 - i % 8)
  tmp1 <<< i ||| tmp2

def RCP_SNMPToPortList (numOfPorts : Nat) (newList : Octets) : BitVec 32 :=
  (List.range numOfPorts).foldl (fromOctet newList) 0

/-! ## The law -/

/-- The bit of the port `i` in the octets. -/
def portBit (newList : Octets) (i : Nat) : Bool := (newList (i / 8)).getLsbD (7 - i % 8)

/-- Each conversion takes back the other one, whatever the octets held that it writes to. -/
structure TakesBack (n : Nat) (portList : BitVec 32) (newList out : Octets) : Prop where
  ports : RCP_SNMPToPortList n (RCP_PortListToSNMP n portList out) = portList &&& BitVec.ofNat 32 (2 ^ n - 1)
  octets : ∀ i < n, portBit (RCP_PortListToSNMP n (RCP_SNMPToPortList n newList) out) i = portBit newList i

/-- The octets that are written to have the bit of no other port. -/
structure Fits (n : Nat) (portList : BitVec 32) (newList out : Octets) : Prop where
  ports : ∀ i < n, portBit out i = true → portList.getLsbD i = true
  octets : ∀ i < n, portBit out i = true → portBit newList i = true

instance (n : Nat) (portList : BitVec 32) (newList out : Octets) : Decidable (Fits n portList newList out) :=
  decidable_of_iff ((∀ i < n, portBit out i = true → portList.getLsbD i = true) ∧
    ∀ i < n, portBit out i = true → portBit newList i = true) ⟨fun h => ⟨h.1, h.2⟩, fun h => ⟨h.ports, h.octets⟩⟩

/-! ## Bit by bit -/

variable {n i j : Nat} {portList : BitVec 32} {newList out : Octets}

/-- One bit of a word, moved to the end of it and from there to another place. -/
theorem getLsbD_moved (x : BitVec 32) (i k j : Nat) (hi : i < 32) :
    (((x &&& 1#32 <<< i) >>> i) <<< k).getLsbD j = (decide (j < 32) && decide (j = k) && x.getLsbD i) := by
  rw [BitVec.getLsbD_shiftLeft, BitVec.getLsbD_ushiftRight, BitVec.getLsbD_and, BitVec.getLsbD_shiftLeft,
    BitVec.getLsbD_one]
  by_cases hjk : j = k
  · subst hjk
    simp [hi]
  · by_cases hlt : j < k
    · simp [hlt, hjk]
    · have hnot : ¬ j - k = 0 := by omega
      simp [hjk, hnot]

theorem portBit_toOctet (hi : i < 32) :
    portBit (toOctet portList newList i) j = (portBit newList j || (decide (j = i) && portList.getLsbD i)) := by
  unfold portBit toOctet
  by_cases hoctet : j / 8 = i / 8
  · have hplace : 7 - j % 8 = 7 - i % 8 ↔ j = i := by omega
    have hin : 7 - j % 8 < 8 ∧ 7 - j % 8 < 32 := by omega
    rw [hoctet, update_self, BitVec.getLsbD_setWidth, BitVec.getLsbD_or, getLsbD_moved _ _ _ _ hi,
      BitVec.getLsbD_setWidth]
    simp only [hin.1, hin.2, hplace, decide_true, Bool.true_and]
    exact Bool.or_comm _ _
  · have hji : j ≠ i := fun h => hoctet (by rw [h])
    rw [update_of_ne hoctet]
    simp [hji]

theorem portBit_toSNMP (hn : n ≤ 32) : portBit (RCP_PortListToSNMP n portList out) j =
    (portBit out j || (decide (j < n) && portList.getLsbD j)) := by
  unfold RCP_PortListToSNMP
  induction n with
  | zero => simp
  | succ n ih =>
    rw [List.range_succ, List.foldl_append, List.foldl_cons, List.foldl_nil, portBit_toOctet (by omega),
      ih (by omega), Bool.or_assoc]
    congr 1
    by_cases hj : j = n
    · subst hj
      simp
    · have hiff : j < n + 1 ↔ j < n := by omega
      simp [hj, hiff]

theorem getLsbD_fromOctet (tmp2 : BitVec 32) (hi : i < 32) : (fromOctet newList tmp2 i).getLsbD j =
    (tmp2.getLsbD j || (decide (j = i) && portBit newList i)) := by
  have hin : 7 - i % 8 < 32 := by omega
  unfold fromOctet portBit
  rw [BitVec.getLsbD_or, getLsbD_moved _ _ _ _ hin, BitVec.getLsbD_setWidth, Bool.or_comm]
  by_cases hj : j = i
  · subst hj
    simp [hi, hin]
  · simp [hj]

theorem getLsbD_fromSNMP (hn : n ≤ 32) :
    (RCP_SNMPToPortList n newList).getLsbD j = (decide (j < n) && portBit newList j) := by
  unfold RCP_SNMPToPortList
  induction n with
  | zero => simp
  | succ n ih =>
    rw [List.range_succ, List.foldl_append, List.foldl_cons, List.foldl_nil, getLsbD_fromOctet _ (by omega),
      ih (by omega)]
    by_cases hj : j = n
    · subst hj
      simp
    · have hiff : j < n + 1 ↔ j < n := by omega
      simp [hj, hiff]

theorem getLsbD_lowBits (hj : j < 32) : (BitVec.ofNat 32 (2 ^ n - 1)).getLsbD j = decide (j < n) := by
  rw [BitVec.getLsbD_ofNat, Nat.testBit_two_pow_sub_one]
  simp [hj]

/-- What is filled up has the bits of the other side when it had none else. -/
theorem or_eq_iff {a b : Bool} : (a || b) = b ↔ (a = true → b = true) := by
  cases a <;> cases b <;> decide

theorem ports_iff (hn : n ≤ 32) :
    RCP_SNMPToPortList n (RCP_PortListToSNMP n portList out) = portList &&& BitVec.ofNat 32 (2 ^ n - 1) ↔
      ∀ i < n, portBit out i = true → portList.getLsbD i = true := by
  have hleft (i : Nat) : (RCP_SNMPToPortList n (RCP_PortListToSNMP n portList out)).getLsbD i =
      (decide (i < n) && (portBit out i || portList.getLsbD i)) := by
    rw [getLsbD_fromSNMP hn, portBit_toSNMP hn]
    by_cases hi : i < n
    · simp [hi]
    · simp [hi]
  have hright (i : Nat) (hi : i < n) : (portList &&& BitVec.ofNat 32 (2 ^ n - 1)).getLsbD i = portList.getLsbD i := by
    rw [BitVec.getLsbD_and, getLsbD_lowBits (by omega), decide_eq_true hi, Bool.and_true]
  constructor
  · intro h i hi
    rw [← or_eq_iff, ← hright i hi, ← h, hleft, decide_eq_true hi, Bool.true_and, ← Bool.or_assoc, Bool.or_self]
  · intro h
    apply BitVec.eq_of_getLsbD_eq
    intro i hi
    rw [hleft]
    by_cases hin : i < n
    · rw [hright i hin, decide_eq_true hin, Bool.true_and]
      exact or_eq_iff.mpr (h i hin)
    · rw [BitVec.getLsbD_and, getLsbD_lowBits hi, decide_eq_false hin, Bool.false_and, Bool.and_false]

theorem octets_iff (hn : n ≤ 32) :
    (∀ i < n, portBit (RCP_PortListToSNMP n (RCP_SNMPToPortList n newList) out) i = portBit newList i) ↔
      ∀ i < n, portBit out i = true → portBit newList i = true := by
  have hbit (i : Nat) (hi : i < n) : portBit (RCP_PortListToSNMP n (RCP_SNMPToPortList n newList) out) i =
      (portBit out i || portBit newList i) := by
    rw [portBit_toSNMP hn, getLsbD_fromSNMP hn, decide_eq_true hi, Bool.true_and, Bool.true_and]
  constructor
  · intro h i hi
    rw [← or_eq_iff, ← hbit i hi]
    exact h i hi
  · intro h i hi
    rw [hbit i hi]
    exact or_eq_iff.mpr (h i hi)

/-- The conversions take each other back just when the octets that are written to had no bit of
another port. -/
theorem port_lists_come_back_iff_the_octets_fit (n : Nat) (hn : n ≤ 32) (portList : BitVec 32) (newList out : Octets) :
    TakesBack n portList newList out ↔ Fits n portList newList out := by
  constructor
  · rintro ⟨hports, hoctets⟩
    exact ⟨(ports_iff hn).mp hports, (octets_iff hn).mp hoctets⟩
  · rintro ⟨hports, hoctets⟩
    exact ⟨(ports_iff hn).mpr hports, (octets_iff hn).mpr hoctets⟩

/-- Twenty-six ports, with the first and the third one listed, and octets that were clear. -/
theorem clear_octets_take_ports_back : TakesBack 26 0x5 (fun _ => 0xa0) fun _ => 0 :=
  (port_lists_come_back_iff_the_octets_fit 26 (by decide) 0x5 (fun _ => 0xa0) fun _ => 0).mpr
    ⟨fun i _ h => by simp [portBit] at h, fun i _ h => by simp [portBit] at h⟩

/-- Octets that had the bit of the first port give it back in an empty list. -/
theorem a_port_comes_back_that_was_not_listed : ¬ TakesBack 8 0 (fun _ => 0) fun _ => 0x80 := by
  intro h
  exact absurd h.ports (by decide)

end gwdonu.snmp_ports
