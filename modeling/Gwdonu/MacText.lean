-- The text of a MAC address on the command line: three groups of four digits, with dots
-- between them. What is taken for one, and how far the reader and the writer go.
import Gwdonu.Lib.Reading
import Mathlib.Data.List.Range
import Mathlib.Data.UInt
import Mathlib.Logic.Function.Basic
import Mathlib.Tactic.IntervalCases

namespace gwdonu.mac_text

open Function reading

/-! ## Strings -/

/-- A string of C: the bytes from its start on, of which the first zero ends it. -/
structure CString where
  bytes : Nat → UInt8
  len : Nat
  terminated : bytes len = 0
  inside : ∀ i < len, bytes i ≠ 0

namespace CString

variable (s : CString)

def text : List UInt8 := (List.range s.len).map s.bytes

def read (i : Nat) : Reading UInt8 := readAt i 1 (s.bytes i)

def strlen : Reading Nat := readAt 0 (s.len + 1) s.len

/-- The place of the first `c` from `p` on, for a `p` in the string and a `c` that is not 0. It is
looked for up to the terminator. -/
def strchr (p : Nat) (c : UInt8) : Reading (Option Nat) :=
  let found := (List.range' p (s.len - p)).find? (s.bytes · = c)
  readAt p (found.getD s.len + 1 - p) found

end CString

/-! ## The program -/

def isHex (c : UInt8) : Bool := 0x30 ≤ c && c ≤ 0x39 || 0x61 ≤ c && c ≤ 0x66 || 0x41 ≤ c && c ≤ 0x46

/-- What `strtoul` makes of one digit to the base 16. -/
def hexVal (c : UInt8) : UInt8 := if c ≤ 0x39 then c - 0x30 else if c ≤ 0x46 then c - 0x37 else c - 0x57

/-- What `strtoul` makes of two of them. -/
def strtoul (c d : UInt8) : UInt8 := hexVal c * 16 + hexVal d

/-- The address that is written to, and the places in it that were. -/
structure Out where
  pucMacAddr : Nat → UInt8
  written : List Nat

def Out.write (o : Out) (k : Nat) (v : UInt8) : Out := ⟨update o.pucMacAddr k v, o.written ++ [k]⟩

section
variable (szStr : CString)

/-- The loop over the four characters at `p`, for those that are left of it. -/
def hexDigits (p : Nat) : List Nat → Reading Bool
  | [] => pure true
  | j :: js => do
    let c ← szStr.read (p + j)
    if isHex c then hexDigits p js else pure false

/-- Where the group ends that begins at `p`. -/
def groupEnd (i p : Nat) : Reading (Option Nat) :=
  if i ≠ 2 then szStr.strchr p 0x2e
  else do
    let n ← szStr.strlen
    pure (some n)

/-- What a group at `p` writes. -/
def pairs (p k : Nat) (o : Out) : Reading Out := do
  let c0 ← szStr.read p
  let c1 ← szStr.read (p + 1)
  let c2 ← szStr.read (p + 2)
  let c3 ← szStr.read (p + 3)
  pure ((o.write k (strtoul c0 c1)).write (k + 1) (strtoul c2 c3))

/-- The loop over the groups. A search that finds no dot gives a difference that is not 4, as it is
the test of `q` that is missing. -/
def groups : List Nat → Nat → Nat → Out → Reading (Bool × Out)
  | [], _, _, o => pure (true, o)
  | i :: is, p, k, o => do
    let q ← groupEnd szStr i p
    if q ≠ some (p + 4) then pure (false, o)
    else
      let hex ← hexDigits szStr p [0, 1, 2, 3]
      if hex then
        let o ← pairs szStr p k o
        groups is (p + 4 + 1) (k + 2) o
      else pure (false, o)

/-- All six bytes are `b`. -/
def Out.All (o : Out) (b : UInt8) : Prop := ∀ i < 6, o.pucMacAddr i = b

instance (o : Out) (b : UInt8) : Decidable (o.All b) := inferInstanceAs (Decidable (∀ i < 6, _))

/-- Whether it returns `GW_OK`, and what it wrote. -/
def GetMacAddr (pucMacAddr : Nat → UInt8) : Reading (Bool × Out) := do
  let n ← szStr.strlen
  if 14 ≠ n then pure (false, ⟨pucMacAddr, []⟩)
  else
    let (ok, o) ← groups szStr [0, 1, 2] 0 0 ⟨pucMacAddr, []⟩
    if ok = false then pure (false, o)
    else if o.All 0 then pure (false, o)
    -- Not so where `char` is signed; what it stops, the next test stops.
    else if o.All 0xff then pure (false, o)
    else if o.pucMacAddr 0 &&& 0x01 ≠ 0 then pure (false, o)
    else pure (true, o)

end

/-! ## The law -/

/-- The text is three groups of these digits, with dots between them. -/
def Groups (text : List UInt8) (d : Nat → UInt8) : Prop :=
  text = [d 0, d 1, d 2, d 3, 0x2e, d 4, d 5, d 6, d 7, 0x2e, d 8, d 9, d 10, d 11] ∧ ∀ i < 12, isHex (d i) = true

/-- The value of a pair of digits. -/
def octet (d : Nat → UInt8) (i : Nat) : UInt8 := strtoul (d (2 * i)) (d (2 * i + 1))

/-- The text of an address of one device, that is not zero. -/
def Grammar (text : List UInt8) : Prop :=
  ∃ d, Groups text d ∧ (∃ i < 6, octet d i ≠ 0) ∧ octet d 0 &&& 0x01 = 0

/-- It takes what the grammar has and nothing else, and reads and writes in bounds. -/
structure TakesItsGrammar (szStr : CString) (pucMacAddr : Nat → UInt8) : Prop where
  ok_iff : (GetMacAddr szStr pucMacAddr).value.1 = true ↔ Grammar szStr.text
  octets : (GetMacAddr szStr pucMacAddr).value.1 = true → ∀ d, Groups szStr.text d →
    ∀ i < 6, (GetMacAddr szStr pucMacAddr).value.2.pucMacAddr i = octet d i
  reads : (GetMacAddr szStr pucMacAddr).Inside (szStr.len + 1)
  writes : ∀ k ∈ (GetMacAddr szStr pucMacAddr).value.2.written, k < 6

/-! ## A group -/

variable {szStr : CString}

/-- The `i`-th group is at `p`: four digits, and a dot behind them, unless it is the last. -/
def GroupAt (szStr : CString) (i p : Nat) : Prop :=
  (∀ j < 4, isHex (szStr.bytes (p + j)) = true) ∧ (i ≠ 2 → szStr.bytes (p + 4) = 0x2e)

instance (szStr : CString) (i p : Nat) : Decidable (GroupAt szStr i p) := inferInstanceAs (Decidable (_ ∧ _))

theorem strlen_value : szStr.strlen.value = szStr.len := rfl

theorem strchr_value {p q : Nat} {c : UInt8} : (szStr.strchr p c).value = some q ↔
    p ≤ q ∧ q < szStr.len ∧ szStr.bytes q = c ∧ ∀ j, p ≤ j → j < q → szStr.bytes j ≠ c := by
  unfold CString.strchr
  dsimp only
  rw [value_readAt, List.find?_range'_eq_some]
  simp only [decide_eq_true_eq, List.mem_range'_1, Bool.not_eq_eq_eq_not, Bool.not_true, decide_eq_false_iff_not]
  constructor
  · rintro ⟨hc, ⟨hp, hq⟩, hfirst⟩
    exact ⟨hp, by omega, hc, hfirst⟩
  · rintro ⟨hp, hq, hc, hfirst⟩
    exact ⟨hc, ⟨hp, by omega⟩, hfirst⟩

theorem strchr_inside {p : Nat} (hp : p ≤ szStr.len) (c : UInt8) : (szStr.strchr p c).Inside (szStr.len + 1) := by
  cases hfound : (szStr.strchr p c).value with
  | none =>
    unfold CString.strchr at hfound ⊢
    dsimp only at hfound ⊢
    rw [value_readAt] at hfound
    rw [inside_readAt, hfound, Option.getD_none]
    omega
  | some q =>
    obtain ⟨hpq, hq, -, -⟩ := strchr_value.mp hfound
    unfold CString.strchr at hfound ⊢
    dsimp only at hfound ⊢
    rw [value_readAt] at hfound
    rw [inside_readAt, hfound, Option.getD_some]
    omega

theorem hexDigits_value (p : Nat) (js : List Nat) :
    (hexDigits szStr p js).value = true ↔ ∀ j ∈ js, isHex (szStr.bytes (p + j)) = true := by
  induction js with
  | nil => simp [hexDigits]
  | cons j js ih =>
    rw [List.forall_mem_cons, ← ih, hexDigits, value_bind]
    change (if isHex (szStr.bytes (p + j)) = true then hexDigits szStr p js else pure false).value = true ↔ _
    by_cases hhex : isHex (szStr.bytes (p + j)) = true
    · rw [if_pos hhex]
      exact (and_iff_right hhex).symm
    · rw [if_neg hhex]
      exact iff_of_false Bool.false_ne_true fun h => hhex h.1

theorem hexDigits_inside {p n : Nat} {js : List Nat} (h : ∀ j ∈ js, p + j < n) : (hexDigits szStr p js).Inside n := by
  induction js with
  | nil => exact inside_pure true
  | cons j js ih =>
    rw [List.forall_mem_cons] at h
    refine (inside_bind _ _).mpr ⟨(inside_readAt _ _ _).mpr (Or.inr h.1), ?_⟩
    split_ifs
    · exact ih h.2
    · exact inside_pure false

/-- A digit is no dot. -/
theorem ne_dot_of_hex {c : UInt8} (h : isHex c = true) : c ≠ 0x2e := by
  rintro rfl
  exact absurd h (by decide)

/-- The end of a group of digits is four bytes on just when there is a dot, or it is the last. -/
theorem groupEnd_value (hlen : szStr.len = 14) {i : Nat} (hi : i ≤ 2)
    (hhex : ∀ j < 4, isHex (szStr.bytes (5 * i + j)) = true) :
    (groupEnd szStr i (5 * i)).value = some (5 * i + 4) ↔ (i ≠ 2 → szStr.bytes (5 * i + 4) = 0x2e) := by
  unfold groupEnd
  by_cases hlast : i = 2
  · subst hlast
    rw [if_neg (not_not_intro rfl)]
    change some szStr.len = _ ↔ _
    rw [hlen]
    exact iff_of_true rfl fun h => absurd rfl h
  · rw [if_pos hlast, strchr_value]
    constructor
    · rintro ⟨-, -, hdot, -⟩ -
      exact hdot
    · intro hdot
      refine ⟨by omega, by omega, hdot hlast, fun j hj hlt => ?_⟩
      obtain ⟨k, rfl⟩ := Nat.exists_eq_add_of_le hj
      exact ne_dot_of_hex (hhex k (by omega))

theorem groupEnd_inside {p : Nat} (hp : p ≤ szStr.len) (i : Nat) : (groupEnd szStr i p).Inside (szStr.len + 1) := by
  unfold groupEnd
  split_ifs
  · exact strchr_inside hp 0x2e
  · exact (inside_bind _ _).mpr ⟨(inside_readAt _ _ _).mpr (by omega), inside_pure _⟩

/-! ## The groups -/

theorem hex_of_group (p : Nat) : (hexDigits szStr p [0, 1, 2, 3]).value = true ↔
    ∀ j < 4, isHex (szStr.bytes (p + j)) = true := by
  rw [hexDigits_value]
  constructor
  · intro h j hj
    rw [← List.mem_range] at hj
    exact h j hj
  · intro h j hj
    exact h j (List.mem_range.mp hj)

theorem groups_value (hlen : szStr.len = 14) {i : Nat} (hi : i ≤ 2) (is : List Nat) (k : Nat) (o : Out) :
    (groups szStr (i :: is) (5 * i) k o).value =
      if GroupAt szStr i (5 * i) then
        (groups szStr is (5 * (i + 1)) (k + 2) (pairs szStr (5 * i) k o).value).value
      else (false, o) := by
  rw [groups, value_bind]
  by_cases hhex : ∀ j < 4, isHex (szStr.bytes (5 * i + j)) = true
  · have hend := groupEnd_value hlen hi hhex
    by_cases hq : (groupEnd szStr i (5 * i)).value = some (5 * i + 4)
    · rw [if_neg (not_not_intro hq), value_bind, if_pos ((hex_of_group _).mpr hhex), value_bind,
        if_pos ⟨hhex, hend.mp hq⟩]
      rfl
    · rw [if_pos hq, if_neg fun hgroup => hq (hend.mpr hgroup.2)]
      rfl
  · rw [if_neg fun hgroup : GroupAt szStr i (5 * i) => hhex hgroup.1]
    by_cases hq : (groupEnd szStr i (5 * i)).value = some (5 * i + 4)
    · rw [if_neg (not_not_intro hq), value_bind, if_neg fun hdigits => hhex ((hex_of_group _).mp hdigits)]
      rfl
    · rw [if_pos hq]
      rfl

theorem pairs_inside {p n : Nat} (h : p + 3 < n) (k : Nat) (o : Out) : (pairs szStr p k o).Inside n := by
  simp only [pairs, CString.read, inside_bind, inside_readAt, inside_pure, and_true]
  omega

/-- A group that is there ends in the string, with a dot behind it, unless it is the last. -/
theorem groupEnd_le {i p : Nat} (h : (groupEnd szStr i p).value = some (p + 4)) :
    p + 4 ≤ szStr.len ∧ (i ≠ 2 → p + 5 ≤ szStr.len) := by
  unfold groupEnd at h
  split_ifs at h with hlast
  · obtain ⟨-, hlt, -, -⟩ := strchr_value.mp h
    omega
  · have hlen : szStr.len = p + 4 := Option.some.inj h
    exact ⟨hlen.ge, fun hne => absurd hne hlast⟩

/-- A group is read in bounds, when those behind it are. -/
theorem group_inside {i p k : Nat} {is : List Nat} (hp : p ≤ szStr.len) (o : Out)
    (hnext : (i ≠ 2 → p + 5 ≤ szStr.len) → ∀ o, (groups szStr is (p + 5) (k + 2) o).Inside (szStr.len + 1)) :
    (groups szStr (i :: is) p k o).Inside (szStr.len + 1) := by
  refine (inside_bind _ _).mpr ⟨groupEnd_inside hp i, ?_⟩
  by_cases hq : (groupEnd szStr i p).value = some (p + 4)
  · obtain ⟨hend, hdot⟩ := groupEnd_le hq
    rw [if_neg (not_not_intro hq)]
    have hfour : ∀ j ∈ [0, 1, 2, 3], p + j < szStr.len + 1 := by
      intro j hj
      have hlt : j < 4 := List.mem_range.mp hj
      omega
    refine (inside_bind _ _).mpr ⟨hexDigits_inside hfour, ?_⟩
    split_ifs
    · exact (inside_bind _ _).mpr ⟨pairs_inside (by omega) k o, hnext hdot _⟩
    · exact inside_pure _
  · rw [if_pos hq]
    exact inside_pure _

theorem groups_inside (o : Out) : (groups szStr [0, 1, 2] 0 0 o).Inside (szStr.len + 1) := by
  refine group_inside (Nat.zero_le _) o fun hfirst o => ?_
  refine group_inside (hfirst (by decide)) o fun hsecond o => ?_
  exact group_inside (hsecond (by decide)) o fun _ o => inside_pure _

/-- What is written lies behind what was before, two bytes a group. -/
theorem groups_written (is : List Nat) (p k : Nat) (o : Out) :
    ∀ j ∈ (groups szStr is p k o).value.2.written, j ∈ o.written ∨ j < k + 2 * is.length := by
  induction is generalizing p k o with
  | nil => exact fun j hj => Or.inl hj
  | cons i is ih =>
    intro j hj
    rw [groups, value_bind] at hj
    split_ifs at hj
    · exact Or.inl hj
    · rw [value_bind] at hj
      split_ifs at hj
      · rw [List.length_cons]
        rcases ih _ _ _ j hj with hold | hlt
        · have hpair : j ∈ o.written ++ [k] ++ [k + 1] := hold
          simp only [List.mem_append, List.mem_singleton] at hpair
          rcases hpair with (hold | rfl) | rfl
          · exact Or.inl hold
          · exact Or.inr (by omega)
          · exact Or.inr (by omega)
        · exact Or.inr (by omega)
      · exact Or.inl hj

/-! ## The whole text -/

/-- The address that the bytes of three groups are. -/
def written (szStr : CString) (pucMacAddr : Nat → UInt8) : Out :=
  (pairs szStr 10 4 (pairs szStr 5 2 (pairs szStr 0 0 ⟨pucMacAddr, []⟩).value).value).value

/-- The digits of a text of the right form. -/
def digitsOf (szStr : CString) (i : Nat) : UInt8 := szStr.bytes (i + i / 4)

theorem written_octet (pucMacAddr : Nat → UInt8) {i : Nat} (hi : i < 6) :
    (written szStr pucMacAddr).pucMacAddr i = octet (digitsOf szStr) i := by
  interval_cases i
  all_goals rfl

theorem three_groups (hlen : szStr.len = 14) (pucMacAddr : Nat → UInt8) :
    ((groups szStr [0, 1, 2] 0 0 ⟨pucMacAddr, []⟩).value.1 = true ↔
      GroupAt szStr 0 0 ∧ GroupAt szStr 1 5 ∧ GroupAt szStr 2 10) ∧
    ((groups szStr [0, 1, 2] 0 0 ⟨pucMacAddr, []⟩).value.1 = true →
      (groups szStr [0, 1, 2] 0 0 ⟨pucMacAddr, []⟩).value.2 = written szStr pucMacAddr) := by
  have hfirst (o : Out) : (groups szStr [0, 1, 2] 0 0 o).value = if GroupAt szStr 0 0 then
      (groups szStr [1, 2] 5 2 (pairs szStr 0 0 o).value).value else (false, o) :=
    groups_value hlen (by decide) [1, 2] 0 o
  have hsecond (o : Out) : (groups szStr [1, 2] 5 2 o).value = if GroupAt szStr 1 5 then
      (groups szStr [2] 10 4 (pairs szStr 5 2 o).value).value else (false, o) :=
    groups_value hlen (by decide) [2] 2 o
  have hthird (o : Out) : (groups szStr [2] 10 4 o).value = if GroupAt szStr 2 10 then
      (true, (pairs szStr 10 4 o).value) else (false, o) :=
    groups_value hlen (by decide) [] 4 o
  rw [hfirst]
  by_cases h0 : GroupAt szStr 0 0
  · rw [if_pos h0, hsecond]
    by_cases h1 : GroupAt szStr 1 5
    · rw [if_pos h1, hthird]
      by_cases h2 : GroupAt szStr 2 10
      · rw [if_pos h2]
        exact ⟨iff_of_true rfl ⟨h0, h1, h2⟩, fun _ => rfl⟩
      · rw [if_neg h2]
        exact ⟨iff_of_false Bool.false_ne_true fun h => h2 h.2.2, fun h => absurd h Bool.false_ne_true⟩
    · rw [if_neg h1]
      exact ⟨iff_of_false Bool.false_ne_true fun h => h1 h.2.1, fun h => absurd h Bool.false_ne_true⟩
  · rw [if_neg h0]
    exact ⟨iff_of_false Bool.false_ne_true fun h => h0 h.1, fun h => absurd h Bool.false_ne_true⟩

theorem text_of_len (hlen : szStr.len = 14) : szStr.text = [szStr.bytes 0, szStr.bytes 1, szStr.bytes 2, szStr.bytes 3,
    szStr.bytes 4, szStr.bytes 5, szStr.bytes 6, szStr.bytes 7, szStr.bytes 8, szStr.bytes 9, szStr.bytes 10,
    szStr.bytes 11, szStr.bytes 12, szStr.bytes 13] := by
  rw [CString.text, hlen]
  rfl

/-- The text is of the right form just when it has the length and its groups are there. -/
theorem groups_iff (d : Nat → UInt8) : Groups szStr.text d ↔
    szStr.len = 14 ∧ (GroupAt szStr 0 0 ∧ GroupAt szStr 1 5 ∧ GroupAt szStr 2 10) ∧
      ∀ i < 12, d i = digitsOf szStr i := by
  constructor
  · rintro ⟨htext, hhex⟩
    have hlen : szStr.len = 14 := by
      have hlength := congrArg List.length htext
      rwa [CString.text, List.length_map, List.length_range] at hlength
    rw [text_of_len hlen] at htext
    simp only [List.cons.injEq, and_true] at htext
    obtain ⟨h0, h1, h2, h3, hdot, h4, h5, h6, h7, hdot', h8, h9, h10, h11⟩ := htext
    have hd : ∀ i < 12, d i = digitsOf szStr i := by
      intro i hi
      interval_cases i
      all_goals symm
      all_goals assumption
    refine ⟨hlen, ⟨⟨fun j hj => ?_, fun _ => hdot⟩, ⟨fun j hj => ?_, fun _ => hdot'⟩, fun j hj => ?_,
      fun h => absurd rfl h⟩, hd⟩
    · have hdigit := hhex j (by omega)
      rw [hd j (by omega), digitsOf, Nat.div_eq_of_lt hj, Nat.add_zero] at hdigit
      rwa [Nat.zero_add]
    · have hdigit := hhex (4 + j) (by omega)
      have hplace : 4 + j + (4 + j) / 4 = 5 + j := by omega
      rwa [hd (4 + j) (by omega), digitsOf, hplace] at hdigit
    · have hdigit := hhex (8 + j) (by omega)
      have hplace : 8 + j + (8 + j) / 4 = 10 + j := by omega
      rwa [hd (8 + j) (by omega), digitsOf, hplace] at hdigit
  · rintro ⟨hlen, ⟨h0, h1, h2⟩, hd⟩
    refine ⟨?_, fun i hi => ?_⟩
    · have hdot : szStr.bytes 4 = 0x2e := h0.2 (by decide)
      have hdot' : szStr.bytes 9 = 0x2e := h1.2 (by decide)
      rw [text_of_len hlen, hdot, hdot', hd 0 (by decide), hd 1 (by decide), hd 2 (by decide), hd 3 (by decide),
        hd 4 (by decide), hd 5 (by decide), hd 6 (by decide), hd 7 (by decide), hd 8 (by decide), hd 9 (by decide),
        hd 10 (by decide), hd 11 (by decide)]
      rfl
    · rw [hd i hi, digitsOf]
      obtain hgroup | hgroup | hgroup : i < 4 ∨ (4 ≤ i ∧ i < 8) ∨ 8 ≤ i := by omega
      · have hplace : i + i / 4 = 0 + i := by omega
        rw [hplace]
        exact h0.1 i hgroup
      · have hplace : i + i / 4 = 5 + (i - 4) := by omega
        rw [hplace]
        exact h1.1 (i - 4) (by omega)
      · have hplace : i + i / 4 = 10 + (i - 8) := by omega
        rw [hplace]
        exact h2.1 (i - 8) (by omega)

theorem octet_congr {d d' : Nat → UInt8} (h : ∀ i < 12, d i = d' i) {i : Nat} (hi : i < 6) :
    octet d i = octet d' i := by
  rw [octet, octet, h (2 * i) (by omega), h (2 * i + 1) (by omega)]

/-- The grammar, of the digits where they are. -/
theorem grammar_iff : Grammar szStr.text ↔
    szStr.len = 14 ∧ (GroupAt szStr 0 0 ∧ GroupAt szStr 1 5 ∧ GroupAt szStr 2 10) ∧
      (∃ i < 6, octet (digitsOf szStr) i ≠ 0) ∧ octet (digitsOf szStr) 0 &&& 0x01 = 0 := by
  constructor
  · rintro ⟨d, hd, ⟨i, hi, hne⟩, hbit⟩
    obtain ⟨hlen, hgroups, hdigits⟩ := (groups_iff d).mp hd
    rw [octet_congr hdigits hi] at hne
    rw [octet_congr hdigits (by decide)] at hbit
    exact ⟨hlen, hgroups, ⟨i, hi, hne⟩, hbit⟩
  · rintro ⟨hlen, hgroups, hsome, hbit⟩
    exact ⟨digitsOf szStr, (groups_iff _).mpr ⟨hlen, hgroups, fun i _ => rfl⟩, hsome, hbit⟩

/-- The tests of the address behind the groups; one of ones only is no address of one device anyway. -/
theorem checks_iff (o : Out) : (¬ o.All 0 ∧ ¬ o.All 0xff ∧ ¬ o.pucMacAddr 0 &&& 0x01 ≠ 0) ↔
    (∃ i < 6, o.pucMacAddr i ≠ 0) ∧ o.pucMacAddr 0 &&& 0x01 = 0 := by
  unfold Out.All
  constructor
  · rintro ⟨hzero, -, hbit⟩
    rw [not_forall] at hzero
    obtain ⟨i, hi⟩ := hzero
    exact ⟨⟨i, Classical.not_imp.mp hi⟩, not_not.mp hbit⟩
  · rintro ⟨⟨i, hi, hne⟩, hbit⟩
    refine ⟨fun hall => hne (hall i hi), fun hall => ?_, not_not_intro hbit⟩
    rw [hall 0 (by decide)] at hbit
    exact absurd hbit (by decide)

/-- What stands behind the test of the length. -/
theorem checks_eq (r : Bool × Out) :
    (if r.1 = false then (pure (false, r.2) : Reading (Bool × Out))
      else if r.2.All 0 then pure (false, r.2)
      else if r.2.All 0xff then pure (false, r.2)
      else if r.2.pucMacAddr 0 &&& 0x01 ≠ 0 then pure (false, r.2)
      else pure (true, r.2)) =
    pure (decide (r.1 = true ∧ ¬ r.2.All 0 ∧ ¬ r.2.All 0xff ∧ ¬ r.2.pucMacAddr 0 &&& 0x01 ≠ 0), r.2) := by
  split_ifs with hgroups hzero hones hbit
  · rw [decide_eq_false fun h => absurd (hgroups.symm.trans h.1) Bool.false_ne_true]
  · rw [decide_eq_false fun h => h.2.1 hzero]
  · rw [decide_eq_false fun h => h.2.2.1 hones]
  · rw [decide_eq_false fun h => h.2.2.2 hbit]
  · rw [decide_eq_true ⟨Bool.eq_true_of_not_eq_false hgroups, hzero, hones, hbit⟩]

theorem short_value (hlen : szStr.len ≠ 14) (pucMacAddr : Nat → UInt8) :
    (GetMacAddr szStr pucMacAddr).value = (false, ⟨pucMacAddr, []⟩) := by
  rw [GetMacAddr, value_bind, strlen_value, if_pos (Ne.symm hlen)]
  rfl

theorem GetMacAddr_value (hlen : szStr.len = 14) (pucMacAddr : Nat → UInt8) :
    (GetMacAddr szStr pucMacAddr).value =
      let r := (groups szStr [0, 1, 2] 0 0 ⟨pucMacAddr, []⟩).value
      (decide (r.1 = true ∧ ¬ r.2.All 0 ∧ ¬ r.2.All 0xff ∧ ¬ r.2.pucMacAddr 0 &&& 0x01 ≠ 0), r.2) := by
  rw [GetMacAddr, value_bind, strlen_value, if_neg (not_not_intro hlen.symm), value_bind]
  exact congrArg Reading.value (checks_eq _)

theorem GetMacAddr_inside (pucMacAddr : Nat → UInt8) : (GetMacAddr szStr pucMacAddr).Inside (szStr.len + 1) := by
  refine (inside_bind _ _).mpr ⟨(inside_readAt _ _ _).mpr (by omega), ?_⟩
  split_ifs
  · exact inside_pure _
  · refine (inside_bind _ _).mpr ⟨groups_inside _, ?_⟩
    have hpure := checks_eq (groups szStr [0, 1, 2] 0 0 ⟨pucMacAddr, []⟩).value
    dsimp only at hpure ⊢
    rw [hpure]
    exact inside_pure _

theorem taken_iff (hlen : szStr.len = 14) (pucMacAddr : Nat → UInt8) :
    (GetMacAddr szStr pucMacAddr).value.1 = true ↔
      (groups szStr [0, 1, 2] 0 0 ⟨pucMacAddr, []⟩).value.1 = true ∧
        (∃ i < 6, (groups szStr [0, 1, 2] 0 0 ⟨pucMacAddr, []⟩).value.2.pucMacAddr i ≠ 0) ∧
          (groups szStr [0, 1, 2] 0 0 ⟨pucMacAddr, []⟩).value.2.pucMacAddr 0 &&& 0x01 = 0 := by
  rw [GetMacAddr_value hlen, ← checks_iff]
  exact decide_eq_true_iff

/-- A text of another length leaves the output as it was. -/
theorem short_takes (hlen : szStr.len ≠ 14) (pucMacAddr : Nat → UInt8) : TakesItsGrammar szStr pucMacAddr := by
  have hvalue := short_value hlen pucMacAddr
  refine ⟨?_, ?_, GetMacAddr_inside pucMacAddr, ?_⟩
  · rw [hvalue, grammar_iff]
    exact iff_of_false Bool.false_ne_true fun h => hlen h.1
  · intro htaken
    rw [hvalue] at htaken
    cases htaken
  · intro k hk
    rw [hvalue] at hk
    cases hk

theorem whole_takes (hlen : szStr.len = 14) (pucMacAddr : Nat → UInt8) : TakesItsGrammar szStr pucMacAddr := by
  obtain ⟨hgroups, hwritten⟩ := three_groups hlen pucMacAddr
  have hvalue := GetMacAddr_value hlen pucMacAddr
  have hok := taken_iff hlen pucMacAddr
  refine ⟨?_, ?_, GetMacAddr_inside pucMacAddr, ?_⟩
  · rw [hok, grammar_iff, ← hgroups, and_iff_right hlen]
    refine and_congr_right fun hthree => ?_
    rw [hwritten hthree, written_octet pucMacAddr (by decide : 0 < 6)]
    refine and_congr_left fun _ => exists_congr fun i => and_congr_right fun hi => ?_
    rw [written_octet pucMacAddr hi]
  · intro htaken d hd i hi
    rw [hvalue]
    dsimp only
    rw [hwritten (hok.mp htaken).1, written_octet pucMacAddr hi]
    exact octet_congr (fun j hj => (((groups_iff d).mp hd).2.2 j hj).symm) hi
  · intro k hk
    rw [hvalue] at hk
    rcases groups_written [0, 1, 2] 0 0 _ k hk with hnone | hlt
    · cases hnone
    · exact hlt

/-- A text is taken just when it is three groups of four digits that are the address of one device, and
then its bytes are the pairs of digits. -/
theorem a_text_is_taken_iff_it_is_an_address (szStr : CString) (pucMacAddr : Nat → UInt8) :
    TakesItsGrammar szStr pucMacAddr := by
  by_cases hlen : szStr.len = 14
  · exact whole_takes hlen pucMacAddr
  · exact short_takes hlen pucMacAddr

end gwdonu.mac_text
