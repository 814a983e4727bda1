-- The node of a number in a list: the walk from the first node finds it, and the walk from
-- the last one never does.
import Gwdonu.UtilListConcat
import Mathlib.Algebra.Ring.Int.Defs

namespace gwdonu.util_list

open linked

/-! ## The program -/

/-- A `while` loop of `gw_lst_nth`: the counter changes by `d` before it is compared, and each
turn follows a link. `none` when it follows the link of `NULL`, or is not at its end after `n` turns. -/
def nth_loop (nodes : Nodes) (link : gw_node → Option Nat) (d : Int32) :
    Nat → Int32 → Option Nat → Option (Option Nat)
  | 0, _, _ => none
  | n + 1, nodeNum, pNode =>
    if 0 < nodeNum + d then
      match pNode with
      | none => none
      | some p => nth_loop nodes link d n (nodeNum + d) (link (nodes p))
    else some pNode

/-- More turns than the counter has values. -/
def allTurns : Nat := 2 ^ 32

/-- `nodeNum` is compared with `count` as an unsigned number. -/
def gw_lst_nth (nodes : Nodes) (pLst : gw_list) (nodeNum : Int32) : Option (Option Nat) :=
  if nodeNum < 1 ∨ pLst.count < nodeNum.toUInt32 then some none
  else if nodeNum.toUInt32 < (pLst.count + 1) >>> 1 then
    nth_loop nodes gw_node.next (-1) allTurns nodeNum pLst.gw_head
  else
    nth_loop nodes gw_node.previous 1 allTurns (pLst.count - nodeNum.toUInt32).toInt32 pLst.gw_tail

/-- The node with the number in the list, counted from 1. -/
def nthOf (l : List Nat) (nodeNum : Int32) : Option Nat :=
  if 1 ≤ nodeNum.toInt ∧ nodeNum.toInt ≤ l.length then l[nodeNum.toInt.toNat - 1]? else none

/-- The number is that of a node in front of the middle. -/
def InFront (c : Nat) (nodeNum : Int32) : Prop := nodeNum.toInt < ((c + 1) % 2 ^ 32 / 2 : Nat)

instance (c : Nat) (nodeNum : Int32) : Decidable (InFront c nodeNum) := inferInstanceAs (Decidable (_ < _))

/-! ## Walks -/

section
variable {nodes : Nodes} {lst : gw_list} {l : List Nat} {nodeNum : Int32} {i j m n x : Nat}

theorem nth_loop_ends {link : gw_node → Option Nat} {d : Int32} {pNode : Option Nat} (h : ¬ 0 < nodeNum + d) :
    nth_loop nodes link d (n + 1) nodeNum pNode = some pNode := if_neg h

theorem nth_loop_turns {link : gw_node → Option Nat} {d : Int32} (h : 0 < nodeNum + d) :
    nth_loop nodes link d (n + 1) nodeNum (some x) = nth_loop nodes link d n (nodeNum + d) (link (nodes x)) :=
  if_pos h

theorem nth_loop_null {link : gw_node → Option Nat} {d : Int32} (h : 0 < nodeNum + d) :
    nth_loop nodes link d (n + 1) nodeNum none = none := if_pos h

theorem next_get (h : Represents nodes lst l) (hx : l[i]? = some x) : (nodes x).next = l[i + 1]? := by
  obtain ⟨hi, rfl⟩ := List.getElem?_eq_some_iff.mp hx
  have hsplit : l.take i ++ l[i] :: l.drop (i + 1) = l := by
    rw [← List.drop_eq_getElem_cons hi, List.take_append_drop]
  rw [next_eq (hsplit.symm ▸ h), List.head?_drop]

theorem previous_get (h : Represents nodes lst l) (hx : l[i]? = some x) :
    (nodes x).previous = if i = 0 then none else l[i - 1]? := by
  obtain ⟨hi, rfl⟩ := List.getElem?_eq_some_iff.mp hx
  have hsplit : l.take i ++ l[i] :: l.drop (i + 1) = l := by
    rw [← List.drop_eq_getElem_cons hi, List.take_append_drop]
  rw [previous_eq (hsplit.symm ▸ h)]
  split_ifs with hzero
  · rw [hzero]
    rfl
  · rw [List.getLast?_eq_getElem?, List.length_take, Nat.min_eq_left hi.le]
    exact List.getElem?_take_of_lt (by omega)

theorem toInt_pred (hpos : 1 ≤ nodeNum.toInt) : (nodeNum + -1).toInt = nodeNum.toInt - 1 := by
  have hlt := nodeNum.toInt_lt
  rw [Int32.toInt_add]
  change (nodeNum.toInt + -1).bmod (2 ^ 32) = _
  rw [Int.bmod_eq_of_le (by omega) (by omega)]
  omega

/-- The counter runs down to the node. -/
theorem forward_eq (h : Represents nodes lst l) (hm : nodeNum.toInt = m + 1) (hfit : i + m < l.length) (hn : m < n) :
    nth_loop nodes gw_node.next (-1) n nodeNum l[i]? = some l[i + m]? := by
  induction m generalizing i n nodeNum with
  | zero =>
    obtain ⟨n, rfl⟩ : ∃ k, n = k + 1 := ⟨n - 1, by omega⟩
    have hzero : ¬ 0 < nodeNum + -1 := by
      rw [Int32.lt_iff_toInt_lt, toInt_pred (by omega), hm]
      decide
    rw [nth_loop_ends hzero]
    rfl
  | succ m ih =>
    obtain ⟨n, rfl⟩ : ∃ k, n = k + 1 := ⟨n - 1, by omega⟩
    have hnext : (nodeNum + -1).toInt = m + 1 := by
      rw [toInt_pred (by omega), hm]
      omega
    have hpos : 0 < nodeNum + -1 := by
      rw [Int32.lt_iff_toInt_lt, hnext]
      exact Int.natCast_succ_pos m
    have hi : l[i]? = some l[i] := List.getElem?_eq_getElem (by omega)
    have hback : i + 1 + m = i + (m + 1) := by omega
    rw [hi, nth_loop_turns hpos, next_get h hi, ih hnext (by omega) (by omega), hback]

theorem toInt_succ (hlt : nodeNum.toInt < 2 ^ 31 - 1) : (nodeNum + 1).toInt = nodeNum.toInt + 1 := by
  have hle := nodeNum.le_toInt
  rw [Int32.toInt_add]
  change (nodeNum.toInt + 1).bmod (2 ^ 32) = _
  exact Int.bmod_eq_of_le (by omega) (by omega)

/-- A counter that is not negative becomes the next number, or wraps at the last one. -/
theorem count_up (hnum : 0 ≤ nodeNum.toInt) : (0 < nodeNum + 1 ∧ (nodeNum + 1).toInt = nodeNum.toInt + 1) ∨
    (¬ 0 < nodeNum + 1 ∧ nodeNum.toInt = 2 ^ 31 - 1) := by
  have hlt := nodeNum.toInt_lt
  by_cases hlast : nodeNum.toInt = 2 ^ 31 - 1
  · obtain rfl : nodeNum = Int32.maxValue := Int32.toInt_inj.mp hlast
    exact .inr ⟨by decide, hlast⟩
  · have hnext : (nodeNum + 1).toInt = nodeNum.toInt + 1 := toInt_succ (by omega)
    refine .inl ⟨?_, hnext⟩
    rw [Int32.lt_iff_toInt_lt, hnext]
    exact Int.lt_add_one_of_le hnum

/-- In front of the first node, the walk ends at no node. -/
theorem null_ends (link : gw_node → Option Nat) (d : Int32) :
    nth_loop nodes link d n nodeNum none ≠ some (some x) := by
  cases n with
  | zero => exact nofun
  | succ n =>
    by_cases hpos : 0 < nodeNum + d
    · rw [nth_loop_null hpos]
      exact nofun
    · rw [nth_loop_ends hpos]
      exact nofun

/-- The counter runs up: a node that the walk ends at is as far from its start as the counter
was from the last of its numbers. -/
theorem backward_end (h : Represents nodes lst l) (hnum : 0 ≤ nodeNum.toInt) (hj : j < l.length)
    (hend : nth_loop nodes gw_node.previous 1 n nodeNum l[j]? = some (some x)) :
    ∃ i : Nat, l[i]? = some x ∧ nodeNum.toInt + j = 2 ^ 31 - 1 + i := by
  induction j generalizing n nodeNum with
  | zero =>
    have hi : l[0]? = some l[0] := List.getElem?_eq_getElem hj
    cases n with
    | zero => cases hend
    | succ n =>
      rcases count_up hnum with ⟨hpos, hnext⟩ | ⟨hneg, hlast⟩
      · rw [hi, nth_loop_turns hpos, previous_get h hi, if_pos rfl] at hend
        exact (null_ends _ _ hend).elim
      · rw [nth_loop_ends hneg] at hend
        exact ⟨0, Option.some.inj hend, by omega⟩
  | succ j ih =>
    have hi : l[j + 1]? = some l[j + 1] := List.getElem?_eq_getElem hj
    cases n with
    | zero => cases hend
    | succ n =>
      rcases count_up hnum with ⟨hpos, hnext⟩ | ⟨hneg, hlast⟩
      · rw [hi, nth_loop_turns hpos, previous_get h hi, if_neg (Nat.succ_ne_zero j)] at hend
        obtain ⟨i, hx, hsum⟩ := ih (by omega) (by omega) hend
        exact ⟨i, hx, by omega⟩
      · rw [nth_loop_ends hneg] at hend
        exact ⟨j + 1, Option.some.inj hend, by omega⟩

/-! ## The middle -/

/-- A number that is in the list, as a number without a sign. -/
theorem toNat_num (hpos : 1 ≤ nodeNum.toInt) : nodeNum.toUInt32.toNat = nodeNum.toInt.toNat :=
  Int32.toNat_toUInt32_of_le (Int32.le_iff_toInt_le.mpr (Int.le_of_lt hpos))

theorem get_inj (h : Represents nodes lst l) (hi : l[i]? = some x) (hj : l[j]? = some x) : i = j :=
  (List.getElem?_inj (List.getElem?_eq_some_iff.mp hi).1 h.nodup).mp (hi.trans hj.symm)

theorem tail_get (h : Represents nodes lst l) : lst.gw_tail = l[l.length - 1]? := by
  rw [tail_eq h, List.getLast?_eq_getElem?]

/-- What the counter of the walk from the last node starts with. -/
theorem distance_toNat (h : Represents nodes lst l) (hlen : l.length < 2 ^ 32) (hpos : 1 ≤ nodeNum.toInt)
    (hle : nodeNum.toInt ≤ l.length) :
    (lst.count - nodeNum.toUInt32).toNat = l.length - nodeNum.toInt.toNat := by
  have hcount : lst.count.toNat = l.length := by
    rw [h.count]
    exact UInt32.toNat_ofNat_of_lt' hlen
  rw [UInt32.toNat_sub_of_le, hcount, toNat_num hpos]
  rw [UInt32.le_iff_toNat_le, hcount, toNat_num hpos]
  omega

/-- From the last node, the walk does not come to the node with the number. -/
theorem backward_misses (h : Represents nodes lst l) (hlen : l.length < 2 ^ 32) (hpos : 1 ≤ nodeNum.toInt)
    (hle : nodeNum.toInt ≤ l.length) :
    nth_loop nodes gw_node.previous 1 n (lst.count - nodeNum.toUInt32).toInt32 lst.gw_tail ≠
      some l[nodeNum.toInt.toNat - 1]? := by
  intro hend
  have hdist := distance_toNat h hlen hpos hle
  have hnode : l[nodeNum.toInt.toNat - 1]? = some l[nodeNum.toInt.toNat - 1] := List.getElem?_eq_getElem (by omega)
  have hnum : (lst.count - nodeNum.toUInt32).toInt32.toInt =
      ((l.length - nodeNum.toInt.toNat : Nat) : Int).bmod (2 ^ 32) := by
    rw [← hdist]
    exact BitVec.toInt_eq_toNat_bmod _
  generalize (lst.count - nodeNum.toUInt32).toInt32 = v at hend hnum
  rw [tail_get h] at hend
  by_cases hsmall : l.length - nodeNum.toInt.toNat < 2 ^ 31
  · rw [Int.bmod_eq_of_le (by omega) (by omega)] at hnum
    rw [hnode] at hend
    obtain ⟨i, hi, hsum⟩ := backward_end h (by omega) (by omega) hend
    have hsame := get_inj h hi hnode
    omega
  · -- the counter is negative, and the walk ends where it starts
    have hneg : v.toInt < 0 := by
      rw [hnum, Int.bmod_eq_emod, if_pos (by omega)]
      omega
    cases n with
    | zero => cases hend
    | succ n =>
      have hstop : ¬ 0 < v + 1 := by
        rw [Int32.lt_iff_toInt_lt, toInt_succ (by omega)]
        change ¬ 0 < _
        omega
      rw [nth_loop_ends hstop, hnode] at hend
      have hsame := get_inj h (Option.some.inj hend) hnode
      omega

end

/-- In every list, the number is that of a node in front of the middle, or of none, or the call
goes wrong. -/
theorem a_node_is_found_in_front_of_the_middle_only (nodes : Nodes) (lst : gw_list) (l : List Nat) (nodeNum : Int32)
    (h : Represents nodes lst l) (hlen : l.length < 2 ^ 32) :
    gw_lst_nth nodes lst nodeNum = some (nthOf l nodeNum) ↔
      (1 ≤ nodeNum.toInt → nodeNum.toInt ≤ l.length → InFront l.length nodeNum) := by
  have hcount : lst.count.toNat = l.length := by
    rw [h.count]
    exact UInt32.toNat_ofNat_of_lt' hlen
  by_cases hpos : 1 ≤ nodeNum.toInt
  swap
  · have hless : nodeNum < 1 := Int32.lt_iff_toInt_lt.mpr (Int.not_le.mp hpos)
    rw [gw_lst_nth, if_pos (.inl hless), nthOf, if_neg fun h => hpos h.1]
    exact iff_of_true rfl fun h => absurd h hpos
  have hmore : ¬ nodeNum < 1 := by
    rw [Int32.lt_iff_toInt_lt]
    exact Int.not_lt.mpr hpos
  by_cases hle : nodeNum.toInt ≤ l.length
  swap
  · have hgreater : lst.count < nodeNum.toUInt32 := by
      rw [UInt32.lt_iff_toNat_lt, hcount, toNat_num hpos]
      omega
    rw [gw_lst_nth, if_pos (.inr hgreater), nthOf, if_neg fun h => hle h.2]
    exact iff_of_true rfl fun _ h => absurd h hle
  have hless : ¬ lst.count < nodeNum.toUInt32 := by
    rw [UInt32.lt_iff_toNat_lt, hcount, toNat_num hpos]
    omega
  have hfront : nodeNum.toUInt32 < (lst.count + 1) >>> 1 ↔ InFront l.length nodeNum := by
    have hhalf : ((lst.count + 1) >>> 1).toNat = (l.length + 1) % 2 ^ 32 / 2 := by
      rw [UInt32.toNat_shiftRight, UInt32.toNat_add, hcount]
      rfl
    rw [UInt32.lt_iff_toNat_lt, hhalf, toNat_num hpos, InFront]
    omega
  have hnth : nthOf l nodeNum = l[nodeNum.toInt.toNat - 1]? := if_pos ⟨hpos, hle⟩
  rw [gw_lst_nth, if_neg (not_or.mpr ⟨hmore, hless⟩), hnth]
  by_cases hin : InFront l.length nodeNum
  · have hnum : nodeNum.toInt = (nodeNum.toInt.toNat - 1 : Nat) + 1 := by omega
    have hwalk := forward_eq (i := 0) (n := allTurns) h hnum (by omega) (by unfold allTurns; omega)
    rw [Nat.zero_add] at hwalk
    rw [if_pos (hfront.mpr hin), head_eq h, List.head?_eq_getElem?, hwalk]
    exact iff_of_true rfl fun _ _ => hin
  · rw [if_neg fun h => hin (hfront.mp h)]
    exact iff_of_false (backward_misses h hlen hpos hle) fun h => hin (h hpos hle)

/-- Two nodes, at 1 and 2. -/
def twoNodes : Linking := gw_lst_add (gw_lst_add (fun _ => ⟨none, none⟩) gw_lst_init 1).nodes
  (gw_lst_add (fun _ => ⟨none, none⟩) gw_lst_init 1).lst 2

theorem two_nodes : Represents twoNodes.nodes twoNodes.lst [1, 2] :=
  add_represents (add_represents (init_represents _) (by decide)) (by decide)

/-- The second of two nodes is not found: the walk goes on past the first one. -/
theorem the_last_of_two_nodes_is_not_found :
    Represents twoNodes.nodes twoNodes.lst [1, 2] ∧ gw_lst_nth twoNodes.nodes twoNodes.lst 2 = none := by
  refine ⟨two_nodes, ?_⟩
  rfl

theorem no_third_node_is_found : gw_lst_nth twoNodes.nodes twoNodes.lst 3 = some (nthOf [1, 2] 3) :=
  (a_node_is_found_in_front_of_the_middle_only _ _ [1, 2] 3 two_nodes (by decide)).mpr (by decide)

end gwdonu.util_list
