-- The linked lists of the system library, pointer by pointer, and what their
-- operations do to the nodes that a list holds.
import Gwdonu.Lib.Linked

namespace gwdonu.util_list

open Function linked

/-! ## The program -/

/-- `gw_node`. An address is a number, and `NULL` is `none`. -/
structure gw_node where
  previous : Option Nat
  next : Option Nat
  deriving DecidableEq

/-- `gw_list`, whose `node` names the first node and the last one. -/
structure gw_list where
  gw_head : Option Nat
  gw_tail : Option Nat
  count : UInt32
  deriving DecidableEq

abbrev Nodes := Nat → gw_node

/-- The nodes, the list that an operation is about, and the nodes that were
reached through a pointer. -/
structure Linking where
  nodes : Nodes
  lst : gw_list
  touched : List Nat

def gw_lst_init : gw_list := ⟨none, none, 0⟩

/-- Sets the link to what comes after `p`; nothing before it is the list itself. -/
def Linking.set_next (k : Linking) (p next : Option Nat) : Linking :=
  match p with
  | none => { k with lst := { k.lst with gw_head := next } }
  | some p =>
    { k with nodes := update k.nodes p { k.nodes p with next }, touched := k.touched ++ [p] }

/-- Sets the link to what comes before `p`. -/
def Linking.set_previous (k : Linking) (p previous : Option Nat) : Linking :=
  match p with
  | none => { k with lst := { k.lst with gw_tail := previous } }
  | some p =>
    { k with nodes := update k.nodes p { k.nodes p with previous }, touched := k.touched ++ [p] }

def Linking.set_count (k : Linking) (count : UInt32) : Linking :=
  { k with lst := { k.lst with count } }

/-- What comes after `p`; after nothing comes the first node. -/
def nextOf (nodes : Nodes) (lst : gw_list) : Option Nat → Option Nat
  | none => lst.gw_head
  | some p => (nodes p).next

def gw_lst_insert (nodes : Nodes) (pLst : gw_list) (pPrevious : Option Nat) (pNode : Nat) :
    Linking :=
  let pNext := nextOf nodes pLst pPrevious
  let k := (Linking.mk nodes pLst []).set_next pPrevious (some pNode)
  let k := k.set_previous pNext (some pNode)
  let k := (k.set_previous (some pNode) pPrevious).set_next (some pNode) pNext
  k.set_count (k.lst.count + 1)

def gw_lst_add (nodes : Nodes) (pLst : gw_list) (pNode : Nat) : Linking :=
  gw_lst_insert nodes pLst pLst.gw_tail pNode

def gw_lst_delete (nodes : Nodes) (pLst : gw_list) (pNode : Nat) : Linking :=
  let k := (Linking.mk nodes pLst [pNode]).set_next (nodes pNode).previous (nodes pNode).next
  let k := k.set_previous (k.nodes pNode).next (k.nodes pNode).previous
  k.set_count (k.lst.count - 1)

/-- The first node, when there is one, and the list without it. -/
def gw_lst_get (nodes : Nodes) (pLst : gw_list) : Linking × Option Nat :=
  match pLst.gw_head with
  | none => (⟨nodes, pLst, []⟩, none)
  | some pNode =>
    let k := (Linking.mk nodes pLst [pNode]).set_next none (nodes pNode).next
    let k := k.set_previous (k.nodes pNode).next none
    (k.set_count (k.lst.count - 1), some pNode)

def gw_lst_first (pLst : gw_list) : Option Nat := pLst.gw_head

def gw_lst_next (nodes : Nodes) (pNode : Nat) : Option Nat := (nodes pNode).next

def gw_lst_prev (nodes : Nodes) (pNode : Nat) : Option Nat := (nodes pNode).previous

/-- The loop of `gw_lst_scan`, from `pNode` on: the nodes that it passes, and
the one that it stops at. `none` when it is not at its end after `n` nodes. -/
def gw_lst_scan (nodes : Nodes) (stop : Nat → Bool) :
    Nat → Option Nat → Option (List Nat × Option Nat)
  | _, none => some ([], none)
  | 0, some _ => none
  | n + 1, some pNode =>
    if stop pNode then some ([], some pNode)
    else
      (gw_lst_scan nodes stop n (gw_lst_next nodes pNode)).map
        (fun seen => (pNode :: seen.1, seen.2))

/-- The first `n` nodes that a `gw_lst_scan` passes. -/
def gw_lst_nodes (nodes : Nodes) : Nat → Option Nat → List Nat
  | n + 1, some pNode => pNode :: gw_lst_nodes nodes n (gw_lst_next nodes pNode)
  | _, _ => []

/-! ## A list as a ring -/

def prevOf (nodes : Nodes) (lst : gw_list) : Option Nat → Option Nat
  | none => lst.gw_tail
  | some a => (nodes a).previous

section
variable (k : Linking) (p v : Option Nat)

@[simp] theorem set_next_next :
    nextOf (k.set_next p v).nodes (k.set_next p v).lst = update (nextOf k.nodes k.lst) p v := by
  funext y
  cases p with
  | none => cases y <;> simp [Linking.set_next, nextOf]
  | some p =>
    cases y with
    | none => simp [Linking.set_next, nextOf]
    | some b => by_cases h : b = p <;> simp [Linking.set_next, nextOf, h]

@[simp] theorem set_next_prev :
    prevOf (k.set_next p v).nodes (k.set_next p v).lst = prevOf k.nodes k.lst := by
  funext y
  cases p with
  | none => cases y <;> rfl
  | some p =>
    cases y with
    | none => rfl
    | some b => by_cases h : b = p <;> simp [Linking.set_next, prevOf, h]

@[simp] theorem set_previous_next :
    nextOf (k.set_previous p v).nodes (k.set_previous p v).lst = nextOf k.nodes k.lst := by
  funext y
  cases p with
  | none => cases y <;> rfl
  | some p =>
    cases y with
    | none => rfl
    | some b => by_cases h : b = p <;> simp [Linking.set_previous, nextOf, h]

@[simp] theorem set_previous_prev :
    prevOf (k.set_previous p v).nodes (k.set_previous p v).lst =
      update (prevOf k.nodes k.lst) p v := by
  funext y
  cases p with
  | none => cases y <;> simp [Linking.set_previous, prevOf]
  | some p =>
    cases y with
    | none => simp [Linking.set_previous, prevOf]
    | some b => by_cases h : b = p <;> simp [Linking.set_previous, prevOf, h]

@[simp] theorem set_next_count : (k.set_next p v).lst.count = k.lst.count := by
  cases p <;> rfl

@[simp] theorem set_previous_count : (k.set_previous p v).lst.count = k.lst.count := by
  cases p <;> rfl

@[simp] theorem set_next_touched : (k.set_next p v).touched = k.touched ++ p.toList := by
  cases p <;> simp [Linking.set_next]

@[simp] theorem set_previous_touched :
    (k.set_previous p v).touched = k.touched ++ p.toList := by
  cases p <;> simp [Linking.set_previous]

theorem set_next_other {a : Nat} (h : p ≠ some a) : (k.set_next p v).nodes a = k.nodes a := by
  cases p with
  | none => rfl
  | some p => exact update_of_ne (fun he => h (by rw [he])) _ _

theorem set_previous_other {a : Nat} (h : p ≠ some a) :
    (k.set_previous p v).nodes a = k.nodes a := by
  cases p with
  | none => rfl
  | some p => exact update_of_ne (fun he => h (by rw [he])) _ _

end

@[simp] theorem set_count_next (k : Linking) (n : UInt32) :
    nextOf (k.set_count n).nodes (k.set_count n).lst = nextOf k.nodes k.lst := by
  funext y
  cases y <;> rfl

@[simp] theorem set_count_prev (k : Linking) (n : UInt32) :
    prevOf (k.set_count n).nodes (k.set_count n).lst = prevOf k.nodes k.lst := by
  funext y
  cases y <;> rfl

@[simp] theorem set_count_count (k : Linking) (n : UInt32) : (k.set_count n).lst.count = n := rfl

/-- The list holds the nodes of `l`, in this order. -/
structure Represents (nodes : Nodes) (lst : gw_list) (l : List Nat) : Prop where
  ring : Ring (nextOf nodes lst) (prevOf nodes lst) l
  nodup : l.Nodup
  count : lst.count = .ofNat l.length

theorem init_represents (nodes : Nodes) : Represents nodes gw_lst_init [] :=
  ⟨ring_nil.mpr ⟨rfl, rfl⟩, List.nodup_nil, rfl⟩

section
variable {nodes : Nodes} {lst : gw_list} {l r : List Nat} {x : Nat}

theorem head_eq (h : Represents nodes lst l) : lst.gw_head = l.head? := h.ring.header.1

theorem tail_eq (h : Represents nodes lst l) : lst.gw_tail = l.getLast? := h.ring.header.2

theorem next_eq (h : Represents nodes lst (l ++ x :: r)) : (nodes x).next = r.head? :=
  h.ring.neighbours.1

theorem previous_eq (h : Represents nodes lst (l ++ x :: r)) : (nodes x).previous = l.getLast? :=
  h.ring.neighbours.2

/-- What follows a place in the list. -/
theorem after_eq (h : Represents nodes lst (l ++ r)) : nextOf nodes lst l.getLast? = r.head? := by
  rcases l.eq_nil_or_concat with rfl | ⟨l, a, rfl⟩
  · exact head_eq h
  · rw [List.concat_eq_append, List.append_assoc, List.singleton_append] at h
    simpa [nextOf] using next_eq h

/-- Only the nodes of a list matter to it. -/
theorem represents_congr {nodes' : Nodes} (h : Represents nodes lst l)
    (hl : ∀ a ∈ l, nodes' a = nodes a) : Represents nodes' lst l := by
  refine ⟨h.ring.congr rfl rfl ?_, h.nodup, h.count⟩
  intro a ha
  simp only [nextOf, prevOf, hl a ha, and_self]

/-! ## The operations -/

/-- What an operation does to the nodes: it leaves those alone that are not in
`l`, and reaches no others. -/
structure Within (nodes : Nodes) (k : Linking) (l : List Nat) : Prop where
  others : ∀ a, a ∉ l → k.nodes a = nodes a
  touched : ∀ a ∈ k.touched, a ∈ l

theorem within_start {touched : List Nat} (h : ∀ a ∈ touched, a ∈ l) :
    Within nodes ⟨nodes, lst, touched⟩ l := ⟨fun _ _ => rfl, h⟩

theorem Within.set_next {k : Linking} {p v : Option Nat} (h : Within nodes k l)
    (hp : ∀ a ∈ p, a ∈ l) : Within nodes (k.set_next p v) l := by
  refine ⟨?_, ?_⟩
  · intro a ha
    rw [set_next_other _ _ _ (fun he => ha (hp a he)), h.others a ha]
  · intro a ha
    rw [set_next_touched, List.mem_append] at ha
    rcases ha with ha | ha
    · exact h.touched a ha
    · exact hp a (by simpa using ha)

theorem Within.set_previous {k : Linking} {p v : Option Nat} (h : Within nodes k l)
    (hp : ∀ a ∈ p, a ∈ l) : Within nodes (k.set_previous p v) l := by
  refine ⟨?_, ?_⟩
  · intro a ha
    rw [set_previous_other _ _ _ (fun he => ha (hp a he)), h.others a ha]
  · intro a ha
    rw [set_previous_touched, List.mem_append] at ha
    rcases ha with ha | ha
    · exact h.touched a ha
    · exact hp a (by simpa using ha)

theorem Within.set_count {k : Linking} (h : Within nodes k l) (n : UInt32) :
    Within nodes (k.set_count n) l := ⟨h.others, h.touched⟩

theorem insert_represents (h : Represents nodes lst (l ++ r)) (hx : x ∉ l ++ r) :
    Represents (gw_lst_insert nodes lst l.getLast? x).nodes
      (gw_lst_insert nodes lst l.getLast? x).lst (l ++ x :: r) := by
  have hd : (l ++ x :: r).Nodup := List.nodup_middle.mpr (List.nodup_cons.mpr ⟨hx, h.nodup⟩)
  refine ⟨?_, ?_, ?_⟩
  · unfold gw_lst_insert
    simp only [after_eq h, set_count_next, set_count_prev, set_next_next, set_next_prev,
      set_previous_next, set_previous_prev]
    exact h.ring.insert hd
  · exact hd
  · simp only [gw_lst_insert, set_count_count, set_next_count, set_previous_count, h.count,
      List.length_append, List.length_cons]
    rw [← UInt32.ofNat_one, ← UInt32.ofNat_add, Nat.add_assoc]

theorem insert_within (h : Represents nodes lst (l ++ r)) :
    Within nodes (gw_lst_insert nodes lst l.getLast? x) (l ++ x :: r) := by
  have hlast : ∀ a ∈ l.getLast?, a ∈ l ++ x :: r :=
    fun a ha => List.mem_append_left _ (List.mem_of_getLast? ha)
  have hhead : ∀ a ∈ r.head?, a ∈ l ++ x :: r :=
    fun a ha => List.mem_append_right _ (List.mem_cons_of_mem _ (List.mem_of_head? ha))
  have hx : ∀ a ∈ some x, a ∈ l ++ x :: r := by simp
  unfold gw_lst_insert
  rw [after_eq h]
  apply Within.set_count
  apply Within.set_next _ hx
  apply Within.set_previous _ hx
  apply Within.set_previous _ hhead
  exact Within.set_next (within_start (by simp)) hlast

theorem add_represents (h : Represents nodes lst l) (hx : x ∉ l) :
    Represents (gw_lst_add nodes lst x).nodes (gw_lst_add nodes lst x).lst (l ++ [x]) := by
  rw [gw_lst_add, tail_eq h]
  exact insert_represents (by simpa using h) (by simpa using hx)

theorem add_within (h : Represents nodes lst l) :
    Within nodes (gw_lst_add nodes lst x) (l ++ [x]) := by
  rw [gw_lst_add, tail_eq h]
  exact insert_within (by simpa using h)

theorem delete_eq (h : Represents nodes lst (l ++ x :: r)) :
    gw_lst_delete nodes lst x =
      (((Linking.mk nodes lst [x]).set_next l.getLast? r.head?).set_previous r.head?
        l.getLast?).set_count (lst.count - 1) := by
  obtain ⟨-, hxr, hapart⟩ := List.nodup_append.mp h.nodup
  have hlast : l.getLast? ≠ some x :=
    fun he => hapart x (List.mem_of_getLast? he) x (by simp) rfl
  unfold gw_lst_delete
  dsimp only
  rw [previous_eq h, next_eq h, set_next_other _ _ _ hlast, previous_eq h, next_eq h]
  simp

theorem delete_represents (h : Represents nodes lst (l ++ x :: r)) :
    Represents (gw_lst_delete nodes lst x).nodes (gw_lst_delete nodes lst x).lst (l ++ r) := by
  rw [delete_eq h]
  refine ⟨?_, ?_, ?_⟩
  · simp only [set_count_next, set_count_prev, set_next_next, set_next_prev, set_previous_next,
      set_previous_prev]
    exact h.ring.remove h.nodup
  · exact h.nodup.sublist ((List.sublist_cons_self x r).append_left l)
  · simp only [set_count_count, h.count, List.length_append, List.length_cons]
    rw [← Nat.add_assoc, UInt32.ofNat_add]
    simp

theorem delete_within (h : Represents nodes lst (l ++ x :: r)) :
    Within nodes (gw_lst_delete nodes lst x) (l ++ x :: r) := by
  have hlast : ∀ a ∈ l.getLast?, a ∈ l ++ x :: r :=
    fun a ha => List.mem_append_left _ (List.mem_of_getLast? ha)
  have hhead : ∀ a ∈ r.head?, a ∈ l ++ x :: r :=
    fun a ha => List.mem_append_right _ (List.mem_cons_of_mem _ (List.mem_of_head? ha))
  have hx : ∀ a ∈ [x], a ∈ l ++ x :: r := by simp
  rw [delete_eq h]
  apply Within.set_count
  apply Within.set_previous _ hhead
  exact Within.set_next (within_start hx) hlast

theorem get_nil (h : Represents nodes lst []) : gw_lst_get nodes lst = (⟨nodes, lst, []⟩, none) := by
  unfold gw_lst_get
  rw [head_eq h]
  rfl

/-- The first node leaves a list as any other one. -/
theorem get_cons (h : Represents nodes lst (x :: r)) :
    gw_lst_get nodes lst = (gw_lst_delete nodes lst x, some x) := by
  have hnext : (nodes x).next = r.head? := next_eq (l := []) h
  have hsame : ((Linking.mk nodes lst [x]).set_next none r.head?).nodes = nodes := rfl
  rw [delete_eq (l := []) h]
  unfold gw_lst_get
  rw [head_eq h]
  dsimp only [List.head?_cons]
  rw [hnext, hsame, hnext]
  simp

/-! ## Scanning -/

/-- A scan stops at the first node that it looks for, and passes those before it. -/
theorem scan_eq (stop : Nat → Bool) (h : Represents nodes lst (l ++ r)) {n : Nat}
    (hn : r.length ≤ n) :
    gw_lst_scan nodes stop n r.head? = some (r.takeWhile (fun a => !stop a), r.find? stop) := by
  induction r generalizing l n with
  | nil => cases n <;> rfl
  | cons a r ih =>
    obtain _ | n := n
    · simp at hn
    · rw [List.head?_cons, gw_lst_scan, List.find?_cons]
      by_cases ha : stop a = true
      · simp [ha]
      · have hrest : Represents nodes lst ((l ++ [a]) ++ r) := by simpa using h
        rw [if_neg ha, gw_lst_next, next_eq h, ih hrest (by simpa using hn)]
        simp [ha]

theorem nodes_eq (h : Represents nodes lst (l ++ r)) {n : Nat} (hn : r.length ≤ n) :
    gw_lst_nodes nodes n r.head? = r := by
  induction r generalizing l n with
  | nil => cases n <;> rfl
  | cons a r ih =>
    obtain _ | n := n
    · simp at hn
    · have hrest : Represents nodes lst ((l ++ [a]) ++ r) := by simpa using h
      rw [List.head?_cons, gw_lst_nodes, gw_lst_next, next_eq h, ih hrest (by simpa using hn)]

end

end gwdonu.util_list
