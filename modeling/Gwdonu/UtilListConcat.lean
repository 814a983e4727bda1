-- All the lists of the system library at once: what each operation does to the
-- sequences that they stand for, and which concatenations leave a list behind.
import Gwdonu.UtilList
import Gwdonu.Lib.Runs
import Mathlib.Algebra.Ring.Nat
import Mathlib.Data.List.Perm.Subperm
import Mathlib.Tactic.Tauto

namespace gwdonu.util_list

open Function linked runs

/-! ## The program -/

/-- A `gw_list` with the pointer to its compare function. -/
structure compare_list extends gw_list where
  compare : Option Nat

/-- The nodes, and the lists. -/
structure Lists (ι : Type*) where
  nodes : Nodes
  lists : ι → compare_list

/-- As many nodes as there are addresses. -/
def allNodes : Nat := 2 ^ 32

/-- `code` is what the functions that `compare` may point to return for a node
and a key. `none` when the scan does not end. -/
def gw_lst_remove (code : Nat → Nat → UInt32 → Int32) (nodes : Nodes) (pLst : compare_list)
    (key : UInt32) : Option (Linking × Option Nat) :=
  match pLst.compare with
  | none => some (⟨nodes, pLst.togw_list, []⟩, none)
  | some compare =>
    (gw_lst_scan nodes (fun a => code compare a key = 0) allNodes (gw_lst_first pLst.togw_list)).map
      fun seen =>
        match seen.2 with
        | none => (⟨nodes, pLst.togw_list, []⟩, none)
        | some remove_node => (gw_lst_delete nodes pLst.togw_list remove_node, some remove_node)

def write_next (nodes : Nodes) (next : Option Nat) : Option Nat → Nodes
  | none => nodes
  | some p => update nodes p { nodes p with next }

def write_previous (nodes : Nodes) (previous : Option Nat) : Option Nat → Nodes
  | none => nodes
  | some p => update nodes p { nodes p with previous }

section
variable {ι : Type*} [DecidableEq ι]

/-- A list that counts nodes has a first and a last one, so the writes meet no `NULL`. -/
def gw_lst_concat (s : Lists ι) (pDst pSrc : Option ι) : Lists ι × Option ι :=
  match pDst, pSrc with
  | some dst, some src =>
    if (s.lists dst).compare ≠ (s.lists src).compare then (s, none)
    else if (s.lists dst).count = 0 then
      -- the nodes of `src` are now on both lists
      ({ s with lists := update s.lists dst (s.lists src) }, some dst)
    else if (s.lists src).count = 0 then (s, some dst)
    else
      let nodes := write_next s.nodes (s.lists src).gw_head (s.lists dst).gw_tail
      let nodes := write_previous nodes (s.lists dst).gw_tail (s.lists src).gw_head
      let lists := update s.lists dst { s.lists dst with gw_tail := (s.lists src).gw_tail }
      let lists := update lists dst
        { lists dst with count := (lists dst).count + (lists src).count }
      ({ nodes, lists := update lists src ⟨gw_lst_init, (lists src).compare⟩ }, some dst)
  | _, _ => (s, none)

/-- What an operation on the list `i` leaves. -/
def Lists.link (s : Lists ι) (i : ι) (k : Linking) : Lists ι :=
  ⟨k.nodes, update s.lists i ⟨k.lst, (s.lists i).compare⟩⟩

inductive Op (ι : Type*) where
  | insert (i : ι) (pPrevious : Option Nat) (pNode : Nat)
  | add (i : ι) (pNode : Nat)
  | delete (i : ι) (pNode : Nat)
  | remove (code : Nat → Nat → UInt32 → Int32) (i : ι) (key : UInt32)
  | get (i : ι)
  | concat (pDst pSrc : Option ι)

inductive Answer (ι : Type*) where
  | done
  | node (pNode : Option Nat)
  | list (pLst : Option ι)
  | hangs

def Lists.op (s : Lists ι) : Op ι → Lists ι × Answer ι
  | .insert i pPrevious pNode =>
    (s.link i (gw_lst_insert s.nodes (s.lists i).togw_list pPrevious pNode), .done)
  | .add i pNode => (s.link i (gw_lst_add s.nodes (s.lists i).togw_list pNode), .done)
  | .delete i pNode => (s.link i (gw_lst_delete s.nodes (s.lists i).togw_list pNode), .done)
  | .remove code i key =>
    match gw_lst_remove code s.nodes (s.lists i) key with
    | none => (s, .hangs)
    | some (k, pNode) => (s.link i k, .node pNode)
  | .get i =>
    let (k, pNode) := gw_lst_get s.nodes (s.lists i).togw_list
    (s.link i k, .node pNode)
  | .concat pDst pSrc =>
    let (s, pLst) := gw_lst_concat s pDst pSrc
    (s, .list pLst)

/-! ## The sequences -/

def insertAfter (p x : Nat) : List Nat → List Nat
  | [] => []
  | a :: l => if a = p then a :: x :: l else a :: insertAfter p x l

/-- What the descriptions of the operations say, when each list is a sequence of nodes. -/
def meaning (compare : ι → Option Nat) (m : ι → List Nat) : Op ι → (ι → List Nat) × Answer ι
  | .insert i none pNode => (update m i (pNode :: m i), .done)
  | .insert i (some p) pNode => (update m i (insertAfter p pNode (m i)), .done)
  | .add i pNode => (update m i (m i ++ [pNode]), .done)
  | .delete i pNode => (update m i ((m i).erase pNode), .done)
  | .remove code i key =>
    match compare i with
    | none => (m, .node none)
    | some f =>
      (update m i ((m i).eraseP fun a => code f a key = 0),
        .node ((m i).find? fun a => code f a key = 0))
  | .get i => (update m i (m i).tail, .node (m i).head?)
  | .concat (some dst) (some src) =>
    if compare dst = compare src then
      (update (update m src []) dst (m dst ++ m src), .list (some dst))
    else (m, .list none)
  | .concat _ _ => (m, .list none)

/-- A node of its own address that is on no list. -/
structure Fresh (m : ι → List Nat) (x : Nat) : Prop where
  apart : ∀ i, x ∉ m i
  pointer : 0 < x ∧ x < 2 ^ 32

/-- A new node comes after a member or at the start, and a member is deleted. -/
def Allowed (m : ι → List Nat) : Op ι → Prop
  | .insert i pPrevious pNode => (∀ p ∈ pPrevious, p ∈ m i) ∧ Fresh m pNode
  | .add _ pNode => Fresh m pNode
  | .delete i pNode => pNode ∈ m i
  | _ => True

/-- The lists hold the nodes of the sequences, each node is on one list, and the
count is the number of nodes. -/
structure WellFormed (compare : ι → Option Nat) (s : Lists ι) (m : ι → List Nat) : Prop where
  represents : ∀ i, Represents s.nodes (s.lists i).togw_list (m i)
  count : ∀ i, (s.lists i).count.toNat = (m i).length
  apart : ∀ i j a, a ∈ m i → a ∈ m j → i = j
  compare : ∀ i, (s.lists i).compare = compare i

/-- The lists, and the sequences that they are to stand for. -/
structure Both (ι : Type*) where
  lists : Lists ι
  seqs : ι → List Nat

def Both.init (nodes : Nodes) (compare : ι → Option Nat) : Both ι :=
  ⟨⟨nodes, fun i => ⟨gw_lst_init, compare i⟩⟩, fun _ => []⟩

def Both.op (compare : ι → Option Nat) (b : Both ι) (o : Op ι) : Both ι :=
  ⟨(b.lists.op o).1, (meaning compare b.seqs o).1⟩

/-- The operation does what its description says, and leaves the lists well formed. -/
def Keeps (compare : ι → Option Nat) (b : Both ι) (o : Op ι) : Prop :=
  WellFormed compare (b.op compare o).lists (b.op compare o).seqs ∧
    (b.lists.op o).2 = (meaning compare b.seqs o).2

/-- What is put behind `dst` is put behind a node, or is empty. -/
def Joins (s : Lists ι) : Op ι → Prop
  | .concat (some dst) (some src) => (s.lists dst).compare = (s.lists src).compare →
      (s.lists dst).count ≠ 0 ∧ dst ≠ src ∨ (s.lists src).count = 0
  | _ => True

/-- The invariant: well formed, of nodes that have addresses. -/
structure Good (compare : ι → Option Nat) (b : Both ι) : Prop where
  formed : WellFormed compare b.lists b.seqs
  pointers : ∀ i, ∀ a ∈ b.seqs i, 0 < a ∧ a < 2 ^ 32

end

/-! ## Counting -/

theorem length_lt {l : List Nat} {n : Nat} (hn : 0 < n) (hd : l.Nodup)
    (h : ∀ a ∈ l, 0 < a ∧ a < n) : l.length < n := by
  have hsub : l ⊆ List.range' 1 (n - 1) := by
    intro a ha
    have hbounds := h a ha
    rw [List.mem_range'_1]
    omega
  have hle := (List.subperm_of_subset hd hsub).length_le
  rw [List.length_range'] at hle
  omega

theorem count_eq {nodes : Nodes} {lst : gw_list} {l : List Nat} (h : Represents nodes lst l)
    (hl : ∀ a ∈ l, 0 < a ∧ a < 2 ^ 32) : lst.count.toNat = l.length := by
  rw [h.count]
  exact UInt32.toNat_ofNat_of_lt' (length_lt (by decide) h.nodup hl)

section
variable {ι : Type*} {compare : ι → Option Nat} {s : Lists ι} {m : ι → List Nat}

theorem good_of {nodes : Nodes} {lists : ι → compare_list}
    (hrep : ∀ i, Represents nodes (lists i).togw_list (m i))
    (hapart : ∀ i j a, a ∈ m i → a ∈ m j → i = j)
    (hcompare : ∀ i, (lists i).compare = compare i)
    (hptr : ∀ i, ∀ a ∈ m i, 0 < a ∧ a < 2 ^ 32) : Good compare ⟨⟨nodes, lists⟩, m⟩ :=
  ⟨⟨hrep, fun i => count_eq (hrep i) (hptr i), hapart, hcompare⟩, hptr⟩

theorem good_init (nodes : Nodes) (compare : ι → Option Nat) : Good compare (Both.init nodes compare) :=
  good_of (fun _ => init_represents nodes) nofun (fun _ => rfl) nofun

/-! ## Operations on one list -/

variable [DecidableEq ι]

theorem insertAfter_eq {l r : List Nat} {p x : Nat} (hp : p ∉ l) :
    insertAfter p x (l ++ p :: r) = l ++ p :: x :: r := by
  induction l with
  | nil => simp [insertAfter]
  | cons a l ih =>
    rw [List.mem_cons, not_or] at hp
    simp [insertAfter, Ne.symm hp.1, ih hp.2]

theorem link_same (i : ι) : s.link i ⟨s.nodes, (s.lists i).togw_list, []⟩ = s := by
  rw [Lists.link, update_eq_self]

/-- An operation on one list, which reaches no node of another one. -/
theorem link_good (h : Good compare ⟨s, m⟩) {i : ι} {k : Linking} {l l' : List Nat}
    (hrep : Represents k.nodes k.lst l') (hwithin : Within s.nodes k l)
    (hl : ∀ a ∈ l, a ∉ m i → Fresh m a) (hl' : ∀ a ∈ l', a ∈ l) :
    Good compare ⟨s.link i k, update m i l'⟩ := by
  have helse : ∀ j, j ≠ i → ∀ a ∈ m j, a ∉ l := by
    intro j hj a ha hal
    by_cases hai : a ∈ m i
    · exact hj (h.formed.apart j i a ha hai)
    · exact (hl a hal hai).apart j ha
  apply good_of
  · intro j
    by_cases hj : j = i
    · subst hj
      rw [update_self, update_self]
      exact hrep
    · rw [update_of_ne hj, update_of_ne hj]
      exact represents_congr (h.formed.represents j) fun a ha => hwithin.others a (helse j hj a ha)
  · intro j j' a ha ha'
    by_cases hj : j = i <;> by_cases hj' : j' = i
    · rw [hj, hj']
    · rw [hj, update_self] at ha
      rw [update_of_ne hj'] at ha'
      exact absurd (hl' a ha) (helse j' hj' a ha')
    · rw [hj', update_self] at ha'
      rw [update_of_ne hj] at ha
      exact absurd (hl' a ha') (helse j hj a ha)
    · rw [update_of_ne hj] at ha
      rw [update_of_ne hj'] at ha'
      exact h.formed.apart j j' a ha ha'
  · intro j
    by_cases hj : j = i
    · subst hj
      rw [update_self]
      exact h.formed.compare j
    · rw [update_of_ne hj]
      exact h.formed.compare j
  · intro j a ha
    by_cases hj : j = i
    · rw [hj, update_self] at ha
      by_cases hai : a ∈ m i
      · exact h.pointers i a hai
      · exact (hl a (hl' a ha) hai).pointer
    · rw [update_of_ne hj] at ha
      exact h.pointers j a ha

/-- A new node between `l` and `r`. -/
theorem insert_good (h : Good compare ⟨s, m⟩) {i : ι} {l r : List Nat} (hi : m i = l ++ r) {x : Nat}
    (hx : Fresh m x) :
    Good compare ⟨s.link i (gw_lst_insert s.nodes (s.lists i).togw_list l.getLast? x),
      update m i (l ++ x :: r)⟩ := by
  have hrep : Represents s.nodes (s.lists i).togw_list (l ++ r) := hi ▸ h.formed.represents i
  have hnot : x ∉ l ++ r := hi ▸ hx.apart i
  refine link_good h (insert_represents hrep hnot) (insert_within hrep) ?_ (fun _ ha => ha)
  intro a ha hai
  rw [hi] at hai
  obtain rfl : a = x := by
    simp only [List.mem_append, List.mem_cons] at ha hai
    tauto
  exact hx

/-- A member goes. -/
theorem delete_good (h : Good compare ⟨s, m⟩) {i : ι} {l r : List Nat} {x : Nat}
    (hi : m i = l ++ x :: r) :
    Good compare ⟨s.link i (gw_lst_delete s.nodes (s.lists i).togw_list x), update m i (l ++ r)⟩ := by
  have hrep : Represents s.nodes (s.lists i).togw_list (l ++ x :: r) := hi ▸ h.formed.represents i
  refine link_good h (delete_represents hrep) (delete_within hrep) ?_ ?_
  · intro a ha hai
    exact absurd (hi ▸ ha) hai
  · intro a ha
    simp only [List.mem_append, List.mem_cons] at ha ⊢
    tauto

omit [DecidableEq ι] in
/-- The loop of `gw_lst_remove` stops at the first node whose key is the one. -/
theorem remove_eq (h : Good compare ⟨s, m⟩) (code : Nat → Nat → UInt32 → Int32) (i : ι) {f : Nat}
    (hf : compare i = some f) (key : UInt32) :
    gw_lst_remove code s.nodes (s.lists i) key =
      some (match (m i).find? fun a => code f a key = 0 with
        | none => (⟨s.nodes, (s.lists i).togw_list, []⟩, none)
        | some a => (gw_lst_delete s.nodes (s.lists i).togw_list a, some a)) := by
  have hrep : Represents s.nodes (s.lists i).togw_list ([] ++ m i) := h.formed.represents i
  have hle : (m i).length ≤ allNodes :=
    Nat.le_of_lt (length_lt (by decide) (h.formed.represents i).nodup (h.pointers i))
  have hcompare : (s.lists i).compare = some f := (h.formed.compare i).trans hf
  rw [gw_lst_remove, hcompare]
  dsimp only
  rw [gw_lst_first, head_eq (h.formed.represents i), scan_eq _ hrep hle]
  rfl

/-- The state is good after the operation, and the answer is the one that it is to give. -/
def Does (compare : ι → Option Nat) (b : Both ι) (o : Op ι) : Prop :=
  Good compare (b.op compare o) ∧ (b.lists.op o).2 = (meaning compare b.seqs o).2

theorem insert_does (h : Good compare ⟨s, m⟩) {i : ι} {pPrevious : Option Nat} {x : Nat}
    (hp : ∀ p ∈ pPrevious, p ∈ m i) (hx : Fresh m x) :
    Does compare ⟨s, m⟩ (.insert i pPrevious x) := by
  cases pPrevious with
  | none => exact ⟨insert_good (l := []) h rfl hx, rfl⟩
  | some p =>
    obtain ⟨l, r, hi⟩ := List.append_of_mem (hp p rfl)
    have hd : (l ++ p :: r).Nodup := hi ▸ (h.formed.represents i).nodup
    have hpl : p ∉ l := fun hl => (List.nodup_append.mp hd).2.2 p hl p (by simp) rfl
    have hsplit : m i = (l ++ [p]) ++ r := by simpa using hi
    have hinsert := insert_good h hsplit hx
    refine ⟨?_, rfl⟩
    change Good compare ⟨s.link i _, update m i (insertAfter p x (m i))⟩
    rw [hi, insertAfter_eq hpl]
    simpa using hinsert

theorem add_does (h : Good compare ⟨s, m⟩) {i : ι} {x : Nat} (hx : Fresh m x) :
    Does compare ⟨s, m⟩ (.add i x) := by
  refine ⟨?_, rfl⟩
  change Good compare ⟨s.link i (gw_lst_insert s.nodes _ (s.lists i).gw_tail x), _⟩
  rw [tail_eq (h.formed.represents i)]
  exact insert_good h (List.append_nil (m i)).symm hx

theorem delete_does (h : Good compare ⟨s, m⟩) {i : ι} {x : Nat} (hx : x ∈ m i) :
    Does compare ⟨s, m⟩ (.delete i x) := by
  obtain ⟨l, r, hi⟩ := List.append_of_mem hx
  have hd : (l ++ x :: r).Nodup := hi ▸ (h.formed.represents i).nodup
  have hxl : x ∉ l := fun hl => (List.nodup_append.mp hd).2.2 x hl x (by simp) rfl
  refine ⟨?_, rfl⟩
  change Good compare ⟨_, update m i ((m i).erase x)⟩
  rw [hi, List.erase_append_right _ hxl, List.erase_cons_head]
  exact delete_good h hi

theorem remove_does (h : Good compare ⟨s, m⟩) (code : Nat → Nat → UInt32 → Int32) (i : ι)
    (key : UInt32) : Does compare ⟨s, m⟩ (.remove code i key) := by
  rw [Does, Both.op, Lists.op, meaning]
  dsimp only
  cases hf : compare i with
  | none =>
    rw [gw_lst_remove, (h.formed.compare i).trans hf]
    dsimp only
    rw [link_same]
    exact ⟨h, rfl⟩
  | some f =>
    rw [remove_eq h code i hf key]
    cases hfind : (m i).find? fun a => code f a key = 0 with
    | none =>
      have hnone := List.find?_eq_none.mp hfind
      dsimp only
      rw [link_same, List.eraseP_of_forall_not hnone, update_eq_self, hfind]
      exact ⟨h, rfl⟩
    | some a =>
      obtain ⟨ha, l, r, hi, hl⟩ := List.find?_eq_some_iff_append.mp hfind
      have herase : (m i).eraseP (fun a => code f a key = 0) = l ++ r := by
        rw [hi, List.eraseP_append_right _ (by simpa using hl),
          List.eraseP_cons_of_pos (p := fun a => code f a key = 0) ha]
      dsimp only
      rw [herase, hfind]
      exact ⟨delete_good h hi, rfl⟩

theorem get_does (h : Good compare ⟨s, m⟩) (i : ι) : Does compare ⟨s, m⟩ (.get i) := by
  have hrep : Represents s.nodes (s.lists i).togw_list (m i) := h.formed.represents i
  rw [Does, Both.op, Lists.op, meaning]
  cases hi : m i with
  | nil =>
    rw [hi] at hrep
    rw [get_nil hrep]
    dsimp only
    have htail : (m i).tail = m i := by rw [hi, List.tail_nil]
    rw [link_same, htail, update_eq_self, hi]
    exact ⟨h, rfl⟩
  | cons a r =>
    rw [hi] at hrep
    rw [get_cons hrep]
    dsimp only
    rw [hi]
    exact ⟨delete_good (l := []) h hi, rfl⟩

end

/-! ## Concatenation -/

section
variable {nodes : Nodes} {lst lst' : gw_list} {l r : List Nat}

/-- The header of the first list, with the last node of the other one. -/
def gw_list.take_over (lst lst' : gw_list) : gw_list :=
  { lst with gw_tail := lst'.gw_tail, count := lst.count + lst'.count }

theorem take_over_next : nextOf nodes (lst.take_over lst') = nextOf nodes lst := by
  funext y
  cases y <;> rfl

theorem take_over_prev :
    prevOf nodes (lst.take_over lst') = update (prevOf nodes lst) none lst'.gw_tail := by
  funext y
  cases y with
  | none => rw [update_self, prevOf, gw_list.take_over]
  | some a =>
    rw [update_of_ne (by simp)]
    rfl

/-- Two lists that share no node, with the last node of one linked to the first of the other. -/
theorem append_represents (h : Represents nodes lst l) (h' : Represents nodes lst' r)
    (hd : (l ++ r).Nodup) {a b : Nat} (ha : lst.gw_tail = some a) (hb : lst'.gw_head = some b) :
    Represents (write_previous (write_next nodes (some b) (some a)) (some a) (some b))
      (lst.take_over lst') (l ++ r) := by
  refine ⟨?_, hd, ?_⟩
  · have hring := h.ring.append h'.ring hd fun _ _ => ⟨rfl, rfl⟩
    rw [← tail_eq h, ← tail_eq h', ← head_eq h', ha, hb] at hring
    let k := ((Linking.mk nodes (lst.take_over lst') []).set_next (some a) (some b)).set_previous
      (some b) (some a)
    change Ring (nextOf k.nodes k.lst) (prevOf k.nodes k.lst) (l ++ r)
    rw [set_previous_next, set_next_next, set_previous_prev, set_next_prev, take_over_next,
      take_over_prev]
    exact hring
  · rw [gw_list.take_over, h.count, h'.count, List.length_append, UInt32.ofNat_add]

theorem write_other {a b c : Nat} (ha : c ≠ a) (hb : c ≠ b) :
    write_previous (write_next nodes (some b) (some a)) (some a) (some b) c = nodes c :=
  (update_of_ne hb _ _).trans (update_of_ne ha _ _)

end

section
variable {ι : Type*} {compare : ι → Option Nat} {s : Lists ι} {m : ι → List Nat} {dst src : ι}

theorem count_zero (h : Good compare ⟨s, m⟩) (i : ι) : (s.lists i).count = 0 ↔ m i = [] := by
  have hcount : (s.lists i).count.toNat = (m i).length := h.formed.count i
  rw [← List.length_eq_zero_iff, ← hcount, ← UInt32.toNat_inj]
  rfl

variable [DecidableEq ι]

theorem does_of {s' : Lists ι} {m' : ι → List Nat} {pDst pSrc pLst : Option ι}
    (hcode : gw_lst_concat s pDst pSrc = (s', pLst))
    (hmeaning : meaning compare m (.concat pDst pSrc) = (m', .list pLst))
    (hgood : Good compare ⟨s', m'⟩) : Does compare ⟨s, m⟩ (.concat pDst pSrc) := by
  rw [Does, Both.op, Lists.op, hcode, hmeaning]
  exact ⟨hgood, rfl⟩

/-- With an empty `src`, the sequences are what they were. -/
theorem concat_empty (h : Good compare ⟨s, m⟩) (hsrc : m src = [])
    (hcompare : (s.lists dst).compare = (s.lists src).compare) :
    Does compare ⟨s, m⟩ (.concat (some dst) (some src)) := by
  have hseqs : update (update m src []) dst (m dst ++ m src) = m := by
    rw [← hsrc, update_eq_self, hsrc, List.append_nil, update_eq_self]
  have hsame : compare dst = compare src :=
    (h.formed.compare dst).symm.trans (hcompare.trans (h.formed.compare src))
  have hmeaning : meaning compare m (.concat (some dst) (some src)) = (m, .list (some dst)) := by
    rw [meaning, if_pos hsame, hseqs]
  by_cases hdst : (s.lists dst).count = 0
  · have hcode : gw_lst_concat s (some dst) (some src) =
        ({ s with lists := update s.lists dst (s.lists src) }, some dst) := by
      rw [gw_lst_concat, if_neg (not_not_intro hcompare), if_pos hdst]
    have hempty := (count_zero h dst).mp hdst
    refine does_of hcode hmeaning (good_of ?_ h.formed.apart ?_ h.pointers)
    · intro i
      by_cases hi : i = dst
      · subst hi
        rw [update_self, hempty, ← hsrc]
        exact h.formed.represents src
      · rw [update_of_ne hi]
        exact h.formed.represents i
    · intro i
      by_cases hi : i = dst
      · subst hi
        rw [update_self, ← hcompare]
        exact h.formed.compare i
      · rw [update_of_ne hi]
        exact h.formed.compare i
  · have hcode : gw_lst_concat s (some dst) (some src) = (s, some dst) := by
      rw [gw_lst_concat, if_neg (not_not_intro hcompare), if_neg hdst,
        if_pos ((count_zero h src).mpr hsrc)]
    exact does_of hcode hmeaning h

/-- The code's last branch, for two lists. -/
theorem concat_eq (hcompare : (s.lists dst).compare = (s.lists src).compare)
    (hdst : (s.lists dst).count ≠ 0) (hsrc : (s.lists src).count ≠ 0) (hne : dst ≠ src) :
    gw_lst_concat s (some dst) (some src) =
      (⟨write_previous (write_next s.nodes (s.lists src).gw_head (s.lists dst).gw_tail)
          (s.lists dst).gw_tail (s.lists src).gw_head,
        update (update s.lists dst
          ⟨(s.lists dst).togw_list.take_over (s.lists src).togw_list, (s.lists dst).compare⟩)
          src ⟨gw_lst_init, (s.lists src).compare⟩⟩, some dst) := by
  rw [gw_lst_concat, if_neg (not_not_intro hcompare), if_neg hdst, if_neg hsrc]
  dsimp only
  rw [update_idem, update_self, update_of_ne hne.symm, update_of_ne hne.symm]
  rfl

/-- Two lists with nodes become one. -/
theorem concat_two (h : Good compare ⟨s, m⟩) (hdst : m dst ≠ []) (hsrc : m src ≠ [])
    (hcompare : (s.lists dst).compare = (s.lists src).compare) (hne : dst ≠ src) :
    Does compare ⟨s, m⟩ (.concat (some dst) (some src)) := by
  have hd := h.formed.represents dst
  have hs := h.formed.represents src
  have hsame : compare dst = compare src :=
    (h.formed.compare dst).symm.trans (hcompare.trans (h.formed.compare src))
  have hmeaning : meaning compare m (.concat (some dst) (some src)) =
      (update (update m src []) dst (m dst ++ m src), .list (some dst)) := by
    rw [meaning, if_pos hsame]
  have hnodup : (m dst ++ m src).Nodup := by
    refine List.nodup_append.mpr ⟨hd.nodup, hs.nodup, ?_⟩
    intro a ha b hb he
    exact hne (h.formed.apart dst src a ha (he ▸ hb))
  obtain ⟨a, ha⟩ := Option.ne_none_iff_exists'.mp (mt List.getLast?_eq_none_iff.mp hdst)
  obtain ⟨b, hb⟩ := Option.ne_none_iff_exists'.mp (mt List.head?_eq_none_iff.mp hsrc)
  have htail : (s.lists dst).gw_tail = some a := (tail_eq hd).trans ha
  have hhead : (s.lists src).gw_head = some b := (head_eq hs).trans hb
  have hother : ∀ i, i ≠ dst → i ≠ src → ∀ c ∈ m i, c ≠ a ∧ c ≠ b := by
    refine fun i hid his c hc => ⟨?_, ?_⟩
    · rintro rfl
      exact hid (h.formed.apart i dst c hc (List.mem_of_getLast? ha))
    · rintro rfl
      exact his (h.formed.apart i src c hc (List.mem_of_head? hb))
  have hcode := concat_eq hcompare (mt (count_zero h dst).mp hdst) (mt (count_zero h src).mp hsrc)
    hne
  rw [htail, hhead] at hcode
  refine does_of hcode hmeaning (good_of ?_ ?_ ?_ ?_)
  · intro i
    by_cases his : i = src
    · subst his
      rw [update_self, update_of_ne hne.symm, update_self]
      exact init_represents _
    · rw [update_of_ne his]
      by_cases hid : i = dst
      · subst hid
        rw [update_self, update_self]
        exact append_represents hd hs hnodup htail hhead
      · rw [update_of_ne hid, update_of_ne hid, update_of_ne his]
        refine represents_congr (h.formed.represents i) fun c hc => ?_
        obtain ⟨hca, hcb⟩ := hother i hid his c hc
        exact write_other hca hcb
  · -- a node of `dst` came from `dst` or from `src`, and one of another list was there
    have hfrom : ∀ i c, c ∈ update (update m src []) dst (m dst ++ m src) i →
        i = dst ∧ (c ∈ m dst ∨ c ∈ m src) ∨ i ≠ dst ∧ i ≠ src ∧ c ∈ m i := by
      intro i c hc
      by_cases hid : i = dst
      · subst hid
        rw [update_self] at hc
        exact Or.inl ⟨rfl, List.mem_append.mp hc⟩
      · rw [update_of_ne hid] at hc
        by_cases his : i = src
        · subst his
          rw [update_self] at hc
          cases hc
        · rw [update_of_ne his] at hc
          exact Or.inr ⟨hid, his, hc⟩
    intro i j c hi hj
    rcases hfrom i c hi with ⟨rfl, hci⟩ | ⟨hid, his, hci⟩ <;>
      rcases hfrom j c hj with ⟨rfl, hcj⟩ | ⟨hjd, hjs, hcj⟩
    · rfl
    · rcases hci with hci | hci
      · exact h.formed.apart _ _ c hci hcj
      · exact absurd (h.formed.apart _ _ c hcj hci) hjs
    · rcases hcj with hcj | hcj
      · exact h.formed.apart _ _ c hci hcj
      · exact absurd (h.formed.apart _ _ c hci hcj) his
    · exact h.formed.apart _ _ c hci hcj
  · intro i
    by_cases his : i = src
    · subst his
      rw [update_self]
      exact h.formed.compare i
    · rw [update_of_ne his]
      by_cases hid : i = dst
      · subst hid
        rw [update_self]
        exact h.formed.compare i
      · rw [update_of_ne hid]
        exact h.formed.compare i
  · intro i c hc
    by_cases hid : i = dst
    · subst hid
      rw [update_self] at hc
      rcases List.mem_append.mp hc with hc | hc
      · exact h.pointers i c hc
      · exact h.pointers src c hc
    · rw [update_of_ne hid] at hc
      by_cases his : i = src
      · subst his
        rw [update_self] at hc
        cases hc
      · rw [update_of_ne his] at hc
        exact h.pointers i c hc

/-! ## Steps and runs -/

variable {o : Op ι}

theorem joins_does (h : Good compare ⟨s, m⟩) (ha : Allowed m o) (hj : Joins s o) :
    Does compare ⟨s, m⟩ o := by
  cases o with
  | insert i pPrevious x => exact insert_does h ha.1 ha.2
  | add i x => exact add_does h ha
  | delete i x => exact delete_does h ha
  | remove code i key => exact remove_does h code i key
  | get i => exact get_does h i
  | concat pDst pSrc =>
    cases pDst with
    | none => exact ⟨h, rfl⟩
    | some dst =>
      cases pSrc with
      | none => exact ⟨h, rfl⟩
      | some src =>
        by_cases hcompare : (s.lists dst).compare = (s.lists src).compare
        · by_cases hsrc : m src = []
          · exact concat_empty h hsrc hcompare
          · obtain ⟨hdst, hne⟩ := (hj hcompare).resolve_right (mt (count_zero h src).mp hsrc)
            exact concat_two h (mt (count_zero h dst).mpr hdst) hsrc hcompare hne
        · have hdiff : compare dst ≠ compare src := by
            rw [← h.formed.compare dst, ← h.formed.compare src]
            exact hcompare
          have hcode : gw_lst_concat s (some dst) (some src) = (s, none) := by
            rw [gw_lst_concat, if_pos hcompare]
          exact does_of hcode (if_neg hdiff) h

/-- A `concat` with a nodeless `dst` leaves `src` its nodes; one of a list with
itself would have each node twice. -/
theorem concat_joins (h : Good compare ⟨s, m⟩)
    (hk : Keeps compare ⟨s, m⟩ (.concat (some dst) (some src))) :
    Joins s (.concat (some dst) (some src)) := by
  intro hcompare
  have hsame : compare dst = compare src :=
    (h.formed.compare dst).symm.trans (hcompare.trans (h.formed.compare src))
  have hformed := hk.1
  rw [Both.op] at hformed
  dsimp only at hformed
  rw [meaning, if_pos hsame] at hformed
  dsimp only at hformed
  by_cases hsrc : (s.lists src).count = 0
  · exact Or.inr hsrc
  · refine Or.inl ⟨?_, ?_⟩
    · intro hdst
      have hne : src ≠ dst := by
        rintro rfl
        exact hsrc hdst
      have hcode : gw_lst_concat s (some dst) (some src) =
          ({ s with lists := update s.lists dst (s.lists src) }, some dst) := by
        rw [gw_lst_concat, if_neg (not_not_intro hcompare), if_pos hdst]
      have hcount := hformed.count src
      rw [Lists.op, hcode] at hcount
      dsimp only at hcount
      rw [update_of_ne hne, update_of_ne hne, update_self] at hcount
      exact hsrc (UInt32.toNat_inj.mp hcount)
    · rintro rfl
      have hnodup := (hformed.represents dst).nodup
      rw [update_self] at hnodup
      have hempty : m dst = [] := by
        rw [List.eq_nil_iff_forall_not_mem]
        exact fun a ha => (List.nodup_append.mp hnodup).2.2 a ha a ha rfl
      exact hsrc ((count_zero h dst).mpr hempty)

theorem keeps_iff (h : Good compare ⟨s, m⟩) (ha : Allowed m o) :
    Keeps compare ⟨s, m⟩ o ↔ Joins s o := by
  refine ⟨fun hk => ?_, fun hj => ?_⟩
  · cases o with
    | concat pDst pSrc =>
      cases pDst with
      | none => trivial
      | some dst =>
        cases pSrc with
        | none => trivial
        | some src => exact concat_joins h hk
    | _ => trivial
  · have hdoes := joins_does h ha hj
    exact ⟨hdoes.1.formed, hdoes.2⟩

/-- The lists do what the operations say, along a run of allowed operations
exactly when each `gw_lst_concat` has nodes in `dst`, or none in `src`. -/
theorem the_lists_stay_formed_while_concats_join (nodes : Nodes) (compare : ι → Option Nat)
    {ops : List (Op ι)}
    (hops : Along (Both.op compare) (fun b o => Allowed b.seqs o) (Both.init nodes compare) ops) :
    Along (Both.op compare) (Keeps compare) (Both.init nodes compare) ops ↔
      Along (Both.op compare) (fun b o => Joins b.lists o) (Both.init nodes compare) ops := by
  apply along_iff_of (I := Good compare) (A := fun b o => Allowed b.seqs o)
  · exact fun b o h ha hj => (joins_does h ha hj).1
  · exact fun b o h ha => keeps_iff h ha
  · exact good_init nodes compare
  · exact hops

end

/-- Two lists without nodes or a compare function. -/
def twoLists : Both Bool := Both.init (fun _ => ⟨none, none⟩) fun _ => none

/-- One list gets a node, and is put behind the empty one. -/
def joinEmpty : List (Op Bool) := [.add true 4096, .concat (some false) (some true)]

/-- Both lists get a node, and one is put behind the other. -/
def joinTwo : List (Op Bool) :=
  [.add true 4096, .add false 8192, .concat (some false) (some true), .get false, .get true]

theorem first_allowed : Allowed twoLists.seqs (.add true 4096) := ⟨nofun, by decide⟩

theorem joinTwo_allowed :
    Along (Both.op fun _ => none) (fun b o => Allowed b.seqs o) twoLists joinTwo :=
  ⟨first_allowed, ⟨by decide, by decide⟩, trivial, trivial, trivial, trivial⟩

theorem two_lists_with_nodes_are_joined :
    Along (Both.op fun _ => none) (Keeps fun _ => none) twoLists joinTwo := by
  refine (the_lists_stay_formed_while_concats_join _ _ joinTwo_allowed).mpr ?_
  exact ⟨trivial, trivial, fun _ => Or.inl (by decide), trivial, trivial, trivial⟩

theorem a_list_put_behind_an_empty_one_keeps_its_nodes :
    Along (Both.op fun _ => none) (fun b o => Allowed b.seqs o) twoLists joinEmpty ∧
      ¬ Along (Both.op fun _ => none) (Keeps fun _ => none) twoLists joinEmpty := by
  refine ⟨⟨first_allowed, trivial, trivial⟩, ?_⟩
  rintro ⟨-, hk, -⟩
  have hgood := (joins_does (good_init (fun _ => ⟨none, none⟩) fun _ => none) first_allowed trivial).1
  have hjoins := (keeps_iff (o := .concat (some false) (some true)) hgood trivial).mp hk rfl
  exact absurd hjoins (by decide)

end gwdonu.util_list
