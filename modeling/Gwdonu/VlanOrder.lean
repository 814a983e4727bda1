-- The edits of two ports can be made in either order, unless the index register of the one
-- holds the tag of the other.
import Gwdonu.VlanLists

namespace gwdonu.vlan_order

open runs writes rcp_registers vlans vlan_edits vlan_lists

/-! ## The fields of a port -/

inductive PortField where
  | index
  | insert
  | tag
  | member (e : Nat)
  deriving DecidableEq

def PortField.place (q : Nat) : PortField → Place
  | index => indexAt q
  | insert => insertAt q
  | tag => tagAt q
  | member e => memberAt e q

/-- Of an entry of the table. -/
def PortField.InTable (f : PortField) : Prop := ∀ e, f = .member e → e < 32

/-- The write is to a field of the port. -/
def OfPort (q : Nat) (x : Write 16) : Prop := ∃ f : PortField, f.InTable ∧ x.place = f.place q

section
variable {q q' n e : Nat} {f f' : PortField} {x y : Write 16} {r t : Regs 16} {num vid : BitVec 16}

theorem PortField.apart (hf : f.InTable) (hf' : f'.InTable) (hq : q < 32) (hne : f ≠ f') :
    (f.place q).Apart (f'.place q) := by
  cases f with
  | index =>
    cases f' with
    | index => exact absurd rfl hne
    | insert => exact index_apart_insert hq
    | tag => exact index_apart_tag hq le_rfl hq
    | member e => exact (index_uncached hq e (hf' e rfl)).1 q hq
  | insert =>
    cases f' with
    | index => exact (index_apart_insert hq).symm
    | insert => exact absurd rfl hne
    | tag => exact (tag_apart_insert hq).symm
    | member e => exact (insert_uncached e (hf' e rfl)).1 q hq
  | tag =>
    cases f' with
    | index => exact (index_apart_tag hq le_rfl hq).symm
    | insert => exact tag_apart_insert hq
    | tag => exact absurd rfl hne
    | member e => exact (tag_uncached hq e (hf' e rfl)).1 q hq
  | member e =>
    cases f' with
    | index => exact ((index_uncached hq e (hf e rfl)).1 q hq).symm
    | insert => exact ((insert_uncached e (hf e rfl)).1 q hq).symm
    | tag => exact ((tag_uncached hq e (hf e rfl)).1 q hq).symm
    | member e' =>
      refine member_apart (hf e rfl) hq (hf' e' rfl) hq (.inl ?_)
      rintro rfl
      exact hne rfl

theorem PortField.apart_other (hf : f.InTable) (hf' : f'.InTable) (hq : q < 32) (hq' : q' < 32) (hne : q ≠ q')
    (h : f = .index → f' = .tag → (indexAt q).Apart (tagAt q'))
    (h' : f = .tag → f' = .index → (indexAt q').Apart (tagAt q)) : (f.place q).Apart (f'.place q') := by
  cases f with
  | index =>
    cases f' with
    | index => exact index_apart hne
    | insert => exact index_apart_insert hq
    | tag => exact h rfl rfl
    | member e => exact (index_uncached hq e (hf' e rfl)).1 q' hq'
  | insert =>
    cases f' with
    | index => exact (index_apart_insert hq').symm
    | insert => exact insert_apart hne
    | tag => exact (tag_apart_insert hq').symm
    | member e => exact (insert_uncached e (hf' e rfl)).1 q' hq'
  | tag =>
    cases f' with
    | index => exact (h' rfl rfl).symm
    | insert => exact tag_apart_insert hq
    | tag => exact tag_apart hne
    | member e => exact (tag_uncached hq e (hf' e rfl)).1 q' hq'
  | member e =>
    cases f' with
    | index => exact ((index_uncached hq' e (hf e rfl)).1 q hq).symm
    | insert => exact ((insert_uncached e (hf e rfl)).1 q hq).symm
    | tag => exact ((tag_uncached hq' e (hf e rfl)).1 q hq).symm
    | member e' => exact member_apart (hf e rfl) hq (hf' e' rfl) hq' (.inr hne)

theorem OfPort.apart (hx : OfPort q x) (hy : OfPort q' y) (hq : q < 32) (hq' : q' < 32) (hne : q ≠ q')
    (h : (indexAt q).Apart (tagAt q')) (h' : (indexAt q').Apart (tagAt q)) : x.place.Apart y.place := by
  obtain ⟨f, hf, hx⟩ := hx
  obtain ⟨f', hf', hy⟩ := hy
  rw [hx, hy]
  exact f.apart_other hf hf' hq hq' hne (fun _ _ => h) fun _ _ => h'

theorem inTable_of_ne (h : ∀ e, f ≠ .member e) : f.InTable := fun e hf => absurd hf (h e)

theorem inTable_member (he : e < 32) : (PortField.member e).InTable := fun _ h => PortField.member.inj h ▸ he

theorem ofPort_index (q : Nat) (d : BitVec 16) : OfPort q ⟨indexAt q, d⟩ := ⟨.index, inTable_of_ne (by simp), rfl⟩

theorem ofPort_insert (q : Nat) (d : BitVec 16) : OfPort q ⟨insertAt q, d⟩ := ⟨.insert, inTable_of_ne (by simp), rfl⟩

theorem ofPort_tag (q : Nat) (d : BitVec 16) : OfPort q ⟨tagAt q, d⟩ := ⟨.tag, inTable_of_ne (by simp), rfl⟩

theorem ofPort_member (he : e < 32) (q : Nat) (d : BitVec 16) : OfPort q ⟨memberAt e q, d⟩ :=
  ⟨.member e, inTable_member he, rfl⟩

theorem ofPort_leaveOthers : ∀ x ∈ leaveOthers n q, OfPort q x := by
  intro x hx
  obtain ⟨e, he, rfl⟩ := List.mem_map.mp hx
  exact ofPort_member (List.mem_range.mp (List.mem_filter.mp he).1) q 0

theorem ofPort_backPort {k : Nat} : ∀ x ∈ backPort num r k q, OfPort q x := by
  unfold backPort
  split_ifs <;> simp [ofPort_index, ofPort_insert, ofPort_tag, ofPort_member]

theorem ofPort_leave : ∀ x ∈ leave num vid r q, OfPort q x := by
  unfold leave
  split_ifs
  · simp [leaveUntagged, ofPort_index, ofPort_tag, ofPort_member]
  · unfold leaveTagged
    dsimp only
    intro x hx
    rcases List.mem_append.mp hx with hx | hx
    · split_ifs at hx
      · exact ofPort_backPort x hx
      · cases hx
    · split_ifs at hx
      · obtain rfl := List.mem_singleton.mp hx
        exact ofPort_index q num
      · cases hx

/-! ## What the edits read -/

/-- All that an edit of the port looks at. -/
structure SameView (q : Nat) (r t : Regs 16) : Prop where
  tag : tagOf t q = tagOf r q
  index : indexOf t q = indexOf r q
  members : ∀ e < 32, isMember t e q = isMember r e q
  vids : ∀ e < 32, vidOf t e = vidOf r e

theorem SameView.refl : SameView q r r := ⟨rfl, rfl, fun _ _ => rfl, fun _ _ => rfl⟩

theorem SameView.trans {u : Regs 16} (h : SameView q r t) (h' : SameView q t u) : SameView q r u :=
  ⟨h'.tag.trans h.tag, h'.index.trans h.index, fun e he => (h'.members e he).trans (h.members e he),
    fun e he => (h'.vids e he).trans (h.vids e he)⟩

theorem SameView.leave (h : SameView q r t) : leave num vid t q = leave num vid r q := by
  have hindex : indexOf r q < 32 := fields.toNat_get_lt _
  have hcount : tagCount t q = tagCount r q :=
    List.countP_congr fun e he => by rw [h.members e (List.mem_range.mp he)]
  unfold vlan_lists.leave leaveTagged backPort
  rw [h.tag, h.index, h.vids _ hindex, h.members 0 (by decide), hcount]

theorem OfPort.apart_vid (hx : OfPort q x) (hq : q < 32) (he : e < 32) : x.place.Apart (vidAt e) := by
  obtain ⟨f, hf, hx⟩ := hx
  rw [hx]
  cases f with
  | index => exact (index_uncached hq e he).2
  | insert => exact (insert_uncached e he).2
  | tag => exact (tag_uncached hq e he).2
  | member e' => exact member_apart_vid (hf e' rfl) hq he

variable {l l' : List (Write 16)}

theorem sameView_writes (htag : ∀ x ∈ l, x.place.Apart (tagAt q)) (hindex : ∀ x ∈ l, x.place.Apart (indexAt q))
    (hmembers : ∀ e < 32, ∀ x ∈ l, x.place.Apart (memberAt e q)) (hvids : ∀ e < 32, ∀ x ∈ l, x.place.Apart (vidAt e)) :
    SameView q r (run write r l) := by
  refine ⟨read_writes htag, ?_, fun e he => ?_, fun e he => read_writes (hvids e he)⟩
  · rw [indexOf, indexOf, read_writes hindex]
  · rw [isMember, isMember, read_writes (hmembers e he)]

/-- The writes of a port leave the members of the others. -/
theorem isMember_other (hl : ∀ x ∈ l, OfPort q x) (hn : n < 32) (hq : q < 32) (hq' : q' < 32) (hne : q ≠ q') :
    isMember (run write r l) n q' = isMember r n q' := by
  rw [isMember, isMember, read_writes fun x hx => ?_]
  obtain ⟨f, hf, hx⟩ := hl x hx
  rw [hx]
  exact f.apart_other hf (inTable_member hn) hq hq' hne (by simp) (by simp)

section
variable (hq : q < 32) (hq' : q' < 32) (hne : q ≠ q') (h : (indexAt q).Apart (tagAt q'))
  (h' : (indexAt q').Apart (tagAt q)) (hl : ∀ x ∈ l, OfPort q x)
include hq hq' hne h h' hl

theorem sameView_other : SameView q' r (run write r l) := by
  refine sameView_writes ?_ ?_ ?_ ?_
  · exact fun x hx => (hl x hx).apart (ofPort_tag q' 0) hq hq' hne h h'
  · exact fun x hx => (hl x hx).apart (ofPort_index q' 0) hq hq' hne h h'
  · exact fun e he x hx => (hl x hx).apart (ofPort_member he q' 0) hq hq' hne h h'
  · exact fun e he x hx => (hl x hx).apart_vid hq he

theorem ports_comm (hl' : ∀ x ∈ l', OfPort q' x) : run write (run write r l) l' = run write (run write r l') l :=
  writes_comm fun x hx y hy => (hl x hx).apart (hl' y hy) hq hq' hne h h'

end

/-! ## The order of the ports -/

theorem delete_eq : delete n num vid r q = run write r (leave num vid r q ++ [⟨memberAt n q, 0⟩]) := by
  rw [run_append]
  rfl

theorem ofPort_delete (hn : n < 32) : ∀ x ∈ leave num vid r q ++ [⟨memberAt n q, 0⟩], OfPort q x := by
  intro x hx
  rcases List.mem_append.mp hx with hx | hx
  · exact ofPort_leave x hx
  · obtain rfl := List.mem_singleton.mp hx
    exact ofPort_member hn q 0

theorem delete_comm (hn : n < 32) (hq : q < 32) (hq' : q' < 32) (hne : q ≠ q') (h : (indexAt q).Apart (tagAt q'))
    (h' : (indexAt q').Apart (tagAt q)) :
    delete n num vid (delete n num vid r q) q' = delete n num vid (delete n num vid r q') q := by
  have hsame : SameView q' r (delete n num vid r q) := by
    rw [delete_eq]
    exact sameView_other hq hq' hne h h' (ofPort_delete hn)
  have hsame' : SameView q r (delete n num vid r q') := by
    rw [delete_eq]
    exact sameView_other hq' hq hne.symm h' h (ofPort_delete hn)
  rw [delete_eq (r := delete n num vid r q), delete_eq (r := delete n num vid r q'), hsame.leave, hsame'.leave,
    delete_eq, delete_eq]
  exact ports_comm hq hq' hne h h' (ofPort_delete hn) (ofPort_delete hn)

/-- A member bit of one port, and a whole edit of another one. -/
theorem member_comm (hn : n < 32) (hq : q < 32) (hq' : q' < 32) (hne : q ≠ q') (d : BitVec 16) :
    SameView q' r (write r ⟨memberAt n q, d⟩) ∧
      ∀ l, (∀ y ∈ l, OfPort q' y) → run write (write r ⟨memberAt n q, d⟩) l =
        write (run write r l) ⟨memberAt n q, d⟩ := by
  have hapart (f : PortField) (hf : f.InTable) : (memberAt n q).Apart (f.place q') :=
    (PortField.member n).apart_other (inTable_member hn) hf hq hq' hne (by simp) (by simp)
  refine ⟨sameView_writes (l := [⟨memberAt n q, d⟩]) ?_ ?_ ?_ ?_, ?_⟩
  · exact List.forall_mem_singleton.mpr (hapart .tag (inTable_of_ne (by simp)))
  · exact List.forall_mem_singleton.mpr (hapart .index (inTable_of_ne (by simp)))
  · exact fun e he => List.forall_mem_singleton.mpr (hapart (.member e) (inTable_member he))
  · exact fun e he => List.forall_mem_singleton.mpr (member_apart_vid hn hq he)
  · intro l hl
    refine writes_write fun y hy => ?_
    obtain ⟨f, hf, hy⟩ := hl y hy
    rw [hy]
    exact hapart f hf

end

end gwdonu.vlan_order
