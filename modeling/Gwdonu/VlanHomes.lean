-- The entry that the PVID of a port selects, and whether the port stays a member of it when
-- the list of a VLAN is edited.
import Gwdonu.VlanCommands
import Gwdonu.VlanOrder

namespace gwdonu.vlan_homes

open Function calls runs writes rcp_registers register_fields vlans vlan_edits vlan_lists vlan_order
open vlan_commands (Coherent numFromVID_known)
open vlan_table (withVid withMembers_dev numOfPorts_le)

/-! ## The law -/

/-- The port is a member of the entry that its PVID selects. -/
def Home (r : Regs 16) (q : Nat) : Prop := isMember r (indexOf r q) q = true

structure Sound (s : State) : Prop where
  coherent : Coherent s
  first : vidOf s.reg 0 = 1
  distinct : ∀ e < 32, ∀ e' < 32, vidOf s.reg e ≠ 0 → vidOf s.reg e = vidOf s.reg e' → e = e'
  home : ∀ q < s.dev.numOfPorts, Home s.reg q

inductive Edit where
  | untag (portList : BitVec 32) (port_len : Nat)
  | tagged (portList : BitVec 32) (port_len : Nat)
  | listDelete (portList : BitVec 32) (port_len : Nat)
  | delete
  deriving DecidableEq

def Edit.call (vlanum : Nat) : Edit → Rcp Unit
  | .untag portList port_len => RCP_SetVlanUntagPortList vlanum portList port_len .RCP_CONFIG_2_REGISTER
  | .tagged portList port_len => RCP_SetVlanTaggedPortList vlanum portList port_len .RCP_CONFIG_2_REGISTER
  | .listDelete portList port_len => RCP_SetVlanPortListDelete vlanum portList port_len .RCP_CONFIG_2_REGISTER
  | .delete => RCP_SetVlanDelete vlanum .RCP_CONFIG_2_REGISTER

/-- The list of ports is one of the device. -/
def Edit.Within (n : Nat) : Edit → Prop
  | .untag _ port_len | .tagged _ port_len | .listDelete _ port_len => port_len ≤ n
  | .delete => True

/-- What the edit is for: a port that goes untagged is in no other entry, and one that leaves is
not in this one. -/
def Edit.Done (vlanum : Nat) (t : State) : Edit → Prop
  | .untag portList port_len =>
    ∀ q ∈ masked portList port_len, ∀ e < 32, isMember t.reg e q = true ↔ e = vlanum
  | .listDelete portList port_len => ∀ q ∈ masked portList port_len, isMember t.reg vlanum q = false
  | .tagged .. | .delete => True

/-- An edit that succeeds does what it is for, and no port loses its home. -/
def Edit.Keeps (vlanum : Nat) (s : State) (edit : Edit) : Prop :=
  ∀ t, edit.call vlanum s = .ok () t → Sound t ∧ edit.Done vlanum t

/-! ## When it holds -/

/-- The index of a port when the tags of some ports have been set first. The index registers of the
ports 27 to 32 are the registers of the tags of the ports 1 to 24. -/
def indexBehind (r : Regs 16) (l : List Nat) (tag : BitVec 16) (q : Nat) : Nat :=
  indexOf (run write r (l.map fun q => ⟨tagAt q, tag⟩)) q

/-- The port has one entry only, or one beside the VLAN 1 that its index `i` selects. -/
def Last (r : Regs 16) (i q : Nat) : Prop := (vidOf r i = 1 ∧ tagCount r q = 2) ∨ tagCount r q = 1

/-- A port that leaves goes untagged. Port 1 does so if it has entry 0 and another one, or one other
than entry 0 only. -/
def Untags (r : Regs 16) (q : Nat) : Prop :=
  tagOf r q = 0 ∨ Last r (indexOf r q) q ∧ (q = 0 → (tagCount r q = 2 ↔ isMember r 0 q = true))

instance (r : Regs 16) (q : Nat) : Decidable (Home r q) := inferInstanceAs (Decidable (_ = _))

instance (r : Regs 16) (i q : Nat) : Decidable (Last r i q) := inferInstanceAs (Decidable (_ ∨ _))

instance (r : Regs 16) (q : Nat) : Decidable (Untags r q) := inferInstanceAs (Decidable (_ ∨ _))

/-- A port that leaves has a home: entry 0, or the entry of its index. -/
def Leaves (vlanum : Nat) (r : Regs 16) (i q : Nat) : Prop :=
  tagOf r q = 0 ∨ Last r i q ∨ isMember r (if i = vlanum then 0 else i) q = true

instance (vlanum : Nat) (r : Regs 16) (i q : Nat) : Decidable (Leaves vlanum r i q) :=
    inferInstanceAs (Decidable (_ ∨ _))

/-- Each port has a home when those of the list have left. -/
def AllLeave (n vlanum : Nat) (r : Regs 16) (l : List Nat) : Prop :=
  ∀ q < n, if q ∈ l then Leaves vlanum r (indexBehind r (l.filter (Untags r)) 0 q) q
    else isMember r (indexBehind r (l.filter (Untags r)) 0 q) q = true

instance (n vlanum : Nat) (r : Regs 16) (l : List Nat) : Decidable (AllLeave n vlanum r l) :=
  inferInstanceAs (Decidable (∀ q < n, _))

/-- The index of a port selects an entry that the edit leaves it in. -/
def Edit.Suits (vlanum : Nat) (s : State) : Edit → Prop
  | .untag portList port_len =>
    ∀ q < s.dev.numOfPorts,
      if q ∈ masked portList port_len then
        q + 1 = RCPPort2LPort s.dev s.dev.upLinkPort → indexBehind s.reg (masked portList port_len) 0 q = vlanum
      else isMember s.reg (indexBehind s.reg (masked portList port_len) 0 q) q = true
  | .tagged portList port_len =>
    ∀ q < s.dev.numOfPorts, isMember s.reg (indexBehind s.reg (masked portList port_len) 3 q) q = true ∨
      q ∈ masked portList port_len ∧ indexBehind s.reg (masked portList port_len) 3 q = vlanum
  | .listDelete portList port_len => AllLeave s.dev.numOfPorts vlanum s.reg (masked portList port_len)
  | .delete =>
    AllLeave s.dev.numOfPorts vlanum s.reg ((List.range s.dev.numOfPorts).filter (isMember s.reg vlanum))

instance (vlanum : Nat) (s : State) : ∀ edit, Decidable (Edit.Suits vlanum s edit)
  | .untag .. | .tagged .. => inferInstanceAs (Decidable (∀ q < s.dev.numOfPorts, _))
  | .listDelete .. | .delete => inferInstanceAs (Decidable (AllLeave ..))

/-! ## One port -/

section
variable {r t : Regs 16} {e e' q i n : Nat} {d : BitVec 16}

theorem member_fits (hd : d.toNat < 2) :
    isMember (write r ⟨memberAt e q, d⟩) e q = d.getLsbD 0 := by
  have hfit : (memberAt e q).off + (memberAt e q).len ≤ 16 := by
    change q % 16 + 1 ≤ 16
    omega
  rw [isMember, read_write_self hfit hd]

@[simp] theorem isMember_member (he : e < 32) (he' : e' < 32) (hq : q < 32) (hd : d.toNat < 2) :
    isMember (write r ⟨memberAt e q, d⟩) e' q = if e' = e then d.getLsbD 0 else isMember r e' q := by
  by_cases heq : e' = e
  · rw [if_pos heq, heq, member_fits hd]
  · rw [if_neg heq, isMember_write (member_apart he hq he' hq (.inl (Ne.symm heq)))]

@[simp] theorem isMember_index (he : e < 32) (hq : q < 32) (hn : n < 32) :
    isMember (write r ⟨indexAt n, d⟩) e q = isMember r e q := isMember_write ((index_uncached hn e he).1 q hq)

@[simp] theorem isMember_insert (he : e < 32) (hq : q < 32) :
    isMember (write r ⟨insertAt n, d⟩) e q = isMember r e q := isMember_write ((insert_uncached e he).1 q hq)

@[simp] theorem isMember_tag (he : e < 32) (hq : q < 32) (hn : n < 32) :
    isMember (write r ⟨tagAt n, d⟩) e q = isMember r e q := isMember_write ((tag_uncached hn e he).1 q hq)

@[simp] theorem indexOf_index (hd : d.toNat < 32) : indexOf (write r ⟨indexAt q, d⟩) q = d.toNat := by
  have hfit : (indexAt q).off + (indexAt q).len ≤ 16 := by
    rw [indexAt_off]
    change q % 2 * 8 + 5 ≤ 16
    omega
  rw [indexOf, read_write_self hfit hd]

@[simp] theorem indexOf_member (he : e < 32) (hq : q < 32) (hn : n < 32) :
    indexOf (write r ⟨memberAt e n, d⟩) q = indexOf r q := by
  rw [indexOf, read_write ((index_uncached hq e he).1 n hn).symm, indexOf]

@[simp] theorem indexOf_insert (hq : q < 32) : indexOf (write r ⟨insertAt n, d⟩) q = indexOf r q := by
  rw [indexOf, read_write (index_apart_insert hq).symm, indexOf]

@[simp] theorem indexOf_tag (hq : q < 32) : indexOf (write r ⟨tagAt q, d⟩) q = indexOf r q := by
  rw [indexOf, read_write (index_apart_tag hq le_rfl hq).symm, indexOf]

theorem indexOf_lt (r : Regs 16) (q : Nat) : indexOf r q < 32 := fields.toNat_get_lt _

end

/-! ## One port after the other -/

/-- The edit of a port: writes to its fields, the same ones wherever the port looks the same. The tag
of the ports of `P` is set. -/
structure Turns (W : Regs 16 → Nat → List (Write 16)) (r : Regs 16) (P : Nat → Bool) (tag : BitVec 16) : Prop where
  ofPort : ∀ t q, ∀ x ∈ W t q, OfPort q x
  same : ∀ t q, SameView q r t → W t q = W r q
  tags : ∀ q < 32, (W r q).filter (fun x => decide (x.place = tagAt q)) = if P q then [⟨tagAt q, tag⟩] else []

def turn (W : Regs 16 → Nat → List (Write 16)) (r : Regs 16) (q : Nat) : Regs 16 := run write r (W r q)

section
variable {W : Regs 16 → Nat → List (Write 16)} {r t t' : Regs 16} {P : Nat → Bool} {tag : BitVec 16} {l : List Nat}
  {p : Place} {q q' e : Nat} {x : Write 16}

/-- No tag is where an index is, but for those of the ports 1 to 24. -/
theorem tag_apart_index (hq : 24 ≤ q) (hq' : q' < 32) : (tagAt q).Apart (indexAt q') := by
  refine apart_of_addr ?_
  rw [tagAt_addr, indexAt_addr]
  omega

theorem index_apart_low (hq : q < 24) : (indexAt q).Apart (tagAt q') := by
  refine apart_of_addr ?_
  rw [tagAt_addr, indexAt_addr]
  omega

/-- Of the writes for one port, only the one to its tag can be where the index of another port is. -/
theorem ofPort_apart_index (hx : OfPort q x) (hq : q < 32) (hq' : q' < 32) (hne : q ≠ q') (htag : x.place ≠ tagAt q) :
    x.place.Apart (indexAt q') := by
  obtain ⟨f, hf, hx⟩ := hx
  rw [hx]
  change (f.place q).Apart (PortField.index.place q')
  refine f.apart_other hf (inTable_of_ne (by simp)) hq hq' hne (by simp) ?_
  rintro rfl
  exact absurd hx htag

/-- A field that no edit of the ports writes to. -/
theorem read_turns (h : ∀ q ∈ l, ∀ t, ∀ x ∈ W t q, x.place.Apart p) : read (run (turn W) r l) p = read r p := by
  induction l generalizing r with
  | nil => rfl
  | cons q l ih =>
    obtain ⟨hq, hl⟩ := List.forall_mem_cons.mp h
    rw [run_cons, ih hl, turn, read_writes (hq r)]

variable (h : Turns W r P tag)
include h

theorem Turns.isMember_other (hl : ∀ q ∈ l, q < 32) (he : e < 32) (hq : q < 32) (hnot : q ∉ l) :
    isMember (run (turn W) t l) e q = isMember t e q := by
  rw [isMember, isMember, read_turns fun q' hq' s x hx => ?_]
  obtain ⟨f, hf, hx⟩ := h.ofPort s q' x hx
  rw [hx]
  exact f.apart_other hf (inTable_member he) (hl q' hq') hq (fun heq => hnot (heq ▸ hq')) (by simp) (by simp)

theorem Turns.vidOf_eq (hl : ∀ q ∈ l, q < 32) (he : e < 32) : vidOf (run (turn W) t l) e = vidOf t e :=
  read_turns fun q hq s x hx => (h.ofPort s q x hx).apart_vid (hl q hq) he

/-- The ports before a port leave its tag. -/
theorem Turns.tagOf_before (hl : ∀ q' ∈ l, q' < q) (hq : q < 32) : tagOf (run (turn W) t l) q = tagOf t q := by
  refine read_turns fun q' hq' s x hx => ?_
  have hlt := hl q' hq'
  obtain ⟨f, hf, hx⟩ := h.ofPort s q' x hx
  rw [hx]
  change (f.place q').Apart (PortField.tag.place q)
  exact f.apart_other hf (inTable_of_ne (by simp)) (by omega) hq (by omega)
    (fun _ _ => index_apart_tag (by omega) hlt.le hq) (by simp)

/-- The ports behind a port leave its index. -/
theorem Turns.indexOf_behind (hl : ∀ q' ∈ l, q < q' ∧ q' < 32) : indexOf (run (turn W) t l) q = indexOf t q := by
  rw [indexOf, indexOf, read_turns fun q' hq' s x hx => ?_]
  obtain ⟨hlt, hq'⟩ := hl q' hq'
  obtain ⟨f, hf, hx⟩ := h.ofPort s q' x hx
  rw [hx]
  change (f.place q').Apart (PortField.index.place q)
  exact f.apart_other hf (inTable_of_ne (by simp)) hq' (by omega) (by omega) (by simp)
    fun _ _ => index_apart_tag (by omega) hlt.le hq'

/-- The index of a port that is not edited is what the tags of the others make of it. -/
theorem Turns.read_other (hl : ∀ q ∈ l, q < 32) (hsorted : l.Pairwise (· < ·)) (hq : q < 32) (hnot : q ∉ l)
    (hsame : ∀ q' ∈ l, q' < 24 → SameView q' r t) (hread : read t (indexAt q) = read t' (indexAt q)) :
    read (run (turn W) t l) (indexAt q) =
      read (run write t' ((l.filter P).map fun q => ⟨tagAt q, tag⟩)) (indexAt q) := by
  induction l generalizing t t' with
  | nil => exact hread
  | cons q' l ih =>
    obtain ⟨hq', hl⟩ := List.forall_mem_cons.mp hl
    obtain ⟨hless, hsorted⟩ := List.pairwise_cons.mp hsorted
    obtain ⟨hlow, hsame⟩ := List.forall_mem_cons.mp hsame
    have hne : q' ≠ q := fun heq => hnot (heq ▸ List.mem_cons_self)
    have hturn : read (turn W t q') (indexAt q) =
        read (run write t' (if P q' then [⟨tagAt q', tag⟩] else [])) (indexAt q) := by
      unfold turn
      rw [read_writes_filter fun x hx hc =>
        ofPort_apart_index (h.ofPort t q' x hx) hq' hq hne (of_decide_eq_false hc)]
      by_cases hport : q' < 24
      · rw [h.same t q' (hlow hport), h.tags q' hq']
        exact read_writes_congr hread
      · rw [read_writes fun x hx => ?_, hread, read_writes fun x hx => ?_]
        · split_ifs at hx
          · obtain rfl := List.mem_singleton.mp hx
            exact tag_apart_index (Nat.not_lt.mp hport) hq
          · cases hx
        · rw [of_decide_eq_true (List.mem_filter.mp hx).2]
          exact tag_apart_index (Nat.not_lt.mp hport) hq
    have hview : ∀ q'' ∈ l, q'' < 24 → SameView q'' r (turn W t q') := by
      intro q'' hq'' hlow''
      have hlt := hless q'' hq''
      have hkeep : SameView q'' t (turn W t q') :=
        sameView_other hq' (hl q'' hq'') (by omega) (index_apart_low (by omega)) (index_apart_low hlow'')
          (h.ofPort t q')
      exact (hsame q'' hq'' hlow'').trans hkeep
    have hrest := ih hl hsorted (fun hq => hnot (List.mem_cons_of_mem _ hq)) hview hturn
    rw [run_cons, hrest]
    cases hP : P q' with
    | true =>
      rw [List.filter_cons_of_pos hP]
      rfl
    | false =>
      rw [List.filter_cons_of_neg (by simp [hP])]
      rfl

theorem Turns.indexOf_other (hl : ∀ q ∈ l, q < 32) (hsorted : l.Pairwise (· < ·)) (hq : q < 32) (hnot : q ∉ l) :
    indexOf (run (turn W) r l) q = indexBehind r (l.filter P) tag q := by
  rw [indexOf, indexBehind, indexOf, h.read_other hl hsorted hq hnot (fun _ _ _ => SameView.refl) rfl]

end

/-- The registers `t` are those that the edit of the port finds, with the index `i`, and what it makes
of the port stays until `s`. -/
structure Between (W : Regs 16 → Nat → List (Write 16)) (r s t : Regs 16) (q i : Nat) : Prop where
  members : ∀ e < 32, isMember t e q = isMember r e q
  tag : tagOf t q = tagOf r q
  vids : ∀ e < 32, vidOf t e = vidOf r e
  index : indexOf t q = i
  ends : ∀ e < 32, isMember s e q = isMember (turn W t q) e q
  indexEnds : indexOf s q = indexOf (turn W t q) q

section
variable {W : Regs 16 → Nat → List (Write 16)} {r s t : Regs 16} {P : Nat → Bool} {tag : BitVec 16} {l : List Nat}
  {q i e : Nat}

/-- The tags of the ports from a port on are not where its index is. -/
theorem indexBehind_append {before behind : List Nat} (h : ∀ q' ∈ behind, q ≤ q' ∧ q' < 32) :
    indexBehind r (before ++ behind) tag q = indexBehind r before tag q := by
  rw [indexBehind, indexBehind, List.map_append, run_append, indexOf, indexOf, read_writes fun x hx => ?_]
  obtain ⟨q', hq', rfl⟩ := List.mem_map.mp hx
  obtain ⟨hle, hlt⟩ := h q' hq'
  exact (index_apart_tag (by omega) hle hlt).symm

/-- The edit of a port of the list, with those of the ports before it and behind it. -/
theorem Turns.between (h : Turns W r P tag) (hl : ∀ q ∈ l, q < 32) (hsorted : l.Pairwise (· < ·)) (hq : q ∈ l) :
    ∃ t, Between W r (run (turn W) r l) t q (indexBehind r (l.filter P) tag q) := by
  have hq32 := hl q hq
  obtain ⟨before, behind, rfl⟩ := List.mem_iff_append.mp hq
  obtain ⟨hbefore, hcons, hcross⟩ := List.pairwise_append.mp hsorted
  obtain ⟨hbehind, -⟩ := List.pairwise_cons.mp hcons
  obtain ⟨hlow, hhigh⟩ := List.forall_mem_append.mp hl
  have hless : ∀ q' ∈ before, q' < q := fun q' hq' => hcross q' hq' q List.mem_cons_self
  have hnot : q ∉ before := fun hin => lt_irrefl q (hless q hin)
  have hnotin : q ∉ behind := fun hin => lt_irrefl q (hbehind q hin)
  have hgreater : ∀ q' ∈ behind, q' < 32 := fun q' hq' => hhigh q' (List.mem_cons_of_mem _ hq')
  refine ⟨run (turn W) r before, ⟨?_, ?_, ?_, ?_, ?_, ?_⟩⟩
  · exact fun e he => h.isMember_other hlow he hq32 hnot
  · exact h.tagOf_before hless hq32
  · exact fun e he => h.vidOf_eq hlow he
  · rw [h.indexOf_other hlow hbefore hq32 hnot, List.filter_append]
    refine (indexBehind_append fun q' hq' => ?_).symm
    rcases List.mem_cons.mp (List.mem_of_mem_filter hq') with rfl | hq'
    · exact ⟨le_rfl, hq32⟩
    · exact ⟨(hbehind q' hq').le, hgreater q' hq'⟩
  · intro e he
    rw [run_append, run_cons]
    exact h.isMember_other hgreater he hq32 hnotin
  · rw [run_append, run_cons]
    exact h.indexOf_behind fun q' hq' => ⟨hbehind q' hq', hgreater q' hq'⟩

/-- The index of a port before 27 is in no register of tags. -/
theorem indexBehind_low (hlow : q < 26) : indexBehind r l tag q = indexOf r q := by
  rw [indexBehind, indexOf, indexOf, read_writes fun x hx => ?_]
  obtain ⟨q', -, rfl⟩ := List.mem_map.mp hx
  refine (apart_of_addr ?_).symm
  rw [indexAt_addr, tagAt_addr]
  omega

theorem Between.last (h : Between W r s t q i) (hi : i < 32) : Last t i q ↔ Last r i q := by
  have hcount : tagCount t q = tagCount r q :=
    List.countP_congr fun e he => by rw [h.members e (List.mem_range.mp he)]
  rw [Last, Last, hcount, h.vids i hi]

theorem Between.home (h : Between W r s t q i) : Home s q ↔ Home (turn W t q) q := by
  rw [Home, Home, h.indexEnds, h.ends _ (indexOf_lt ..)]

end

/-! ## Three edits -/

/-- The writes of `RCP_SetVlanPortListDelete` for a port, when VLAN 1 has entry 0. -/
def deletePort (vlanum : Nat) (vid : BitVec 16) (r : Regs 16) (q : Nat) : List (Write 16) :=
  leave 0 vid r q ++ [⟨memberAt vlanum q, 0⟩]

section
variable {r : Regs 16} {e e' q q' mgtPort : Nat} {num vid : BitVec 16}

@[simp] theorem member_ne_tag : memberAt e q ≠ tagAt q' := by simp [memberAt, tagAt]

@[simp] theorem index_ne_tag : indexAt q ≠ tagAt q' := by simp [indexAt, tagAt]

@[simp] theorem insert_ne_tag : insertAt q ≠ tagAt q' := by simp [insertAt, tagAt]

theorem turns_untag (he : e < 32) : Turns (fun _ => untagPort e num mgtPort) r (fun _ => true) 0 := by
  refine ⟨fun t q x hx => ?_, fun _ _ _ => rfl, fun q hq => ?_⟩
  · unfold untagPort at hx
    simp only [List.mem_append, List.mem_cons, List.not_mem_nil, or_false] at hx
    rcases hx with ((hx | rfl) | hx) | rfl | rfl
    · exact ofPort_leaveOthers x hx
    · exact ofPort_member he q 1
    · split_ifs at hx
      · obtain rfl := List.mem_singleton.mp hx
        exact ofPort_index q num
      · cases hx
    · exact ofPort_insert q 0
    · exact ofPort_tag q 0
  · have hothers : (leaveOthers e q).filter (fun x => decide (x.place = tagAt q)) = [] := by
      refine List.filter_eq_nil_iff.mpr fun x hx => ?_
      obtain ⟨e', -, rfl⟩ := List.mem_map.mp hx
      simp
    have hindex : (if q + 1 ≠ mgtPort then [⟨indexAt q, num⟩] else []).filter
        (fun x : Write 16 => decide (x.place = tagAt q)) = [] := by
      split_ifs <;> simp
    rw [untagPort, List.filter_append, List.filter_append, List.filter_append, hothers, hindex]
    simp

theorem turns_tagged (he : e < 32) : Turns (fun _ => tagPort e) r (fun _ => true) 3 := by
  refine ⟨fun t q x hx => ?_, fun _ _ _ => rfl, fun q hq => ?_⟩
  · simp only [tagPort, List.mem_cons, List.not_mem_nil, or_false] at hx
    rcases hx with rfl | rfl | rfl
    · exact ofPort_insert q 1
    · exact ofPort_member he q 1
    · exact ofPort_tag q 3
  · simp [tagPort]

theorem leaveTagged_eq : leaveTagged num vid r q =
    (if Last r (indexOf r q) q then backPort num r (tagCount r q) q else []) ++
      if vidOf r (indexOf r q) = vid then [⟨indexAt q, num⟩] else [] := rfl

/-- Port 1 goes back untagged with two entries of which entry 0 is one, or with one that is not entry 0. -/
theorem backPort_tag {k : Nat} (hk : k = 2 ∨ k = 1) :
    (backPort num r k q).filter (fun x => decide (x.place = tagAt q)) =
      if q = 0 → (k = 2 ↔ isMember r 0 q = true) then [⟨tagAt q, 0⟩] else [] := by
  unfold backPort
  by_cases hone : q + 1 ≠ 1
  · have hq : q ≠ 0 := by omega
    rw [if_pos hone, if_pos fun h => absurd h hq]
    simp
  · obtain rfl : q = 0 := by omega
    rcases hk with rfl | rfl
    · cases hmember : isMember r 0 0 <;> simp
    · cases hmember : isMember r 0 0 <;> simp

theorem turns_delete (he : e < 32) : Turns (deletePort e vid) r (Untags r) 0 := by
  refine ⟨fun t q => ofPort_delete he, fun t q hsame => ?_, fun q hq => ?_⟩
  · rw [deletePort, deletePort, hsame.leave]
  · rw [deletePort, List.filter_append]
    unfold leave
    by_cases htag : tagOf r q = 0
    · simp [htag, leaveUntagged, Untags]
    · rw [if_neg htag, leaveTagged_eq, List.filter_append]
      have hindex : (if vidOf r (indexOf r q) = vid then [⟨indexAt q, 0⟩] else []).filter
          (fun x : Write 16 => decide (x.place = tagAt q)) = [] := by
        split_ifs <;> simp
      by_cases hlast : Last r (indexOf r q) q
      · have hcount : tagCount r q = 2 ∨ tagCount r q = 1 := hlast.imp_left And.right
        have hgoes : Untags r q ↔ (q = 0 → (tagCount r q = 2 ↔ isMember r 0 q = true)) :=
          ⟨fun h => (h.resolve_left htag).2, fun h => .inr ⟨hlast, h⟩⟩
        rw [if_pos hlast, backPort_tag hcount, hindex]
        by_cases hgo : Untags r q
        · rw [if_pos (hgoes.mp hgo), decide_eq_true hgo]
          simp
        · rw [if_neg fun h => hgo (hgoes.mpr h), decide_eq_false hgo]
          simp
      · have hstays : ¬ Untags r q := fun h => hlast (h.resolve_left htag).1
        rw [if_neg hlast, hindex]
        simp [hstays]

/-! ## Where a port ends -/

theorem isMember_cleared {l : List Nat} (hl : ∀ e ∈ l, e < 32) (he : e < 32) (hq : q < 32) :
    isMember (run write r (l.map fun e => ⟨memberAt e q, 0⟩)) e q = (decide (e ∉ l) && isMember r e q) := by
  induction l generalizing r with
  | nil => simp
  | cons e' l ih =>
    obtain ⟨he', hl⟩ := List.forall_mem_cons.mp hl
    rw [List.map_cons, run_cons, ih hl, isMember_member he' he hq (by decide)]
    by_cases heq : e = e'
    · simp [heq]
    · simp [heq]

theorem isMember_untag (he : e < 32) (he' : e' < 32) (hq : q < 32) :
    isMember (turn (fun _ => untagPort e num mgtPort) r q) e' q = true ↔ e' = e := by
  have hothers : isMember (run write r (leaveOthers e q)) e' q = (decide (e' ∉ others e) && isMember r e' q) :=
    isMember_cleared (fun i hi => List.mem_range.mp (List.mem_filter.mp hi).1) he' hq
  have hmem : e' ∈ others e ↔ e' ≠ e := by
    rw [others, List.mem_filter]
    simp [he', MAX_RCP_VLAN_NUM]
  rw [turn, untagPort, run_append, run_append, run_append]
  by_cases heq : e' = e
  · split_ifs <;> simp [he, hq, heq]
  · split_ifs <;> simp [he, he', hq, heq, hothers, hmem]

theorem indexOf_untag (he : e < 32) (hq : q < 32) (hnum : num.toNat < 32) :
    indexOf (turn (fun _ => untagPort e num mgtPort) r q) q = if q + 1 = mgtPort then indexOf r q else num.toNat := by
  have hothers : indexOf (run write r (leaveOthers e q)) q = indexOf r q := by
    rw [indexOf, indexOf, read_writes fun x hx => ?_]
    obtain ⟨e', he', rfl⟩ := List.mem_map.mp hx
    exact ((index_uncached hq e' (List.mem_range.mp (List.mem_filter.mp he').1)).1 q hq).symm
  rw [turn, untagPort, run_append, run_append, run_append]
  by_cases hmgt : q + 1 = mgtPort
  · rw [if_pos hmgt, if_neg (not_not.mpr hmgt)]
    simp [he, hq, hothers]
  · rw [if_neg hmgt, if_pos hmgt]
    simp [hq, hnum]

theorem isMember_tagged (he : e < 32) (he' : e' < 32) (hq : q < 32) :
    isMember (turn (fun _ => tagPort e) r q) e' q = (decide (e' = e) || isMember r e' q) := by
  rw [turn, tagPort]
  by_cases heq : e' = e
  · simp [he, hq, heq]
  · simp [he, he', hq, heq]

theorem indexOf_tagged (he : e < 32) (hq : q < 32) :
    indexOf (turn (fun _ => tagPort e) r q) q = indexOf r q := by
  rw [turn, tagPort]
  simp [he, hq]

theorem isMember_delete (he : e < 32) (hq : q < 32) : isMember (turn (deletePort e vid) r q) e q = false := by
  rw [turn, deletePort, run_append, run_cons, run_nil, isMember_member he he hq (by decide), if_pos rfl]
  rfl

end

/-- What a delete finds: the entry has a VID of its own, and is not the first. -/
structure Named (r : Regs 16) (e : Nat) : Prop where
  entry : e < 32
  other : e ≠ 0
  vid : vidOf r e ≠ 0
  first : vidOf r 0 = 1
  distinct : ∀ e < 32, ∀ e' < 32, vidOf r e ≠ 0 → vidOf r e = vidOf r e' → e = e'

section
variable {r t : Regs 16} {e i q : Nat}

theorem Named.of_vids (h : Named r e) (hvids : ∀ e < 32, vidOf t e = vidOf r e) : Named t e := by
  refine ⟨h.entry, h.other, ?_, ?_, ?_⟩
  · rw [hvids e h.entry]
    exact h.vid
  · rw [hvids 0 (by decide)]
    exact h.first
  · intro e' he' e'' he''
    rw [hvids e' he', hvids e'' he'']
    exact h.distinct e' he' e'' he''

theorem Named.selects (h : Named r e) (hi : i < 32) : vidOf r i = vidOf r e ↔ i = e := by
  constructor
  · intro heq
    exact (h.distinct e h.entry i hi h.vid heq.symm).symm
  · rintro rfl
    rfl

theorem Named.selects_first (h : Named r e) (hi : i < 32) (hvid : vidOf r i = 1) : i = 0 := by
  refine (h.distinct 0 (by decide) i hi ?_ (h.first.trans hvid.symm)).symm
  rw [h.first]
  decide

/-- A port that is left with no entry but the first is at home there. -/
theorem home_back (h : Named r e) (hq : q < 32) (hlast : Last r (indexOf r q) q) (hzero : q = 0 → Home r q) :
    Home (run write (run write (run write r (backPort 0 r (tagCount r q) q))
      (if indexOf r q = e then [⟨indexAt q, 0⟩] else [])) [⟨memberAt e q, 0⟩]) q := by
  have he := h.entry
  have hne := h.other
  have hne' := Ne.symm h.other
  have hi := indexOf_lt r q
  unfold backPort
  by_cases hone : q + 1 ≠ 1
  · rw [if_pos hone]
    split_ifs <;> simp [Home, he, hq, hne']
  obtain rfl : q = 0 := by omega
  have hhome : isMember r (indexOf r 0) 0 = true := hzero rfl
  rw [if_neg hone]
  by_cases htwo : tagCount r 0 = 2 ∧ isMember r 0 0 = true
  · have hindex : indexOf r 0 = 0 := by
      rcases hlast with hlast | hlast
      · exact h.selects_first hi hlast.1
      · omega
    rw [if_pos htwo, if_neg (by omega)]
    simp [Home, he, hne', hindex, htwo.2]
  · rw [if_neg htwo]
    by_cases hgone : tagCount r 0 = 1 ∧ isMember r 0 0 = false
    · rw [if_pos hgone]
      by_cases hown : indexOf r 0 = e
      · rw [if_pos hown]
        simp [Home, he, hne']
      · rw [if_neg hown]
        simp [Home, he, hi, hown, hhome]
    · rw [if_neg hgone]
      by_cases hown : indexOf r 0 = e
      · have hfirst : isMember r 0 0 = true := by
          rcases hlast with hlast | hlast
          · exact absurd ((h.selects_first hi hlast.1).symm.trans hown) hne'
          · exact eq_true_of_ne_false fun hno => hgone ⟨hlast, hno⟩
        rw [if_pos hown]
        simp [Home, he, hne', hfirst]
      · rw [if_neg hown]
        simp [Home, he, hi, hown, hhome]

/-- A port that leaves an entry is at home if it goes to entry 0, or is in the entry of its index
already. Port 1 has to be at home before. -/
theorem home_delete (h : Named r e) (hq : q < 32) (hzero : q = 0 → Home r q) :
    Home (turn (deletePort e (vidOf r e)) r q) q ↔ Leaves e r (indexOf r q) q := by
  have he := h.entry
  have hne := h.other
  have hne' := Ne.symm h.other
  have hi := indexOf_lt r q
  have hcase : vidOf r (indexOf r q) = vidOf r e ↔ indexOf r q = e := h.selects hi
  unfold turn deletePort leave Leaves
  rw [run_append]
  by_cases htag : tagOf r q = 0
  · rw [if_pos htag]
    simp [Home, leaveUntagged, htag, he, hq, hne']
  rw [if_neg htag, leaveTagged_eq, run_append]
  simp only [hcase, htag, false_or]
  by_cases hlast : Last r (indexOf r q) q
  · rw [if_pos hlast]
    simp only [hlast, true_or, iff_true]
    exact home_back h hq hlast hzero
  · rw [if_neg hlast]
    simp only [hlast, false_or]
    by_cases hown : indexOf r q = e
    · rw [if_pos hown, if_pos hown]
      simp [Home, he, hq, hne']
    · rw [if_neg hown, if_neg hown]
      simp [Home, he, hq, hi, hown]

end

/-! ## Where all ports end -/

section
variable {W : Regs 16 → Nat → List (Write 16)} {r s t : Regs 16} {P : Nat → Bool} {tag num : BitVec 16}
  {l l' : List Nat}
  {e i q mgtPort : Nat} (hl : ∀ q ∈ l, q < 32) (hsorted : l.Pairwise (· < ·)) (hq : q < 32)
include hl hsorted hq

theorem Turns.home_iff {C : Prop} (h : Turns W r P tag) (hset : l.filter P = l')
    (hport : ∀ t, Between W r (run (turn W) r l) t q (indexBehind r l' tag q) → (Home (turn W t q) q ↔ C)) :
    Home (run (turn W) r l) q ↔ if q ∈ l then C else isMember r (indexBehind r l' tag q) q = true := by
  subst hset
  by_cases hin : q ∈ l
  · obtain ⟨t, ht⟩ := h.between hl hsorted hin
    rw [if_pos hin, ht.home]
    exact hport t ht
  · rw [if_neg hin, Home, h.isMember_other hl (indexOf_lt ..) hq hin, h.indexOf_other hl hsorted hq hin]

theorem home_untag (he : e < 32) (hnum : num.toNat = e) :
    Home (run (turn fun _ => untagPort e num mgtPort) r l) q ↔
      if q ∈ l then q + 1 = mgtPort → indexBehind r l 0 q = e else isMember r (indexBehind r l 0 q) q = true := by
  have hturns : Turns (fun _ => untagPort e num mgtPort) r (fun _ => true) 0 := turns_untag he
  refine hturns.home_iff hl hsorted hq (List.filter_true l) fun t ht => ?_
  rw [Home, isMember_untag he (indexOf_lt ..) hq, indexOf_untag he hq (hnum ▸ he), ht.index, hnum]
  split_ifs with hmgt <;> simp [hmgt]

theorem home_tagged (he : e < 32) :
    Home (run (turn fun _ => tagPort e) r l) q ↔
      isMember r (indexBehind r l 3 q) q = true ∨ q ∈ l ∧ indexBehind r l 3 q = e := by
  have hturns : Turns (fun _ => tagPort e) r (fun _ => true) 3 := turns_tagged he
  have hi : indexBehind r l 3 q < 32 := indexOf_lt ..
  rw [hturns.home_iff hl hsorted hq (C := indexBehind r l 3 q = e ∨ isMember r (indexBehind r l 3 q) q = true)
    (List.filter_true l) fun t ht => ?_]
  · split_ifs with hin
    · simp [hin, or_comm]
    · simp [hin]
  · rw [Home, isMember_tagged he (indexOf_lt ..) hq, indexOf_tagged he hq, ht.index, ht.members _ hi]
    simp

theorem home_listDelete (h : Named r e) (hhome : Home r q) :
    Home (run (turn (deletePort e (vidOf r e))) r l) q ↔
      if q ∈ l then Leaves e r (indexBehind r (l.filter (Untags r)) 0 q) q
      else isMember r (indexBehind r (l.filter (Untags r)) 0 q) q = true := by
  have hturns : Turns (deletePort e (vidOf r e)) r (Untags r) 0 := turns_delete h.entry
  refine hturns.home_iff hl hsorted hq rfl fun t ht => ?_
  have hi : indexBehind r (l.filter (Untags r)) 0 q < 32 := indexOf_lt ..
  have hnamed : Named t e := h.of_vids ht.vids
  have hzero : q = 0 → Home t q := by
    rintro rfl
    rw [Home, ht.index, indexBehind_low (by decide), ht.members _ (indexOf_lt ..)]
    exact hhome
  rw [← ht.vids e h.entry, home_delete hnamed hq hzero, ht.index, Leaves, ht.tag, ht.last hi, Leaves]
  split_ifs
  · rw [ht.members 0 (by decide)]
  · rw [ht.members _ hi]

end

/-! ## The calls -/

/-- The state is the device `d` with the registers `r`, and the cache has their members and VIDs. -/
structure Copied (d : RCP_DEV) (r : Regs 16) (s : State) : Prop where
  reg : s.reg = r
  faithful : s.Faithful
  dev : s.dev = { d with vlanPort := s.dev.vlanPort }
  members : ∀ e < 32, ∀ q < d.numOfPorts, (s.dev.vlanPort e).getLsbD q = isMember r e q
  vids : ∀ e < 32, d.vlanVid e = vidOf r e

section
variable {d : RCP_DEV} {r r' : Regs 16} {s t : State} {p : Place} {e n : Nat} {l : List Nat}

theorem Copied.numOfPorts (h : Copied d r s) : s.dev.numOfPorts = d.numOfPorts := by
  rw [h.dev]
  rfl

theorem copied_books : Books d (Copied d) where
  reg := Copied.reg
  faithful := Copied.faithful
  dev := Copied.dev
  members := Copied.members
  put := by
    intro r s p v h hp
    obtain rfl := h.reg
    refine ⟨rfl, h.faithful, h.dev, fun e he q hq => ?_, fun e he => ?_⟩
    · rw [put_dev, h.members e he q hq, isMember_write ((hp e he).1 q (port_lt hq))]
    · rw [vidOf, read_write (hp e he).2]
      exact h.vids e he
  bit := by
    intro r s e q h hq he b f hf
    have hq32 := port_lt hq
    refine ⟨withMembers_setBit h.reg h.numOfPorts hq he b f hf, withMembers_faithful.mpr h.faithful, ?_,
      fun e' he' q' hq' => ?_, fun e' he' => ?_⟩
    · rw [cachePort, withMembers_dev, h.dev]
    · have hwide : 16 < d.numOfPorts ∨ q' < 16 := by omega
      rw [← withMembers_setBit h.reg h.numOfPorts hq he b f hf,
        isMember_withMembers he he' (port_lt hq') (h.numOfPorts ▸ hwide), cachePort, withMembers_dev]
      change (update s.dev.vlanPort e _ e').getLsbD q' = _
      by_cases heq : e' = e
      · rw [heq, update_self, if_pos rfl]
      · rw [update_of_ne heq, if_neg heq, h.members e' he' q' hq', h.reg]
    · rw [vidOf, read_write (member_apart_vid he hq32 he')]
      exact h.vids e' he'

/-- An entry loses its VID, in the registers and in the cache. -/
theorem Copied.setVid (h : Copied d r s) (he : e < 32) :
    Copied (withCachedVid d e 0) (write r ⟨vidAt e, 0⟩) (cacheVid (withVid s e 0) e 0) := by
  obtain rfl := h.reg
  refine ⟨rfl, h.faithful, dev_setVid h.dev, fun e' he' q hq => ?_, vids_setVid h.vids he (by decide)⟩
  rw [isMember_write (member_apart_vid he' (port_lt hq) he).symm]
  exact h.members e' he' q hq

theorem Sound.copied (h : Sound s) (hfaithful : s.Faithful) : Copied s.dev s.reg s :=
  ⟨rfl, hfaithful, rfl, h.coherent.members, h.coherent.vids⟩

theorem Copied.coherent (h : Copied d r s) : Coherent s := by
  obtain rfl := h.reg
  refine ⟨fun e he => ?_, fun e he q hq => h.members e he q (h.numOfPorts ▸ hq)⟩
  rw [h.dev]
  exact h.vids e he

theorem masked_lt {m : BitVec 32} (hn : n ≤ d.numOfPorts) : ∀ q ∈ masked m n, q < 32 :=
  fun _ hq => port_lt (Nat.lt_of_lt_of_le (List.mem_range.mp (List.mem_filter.mp hq).1) hn)

theorem masked_sorted (m : BitVec 32) (n : Nat) : (masked m n).Pairwise (· < ·) :=
  List.Pairwise.filter _ List.pairwise_lt_range

/-- The call leaves the registers `r'`, with the VIDs of before: then all that counts is the homes. -/
theorem Sound.keeps_iff {x : Rcp Unit} {done : State → Prop} (h : Sound s) (hfaithful : s.Faithful)
    (hx : Moves (Copied s.dev) x s.reg () r') (hvids : ∀ e < 32, vidOf r' e = vidOf s.reg e)
    (hdone : ∀ t, t.reg = r' → done t) :
    (∀ t, x s = .ok () t → Sound t ∧ done t) ↔ ∀ q < s.dev.numOfPorts, Home r' q := by
  obtain ⟨_, t, hcall, -, ht⟩ := (hx s (h.copied hfaithful)).exists
  constructor
  · intro hkeeps q hq
    have hhome := (hkeeps t hcall).1.home q (ht.numOfPorts ▸ hq)
    rw [ht.reg] at hhome
    exact hhome
  · intro hhomes u hu
    obtain rfl : t = u := by
      have hsame := hcall.symm.trans hu
      injection hsame
    refine ⟨⟨ht.coherent, ?_, ?_, ?_⟩, hdone t ht.reg⟩
    · rw [ht.reg, hvids 0 (by decide)]
      exact h.first
    · intro e he e' he'
      rw [ht.reg, hvids e he, hvids e' he']
      exact h.distinct e he e' he'
    · rw [ht.reg, ht.numOfPorts]
      exact hhomes

/-- The entry that has a VID is found by it. -/
theorem Sound.num (h : Sound s) (he : e < 32) (hvid : vidOf s.reg e ≠ 0) : numFromVID s.dev (vidOf s.reg e) = e := by
  obtain ⟨hlt, hfound⟩ := numFromVID_known h.coherent ⟨e, he, rfl⟩
  exact (h.distinct e he _ hlt hvid hfound.symm).symm

theorem Sound.first_eq (h : Sound s) : vlan_lists.first s.dev = 0 := by
  have hvid : vidOf s.reg 0 ≠ 0 := by
    rw [h.first]
    decide
  have hnum := h.num (by decide) hvid
  rw [h.first] at hnum
  rw [vlan_lists.first, hnum]
  rfl

theorem Sound.named (h : Sound s) (he : 1 ≤ e) (he' : e ≤ 31) (hvid : vidOf s.reg e ≠ 0) : Named s.reg e :=
  ⟨by omega, by omega, hvid, h.first, h.distinct⟩

theorem delete_turn (n : Nat) (vid : BitVec 16) : delete n 0 vid = turn (deletePort n vid) := by
  funext r q
  exact delete_eq

theorem keeps_untag {m : BitVec 32} (h : Sound s) (hfaithful : s.Faithful) (he : e < 32) (hvid : vidOf s.reg e ≠ 0)
    (hn : n ≤ s.dev.numOfPorts) : (Edit.untag m n).Keeps e s ↔ (Edit.untag m n).Suits e s := by
  have hl := masked_lt (m := m) hn
  have hsorted := masked_sorted m n
  have hnum : (BitVec.ofNat 16 e).toNat = e := by
    rw [BitVec.toNat_ofNat, Nat.mod_eq_of_lt (by omega)]
  have hmoves := moves_untagPortList (m := m) copied_books he hn s.reg
  rw [h.num he hvid] at hmoves
  have hturns : Turns (fun _ => untagPort e (BitVec.ofNat 16 e) (RCPPort2LPort s.dev s.dev.upLinkPort)) s.reg
      (fun _ => true) 0 := turns_untag he
  refine (h.keeps_iff hfaithful hmoves (fun e he => hturns.vidOf_eq hl he) fun t ht q hq e' he' => ?_).trans ?_
  · obtain ⟨u, hu⟩ := hturns.between hl hsorted hq
    rw [ht]
    exact (Bool.eq_iff_iff.mp (hu.ends e' he')).trans (isMember_untag he he' (hl q hq))
  · exact forall₂_congr fun q hq => home_untag hl hsorted (port_lt hq) he hnum

theorem keeps_tagged {m : BitVec 32} (h : Sound s) (hfaithful : s.Faithful) (he : e < 32)
    (hn : n ≤ s.dev.numOfPorts) : (Edit.tagged m n).Keeps e s ↔ (Edit.tagged m n).Suits e s := by
  have hl := masked_lt (m := m) hn
  have hsorted := masked_sorted m n
  have hturns : Turns (fun _ => tagPort e) s.reg (fun _ => true) 3 := turns_tagged he
  refine (h.keeps_iff hfaithful (moves_tagPortList copied_books he hn s.reg) (fun e he => hturns.vidOf_eq hl he)
    fun _ _ => trivial).trans ?_
  exact forall₂_congr fun q hq => home_tagged hl hsorted (port_lt hq) he

theorem moves_listDelete {m : BitVec 32} (h : Sound s) (he : e < 32) (hn : n ≤ s.dev.numOfPorts) :
    Moves (Copied s.dev) (RCP_SetVlanPortListDelete e m n .RCP_CONFIG_2_REGISTER) s.reg ()
      (run (turn (deletePort e (vidOf s.reg e))) s.reg (masked m n)) := by
  have hmoves := moves_deletePortList (m := m) copied_books he hn s.reg
  rw [h.first_eq, delete_turn] at hmoves
  exact hmoves

theorem keeps_listDelete {m : BitVec 32} (h : Sound s) (hfaithful : s.Faithful) (hnamed : Named s.reg e)
    (hn : n ≤ s.dev.numOfPorts) : (Edit.listDelete m n).Keeps e s ↔ (Edit.listDelete m n).Suits e s := by
  have hl := masked_lt (m := m) hn
  have hsorted := masked_sorted m n
  have he := hnamed.entry
  have hturns : Turns (deletePort e (vidOf s.reg e)) s.reg (Untags s.reg) 0 := turns_delete he
  refine (h.keeps_iff hfaithful (moves_listDelete h he hn) (fun e he => hturns.vidOf_eq hl he)
    fun t ht q hq => ?_).trans ?_
  · obtain ⟨u, hu⟩ := hturns.between hl hsorted hq
    rw [ht, hu.ends e he]
    exact isMember_delete he (hl q hq)
  · exact forall₂_congr fun q hq => home_listDelete hl hsorted (port_lt hq) hnamed (h.home q hq)

/-- The ports leave, and the entry loses its VID. -/
theorem gives_delete (h : Sound s) (hfaithful : s.Faithful) (he : e < 32) :
    Gives (RCP_SetVlanDelete e .RCP_CONFIG_2_REGISTER) s fun _ t => Copied (withCachedVid s.dev e 0)
      (write (run (turn (deletePort e (vidOf s.reg e))) s.reg
        ((List.range s.dev.numOfPorts).filter (isMember s.reg e))) ⟨vidAt e, 0⟩) t := by
  have hs := h.copied hfaithful
  rw [RCP_SetVlanDelete, Gives, meets_bind, meets_get, meets_bind]
  refine (copied_books.getPort s hs).imp ?_ fun _ _ h => h
  rintro _ t ⟨rfl, ht⟩
  rw [meets_bind, ← masked_portBits]
  refine (moves_listDelete h he le_rfl t ht).imp ?_ fun _ _ h => h
  rintro _ u ⟨-, hu⟩
  rw [meets_setVlanVID hu.faithful he]
  exact hu.setVid he

theorem keeps_delete (h : Sound s) (hfaithful : s.Faithful) (hnamed : Named s.reg e) :
    Edit.delete.Keeps e s ↔ Edit.delete.Suits e s := by
  have he := hnamed.entry
  have hl : ∀ q ∈ (List.range s.dev.numOfPorts).filter (isMember s.reg e), q < 32 :=
    fun q hq => port_lt (List.mem_range.mp (List.mem_filter.mp hq).1)
  have hsorted : ((List.range s.dev.numOfPorts).filter (isMember s.reg e)).Pairwise (· < ·) :=
    List.Pairwise.filter _ List.pairwise_lt_range
  have hturns : Turns (deletePort e (vidOf s.reg e)) s.reg (Untags s.reg) 0 := turns_delete he
  obtain ⟨_, t, hcall, ht⟩ := (gives_delete h hfaithful he).exists
  generalize hr : run (turn (deletePort e (vidOf s.reg e))) s.reg
    ((List.range s.dev.numOfPorts).filter (isMember s.reg e)) = r at ht
  have hvids : ∀ e' < 32, vidOf t.reg e' = if e' = e then 0 else vidOf s.reg e' := by
    intro e' he'
    rw [ht.reg, vidOf_write he he' (by decide), ← hr, hturns.vidOf_eq hl he']
  have hhome : ∀ q < 32, Home t.reg q ↔ Home r q := by
    intro q hq
    have hindex : indexOf t.reg q = indexOf r q := by
      rw [ht.reg, indexOf, read_write (index_uncached hq e he).2.symm, indexOf]
    rw [Home, Home, hindex, ht.reg, isMember_write (member_apart_vid (indexOf_lt ..) hq he).symm]
  have hn : t.dev.numOfPorts = s.dev.numOfPorts := ht.numOfPorts
  have hsuits : (∀ q < s.dev.numOfPorts, Home r q) ↔ Edit.delete.Suits e s := by
    rw [← hr]
    exact forall₂_congr fun q hq => home_listDelete hl hsorted (port_lt hq) hnamed (h.home q hq)
  rw [← hsuits]
  constructor
  · intro hkeeps q hq
    exact (hhome q (port_lt hq)).mp ((hkeeps t hcall).1.home q (hn ▸ hq))
  · intro hhomes u hu
    obtain rfl : t = u := by
      have hsame := hcall.symm.trans hu
      injection hsame
    refine ⟨⟨ht.coherent, ?_, ?_, fun q hq => (hhome q (port_lt (hn ▸ hq))).mpr (hhomes q (hn ▸ hq))⟩, trivial⟩
    · rw [hvids 0 (by decide), if_neg (Ne.symm hnamed.other)]
      exact h.first
    · intro e' he' e'' he''
      rw [hvids e' he', hvids e'' he'']
      split_ifs
      · simp
      · simp
      · exact fun hne heq => absurd heq hne
      · exact h.distinct e' he' e'' he''

/-! ## No port is orphaned -/

end

/-- Eight ports with the uplink at port 1. Port 2 is tagged in the VLANs 2 and 3, and its PVID is 2; the
others are in VLAN 1. -/
def sample : State where
  dev := ⟨.GH1508, 0, 1, fun e => if e = 0 then 0xfd else if e = 1 ∨ e = 2 then 0x02 else 0,
    fun e => if e ≤ 2 then BitVec.ofNat 16 (e + 1) else 0, 0⟩
  reg a :=
    if a = 0x030C then 0x100 else if a = 0x0319 then 0xc
    else if a = 0x031D then 0xfd else if a = 0x031F then 1
    else if a = 0x0320 ∨ a = 0x0323 then 0x02 else if a = 0x0322 then 2 else if a = 0x0325 then 3 else 0
  eeprom _ := 0
  writes := []
  writeFails _ _ := false
  behind := 0
  words := []

theorem sample_sound : Sound sample where
  coherent := ⟨by decide +kernel, by decide +kernel⟩
  first := by decide
  distinct := by decide +kernel
  home := by decide +kernel

end gwdonu.vlan_homes
