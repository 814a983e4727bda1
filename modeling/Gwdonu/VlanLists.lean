-- The calls that edit a list of ports, as writes to fields: what each of them leaves in the
-- registers, port after port.
import Gwdonu.VlanEdits

namespace gwdonu.vlan_lists

open Function calls runs writes rcp_registers register_fields vlans vlan_table vlan_edits
open rcp (RCP_RET)

/-! ## The writes of one port -/

/-- The entries but one. -/
def others (n : Nat) : List Nat := (List.range MAX_RCP_VLAN_NUM).filter (· ≠ n)

/-- The port leaves all entries but one. -/
def leaveOthers (n q : Nat) : List (Write 16) := (others n).map fun e => ⟨memberAt e q, 0⟩

def untagPort (n : Nat) (num : BitVec 16) (mgtPort q : Nat) : List (Write 16) :=
  leaveOthers n q ++ [⟨memberAt n q, 1⟩] ++ (if q + 1 ≠ mgtPort then [⟨indexAt q, num⟩] else []) ++
    [⟨insertAt q, 0⟩, ⟨tagAt q, 0⟩]

def tagPort (n q : Nat) : List (Write 16) := [⟨insertAt q, 1⟩, ⟨memberAt n q, 1⟩, ⟨tagAt q, 3⟩]

/-- The number of entries that have the port. -/
def tagCount (r : Regs 16) (q : Nat) : Nat := (List.range MAX_RCP_VLAN_NUM).countP fun e => isMember r e q

/-- Back to the entry `num`, for a port that has `tagnum` entries. -/
def backPort (num : BitVec 16) (r : Regs 16) (tagnum q : Nat) : List (Write 16) :=
  if q + 1 ≠ 1 then [⟨indexAt q, num⟩, ⟨insertAt q, 0⟩, ⟨tagAt q, 0⟩, ⟨memberAt 0 q, 1⟩]
  else if tagnum = 2 ∧ isMember r 0 q then [⟨insertAt q, 0⟩, ⟨tagAt q, 0⟩]
  else if tagnum = 1 ∧ isMember r 0 q = false then [⟨insertAt q, 0⟩, ⟨tagAt q, 0⟩, ⟨memberAt 0 q, 1⟩]
  else []

/-- The writes for a port whose frames go out tagged, as the registers are before them. -/
def leaveTagged (num vid : BitVec 16) (r : Regs 16) (q : Nat) : List (Write 16) :=
  let pvid := vidOf r (indexOf r q)
  (if (pvid = 1 ∧ tagCount r q = 2) ∨ tagCount r q = 1 then backPort num r (tagCount r q) q else []) ++
    if pvid = vid then [⟨indexAt q, num⟩] else []

def leaveUntagged (num : BitVec 16) (q : Nat) : List (Write 16) :=
  [⟨indexAt q, num⟩, ⟨tagAt q, 0⟩, ⟨memberAt 0 q, 1⟩]

def leave (num vid : BitVec 16) (r : Regs 16) (q : Nat) : List (Write 16) :=
  if tagOf r q = 0 then leaveUntagged num q else leaveTagged num vid r q

/-- One turn of the loop of `RCP_SetVlanPortListDelete`. -/
def delete (n : Nat) (num vid : BitVec 16) (r : Regs 16) (q : Nat) : Regs 16 :=
  write (run write r (leave num vid r q)) ⟨memberAt n q, 0⟩

/-- The first entry with VID 1, or entry 0. -/
def first (d : RCP_DEV) : BitVec 16 := BitVec.ofNat 16 (numFromVID d 1)

/-- The ports of a mask. -/
def masked (portList : BitVec 32) (n : Nat) : List Nat := (List.range n).filter portList.getLsbD

section
variable {d : RCP_DEV} {r r' : Regs 16} {n q e : Nat} {vid : BitVec 16} {m : BitVec 32}

/-! ## Loops -/

theorem bit_iff (m : BitVec 32) (q : Nat) : (m >>> q) &&& 0x1 = 1 ↔ m.getLsbD q = true := by
  constructor
  · intro hone
    have hbit := congrArg (BitVec.getLsbD · 0) hone
    simpa using hbit
  · intro htrue
    apply BitVec.eq_of_getLsbD_eq
    intro i _
    by_cases hzero : i = 0
    · subst hzero
      simpa using htrue
    · simp [hzero]

section
variable {R : Regs 16 → State → Prop} {k : Nat}

theorem moves_forPorts {f : Nat → Rcp Unit} {F : Regs 16 → Nat → Regs 16}
    (h : ∀ q < d.numOfPorts, ∀ r, Moves R (f (q + 1)) r () (F r q)) {dev : RCP_DEV}
    (hdev : dev.numOfPorts = d.numOfPorts) (hn : n ≤ d.numOfPorts) (r : Regs 16) :
    Moves R (forPorts dev m n f) r () (run F r (masked m n)) := by
  have hloop : ∀ l : List Nat, (∀ q ∈ l, q < d.numOfPorts) → ∀ r,
      Moves R (forM l fun phyPort =>
        if (m >>> phyPort) &&& 0x1 = 1 then f (RCPPort2LPort dev phyPort) else pure ()) r ()
        (run F r (l.filter m.getLsbD)) := by
    intro l
    induction l with
    | nil => exact fun _ _ => moves_pure
    | cons q l ih =>
      intro hl r
      obtain ⟨hq, hl⟩ := List.forall_mem_cons.mp hl
      have hport : RCPPort2LPort dev q = q + 1 := by rw [RCPPort2LPort, if_pos (hdev ▸ hq)]
      rw [List.forM_cons, hport]
      by_cases hm : m.getLsbD q
      · rw [if_pos ((bit_iff m q).mpr hm), List.filter_cons_of_pos hm]
        exact (h q hq r).bind (ih hl _)
      · rw [if_neg fun hin => hm ((bit_iff m q).mp hin), List.filter_cons_of_neg hm]
        exact moves_pure.bind (ih hl _)
  exact hloop (List.range n) (fun q hq => Nat.lt_of_lt_of_le (List.mem_range.mp hq) hn) r

variable (hR : Books d R)
include hR

/-- The loop that takes the port out of the other entries. Where it is no member, there is
nothing to clear. -/
theorem moves_leaveOthers (hq : q < d.numOfPorts) :
    Moves R (forM (List.range MAX_RCP_VLAN_NUM) fun e => do
      let exist ← RCP_GetVlanPortExist 1 (q + 1) e
      when (exist ∧ e ≠ n) (RCP_SetVlanPortDelete 1 (q + 1) e .RCP_CONFIG_2_REGISTER)) r ()
      (run write r (leaveOthers n q)) := by
  have hrun : run write r (leaveOthers n q) =
      run (fun r e => if e ≠ n then write r ⟨memberAt e q, 0⟩ else r) r (List.range MAX_RCP_VLAN_NUM) := by
    unfold leaveOthers others run
    rw [List.foldl_map, List.foldl_filter]
    simp
  rw [hrun]
  refine moves_forM (fun e he r => ?_) r
  have he : e < 32 := List.mem_range.mp he
  refine (hR.exist hq he).bind (moves_when ?_ ?_)
  · rintro ⟨-, hne⟩
    rw [if_pos hne]
    exact hR.delete hq he
  · intro hno
    split_ifs with hne
    · have hout : isMember r e q = false := by simpa [hne] using hno
      exact write_member hout (.inl rfl)
    · rfl

/-! ## The lists -/

theorem moves_untagPortList (hn : n < 32) (hk : k ≤ d.numOfPorts) (r : Regs 16) :
    Moves R (RCP_SetVlanUntagPortList n m k .RCP_CONFIG_2_REGISTER) r ()
      (run (fun t q => run write t
        (untagPort n (BitVec.ofNat 16 (numFromVID d (vidOf r n))) (RCPPort2LPort d d.upLinkPort) q)) r
        (masked m k)) := by
  refine moves_get fun s hs => (hR.getVid n).bind (moves_forPorts (fun q hq t => ?_) (hR.numOfPorts hs) hk r)
  have hmgt : RCPPort2LPort s.dev s.dev.upLinkPort = RCPPort2LPort d d.upLinkPort := by
    rw [hR.dev hs]
    rfl
  rw [hmgt, untagPort, run_append, run_append, run_append]
  refine (moves_leaveOthers hR hq).bind ((hR.add hq hn).bind ?_)
  exact (moves_when_run fun _ => hR.pvid hq).bind ((hR.insert hq).bind (hR.tag hq))

theorem moves_tagPortList (hn : n < 32) (hk : k ≤ d.numOfPorts) (r : Regs 16) :
    Moves R (RCP_SetVlanTaggedPortList n m k .RCP_CONFIG_2_REGISTER) r ()
      (run (fun r q => run write r (tagPort n q)) r (masked m k)) := by
  refine moves_get fun s hs => moves_forPorts (fun q hq r => ?_) (hR.numOfPorts hs) hk r
  exact (hR.insert hq).bind ((hR.add hq hn).bind (hR.tag hq))

theorem moves_countTags (hq : q < d.numOfPorts) : Moves R (countTags (q + 1)) r (tagCount r q) r := by
  have hloop : ∀ (l : List Nat), (∀ e ∈ l, e < 32) → ∀ k, Moves R (l.foldlM (fun tagnum num => do
      let existed ← RCP_GetVlanPortExist 1 (q + 1) num
      return if existed then tagnum + 1 else tagnum) k) r (k + l.countP fun e => isMember r e q) r := by
    intro l
    induction l with
    | nil => exact fun _ _ => moves_pure
    | cons e l ih =>
      intro hl k
      obtain ⟨he, hl⟩ := List.forall_mem_cons.mp hl
      rw [List.foldlM_cons]
      have hnext := ih hl (if isMember r e q then k + 1 else k)
      have hturn : Moves R (do
          let existed ← RCP_GetVlanPortExist 1 (q + 1) e
          return if existed then k + 1 else k) r (if isMember r e q then k + 1 else k) r :=
        (hR.exist hq he).bind moves_pure
      refine hturn.bind ?_
      cases hmember : isMember r e q with
      | true =>
        rw [hmember, if_pos rfl] at hnext
        rw [if_pos rfl, List.countP_cons, hmember, if_pos rfl, ← Nat.add_assoc, Nat.add_right_comm]
        exact hnext
      | false =>
        rw [hmember, if_neg Bool.false_ne_true] at hnext
        rw [if_neg Bool.false_ne_true, List.countP_cons, hmember, if_neg Bool.false_ne_true]
        exact hnext
  have hcount := hloop (List.range MAX_RCP_VLAN_NUM) (fun e he => List.mem_range.mp he) 0
  rw [Nat.zero_add] at hcount
  exact hcount

theorem moves_leaveUntagged (hq : q < d.numOfPorts) :
    Moves R (deleteUntagged .RCP_CONFIG_2_REGISTER (q + 1)) r () (run write r (leaveUntagged (first d) q)) :=
  (hR.pvid hq).bind ((hR.tag hq).bind (hR.add hq (by decide)))

/-- The part of `deleteTagged` for a port that goes back to the first entry. -/
theorem moves_backPort (hq : q < d.numOfPorts) (tagnum : Nat) :
    Moves R (if q + 1 ≠ 1 then backToFirst (q + 1) .RCP_CONFIG_2_REGISTER
      else firstPortBack tagnum (q + 1) .RCP_CONFIG_2_REGISTER) r () (run write r (backPort (first d) r tagnum q)) := by
  unfold backPort
  by_cases hone : q + 1 ≠ 1
  · rw [if_pos hone, if_pos hone]
    exact (hR.pvid hq).bind ((hR.insert hq).bind ((hR.tag hq).bind (hR.add hq (by decide))))
  rw [if_neg hone, if_neg hone]
  unfold firstPortBack
  by_cases htwo : tagnum = 2
  · have hone : ¬ tagnum = 1 := by omega
    have hlist (l l' : List (Write 16)) : (if tagnum = 2 ∧ isMember r 0 q = true then l
        else if tagnum = 1 ∧ isMember r 0 q = false then l' else []) = if isMember r 0 q = true then l else [] := by
      simp [htwo]
    rw [when_true htwo, when_false hone, hlist]
    refine Moves.bind (?_ : Moves R _ r () _) moves_pure
    exact (hR.exist hq (by decide)).bind (moves_when_run fun _ => (hR.insert hq).bind (hR.tag hq))
  · rw [when_false htwo, if_neg fun h => htwo h.1]
    refine moves_pure.bind (moves_when ?_ ?_)
    · rintro rfl
      refine (hR.exist hq (by decide)).bind (moves_when ?_ ?_)
      · intro hmember
        rw [if_pos ⟨rfl, Bool.not_eq_true _ ▸ hmember⟩]
        exact (hR.insert hq).bind ((hR.tag hq).bind (hR.add hq (by decide)))
      · intro hmember
        rw [if_neg fun h => hmember (by simp [h.2])]
        rfl
    · intro hone
      rw [if_neg fun h => hone h.1]
      rfl

theorem moves_leaveTagged (hq : q < d.numOfPorts) :
    Moves R (deleteTagged vid .RCP_CONFIG_2_REGISTER (q + 1)) r () (run write r (leaveTagged (first d) vid r q)) := by
  refine (moves_countTags hR hq).bind ((hR.getPvid hq).bind ?_)
  unfold leaveTagged
  dsimp only
  rw [run_append]
  exact (moves_when_run fun _ => moves_backPort hR hq _).bind (moves_when_run fun _ => hR.pvid hq)

theorem moves_deletePort (hq : q < d.numOfPorts) (hn : n < 32) :
    Moves R (deletePort n vid .RCP_CONFIG_2_REGISTER (q + 1)) r () (delete n (first d) vid r q) := by
  refine (hR.getTag hq).bind ?_
  unfold delete leave
  by_cases htag : tagOf r q = 0
  · rw [when_true htag, when_false (not_not.mpr htag), if_pos htag]
    exact (moves_leaveUntagged hR hq).bind (moves_pure.bind (hR.delete hq hn))
  · rw [when_false htag, when_true htag, if_neg htag]
    exact moves_pure.bind ((moves_leaveTagged hR hq).bind (hR.delete hq hn))

theorem moves_deletePortList (hn : n < 32) (hk : k ≤ d.numOfPorts) (r : Regs 16) :
    Moves R (RCP_SetVlanPortListDelete n m k .RCP_CONFIG_2_REGISTER) r ()
      (run (delete n (first d) (vidOf r n)) r (masked m k)) :=
  moves_get fun _ hs => (hR.getVid n).bind
    (moves_forPorts (fun _ hq _ => moves_deletePort hR hq hn) (hR.numOfPorts hs) hk r)

end

/-! ## Where the cache agrees -/

theorem evals_leaveOthers (hq : q < d.numOfPorts) :
    Evals d (forM (List.range MAX_RCP_VLAN_NUM) fun e => do
      let exist ← RCP_GetVlanPortExist 1 (q + 1) e
      when (exist ∧ e ≠ n) (RCP_SetVlanPortDelete 1 (q + 1) e .RCP_CONFIG_2_REGISTER)) r ()
      (run write r (leaveOthers n q)) := moves_leaveOthers at_books hq

theorem evals_untagPortList (hn : n < 32) (r : Regs 16) :
    Evals d (RCP_SetVlanUntagPortList n m d.numOfPorts .RCP_CONFIG_2_REGISTER) r ()
      (run (fun t q => run write t
        (untagPort n (BitVec.ofNat 16 (numFromVID d (vidOf r n))) (RCPPort2LPort d d.upLinkPort) q)) r
        (masked m d.numOfPorts)) := moves_untagPortList at_books hn le_rfl r

theorem evals_tagPortList (hn : n < 32) (r : Regs 16) :
    Evals d (RCP_SetVlanTaggedPortList n m d.numOfPorts .RCP_CONFIG_2_REGISTER) r ()
      (run (fun r q => run write r (tagPort n q)) r (masked m d.numOfPorts)) := moves_tagPortList at_books hn le_rfl r

theorem evals_leaveTagged (hq : q < d.numOfPorts) :
    Evals d (deleteTagged vid .RCP_CONFIG_2_REGISTER (q + 1)) r () (run write r (leaveTagged (first d) vid r q)) :=
  moves_leaveTagged at_books hq

theorem evals_delete_port (hq : q < d.numOfPorts) (hn : n < 32) :
    Evals d (deletePort n vid .RCP_CONFIG_2_REGISTER (q + 1)) r () (delete n (first d) vid r q) :=
  moves_deletePort at_books hq hn

theorem evals_deletePortList (hn : n < 32) (r : Regs 16) :
    Evals d (RCP_SetVlanPortListDelete n m d.numOfPorts .RCP_CONFIG_2_REGISTER) r ()
      (run (delete n (first d) (vidOf r n)) r (masked m d.numOfPorts)) := moves_deletePortList at_books hn le_rfl r

theorem masked_portBits (d : RCP_DEV) (r : Regs 16) (e : Nat) :
    masked (portBits d r e) d.numOfPorts = (List.range d.numOfPorts).filter (isMember r e) := by
  refine List.filter_congr fun q hq => ?_
  have hq := List.mem_range.mp hq
  have hwide : 16 < d.numOfPorts ∨ q < 16 := by omega
  rw [portBits_bit (port_lt hq), decide_eq_true hwide, Bool.true_and]

/-- The ports leave the entry, and it has no VID any more. -/
theorem gives_vlanDelete {s : State} (hn : n < 32) (hs : At d r s) :
    Gives (RCP_SetVlanDelete n .RCP_CONFIG_2_REGISTER) s fun _ t => At (withCachedVid d n 0)
      (write (run (delete n (first d) (vidOf r n)) r ((List.range d.numOfPorts).filter (isMember r n))) ⟨vidAt n, 0⟩)
      t := by
  rw [RCP_SetVlanDelete, Gives, meets_bind, meets_get, meets_bind]
  refine (at_books.getPort s hs).imp ?_ fun _ _ h => h
  rintro _ t ⟨rfl, ht⟩
  rw [meets_bind, hs.numOfPorts, ← masked_portBits]
  refine (evals_deletePortList hn r t ht).imp ?_ fun _ _ h => h
  rintro _ u ⟨-, hu⟩
  rw [meets_setVlanVID hu.faithful hn]
  exact hu.setVid hn (by decide)

end

end gwdonu.vlan_lists
