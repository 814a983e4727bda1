-- The VLAN commands and the calls that edit a list of ports end in the same registers and the
-- same cache, unless the list has the management port.
import Gwdonu.VlanCli
import Gwdonu.VlanOrder

namespace gwdonu.vlan_agreement

open Function calls runs writes rcp_registers vlans vlan_edits vlan_lists vlan_order vlan_cli
open vlan_table (numOfPorts_le)

/-! ## The law -/

/-- The mask of a list of ports. -/
def portMask (portList : List Nat) : BitVec 32 := portList.foldl (fun m ulPort => m ||| 1#32 <<< (ulPort - 1)) 0

/-- The VIDs are in use, the cache agrees with the switch, and the VID names this entry and no other. -/
structure Entry (s : State) (n : Nat) (vid : BitVec 16) : Prop where
  coherent : At s.dev s.reg s
  enabled : fields.get (s.reg 0x030B) 4 1 ≠ 0
  together : s.dev.vlanPortIsolate ≠ 1
  entry : n < 32
  named : s.dev.vlanVid n = vid
  unique : ∀ e < 32, s.dev.vlanVid e = vid → e = n

/-- The command prints nothing, the call returns `RCP_OK`, and they leave the same switch and cache. -/
def EndsAs (s : State) (x : Rcp Reply) (y : Rcp Unit) : Prop :=
  ∃ t u, x s = .ok .done t ∧ y s = .ok () u ∧ t.reg = u.reg ∧ t.dev = u.dev

/-- The commands that name the VLAN with `arg` do what the calls do. -/
structure Agree (s : State) (n : Nat) (arg text : List Char) (portList : List Nat) : Prop where
  untagged : ∀ mode, unsignedShort (atoi mode) = 2 →
    EndsAs s (cli_int_vlan_dotlq_port_add [arg, text, mode] portList)
      (RCP_SetVlanUntagPortList n (portMask portList) s.dev.numOfPorts .RCP_CONFIG_2_REGISTER)
  tagged : ∀ mode, unsignedShort (atoi mode) ≠ 2 →
    EndsAs s (cli_int_vlan_dotlq_port_add [arg, text, mode] portList)
      (RCP_SetVlanTaggedPortList n (portMask portList) s.dev.numOfPorts .RCP_CONFIG_2_REGISTER)
  taken : portList.Nodup → (∀ ulPort ∈ portList, isMember s.reg n (ulPort - 1)) →
    EndsAs s (cli_int_vlan_dotlq_port_del [arg, text] portList)
      (RCP_SetVlanPortListDelete n (portMask portList) s.dev.numOfPorts .RCP_CONFIG_2_REGISTER)
  deleted : EndsAs s (cli_int_vlan_dotlq_del [arg]) (RCP_SetVlanDelete n .RCP_CONFIG_2_REGISTER)

/-- No port stands behind one whose index register holds its tag, but in front of it by number. -/
def Ordered (portList : List Nat) : Prop :=
  portList.Pairwise fun a b => b < a → (indexAt (a - 1)).Apart (tagAt (b - 1))

/-! ## Commands -/

section
variable {d : RCP_DEV} {r r' r'' : Regs 16} {s : State} {x : Rcp Reply} {y : Rcp Unit} {reply : Reply} {n q : Nat}
  {vid : BitVec 16} {portList : List Nat}

theorem endsAs_iff (hx : Evals d x r .done r') (hy : Evals d y r () r'') (hs : At d r s) : EndsAs s x y ↔ r' = r'' := by
  obtain ⟨t, hxt, ht⟩ := hx.ends hs
  obtain ⟨u, hyu, hu⟩ := hy.ends hs
  constructor
  · rintro ⟨t', u', hxt', hyu', hreg, -⟩
    obtain ⟨-, rfl⟩ := EStateM.Result.ok.inj (hxt.symm.trans hxt')
    obtain ⟨-, rfl⟩ := EStateM.Result.ok.inj (hyu.symm.trans hyu')
    exact ht.reg.symm.trans (hreg.trans hu.reg)
  · rintro rfl
    obtain ⟨hreg, hdev⟩ := hu.unique ht
    exact ⟨t, u, hxt, hyu, hreg, hdev⟩

theorem gives_command {Q : Reply → State → Prop} (h : Gives x s Q) : Gives (command x) s Q := by
  obtain ⟨reply, t, hx, ht⟩ := h.exists
  unfold Gives Meets command
  rw [hx]
  exact ht

theorem gives_dotlq {Q : Reply → State → Prop} (hon : fields.get (s.reg 0x030B) 4 1 ≠ 0)
    (hiso : s.dev.vlanPortIsolate ≠ 1) (h : Gives x s Q) : Gives (dotlq x) s Q := by
  rw [dotlq, Gives, meets_bind, RCP_GetVlanPortIsolate, meets_bind, meets_get, meets_pure, meets_bind,
    RCP_GetVlan8021Q, meets_getRegField, if_neg hon, if_neg hiso]
  exact h

theorem at_dotlq {Q : Reply → State → Prop} (hs : At d r s) (hon : fields.get (r 0x030B) 4 1 ≠ 0)
    (hiso : d.vlanPortIsolate ≠ 1) (h : Gives x s Q) : Gives (dotlq x) s Q := by
  have hdev : s.dev.vlanPortIsolate = d.vlanPortIsolate := by rw [hs.dev]
  exact gives_dotlq (hs.reg ▸ hon) (hdev ▸ hiso) h

theorem evals_vlanExist : Evals d (RCP_GetVlanExist vid) r (vlan_cli.exist d vid) r := by
  refine evals_get fun s hs => ?_
  have hexist : vlan_cli.exist s.dev vid = vlan_cli.exist d vid := by
    rw [hs.dev]
    rfl
  rw [hexist]
  exact evals_pure

theorem evals_mgtPort (h : d.upLinkPort < d.numOfPorts) :
    Evals d Rcp_Get_MGT_Port r (RCPPort2LPort d d.upLinkPort) r := by
  refine evals_get fun s hs => ?_
  have hin : ¬ s.dev.upLinkPort > s.dev.numOfPorts := by
    rw [hs.numOfPorts, hs.dev]
    exact Nat.not_lt.mpr h.le
  have hport : RCPPort2LPort s.dev s.dev.upLinkPort = RCPPort2LPort d d.upLinkPort := by
    rw [hs.dev]
    rfl
  rw [if_neg hin, hport]
  exact evals_pure

/-! ## Lists of ports -/

theorem evals_eachPort {f : Nat → Rcp Reply} {F : Regs 16 → Nat → Regs 16}
    (h : ∀ q < d.numOfPorts, ∀ r, Evals d (f (q + 1)) r .done (F r q)) (hL : ∀ p ∈ portList, 1 ≤ p ∧ p ≤ d.numOfPorts)
    (r : Regs 16) : Evals d (eachPort f portList) r .done (run F r (portList.map Nat.pred)) := by
  induction portList generalizing r with
  | nil => exact evals_pure
  | cons p rest ih =>
    obtain ⟨⟨hlo, hhi⟩, hrest⟩ := List.forall_mem_cons.mp hL
    obtain ⟨q, rfl⟩ : ∃ q, p = q + 1 := ⟨p - 1, by omega⟩
    refine evals_get fun s hs => ?_
    rw [hs.numOfPorts, if_neg (by omega)]
    refine (h q hhi r).bind ?_
    rw [if_pos rfl]
    exact ih hrest _

/-- The writes for one port, in their order. -/
def cliUntag (n : Nat) (num : BitVec 16) (mgtPort q : Nat) : List (Write 16) :=
  (if q + 1 ≠ mgtPort then [⟨insertAt q, 0⟩, ⟨indexAt q, num⟩] else []) ++ [⟨memberAt n q, 1⟩] ++ leaveOthers n q ++
    [⟨tagAt q, 0⟩]

/-- One turn of the loop of the command. -/
def addPort (n : Nat) (num : BitVec 16) (mgtPort : Nat) (r : Regs 16) (q : Nat) : Regs 16 :=
  run write r (cliUntag n num mgtPort q)

theorem evals_addUntagged (hq : q < d.numOfPorts) (hn : n < 32) (hnum : numFromVID d vid = n) (mgtPort : Nat) :
    Evals d (addUntagged vid mgtPort (q + 1)) r .done
      (addPort n (BitVec.ofNat 16 (numFromVID d vid)) mgtPort r q) := by
  rw [addPort, cliUntag, run_append, run_append, run_append]
  refine evals_numFromVID.bind ?_
  refine (evals_when_run (l := [⟨insertAt q, 0⟩, ⟨indexAt q, BitVec.ofNat 16 (numFromVID d vid)⟩]) fun _ =>
    (evals_insert hq).bind (evals_pvid hq)).bind ?_
  rw [hnum]
  exact (evals_add hq hn).bind ((evals_leaveOthers hq).bind ((evals_tag hq).bind evals_pure))

theorem evals_addTagged (hq : q < d.numOfPorts) (hn : n < 32) (hnum : numFromVID d vid = n) :
    Evals d (addTagged vid (q + 1)) r .done (run write r (tagPort n q)) := by
  refine evals_numFromVID.bind ?_
  rw [hnum]
  exact (evals_insert hq).bind ((evals_add hq hn).bind ((evals_tag hq).bind evals_pure))

theorem evals_leavePort (hq : q < d.numOfPorts) :
    Evals d (leavePort vid (q + 1)) r () (run write r (leave (first d) vid r q)) := by
  refine (evals_getTag hq).bind ?_
  unfold leave
  split_ifs with htag
  · -- the tag is 0 already, and the index register of a port does not hold its own tag
    have hsame : write (write r ⟨indexAt q, first d⟩) ⟨tagAt q, 0⟩ = write r ⟨indexAt q, first d⟩ := by
      refine write_eq_self ?_
      rw [read_write (index_apart_tag (port_lt hq) le_rfl (port_lt hq))]
      exact htag
    rw [leaveUntagged, run_cons, run_cons, hsame]
    exact (evals_pvid hq).bind (evals_add hq (by decide))
  · exact evals_leaveTagged hq

theorem evals_takePort (hq : q < d.numOfPorts) (hn : n < 32) (hin : isMember r n q) :
    Evals d (takePort vid n (q + 1)) r .done (delete n (first d) vid r q) := by
  refine (evals_exist hq hn).bind ?_
  rw [hin, if_neg (by decide)]
  exact (evals_delete_port hq hn).bind evals_pure

/-- The list without a port twice, all of them members. -/
theorem evals_takePorts (hn : n < 32) (hL : ∀ p ∈ portList, 1 ≤ p ∧ p ≤ d.numOfPorts) (hnodup : portList.Nodup)
    (hin : ∀ p ∈ portList, isMember r n (p - 1)) :
    Evals d (eachPort (takePort vid n) portList) r .done (run (delete n (first d) vid) r (portList.map Nat.pred)) := by
  induction portList generalizing r with
  | nil => exact evals_pure
  | cons p rest ih =>
    obtain ⟨q, rfl⟩ : ∃ q, p = q + 1 := ⟨p - 1, by have hlo := (hL p List.mem_cons_self).1; omega⟩
    obtain ⟨⟨-, hhi⟩, hrest⟩ := List.forall_mem_cons.mp hL
    obtain ⟨hp, hin⟩ := List.forall_mem_cons.mp hin
    obtain ⟨hnot, hnodup⟩ := List.nodup_cons.mp hnodup
    have hq : q < 32 := port_lt hhi
    refine evals_get fun s hs => ?_
    rw [hs.numOfPorts, if_neg (by omega)]
    refine (evals_takePort hhi hn hp).bind ?_
    rw [if_pos rfl]
    refine ih hrest hnodup fun p' hp' => ?_
    obtain ⟨q', rfl⟩ : ∃ q', p' = q' + 1 := ⟨p' - 1, by have hlo := (hrest p' hp').1; omega⟩
    have hne : q' ≠ q := by
      rintro rfl
      exact hnot hp'
    have hsame : isMember (delete n (first d) vid r q) n q' = isMember r n q' := by
      rw [delete_eq]
      exact isMember_other (ofPort_delete hn) hn hq (port_lt (hrest _ hp').2) hne.symm
    have hp' := hin _ hp'
    rw [Nat.add_sub_cancel] at hp' ⊢
    rw [hsame, hp']

/-! ## Ports added -/

/-- The writes that the command makes for every port. -/
def untagRest (n : Nat) (num : BitVec 16) (mgtPort q : Nat) : List (Write 16) :=
  (if q + 1 ≠ mgtPort then [⟨indexAt q, num⟩] else []) ++ [⟨memberAt n q, 1⟩] ++ leaveOthers n q ++ [⟨tagAt q, 0⟩]

/-- What an added port has in its fields. -/
def untagValue (n : Nat) (num : BitVec 16) : PortField → BitVec 16
  | .index => num
  | .insert | .tag => 0
  | .member e => if e = n then 1 else 0

theorem untagRest_value {num : BitVec 16} {mgtPort : Nat} (hn : n < 32) : ∀ x ∈ untagRest n num mgtPort q,
    ∃ f : PortField, f.InTable ∧ f ≠ .insert ∧ x = ⟨f.place q, untagValue n num f⟩ := by
  intro x hx
  simp only [untagRest, List.mem_append, List.mem_singleton] at hx
  rcases hx with ((hx | rfl) | hx) | rfl
  · split_ifs at hx
    · obtain rfl := List.mem_singleton.mp hx
      exact ⟨.index, inTable_of_ne (by simp), by simp, rfl⟩
    · cases hx
  · exact ⟨.member n, inTable_member hn, by simp, by rw [untagValue, if_pos rfl]; rfl⟩
  · obtain ⟨e, he, rfl⟩ := List.mem_map.mp hx
    obtain ⟨he, hne⟩ := List.mem_filter.mp he
    have hne : e ≠ n := by simpa using hne
    exact ⟨.member e, inTable_member (List.mem_range.mp he), by simp,
      by rw [untagValue, if_neg hne]; rfl⟩
  · exact ⟨.tag, inTable_of_ne (by simp), by simp, rfl⟩

theorem cliUntag_ofPort {num : BitVec 16} {mgtPort : Nat} (hn : n < 32) :
    ∀ x ∈ cliUntag n num mgtPort q, OfPort q x := by
  intro x hx
  simp only [cliUntag, List.mem_append, List.mem_singleton] at hx
  rcases hx with ((hx | rfl) | hx) | rfl
  · split_ifs at hx
    · rcases List.mem_cons.mp hx with rfl | hx
      · exact ofPort_insert q 0
      · obtain rfl := List.mem_singleton.mp hx
        exact ofPort_index q num
    · cases hx
  · exact ofPort_member hn q 1
  · exact ofPort_leaveOthers x hx
  · exact ofPort_tag q 0

theorem cliUntag_run (num : BitVec 16) (mgtPort : Nat) : run write r (cliUntag n num mgtPort q) =
    run write (if q + 1 ≠ mgtPort then write r ⟨insertAt q, 0⟩ else r) (untagRest n num mgtPort q) := by
  unfold cliUntag untagRest
  split_ifs <;> rfl

/-- The call makes the same writes in another order, and sets the insertion for every port. -/
theorem untagPort_run (num : BitVec 16) (mgtPort : Nat) (hn : n < 32) (hq : q < 32) :
    run write r (untagPort n num mgtPort q) = run write (write r ⟨insertAt q, 0⟩) (untagRest n num mgtPort q) := by
  have hperm : (untagPort n num mgtPort q).Perm (⟨insertAt q, 0⟩ :: untagRest n num mgtPort q) := by
    refine List.perm_iff_count.mpr fun x => ?_
    simp only [untagPort, untagRest, List.count_append, List.count_cons, List.count_nil]
    omega
  have hvalue : ∀ x ∈ untagPort n num mgtPort q, ∃ f : PortField, f.InTable ∧ x = ⟨f.place q, untagValue n num f⟩ := by
    intro x hx
    rcases List.mem_cons.mp (hperm.mem_iff.mp hx) with rfl | hx
    · exact ⟨.insert, inTable_of_ne (by simp), rfl⟩
    · obtain ⟨f, hf, -, rfl⟩ := untagRest_value hn x hx
      exact ⟨f, hf, rfl⟩
  refine writes_perm hperm fun x hx y hy => ?_
  obtain ⟨f, hf, rfl⟩ := hvalue x hx
  obtain ⟨f', hf', rfl⟩ := hvalue y hy
  by_cases hff : f = f'
  · exact .inl (by rw [hff])
  · exact .inr (PortField.apart hf hf' hq hff)

/-! ## The management port -/

section
variable {num : BitVec 16} {u : Nat}

theorem read_clear (r : Regs 16) (u : Nat) : read (write r ⟨insertAt u, 0⟩) (insertAt u) = 0 := by
  by_cases hu : u < 16
  · exact read_write_self (p := insertAt u) hu (Nat.two_pow_pos _)
  · exact fields.get_of_le _ (Nat.not_lt.mp hu)

theorem untagRest_insert (hn : n < 32) (hq : q < 32) (mgtPort : Nat) (r : Regs 16) :
    read (run write r (untagRest n num mgtPort q)) (insertAt q) = read r (insertAt q) := by
  refine read_writes fun x hx => ?_
  obtain ⟨f, hf, hne, rfl⟩ := untagRest_value hn x hx
  exact f.apart hf (inTable_of_ne (f := .insert) (by simp)) hq hne

theorem ofPort_insert_other {l : List (Write 16)} (hl : ∀ x ∈ l, OfPort q x) (hq : q < 32) (hu : u < 32) (hne : q ≠ u) :
    read (run write r l) (insertAt u) = read r (insertAt u) := by
  refine read_writes fun x hx => ?_
  obtain ⟨f, hf, hx⟩ := hl x hx
  rw [hx]
  exact f.apart_other hf (inTable_of_ne (f := .insert) (by simp)) hq hu hne (by simp) (by simp)

/-- The command leaves the insertion of the management port as it is. -/
theorem cliUntag_insert (hn : n < 32) (hq : q < 32) (hu : u < 32) (r : Regs 16) :
    read (addPort n num (u + 1) r q) (insertAt u) = read r (insertAt u) := by
  by_cases heq : q = u
  · subst heq
    rw [addPort, cliUntag_run, if_neg (not_not.mpr rfl)]
    exact untagRest_insert hn hq _ r
  · exact ofPort_insert_other (cliUntag_ofPort hn) hq hu heq

end

/-! ## The order of the ports -/

theorem portMask_bit {m : BitVec 32} (hq : q < 32) :
    (portList.foldl (fun m ulPort => m ||| 1#32 <<< (ulPort - 1)) m).getLsbD q =
      (m.getLsbD q || decide (q ∈ portList.map Nat.pred)) := by
  induction portList generalizing m with
  | nil => simp
  | cons p rest ih =>
    have hbit : (1#32 <<< (p - 1)).getLsbD q = decide (q = Nat.pred p) := by
      change _ = decide (q = p - 1)
      by_cases heq : q = p - 1
      · subst heq
        simp [hq]
      · rcases Nat.lt_or_gt_of_ne heq with hlt | hgt
        · simp [hlt, heq]
        · have hne : q - (p - 1) ≠ 0 := by omega
          simp [heq, hne]
    rw [List.foldl_cons, ih, BitVec.getLsbD_or, hbit, List.map_cons, Bool.or_assoc]
    simp

theorem masked_portMask (portList : List Nat) (hn : n ≤ 32) :
    masked (portMask portList) n = (List.range n).filter (· ∈ portList.map Nat.pred) := by
  refine List.filter_congr fun q hq => ?_
  have hq := List.mem_range.mp hq
  rw [portMask, portMask_bit (by omega)]
  simp

/-- Edits that go together come to the same in the order of the mask. -/
theorem run_masked {step : Regs 16 → Nat → Regs 16} (hL : ∀ p ∈ portList, 1 ≤ p ∧ p ≤ n) (hn : n ≤ 32)
    (hswap : portList.Pairwise fun a b => b < a → ∀ r, step (step r (a - 1)) (b - 1) = step (step r (b - 1)) (a - 1))
    (hagain : portList.Nodup ∨ ∀ q r, step (step r q) q = step r q) (r : Regs 16) :
    run step r (portList.map Nat.pred) = run step r (masked (portMask portList) n) := by
  rw [masked_portMask portList hn]
  refine run_range ?_ ?_ ?_ r
  · intro q hq
    obtain ⟨p, hp, rfl⟩ := List.mem_map.mp hq
    obtain ⟨hlo, hhi⟩ := hL p hp
    exact Nat.lt_of_lt_of_le (Nat.sub_lt hlo Nat.one_pos) hhi
  · refine List.pairwise_map.mpr (hswap.imp fun {a b} hab hlt => hab ?_)
    change b - 1 < a - 1 at hlt
    omega
  · refine List.pairwise_map.mpr ?_
    rcases hagain with hnodup | hagain
    · refine hnodup.imp_of_mem fun {a b} ha hb hne heq => ?_
      have hloa := (hL a ha).1
      have hlob := (hL b hb).1
      change a - 1 = b - 1 at heq
      omega
    · refine List.pairwise_of_forall fun a b hab r => ?_
      rw [hab]
      exact hagain _ r

/-- Edits that go together, unless an index register holds a tag. -/
theorem Ordered.swaps {step : Regs 16 → Nat → Regs 16} (horder : Ordered portList)
    (hL : ∀ p ∈ portList, 1 ≤ p ∧ p ≤ n) (hn : n ≤ 32)
    (hcomm : ∀ q q', q < 32 → q' < 32 → q ≠ q' → (indexAt q).Apart (tagAt q') → (indexAt q').Apart (tagAt q) →
      ∀ r, step (step r q) q' = step (step r q') q) :
    portList.Pairwise fun a b => b < a → ∀ r, step (step r (a - 1)) (b - 1) = step (step r (b - 1)) (a - 1) := by
  refine horder.imp_of_mem fun {a b} ha hb hab hlt => ?_
  obtain ⟨hloa, hhia⟩ := hL a ha
  obtain ⟨hlob, hhib⟩ := hL b hb
  have ha : a - 1 < 32 := by omega
  have hb : b - 1 < 32 := by omega
  exact hcomm _ _ ha hb (by omega) (hab hlt) (index_apart_tag hb (by omega) ha)

theorem tagPort_comm {q' : Nat} (hn : n < 32) (hq : q < 32) (hq' : q' < 32) (hne : q ≠ q') (r : Regs 16) :
    run write (run write r (tagPort n q)) (tagPort n q') = run write (run write r (tagPort n q')) (tagPort n q) := by
  have hfield (k : Nat) : ∀ x ∈ tagPort n k, ∃ f : PortField, f.InTable ∧ f ≠ .index ∧ x.place = f.place k := by
    intro x hx
    simp only [tagPort, List.mem_cons, List.not_mem_nil, or_false] at hx
    rcases hx with rfl | rfl | rfl
    · exact ⟨.insert, inTable_of_ne (by simp), by simp, rfl⟩
    · exact ⟨.member n, inTable_member hn, by simp, rfl⟩
    · exact ⟨.tag, inTable_of_ne (by simp), by simp, rfl⟩
  refine writes_comm fun x hx y hy => ?_
  obtain ⟨f, hf, hindex, hx⟩ := hfield q x hx
  obtain ⟨f', hf', hindex', hy⟩ := hfield q' y hy
  rw [hx, hy]
  exact f.apart_other hf hf' hq hq' hne (fun h => absurd h hindex) fun _ h => absurd h hindex'

/-! ## A whole VLAN -/

/-- What the command does to a port: nothing, when it is no member. -/
def leaveMember (n : Nat) (num vid : BitVec 16) (r : Regs 16) (q : Nat) : Regs 16 :=
  run write r (if isMember r n q then leave num vid r q else [])

theorem ofPort_leaveMember {num : BitVec 16} :
    ∀ x ∈ (if isMember r n q then leave num vid r q else []), OfPort q x := by
  intro x hx
  split_ifs at hx
  · exact ofPort_leave x hx
  · cases hx

/-- A port of the entry can be taken out before the other ports are looked at. -/
theorem leaveMember_write {num : BitVec 16} (hn : n < 32) {l : List Nat} (hl : ∀ q' ∈ l, q' < 32 ∧ q' ≠ q)
    (hq : q < 32) (r : Regs 16) : write (run (leaveMember n num vid) r l) ⟨memberAt n q, 0⟩ =
      run (leaveMember n num vid) (write r ⟨memberAt n q, 0⟩) l := by
  induction l generalizing r with
  | nil => rfl
  | cons q' l ih =>
    obtain ⟨⟨hq', hne⟩, hl⟩ := List.forall_mem_cons.mp hl
    obtain ⟨hview, hcomm⟩ := member_comm (r := r) hn hq hq' hne.symm 0
    have hstep : leaveMember n num vid (write r ⟨memberAt n q, 0⟩) q' =
        write (leaveMember n num vid r q') ⟨memberAt n q, 0⟩ := by
      unfold leaveMember
      rw [hview.members n hn, hview.leave]
      exact hcomm _ ofPort_leaveMember
    rw [run_cons, run_cons, ih hl, hstep]

/-- The command takes the members out at the end, the call one after the other. -/
theorem run_leave_eq (hn : n < 32) (num vid : BitVec 16) {l : List Nat} (hl : ∀ q ∈ l, q < 32) (hnodup : l.Nodup)
    (r : Regs 16) : run write (run (leaveMember n num vid) r l) (l.map fun q => ⟨memberAt n q, 0⟩) =
      run (delete n num vid) r (l.filter (isMember r n)) := by
  induction l generalizing r with
  | nil => rfl
  | cons q l ih =>
    obtain ⟨hq, hl⟩ := List.forall_mem_cons.mp hl
    obtain ⟨hnot, hnodup⟩ := List.nodup_cons.mp hnodup
    have hothers : ∀ q' ∈ l, q' < 32 ∧ q' ≠ q := fun q' hq' => ⟨hl q' hq', fun h => hnot (h ▸ hq')⟩
    have hfilter : l.filter (isMember (write (leaveMember n num vid r q) ⟨memberAt n q, 0⟩) n) =
        l.filter (isMember r n) := by
      refine List.filter_congr fun q' hq' => ?_
      have hall : ∀ x ∈ (if isMember r n q then leave num vid r q else []) ++ [⟨memberAt n q, 0⟩], OfPort q x := by
        intro x hx
        rcases List.mem_append.mp hx with hx | hx
        · exact ofPort_leaveMember x hx
        · obtain rfl := List.mem_singleton.mp hx
          exact ofPort_member hn q 0
      have hother := isMember_other (r := r) hall hn hq (hl q' hq') (hothers q' hq').2.symm
      rw [run_append] at hother
      exact hother
    rw [List.map_cons, run_cons, run_cons, leaveMember_write hn hothers hq, ih hl hnodup, hfilter]
    unfold leaveMember
    cases hmember : isMember r n q with
    | true =>
      rw [List.filter_cons_of_pos hmember]
      rfl
    | false =>
      have hsame : write r ⟨memberAt n q, 0⟩ = r := write_member hmember (.inl rfl)
      rw [List.filter_cons_of_neg (by simp [hmember])]
      exact congrArg (fun t => run (delete n num vid) t _) hsame

/-! ## The commands -/

theorem Entry.exist (h : Entry s n vid) : vlan_cli.exist s.dev vid = true :=
  List.any_eq_true.mpr ⟨n, List.mem_range.mpr h.entry, by rw [h.named]; exact beq_self_eq_true _⟩

theorem Entry.num (h : Entry s n vid) : numFromVID s.dev vid = n := by
  unfold numFromVID
  cases hfind : (List.range MAX_RCP_VLAN_NUM).find? fun i => s.dev.vlanVid i == vid with
  | none =>
    have hno := List.find?_eq_none.mp hfind n (List.mem_range.mpr h.entry)
    rw [h.named] at hno
    exact absurd (beq_self_eq_true vid) hno
  | some e =>
    have hvid := List.find?_some hfind
    exact h.unique e (List.mem_range.mp (List.mem_of_find?_eq_some hfind)) (eq_of_beq hvid)

theorem mgtPort_eq (h : d.upLinkPort < d.numOfPorts) : RCPPort2LPort d d.upLinkPort = d.upLinkPort + 1 := if_pos h

theorem Entry.vidOf (h : Entry s n vid) : vidOf s.reg n = vid := (h.coherent.vids n h.entry).symm.trans h.named

variable {arg text mode : List Char}

/-- The members leave the VLAN, and it loses its VID. -/
theorem gives_delete {rest : List (List Char)} (hs : At s.dev s.reg s) (hon : fields.get (s.reg 0x030B) 4 1 ≠ 0)
    (hiso : s.dev.vlanPortIsolate ≠ 1) (hn : n < 32) (hexist : vlan_cli.exist s.dev (unsignedShort (atoi arg)) = true)
    (hnum : numFromVID s.dev (unsignedShort (atoi arg)) = n) :
    Gives (cli_int_vlan_dotlq_del (arg :: rest)) s fun reply t => reply = .done ∧
      At (withCachedVid s.dev n 0) (write (run (delete n (first s.dev) (unsignedShort (atoi arg))) s.reg
        ((List.range s.dev.numOfPorts).filter (isMember s.reg n))) ⟨vidAt n, 0⟩) t := by
  have hloop : Evals s.dev (forM (ports s.dev.numOfPorts) fun port => do
      let portExist ← RCP_GetVlanPortExist 1 port n
      when portExist (leavePort (unsignedShort (atoi arg)) port)) s.reg ()
      (run (leaveMember n (first s.dev) (unsignedShort (atoi arg))) s.reg (List.range s.dev.numOfPorts)) := by
    have hports : ports s.dev.numOfPorts = (List.range s.dev.numOfPorts).map (· + 1) := by
      rw [ports, List.range_eq_range']
      exact List.range'_succ_left
    rw [hports, List.forM_map]
    refine evals_forM (fun q hq r => ?_) s.reg
    have hq := List.mem_range.mp hq
    exact (evals_exist hq hn).bind (evals_when_run fun _ => evals_leavePort hq)
  have hports : ∀ q ∈ List.range s.dev.numOfPorts, q < 32 := fun q hq => port_lt (List.mem_range.mp hq)
  have hregs := run_leave_eq hn (first s.dev) (unsignedShort (atoi arg)) hports List.nodup_range s.reg
  refine gives_command (at_dotlq hs hon hiso ?_)
  refine (meets_bind).mpr ((evals_vlanExist s hs).imp ?_ fun _ _ h => h)
  rintro _ t ⟨rfl, ht⟩
  rw [hexist, if_neg (by decide), meets_bind]
  refine (evals_numFromVID t ht).imp ?_ fun _ _ h => h
  rintro _ t ⟨rfl, ht⟩
  rw [hnum, meets_bind, meets_get, meets_bind, ht.numOfPorts]
  refine (hloop t ht).imp ?_ fun _ _ h => h
  rintro _ t ⟨-, ht⟩
  rw [meets_bind]
  refine (evals_clear hn t ht).imp ?_ fun _ _ h => h
  rintro _ t ⟨-, ht⟩
  rw [hregs] at ht
  rw [meets_bind, meets_setVlanVID ht.faithful hn, meets_pure]
  exact ⟨rfl, ht.setVid hn (by decide)⟩

section
variable (h : Entry s n (unsignedShort (atoi arg)))
include h

theorem deleted_agrees : EndsAs s (cli_int_vlan_dotlq_del [arg]) (RCP_SetVlanDelete n .RCP_CONFIG_2_REGISTER) := by
  obtain ⟨_, t, hx, rfl, ht⟩ := (gives_delete h.coherent h.enabled h.together h.entry h.exist h.num).exists
  obtain ⟨⟨⟩, u, hy, hu⟩ := (gives_vlanDelete h.entry h.coherent).exists
  rw [h.vidOf] at hu
  obtain ⟨hreg, hdev⟩ := hu.unique ht
  exact ⟨t, u, hx, hy, hreg, hdev⟩

variable (hL : ∀ p ∈ portList, 1 ≤ p ∧ p ≤ s.dev.numOfPorts)
include hL

theorem evals_port_add (text : List Char) (hup : s.dev.upLinkPort < s.dev.numOfPorts)
    {f : Nat → Rcp Reply} {F : Regs 16 → Nat → Regs 16}
    (hf : (if unsignedShort (atoi mode) = 2 then addUntagged (unsignedShort (atoi arg)) (s.dev.upLinkPort + 1)
      else addTagged (unsignedShort (atoi arg))) = f)
    (hF : ∀ q < s.dev.numOfPorts, ∀ r, Evals s.dev (f (q + 1)) r .done (F r q)) :
    Evals s.dev (cli_int_vlan_dotlq_port_add [arg, text, mode] portList) s.reg .done
      (run F s.reg (portList.map Nat.pred)) := by
  have hports := evals_eachPort hF hL s.reg
  rw [← hf, apply_ite eachPort, ite_apply] at hports
  intro t ht
  refine gives_command ((evals_mgtPort hup).bind (fun t ht => ?_) t ht)
  refine at_dotlq ht h.enabled h.together (evals_vlanExist.bind ?_ t ht)
  rw [h.exist, if_neg (by decide), mgtPort_eq hup]
  exact hports

theorem tagged_agrees (hup : s.dev.upLinkPort < s.dev.numOfPorts) (hmode : unsignedShort (atoi mode) ≠ 2) :
    EndsAs s (cli_int_vlan_dotlq_port_add [arg, text, mode] portList)
      (RCP_SetVlanTaggedPortList n (portMask portList) s.dev.numOfPorts .RCP_CONFIG_2_REGISTER) := by
  have hx := evals_port_add h hL text hup (if_neg hmode) fun q hq r => evals_addTagged (r := r) hq h.entry h.num
  refine (endsAs_iff hx (evals_tagPortList h.entry s.reg) h.coherent).mpr ?_
  have hn := numOfPorts_le s.dev
  refine run_masked hL hn (List.pairwise_of_forall_mem_list fun a ha b hb hlt r => ?_)
    (.inr fun q r => writes_again r _) s.reg
  have hhia := hL a ha
  have hhib := hL b hb
  exact tagPort_comm h.entry (by omega) (by omega) (by omega) r

/-- In untagged mode, the command and the call differ in the insertion of the management port. -/
theorem untagged_agrees_iff (hup : s.dev.upLinkPort < s.dev.numOfPorts) (horder : Ordered portList)
    (hmode : unsignedShort (atoi mode) = 2) :
    EndsAs s (cli_int_vlan_dotlq_port_add [arg, text, mode] portList)
      (RCP_SetVlanUntagPortList n (portMask portList) s.dev.numOfPorts .RCP_CONFIG_2_REGISTER) ↔
      (s.dev.upLinkPort + 1 ∈ portList → read s.reg (insertAt s.dev.upLinkPort) = 0) := by
  have hN := numOfPorts_le s.dev
  have hn := h.entry
  have hu : s.dev.upLinkPort < 32 := by omega
  have hx := evals_port_add h hL text hup (if_pos hmode) fun q hq r => evals_addUntagged (r := r) hq hn h.num _
  have hy := evals_untagPortList (m := portMask portList) (d := s.dev) hn s.reg
  rw [h.vidOf, mgtPort_eq hup] at hy
  rw [endsAs_iff hx hy h.coherent, run_masked hL hN ?_ (.inr fun q r => writes_again r _) s.reg]
  swap
  · refine horder.swaps hL hN fun q q' hq hq' hne hclear hclear' r => ?_
    exact ports_comm hq hq' hne hclear hclear' (cliUntag_ofPort hn) (cliUntag_ofPort hn)
  have hmasked : ∀ q ∈ masked (portMask portList) s.dev.numOfPorts, q < 32 := fun q hq =>
    port_lt (List.mem_range.mp (List.mem_filter.mp hq).1)
  have hmem : s.dev.upLinkPort + 1 ∈ portList ↔ s.dev.upLinkPort ∈ masked (portMask portList) s.dev.numOfPorts := by
    rw [masked_portMask portList hN, List.mem_filter, List.mem_range, decide_eq_true_eq, List.mem_map]
    constructor
    · exact fun hin => ⟨hup, _, hin, rfl⟩
    · rintro ⟨-, p, hp, hpred⟩
      have hlo := (hL p hp).1
      have hp' : p = s.dev.upLinkPort + 1 := by change p - 1 = _ at hpred; omega
      exact hp' ▸ hp
  rw [hmem]
  generalize BitVec.ofNat 16 (numFromVID s.dev (unsignedShort (atoi arg))) = num
  generalize masked (portMask portList) s.dev.numOfPorts = l at hmasked
  generalize s.dev.upLinkPort = u at hu
  constructor
  · intro heq hin
    have hcommand : read (run (addPort n num (u + 1)) s.reg l) (insertAt u) =
        read s.reg (insertAt u) := by
      refine run_inv (I := fun r => read r (insertAt u) = read s.reg (insertAt u)) (P := fun _ q => q < 32) ?_ rfl
        (along_of (fun _ => hmasked) _)
      exact fun r q hr hq => (cliUntag_insert hn hq hu r).trans hr
    obtain ⟨l₁, l₂, rfl⟩ := List.append_of_mem hin
    rw [← hcommand, heq, run_append, run_cons]
    refine run_inv (I := fun r => read r (insertAt u) = 0) (P := fun _ q => q < 32) ?_ ?_
      (along_of (fun _ q hq => hmasked q (by simp [hq])) _)
    · intro r q hr hq
      rw [untagPort_run num (u + 1) hn hq]
      by_cases hqu : q = u
      · subst hqu
        rw [untagRest_insert hn hq, read_clear]
      · rw [ofPort_insert_other ?_ hq hu hqu, read_write (insert_apart hqu), hr]
        intro x hx
        obtain ⟨f, hf, -, rfl⟩ := untagRest_value hn x hx
        exact ⟨f, hf, rfl⟩
    · rw [untagPort_run num (u + 1) hn hu, untagRest_insert hn hu, read_clear]
  · intro hoff
    refine run_congr (I := fun r => u ∈ l → read r (insertAt u) = 0) (fun r q hq hr => ⟨?_, fun hin => ?_⟩) hoff
    · rw [addPort, cliUntag_run, untagPort_run num (u + 1) hn (hmasked q hq)]
      split_ifs with hqu
      · rfl
      · obtain rfl : q = u := by omega
        rw [write_eq_self (hr hq)]
    · exact (cliUntag_insert hn (hmasked q hq) hu r).trans (hr hin)

theorem taken_agrees (horder : Ordered portList) (hnodup : portList.Nodup)
    (hin : ∀ ulPort ∈ portList, isMember s.reg n (ulPort - 1)) :
    EndsAs s (cli_int_vlan_dotlq_port_del [arg, text] portList)
      (RCP_SetVlanPortListDelete n (portMask portList) s.dev.numOfPorts .RCP_CONFIG_2_REGISTER) := by
  have hx : Evals s.dev (cli_int_vlan_dotlq_port_del [arg, text] portList) s.reg .done
      (run (delete n (first s.dev) (unsignedShort (atoi arg))) s.reg (portList.map Nat.pred)) := by
    intro t ht
    refine gives_command (at_dotlq ht h.enabled h.together (evals_vlanExist.bind ?_ t ht))
    rw [h.exist, if_neg (by decide)]
    refine evals_numFromVID.bind ?_
    rw [h.num]
    exact evals_takePorts h.entry hL hnodup hin
  refine (endsAs_iff hx (evals_deletePortList h.entry s.reg) h.coherent).mpr ?_
  rw [h.vidOf]
  refine run_masked hL (numOfPorts_le _) (horder.swaps hL (numOfPorts_le _) ?_) (.inl hnodup) s.reg
  exact fun q q' hq hq' hne hclear hclear' r => delete_comm h.entry hq hq' hne hclear hclear'

end

end

/-- A switch with 8 ports, port 1 to the ONU, and VID 5 in entry 1, which has no member yet. -/
def sample (insertion : Bool) : State where
  dev := ⟨.GH1508, 0, 1, fun _ => 0, fun e => if e = 0 then 1 else if e = 1 then 5 else 0, 0⟩
  reg a := if a = 0x030B then 0x10 else if a = 0x031F then 1 else if a = 0x0322 then 5
    else if a = 0x037D ∧ insertion then 1 else 0
  eeprom _ := 0
  writes := []
  writeFails _ _ := false
  behind := 0
  words := []

theorem sample_entry (insertion : Bool) : Entry (sample insertion) 1 (unsignedShort (atoi ['5'])) := by
  have hreg : ∀ e < 32, ∀ q < 32, isMember (sample insertion).reg e q = false := by
    cases insertion <;> decide +kernel
  have hvid : ∀ e < 32, (sample insertion).dev.vlanVid e = vidOf (sample insertion).reg e := by
    cases insertion <;> decide +kernel
  refine ⟨⟨rfl, fun _ _ => rfl, rfl, ?_, fun e he q hq _ _ => hreg e he q hq, hvid, fun _ _ => rfl⟩, ?_, ?_, ?_, ?_, ?_⟩
  · intro e he q
    by_cases hq : q < 8
    · rw [hreg e he q (by omega), Bool.and_false]
      exact BitVec.getLsbD_zero
    · change (0 : BitVec 32).getLsbD q = (decide (q < 8) && _)
      rw [decide_eq_false hq, Bool.false_and]
      exact BitVec.getLsbD_zero
  all_goals
    cases insertion <;> decide

end gwdonu.vlan_agreement
