-- Isolation of the ports of a switch: each port shares an entry with the management port only,
-- whatever the registers and the cache had before.
import Gwdonu.VlanTable

namespace gwdonu.vlan_isolation

open Function calls rcp_registers register_fields vlans vlan_table
open rcp (RCP_RET)

/-! ## The law -/

/-- Each physical port but `g` shares its entry with `g`, and `g` shares one with all ports. -/
structure Isolated (n g : Nat) (s : State) : Prop where
  pairs : ∀ q < n, q ≠ g → ∀ r < n, member s (index s q) r = true ↔ r = q ∨ r = g
  management : ∀ r < n, member s (index s g) r = true
  distinct : ∀ q < n, ∀ q' < n, q ≠ g → q' ≠ g → q ≠ q' → index s q ≠ index s q'
  unused : ∀ e < 32, (∀ q < n, index s q ≠ e) → vid s e = 0 ∧ ∀ r < n, member s e r = false

/-- All ports share one entry. -/
def Together (n : Nat) (s : State) : Prop := ∃ e, (∀ q < n, index s q = e) ∧ ∀ r < n, member s e r = true

/-- Some write to the switch fails. -/
def Fails (s₀ : State) : RCP_RET → State → Prop := fun _ _ => ¬ s₀.Faithful

/-! ## Calls that return, or a write fails -/

section
variable {s₀ s : State} {a e q v : Nat} {d : BitVec 16} {data : BitVec 32} {Q : Unit → State → Prop} {x : Accessor}

theorem reaches_write (h : SameSwitch s₀ s) (hQ : Q () (s.put a d)) : Meets (RCP_Write_Reg a d) s Q (Fails s₀) := by
  rw [meets_write]
  split_ifs with hfail
  · intro hfaithful
    rw [h.writeFails, hfaithful] at hfail
    cases hfail
  · exact hQ

theorem reaches_setVlanPort (h : SameSwitch s₀ s) (he : e < 32) (hQ : Q () (cachePort (withMembers s e data) e data)) :
    Meets (RCP_SetVlanPort e data .RCP_CONFIG_2_REGISTER) s Q (Fails s₀) := by
  rw [RCP_SetVlanPort, meets_bind, when_false (by omega), meets_pure, meets_bind,
    when_true (c := RCP_FLAG.RCP_CONFIG_2_REGISTER.toRegister = true) rfl, setMembers, meets_bind, meets_get,
    meets_bind]
  refine reaches_write h ?_
  by_cases hmany : s.dev.numOfPorts ≤ 16
  · rw [when_false (not_not.mpr hmany)]
    rw [withMembers, if_pos hmany] at hQ
    exact hQ
  · rw [when_true hmany]
    rw [withMembers, if_neg hmany] at hQ
    exact reaches_write h.put hQ

theorem reaches_setVlanVID (h : SameSwitch s₀ s) (he : e < 32) (hQ : Q () (cacheVid (withVid s e d) e d)) :
    Meets (RCP_SetVlanVID e d .RCP_CONFIG_2_REGISTER) s Q (Fails s₀) := by
  rw [RCP_SetVlanVID, meets_bind, when_false (by omega), meets_pure, meets_bind,
    when_true (c := RCP_FLAG.RCP_CONFIG_2_REGISTER.toRegister = true) rfl, meets_setRegisterField]
  exact reaches_write h hQ

theorem reaches_set (h : SameSwitch s₀ s) (hq : q < s.dev.numOfPorts) (hQ : Q () (withField s x.addr x.pos x.len q d)) :
    Meets (x.Set 1 (q + 1) d .RCP_CONFIG_2_REGISTER) s Q (Fails s₀) := by
  rw [x.Set_eq, portSet, meets_bind, meets_lPort2Port ⟨by omega, hq⟩, meets_setRegField, meets_setRegisterField]
  exact reaches_write h hQ

theorem reaches_setVlanOutPortTag (h : SameSwitch s₀ s) (hq : q < s.dev.numOfPorts) (hQ : Q () (withTag s q d)) :
    Meets (RCP_SetVlanOutPortTag 1 (q + 1) d .RCP_CONFIG_2_REGISTER) s Q (Fails s₀) :=
  reaches_set (x := .VlanOutPortTag) h hq hQ

theorem reaches_setVlanPVID (h : SameSwitch s₀ s) (hq : q < s.dev.numOfPorts)
    (hQ : Q () (withIndex s q (BitVec.ofNat 16 (numFromVID s.dev d)))) :
    Meets (RCP_SetVlanPVID 1 (q + 1) d .RCP_CONFIG_2_REGISTER) s Q (Fails s₀) := by
  rw [RCP_SetVlanPVID, meets_bind]
  exact reaches_set (x := .VlanPortIDAssignment) h hq hQ

theorem numFromVID_eq (hv : v < 32) (hfound : s.dev.vlanVid v = d) (hbefore : ∀ e < v, s.dev.vlanVid e ≠ d) :
    numFromVID s.dev d = v := by
  have hfind : (List.range MAX_RCP_VLAN_NUM).find? (fun i => s.dev.vlanVid i == d) = some v := by
    rw [List.find?_range_eq_some]
    exact ⟨beq_iff_eq.mpr hfound, List.mem_range.mpr hv, fun e he => by simpa using hbefore e he⟩
  rw [numFromVID, hfind, Option.getD_some]

theorem gives_of_faithful {y : Rcp Unit} (hs : s₀.Faithful) (h : Meets y s₀ Q (Fails s₀)) : Gives y s₀ Q :=
  h.imp (fun _ _ h => h) fun _ _ hfails => hfails hs

end

/-! ## The loop over the ports -/

/-- The entry of physical port `q`, when the management port is `g`. -/
def entryOf (g q : Nat) : Nat := if q < g then q + 1 else q

/-- The first `k` ports have their entries, and `v` is the next one. -/
structure Halfway (s₀ : State) (g k v : Nat) (s : State) : Prop where
  same : SameSwitch s₀ s
  next : v = if g < k then k else k + 1
  vids : ∀ e < v, s.dev.vlanVid e = BitVec.ofNat 16 (e + 1)
  all : ∀ r < s₀.dev.numOfPorts, member s 0 r = true
  own : ∀ q < k, q ≠ g → index s q = entryOf g q
  pair : ∀ q < k, q ≠ g → ∀ r < s₀.dev.numOfPorts, member s (entryOf g q) r = true ↔ r = q ∨ r = g

section
variable {s₀ s t : State} {g k v : Nat} {d : BitVec 16} {data : BitVec 32}

theorem port_lt {q : Nat} (hq : q < s₀.dev.numOfPorts) : q < 32 := Nat.lt_of_lt_of_le hq (numOfPorts_le _)

theorem Halfway.pos (h : Halfway s₀ g k v s) : 0 < v := by
  rw [h.next]
  split_ifs <;> omega

theorem Halfway.entryOf_lt (h : Halfway s₀ g k v s) {q : Nat} (hq : q < k) : entryOf g q < v := by
  rw [h.next, entryOf]
  split_ifs <;> omega

/-- What does not touch the entries that are there. -/
theorem Halfway.keep (h : Halfway s₀ g k v s) (hsame : SameSwitch s₀ t)
    (hvids : ∀ e < v, t.dev.vlanVid e = s.dev.vlanVid e)
    (hmember : ∀ e < v, ∀ r < s₀.dev.numOfPorts, member t e r = member s e r)
    (hindex : ∀ q < k, q ≠ g → index t q = index s q) : Halfway s₀ g k v t := by
  refine ⟨hsame, h.next, ?_, ?_, ?_, ?_⟩
  · intro e he
    rw [hvids e he, h.vids e he]
  · intro r hr
    rw [hmember 0 h.pos r hr, h.all r hr]
  · intro q hq hne
    rw [hindex q hq hne, h.own q hq hne]
  · intro q hq hne r hr
    rw [hmember _ (h.entryOf_lt hq) r hr, h.pair q hq hne r hr]

/-- A tag is written to the register of an index that comes later only. -/
theorem Halfway.tag (h : Halfway s₀ g k v s) (hk : k < s₀.dev.numOfPorts) (hv : v ≤ 32) :
    Halfway s₀ g k v (withTag s k d) := by
  have hk32 := port_lt hk
  refine h.keep h.same.put (fun _ _ => rfl) ?_ ?_
  · intro e he r _
    exact member_withTag (by omega) hk32
  · intro q hq _
    exact index_withTag (by omega)

/-- The members and the VID of an entry behind those that are there. -/
theorem Halfway.entry {e : Nat} (h : Halfway s₀ g k v s) (data : BitVec 32) (d : BitVec 16)
    (hk : k ≤ s₀.dev.numOfPorts) (he : e < 32) (hv : v ≤ e) :
    Halfway s₀ g k v (cacheVid (withVid (cachePort (withMembers s e data) e data) e d) e d) := by
  have hle := numOfPorts_le s₀.dev
  refine h.keep ?_ ?_ ?_ ?_
  · exact h.same.withMembers.cachePort.put.cacheVid
  · intro e' he'
    change update (withMembers s e data).dev.vlanVid e d e' = _
    rw [withMembers_dev, update_of_ne (by omega)]
  · intro e' he' r hr
    rw [member_cacheVid, member_withVid (by omega) (by omega), member_cachePort,
      member_withMembers (by omega) (by omega) (h.same.numOfPorts ▸ hr), if_neg (by omega)]
  · intro q hq _
    rw [index_cacheVid, index_withVid (by omega) (by omega), index_cachePort, index_withMembers (by omega) (by omega)]

theorem Halfway.assign (h : Halfway s₀ g k v s) (hk : k < s₀.dev.numOfPorts) (hv : v ≤ 32) (hd : d.toNat < 32) :
    Halfway s₀ g k v (withIndex s k d) := by
  have hk32 := port_lt hk
  refine h.keep h.same.put (fun _ _ => rfl) ?_ ?_
  · intro e he r _
    exact member_withIndex (by omega) hk32
  · intro q hq _
    rw [index_withIndex hd, if_neg (Nat.ne_of_lt hq)]

theorem toNat_small (hv : v < 2 ^ 16) : (BitVec.ofNat 16 v).toNat = v := by
  rw [BitVec.toNat_ofNat]
  exact Nat.mod_eq_of_lt hv

/-- The VID of the next entry is in no entry before it. -/
theorem Halfway.lookup (h : Halfway s₀ g k v s) (hv : v < 32) (hvid : s.dev.vlanVid v = BitVec.ofNat 16 (v + 1)) :
    numFromVID s.dev (BitVec.ofNat 16 (v + 1)) = v := by
  refine numFromVID_eq hv hvid fun e he heq => ?_
  rw [h.vids e he] at heq
  have hnat := congrArg BitVec.toNat heq
  rw [toNat_small (by omega), toNat_small (by omega)] at hnat
  omega

/-- The port is the management port. -/
theorem Halfway.skip (h : Halfway s₀ g k v s) (hk : k = g) : Halfway s₀ g (k + 1) v s := by
  refine ⟨h.same, ?_, h.vids, h.all, ?_, ?_⟩
  · rw [h.next, if_neg (by omega), if_pos (by omega)]
  · intro q hq hne
    exact h.own q (by omega) hne
  · intro q hq hne
    exact h.pair q (by omega) hne

/-- The port has got the next entry. -/
theorem Halfway.take (h : Halfway s₀ g k v s) (hk : k ≠ g) (hvid : s.dev.vlanVid v = BitVec.ofNat 16 (v + 1))
    (hown : index s k = v) (hpair : ∀ r < s₀.dev.numOfPorts, member s v r = true ↔ r = k ∨ r = g) :
    Halfway s₀ g (k + 1) (v + 1) s := by
  have hv : entryOf g k = v := by
    rw [h.next, entryOf]
    split_ifs <;> omega
  refine ⟨h.same, ?_, ?_, h.all, ?_, ?_⟩
  · rw [h.next]
    split_ifs <;> omega
  · intro e he
    rcases Nat.lt_succ_iff_lt_or_eq.mp he with he | rfl
    · exact h.vids e he
    · exact hvid
  · intro q hq hne
    rcases Nat.lt_succ_iff_lt_or_eq.mp hq with hq | rfl
    · exact h.own q hq hne
    · rw [hown, hv]
  · intro q hq hne
    rcases Nat.lt_succ_iff_lt_or_eq.mp hq with hq | rfl
    · exact h.pair q hq hne
    · rw [hv]
      exact hpair

theorem two_bits {r : Nat} (hk : k < 32) (hg : g < 32) :
    (1#32 <<< g ||| 1#32 <<< k).getLsbD r = true ↔ r = k ∨ r = g := by
  have hbit : ∀ i < 32, (1#32 <<< i).getLsbD r = true ↔ r = i := by
    intro i hi
    rw [BitVec.getLsbD_shiftLeft, BitVec.getLsbD_one]
    simp only [Bool.and_eq_true, Bool.not_eq_true', decide_eq_false_iff_not, decide_eq_true_eq]
    omega
  rw [BitVec.getLsbD_or, Bool.or_eq_true, hbit g hg, hbit k hk]
  exact or_comm

/-- One turn of the loop over the ports. -/
theorem reaches_isolatePort (h : Halfway s₀ g k v s) (hk : k < s₀.dev.numOfPorts) (hg : g < s₀.dev.numOfPorts) :
    Meets (isolatePort (g + 1) (1#32 <<< g) .RCP_CONFIG_2_REGISTER v (k + 1)) s (fun v t => Halfway s₀ g (k + 1) v t)
      (Fails s₀) := by
  have hk32 := port_lt hk
  have hg32 := port_lt hg
  have hv : v ≤ 32 := by
    rw [h.next]
    split_ifs <;> omega
  rw [isolatePort, meets_bind]
  refine reaches_setVlanOutPortTag h.same (h.same.numOfPorts ▸ hk) ?_
  have htag := h.tag (d := 0) hk hv
  have hports := htag.same.numOfPorts
  by_cases hkg : k = g
  · rw [if_pos (congrArg Nat.succ hkg), meets_pure]
    exact htag.skip hkg
  · have hv : v < 32 := by
      rw [h.next]
      split_ifs <;> omega
    rw [if_neg fun heq => hkg (Nat.succ.inj heq), meets_bind, meets_lPort2Port ⟨by omega, hports ▸ hk⟩,
      meets_bind, Nat.add_sub_cancel]
    refine reaches_setVlanPort htag.same hv ?_
    rw [meets_bind]
    refine reaches_setVlanVID htag.same.withMembers.cachePort hv ?_
    rw [meets_bind]
    have hentry := htag.entry (1#32 <<< g ||| 1#32 <<< k) (BitVec.ofNat 16 (v + 1)) hk.le hv (Nat.le_refl v)
    refine reaches_setVlanPVID hentry.same (hentry.same.numOfPorts ▸ hk) ?_
    rw [hentry.lookup hv (update_self ..), meets_pure]
    have hsmall : (BitVec.ofNat 16 v).toNat = v := toNat_small (by omega)
    refine (hentry.assign hk hv.le (hsmall.symm ▸ hv)).take hkg (update_self ..) ?_ ?_
    · rw [index_withIndex (hsmall.symm ▸ hv), if_pos rfl, hsmall]
    · intro r hr
      rw [member_withIndex (by omega) hk32, member_cacheVid, member_withVid (by omega) (by omega), member_cachePort,
        member_withMembers (by omega) (by omega) (hports ▸ hr), if_pos rfl]
      exact two_bits hk32 hg32

theorem range_at {a m e : Nat} {done rest : List Nat} (h : List.range' a m = done ++ e :: rest) :
    e = a + done.length ∧ done.length < m := by
  have hlen := congrArg List.length h
  rw [List.length_range', List.length_append, List.length_cons] at hlen
  have hget := congrArg (fun l : List Nat => l[done.length]?) h
  rw [List.getElem?_append_right (Nat.le_refl _), Nat.sub_self, List.getElem?_cons_zero,
    List.getElem?_range' (by omega), Nat.one_mul] at hget
  exact ⟨(Option.some.inj hget).symm, by omega⟩

/-- The whole loop over the ports. -/
theorem reaches_isolatePorts (h : Halfway s₀ g 0 1 s) (hg : g < s₀.dev.numOfPorts) :
    Meets ((ports s₀.dev.numOfPorts).foldlM (isolatePort (g + 1) (1#32 <<< g) .RCP_CONFIG_2_REGISTER) 1) s
      (fun v t => Halfway s₀ g s₀.dev.numOfPorts v t) (Fails s₀) := by
  have hlen : (ports s₀.dev.numOfPorts).length = s₀.dev.numOfPorts := List.length_range'
  refine (meets_foldlM (fun done v t => Halfway s₀ g done.length v t) ?_ h).imp (fun v t ht => ?_) fun _ _ h => h
  · intro done port rest hsplit v t ht
    obtain ⟨rfl, hlt⟩ := range_at hsplit
    rw [Nat.add_comm 1 done.length, List.length_append, List.length_singleton]
    exact reaches_isolatePort ht hlt hg
  · rwa [hlen] at ht

/-! ## The entries behind -/

/-- Entry `e` has no VID and no members. -/
def Empty (n e : Nat) (s : State) : Prop := vid s e = 0 ∧ ∀ r < n, member s e r = false

/-- An entry is emptied. -/
def emptied (s : State) (e : Nat) : State := cacheVid (withVid (cachePort (withMembers s e 0) e 0) e 0) e 0

theorem empty_emptied {e : Nat} (he : e < 32) : Empty s.dev.numOfPorts e (emptied s e) := by
  refine ⟨?_, fun r hr => ?_⟩
  · rw [emptied, vid_cacheVid, vid_withVid (by omega) (by omega) (by decide), if_pos rfl]
  · have hr32 := port_lt hr
    rw [emptied, member_cacheVid, member_withVid (by omega) (by omega), member_cachePort,
      member_withMembers (by omega) (by omega) hr, if_pos rfl]
    exact BitVec.getLsbD_zero

theorem Empty.emptied_other {n e e' : Nat} (h : Empty n e' s) (he : e < 32) (he' : e' < 32) (hne : e' ≠ e)
    (hn : s.dev.numOfPorts = n) : Empty n e' (emptied s e) := by
  obtain ⟨hvid, hmember⟩ := h
  refine ⟨?_, fun r hr => ?_⟩
  · rw [emptied, vid_cacheVid, vid_withVid (by omega) (by omega) (by decide), if_neg hne, vid_cachePort,
      vid_withMembers (by omega) (by omega), hvid]
  · rw [emptied, member_cacheVid, member_withVid (by omega) (by omega), member_cachePort,
      member_withMembers (by omega) (by omega) (hn ▸ hr), if_neg hne, hmember r hr]

/-- The loop over the entries behind those of the ports. -/
theorem reaches_clear (h : Halfway s₀ g s₀.dev.numOfPorts s₀.dev.numOfPorts s) :
    Meets (forM (List.range' s₀.dev.numOfPorts (MAX_RCP_VLAN_NUM - s₀.dev.numOfPorts)) fun vlanum => do
        RCP_SetVlanPort vlanum 0 .RCP_CONFIG_2_REGISTER
        RCP_SetVlanVID vlanum 0 .RCP_CONFIG_2_REGISTER) s
      (fun _ t => Halfway s₀ g s₀.dev.numOfPorts s₀.dev.numOfPorts t ∧
        ∀ e < 32, s₀.dev.numOfPorts ≤ e → Empty s₀.dev.numOfPorts e t) (Fails s₀) := by
  have hle := numOfPorts_le s₀.dev
  refine (meets_forM (fun done t => Halfway s₀ g s₀.dev.numOfPorts s₀.dev.numOfPorts t ∧
    ∀ e < s₀.dev.numOfPorts + done.length, s₀.dev.numOfPorts ≤ e → Empty s₀.dev.numOfPorts e t) ?_ ⟨h, ?_⟩).imp
    (fun _ t ht => ?_) fun _ _ h => h
  · intro done e rest hsplit t ht
    obtain ⟨rfl, hlt⟩ := range_at hsplit
    have he : s₀.dev.numOfPorts + done.length < 32 := by
      change done.length < 32 - s₀.dev.numOfPorts at hlt
      omega
    obtain ⟨ht, hempty⟩ := ht
    have hports := ht.same.numOfPorts
    rw [meets_bind]
    refine reaches_setVlanPort ht.same he (reaches_setVlanVID ht.same.withMembers.cachePort he ?_)
    refine ⟨ht.entry 0 0 (Nat.le_refl _) he (Nat.le_add_right _ _), fun e' he' hge => ?_⟩
    rw [List.length_append, List.length_singleton] at he'
    by_cases heq : e' = s₀.dev.numOfPorts + done.length
    · rw [heq]
      have hnew := empty_emptied (s := t) he
      rwa [hports] at hnew
    · exact (hempty e' (by omega) hge).emptied_other he (by omega) heq hports
  · intro e he hge
    rw [List.length_nil] at he
    omega
  · refine ⟨ht.1, fun e he hge => ht.2 e ?_ hge⟩
    rw [List.length_range']
    change e < s₀.dev.numOfPorts + (32 - s₀.dev.numOfPorts)
    omega

/-! ## Isolation on and off -/

/-- What the calls behind the loops leave. -/
theorem Halfway.isolated (h : Halfway s₀ g s₀.dev.numOfPorts s₀.dev.numOfPorts s) (hg : g < s₀.dev.numOfPorts)
    (hown : index s g = 0) (hempty : ∀ e < 32, s₀.dev.numOfPorts ≤ e → Empty s₀.dev.numOfPorts e s) :
    Isolated s₀.dev.numOfPorts g s := by
  refine ⟨?_, ?_, ?_, ?_⟩
  · intro q hq hne r hr
    rw [h.own q hq hne]
    exact h.pair q hq hne r hr
  · rw [hown]
    exact h.all
  · intro q hq q' hq' hne hne' hdiff
    rw [h.own q hq hne, h.own q' hq' hne', entryOf, entryOf]
    split_ifs <;> omega
  · intro e he hno
    refine hempty e he (Nat.not_lt.mp fun hlt => ?_)
    -- every entry of the first ones belongs to a port
    rcases Nat.eq_zero_or_pos e with rfl | hpos
    · exact hno g hg hown
    · obtain ⟨q, hq⟩ : ∃ q, q = if e ≤ g then e - 1 else e := ⟨_, rfl⟩
      have hbound : q < s₀.dev.numOfPorts ∧ q ≠ g ∧ entryOf g q = e := by
        rw [hq, entryOf]
        split_ifs <;> omega
      exact hno q hbound.1 ((h.own q hbound.1 hbound.2.1).trans hbound.2.2)

/-- A write to the register of the inserted tags. -/
theorem member_insert {e r : Nat} (he : e < 32) : member (s.put RT8326_VLAN_PVID_CTL_BASE d) e r = member s e r := by
  refine member_put (by omega) ?_
  rw [RT8326_VLAN_PVID_CTL_BASE]
  omega

theorem index_insert {q : Nat} (hq : q < 32) : index (s.put RT8326_VLAN_PVID_CTL_BASE d) q = index s q := by
  refine index_put ?_
  rw [RT8326_VLAN_PVID_CTL_BASE]
  omega

/-- The first entry has VID 1 and all ports. -/
def opened (s : State) : State := cachePort (withMembers (cacheVid (withVid s 0 1) 0 1) 0 0xffffffff) 0 0xffffffff

theorem opened_same (s : State) : SameSwitch s (opened s) := SameSwitch.refl.put.cacheVid.withMembers.cachePort

theorem opened_member {r : Nat} (hr : r < s.dev.numOfPorts) : member (opened s) 0 r = true := by
  have hr32 := port_lt hr
  have hports : r < (cacheVid (withVid s 0 1) 0 1).dev.numOfPorts := hr
  rw [opened, member_cachePort, member_withMembers (by decide) (by decide) hports, if_pos rfl]
  change (BitVec.allOnes 32).getLsbD r = true
  rw [BitVec.getLsbD_allOnes, decide_eq_true hr32]

theorem opened_vid (s : State) : (opened s).dev.vlanVid 0 = 1 := by
  change (withMembers (cacheVid (withVid s 0 1) 0 1) 0 0xffffffff).dev.vlanVid 0 = 1
  rw [withMembers_dev]
  exact update_self 0 (1 : BitVec 16) s.dev.vlanVid

theorem reaches_mgtPortIsolate (hg : g < s₀.dev.numOfPorts) :
    Meets (RCP_SetVlanMgtPortIsolate (g + 1) .RCP_CONFIG_2_REGISTER) s₀
      (fun _ t => Isolated s₀.dev.numOfPorts g t) (Fails s₀) := by
  have hsame := opened_same s₀
  have hports := hsame.numOfPorts
  rw [RCP_SetVlanMgtPortIsolate, meets_bind]
  refine reaches_setVlanVID .refl (by decide) ?_
  rw [meets_bind]
  refine reaches_setVlanPort SameSwitch.refl.put.cacheVid (by decide) ?_
  change Meets _ (opened s₀) _ _
  rw [meets_bind, meets_lPort2Port ⟨by omega, hports ▸ hg⟩, meets_bind, meets_get, meets_bind, Nat.add_sub_cancel,
    hports]
  have hstart : Halfway s₀ g 0 1 (opened s₀) := by
    refine ⟨hsame, (if_neg (Nat.not_lt_zero g)).symm, ?_, fun _ => opened_member, nofun, nofun⟩
    intro e he
    rw [Nat.lt_one_iff.mp he, opened_vid]
    rfl
  refine (reaches_isolatePorts hstart hg).imp (fun v t ht => ?_) fun _ _ h => h
  have hv : v = s₀.dev.numOfPorts := by
    rw [ht.next, if_pos hg]
  rw [hv] at ht
  rw [meets_bind]
  refine (reaches_clear ht).imp (fun _ u hu => ?_) fun _ _ h => h
  obtain ⟨hu, hempty⟩ := hu
  have hzero : numFromVID u.dev 1 = 0 := numFromVID_eq (by decide) (hu.vids 0 hu.pos) nofun
  rw [meets_bind]
  refine reaches_setVlanPVID hu.same (hu.same.numOfPorts ▸ hg) ?_
  rw [hzero, RCP_SetVlanInsert, meets_bind, when_true (c := RCP_FLAG.RCP_CONFIG_2_REGISTER.toRegister = true) rfl]
  refine reaches_write hu.same.put ?_
  have hg32 := port_lt hg
  refine Halfway.isolated (s := (withIndex u g 0).put RT8326_VLAN_PVID_CTL_BASE 0) ?_ hg ?_ ?_
  · refine hu.keep hu.same.put.put (fun _ _ => rfl) ?_ ?_
    · intro e he r _
      have hle := numOfPorts_le s₀.dev
      rw [member_insert (by omega), member_withIndex (by omega) hg32]
    · intro q hq hne
      rw [index_insert (port_lt hq), index_withIndex (by decide), if_neg hne]
  · rw [index_insert hg32, index_withIndex (by decide), if_pos rfl]
    rfl
  · intro e he hge
    obtain ⟨hvid, hmember⟩ := hempty e he hge
    refine ⟨?_, fun r hr => ?_⟩
    · rw [vid_put (by omega) (by rw [RT8326_VLAN_PVID_CTL_BASE]; omega), vid_withIndex (by omega) hg32, hvid]
    · rw [member_insert he, member_withIndex (by omega) hg32, hmember r hr]

/-- The first `k` ports are back in the first entry. -/
structure Back (s₀ : State) (k : Nat) (s : State) : Prop where
  same : SameSwitch s₀ s
  vid : s.dev.vlanVid 0 = 1
  all : ∀ r < s₀.dev.numOfPorts, member s 0 r = true
  own : ∀ q < k, index s q = 0

theorem Back.port (h : Back s₀ k s) (hk : k < s₀.dev.numOfPorts) :
    Meets (do
      RCP_SetVlanInsertPVID 1 (k + 1) 0 .RCP_CONFIG_2_REGISTER
      RCP_SetVlanPVID 1 (k + 1) 1 .RCP_CONFIG_2_REGISTER) s (fun _ t => Back s₀ (k + 1) t) (Fails s₀) := by
  have hk32 := port_lt hk
  rw [meets_bind]
  refine reaches_set (x := .VlanInsertPVID) h.same (h.same.numOfPorts ▸ hk) ?_
  refine reaches_setVlanPVID h.same.put (h.same.numOfPorts ▸ hk) ?_
  rw [withField_dev, numFromVID_eq (v := 0) (by decide) h.vid nofun]
  refine ⟨h.same.put.put, h.vid, fun r hr => ?_, fun q hq => ?_⟩
  · rw [member_withIndex (by decide) hk32]
    exact (member_insert (by decide)).trans (h.all r hr)
  · rw [index_withIndex (by decide)]
    split_ifs with hqk
    · rfl
    · exact (index_insert (by omega)).trans (h.own q (by omega))

theorem Back.empty {e : Nat} (h : Back s₀ s₀.dev.numOfPorts s) (he : e < 32) (hpos : 0 < e) :
    Meets (do
      RCP_SetVlanVID e 0 .RCP_CONFIG_2_REGISTER
      RCP_SetVlanPort e 0 .RCP_CONFIG_2_REGISTER) s (fun _ t => Back s₀ s₀.dev.numOfPorts t) (Fails s₀) := by
  rw [meets_bind]
  refine reaches_setVlanVID h.same he (reaches_setVlanPort h.same.put.cacheVid he ?_)
  refine ⟨h.same.put.cacheVid.withMembers.cachePort, ?_, fun r hr => ?_, fun q hq => ?_⟩
  · change (withMembers (cacheVid (withVid s e 0) e 0) e 0).dev.vlanVid 0 = 1
    rw [withMembers_dev]
    exact (update_of_ne hpos.ne _ _).trans h.vid
  · have hr' : r < (cacheVid (withVid s e 0) e 0).dev.numOfPorts := h.same.numOfPorts ▸ hr
    rw [member_cachePort, member_withMembers (by omega) (by omega) hr', if_neg hpos.ne, member_cacheVid,
      member_withVid (by omega) (by omega), h.all r hr]
  · have hq32 := port_lt hq
    rw [index_cachePort, index_withMembers (by omega) hq32, index_cacheVid, index_withVid (by omega) hq32, h.own q hq]

theorem reaches_isolateOff (mgtPort : Nat) :
    Meets (RCP_SetVlanPortIsolateEn 0 mgtPort .RCP_CONFIG_2_REGISTER) s₀
      (fun _ t => Together s₀.dev.numOfPorts t) (Fails s₀) := by
  have hle := numOfPorts_le s₀.dev
  have hports := (opened_same s₀).numOfPorts
  rw [RCP_SetVlanPortIsolateEn, if_pos rfl, meets_bind]
  refine reaches_setVlanVID .refl (by decide) ?_
  rw [meets_bind]
  refine reaches_setVlanPort SameSwitch.refl.put.cacheVid (by decide) ?_
  change Meets _ (opened s₀) _ _
  rw [meets_bind, meets_get, meets_bind, hports]
  refine (meets_forM (fun done t => Back s₀ done.length t) ?_
    ⟨opened_same s₀, opened_vid s₀, fun _ => opened_member, nofun⟩).imp (fun _ t ht => ?_) fun _ _ h => h
  · intro done port rest hsplit t ht
    obtain ⟨rfl, hlt⟩ := range_at hsplit
    rw [Nat.add_comm 1 done.length, List.length_append, List.length_singleton]
    exact ht.port hlt
  · rw [ports, List.length_range'] at ht
    rw [meets_bind]
    refine (meets_forM_inv (I := Back s₀ s₀.dev.numOfPorts) ?_ ht).imp (fun _ u hu => ?_) fun _ _ h => h
    · intro e he u hu
      obtain ⟨hpos, hlt⟩ := List.mem_range'_1.mp he
      exact hu.empty (by omega) hpos
    · exact ⟨0, hu.own, hu.all⟩

end

/-- Whatever the registers and the cache had before, isolation for a management port isolates the ports from
each other, and without it they are together again, unless a write to the switch fails. -/
theorem isolation_isolates (s : State) (mgtPort : Nat) (hone : 1 ≤ mgtPort) (hn : mgtPort ≤ s.dev.numOfPorts) :
    Meets (RCP_SetVlanPortIsolateEn 1 mgtPort .RCP_CONFIG_2_REGISTER) s
        (fun _ t => Isolated s.dev.numOfPorts (mgtPort - 1) t) (fun _ _ => ¬ s.Faithful) ∧
      Meets (RCP_SetVlanPortIsolateEn 0 mgtPort .RCP_CONFIG_2_REGISTER) s
        (fun _ t => Together s.dev.numOfPorts t) (fun _ _ => ¬ s.Faithful) := by
  obtain ⟨g, rfl⟩ : ∃ g, mgtPort = g + 1 := ⟨mgtPort - 1, by omega⟩
  refine ⟨?_, reaches_isolateOff (g + 1)⟩
  rw [RCP_SetVlanPortIsolateEn, if_neg (by decide), meets_bind]
  refine (reaches_mgtPortIsolate hn).imp (fun _ t ht => ?_) fun _ _ h => h
  exact ⟨ht.pairs, ht.management, ht.distinct, ht.unused⟩

/-- A switch of 32 ports with port 27 for the management, and all registers set before. -/
theorem port_27_of_32_is_isolated_with :
    ∃ s : State, s = uniform .GH1532 0xffff ∧ s.Faithful ∧
      Gives (RCP_SetVlanPortIsolateEn 1 27 .RCP_CONFIG_2_REGISTER) s fun _ t =>
        Isolated s.dev.numOfPorts (27 - 1) t := by
  have hfaithful : (uniform .GH1532 0xffff).Faithful := fun _ _ => rfl
  have hports : 27 ≤ (uniform .GH1532 0xffff).dev.numOfPorts := by decide
  refine ⟨uniform .GH1532 0xffff, rfl, hfaithful, ?_⟩
  -- the calls are not to be run here
  generalize uniform .GH1532 0xffff = s at hfaithful hports ⊢
  exact gives_of_faithful hfaithful (isolation_isolates s 27 (by decide) hports).1

end gwdonu.vlan_isolation
