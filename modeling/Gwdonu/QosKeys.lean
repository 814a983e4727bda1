-- What a QoS rule is found by: the port and the VLAN id that fit into its key, and nothing
-- that does not, in every run of adds, removes and restores.
import Gwdonu.Qos

namespace gwdonu.qos

open oam runs

/-! ## Calls -/

/-- The arguments of `gw_qos_vlan_queue_add`, and whether `malloc` has memory. -/
structure Add where
  mal : Bool
  port : Int32
  vlanid : Int32
  queue : Int32

def Add.call (l : Rules) (a : Add) : Rules := (gw_qos_vlan_queue_add a.mal l a.port a.vlanid a.queue).1

/-- The add of a turn of `gw_qos_vlan_restore_loop`, with `p` at index `i`. -/
def restoredAt (mal : Bool) (m : Mem) (i : Nat) : Add :=
  ⟨mal, (load32 m i).toUInt8.toUInt32.toInt32, (load32 m (i + 4)).toInt32, (load32 m (i + 8)).toInt32⟩

/-- The adds of a restore. `mal` is of each of them. -/
def restored (mal : Nat → Bool) (len : Int32) (pv : Mem) : List Add :=
  (List.range (len.toUInt32 / (4 * 3)).toInt32.toNatClampNeg).map fun n => restoredAt (mal n) pv (12 * n)

inductive Call where
  | add (a : Add)
  | remove (port vlanid : Int32)
  | restore (mal : Nat → Bool) (len : Int32) (pv : Mem)

def call (l : Rules) : Call → Rules
  | .add a => a.call l
  | .remove port vlanid => (gw_qos_vlan_queue_remove l port vlanid).1
  | .restore mal len pv => run Add.call l (restored mal len pv)

/-! ## The law -/

/-- No two rules are for the same port and VLAN id. -/
def Distinct (l : Rules) : Prop := (l.map fun p => (p.port, p.vid)).Nodup

def qos_vlan_t.Of (p : qos_vlan_t) (port vlanid : Int32) : Prop := p.port = port.toUInt32 ∧ p.vid = vlanid.toUInt32

/-- The rules stay distinct, and an add that does well is undone by a remove. -/
structure Add.Law (l : Rules) (a : Add) : Prop where
  distinct : Distinct (a.call l)
  undone : (gw_qos_vlan_queue_add a.mal l a.port a.vlanid a.queue).2 = .GW_OK →
    gw_qos_vlan_queue_remove (a.call l) a.port a.vlanid = (l, .GW_OK)

/-- A remove takes out a rule of its own arguments, or nothing. -/
def Removes (l : Rules) (port vlanid : Int32) : Prop :=
  (gw_qos_vlan_queue_remove l port vlanid).1 = l ∨
    ∃ r p s, l = r ++ p :: s ∧ (gw_qos_vlan_queue_remove l port vlanid).1 = r ++ s ∧ p.Of port vlanid

/-- The law is of every add, those of a restore among them. -/
def Law (l : Rules) : Call → Prop
  | .add a => a.Law l
  | .remove port vlanid => Distinct (call l (.remove port vlanid)) ∧ Removes l port vlanid
  | .restore mal len pv => Along Add.call Add.Law l (restored mal len pv)

/-- The port and the VLAN id each fit into their half of a key. -/
def Fits (port vlanid : Int32) : Prop := port.toUInt32.toNat < 65536 ∧ vlanid.toUInt32.toNat < 65536

instance (port vlanid : Int32) : Decidable (Fits port vlanid) := inferInstanceAs (Decidable (_ ∧ _))

/-- An add is refused when there is a rule for what its key is unpacked into. -/
def Add.Careful (l : Rules) (a : Add) : Prop :=
  Fits a.port a.vlanid ∨ (gw_lst_find l (key a.port a.vlanid)).isSome ∨ a.mal = false

def Careful (l : Rules) : Call → Prop
  | .add a => a.Careful l
  | .remove port vlanid => Fits port vlanid ∨ gw_lst_find l (key port vlanid) = none
  | .restore mal len pv => Along Add.call Add.Careful l (restored mal len pv)

instance (l : Rules) (a : Add) : Decidable (a.Careful l) := inferInstanceAs (Decidable (_ ∨ _ ∨ _))

instance (l : Rules) : Decidable (Distinct l) := inferInstanceAs (Decidable (List.Nodup _))

/-! ## Adds -/

section
variable {l : Rules} {a : Add} {port vlanid : Int32}

theorem restore_loop_run (mal : Bool) (m : Mem) (n i : Nat) (l : Rules) :
    gw_qos_vlan_restore_loop mal m n i l =
      run Add.call l ((List.range n).map fun k => restoredAt mal m (i + 12 * k)) := by
  induction n generalizing i l with
  | zero => rfl
  | succ n ih =>
    rw [gw_qos_vlan_restore_loop, ih, List.range_succ_eq_map, List.map_cons, List.map_map, run_cons]
    have hnext : (fun k => restoredAt mal m (i + 12 + 12 * k)) =
        (fun k => restoredAt mal m (i + 12 * k)) ∘ Nat.succ := by
      funext k
      exact congrArg (restoredAt mal m) (by simp only [Nat.succ_eq_add_one]; omega)
    rw [hnext]
    rfl

/-- A restore is the run of its adds. -/
theorem call_restore (mal : Bool) (driver : Int32 → Option (List gw_qos_vlan_queue_data_t) → Int32) (l : Rules)
    (len : Int32) (pv : Mem) :
    call l (.restore (fun _ => mal) len pv) = (gw_qos_vlan_restore mal driver l len pv).1 := by
  rw [gw_qos_vlan_restore, restore_loop_run]
  simp only [call, restored, Nat.zero_add]

theorem compare_of (h : Fits port vlanid) (p : qos_vlan_t) :
    qos_vlan_queue_compare p (key port vlanid) = 0 ↔ p.Of port vlanid := by
  have hzero := compare_zero h.1 h.2 p
  rwa [Int32.toInt32_toUInt32, Int32.toInt32_toUInt32] at hzero

/-- What a key is unpacked into fits into it. -/
theorem fits_of_compare {p : qos_vlan_t} (hp : p.Of port vlanid)
    (hzero : qos_vlan_queue_compare p (key port vlanid) = 0) : Fits port vlanid := by
  have hsame : p.port = key port vlanid >>> 16 ∧ p.vid = key port vlanid &&& 0xffff := by
    by_contra hdiff
    rw [qos_vlan_queue_compare, if_neg hdiff] at hzero
    cases hzero
  generalize key port vlanid = k at hsame
  rw [Fits, ← hp.1, ← hp.2, hsame.1, hsame.2, UInt32.toNat_shiftRight, UInt32.toNat_and]
  have hk := k.toNat_lt
  refine ⟨?_, Nat.lt_succ_of_le Nat.and_le_right⟩
  change k.toNat >>> 16 < 65536
  rw [Nat.shiftRight_eq_div_pow]
  omega

/-- The rule of an add. -/
def Add.rule (a : Add) : qos_vlan_t := ⟨a.port.toUInt32, a.vlanid.toUInt32, a.queue.toUInt32⟩

theorem add_refused (h : (gw_lst_find l (key a.port a.vlanid)).isSome ∨ a.mal = false) :
    gw_qos_vlan_queue_add a.mal l a.port a.vlanid a.queue = (l, .GW_ERROR) := by
  unfold gw_qos_vlan_queue_add
  split
  · rfl
  · rename_i hnone
    rcases h with h | h
    · rw [hnone] at h
      cases h
    · rw [h]
      rfl

theorem add_accepted (hnone : gw_lst_find l (key a.port a.vlanid) = none) (hmal : a.mal = true) :
    gw_qos_vlan_queue_add a.mal l a.port a.vlanid a.queue = (l ++ [a.rule], .GW_OK) := by
  rw [gw_qos_vlan_queue_add, hnone, hmal]
  rfl

theorem find_append (hnone : gw_lst_find l (key port vlanid) = none) (p : qos_vlan_t) :
    gw_lst_find (l ++ [p]) (key port vlanid) =
      if qos_vlan_queue_compare p (key port vlanid) = 0 then some p else none := by
  rw [gw_lst_find, List.find?_append, show l.find? _ = none from hnone, List.find?_singleton]
  simp

theorem distinct_append (h : Distinct l) (hfits : Fits a.port a.vlanid)
    (hnone : gw_lst_find l (key a.port a.vlanid) = none) : Distinct (l ++ [a.rule]) := by
  rw [Distinct, List.map_append, List.nodup_append]
  refine ⟨h, by simp, ?_⟩
  intro x hx y hy hxy
  obtain ⟨p, hp, rfl⟩ := List.mem_map.mp hx
  rw [List.map_singleton, List.mem_singleton] at hy
  subst hy
  have hof : p.Of a.port a.vlanid := Prod.mk.inj hxy
  have hdiff := List.find?_eq_none.mp hnone p hp
  exact hdiff (decide_eq_true ((compare_of hfits p).mpr hof))

/-- The rule that was added last is the one that its key finds. -/
theorem remove_append (hfits : Fits a.port a.vlanid) (hnone : gw_lst_find l (key a.port a.vlanid) = none) :
    gw_qos_vlan_queue_remove (l ++ [a.rule]) a.port a.vlanid = (l, .GW_OK) := by
  have hzero : qos_vlan_queue_compare a.rule (key a.port a.vlanid) = 0 := (compare_of hfits _).mpr ⟨rfl, rfl⟩
  rw [gw_qos_vlan_queue_remove, find_append hnone, if_pos hzero]
  have hother : ∀ p ∈ l, ¬ decide (qos_vlan_queue_compare p (key a.port a.vlanid) = 0) := List.find?_eq_none.mp hnone
  dsimp only
  rw [List.eraseP_append_right _ hother, List.eraseP_cons_of_pos (by simpa using hzero), List.append_nil]

theorem add_law_iff (h : Distinct l) : a.Law l ↔ a.Careful l := by
  by_cases hrefused : (gw_lst_find l (key a.port a.vlanid)).isSome ∨ a.mal = false
  · have hcall := add_refused hrefused
    refine iff_of_true ⟨?_, ?_⟩ (.inr hrefused)
    · rwa [Add.call, hcall]
    · rw [hcall]
      exact nofun
  · obtain ⟨hnone, hmal⟩ := not_or.mp hrefused
    have hnone := Option.not_isSome_iff_eq_none.mp hnone
    have hcall := add_accepted hnone (Bool.eq_true_of_not_eq_false hmal)
    have hcareful : a.Careful l ↔ Fits a.port a.vlanid := or_iff_left hrefused
    rw [hcareful]
    constructor
    · rintro ⟨-, hundone⟩
      have hremove := hundone (by rw [hcall])
      rw [Add.call, hcall, gw_qos_vlan_queue_remove, find_append hnone] at hremove
      by_contra hlong
      have hzero : ¬ qos_vlan_queue_compare a.rule (key a.port a.vlanid) = 0 :=
        fun hzero => hlong (fits_of_compare ⟨rfl, rfl⟩ hzero)
      rw [if_neg hzero] at hremove
      cases (Prod.mk.inj hremove).2
    · intro hfits
      refine ⟨?_, fun _ => ?_⟩
      · rw [Add.call, hcall]
        exact distinct_append h hfits hnone
      · rw [Add.call, hcall]
        exact remove_append hfits hnone

theorem adds_law_iff (h : Distinct l) (as : List Add) :
    Along Add.call Add.Law l as ↔ Along Add.call Add.Careful l as :=
  along_iff_along (I := Distinct) (fun _ _ h hc => ((add_law_iff h).mpr hc).distinct) (fun _ _ h => add_law_iff h) h as

theorem adds_distinct (h : Distinct l) {as : List Add} (hc : Along Add.call Add.Careful l as) :
    Distinct (run Add.call l as) :=
  run_inv (I := Distinct) (fun _ _ h hc => ((add_law_iff h).mpr hc).distinct) h hc

/-! ## Removes -/

theorem remove_distinct (h : Distinct l) (port vlanid : Int32) : Distinct (call l (.remove port vlanid)) := by
  change Distinct (gw_qos_vlan_queue_remove l port vlanid).1
  unfold gw_qos_vlan_queue_remove
  split
  · exact h
  · exact h.sublist (List.eraseP_sublist.map _)

/-- What is taken out of a list is known from what is left. -/
theorem taken_unique {α : Type*} [DecidableEq α] {r s r' s' : List α} {p q : α} (h : r ++ p :: s = r' ++ q :: s')
    (hrest : r ++ s = r' ++ s') : p = q := by
  have hperm : (p :: (r ++ s)).Perm (q :: (r ++ s)) := by
    refine List.perm_middle.symm.trans ?_
    rw [h, hrest]
    exact List.perm_middle
  have hcount := hperm.count_eq p
  by_contra hne
  rw [List.count_cons_self, List.count_cons_of_ne (Ne.symm hne)] at hcount
  omega

theorem removes_iff : Removes l port vlanid ↔ Fits port vlanid ∨ gw_lst_find l (key port vlanid) = none := by
  rw [Removes, gw_qos_vlan_queue_remove]
  cases hfind : gw_lst_find l (key port vlanid) with
  | none => exact iff_of_true (.inl rfl) (.inr rfl)
  | some p =>
    let found (p : qos_vlan_t) : Bool := qos_vlan_queue_compare p (key port vlanid) = 0
    have hp : found p := List.find?_some hfind
    obtain ⟨q, r, s, -, hzero, hl, hrest⟩ := List.exists_of_eraseP (List.mem_of_find?_eq_some hfind) hp
    have hzero := of_decide_eq_true hzero
    dsimp only
    rw [hrest, or_iff_left (b := some p = none) (by simp)]
    constructor
    · rintro (hsame | ⟨r', p', s', hl', hrest', hof⟩)
      · have hlen := congrArg List.length (hsame.trans hl)
        simp at hlen
      · have hq := taken_unique (hl.symm.trans hl') hrest'
        exact fits_of_compare (hq ▸ hof) hzero
    · exact fun hfits => .inr ⟨r, q, s, hl, rfl, (compare_of hfits q).mp hzero⟩

/-! ## Every run -/

theorem law_iff (h : Distinct l) (c : Call) : Law l c ↔ Careful l c := by
  cases c with
  | add a => exact add_law_iff h
  | remove port vlanid => exact (and_iff_right (remove_distinct h port vlanid)).trans removes_iff
  | restore mal len pv => exact adds_law_iff h _

theorem distinct_call (h : Distinct l) (c : Call) (hc : Careful l c) : Distinct (call l c) := by
  cases c with
  | add a => exact ((add_law_iff h).mpr hc).distinct
  | remove port vlanid => exact remove_distinct h port vlanid
  | restore mal len pv => exact adds_distinct h hc

end

theorem distinct_nil : Distinct [] := List.nodup_nil

/-- The rules are kept by port and VLAN id as long as each that is added or removed fits into
its key, or is refused. -/
theorem the_rules_are_kept_by_their_keys (cs : List Call) : Along call Law [] cs ↔ Along call Careful [] cs :=
  along_iff_along (I := Distinct) (fun _ c h hc => distinct_call h c hc) (fun _ c h => law_iff h c) distinct_nil cs

/-- An add of the VLAN id 65536 does well, and no remove finds it; the second one doubles it. -/
theorem a_long_vlan_id_stays :
    ¬ Along call Law [] [.add ⟨true, 1, 65536, 0⟩, .remove 1 65536, .add ⟨true, 1, 65536, 0⟩] ∧
      ¬ Distinct (run call [] [.add ⟨true, 1, 65536, 0⟩, .add ⟨true, 1, 65536, 0⟩]) := by
  constructor
  · intro h
    have hcareful : Add.Careful [] ⟨true, 1, 65536, 0⟩ := (add_law_iff distinct_nil).mp h.1
    exact absurd hcareful (by decide)
  · decide

end gwdonu.qos
