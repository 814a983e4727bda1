-- The table of VLANs under the commands that add and delete a VLAN: what the tests of the
-- commands keep, and what they let through.
import Gwdonu.VlanAgreement

namespace gwdonu.vlan_commands

open Function calls runs writes rcp_registers register_fields vlans vlan_edits vlan_lists vlan_cli vlan_agreement
open vlan_table (withMembers withMembers_dev withVid vid_withMembers)

/-! ## The law -/

inductive Command where
  | add (argv : List (List Char))
  | del (argv : List (List Char))
  deriving DecidableEq

def Command.call : Command → Rcp Reply
  | .add argv => cli_int_vlan_dotlq_add argv
  | .del argv => cli_int_vlan_dotlq_del argv

def step (s : State) (c : Command) : State := after c.call s

def MAX_VID : Nat := 4094

/-- The cache has the VIDs of the switch, and its members among the ports. -/
structure Coherent (s : State) : Prop where
  vids : ∀ e < 32, s.dev.vlanVid e = vidOf s.reg e
  members : ∀ e < 32, ∀ q < s.dev.numOfPorts, (s.dev.vlanPort e).getLsbD q = isMember s.reg e q

/-- Entry 0 keeps VID 1, no VID is in two entries, and the cache agrees with the switch. -/
structure Law (s : State) : Prop where
  first : vidOf s.reg 0 = 1
  distinct : ∀ e < 32, ∀ e' < 32, vidOf s.reg e ≠ 0 → vidOf s.reg e = vidOf s.reg e' → e = e'
  range : ∀ e < 32, vidOf s.reg e ≠ 0 → (vidOf s.reg e).toNat ≤ MAX_VID
  coherent : Coherent s

/-- The VID is in the table. -/
def Known (s : State) (vid : BitVec 16) : Prop := ∃ e < 32, vidOf s.reg e = vid

/-- The VID may be added. -/
def Addable (vid : BitVec 16) : Prop := 2 ≤ vid.toNat ∧ vid.toNat ≤ MAX_VID

/-- An entry behind entry 0 has no VID. -/
def Free (s : State) : Prop := ∃ e < 32, 1 ≤ e ∧ vidOf s.reg e = 0

instance (s : State) (vid : BitVec 16) : Decidable (Known s vid) := inferInstanceAs (Decidable (∃ e < 32, _))

instance (vid : BitVec 16) : Decidable (Addable vid) := inferInstanceAs (Decidable (_ ∧ _))

instance (s : State) : Decidable (Free s) := inferInstanceAs (Decidable (∃ e < 32, _))

/-- A new VID takes an entry that is free, when there is one. All else changes nothing. -/
def Adds (s : State) (reply : Reply) (t : State) (vid : BitVec 16) : Prop :=
  if ¬ Known s vid ∧ Addable vid ∧ Free s then
    reply = .done ∧ ∃ e < 32, 1 ≤ e ∧ vidOf s.reg e = 0 ∧ t.reg = write s.reg ⟨vidAt e, vid⟩ ∧
      t.dev = withCachedVid s.dev e vid
  else reply ≠ .done ∧ t.reg = s.reg ∧ t.dev = s.dev

/-- The law holds behind the command, and an add does what it should. -/
def Keeps (s : State) (c : Command) : Prop :=
  Law (step s c) ∧ ∀ arg rest, c = .add (arg :: rest) →
    ∃ reply, c.call s = .ok reply (step s c) ∧ Adds s reply (step s c) (unsignedShort (atoi arg))

/-- A VID that is not in the table is one that may be added, to an entry that is free; and VID 1 is
not deleted. -/
def Careful (s : State) : Command → Prop
  | .add (arg :: _) =>
    Known s (unsignedShort (atoi arg)) ∨ Addable (unsignedShort (atoi arg)) ∧ Free s
  | .del (arg :: _) => unsignedShort (atoi arg) ≠ 1
  | .add [] | .del [] => True

instance (s : State) : ∀ c, Decidable (Careful s c)
  | .add (_ :: _) => inferInstanceAs (Decidable (_ ∨ _))
  | .del (_ :: _) => inferInstanceAs (Decidable (_ ≠ _))
  | .add [] => .isTrue trivial
  | .del [] => .isTrue trivial

/-- The table before the first command. -/
structure Fresh (s : State) : Prop where
  coherent : Coherent s
  faithful : s.Faithful
  enabled : fields.get (s.reg 0x030B) 4 1 ≠ 0
  together : s.dev.vlanPortIsolate ≠ 1
  first : vidOf s.reg 0 = 1
  empty : ∀ e < 32, 1 ≤ e → vidOf s.reg e = 0 ∧ ∀ q < s.dev.numOfPorts, isMember s.reg e q = false

/-! ## What the commands find -/

/-- What every command that is careful keeps. -/
structure Inv (s : State) : Prop where
  law : Law s
  faithful : s.Faithful
  enabled : fields.get (s.reg 0x030B) 4 1 ≠ 0
  together : s.dev.vlanPortIsolate ≠ 1
  empty : ∀ e < 32, 1 ≤ e → ∀ q < s.dev.numOfPorts, isMember s.reg e q = false

section
variable {s t : State} {d : RCP_DEV} {r : Regs 16} {e e' n : Nat} {vid : BitVec 16} {arg : List Char}
  {rest : List (List Char)}

theorem Fresh.inv (h : Fresh s) : Inv s := by
  refine ⟨⟨h.first, ?_, ?_, h.coherent⟩, h.faithful, h.enabled, h.together, fun e he hpos => (h.empty e he hpos).2⟩
  · intro e he e' he' hvid heq
    rcases Nat.eq_zero_or_pos e with rfl | hpos
    · rcases Nat.eq_zero_or_pos e' with rfl | hpos'
      · rfl
      · exact absurd (heq.trans (h.empty e' he' hpos').1) hvid
    · exact absurd (h.empty e he hpos).1 hvid
  · intro e he hvid
    rcases Nat.eq_zero_or_pos e with rfl | hpos
    · rw [h.first]
      decide
    · exact absurd (h.empty e he hpos).1 hvid

theorem exist_iff (h : Coherent s) : vlan_cli.exist s.dev vid = true ↔ Known s vid := by
  unfold vlan_cli.exist Known
  rw [List.any_eq_true]
  constructor
  · rintro ⟨e, he, hvid⟩
    have he := List.mem_range.mp he
    exact ⟨e, he, (h.vids e he).symm.trans (eq_of_beq hvid)⟩
  · rintro ⟨e, he, hvid⟩
    exact ⟨e, List.mem_range.mpr he, beq_iff_eq.mpr ((h.vids e he).trans hvid)⟩

theorem idleNum_lt (d : RCP_DEV) : idleNum d < 32 := by
  unfold idleNum
  cases hfind : (List.range' 1 (MAX_RCP_VLAN_NUM - 1)).find? fun num => d.vlanVid num == 0 with
  | none => decide
  | some e =>
    have he := (List.mem_range'_1.mp (List.mem_of_find?_eq_some hfind)).2
    exact he

/-- The search for a free entry finds one, or gives entry 0. -/
theorem idleNum_free (h : Coherent s) :
    if Free s then 1 ≤ idleNum s.dev ∧ vidOf s.reg (idleNum s.dev) = 0 else idleNum s.dev = 0 := by
  have hlt := idleNum_lt s.dev
  unfold idleNum at *
  cases hfind : (List.range' 1 (MAX_RCP_VLAN_NUM - 1)).find? fun num => s.dev.vlanVid num == 0 with
  | none =>
    rw [if_neg]
    · rfl
    rintro ⟨e, he, hpos, hvid⟩
    have hno := List.find?_eq_none.mp hfind e (List.mem_range'_1.mpr ⟨hpos, he⟩)
    rw [h.vids e he, hvid] at hno
    exact hno rfl
  | some e =>
    rw [hfind] at hlt
    have hpos := (List.mem_range'_1.mp (List.mem_of_find?_eq_some hfind)).1
    have hzero := List.find?_some (p := fun num => s.dev.vlanVid num == 0) hfind
    have hvid : vidOf s.reg e = 0 := (h.vids e hlt).symm.trans (eq_of_beq hzero)
    rw [if_pos ⟨e, hlt, hpos, hvid⟩]
    exact ⟨hpos, hvid⟩

theorem step_ends {c : Command} {Q : Reply → State → Prop} (h : Gives c.call s Q) :
    ∃ reply, c.call s = .ok reply (step s c) ∧ Q reply (step s c) := by
  obtain ⟨reply, t, hx, ht⟩ := h.exists
  have hstep : step s c = t := by rw [step, after, hx]
  rw [hstep]
  exact ⟨reply, hx, ht⟩

/-! ## A VID is written -/

theorem vid_write (he : e < 32) (he' : e' < 32) (hv : vid.toNat < 4096) (r : Regs 16) :
    vidOf (write r ⟨vidAt e, vid⟩) e' = if e' = e then vid else vidOf r e' := by
  split_ifs with heq
  · subst heq
    have hfit : (vidAt e').off + (vidAt e').len ≤ 16 := by change 0 + 12 ≤ 16; decide
    exact read_write_self hfit hv
  · refine read_write (apart_of_addr ?_)
    rw [vidAt_addr he, vidAt_addr he']
    omega

/-- An entry behind entry 0 loses its VID, or takes one that is new and may be added. -/
theorem Inv.setVid (h : Inv s) (he : e < 32) (hpos : 1 ≤ e) (hv : vid = 0 ∨ ¬ Known s vid ∧ Addable vid) :
    Inv (cacheVid (withVid s e vid) e vid) := by
  have hsmall : vid.toNat ≤ MAX_VID := by
    rcases hv with rfl | ⟨-, -, hv⟩
    · decide
    · exact hv
  have hreg : (cacheVid (withVid s e vid) e vid).reg = write s.reg ⟨vidAt e, vid⟩ := rfl
  have hdev : (cacheVid (withVid s e vid) e vid).dev = withCachedVid s.dev e vid := rfl
  have hfaithful : (cacheVid (withVid s e vid) e vid).Faithful := h.faithful
  generalize cacheVid (withVid s e vid) e vid = t at hreg hdev hfaithful
  have hvid (i : Nat) (hi : i < 32) : vidOf t.reg i = if i = e then vid else vidOf s.reg i := by
    rw [hreg]
    exact vid_write he hi (Nat.lt_of_le_of_lt hsmall (by decide)) s.reg
  -- no other entry has the VID, when it is not 0
  have hnew (i : Nat) (hi : i < 32) (hvid : vid ≠ 0) : vidOf s.reg i ≠ vid := by
    rcases hv with rfl | ⟨hno, -⟩
    · exact absurd rfl hvid
    · exact fun heq => hno ⟨i, hi, heq⟩
  have hnum : t.dev.numOfPorts = s.dev.numOfPorts := by
    rw [hdev]
    rfl
  have hmember (i q : Nat) (hi : i < 32) (hq : q < t.dev.numOfPorts) : isMember t.reg i q = isMember s.reg i q := by
    rw [hreg]
    exact isMember_write (member_apart_vid hi (port_lt hq) he).symm
  refine ⟨⟨?_, ?_, ?_, ?_, ?_⟩, hfaithful, ?_, ?_, ?_⟩
  · rw [hvid 0 (by decide), if_neg (Nat.ne_of_lt hpos)]
    exact h.law.first
  · intro i hi j hj
    rw [hvid i hi, hvid j hj]
    split_ifs with hie hje
    · exact fun _ _ => hie.trans hje.symm
    · exact fun hzero heq => absurd heq.symm (hnew j hj hzero)
    · exact fun hzero heq => absurd heq (hnew i hi (heq ▸ hzero))
    · exact h.law.distinct i hi j hj
  · intro i hi
    rw [hvid i hi]
    split_ifs
    · exact fun _ => hsmall
    · exact h.law.range i hi
  · intro i hi
    rw [hvid i hi, ← h.law.coherent.vids i hi, hdev]
    exact update_apply ..
  · intro i hi q hq
    rw [hmember i q hi hq, ← h.law.coherent.members i hi q (hnum ▸ hq), hdev]
    rfl
  · have hapart : 0x030B ≠ (vidAt e).addr := by
      rw [vidAt_addr he]
      omega
    rw [hreg, write, update_of_ne hapart]
    exact h.enabled
  · rw [hdev]
    exact h.together
  · intro i hi hlo q hq
    rw [hmember i q hi hq]
    exact h.empty i hi hlo q (hnum ▸ hq)

/-- An entry behind entry 0, which has no members, loses them all. -/
theorem Inv.clear (h : Inv s) (he : e < 32) (hpos : 1 ≤ e) : Inv (cachePort (withMembers s e 0) e 0) := by
  have hvid (i : Nat) (hi : i < 32) : vidOf (cachePort (withMembers s e 0) e 0).reg i = vidOf s.reg i :=
    vid_withMembers (Nat.le_of_lt_succ he) (Nat.le_of_lt_succ hi)
  have hdev : (cachePort (withMembers s e 0) e 0).dev = { s.dev with vlanPort := update s.dev.vlanPort e 0 } := by
    rw [cachePort, withMembers_dev]
  have hmember (i q : Nat) (hi : i < 32) (hq : q < s.dev.numOfPorts) :
      isMember (cachePort (withMembers s e 0) e 0).reg i q = if i = e then false else isMember s.reg i q := by
    have hzero : (0 : BitVec 32).getLsbD q = false := BitVec.getLsbD_zero
    rw [← hzero]
    exact isMember_withMembers he hi (port_lt hq) (by omega)
  have hnum : (cachePort (withMembers s e 0) e 0).dev.numOfPorts = s.dev.numOfPorts := by
    rw [hdev]
    rfl
  refine ⟨⟨?_, ?_, ?_, ?_, ?_⟩, withMembers_faithful.mpr h.faithful, ?_, ?_, ?_⟩
  · rw [hvid 0 (by decide)]
    exact h.law.first
  · intro i hi j hj
    rw [hvid i hi, hvid j hj]
    exact h.law.distinct i hi j hj
  · intro i hi
    rw [hvid i hi]
    exact h.law.range i hi
  · intro i hi
    rw [hvid i hi, hdev]
    exact h.law.coherent.vids i hi
  · intro i hi q hq
    rw [hnum] at hq
    rw [hmember i q hi hq, hdev]
    change (update s.dev.vlanPort e 0 i).getLsbD q = _
    split_ifs with hie
    · rw [hie, update_self]
      exact BitVec.getLsbD_zero
    · rw [update_of_ne hie]
      exact h.law.coherent.members i hi q hq
  · have hsame : (cachePort (withMembers s e 0) e 0).reg 0x030B = s.reg 0x030B := by
      apply BitVec.eq_of_getLsbD_eq
      intro i hi
      change ((withMembers s e 0).reg 0x030B).getLsbD i = _
      rw [withMembers_bit he hi, vlan_table.member_addr (by omega) (by decide),
        vlan_table.member_addr (by omega) (by decide), if_neg (by omega), if_neg (by omega)]
    rw [hsame]
    exact h.enabled
  · rw [hdev]
    exact h.together
  · intro i hi hlo q hq
    rw [hnum] at hq
    rw [hmember i q hi hq]
    split_ifs
    · rfl
    · exact h.empty i hi hlo q hq

/-! ## Add -/

/-- The tests find a VID that is in the table. No test finds a table without a free entry, or a
VID that may not be added. -/
theorem gives_add (h : Inv s) (rest : List (List Char)) : Gives (cli_int_vlan_dotlq_add (arg :: rest)) s fun reply t =>
    if Known s (unsignedShort (atoi arg)) then reply = .existed (unsignedShort (atoi arg)) ∧ t = s
    else reply = .done ∧ t = cacheVid (withVid s (idleNum s.dev) (unsignedShort (atoi arg))) (idleNum s.dev)
      (unsignedShort (atoi arg)) := by
  have hcoherent := h.law.coherent
  refine gives_command (gives_dotlq h.enabled h.together ?_)
  have hroom : ¬ idleNum s.dev ≥ MAX_RCP_VLAN_NUM := Nat.not_le.mpr (idleNum_lt s.dev)
  rw [Gives, meets_bind, RCP_GetVlanIdleNum, meets_bind, meets_get, meets_pure, if_neg hroom, meets_bind,
    RCP_GetVlanExist, meets_bind, meets_get, meets_pure]
  by_cases hknown : Known s (unsignedShort (atoi arg))
  · rw [(exist_iff hcoherent).mpr hknown, if_pos rfl, meets_pure, if_pos hknown]
    exact ⟨rfl, rfl⟩
  · rw [Bool.eq_false_iff.mpr fun h => hknown ((exist_iff hcoherent).mp h), if_neg Bool.false_ne_true,
      meets_bind, meets_setVlanVID h.faithful (idleNum_lt s.dev), meets_pure, if_neg hknown]
    exact ⟨rfl, rfl⟩

theorem inv_add (h : Inv s) (hc : Careful s (.add (arg :: rest))) : Inv (step s (.add (arg :: rest))) := by
  obtain ⟨reply, -, ht⟩ := step_ends (c := .add (arg :: rest)) (gives_add h rest)
  generalize step s (.add (arg :: rest)) = t at ht
  by_cases hknown : Known s (unsignedShort (atoi arg))
  · rw [if_pos hknown] at ht
    rw [ht.2]
    exact h
  · obtain ⟨hadd, hfree⟩ := hc.resolve_left hknown
    have hidle := idleNum_free h.law.coherent
    rw [if_pos hfree] at hidle
    rw [if_neg hknown] at ht
    rw [ht.2]
    exact h.setVid (idleNum_lt s.dev) hidle.1 (.inr ⟨hknown, hadd⟩)

/-- An add that is not careful puts its VID into the cache all the same. -/
theorem adds_iff (h : Inv s) : (∃ reply,
    (Command.add (arg :: rest)).call s = .ok reply (step s (.add (arg :: rest))) ∧
    Adds s reply (step s (.add (arg :: rest))) (unsignedShort (atoi arg))) ↔ Careful s (.add (arg :: rest)) := by
  obtain ⟨reply, hx, ht⟩ := step_ends (c := .add (arg :: rest)) (gives_add h rest)
  generalize step s (.add (arg :: rest)) = t at hx ht
  have hends {P : Reply → Prop} :
      (∃ reply', (Command.add (arg :: rest)).call s = .ok reply' t ∧ P reply') ↔ P reply := by
    constructor
    · rintro ⟨reply', hx', hP⟩
      obtain ⟨rfl, -⟩ := EStateM.Result.ok.inj (hx.symm.trans hx')
      exact hP
    · exact fun hP => ⟨reply, hx, hP⟩
  rw [hends, Adds]
  change _ ↔ Known s _ ∨ _
  by_cases hknown : Known s (unsignedShort (atoi arg))
  · rw [if_pos hknown] at ht
    obtain ⟨rfl, rfl⟩ := ht
    rw [if_neg fun h => h.1 hknown]
    exact ⟨fun _ => .inl hknown, fun _ => ⟨by simp, rfl, rfl⟩⟩
  · rw [if_neg hknown] at ht
    obtain ⟨rfl, rfl⟩ := ht
    by_cases hgood : Addable (unsignedShort (atoi arg)) ∧ Free s
    · have hidle := idleNum_free h.law.coherent
      rw [if_pos hgood.2] at hidle
      rw [if_pos ⟨hknown, hgood⟩]
      exact ⟨fun _ => .inr hgood, fun _ => ⟨rfl, idleNum s.dev, idleNum_lt s.dev, hidle.1, hidle.2, rfl, rfl⟩⟩
    · rw [if_neg fun h => hgood h.2]
      exact ⟨fun h => absurd rfl h.1, fun h => absurd (h.resolve_left hknown) hgood⟩

/-! ## Delete -/

theorem gives_missing (h : Inv s) (hno : ¬ Known s (unsignedShort (atoi arg))) (rest : List (List Char)) :
    Gives (cli_int_vlan_dotlq_del (arg :: rest)) s fun _ t => t = s := by
  have hcoherent := h.law.coherent
  refine gives_command (gives_dotlq h.enabled h.together ?_)
  rw [Gives, meets_bind, RCP_GetVlanExist, meets_bind, meets_get, meets_pure,
    Bool.eq_false_iff.mpr fun h => hno ((exist_iff hcoherent).mp h), if_pos rfl]
  rfl

/-- The entry that a VID of the table names. -/
theorem numFromVID_known (h : Coherent s) (hknown : Known s vid) :
    numFromVID s.dev vid < 32 ∧ vidOf s.reg (numFromVID s.dev vid) = vid := by
  unfold numFromVID
  cases hfind : (List.range MAX_RCP_VLAN_NUM).find? fun i => s.dev.vlanVid i == vid with
  | none =>
    obtain ⟨e, he, hvid⟩ := hknown
    have hno := List.find?_eq_none.mp hfind e (List.mem_range.mpr he)
    rw [h.vids e he, hvid] at hno
    exact absurd (beq_self_eq_true vid) hno
  | some e =>
    have he : e < 32 := List.mem_range.mp (List.mem_of_find?_eq_some hfind)
    have hvid := List.find?_some (p := fun i => s.dev.vlanVid i == vid) hfind
    exact ⟨he, (h.vids e he).symm.trans (eq_of_beq hvid)⟩

/-- A delete of an entry that no port is in changes its VID, and nothing else. -/
theorem gives_del (h : Inv s) (hknown : Known s (unsignedShort (atoi arg)))
    (hnum : numFromVID s.dev (unsignedShort (atoi arg)) = e) (he : e < 32) (hpos : 1 ≤ e) (rest : List (List Char)) :
    Gives (cli_int_vlan_dotlq_del (arg :: rest)) s fun _ t => Inv t := by
  refine gives_command (gives_dotlq h.enabled h.together ?_)
  rw [Gives, meets_bind, RCP_GetVlanExist, meets_bind, meets_get, meets_pure, (exist_iff h.law.coherent).mpr hknown,
    if_neg (by decide), meets_bind, RCP_GetVlanNumFromVID, meets_bind, meets_get, meets_pure, hnum, meets_bind,
    meets_get, meets_bind]
  refine (meets_forM_inv (I := (· = s)) ?_ rfl).imp ?_ fun _ _ h => h
  · intro port hport t ht
    rw [show t = s from ht]
    obtain ⟨q, rfl⟩ : ∃ q, port = q + 1 := ⟨port - 1, by have hlo := (List.mem_range'_1.mp hport).1; omega⟩
    have hq : q < s.dev.numOfPorts := by have hhi := (List.mem_range'_1.mp hport).2; omega
    rw [meets_bind, meets_exist hq, h.law.coherent.members e he q hq, h.empty e he hpos q hq,
      when_false Bool.false_ne_true]
    rfl
  · rintro _ _ rfl
    have hclear := h.clear he hpos
    rw [meets_bind, meets_setVlanPort h.faithful he, meets_bind, meets_setVlanVID hclear.faithful he, meets_pure]
    exact hclear.setVid he hpos (.inl rfl)

theorem inv_del (h : Inv s) (hone : unsignedShort (atoi arg) ≠ 1) : Inv (step s (.del (arg :: rest))) := by
  by_cases hknown : Known s (unsignedShort (atoi arg))
  · obtain ⟨hlt, hvid⟩ := numFromVID_known h.law.coherent hknown
    generalize hnum : numFromVID s.dev (unsignedShort (atoi arg)) = e at hlt hvid
    have hpos : 1 ≤ e := by
      refine Nat.pos_of_ne_zero ?_
      rintro rfl
      exact hone (hvid.symm.trans h.law.first)
    obtain ⟨reply, -, ht⟩ := step_ends (c := .del (arg :: rest)) (gives_del h hknown hnum hlt hpos rest)
    exact ht
  · obtain ⟨reply, -, ht⟩ := step_ends (c := .del (arg :: rest)) (gives_missing h hknown rest)
    rw [ht]
    exact h

/-! ## Calls that return -/

/-- On a switch with `n` ports, whose writes do not fail, the call returns a value. -/
def Returns {α : Type} (n : Nat) (x : Rcp α) : Prop :=
  ∀ s : State, s.Faithful → s.dev.numOfPorts = n → Gives x s fun _ t => t.Faithful ∧ t.dev.numOfPorts = n

section
variable {α β : Type} {x : Rcp α} {q : Nat} {a : Accessor} {v : BitVec 16}

theorem returns_pure {b : α} : Returns n (pure b) := fun _ hs hn => ⟨hs, hn⟩

theorem Returns.bind {f : α → Rcp β} (hx : Returns n x) (hf : ∀ b, Returns n (f b)) : Returns n (x >>= f) := by
  intro s hs hn
  rw [Gives, meets_bind]
  exact (hx s hs hn).imp (fun b t ht => hf b t ht.1 ht.2) fun _ _ h => h

theorem returns_get : Returns n get := fun _ hs hn => ⟨hs, hn⟩

theorem returns_when {c : Prop} [Decidable c] {x : Rcp Unit} (hx : Returns n x) : Returns n (when c x) := by
  by_cases hc : c
  · rw [when_true hc]
    exact hx
  · rw [when_false hc]
    exact returns_pure

theorem returns_forM {f : α → Rcp Unit} {l : List α} (h : ∀ b ∈ l, Returns n (f b)) : Returns n (forM l f) := by
  induction l with
  | nil => exact returns_pure
  | cons b l ih =>
    obtain ⟨hb, hl⟩ := List.forall_mem_cons.mp h
    rw [List.forM_cons]
    exact hb.bind fun _ => ih hl

theorem returns_foldlM {f : β → α → Rcp β} {l : List α} (h : ∀ c, ∀ b ∈ l, Returns n (f c b)) (c : β) :
    Returns n (l.foldlM f c) := by
  induction l generalizing c with
  | nil => exact returns_pure
  | cons b l ih =>
    rw [List.foldlM_cons]
    exact (h c b List.mem_cons_self).bind fun c => ih (fun c d hd => h c d (List.mem_cons_of_mem b hd)) c

theorem returns_Get (hq : q < n) : Returns n (a.Get 1 (q + 1)) := by
  rintro s hs rfl
  rw [Gives, meets_Get hq]
  exact ⟨hs, rfl⟩

theorem returns_Set (hq : q < n) : Returns n (a.Set 1 (q + 1) v .RCP_CONFIG_2_REGISTER) := by
  rintro s hs rfl
  rw [Gives, meets_Set hs hq]
  exact ⟨hs, rfl⟩

theorem returns_exist (hq : q < n) : Returns n (RCP_GetVlanPortExist 1 (q + 1) e) := by
  rintro s hs rfl
  rw [Gives, meets_exist hq]
  exact ⟨hs, rfl⟩

theorem returns_setPort (he : e < 32) (data : BitVec 32) :
    Returns n (RCP_SetVlanPort e data .RCP_CONFIG_2_REGISTER) := by
  rintro s hs rfl
  rw [Gives, meets_setVlanPort hs he]
  refine ⟨withMembers_faithful.mpr hs, ?_⟩
  rw [cachePort, withMembers_dev]
  rfl

theorem returns_add (hq : q < n) : Returns n (RCP_SetVlanPortAdd 1 (q + 1) 0 .RCP_CONFIG_2_REGISTER) := by
  have hport : Returns n (RCPLPort2Port 1 (q + 1)) := by
    rintro s hs rfl
    rw [Gives, meets_lPort2Port ⟨by omega, hq⟩]
    exact ⟨hs, rfl⟩
  have hread (a : Nat) : Returns n (RCP_Read_Reg a) := returns_get.bind fun _ => returns_pure
  have hget : Returns n (RCP_GetVlanPort 0) := by
    refine (hread _).bind fun _ => returns_get.bind fun s => ?_
    split_ifs
    · exact (hread _).bind fun _ => returns_pure
    · exact returns_pure
  exact hport.bind fun _ => hget.bind fun _ => returns_setPort (by decide) _

theorem returns_pvid (hq : q < n) : Returns n (RCP_SetVlanPVID 1 (q + 1) v .RCP_CONFIG_2_REGISTER) :=
  (returns_get.bind fun _ => returns_pure).bind fun _ => returns_Set (a := .VlanPortIDAssignment) hq

theorem returns_leavePort (hq : q < n) : Returns n (leavePort vid (q + 1)) := by
  have hinsert : Returns n (RCP_SetVlanInsertPVID 1 (q + 1) 0 .RCP_CONFIG_2_REGISTER) :=
    returns_Set (a := .VlanInsertPVID) hq
  have htag : Returns n (RCP_SetVlanOutPortTag 1 (q + 1) 0 .RCP_CONFIG_2_REGISTER) :=
    returns_Set (a := .VlanOutPortTag) hq
  have hcount : Returns n (countTags (q + 1)) :=
    returns_foldlM (fun _ _ _ => (returns_exist hq).bind fun _ => returns_pure) 0
  have hpvid : Returns n (RCP_GetVlanPVID 1 (q + 1)) :=
    (returns_Get (a := .VlanPortIDAssignment) hq).bind fun _ _ hs hn => by
      rw [RCP_GetVlanVID, Gives, meets_getRegField]
      exact ⟨hs, hn⟩
  have hfirst : Returns n (backToFirst (q + 1) .RCP_CONFIG_2_REGISTER) :=
    (returns_pvid hq).bind fun _ => hinsert.bind fun _ => htag.bind fun _ => returns_add hq
  have hport (tagnum : Nat) : Returns n (firstPortBack tagnum (q + 1) .RCP_CONFIG_2_REGISTER) := by
    refine (returns_when ((returns_exist hq).bind fun _ => returns_when (hinsert.bind fun _ => htag))).bind fun _ => ?_
    exact returns_when ((returns_exist hq).bind fun _ =>
      returns_when (hinsert.bind fun _ => htag.bind fun _ => returns_add hq))
  refine (returns_Get (a := .VlanOutPortTag) hq).bind fun output => ?_
  split_ifs
  · exact (returns_pvid hq).bind fun _ => returns_add hq
  · refine hcount.bind fun tagnum => hpvid.bind fun pvid => (returns_when ?_).bind fun _ =>
      returns_when (returns_pvid hq)
    split_ifs
    · exact hfirst
    · exact hport tagnum

end

/-- Entry 0 has no VID behind a delete of VID 1. -/
theorem del_first (h : Inv s) (hone : unsignedShort (atoi arg) = 1) : ¬ Law (step s (.del (arg :: rest))) := by
  have hknown : Known s (unsignedShort (atoi arg)) := ⟨0, by decide, h.law.first.trans hone.symm⟩
  obtain ⟨hlt, hvid⟩ := numFromVID_known h.law.coherent hknown
  have hnum : numFromVID s.dev (unsignedShort (atoi arg)) = 0 := by
    refine h.law.distinct _ hlt 0 (by decide) ?_ (hvid.trans (hone.trans h.law.first.symm))
    rw [hvid, hone]
    decide
  have hgives : Gives (cli_int_vlan_dotlq_del (arg :: rest)) s fun _ t => vidOf t.reg 0 = 0 := by
    refine gives_command (gives_dotlq h.enabled h.together ?_)
    rw [Gives, meets_bind, RCP_GetVlanExist, meets_bind, meets_get, meets_pure, (exist_iff h.law.coherent).mpr hknown,
      if_neg (by decide), meets_bind, RCP_GetVlanNumFromVID, meets_bind, meets_get, meets_pure, hnum, meets_bind,
      meets_get, meets_bind]
    have hloop : Returns s.dev.numOfPorts (forM (ports s.dev.numOfPorts) fun port => do
        let portExist ← RCP_GetVlanPortExist 1 port 0
        when portExist (leavePort (unsignedShort (atoi arg)) port)) := by
      refine returns_forM fun port hport => ?_
      obtain ⟨q, rfl⟩ : ∃ q, port = q + 1 := ⟨port - 1, by have hlo := (List.mem_range'_1.mp hport).1; omega⟩
      have hq : q < s.dev.numOfPorts := by have hhi := (List.mem_range'_1.mp hport).2; omega
      exact (returns_exist hq).bind fun _ => returns_when (returns_leavePort hq)
    refine (hloop s h.faithful rfl).imp ?_ fun _ _ h => h
    rintro _ t ⟨ht, -⟩
    have hclear : (cachePort (withMembers t 0 0) 0 0).Faithful := withMembers_faithful.mpr ht
    rw [meets_bind, meets_setVlanPort ht (by decide), meets_bind, meets_setVlanVID hclear (by decide), meets_pure]
    have hfirst : (0 : Nat) < 32 := by decide
    exact (vid_write hfirst hfirst (by decide) _).trans (if_pos rfl)
  obtain ⟨reply, -, hzero⟩ := step_ends (c := .del (arg :: rest)) hgives
  intro hlaw
  exact absurd (hlaw.first.symm.trans hzero) (by decide)

/-! ## Commands -/

theorem step_short (h : Inv s) {c : Command} (hc : c = .add [] ∨ c = .del []) : step s c = s := by
  have hshort : Gives c.call s fun _ t => t = s := by
    rcases hc with rfl | rfl
    · exact gives_command (gives_dotlq h.enabled h.together rfl)
    · exact gives_command (gives_dotlq h.enabled h.together rfl)
  obtain ⟨reply, -, ht⟩ := step_ends hshort
  exact ht

theorem inv_step (h : Inv s) (c : Command) (hc : Careful s c) : Inv (step s c) := by
  match c with
  | .add (_ :: _) => exact inv_add h hc
  | .del (_ :: _) => exact inv_del h hc
  | .add [] =>
    rw [step_short h (.inl rfl)]
    exact h
  | .del [] =>
    rw [step_short h (.inr rfl)]
    exact h

theorem keeps_iff (h : Inv s) (c : Command) : Keeps s c ↔ Careful s c := by
  match c with
  | .add (arg :: rest) =>
    constructor
    · rintro ⟨-, hadds⟩
      exact (adds_iff h).mp (hadds arg rest rfl)
    · intro hc
      refine ⟨(inv_step h _ hc).law, ?_⟩
      rintro _ _ ⟨⟩
      exact (adds_iff h).mpr hc
  | .del (arg :: rest) =>
    constructor
    · rintro ⟨hlaw, -⟩ hone
      exact del_first h hone hlaw
    · exact fun hc => ⟨(inv_step h _ hc).law, by simp⟩
  | .add [] => exact ⟨fun _ => trivial, fun hc => ⟨(inv_step h _ hc).law, by simp⟩⟩
  | .del [] => exact ⟨fun _ => trivial, fun hc => ⟨(inv_step h _ hc).law, by simp⟩⟩

end

/-- The commands keep the table as long as they are careful, and no longer. -/
theorem careful_commands_keep_the_table (s : State) (cs : List Command) (h : Fresh s) :
    Along step Keeps s cs ↔ Along step Careful s cs :=
  along_iff_along (I := Inv) (P := Keeps) (Q := Careful) (fun _ c hs hc => inv_step hs c hc)
    (fun _ c hs => keeps_iff hs c) h.inv cs

/-! ## Runs -/

def add (vid : Nat) : Command := .add [Nat.toDigits 10 vid]

def del (vid : Nat) : Command := .del [Nat.toDigits 10 vid]

/-- Eight ports, all of them in entry 0. -/
def start : State where
  dev := ⟨.GH1508, 0, 1, fun e => if e = 0 then 0xff else 0, fun e => if e = 0 then 1 else 0, 0⟩
  reg a := if a = 0x030B then 0x10 else if a = 0x031D then 0xff else if a = 0x031F then 1 else 0
  eeprom _ := 0
  writes := []
  writeFails _ _ := false
  behind := 0
  words := []

theorem start_fresh : Fresh start := by
  have hvid : ∀ e < 32, start.dev.vlanVid e = vidOf start.reg e := by decide +kernel
  have hin : ∀ e < 32, ∀ q < 8, (start.dev.vlanPort e).getLsbD q = isMember start.reg e q := by decide +kernel
  have hempty : ∀ e < 32, 1 ≤ e → vidOf start.reg e = 0 ∧ ∀ q < 8, isMember start.reg e q = false := by decide +kernel
  exact ⟨⟨hvid, hin⟩, fun _ _ => rfl, by decide, by decide, by decide, hempty⟩

/-- A VLAN too many, a VID without a place in the table, and VID 1. -/
theorem some_commands_break_the_table : Fresh start ∧
    ¬ Along step Keeps start ((List.range' 2 32).map add) ∧ ¬ Keeps start (add 4096) ∧ ¬ Keeps start (del 1) := by
  refine ⟨start_fresh, ?_, ?_, ?_⟩
  · rw [along_iff_along (I := Inv) (Q := Careful) (fun _ c hs hc => inv_step hs c hc) (fun _ c hs => keeps_iff hs c)
      start_fresh.inv]
    decide +kernel
  · rw [keeps_iff start_fresh.inv]
    decide +kernel
  · rw [keeps_iff start_fresh.inv]
    decide +kernel

theorem the_table_after_five_commands : Along step Keeps start [add 2, add 5, add 2, del 2, add 4094] :=
  (careful_commands_keep_the_table start _ start_fresh).mpr (by decide +kernel)

end gwdonu.vlan_commands
