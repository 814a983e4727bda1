-- What the VLAN calls write, field by field, as long as the cache agrees with the switch: from
-- the same registers, a call always gives the same value and leaves the same registers.
import Gwdonu.Lib.Writes
import Gwdonu.VlanTable

namespace gwdonu.vlan_edits

open Function calls runs writes rcp_registers register_fields vlans vlan_table
open rcp (RCP_RET)

/-! ## Fields -/

def memberAt (e q : Nat) : Place := ⟨RT8326_VLAN_PORT_MEMBER e (q / 16), q % 16, 1⟩

def vidAt (e : Nat) : Place := ⟨RT8326_VLAN_VID e, 0, 12⟩

def indexAt (q : Nat) : Place := ⟨RT8326_VLAN_IDX q, VID_Index_Pos q, 5⟩

def tagAt (q : Nat) : Place := ⟨RT8326_VLAN_PRI q, PriTagCtrl_Pos q, 2⟩

def insertAt (q : Nat) : Place := ⟨RT8326_VLAN_PVID_CTL_BASE, q, 1⟩

def isMember (r : Regs 16) (e q : Nat) : Bool := (read r (memberAt e q)).getLsbD 0

def vidOf (r : Regs 16) (e : Nat) : BitVec 16 := read r (vidAt e)

def indexOf (r : Regs 16) (q : Nat) : Nat := (read r (indexAt q)).toNat

def tagOf (r : Regs 16) (q : Nat) : BitVec 16 := read r (tagAt q)

/-- The field is none of those that the device keeps a copy of. -/
def Uncached (p : Place) : Prop := ∀ e < 32, (∀ q < 32, p.Apart (memberAt e q)) ∧ p.Apart (vidAt e)

section
variable {r : Regs 16} {e e' q q' : Nat} {p : Place} {v : BitVec 16}

theorem apart_of_addr {p q : Place} (h : p.addr ≠ q.addr) : p.Apart q := fun haddr => absurd haddr h

theorem memberAt_addr (he : e < 32) (hq : q < 32) : (memberAt e q).addr = 0x031D + 3 * e + q / 16 :=
  member_addr (by omega) (by omega)

theorem vidAt_addr (he : e < 32) : (vidAt e).addr = 0x031F + 3 * e := vid_addr (by omega)

theorem indexAt_addr (q : Nat) : (indexAt q).addr = 0x030C + q / 2 := index_addr q

theorem tagAt_addr (q : Nat) : (tagAt q).addr = 0x0319 + q / 8 := tag_addr q

theorem indexAt_off (q : Nat) : (indexAt q).off = q % 2 * 8 := index_pos q

theorem tagAt_off (q : Nat) : (tagAt q).off = q % 8 * 2 := by
  have hmod : q &&& 7 = q % 8 := Nat.and_two_pow_sub_one_eq_mod q 3
  change 0 + (q &&& (8 - 1)) * 2 = q % 8 * 2
  rw [Nat.zero_add, hmod]

theorem member_apart (he : e < 32) (hq : q < 32) (he' : e' < 32) (hq' : q' < 32) (h : e ≠ e' ∨ q ≠ q') :
    (memberAt e q).Apart (memberAt e' q') := by
  intro haddr
  rw [memberAt_addr he hq, memberAt_addr he' hq'] at haddr
  change q % 16 + 1 ≤ q' % 16 ∨ q' % 16 + 1 ≤ q % 16
  omega

theorem member_apart_vid (he : e < 32) (hq : q < 32) (he' : e' < 32) : (memberAt e q).Apart (vidAt e') := by
  refine apart_of_addr ?_
  rw [memberAt_addr he hq, vidAt_addr he']
  omega

theorem index_uncached (hq : q < 32) : Uncached (indexAt q) := by
  intro e he
  refine ⟨fun q' hq' => apart_of_addr ?_, apart_of_addr ?_⟩
  · rw [indexAt_addr, memberAt_addr he hq']
    omega
  · rw [indexAt_addr, vidAt_addr he]
    omega

theorem tag_uncached (hq : q < 32) : Uncached (tagAt q) := by
  intro e he
  refine ⟨fun q' hq' => apart_of_addr ?_, apart_of_addr ?_⟩
  · rw [tagAt_addr, memberAt_addr he hq']
    omega
  · rw [tagAt_addr, vidAt_addr he]
    omega

theorem insert_uncached : Uncached (insertAt q) := by
  have haddr : (insertAt q).addr = 0x037D := rfl
  intro e he
  refine ⟨fun q' hq' => apart_of_addr ?_, apart_of_addr ?_⟩
  · rw [haddr, memberAt_addr he hq']
    omega
  · rw [haddr, vidAt_addr he]
    omega

theorem index_apart (h : q ≠ q') : (indexAt q).Apart (indexAt q') := by
  intro haddr
  rw [indexAt_addr, indexAt_addr] at haddr
  rw [indexAt_off, indexAt_off]
  change _ + 5 ≤ _ ∨ _ + 5 ≤ _
  omega

theorem tag_apart (h : q ≠ q') : (tagAt q).Apart (tagAt q') := by
  intro haddr
  rw [tagAt_addr, tagAt_addr] at haddr
  rw [tagAt_off, tagAt_off]
  change _ + 2 ≤ _ ∨ _ + 2 ≤ _
  omega

theorem insert_apart (h : q ≠ q') : (insertAt q).Apart (insertAt q') := by
  intro _
  change q + 1 ≤ q' ∨ q' + 1 ≤ q
  omega

theorem index_apart_insert (hq : q < 32) : (indexAt q).Apart (insertAt q') := by
  refine apart_of_addr ?_
  rw [indexAt_addr]
  change _ ≠ 0x037D
  omega

theorem tag_apart_insert (hq : q < 32) : (tagAt q).Apart (insertAt q') := by
  refine apart_of_addr ?_
  rw [tagAt_addr]
  change _ ≠ 0x037D
  omega

/-- Of one port, or of a port and one with a lower number behind it. -/
theorem index_apart_tag (hq : q < 32) (h : q ≤ q') (hq' : q' < 32) : (indexAt q).Apart (tagAt q') := by
  refine apart_of_addr ?_
  rw [indexAt_addr, tagAt_addr]
  omega

theorem isMember_eq (r : Regs 16) (e q : Nat) : isMember r e q = (r (memberAt e q).addr).getLsbD (q % 16) := by
  rw [isMember, read_bit]
  simp [memberAt]

/-- A member is set, or no member is cleared. -/
theorem write_member (h : isMember r e q = decide (v = 1)) (hv : v = 0 ∨ v = 1) : write r ⟨memberAt e q, v⟩ = r := by
  have hlen (i : Nat) (hi : 0 < i) : (read r (memberAt e q)).getLsbD i = false := by
    rw [read_bit, decide_eq_false (by change ¬ i < 1; omega), Bool.false_and]
  refine write_eq_self (BitVec.eq_of_getLsbD_eq fun i hi => ?_)
  rcases Nat.eq_zero_or_pos i with rfl | hpos
  · rw [← isMember, h]
    rcases hv with rfl | rfl <;> rfl
  · rw [hlen i hpos]
    have hzero : ¬ i = 0 := Nat.pos_iff_ne_zero.mp hpos
    rcases hv with rfl | rfl <;> simp [hzero]

end

/-! ## Registers and their cache -/

/-- The state is the device `d` with the registers `r`: the cache has their members and VIDs, and
no entry has a member behind the ports of the device. -/
structure At (d : RCP_DEV) (r : Regs 16) (s : State) : Prop where
  reg : s.reg = r
  faithful : s.Faithful
  dev : s.dev = { d with vlanPort := s.dev.vlanPort }
  members : ∀ e < 32, ∀ q, (s.dev.vlanPort e).getLsbD q = (decide (q < d.numOfPorts) && isMember r e q)
  within : ∀ e < 32, ∀ q < 32, d.numOfPorts ≤ q → (16 < d.numOfPorts ∨ q < 16) → isMember r e q = false
  vids : ∀ e < 32, d.vlanVid e = vidOf r e
  beyond : ∀ e, 32 ≤ e → s.dev.vlanPort e = d.vlanPort e

/-- The call gives `a`, and leaves the registers `r'` of `r`, where `R` says which registers a state has. -/
def Moves {α : Type} (R : Regs 16 → State → Prop) (x : Rcp α) (r : Regs 16) (a : α) (r' : Regs 16) : Prop :=
  ∀ s, R r s → Gives x s fun b t => b = a ∧ R r' t

/-- The call gives `a`, and leaves the registers `r'` of `r`. -/
def Evals {α : Type} (d : RCP_DEV) (x : Rcp α) (r : Regs 16) (a : α) (r' : Regs 16) : Prop :=
  ∀ s, At d r s → Gives x s fun b t => b = a ∧ At d r' t

section
variable {α β : Type} {d : RCP_DEV} {R : Regs 16 → State → Prop} {r r' r'' : Regs 16} {s t : State} {x : Rcp α}
  {y : Rcp β} {f : α → Rcp β}
  {a : α} {b : β}

theorem At.numOfPorts (h : At d r s) : s.dev.numOfPorts = d.numOfPorts := by
  rw [h.dev]
  rfl

/-- The cache has nothing else than the registers. -/
theorem At.unique (hs : At d r s) (ht : At d r t) : t.reg = s.reg ∧ t.dev = s.dev := by
  refine ⟨ht.reg.trans hs.reg.symm, ?_⟩
  have hport : t.dev.vlanPort = s.dev.vlanPort := by
    funext e
    by_cases he : e < 32
    · apply BitVec.eq_of_getLsbD_eq
      intro q _
      rw [hs.members e he q, ht.members e he q]
    · rw [hs.beyond e (Nat.not_lt.mp he), ht.beyond e (Nat.not_lt.mp he)]
  rw [ht.dev, hs.dev, hport]

/-! ## Calls -/

theorem Evals.ends (h : Evals d x r a r') (hs : At d r s) : ∃ t, x s = .ok a t ∧ At d r' t := by
  obtain ⟨b, t, hx, rfl, ht⟩ := (h s hs).exists
  exact ⟨t, hx, ht⟩

theorem moves_pure : Moves R (pure a) r a r := fun _ hs => ⟨rfl, hs⟩

theorem Moves.bind (hx : Moves R x r a r') (hf : Moves R (f a) r' b r'') : Moves R (x >>= f) r b r'' := by
  intro s hs
  rw [Gives, meets_bind]
  refine (hx s hs).imp ?_ fun _ _ h => h
  rintro _ t ⟨rfl, ht⟩
  exact hf t ht

/-- What the call makes of the state does not count, but for the device and the registers. -/
theorem moves_get {f : State → Rcp β} (h : ∀ s, R r s → Moves R (f s) r b r') : Moves R (get >>= f) r b r' :=
  fun s hs => h s hs s hs

theorem moves_when {c : Prop} [Decidable c] {x : Rcp Unit} (hyes : c → Moves R x r () r') (hno : ¬ c → r' = r) :
    Moves R (when c x) r () r' := by
  by_cases hc : c
  · rw [when_true hc]
    exact hyes hc
  · rw [when_false hc, hno hc]
    exact moves_pure

/-- A call that is made if the condition holds writes no more than its list. -/
theorem moves_when_run {c : Prop} [Decidable c] {x : Rcp Unit} {l : List (Write 16)}
    (h : c → Moves R x r () (run write r l)) : Moves R (when c x) r () (run write r (if c then l else [])) := by
  by_cases hc : c
  · rw [when_true hc, if_pos hc]
    exact h hc
  · rw [when_false hc, if_neg hc]
    exact moves_pure

theorem moves_forM {f : α → Rcp Unit} {F : Regs 16 → α → Regs 16} {l : List α}
    (h : ∀ a ∈ l, ∀ r, Moves R (f a) r () (F r a)) (r : Regs 16) : Moves R (forM l f) r () (run F r l) := by
  induction l generalizing r with
  | nil => exact moves_pure
  | cons a l ih =>
    obtain ⟨ha, hl⟩ := List.forall_mem_cons.mp h
    rw [List.forM_cons]
    exact (ha r).bind (ih hl _)

theorem evals_pure : Evals d (pure a) r a r := moves_pure

theorem Evals.bind (hx : Evals d x r a r') (hf : Evals d (f a) r' b r'') : Evals d (x >>= f) r b r'' :=
  Moves.bind hx hf

theorem evals_get {f : State → Rcp β} (h : ∀ s, At d r s → Evals d (f s) r b r') : Evals d (get >>= f) r b r' :=
  moves_get h

theorem evals_when_run {c : Prop} [Decidable c] {x : Rcp Unit} {l : List (Write 16)}
    (h : c → Evals d x r () (run write r l)) : Evals d (when c x) r () (run write r (if c then l else [])) :=
  moves_when_run h

theorem evals_forM {f : α → Rcp Unit} {F : Regs 16 → α → Regs 16} {l : List α}
    (h : ∀ a ∈ l, ∀ r, Evals d (f a) r () (F r a)) (r : Regs 16) : Evals d (forM l f) r () (run F r l) :=
  moves_forM h r

end

/-! ## Members -/

/-- What `RCP_GetVlanPort` makes of the registers. -/
def portBits (d : RCP_DEV) (r : Regs 16) (e : Nat) : BitVec 32 :=
  if d.numOfPorts > 16 then
    ((r (RT8326_VLAN_PORT_MEMBER e 1)).setWidth 32 <<< 16) ||| (r (RT8326_VLAN_PORT_MEMBER e 0)).setWidth 32
  else (r (RT8326_VLAN_PORT_MEMBER e 0)).setWidth 32

section
variable {d : RCP_DEV} {r : Regs 16} {s : State} {p : Place} {e e' q i a : Nat} {v : BitVec 16} {data : BitVec 32}

theorem port_lt (hq : q < d.numOfPorts) : q < 32 := Nat.lt_of_lt_of_le hq (numOfPorts_le d)

/-- Members that the registers of the device hold. -/
theorem portBits_bit (hq : q < 32) :
    (portBits d r e).getLsbD q = (decide (16 < d.numOfPorts ∨ q < 16) && isMember r e q) := by
  rw [portBits, isMember_eq]
  by_cases hlow : q < 16
  · have hreg : (memberAt e q).addr = RT8326_VLAN_PORT_MEMBER e 0 := by
      change RT8326_VLAN_PORT_MEMBER e (q / 16) = _
      rw [Nat.div_eq_of_lt hlow]
    rw [hreg, Nat.mod_eq_of_lt hlow]
    split_ifs <;> simp [hlow, hq]
  · have hreg : (memberAt e q).addr = RT8326_VLAN_PORT_MEMBER e 1 := by
      have hdiv : q / 16 = 1 := by omega
      change RT8326_VLAN_PORT_MEMBER e (q / 16) = _
      rw [hdiv]
    have hmod : q % 16 = q - 16 := by omega
    have hout : (r (RT8326_VLAN_PORT_MEMBER e 0)).getLsbD q = false := BitVec.getLsbD_of_ge _ _ (Nat.not_lt.mp hlow)
    rw [hreg, hmod]
    split_ifs with hmany
    · simp [hlow, hq, hmany, hout]
    · simp [hlow, hq, hmany, hout]

theorem meets_exist {Q : Bool → State → Prop} {E : RCP_RET → State → Prop} (hq : q < s.dev.numOfPorts) :
    Meets (RCP_GetVlanPortExist 1 (q + 1) e) s Q E ↔ Q ((s.dev.vlanPort e).getLsbD q) s := by
  have hq32 := port_lt hq
  have hbit : (((1#32 <<< (q + 1 - 1)) &&& s.dev.vlanPort e) >>> (q + 1 - 1) == 1) = (s.dev.vlanPort e).getLsbD q := by
    rw [Bool.eq_iff_iff, beq_iff_eq, Nat.add_sub_cancel]
    constructor
    · intro hone
      have hzero := congrArg (BitVec.getLsbD · 0) hone
      simpa [hq32] using hzero
    · intro htrue
      apply BitVec.eq_of_getLsbD_eq
      intro i hi
      by_cases hzero : i = 0
      · subst hzero
        simpa [hq32] using htrue
      · simp [hzero]
  rw [RCP_GetVlanPortExist, meets_bind, meets_lPort2Port ⟨by omega, hq⟩, meets_bind, meets_get, meets_pure, hbit]

theorem withMembers_bit (he : e < 32) (hi : i < 16) : ((withMembers s e data).reg a).getLsbD i =
    if a = RT8326_VLAN_PORT_MEMBER e 0 then data.getLsbD i
    else if 16 < s.dev.numOfPorts ∧ a = RT8326_VLAN_PORT_MEMBER e 1 then data.getLsbD (16 + i)
    else (s.reg a).getLsbD i := by
  rw [withMembers, member_addr (by omega) (by decide), member_addr (by omega) (by decide)]
  by_cases hmany : s.dev.numOfPorts ≤ 16
  · rw [if_pos hmany, put_reg, if_neg (c := 16 < _ ∧ _) fun h => Nat.not_lt.mpr hmany h.1]
    by_cases ha : a = 0x031D + 3 * e + 0
    · rw [if_pos ha, ha, update_self]
      simp [hi]
    · rw [if_neg ha, update_of_ne ha]
  · rw [if_neg hmany, put_reg, put_reg]
    by_cases ha : a = 0x031D + 3 * e + 0
    · rw [if_pos ha, update_of_ne (by omega), ha, update_self]
      simp [hi]
    · rw [if_neg ha]
      by_cases hb : a = 0x031D + 3 * e + 1
      · rw [if_pos ⟨Nat.not_le.mp hmany, hb⟩, hb, update_self]
        simp [hi]
      · rw [if_neg fun h => hb h.2, update_of_ne hb, update_of_ne ha]

theorem isMember_withMembers (he : e < 32) (he' : e' < 32) (hq : q < 32) (hwide : 16 < s.dev.numOfPorts ∨ q < 16) :
    isMember (withMembers s e data).reg e' q = if e' = e then data.getLsbD q else isMember s.reg e' q := by
  rw [isMember_eq, isMember_eq, withMembers_bit he (Nat.mod_lt q (by decide)), memberAt_addr he' hq,
    member_addr (by omega) (by decide), member_addr (by omega) (by decide)]
  by_cases heq : e' = e
  · subst heq
    rw [if_pos rfl]
    by_cases hlow : q < 16
    · rw [if_pos (by omega), Nat.mod_eq_of_lt hlow]
    · have hback : 16 + q % 16 = q := by omega
      rw [if_neg (by omega), if_pos ⟨by omega, by omega⟩, hback]
  · rw [if_neg (by omega), if_neg (by omega), if_neg heq]

theorem withMembers_faithful : (withMembers s e data).Faithful ↔ s.Faithful := by
  rw [withMembers]
  split_ifs <;> exact Iff.rfl

theorem meets_setVlanPort {Q : Unit → State → Prop} {E : RCP_RET → State → Prop} (h : s.Faithful) (he : e < 32) :
    Meets (RCP_SetVlanPort e data .RCP_CONFIG_2_REGISTER) s Q E ↔ Q () (cachePort (withMembers s e data) e data) := by
  rw [RCP_SetVlanPort, meets_bind, when_false (by omega), meets_pure, meets_bind,
    when_true (c := RCP_FLAG.RCP_CONFIG_2_REGISTER.toRegister = true) rfl, setMembers, meets_bind, meets_get,
    meets_bind, State.Sure.write (h _)]
  by_cases hmany : s.dev.numOfPorts ≤ 16
  · rw [when_false (not_not.mpr hmany), meets_pure, withMembers, if_pos hmany]
    exact Iff.rfl
  · rw [when_true hmany, State.Sure.write (put_sure.mpr (h _)), withMembers, if_neg hmany]
    exact Iff.rfl

/-- The members with the bit of one port changed, written back. -/
theorem withMembers_setBit (hr : s.reg = r) (hn : s.dev.numOfPorts = d.numOfPorts) (hq : q < d.numOfPorts) (he : e < 32)
    (b : BitVec 16) (f : BitVec 32 → BitVec 32)
    (hf : ∀ data i, (f data).getLsbD i = if i = q then b.getLsbD 0 else data.getLsbD i) :
    (withMembers s e (f (portBits d r e))).reg = write r ⟨memberAt e q, b⟩ := by
  have hq32 := port_lt hq
  apply regs_ext
  intro a i hi
  rw [withMembers_bit he hi, write_bit]
  dsimp only
  rw [memberAt_addr he hq32, member_addr (by omega) (by decide), member_addr (by omega) (by decide), hn]
  change _ = if a = 0x031D + 3 * e + q / 16 ∧ i < 16 ∧ q % 16 ≤ i ∧ i < q % 16 + 1 then b.getLsbD (i - q % 16) else _
  by_cases hlow : a = 0x031D + 3 * e + 0
  · rw [if_pos hlow, hf, portBits_bit (by omega), isMember_eq, memberAt_addr he (by omega)]
    have haddr : 0x031D + 3 * e + i / 16 = a := by omega
    have hmod : i % 16 = i := by omega
    by_cases hiq : i = q
    · rw [if_pos hiq, if_pos (by omega)]
      congr 1
      omega
    · rw [if_neg hiq, if_neg (by omega), haddr, hmod]
      simp [hi]
  · rw [if_neg hlow]
    by_cases hhigh : 16 < d.numOfPorts ∧ a = 0x031D + 3 * e + 1
    · rw [if_pos hhigh, hf, portBits_bit (by omega), isMember_eq, memberAt_addr he (by omega)]
      have haddr : 0x031D + 3 * e + (16 + i) / 16 = a := by omega
      have hmod : (16 + i) % 16 = i := by omega
      by_cases hiq : 16 + i = q
      · rw [if_pos hiq, if_pos (by omega)]
        congr 1
        omega
      · rw [if_neg hiq, if_neg (by omega), haddr, hmod]
        simp [hhigh.1]
    · rw [if_neg hhigh, if_neg (by omega), hr]
theorem isMember_write (h : p.Apart (memberAt e q)) : isMember (write r ⟨p, v⟩) e q = isMember r e q := by
  rw [isMember, isMember, read_write h]

end

/-! ## The calls for one port -/

/-- The relation `R` of registers and states is one that the calls for a port keep: the state has the
registers, the device but for its copy of the members, and the copy has the members. -/
structure Books (d : RCP_DEV) (R : Regs 16 → State → Prop) : Prop where
  reg : ∀ {r s}, R r s → s.reg = r
  faithful : ∀ {r s}, R r s → s.Faithful
  dev : ∀ {r s}, R r s → s.dev = { d with vlanPort := s.dev.vlanPort }
  members : ∀ {r s}, R r s → ∀ e < 32, ∀ q < d.numOfPorts, (s.dev.vlanPort e).getLsbD q = isMember r e q
  put : ∀ {r s p v}, R r s → Uncached p → R (write r ⟨p, v⟩) (s.put p.addr (fields.put (s.reg p.addr) v p.off p.len))
  bit : ∀ {r s e q}, R r s → q < d.numOfPorts → e < 32 → ∀ (b : BitVec 16) (f : BitVec 32 → BitVec 32),
    (∀ data i, (f data).getLsbD i = if i = q then b.getLsbD 0 else data.getLsbD i) →
      R (write r ⟨memberAt e q, b⟩) (cachePort (withMembers s e (f (portBits d r e))) e (f (portBits d r e)))

namespace Books

variable {d : RCP_DEV} {R : Regs 16 → State → Prop} {r : Regs 16} {s : State} {e q : Nat} {v : BitVec 16} {a : Accessor}
  (hR : Books d R)
include hR

theorem numOfPorts (hs : R r s) : s.dev.numOfPorts = d.numOfPorts := by
  rw [hR.dev hs]
  rfl

theorem get (hq : q < d.numOfPorts) : Moves R (a.Get 1 (q + 1)) r (read r ⟨a.addr q, a.pos q, a.len⟩) r := by
  intro s hs
  obtain rfl := hR.reg hs
  rw [Gives, meets_Get (hR.numOfPorts hs ▸ hq)]
  exact ⟨rfl, hs⟩

theorem set (hq : q < d.numOfPorts) (hp : Uncached ⟨a.addr q, a.pos q, a.len⟩) :
    Moves R (a.Set 1 (q + 1) v .RCP_CONFIG_2_REGISTER) r () (write r ⟨⟨a.addr q, a.pos q, a.len⟩, v⟩) := by
  intro s hs
  rw [Gives, meets_Set (hR.faithful hs) (hR.numOfPorts hs ▸ hq)]
  exact ⟨rfl, hR.put hs hp⟩

theorem getTag (hq : q < d.numOfPorts) : Moves R (RCP_GetVlanOutPortTag 1 (q + 1)) r (tagOf r q) r :=
  hR.get (a := .VlanOutPortTag) hq

theorem tag (hq : q < d.numOfPorts) :
    Moves R (RCP_SetVlanOutPortTag 1 (q + 1) v .RCP_CONFIG_2_REGISTER) r () (write r ⟨tagAt q, v⟩) :=
  hR.set (a := .VlanOutPortTag) hq (tag_uncached (port_lt hq))

theorem insert (hq : q < d.numOfPorts) :
    Moves R (RCP_SetVlanInsertPVID 1 (q + 1) v .RCP_CONFIG_2_REGISTER) r () (write r ⟨insertAt q, v⟩) :=
  hR.set (a := .VlanInsertPVID) hq insert_uncached

theorem getVid (e : Nat) : Moves R (RCP_GetVlanVID e) r (vidOf r e) r := by
  intro s hs
  obtain rfl := hR.reg hs
  rw [Gives, RCP_GetVlanVID, meets_getRegField]
  exact ⟨rfl, hs⟩

theorem getPvid (hq : q < d.numOfPorts) : Moves R (RCP_GetVlanPVID 1 (q + 1)) r (vidOf r (indexOf r q)) r :=
  (hR.get (a := .VlanPortIDAssignment) hq).bind (hR.getVid _)

theorem num : Moves R (RCP_GetVlanNumFromVID v) r (numFromVID d v) r := by
  refine moves_get fun s hs => ?_
  have hnum : numFromVID s.dev v = numFromVID d v := by
    rw [hR.dev hs]
    rfl
  rw [hnum]
  exact moves_pure

theorem pvid (hq : q < d.numOfPorts) : Moves R (RCP_SetVlanPVID 1 (q + 1) v .RCP_CONFIG_2_REGISTER) r ()
    (write r ⟨indexAt q, BitVec.ofNat 16 (numFromVID d v)⟩) :=
  hR.num.bind (hR.set (a := .VlanPortIDAssignment) hq (index_uncached (port_lt hq)))

theorem getPort : Moves R (RCP_GetVlanPort e) r (portBits d r e) r := by
  refine (?_ : Moves R (RCP_Read_Reg (RT8326_VLAN_PORT_MEMBER e 0)) r (r (RT8326_VLAN_PORT_MEMBER e 0)) r).bind
    (moves_get fun s hs => ?_)
  · rintro s hs
    obtain rfl := hR.reg hs
    exact ⟨rfl, hs⟩
  · rw [hR.numOfPorts hs, portBits]
    split_ifs
    · rintro s hs
      obtain rfl := hR.reg hs
      exact ⟨rfl, hs⟩
    · exact moves_pure

theorem exist (hq : q < d.numOfPorts) (he : e < 32) :
    Moves R (RCP_GetVlanPortExist 1 (q + 1) e) r (isMember r e q) r := by
  intro s hs
  rw [Gives, meets_exist (hR.numOfPorts hs ▸ hq), hR.members hs e he q hq]
  exact ⟨rfl, hs⟩

theorem lPort2Port (hq : q < d.numOfPorts) : Moves R (RCPLPort2Port 1 (q + 1)) r q r := by
  intro s hs
  rw [Gives, meets_lPort2Port ⟨by omega, hR.numOfPorts hs ▸ hq⟩]
  exact ⟨rfl, hs⟩

/-- The calls that change one member: the bit of the port is set or cleared in the registers. -/
theorem setBit (hq : q < d.numOfPorts) (he : e < 32) (b : BitVec 16) (f : BitVec 32 → BitVec 32)
    (hf : ∀ data i, (f data).getLsbD i = if i = q then b.getLsbD 0 else data.getLsbD i) :
    Moves R (RCP_SetVlanPort e (f (portBits d r e)) .RCP_CONFIG_2_REGISTER) r () (write r ⟨memberAt e q, b⟩) := by
  intro s hs
  rw [Gives, meets_setVlanPort (hR.faithful hs) he]
  exact ⟨rfl, hR.bit hs hq he b f hf⟩

theorem add (hq : q < d.numOfPorts) (he : e < 32) :
    Moves R (RCP_SetVlanPortAdd 1 (q + 1) e .RCP_CONFIG_2_REGISTER) r () (write r ⟨memberAt e q, 1⟩) := by
  refine (hR.lPort2Port hq).bind (hR.getPort.bind ?_)
  refine hR.setBit hq he 1 (· ||| 1#32 <<< q) fun data i => ?_
  have hq := port_lt hq
  split_ifs with hiq
  · simp [hiq, hq]
  · by_cases hi : i < 32
    · have hne : ¬ i < q → i - q ≠ 0 := by omega
      by_cases hlt : i < q
      · simp [hlt]
      · simp [hlt, hne hlt]
    · simp [BitVec.getLsbD_of_ge _ i (Nat.not_lt.mp hi)]

theorem delete (hq : q < d.numOfPorts) (he : e < 32) :
    Moves R (RCP_SetVlanPortDelete 1 (q + 1) e .RCP_CONFIG_2_REGISTER) r () (write r ⟨memberAt e q, 0⟩) := by
  refine (hR.lPort2Port hq).bind (hR.getPort.bind ?_)
  refine hR.setBit hq he 0 (· &&& ~~~(1#32 <<< q)) fun data i => ?_
  have hq := port_lt hq
  split_ifs with hiq
  · simp [hiq, hq]
  · by_cases hi : i < 32
    · have hne : ¬ i < q → i - q ≠ 0 := by omega
      by_cases hlt : i < q
      · simp [hlt, hi]
      · simp [hlt, hi, hne hlt]
    · simp [BitVec.getLsbD_of_ge _ i (Nat.not_lt.mp hi)]

end Books

/-! ## Where the cache agrees -/

section
variable {d : RCP_DEV} {r r' : Regs 16} {s : State} {p : Place} {e e' q i a : Nat} {v : BitVec 16} {data : BitVec 32}

/-- A write to a field that is not in the cache. -/
theorem At.put (h : At d r s) (hp : Uncached p) :
    At d (write r ⟨p, v⟩) (s.put p.addr (fields.put (s.reg p.addr) v p.off p.len)) := by
  obtain rfl := h.reg
  refine ⟨rfl, h.faithful, h.dev, ?_, ?_, ?_, h.beyond⟩
  · intro e he q
    rw [put_dev, h.members e he q]
    by_cases hq : q < d.numOfPorts
    · rw [isMember_write ((hp e he).1 q (Nat.lt_of_lt_of_le hq (numOfPorts_le d)))]
    · simp [hq]
  · intro e he q hq hge hwide
    rw [isMember_write ((hp e he).1 q hq)]
    exact h.within e he q hq hge hwide
  · intro e he
    rw [vidOf, read_write (hp e he).2]
    exact h.vids e he

theorem At.portBits (h : At d r s) (he : e < 32) : portBits d r e = s.dev.vlanPort e := by
  apply BitVec.eq_of_getLsbD_eq
  intro q hq
  rw [portBits_bit hq, h.members e he q]
  by_cases hport : q < d.numOfPorts
  · have hlow : 16 < d.numOfPorts ∨ q < 16 := by omega
    simp [hport, hlow]
  · by_cases hlow : 16 < d.numOfPorts ∨ q < 16
    · rw [h.within e he q hq (Nat.not_lt.mp hport) hlow]
      simp
    · simp [hport, hlow]

/-- The members of an entry are set in the registers and in the cache. -/
theorem At.setPort (h : At d r s) (he : e < 32) (hdata : ∀ q < 32, d.numOfPorts ≤ q → data.getLsbD q = false) :
    At d (withMembers s e data).reg (cachePort (withMembers s e data) e data) := by
  obtain rfl := h.reg
  have hn := h.numOfPorts
  refine ⟨rfl, ?_, ?_, ?_, ?_, ?_, ?_⟩
  · exact withMembers_faithful.mpr h.faithful
  · rw [cachePort, withMembers_dev, h.dev]
  · intro e' he' q
    rw [cachePort, withMembers_dev]
    change (update s.dev.vlanPort e data e').getLsbD q = _
    by_cases hq : q < d.numOfPorts
    · rw [isMember_withMembers he he' (port_lt hq) (by omega)]
      by_cases heq : e' = e
      · subst heq
        rw [update_self]
        simp [hq]
      · rw [update_of_ne heq, if_neg heq, h.members e' he' q]
    · have hout : (s.dev.vlanPort e').getLsbD q = false := by
        rw [h.members e' he' q]
        simp [hq]
      by_cases heq : e' = e
      · subst heq
        rw [update_self]
        by_cases hq32 : q < 32
        · simp [hq, hdata q hq32 (Nat.not_lt.mp hq)]
        · simp [hq, BitVec.getLsbD_of_ge data q (Nat.not_lt.mp hq32)]
      · rw [update_of_ne heq, hout]
        simp [hq]
  · intro e' he' q hq hge hwide
    rw [isMember_withMembers he he' hq (hn ▸ hwide)]
    split_ifs
    · exact hdata q hq hge
    · exact h.within e' he' q hq hge hwide
  · intro e' he'
    have hvid : vidOf (withMembers s e data).reg e' = vidOf s.reg e' := vid_withMembers (by omega) (by omega)
    rw [hvid]
    exact h.vids e' he'
  · intro e' he'
    rw [cachePort, withMembers_dev]
    exact (update_of_ne (by omega) ..).trans (h.beyond e' he')

theorem at_books : Books d (At d) where
  reg := At.reg
  faithful := At.faithful
  dev := At.dev
  members := by
    intro r s hs e he q hq
    rw [hs.members e he q, decide_eq_true hq, Bool.true_and]
  put := At.put
  bit := by
    intro r s e q hs hq he b f hf
    rw [← withMembers_setBit hs.reg hs.numOfPorts hq he b f hf]
    refine hs.setPort he fun i _ hge => ?_
    rw [hf, if_neg (by omega), hs.portBits he, hs.members e he i]
    simp [hge]

theorem evals_getTag (hq : q < d.numOfPorts) : Evals d (RCP_GetVlanOutPortTag 1 (q + 1)) r (tagOf r q) r :=
  at_books.getTag hq

theorem evals_tag (hq : q < d.numOfPorts) :
    Evals d (RCP_SetVlanOutPortTag 1 (q + 1) v .RCP_CONFIG_2_REGISTER) r () (write r ⟨tagAt q, v⟩) := at_books.tag hq

theorem evals_insert (hq : q < d.numOfPorts) :
    Evals d (RCP_SetVlanInsertPVID 1 (q + 1) v .RCP_CONFIG_2_REGISTER) r () (write r ⟨insertAt q, v⟩) :=
  at_books.insert hq

theorem evals_numFromVID : Evals d (RCP_GetVlanNumFromVID v) r (numFromVID d v) r := at_books.num

theorem evals_pvid (hq : q < d.numOfPorts) : Evals d (RCP_SetVlanPVID 1 (q + 1) v .RCP_CONFIG_2_REGISTER) r ()
    (write r ⟨indexAt q, BitVec.ofNat 16 (numFromVID d v)⟩) := at_books.pvid hq

theorem evals_exist (hq : q < d.numOfPorts) (he : e < 32) :
    Evals d (RCP_GetVlanPortExist 1 (q + 1) e) r (isMember r e q) r := at_books.exist hq he

theorem evals_add (hq : q < d.numOfPorts) (he : e < 32) :
    Evals d (RCP_SetVlanPortAdd 1 (q + 1) e .RCP_CONFIG_2_REGISTER) r () (write r ⟨memberAt e q, 1⟩) :=
    at_books.add hq he

/-! ## A whole entry -/

theorem clear_bit (l : List Nat) (hi : i < 16) : (run write r (l.map fun q => ⟨memberAt e q, 0⟩) a).getLsbD i =
    ((r a).getLsbD i && !l.any fun q => a = (memberAt e q).addr ∧ i = q % 16) := by
  induction l generalizing r with
  | nil => simp
  | cons q l ih =>
    rw [List.map_cons, run_cons, ih, write_bit, List.any_cons]
    by_cases hq : a = (memberAt e q).addr ∧ i = q % 16
    · have hin : a = (memberAt e q).addr ∧ i < 16 ∧ (memberAt e q).off ≤ i ∧
        i < (memberAt e q).off + (memberAt e q).len :=
        ⟨hq.1, hi, hq.2.ge, by rw [hq.2]; exact Nat.lt_succ_self _⟩
      rw [if_pos hin, decide_eq_true hq]
      simp
    · have hout : ¬ (a = (memberAt e q).addr ∧ i < 16 ∧ (memberAt e q).off ≤ i ∧
          i < (memberAt e q).off + (memberAt e q).len) := by
        rintro ⟨haddr, -, hlo, hhi⟩
        change q % 16 ≤ i at hlo
        change i < q % 16 + 1 at hhi
        exact hq ⟨haddr, by omega⟩
      rw [if_neg hout, decide_eq_false hq, Bool.false_or]

/-- All ports leave the entry. -/
theorem evals_clear (he : e < 32) : Evals d (RCP_SetVlanPort e 0 .RCP_CONFIG_2_REGISTER) r ()
    (run write r ((List.range d.numOfPorts).map fun q => ⟨memberAt e q, 0⟩)) := by
  intro s hs
  have hzero (q : Nat) : (0 : BitVec 32).getLsbD q = false := BitVec.getLsbD_zero
  have hbits : (withMembers s e 0).reg = run write r ((List.range d.numOfPorts).map fun q => ⟨memberAt e q, 0⟩) := by
    apply regs_ext
    intro a i hi
    have hcache (q : Nat) (hq : q < 32) (hwide : 16 < d.numOfPorts ∨ q < 16) (haddr : a = (memberAt e q).addr)
        (hmod : i = q % 16) : ((r a).getLsbD i &&
          !(List.range d.numOfPorts).any fun q => a = (memberAt e q).addr ∧ i = q % 16) = false := by
      by_cases hport : q < d.numOfPorts
      · have hany : ((List.range d.numOfPorts).any fun q => a = (memberAt e q).addr ∧ i = q % 16) = true :=
          List.any_eq_true.mpr ⟨q, List.mem_range.mpr hport, decide_eq_true ⟨haddr, hmod⟩⟩
        rw [hany]
        simp
      · have hout := hs.within e he q hq (Nat.not_lt.mp hport) hwide
        rw [isMember_eq, ← haddr, ← hmod] at hout
        rw [hout, Bool.false_and]
    rw [withMembers_bit he hi, clear_bit _ hi, hs.numOfPorts, member_addr (by omega) (by decide),
      member_addr (by omega) (by decide), hzero, hzero]
    split_ifs with hlow hhigh
    · exact (hcache i (by omega) (.inr hi) (by rw [memberAt_addr he (by omega)]; omega) (by omega)).symm
    · exact (hcache (16 + i) (by omega) (.inl hhigh.1) (by rw [memberAt_addr he (by omega)]; omega) (by omega)).symm
    · have hany : ((List.range d.numOfPorts).any fun q => a = (memberAt e q).addr ∧ i = q % 16) = false := by
        rw [List.any_eq_false]
        intro q hq
        have hq := List.mem_range.mp hq
        have hle := numOfPorts_le d
        rw [memberAt_addr he (by omega), decide_eq_true_eq]
        rintro ⟨haddr, hmod⟩
        omega
      rw [hany, hs.reg]
      simp
  rw [Gives, meets_setVlanPort hs.faithful he, ← hbits]
  exact ⟨rfl, hs.setPort he fun q _ _ => hzero q⟩

theorem meets_setVlanVID {v : BitVec 16} {Q : Unit → State → Prop} {E : RCP_RET → State → Prop} (h : s.Faithful)
    (he : e < 32) : Meets (RCP_SetVlanVID e v .RCP_CONFIG_2_REGISTER) s Q E ↔ Q () (cacheVid (withVid s e v) e v) := by
  rw [RCP_SetVlanVID, meets_bind, when_false (by omega), meets_pure, meets_bind,
    when_true (c := RCP_FLAG.RCP_CONFIG_2_REGISTER.toRegister = true) rfl, meets_setRegisterField,
    State.Sure.write (h _)]
  exact Iff.rfl

/-- The device with another VID in an entry of its cache. -/
def withCachedVid (d : RCP_DEV) (e : Nat) (v : BitVec 16) : RCP_DEV := { d with vlanVid := update d.vlanVid e v }

theorem vidOf_write {v : BitVec 16} (he : e < 32) (he' : e' < 32) (hv : v.toNat < 4096) :
    vidOf (write r ⟨vidAt e, v⟩) e' = if e' = e then v else vidOf r e' := by
  by_cases heq : e' = e
  · subst heq
    have hfit : (vidAt e').off + (vidAt e').len ≤ 16 := by change 0 + 12 ≤ 16; decide
    rw [if_pos rfl, vidOf, read_write_self hfit hv]
  · have hapart : (vidAt e).Apart (vidAt e') := by
      refine apart_of_addr ?_
      rw [vidAt_addr he, vidAt_addr he']
      omega
    rw [if_neg heq, vidOf, read_write hapart, vidOf]

theorem vids_setVid {v : BitVec 16} (h : ∀ e < 32, d.vlanVid e = vidOf r e) (he : e < 32) (hv : v.toNat < 4096) :
    ∀ e' < 32, (withCachedVid d e v).vlanVid e' = vidOf (write r ⟨vidAt e, v⟩) e' := by
  intro e' he'
  rw [vidOf_write he he' hv, ← h e' he']
  exact update_apply ..

theorem dev_setVid {v : BitVec 16} (h : s.dev = { d with vlanPort := s.dev.vlanPort }) :
    (cacheVid (withVid s e v) e v).dev = { withCachedVid d e v with vlanPort := s.dev.vlanPort } := by
  have hvid : s.dev.vlanVid = d.vlanVid := by rw [h]
  rw [cacheVid, withVid_dev, hvid]
  generalize s.dev = dev at h ⊢
  rw [h]
  rfl

/-- A VID that fits its field is set in the registers and in the cache. -/
theorem At.setVid {v : BitVec 16} (h : At d r s) (he : e < 32) (hv : v.toNat < 4096) :
    At (withCachedVid d e v) (write r ⟨vidAt e, v⟩) (cacheVid (withVid s e v) e v) := by
  obtain rfl := h.reg
  refine ⟨rfl, h.faithful, dev_setVid h.dev, ?_, ?_, vids_setVid h.vids he hv, h.beyond⟩
  · intro e' he' q
    change (s.dev.vlanPort e').getLsbD q = (decide (q < d.numOfPorts) && _)
    rw [h.members e' he' q]
    by_cases hq : q < d.numOfPorts
    · rw [isMember_write (member_apart_vid he' (port_lt hq) he).symm]
    · simp [hq]
  · intro e' he' q hq hge hwide
    rw [isMember_write (member_apart_vid he' hq he).symm]
    exact h.within e' he' q hq hge hwide

end

end gwdonu.vlan_edits
