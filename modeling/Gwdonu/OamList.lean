-- The message list over any run: no two nodes share an address or a serial,
-- no node that was freed is on the list, and every node has the block that
-- was allocated for it.
import Gwdonu.OamReceive
import Gwdonu.Lib.Runs
import Mathlib.Data.List.Nodup

namespace gwdonu.oam

open runs

/-! ## A well formed list -/

/-- The length of the block of a message of `n` bytes: one byte more, and no
block at all for the empty message. -/
def blockLength (n : Nat) : Option Nat := if n = 0 then none else some (n + 1)

structure Oam.Wf (st : Oam) : Prop where
  addrs : (st.list.map (·.addr)).Nodup
  serials : (st.list.map (·.SendSerNo)).Nodup
  fresh : ∀ p ∈ st.list, p.addr < st.next
  gone : ∀ a ∈ st.freed, a < st.next
  live : ∀ p ∈ st.list, p.addr ∉ st.freed
  block : ∀ p ∈ st.list, p.pPayLoad.map List.length = blockLength p.WholePktLen

theorem wf_init : Oam.init.Wf := by
  constructor <;> simp [Oam.init]

@[simp] theorem extend_addr (p : GWTT_OAM_MESSAGE_NODE) (d : List UInt8) :
    (p.extend d).addr = p.addr := rfl

@[simp] theorem extend_serial (p : GWTT_OAM_MESSAGE_NODE) (d : List UInt8) :
    (p.extend d).SendSerNo = p.SendSerNo := rfl

@[simp] theorem extend_whole (p : GWTT_OAM_MESSAGE_NODE) (d : List UInt8) :
    (p.extend d).WholePktLen = p.WholePktLen := rfl

@[simp] theorem extend_timer (p : GWTT_OAM_MESSAGE_NODE) (d : List UInt8) :
    (p.extend d).TimerID = p.TimerID := rfl

@[simp] theorem extend_received (p : GWTT_OAM_MESSAGE_NODE) (d : List UInt8) :
    (p.extend d).RevPktLen = p.RevPktLen + d.length := rfl

@[simp] theorem overlay_length (b d : List UInt8) (off : Nat) :
    (overlay b off d).length = b.length := by
  simp only [overlay, List.length_take, List.length_append, List.length_drop]
  omega

@[simp] theorem extend_block (p : GWTT_OAM_MESSAGE_NODE) (d : List UInt8) :
    (p.extend d).pPayLoad.map List.length = p.pPayLoad.map List.length := by
  simp only [GWTT_OAM_MESSAGE_NODE.extend, GWTT_OAM_MESSAGE_NODE.fill, Option.map_map]
  congr 1
  funext b
  simp

@[simp] theorem emptyBlock_length (n : Nat) : (emptyBlock n).map List.length = blockLength n := by
  unfold emptyBlock blockLength
  split <;> simp

theorem firstNode_block (ntohs : UInt16 → UInt16) (m : Mem) (a t : Nat) :
    (firstNode ntohs m a t).pPayLoad.map List.length = blockLength (wholeOf ntohs m) := by
  rw [← emptyBlock_length]
  simp only [firstNode, Option.map_map]
  congr 1
  funext b
  simp

/-! ## The node of a serial -/

theorem getNode_mem {st : Oam} {s : UInt32} {p : GWTT_OAM_MESSAGE_NODE}
    (h : GwOamMessageListGetNode st s = some p) : p ∈ st.list ∧ p.SendSerNo = s :=
  ⟨List.mem_of_find?_eq_some h, by simpa [eq_comm] using List.find?_some h⟩

theorem getNode_none {st : Oam} {s : UInt32} :
    GwOamMessageListGetNode st s = none ↔ ∀ p ∈ st.list, p.SendSerNo ≠ s := by
  unfold GwOamMessageListGetNode
  rw [List.find?_eq_none]
  simp [eq_comm]

/-- On a well formed list, the node of a serial is the only one. -/
theorem getNode_iff {st : Oam} (h : st.Wf) {s : UInt32} {p : GWTT_OAM_MESSAGE_NODE} :
    GwOamMessageListGetNode st s = some p ↔ p ∈ st.list ∧ p.SendSerNo = s := by
  refine ⟨getNode_mem, ?_⟩
  rintro ⟨hp, rfl⟩
  cases hq : GwOamMessageListGetNode st p.SendSerNo with
  | none => exact absurd rfl (getNode_none.mp hq p hp)
  | some q =>
    have hq' := getNode_mem hq
    rw [List.inj_on_of_nodup_map h.serials hq'.1 hp hq'.2]

theorem getNode_add (st : Oam) (p : GWTT_OAM_MESSAGE_NODE) (s : UInt32) :
    GwOamMessageListGetNode (GwOamMessageListNodeAdd st p) s =
      if s = p.SendSerNo then some p else GwOamMessageListGetNode st s := by
  simp only [GwOamMessageListGetNode, GwOamMessageListNodeAdd, List.find?_cons]
  split <;> simp_all

/-! ## What each operation keeps -/

/-- A node that may take the place of node `p`. -/
structure Replaces (q p : GWTT_OAM_MESSAGE_NODE) : Prop where
  addr : q.addr = p.addr
  serial : q.SendSerNo = p.SendSerNo
  block : q.pPayLoad.map List.length = blockLength q.WholePktLen

theorem mem_store {st : Oam} {p q r : GWTT_OAM_MESSAGE_NODE} (hp : p ∈ st.list)
    (ha : q.addr = p.addr) :
    r ∈ (st.store q).list ↔ r = q ∨ (r ∈ st.list ∧ r.addr ≠ q.addr) := by
  simp only [Oam.store, List.mem_map]
  refine ⟨?_, ?_⟩
  · rintro ⟨x, hx, rfl⟩
    split
    · exact Or.inl rfl
    · rename_i hne
      exact Or.inr ⟨hx, hne⟩
  · rintro (rfl | ⟨hr, hne⟩)
    · exact ⟨p, hp, if_pos ha.symm⟩
    · exact ⟨r, hr, if_neg hne⟩

theorem wf_store {st : Oam} (h : st.Wf) {p q : GWTT_OAM_MESSAGE_NODE} (hp : p ∈ st.list)
    (hq : Replaces q p) : (st.store q).Wf := by
  have haddrs : (st.store q).list.map (·.addr) = st.list.map (·.addr) := by
    rw [Oam.store, List.map_map]
    apply List.map_congr_left
    intro r _
    by_cases he : r.addr = q.addr <;> simp [he]
  have hserials : (st.store q).list.map (·.SendSerNo) = st.list.map (·.SendSerNo) := by
    rw [Oam.store, List.map_map]
    apply List.map_congr_left
    intro r hr
    by_cases he : r.addr = q.addr
    · obtain rfl := List.inj_on_of_nodup_map h.addrs hr hp (he.trans hq.addr)
      simp [he, hq.serial]
    · simp [he]
  refine ⟨?_, ?_, ?_, ?_, ?_, ?_⟩
  · rw [haddrs]
    exact h.addrs
  · rw [hserials]
    exact h.serials
  · intro r hr
    rcases (mem_store hp hq.addr).mp hr with rfl | ⟨hr, -⟩
    · exact hq.addr ▸ h.fresh p hp
    · exact h.fresh r hr
  · exact h.gone
  · intro r hr
    rcases (mem_store hp hq.addr).mp hr with rfl | ⟨hr, -⟩
    · exact hq.addr ▸ h.live p hp
    · exact h.live r hr
  · intro r hr
    rcases (mem_store hp hq.addr).mp hr with rfl | ⟨hr, -⟩
    · exact hq.block
    · exact h.block r hr

theorem getNode_store {st : Oam} (h : st.Wf) {p q : GWTT_OAM_MESSAGE_NODE} (hp : p ∈ st.list)
    (hq : Replaces q p) (s : UInt32) :
    GwOamMessageListGetNode (st.store q) s =
      if s = q.SendSerNo then some q else GwOamMessageListGetNode st s := by
  ext r
  rw [getNode_iff (wf_store h hp hq), mem_store hp hq.addr]
  split
  · rename_i hs
    subst hs
    refine ⟨?_, ?_⟩
    · rintro ⟨rfl | ⟨hr, hne⟩, hrs⟩
      · rfl
      · obtain rfl := List.inj_on_of_nodup_map h.serials hr hp (hrs.trans hq.serial)
        exact absurd hq.addr.symm hne
    · intro he
      obtain rfl := Option.some.inj he
      exact ⟨Or.inl rfl, rfl⟩
  · rename_i hs
    rw [getNode_iff h]
    refine ⟨?_, ?_⟩
    · rintro ⟨rfl | ⟨hr, -⟩, hrs⟩
      · exact absurd hrs.symm hs
      · exact ⟨hr, hrs⟩
    · rintro ⟨hr, hrs⟩
      refine ⟨Or.inr ⟨hr, ?_⟩, hrs⟩
      intro he
      obtain rfl := List.inj_on_of_nodup_map h.addrs hr hp (he.trans hq.addr)
      exact hs (hrs.symm.trans hq.serial.symm)

theorem mem_eraseP_addr {l : List GWTT_OAM_MESSAGE_NODE} (hn : (l.map (·.addr)).Nodup) {a : Nat}
    {r : GWTT_OAM_MESSAGE_NODE} :
    r ∈ l.eraseP (fun p => p.addr = a) ↔ r ∈ l ∧ r.addr ≠ a := by
  induction l with
  | nil => simp
  | cons p ps ih =>
    simp only [List.map_cons, List.nodup_cons] at hn
    by_cases hp : p.addr = a
    · subst hp
      have hps : ∀ r ∈ ps, r.addr ≠ p.addr := by
        intro r hr he
        exact hn.1 (he ▸ List.mem_map_of_mem hr)
      simp only [List.eraseP_cons, decide_true, cond_true, List.mem_cons]
      refine ⟨?_, ?_⟩
      · intro hr
        exact ⟨Or.inr hr, hps r hr⟩
      · rintro ⟨rfl | hr, hne⟩
        · exact absurd rfl hne
        · exact hr
    · simp only [List.eraseP_cons, hp, decide_false, cond_false, List.mem_cons, ih hn.2]
      refine ⟨?_, ?_⟩
      · rintro (rfl | ⟨hr, hne⟩)
        · exact ⟨Or.inl rfl, hp⟩
        · exact ⟨Or.inr hr, hne⟩
      · rintro ⟨rfl | hr, hne⟩
        · exact Or.inl rfl
        · exact Or.inr ⟨hr, hne⟩

theorem mem_rem {st : Oam} (h : st.Wf) {a : Nat} {r : GWTT_OAM_MESSAGE_NODE} :
    r ∈ (GwOamMessageListNodeRem st a).list ↔ r ∈ st.list ∧ r.addr ≠ a :=
  mem_eraseP_addr h.addrs

theorem wf_free {st : Oam} (h : st.Wf) {a : Nat} (ha : a < st.next) :
    (GwOamMessageListNodeFree st a).Wf := by
  have hsub : List.Sublist (GwOamMessageListNodeRem st a).list st.list := List.eraseP_sublist
  refine ⟨?_, ?_, ?_, ?_, ?_, ?_⟩
  · exact h.addrs.sublist (hsub.map _)
  · exact h.serials.sublist (hsub.map _)
  · exact fun p hp => h.fresh p (hsub.subset hp)
  · intro b hb
    rcases List.mem_cons.mp hb with rfl | hb
    · exact ha
    · exact h.gone b hb
  · intro p hp
    have hp' := (mem_rem h).mp hp
    simp only [GwOamMessageListNodeFree, List.mem_cons, not_or]
    exact ⟨hp'.2, h.live p hp'.1⟩
  · exact fun p hp => h.block p (hsub.subset hp)

/-- A node that is off the list is no longer found, and the others still are. -/
theorem getNode_free {st : Oam} (h : st.Wf) {p : GWTT_OAM_MESSAGE_NODE} (hp : p ∈ st.list)
    (s : UInt32) :
    GwOamMessageListGetNode (GwOamMessageListNodeFree st p.addr) s =
      if s = p.SendSerNo then none else GwOamMessageListGetNode st s := by
  have hw := wf_free h (h.fresh p hp)
  ext r
  have hmem : r ∈ (GwOamMessageListNodeFree st p.addr).list ↔ r ∈ st.list ∧ r.addr ≠ p.addr :=
    mem_rem h
  rw [getNode_iff hw, hmem]
  split
  · rename_i hs
    subst hs
    simp only [reduceCtorEq, iff_false]
    rintro ⟨⟨hr, hne⟩, hrs⟩
    exact hne (by rw [List.inj_on_of_nodup_map h.serials hr hp hrs])
  · rename_i hs
    rw [getNode_iff h]
    refine ⟨?_, ?_⟩
    · rintro ⟨⟨hr, -⟩, hrs⟩
      exact ⟨hr, hrs⟩
    · rintro ⟨hr, hrs⟩
      refine ⟨⟨hr, ?_⟩, hrs⟩
      intro he
      obtain rfl := List.inj_on_of_nodup_map h.addrs hr hp he
      exact hs hrs.symm

theorem wf_add {st : Oam} (h : st.Wf) {p : GWTT_OAM_MESSAGE_NODE} (hfresh : st.next ≤ p.addr)
    {st' : Oam} (hlist : st'.list = st.list) (hfreed : st'.freed = st.freed)
    (hnext : p.addr < st'.next) (hnone : GwOamMessageListGetNode st p.SendSerNo = none)
    (hblock : p.pPayLoad.map List.length = blockLength p.WholePktLen) :
    (GwOamMessageListNodeAdd st' p).Wf := by
  have hnew : ∀ q ∈ st.list, q.addr < p.addr := fun q hq =>
    Nat.lt_of_lt_of_le (h.fresh q hq) hfresh
  unfold GwOamMessageListNodeAdd
  constructor
  all_goals simp only [hlist, hfreed, List.map_cons, List.nodup_cons, List.forall_mem_cons]
  · refine ⟨?_, h.addrs⟩
    rintro hm
    obtain ⟨q, hq, he⟩ := List.mem_map.mp hm
    exact absurd he (Nat.ne_of_lt (hnew q hq))
  · refine ⟨?_, h.serials⟩
    rintro hm
    obtain ⟨q, hq, he⟩ := List.mem_map.mp hm
    exact getNode_none.mp hnone q hq he
  · exact ⟨hnext, fun q hq => Nat.lt_trans (hnew q hq) hnext⟩
  · intro a ha
    have := h.gone a ha
    omega
  · refine ⟨fun hm => ?_, h.live⟩
    have := h.gone _ hm
    omega
  · exact ⟨hblock, h.block⟩

/-- Timers come and go without a trace on the list. -/
theorem wf_timers {st st' : Oam} (h : st.Wf) (hlist : st'.list = st.list)
    (hfreed : st'.freed = st.freed) (hnext : st.next ≤ st'.next) : st'.Wf := by
  refine ⟨?_, ?_, ?_, ?_, ?_, ?_⟩
  · exact hlist ▸ h.addrs
  · exact hlist ▸ h.serials
  · intro p hp
    exact Nat.lt_of_lt_of_le (h.fresh p (hlist ▸ hp)) hnext
  · intro a ha
    exact Nat.lt_of_lt_of_le (h.gone a (hfreed ▸ ha)) hnext
  · rw [hlist, hfreed]
    exact h.live
  · rw [hlist]
    exact h.block

@[simp] theorem timer_add_list (mal : Malloc) (st : Oam) (d : Nat) :
    (gw_timer_add mal st d).1.list = st.list := by
  unfold gw_timer_add
  split <;> rfl

@[simp] theorem timer_add_freed (mal : Malloc) (st : Oam) (d : Nat) :
    (gw_timer_add mal st d).1.freed = st.freed := by
  unfold gw_timer_add
  split <;> rfl

@[simp] theorem getNode_timer_add (mal : Malloc) (st : Oam) (d : Nat) (s : UInt32) :
    GwOamMessageListGetNode (gw_timer_add mal st d).1 s = GwOamMessageListGetNode st s := by
  simp [GwOamMessageListGetNode]

theorem timer_add_next (mal : Malloc) (st : Oam) (d : Nat) :
    st.next ≤ (gw_timer_add mal st d).1.next := by
  unfold gw_timer_add
  split
  · exact Nat.le_succ _
  · exact Nat.le_refl _

@[simp] theorem timer_del_list (st : Oam) (t : Nat) : (gw_timer_del st t).list = st.list := rfl

@[simp] theorem timer_del_freed (st : Oam) (t : Nat) : (gw_timer_del st t).freed = st.freed := rfl

@[simp] theorem timer_del_next (st : Oam) (t : Nat) : (gw_timer_del st t).next = st.next := rfl

theorem wf_timer_add {st : Oam} (h : st.Wf) (mal : Malloc) (d : Nat) :
    (gw_timer_add mal st d).1.Wf :=
  wf_timers h (by simp) (by simp) (timer_add_next mal st d)

theorem wf_timer_del {st : Oam} (h : st.Wf) (t : Nat) : (gw_timer_del st t).Wf :=
  wf_timers h rfl rfl (Nat.le_refl _)

/-! ## Any run keeps the list well formed -/

section
variable (ntohs : UInt16 → UInt16)

theorem replaces_extend {st : Oam} (h : st.Wf) {p : GWTT_OAM_MESSAGE_NODE} (hp : p ∈ st.list)
    (d : List UInt8) : Replaces (p.extend d) p :=
  ⟨rfl, rfl, by rw [extend_block, extend_whole, h.block p hp]⟩

theorem wf_receive {st : Oam} (h : st.Wf) (mal : Malloc) (m : Mem) :
    (CommOnuMsgReveive ntohs mal st m).state.Wf := by
  have hr := receives ntohs mal st m
  generalize CommOnuMsgReveive ntohs mal st m = r at hr
  cases hr with
  | refused => exact h
  | whole ho _ =>
    exact wf_add h (Nat.le_refl _) rfl rfl (Nat.lt_succ_self _) ho.unknown
      (firstNode_block ntohs m _ _)
  | first st' handle ho _ hadd =>
    have hnext := timer_add_next mal { st with next := st.next + 1 } st.next
    rw [hadd] at hnext
    refine wf_add h (Nat.le_refl _) ?_ ?_ hnext ho.unknown (firstNode_block ntohs m _ _)
    · simpa [hadd] using timer_add_list mal { st with next := st.next + 1 } st.next
    · simpa [hadd] using timer_add_freed mal { st with next := st.next + 1 } st.next
  | last p he _ =>
    have hp := (getNode_mem he.known).1
    exact wf_store (wf_timer_del h _) hp (replaces_extend h hp _)
  | middle p he _ =>
    have hp := (getNode_mem he.known).1
    have hw := wf_timer_add (wf_timer_del h p.TimerID) mal p.addr
    have hp' : p ∈ (gw_timer_add mal (gw_timer_del st p.TimerID) p.addr).1.list := by simpa using hp
    exact wf_store hw hp' (replaces_extend h hp _)

theorem wf_timeout {st : Oam} (h : st.Wf) (data : Nat) (junk : UInt32) :
    (OamMessageRecevTimeOut st data junk).Wf := by
  unfold OamMessageRecevTimeOut
  dsimp only
  split
  · exact h
  · rename_i p hp
    exact wf_free h (h.fresh p (getNode_mem hp).1)

/-- What happens to the message list: a frame comes in, a reassembly timer
runs out, or someone gives back a node that he was handed. -/
inductive OamEvent where
  | receive (mal : Malloc) (MessagData : Mem)
  | timeout (data : Nat) (junk : UInt32)
  | free (pNode : Nat)

def Oam.event (st : Oam) : OamEvent → Oam
  | .receive mal MessagData => (CommOnuMsgReveive ntohs mal st MessagData).state
  | .timeout data junk => OamMessageRecevTimeOut st data junk
  | .free pNode => if pNode < st.next then GwOamMessageListNodeFree st pNode else st

theorem wf_event {st : Oam} (h : st.Wf) (e : OamEvent) : (st.event ntohs e).Wf := by
  cases e with
  | receive mal m => exact wf_receive ntohs h mal m
  | timeout data junk => exact wf_timeout h data junk
  | free a =>
    change (if a < st.next then GwOamMessageListNodeFree st a else st).Wf
    split
    · rename_i ha
      exact wf_free h ha
    · exact h

theorem wf_run (es : List OamEvent) : (run (Oam.event ntohs) Oam.init es).Wf :=
  run_inv (I := Oam.Wf) (P := fun _ _ => True) (fun _ e h _ => wf_event ntohs h e) wf_init
    (along_true _ _)

end

end gwdonu.oam
