-- The law of reassembly timers: an incomplete message owns one pending timer,
-- and the frames that break this.
import Gwdonu.OamHandle

namespace gwdonu.oam

open pri_queue runs

/-! ## Who owns which timer -/

def Complete (p : GWTT_OAM_MESSAGE_NODE) : Prop := p.RevPktLen = p.WholePktLen

instance (p : GWTT_OAM_MESSAGE_NODE) : Decidable (Complete p) :=
  inferInstanceAs (Decidable (_ = _))

/-- The pending timers whose data points into a node. -/
def timersAt (st : Oam) (a : Nat) : List ReassemblyTimer := st.timers.filter (fun t => t.data = a)

/-- Each incomplete node has one pending timer, the one it names, and no timer
points at a node that is complete or gone. -/
structure Owned (st : Oam) : Prop where
  pending : ∀ p ∈ st.list, ¬ Complete p → timersAt st p.addr = [⟨p.TimerID, p.addr⟩]
  aimed : ∀ t ∈ st.timers, ∃ p ∈ st.list, p.addr = t.data ∧ ¬ Complete p

instance (st : Oam) : Decidable (Owned st) :=
  decidable_of_iff ((∀ p ∈ st.list, ¬ Complete p → timersAt st p.addr = [⟨p.TimerID, p.addr⟩]) ∧
      ∀ t ∈ st.timers, ∃ p ∈ st.list, p.addr = t.data ∧ ¬ Complete p)
    ⟨fun h => ⟨h.1, h.2⟩, fun h => ⟨h.1, h.2⟩⟩

/-- What holds of the timers between two events, past what the list owns: no
handle is given twice or is `NULL`, and a complete node names no live timer. -/
structure Timed (st : Oam) : Prop where
  wf : st.Wf
  owned : Owned st
  handles : (st.timers.map (·.handle)).Nodup
  range : ∀ t ∈ st.timers, 0 < t.handle ∧ t.handle < st.next
  ids : ∀ p ∈ st.list, p.TimerID < st.next
  idle : ∀ p ∈ st.list, Complete p → ¬ st.Allocated p.TimerID

theorem timed_init : Timed Oam.init := by
  refine ⟨wf_init, ⟨nofun, nofun⟩, ?_, nofun, nofun, nofun⟩
  simp [Oam.init]

/-! ## Taking a timer away -/

theorem mem_timersAt {st : Oam} {a : Nat} {t : ReassemblyTimer} :
    t ∈ timersAt st a ↔ t ∈ st.timers ∧ t.data = a := by
  simp [timersAt]

theorem mem_del {st : Oam} {h : Nat} {t : ReassemblyTimer} :
    t ∈ (gw_timer_del st h).timers ↔ t ∈ st.timers ∧ t.handle ≠ h := by
  simp [gw_timer_del]

/-- The timers of the other nodes stay. -/
theorem timersAt_del {st : Oam} (hn : (st.timers.map (·.handle)).Nodup) {t : ReassemblyTimer}
    (ht : t ∈ st.timers) {a : Nat} (ha : t.data ≠ a) :
    timersAt (gw_timer_del st t.handle) a = timersAt st a := by
  simp only [timersAt, gw_timer_del, List.filter_filter]
  apply List.filter_congr
  intro x hx
  by_cases hxa : x.data = a
  · have hne : x.handle ≠ t.handle := by
      intro he
      obtain rfl := List.inj_on_of_nodup_map hn hx ht he
      exact ha hxa
    simp [hxa, hne]
  · simp [hxa]

/-- The timer of an incomplete node, and the only one that points at it. -/
theorem own_timer {st : Oam} (h : Owned st) {p : GWTT_OAM_MESSAGE_NODE} (hp : p ∈ st.list)
    (hc : ¬ Complete p) :
    ⟨p.TimerID, p.addr⟩ ∈ st.timers ∧
      ∀ t ∈ st.timers, t.data = p.addr → t = ⟨p.TimerID, p.addr⟩ := by
  have hone := h.pending p hp hc
  refine ⟨?_, ?_⟩
  · exact (mem_timersAt.mp (hone ▸ List.mem_singleton.mpr rfl)).1
  · intro t ht hd
    exact List.mem_singleton.mp (hone ▸ mem_timersAt.mpr ⟨ht, hd⟩)

/-- A list in which node `p` lost its timer and is complete now, or gone. -/
theorem timed_without {st st' : Oam} (h : Timed st) {p : GWTT_OAM_MESSAGE_NODE} (hp : p ∈ st.list)
    (hc : ¬ Complete p) (hw : st'.Wf) (htimers : st'.timers = (gw_timer_del st p.TimerID).timers)
    (hnext : st'.next = st.next)
    (hlist : ∀ q ∈ st'.list, (Complete q ∧ q.addr = p.addr ∧ q.TimerID = p.TimerID) ∨
      (q ∈ st.list ∧ q.addr ≠ p.addr))
    (hkept : ∀ q ∈ st.list, q.addr ≠ p.addr → q ∈ st'.list) : Timed st' := by
  obtain ⟨hown, honly⟩ := own_timer h.owned hp hc
  have hmem : ∀ t, t ∈ st'.timers ↔ t ∈ st.timers ∧ t.handle ≠ p.TimerID := by
    intro t
    rw [htimers]
    exact mem_del
  refine ⟨hw, ⟨?_, ?_⟩, ?_, ?_, ?_, ?_⟩
  · intro q hq hqc
    rcases hlist q hq with ⟨hqc', -⟩ | ⟨hq, hne⟩
    · exact absurd hqc' hqc
    · have hsame := timersAt_del h.handles hown (Ne.symm hne)
      rw [timersAt, htimers]
      exact hsame.trans (h.owned.pending q hq hqc)
  · intro t ht
    obtain ⟨ht, hne⟩ := (hmem t).mp ht
    obtain ⟨q, hq, ha, hqc⟩ := h.owned.aimed t ht
    refine ⟨q, hkept q hq ?_, ha, hqc⟩
    intro he
    exact hne (by rw [honly t ht (ha.symm.trans he)])
  · rw [htimers]
    exact h.handles.sublist (List.filter_sublist.map _)
  · intro t ht
    rw [hnext]
    exact h.range t ((hmem t).mp ht).1
  · intro q hq
    rw [hnext]
    rcases hlist q hq with ⟨-, -, hid⟩ | ⟨hq, -⟩
    · exact hid ▸ h.ids p hp
    · exact h.ids q hq
  · intro q hq hqc halloc
    obtain ⟨t, ht, he⟩ := List.mem_map.mp halloc
    obtain ⟨ht, hne⟩ := (hmem t).mp ht
    rcases hlist q hq with ⟨-, -, hid⟩ | ⟨hq, -⟩
    · exact hne (he.trans hid)
    · exact h.idle q hq hqc (he ▸ List.mem_map_of_mem ht)

/-- A complete node, or no node at all, is given back. -/
theorem timed_free {st : Oam} (h : Timed st) {a : Nat} (ha : a < st.next)
    (hc : ∀ q ∈ st.list, q.addr = a → Complete q) : Timed (GwOamMessageListNodeFree st a) := by
  have hmem : ∀ q, q ∈ (GwOamMessageListNodeFree st a).list ↔ q ∈ st.list ∧ q.addr ≠ a :=
    fun q => mem_rem h.wf
  refine ⟨wf_free h.wf ha, ⟨?_, ?_⟩, h.handles, h.range, ?_, ?_⟩
  · exact fun q hq => h.owned.pending q ((hmem q).mp hq).1
  · intro t ht
    obtain ⟨q, hq, hqa, hqc⟩ := h.owned.aimed t ht
    exact ⟨q, (hmem q).mpr ⟨hq, fun he => hqc (hc q hq he)⟩, hqa, hqc⟩
  · exact fun q hq => h.ids q ((hmem q).mp hq).1
  · exact fun q hq => h.idle q ((hmem q).mp hq).1

/-- A pending timer runs out: its node goes, and no other. -/
theorem timed_expire {st : Oam} (h : Timed st) {t : ReassemblyTimer} (ht : t ∈ st.timers)
    (junk : UInt32) :
    Timed (OamMessageRecevTimeOut (gw_timer_del st t.handle) t.data junk) := by
  obtain ⟨p, hp, ha, hc⟩ := h.owned.aimed t ht
  have hid : t = ⟨p.TimerID, p.addr⟩ := (own_timer h.owned hp hc).2 t ht ha.symm
  have hw : (gw_timer_del st t.handle).Wf := wf_timer_del h.wf _
  have hfind : st.list.find? (fun q => q.addr = t.data) = some p := by
    obtain ⟨q, hq⟩ : ∃ q, st.list.find? (fun q => q.addr = t.data) = some q := by
      rw [← Option.isSome_iff_exists, List.find?_isSome]
      exact ⟨p, hp, by simpa using ha⟩
    have hqa : q.addr = t.data := by simpa using List.find?_some hq
    rw [hq, List.inj_on_of_nodup_map h.wf.addrs (List.mem_of_find?_eq_some hq) hp
      (hqa.trans ha.symm)]
  have hget : GwOamMessageListGetNode (gw_timer_del st t.handle) p.SendSerNo = some p :=
    (getNode_iff hw).mpr ⟨hp, rfl⟩
  have hfree : OamMessageRecevTimeOut (gw_timer_del st t.handle) t.data junk =
      GwOamMessageListNodeFree (gw_timer_del st t.handle) p.addr := by
    unfold OamMessageRecevTimeOut
    dsimp only
    rw [timer_del_list, hfind, Option.map_some, Option.getD_some, hget]
  have hmem : ∀ q, q ∈ (GwOamMessageListNodeFree (gw_timer_del st t.handle) p.addr).list ↔
      q ∈ st.list ∧ q.addr ≠ p.addr := fun q => mem_rem hw
  rw [hfree]
  apply timed_without h hp hc (wf_free hw (h.wf.fresh p hp)) (by rw [hid]; rfl) rfl
  · exact fun q hq => Or.inr ((hmem q).mp hq)
  · exact fun q hq hne => (hmem q).mpr ⟨hq, hne⟩

/-! ## One frame -/

section
variable (ntohs : UInt16 → UInt16)

/-- The frame leaves the timers with their owners: one that starts a message of
several fragments has memory for the timer, and one that goes on with a message
is its last fragment. -/
structure KeepsTimers (mal : Malloc) (st : Oam) (m : Mem) : Prop where
  starts : Opens ntohs mal st m → wholeOf ntohs m ≠ lengthOf ntohs m → mal.timer = true
  ends : ∀ p, Extends ntohs st m p →
    ¬ Complete p ∧ p.RevPktLen + lengthOf ntohs m = p.WholePktLen

theorem timersAt_fresh {st : Oam} (h : Timed st) {a : Nat} (ha : st.next ≤ a) :
    timersAt st a = [] := by
  rw [timersAt, List.filter_eq_nil_iff]
  intro t ht hd
  obtain ⟨p, hp, hpa, -⟩ := h.owned.aimed t ht
  have := h.wf.fresh p hp
  simp only [decide_eq_true_eq] at hd
  omega

/-- A message in one frame needs no timer. -/
theorem timed_whole {st : Oam} (h : Timed st) {p : GWTT_OAM_MESSAGE_NODE} (hc : Complete p)
    (ha : p.addr = st.next) (hid : p.TimerID = 0)
    (hw : (GwOamMessageListNodeAdd { st with next := st.next + 1 } p).Wf) :
    Timed (GwOamMessageListNodeAdd { st with next := st.next + 1 } p) := by
  refine ⟨hw, ⟨?_, ?_⟩, h.handles, ?_, ?_, ?_⟩
  · intro q hq hqc
    rcases List.mem_cons.mp hq with rfl | hq
    · exact absurd hc hqc
    · exact h.owned.pending q hq hqc
  · intro t ht
    obtain ⟨q, hq, hqa, hqc⟩ := h.owned.aimed t ht
    exact ⟨q, List.mem_cons_of_mem _ hq, hqa, hqc⟩
  · intro t ht
    have := h.range t ht
    exact ⟨this.1, Nat.lt_succ_of_lt this.2⟩
  · intro q hq
    rcases List.mem_cons.mp hq with rfl | hq
    · rw [hid]
      exact Nat.succ_pos _
    · exact Nat.lt_succ_of_lt (h.ids q hq)
  · intro q hq hqc halloc
    rcases List.mem_cons.mp hq with rfl | hq
    · obtain ⟨t, ht, he⟩ := List.mem_map.mp halloc
      have := (h.range t ht).1
      omega
    · exact h.idle q hq hqc halloc

/-- The first fragment of several gets a timer that points at its node. -/
theorem timed_first {st : Oam} (h : Timed st) {p : GWTT_OAM_MESSAGE_NODE} (hc : ¬ Complete p)
    (ha : p.addr = st.next) (hid : p.TimerID = st.next + 1)
    (hw : (GwOamMessageListNodeAdd
      { st with timers := ⟨st.next + 1, st.next⟩ :: st.timers, next := st.next + 1 + 1 } p).Wf) :
    Timed (GwOamMessageListNodeAdd
      { st with timers := ⟨st.next + 1, st.next⟩ :: st.timers, next := st.next + 1 + 1 } p) := by
  have hnew : ∀ t ∈ st.timers, t.handle ≠ st.next + 1 := by
    intro t ht
    have := (h.range t ht).2
    omega
  refine ⟨hw, ⟨?_, ?_⟩, ?_, ?_, ?_, ?_⟩
  · intro q hq hqc
    rcases List.mem_cons.mp hq with rfl | hq
    · have hold := timersAt_fresh h (Nat.le_refl _)
      simp only [timersAt, GwOamMessageListNodeAdd] at hold ⊢
      rw [List.filter_cons, ha, hold, hid]
      simp
    · have hne : st.next ≠ q.addr := Nat.ne_of_gt (h.wf.fresh q hq)
      have hold := h.owned.pending q hq hqc
      simp only [timersAt, GwOamMessageListNodeAdd] at hold ⊢
      rw [List.filter_cons, if_neg (by simpa using hne)]
      exact hold
  · intro t ht
    rcases List.mem_cons.mp ht with rfl | ht
    · exact ⟨p, List.mem_cons_self, ha, hc⟩
    · obtain ⟨q, hq, hqa, hqc⟩ := h.owned.aimed t ht
      exact ⟨q, List.mem_cons_of_mem _ hq, hqa, hqc⟩
  · change ((st.next + 1) :: st.timers.map (·.handle)).Nodup
    rw [List.nodup_cons]
    refine ⟨?_, h.handles⟩
    intro hm
    obtain ⟨t, ht, he⟩ := List.mem_map.mp hm
    exact hnew t ht he
  · change ∀ t ∈ (⟨st.next + 1, st.next⟩ : ReassemblyTimer) :: st.timers,
      0 < t.handle ∧ t.handle < st.next + 1 + 1
    intro t ht
    rcases List.mem_cons.mp ht with rfl | ht
    · exact ⟨Nat.succ_pos _, Nat.lt_succ_self _⟩
    · have := h.range t ht
      omega
  · change ∀ q ∈ p :: st.list, q.TimerID < st.next + 1 + 1
    intro q hq
    rcases List.mem_cons.mp hq with rfl | hq
    · omega
    · have := h.ids q hq
      omega
  · intro q hq hqc halloc
    rcases List.mem_cons.mp hq with rfl | hq
    · exact hc hqc
    · rcases List.mem_cons.mp halloc with he | halloc
      · have hlt := h.ids q hq
        have heq : q.TimerID = st.next + 1 := he
        omega
      · exact h.idle q hq hqc halloc

theorem timed_receive {st : Oam} (h : Timed st) {mal : Malloc} {m : Mem}
    (hk : KeepsTimers ntohs mal st m) :
    (∀ t ∈ (CommOnuMsgReveive ntohs mal st m).deleted, st.Allocated t) ∧
      Timed (CommOnuMsgReveive ntohs mal st m).state := by
  have hw := wf_receive ntohs h.wf mal m
  have hr := receives ntohs mal st m
  generalize CommOnuMsgReveive ntohs mal st m = r at hr hw
  cases hr with
  | refused => exact ⟨nofun, h⟩
  | whole ho hwhole => exact ⟨nofun, timed_whole h hwhole.symm rfl rfl hw⟩
  | first st' handle ho hwhole hadd =>
    rw [gw_timer_add, if_pos (hk.starts ho hwhole)] at hadd
    cases hadd
    exact ⟨nofun, timed_first h (Ne.symm hwhole) rfl rfl hw⟩
  | last p he hlast =>
    have hp := (getNode_mem he.known).1
    have hc := (hk.ends p he).1
    have hdel : p ∈ (gw_timer_del st p.TimerID).list := hp
    have hmem : ∀ q, q ∈ ((gw_timer_del st p.TimerID).store (p.extend (dataOf ntohs m))).list ↔
        q = p.extend (dataOf ntohs m) ∨ (q ∈ st.list ∧ q.addr ≠ p.addr) :=
      fun q => mem_store hdel (extend_addr p _)
    refine ⟨?_, ?_⟩
    · intro t ht
      obtain rfl := List.mem_singleton.mp ht
      exact List.mem_map_of_mem (own_timer h.owned hp hc).1
    · apply timed_without h hp hc hw rfl rfl
      · intro q hq
        rcases (hmem q).mp hq with rfl | hq
        · exact Or.inl ⟨by simpa [Complete] using hlast, rfl, rfl⟩
        · exact Or.inr hq
      · exact fun q hq hne => (hmem q).mpr (Or.inr ⟨hq, hne⟩)
  | middle p he hpart => exact absurd (hk.ends p he).2 hpart

/-- A frame that breaks the rule breaks what the list owns, or deletes a timer that is gone. -/
theorem keeps_timers_of {st : Oam} (h : Timed st) {mal : Malloc} {m : Mem}
    (hdel : ∀ t ∈ (CommOnuMsgReveive ntohs mal st m).deleted, st.Allocated t)
    (howned : (CommOnuMsgReveive ntohs mal st m).delivered = none →
      Owned (CommOnuMsgReveive ntohs mal st m).state) : KeepsTimers ntohs mal st m := by
  have hr := receives ntohs mal st m
  generalize CommOnuMsgReveive ntohs mal st m = r at hr hdel howned
  cases hr with
  | refused ret _ _ hopen hext =>
    exact ⟨fun ho => absurd ho hopen, fun p hp => absurd hp (hext p)⟩
  | whole ho hwhole =>
    exact ⟨fun _ hne => absurd hwhole hne, fun p hp => absurd ho.offset hp.offset⟩
  | first st' handle ho hwhole hadd =>
    refine ⟨fun _ _ => ?_, fun p hp => absurd ho.offset hp.offset⟩
    by_contra hmal
    rw [gw_timer_add, if_neg hmal] at hadd
    cases hadd
    -- the new node is incomplete, and no timer of before points at it
    have hone := (howned rfl).pending (firstNode ntohs m st.next 0) List.mem_cons_self
      (Ne.symm hwhole)
    have hnone := timersAt_fresh h (Nat.le_refl _)
    change timersAt st st.next = _ at hone
    rw [hnone] at hone
    simp at hone
  | last p he hlast =>
    refine ⟨fun ho => absurd ho.offset he.offset, ?_⟩
    intro q hq
    obtain rfl := Option.some.inj (he.known.symm.trans hq.known)
    refine ⟨?_, hlast⟩
    intro hc
    exact h.idle p (getNode_mem he.known).1 hc (hdel _ (List.mem_singleton.mpr rfl))
  | middle p he hpart =>
    exfalso
    have hp := (getNode_mem he.known).1
    have hroom := he.room
    have hc : ¬ Complete p := by
      unfold Complete
      omega
    have hmid : ¬ Complete (p.extend (dataOf ntohs m)) := by simpa [Complete] using hpart
    -- the node still names the timer that was deleted
    have hown := (own_timer (howned rfl)
      ((mem_store (by simpa using hp) (extend_addr p _)).mpr (Or.inl rfl)) hmid).1
    change (⟨p.TimerID, p.addr⟩ : ReassemblyTimer) ∈
      (gw_timer_add mal (gw_timer_del st p.TimerID) p.addr).1.timers at hown
    unfold gw_timer_add at hown
    split at hown
    · rcases List.mem_cons.mp hown with hnew | hold
      · have hlt := h.ids p hp
        have heq : p.TimerID = st.next := congrArg ReassemblyTimer.handle hnew
        omega
      · exact absurd rfl (mem_del.mp hold).2
    · exact absurd rfl (mem_del.mp hown).2

/-! ## Any run -/

/-- The timers are in order, and what waits in the queue is complete. -/
structure TimedOnu (st : Onu) : Prop where
  wf : st.Wf
  timed : Timed st.messages
  waiting : ∀ i, ∀ pbuf ∈ st.async.queue_list i, ∀ q ∈ st.messages.list, q.addr = pbuf.data →
    Complete q

/-- After the event the timers are where they belong, and `gw_timer_del` was
called for live timers only. -/
def OwnsTimers (st : Onu) (e : OnuEvent) : Prop :=
  (∀ mal port frame len, e = .frame mal port frame len →
      ∀ r, (Gwd_Oam_Handle ntohs mal st port frame len).received = some r →
        ∀ t ∈ r.deleted, st.messages.Allocated t) ∧
    Owned (st.event ntohs e).messages

/-- The frame of the event, if it is one, keeps the timers. -/
def FrameKeepsTimers (st : Onu) (e : OnuEvent) : Prop :=
  ∀ mal port frame len, e = .frame mal port frame len →
    ∀ m, passed port frame len = some m → KeepsTimers ntohs mal.toMalloc st.messages m

theorem timed_onu_init : TimedOnu Onu.init := by
  refine ⟨wf_onu_init, timed_init, ?_⟩
  intro i pbuf _ q hq
  simp [Onu.init, Oam.init] at hq

/-- Complete nodes stay as they are while the rule holds. -/
theorem receive_complete {mal : Malloc} {st : Oam} {m : Mem}
    (hk : KeepsTimers ntohs mal st m) {q : GWTT_OAM_MESSAGE_NODE}
    (hq : q ∈ (CommOnuMsgReveive ntohs mal st m).state.list) :
    st.next ≤ q.addr ∨ q ∈ st.list ∨ Complete q := by
  have hr := receives ntohs mal st m
  generalize CommOnuMsgReveive ntohs mal st m = r at hr hq
  cases hr with
  | refused => exact Or.inr (Or.inl hq)
  | whole =>
    rcases List.mem_cons.mp hq with rfl | hq
    · exact Or.inl (Nat.le_refl _)
    · exact Or.inr (Or.inl hq)
  | first st' handle _ _ hadd =>
    have hlist := timer_add_list mal { st with next := st.next + 1 } st.next
    rw [hadd] at hlist
    rcases List.mem_cons.mp hq with rfl | hq
    · exact Or.inl (Nat.le_refl _)
    · exact Or.inr (Or.inl (hlist ▸ hq))
  | last p he hlast =>
    have hp := (getNode_mem he.known).1
    have hdel : p ∈ (gw_timer_del st p.TimerID).list := hp
    rcases (mem_store hdel (extend_addr p _)).mp hq with rfl | hq
    · exact Or.inr (Or.inr (by simpa [Complete] using hlast))
    · exact Or.inr (Or.inl hq.1)
  | middle p he hpart => exact absurd (hk.ends p he).2 hpart

theorem timed_settle {st : Onu} (h : TimedOnu st) {mal : HandleMalloc} {m : Mem}
    (hk : KeepsTimers ntohs mal.toMalloc st.messages m) :
    TimedOnu (settle mal.message st (CommOnuMsgReveive ntohs mal.toMalloc st.messages m)) := by
  have hw := wf_settle ntohs h.wf mal m
  have htimed := (timed_receive ntohs h.timed hk).2
  have hwaiting : ∀ i, ∀ pbuf ∈ st.async.queue_list i,
      ∀ q ∈ (CommOnuMsgReveive ntohs mal.toMalloc st.messages m).state.list, q.addr = pbuf.data →
        Complete q := by
    intro i pbuf hb q hq ha
    rcases receive_complete ntohs hk hq with hnew | hold | hc
    · have := h.wf.pointers i pbuf hb
      omega
    · exact h.waiting i pbuf hb q hold ha
    · exact hc
  unfold settle at hw ⊢
  cases hd : (CommOnuMsgReveive ntohs mal.toMalloc st.messages m).delivered with
  | none =>
    rw [hd] at hw
    exact ⟨hw, htimed, hwaiting⟩
  | some p =>
    rw [hd] at hw
    obtain ⟨hp, hc, -⟩ := receive_delivered ntohs hd
    have honly : ∀ q ∈ (CommOnuMsgReveive ntohs mal.toMalloc st.messages m).state.list,
        q.addr = p.addr → Complete q := by
      intro q hq ha
      rw [List.inj_on_of_nodup_map htimed.wf.addrs hq hp ha]
      exact hc
    dsimp only at hw ⊢
    unfold dispatch at hw ⊢
    split
    · rename_i hop
      rw [if_pos hop] at hw
      obtain ⟨hsame, -, hlist⟩ := async_trans_keeps mal.message { st with
        messages := (CommOnuMsgReveive ntohs mal.toMalloc st.messages m).state } p.addr
      refine ⟨hw, hsame ▸ htimed, ?_⟩
      intro i pbuf hb q hq ha
      rw [hsame] at hq
      rcases hlist i pbuf hb with hb | hd'
      · exact hwaiting i pbuf hb q hq ha
      · exact honly q hq (ha.trans hd')
    · rename_i hop
      rw [if_neg hop] at hw
      refine ⟨hw, timed_free htimed (htimed.wf.fresh p hp) honly, ?_⟩
      exact fun i pbuf hb q hq => hwaiting i pbuf hb q (List.eraseP_sublist.subset hq)

theorem timed_onu_expire {st : Onu} (h : TimedOnu st) (handle : Nat) (junk : UInt32) :
    TimedOnu (st.expire handle junk) := by
  have hw := wf_expire h.wf handle junk
  unfold Onu.expire at hw ⊢
  cases ht : st.messages.timers.find? (fun t => t.handle = handle) with
  | none => exact h
  | some t =>
    rw [ht] at hw
    have hmem := List.mem_of_find?_eq_some ht
    have hhandle : t.handle = handle := by simpa using List.find?_some ht
    subst hhandle
    refine ⟨hw, timed_expire h.timed hmem junk, ?_⟩
    intro i pbuf hb q hq ha
    refine h.waiting i pbuf hb q ?_ ha
    -- the timeout only takes nodes away
    change q ∈ (OamMessageRecevTimeOut (gw_timer_del st.messages t.handle) t.data junk).list at hq
    unfold OamMessageRecevTimeOut at hq
    dsimp only at hq
    split at hq
    · exact hq
    · exact List.eraseP_sublist.subset hq

theorem timed_onu_serve {st : Onu} (h : TimedOnu st) (junk : UInt8) :
    TimedOnu (st.serve junk) := by
  obtain ⟨-, hfrom, hfreed⟩ := serve_keeps st junk
  refine ⟨wf_serve h.wf junk, ?_, ?_⟩
  · rcases hfreed with hnone | ⟨i, pbuf, hb, hone⟩
    · exact hnone ▸ h.timed
    · exact hone ▸ timed_free h.timed (h.wf.pointers i pbuf hb) (h.waiting i pbuf hb)
  · intro i pbuf hb q hq ha
    refine h.waiting i pbuf (hfrom i pbuf hb) q ?_ ha
    rcases hfreed with hnone | ⟨_, _, _, hone⟩
    · exact hnone ▸ hq
    · rw [hone] at hq
      exact List.eraseP_sublist.subset hq

theorem timed_onu_event {st : Onu} (h : TimedOnu st) {e : OnuEvent}
    (hk : FrameKeepsTimers ntohs st e) : TimedOnu (st.event ntohs e) := by
  cases e with
  | frame mal port frame len =>
    change TimedOnu (Gwd_Oam_Handle ntohs mal st port frame len).state
    cases hm : passed port frame len with
    | none =>
      rw [handle_stopped ntohs hm]
      exact h
    | some m =>
      rw [handle_passed ntohs hm]
      exact timed_settle ntohs h (hk mal port frame len rfl m hm)
  | expire handle junk => exact timed_onu_expire h handle junk
  | serve junk => exact timed_onu_serve h junk

theorem event_owns_timers {st : Onu} (h : TimedOnu st) (e : OnuEvent) :
    OwnsTimers ntohs st e ↔ FrameKeepsTimers ntohs st e := by
  refine ⟨?_, ?_⟩
  · rintro ⟨hdel, howned⟩ mal port frame len rfl m hm
    have hr := hdel mal port frame len rfl _
      (congrArg Handled.received (handle_passed ntohs hm mal st))
    change Owned (Gwd_Oam_Handle ntohs mal st port frame len).state.messages at howned
    rw [handle_passed ntohs hm] at howned
    apply keeps_timers_of ntohs h.timed hr
    intro hnone
    rwa [settle, hnone] at howned
  · intro hk
    refine ⟨?_, (timed_onu_event ntohs h hk).timed.owned⟩
    rintro mal port frame len rfl r hr
    cases hm : passed port frame len with
    | none =>
      rw [handle_stopped ntohs hm] at hr
      simp at hr
    | some m =>
      rw [handle_passed ntohs hm] at hr
      obtain rfl := Option.some.inj hr
      exact (timed_receive ntohs h.timed (hk mal port frame len rfl m hm)).1

/-- In any run of frames, timeouts and rounds of the async thread, the timers
stay with the incomplete messages, and only live ones are deleted, exactly as
long as each frame keeps them. -/
theorem timers_stay_with_their_messages_while_frames_keep_them (es : List OnuEvent) :
    Along (Onu.event ntohs) (OwnsTimers ntohs) Onu.init es ↔
      Along (Onu.event ntohs) (FrameKeepsTimers ntohs) Onu.init es :=
  along_iff_along (I := TimedOnu) (fun _ _ h hk => timed_onu_event ntohs h hk)
    (fun _ e h => event_owns_timers ntohs h e) timed_onu_init es

end

/-! ## A message of three fragments -/

def firstThird : Mem := oamFrame SNMP_TRAN_REQ 3 3 0 (Vector.replicate 8 0) [0x61]

def secondThird : Mem := oamFrame SNMP_TRAN_REQ 3 3 1 (Vector.replicate 8 0) [0x62]

/-- The second fragment starts a timer whose handle nobody keeps. -/
theorem a_middle_fragment_loses_its_timer :
    ¬ Along (Onu.event gwd_htons) (OwnsTimers gwd_htons) Onu.init
      [.frame ⟨plenty, true⟩ 1 (some firstThird) 41, .frame ⟨plenty, true⟩ 1 (some secondThird) 41] := by
  rintro ⟨-, ⟨-, h⟩, -⟩
  exact absurd h (by decide +kernel)

end gwdonu.oam
