-- The ONU around the message list: `Gwd_Oam_Handle` takes a frame, answers
-- the message that it completes or hands it to the async thread, and the
-- timer thread and the async thread come in between.
import Gwdonu.OamList
import Gwdonu.PriQueue

namespace gwdonu.oam

open pri_queue runs

/-! ## The state and the calls -/

/-- The message list, and the queue of the async thread, whose messages are
node pointers. -/
structure Onu where
  messages : Oam
  async : osal_queue_record_t Nat

def g_oam_async_queue_deepth : Nat := 100
def g_oam_async_data_szie : Nat := 128
def g_oam_async_queue_pri : Int := 3

/-- After `GwOamMessageListInit` and `init_gw_oam_async`. -/
def Onu.init : Onu where
  messages := Oam.init
  async := (gw_pri_queue_create free_record g_oam_async_queue_deepth g_oam_async_data_szie
    g_oam_async_queue_pri).1

/-- Which calls of `malloc` succeed for one frame: those of the receiver, and
the one for a queue message. -/
structure HandleMalloc extends Malloc where
  message : Bool
  deriving DecidableEq

/-- `sizeof` of the word that holds a node pointer. -/
def pointerSize : Nat := 4

def gwd_oam_async_trans (mal : Bool) (st : Onu) (msg : Nat) : Onu × GW_E_OSAL :=
  let (async, ret) := gw_pri_queue_put mal st.async (some msg) pointerSize 0
  ({ st with async := async }, ret)

/-- What one call leaves behind: the state, and the call of `CommOnuMsgReveive`
when there was one. -/
structure Handled where
  state : Onu
  received : Option Received

/-- The switch of `Gwd_Oam_Handle`. The handlers of the other opcodes read the
node and let go of it, and each of their branches ends with the free. -/
def dispatch (mal : Bool) (st : Onu) (pMessage : GWTT_OAM_MESSAGE_NODE) : Onu :=
  if pMessage.GwOpcode = CLI_REQ_TRANSMIT then
    -- the result of the put is not looked at
    (gwd_oam_async_trans mal st pMessage.addr).1
  else { st with messages := GwOamMessageListNodeFree st.messages pMessage.addr }

def Gwd_Oam_Handle (ntohs : UInt16 → UInt16) (mal : HandleMalloc) (st : Onu) (port : Nat)
    (frame : Option Mem) (len : Nat) : Handled :=
  match frame with
  | none => ⟨st, none⟩
  | some frame =>
    if port = 0 then ⟨st, none⟩
    else if len < GWTT_OAM_HEADER.size then ⟨st, none⟩
    else
      let r := CommOnuMsgReveive ntohs mal.toMalloc st.messages frame
      let st := { st with messages := r.state }
      match r.delivered with
      | none => ⟨st, some r⟩
      | some pMessage => ⟨dispatch mal.message st pMessage, some r⟩

/-- A reassembly timer runs out: it is off the timer list, its callback runs,
and it is destroyed. -/
def Onu.expire (st : Onu) (timer_handle : Nat) (junk : UInt32) : Onu :=
  match st.messages.timers.find? (fun t => t.handle = timer_handle) with
  | none => st
  | some t =>
    { st with messages := OamMessageRecevTimeOut (gw_timer_del st.messages timer_handle) t.data junk }

/-- One round of `gw_oam_async_thread_entry`; with no message the thread waits.
`junk` is the opcode in a block that is free. -/
def Onu.serve (st : Onu) (junk : UInt8) : Onu :=
  if st.async.sem = 0 then st
  else
    match gw_pri_queue_get st.async false pointerSize with
    | (async, .OK, some pbuf) =>
      if 0 < pbuf.size then
        let GwOpcode :=
          ((st.messages.list.find? (fun p => p.addr = pbuf.data)).map (·.GwOpcode)).getD junk
        if GwOpcode = CLI_REQ_TRANSMIT then
          ⟨GwOamMessageListNodeFree st.messages pbuf.data, async⟩
        else ⟨st.messages, async⟩
      else ⟨st.messages, async⟩
    | (async, _, _) => ⟨st.messages, async⟩

/-- What happens to the ONU. -/
inductive OnuEvent where
  | frame (mal : HandleMalloc) (port : Nat) (frame : Option Mem) (len : Nat)
  | expire (timer_handle : Nat) (junk : UInt32)
  | serve (junk : UInt8)

section
variable (ntohs : UInt16 → UInt16)

def Onu.event (st : Onu) : OnuEvent → Onu
  | .frame mal port frame len => (Gwd_Oam_Handle ntohs mal st port frame len).state
  | .expire timer_handle junk => st.expire timer_handle junk
  | .serve junk => st.serve junk

/-- The frame that gets as far as `CommOnuMsgReveive`. -/
def passed (port : Nat) (frame : Option Mem) (len : Nat) : Option Mem :=
  frame.filter (fun _ => port ≠ 0 ∧ GWTT_OAM_HEADER.size ≤ len)

theorem passed_len {port : Nat} {frame : Option Mem} {len : Nat} {m : Mem}
    (h : passed port frame len = some m) : GWTT_OAM_HEADER.size ≤ len := by
  have := (Option.filter_eq_some_iff.mp h).2
  simp only [decide_eq_true_eq] at this
  exact this.2

/-- What the switch makes of the state that `CommOnuMsgReveive` leaves. -/
def settle (mal : Bool) (st : Onu) (r : Received) : Onu :=
  match r.delivered with
  | none => { st with messages := r.state }
  | some pMessage => dispatch mal { st with messages := r.state } pMessage

theorem handle_passed {port : Nat} {frame : Option Mem} {len : Nat} {m : Mem}
    (h : passed port frame len = some m) (mal : HandleMalloc) (st : Onu) :
    Gwd_Oam_Handle ntohs mal st port frame len =
      ⟨settle mal.message st (CommOnuMsgReveive ntohs mal.toMalloc st.messages m),
        some (CommOnuMsgReveive ntohs mal.toMalloc st.messages m)⟩ := by
  obtain ⟨rfl, hp⟩ := Option.filter_eq_some_iff.mp h
  simp only [decide_eq_true_eq] at hp
  unfold Gwd_Oam_Handle settle
  dsimp only
  rw [if_neg hp.1, if_neg (Nat.not_lt.mpr hp.2)]
  split <;> rfl

theorem handle_stopped {port : Nat} {frame : Option Mem} {len : Nat}
    (h : passed port frame len = none) (mal : HandleMalloc) (st : Onu) :
    Gwd_Oam_Handle ntohs mal st port frame len = ⟨st, none⟩ := by
  cases frame with
  | none => rfl
  | some m =>
    have hp : ¬ (port ≠ 0 ∧ GWTT_OAM_HEADER.size ≤ len) := by simpa [passed] using h
    unfold Gwd_Oam_Handle
    dsimp only
    split
    · rfl
    · split
      · rfl
      · rename_i hport hlen
        exact absurd ⟨hport, Nat.not_lt.mp hlen⟩ hp

/-! ## What a call does to the list -/

theorem receive_next_le (mal : Malloc) (st : Oam) (m : Mem) :
    st.next ≤ (CommOnuMsgReveive ntohs mal st m).state.next := by
  have hr := receives ntohs mal st m
  generalize CommOnuMsgReveive ntohs mal st m = r at hr
  cases hr with
  | refused => exact Nat.le_refl _
  | whole => exact Nat.le_succ _
  | first st' handle _ _ hadd =>
    have hnext := timer_add_next mal { st with next := st.next + 1 } st.next
    rw [hadd] at hnext
    exact Nat.le_trans (Nat.le_succ _) hnext
  | last => exact Nat.le_refl _
  | middle p _ _ => exact timer_add_next mal (gw_timer_del st p.TimerID) p.addr

/-- A node on the list after a call is a new one, or one from before with its
opcode unchanged. -/
theorem receive_list {mal : Malloc} {st : Oam} {m : Mem} {q : GWTT_OAM_MESSAGE_NODE}
    (hq : q ∈ (CommOnuMsgReveive ntohs mal st m).state.list) :
    st.next ≤ q.addr ∨ ∃ p ∈ st.list, q.addr = p.addr ∧ q.GwOpcode = p.GwOpcode := by
  have hr := receives ntohs mal st m
  generalize CommOnuMsgReveive ntohs mal st m = r at hr hq
  cases hr with
  | refused => exact Or.inr ⟨q, hq, rfl, rfl⟩
  | whole =>
    rcases List.mem_cons.mp hq with rfl | hq
    · exact Or.inl (Nat.le_refl _)
    · exact Or.inr ⟨q, hq, rfl, rfl⟩
  | first st' handle _ _ hadd =>
    have hlist := timer_add_list mal { st with next := st.next + 1 } st.next
    rw [hadd] at hlist
    rcases List.mem_cons.mp hq with rfl | hq
    · exact Or.inl (Nat.le_refl _)
    · exact Or.inr ⟨q, hlist ▸ hq, rfl, rfl⟩
  | last p he _ =>
    have hp := (getNode_mem he.known).1
    have hdel : p ∈ (gw_timer_del st p.TimerID).list := hp
    rcases (mem_store hdel (extend_addr p _)).mp hq with rfl | hq
    · exact Or.inr ⟨p, hp, rfl, rfl⟩
    · exact Or.inr ⟨q, hq.1, rfl, rfl⟩
  | middle p he _ =>
    have hp := (getNode_mem he.known).1
    rcases (mem_store (by simpa using hp) (extend_addr p _)).mp hq with rfl | hq
    · exact Or.inr ⟨p, hp, rfl, rfl⟩
    · exact Or.inr ⟨q, by simpa using hq.1, rfl, rfl⟩

/-- A delivered node is on the list, complete, and the node of the frame's
serial: a new one, or the one from before. -/
theorem receive_delivered {mal : Malloc} {st : Oam} {m : Mem} {p : GWTT_OAM_MESSAGE_NODE}
    (h : (CommOnuMsgReveive ntohs mal st m).delivered = some p) :
    p ∈ (CommOnuMsgReveive ntohs mal st m).state.list ∧ p.RevPktLen = p.WholePktLen ∧
      match GwOamMessageListGetNode st (serialOf m) with
      | none => p.addr = st.next ∧ p.GwOpcode = (GWTT_OAM_HEADER.load m).opCode
      | some q => p.addr = q.addr ∧ p.GwOpcode = q.GwOpcode := by
  have hr := receives ntohs mal st m
  generalize CommOnuMsgReveive ntohs mal st m = r at hr h
  cases hr with
  | refused ret hok _ _ _ => simp [Received.delivered, Received.refuse, hok] at h
  | whole ho hwhole =>
    obtain rfl := Option.some.inj h
    rw [ho.unknown]
    exact ⟨List.mem_cons_self, hwhole.symm, rfl, rfl⟩
  | first => simp [Received.delivered] at h
  | last q he hlast =>
    obtain rfl := Option.some.inj h
    rw [he.known]
    refine ⟨?_, by simpa using hlast, rfl, rfl⟩
    have hdel : q ∈ (gw_timer_del st q.TimerID).list := (getNode_mem he.known).1
    exact (mem_store hdel (extend_addr q _)).mpr (Or.inl rfl)
  | middle => simp [Received.delivered] at h

/-! ## What holds of the ONU over any run -/

/-- The queue is as it was created, and holds pointers to nodes of command
messages. A node may be gone before its turn comes. -/
structure Onu.Wf (st : Onu) : Prop where
  messages : st.messages.Wf
  created : SameQueue st.async Onu.init.async
  pointers : ∀ i, ∀ pbuf ∈ st.async.queue_list i, pbuf.data < st.messages.next
  commands : ∀ i, ∀ pbuf ∈ st.async.queue_list i, ∀ q ∈ st.messages.list, q.addr = pbuf.data →
    q.GwOpcode = CLI_REQ_TRANSMIT

theorem wf_onu_init : Onu.init.Wf := by
  have hempty : ∀ i, Onu.init.async.queue_list i = [] := by
    intro i
    change (if i < 3 then ([] : List (Message Nat)) else []) = []
    split <;> rfl
  refine ⟨wf_init, ⟨rfl, rfl, rfl, rfl⟩, ?_, ?_⟩
  all_goals
    intro i pbuf hb
    simp [hempty] at hb

/-- A list with no other nodes and no reused addresses suits the queue. -/
theorem wf_messages {st : Onu} (h : st.Wf) {messages : Oam} (hw : messages.Wf)
    (hnext : st.messages.next ≤ messages.next)
    (hlist : ∀ q ∈ messages.list, st.messages.next ≤ q.addr ∨
      ∃ p ∈ st.messages.list, q.addr = p.addr ∧ q.GwOpcode = p.GwOpcode) :
    ({ st with messages := messages } : Onu).Wf := by
  refine ⟨hw, h.created, fun i pbuf hb => Nat.lt_of_lt_of_le (h.pointers i pbuf hb) hnext, ?_⟩
  intro i pbuf hb q hq ha
  rcases hlist q hq with hge | ⟨p, hp, haddr, hop⟩
  · have := h.pointers i pbuf hb
    omega
  · exact hop.trans (h.commands i pbuf hb p hp (haddr.symm.trans ha))

theorem wf_onu_free {st : Onu} (h : st.Wf) {a : Nat} (ha : a < st.messages.next) :
    ({ st with messages := GwOamMessageListNodeFree st.messages a } : Onu).Wf :=
  wf_messages h (wf_free h.messages ha) (Nat.le_refl _)
    (fun q hq => Or.inr ⟨q, List.eraseP_sublist.subset hq, rfl, rfl⟩)

theorem wf_async {st : Onu} (h : st.Wf) {async : osal_queue_record_t Nat}
    (hsame : SameQueue async st.async)
    (hlist : ∀ i, ∀ pbuf ∈ async.queue_list i, pbuf ∈ st.async.queue_list i ∨
      ∃ p ∈ st.messages.list, pbuf.data = p.addr ∧ p.GwOpcode = CLI_REQ_TRANSMIT) :
    ({ st with async := async } : Onu).Wf := by
  refine ⟨h.messages, hsame.trans h.created, ?_, ?_⟩
  · intro i pbuf hb
    rcases hlist i pbuf hb with hb | ⟨p, hp, hd, -⟩
    · exact h.pointers i pbuf hb
    · exact hd ▸ h.messages.fresh p hp
  · intro i pbuf hb q hq ha
    rcases hlist i pbuf hb with hb | ⟨p, hp, hd, hop⟩
    · exact h.commands i pbuf hb q hq ha
    · obtain rfl := List.inj_on_of_nodup_map h.messages.addrs hq hp (ha.trans hd)
      exact hop

/-- The put of a pointer leaves the list alone, and adds at most that pointer. -/
theorem async_trans_keeps (mal : Bool) (st : Onu) (a : Nat) :
    (gwd_oam_async_trans mal st a).1.messages = st.messages ∧
      SameQueue (gwd_oam_async_trans mal st a).1.async st.async ∧
      ∀ i, ∀ pbuf ∈ (gwd_oam_async_trans mal st a).1.async.queue_list i,
        pbuf ∈ st.async.queue_list i ∨ pbuf.data = a := by
  unfold gwd_oam_async_trans
  by_cases ht : Takes mal st.async pointerSize 0
  · rw [put_takes ht]
    refine ⟨rfl, enqueue_keeps _ _ _, ?_⟩
    intro i pbuf hb
    rw [enqueue_list] at hb
    by_cases hi : i = (0 : Int).toNat
    · subst hi
      rw [Function.update_self] at hb
      rcases List.mem_append.mp hb with hb | hb
      · exact Or.inl hb
      · exact Or.inr (by rw [List.mem_singleton.mp hb])
    · rw [Function.update_of_ne hi] at hb
      exact Or.inl hb
  · obtain ⟨-, hlist, hsame⟩ := put_refuses ht a
    exact ⟨rfl, hsame, fun i pbuf hb => Or.inl (hlist ▸ hb)⟩

theorem wf_async_trans {st : Onu} (h : st.Wf) (mal : Bool) {p : GWTT_OAM_MESSAGE_NODE}
    (hp : p ∈ st.messages.list) (hop : p.GwOpcode = CLI_REQ_TRANSMIT) :
    (gwd_oam_async_trans mal st p.addr).1.Wf := by
  obtain ⟨-, hsame, hlist⟩ := async_trans_keeps mal st p.addr
  apply wf_async h hsame
  intro i pbuf hb
  rcases hlist i pbuf hb with hb | hd
  · exact Or.inl hb
  · exact Or.inr ⟨p, hp, hd, hop⟩

theorem wf_settle {st : Onu} (h : st.Wf) (mal : HandleMalloc) (m : Mem) :
    (settle mal.message st (CommOnuMsgReveive ntohs mal.toMalloc st.messages m)).Wf := by
  have hreceived : ({ st with
      messages := (CommOnuMsgReveive ntohs mal.toMalloc st.messages m).state } : Onu).Wf :=
    wf_messages h (wf_receive ntohs h.messages _ _) (receive_next_le ntohs _ _ _)
      (fun q hq => receive_list ntohs hq)
  unfold settle
  cases hd : (CommOnuMsgReveive ntohs mal.toMalloc st.messages m).delivered with
  | none => exact hreceived
  | some p =>
    have hp := (receive_delivered ntohs hd).1
    dsimp only
    unfold dispatch
    split
    · rename_i hop
      exact wf_async_trans hreceived mal.message hp hop
    · exact wf_onu_free hreceived (hreceived.messages.fresh p hp)

theorem wf_expire {st : Onu} (h : st.Wf) (t : Nat) (junk : UInt32) : (st.expire t junk).Wf := by
  unfold Onu.expire
  split
  · exact h
  · rename_i t' _
    have hdel : ({ st with messages := gw_timer_del st.messages t } : Onu).Wf :=
      wf_messages h (wf_timer_del h.messages t) (Nat.le_refl _)
        (fun q hq => Or.inr ⟨q, hq, rfl, rfl⟩)
    unfold OamMessageRecevTimeOut
    dsimp only
    split
    · exact hdel
    · rename_i p hp
      exact wf_onu_free hdel (hdel.messages.fresh p (getNode_mem hp).1)

/-- One round of the async thread takes at most messages out of the queue, and
gives back at most a node that was queued. -/
theorem serve_keeps (st : Onu) (junk : UInt8) :
    SameQueue (st.serve junk).async st.async ∧
      (∀ i, ∀ pbuf ∈ (st.serve junk).async.queue_list i, pbuf ∈ st.async.queue_list i) ∧
      ((st.serve junk).messages = st.messages ∨ ∃ i, ∃ pbuf ∈ st.async.queue_list i,
        (st.serve junk).messages = GwOamMessageListNodeFree st.messages pbuf.data) := by
  have hsame := get_keeps st.async false pointerSize
  obtain ⟨hfrom, htaken⟩ := get_from st.async false pointerSize
  unfold Onu.serve
  split
  · exact ⟨⟨rfl, rfl, rfl, rfl⟩, fun _ _ h => h, Or.inl rfl⟩
  · split
    · rename_i async pbuf heq
      rw [heq] at hsame hfrom htaken
      obtain ⟨k, hk⟩ := htaken pbuf rfl
      dsimp only
      split_ifs
      · exact ⟨hsame, hfrom, Or.inr ⟨k, pbuf, hk, rfl⟩⟩
      · exact ⟨hsame, hfrom, Or.inl rfl⟩
      · exact ⟨hsame, hfrom, Or.inl rfl⟩
    · rename_i async _ _ _ heq
      rw [heq] at hsame hfrom
      exact ⟨hsame, hfrom, Or.inl rfl⟩

theorem wf_serve {st : Onu} (h : st.Wf) (junk : UInt8) : (st.serve junk).Wf := by
  obtain ⟨hsame, hfrom, hfreed⟩ := serve_keeps st junk
  have hasync : ({ st with async := (st.serve junk).async } : Onu).Wf :=
    wf_async h hsame (fun i pbuf hb => Or.inl (hfrom i pbuf hb))
  rcases hfreed with hnone | ⟨i, pbuf, hb, hone⟩
  · rwa [← hnone] at hasync
  · have hfree := wf_onu_free hasync (h.pointers i pbuf hb)
    dsimp only at hfree
    rwa [← hone] at hfree

theorem wf_onu_event {st : Onu} (h : st.Wf) (e : OnuEvent) : (st.event ntohs e).Wf := by
  cases e with
  | frame mal port frame len =>
    change (Gwd_Oam_Handle ntohs mal st port frame len).state.Wf
    cases hp : passed port frame len with
    | none =>
      rw [handle_stopped ntohs hp]
      exact h
    | some m =>
      rw [handle_passed ntohs hp]
      exact wf_settle ntohs h mal m
  | expire t junk => exact wf_expire h t junk
  | serve junk => exact wf_serve h junk

theorem wf_onu_run (es : List OnuEvent) : (run (Onu.event ntohs) Onu.init es).Wf :=
  run_inv (I := Onu.Wf) (P := fun _ _ => True) (fun _ e h _ => wf_onu_event ntohs h e)
    wf_onu_init (along_true _ _)

end

end gwdonu.oam
