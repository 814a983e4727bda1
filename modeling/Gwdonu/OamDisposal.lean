-- The law of delivered messages: each is freed once or waits once in the queue
-- of the async thread, and the puts that break it.
import Gwdonu.OamHandle

namespace gwdonu.oam

open pri_queue runs

/-! ## Where a node can be -/

/-- The node was freed, once, and nothing points at it. -/
def Released (st : Onu) (a : Nat) : Prop :=
  (∀ q ∈ st.messages.list, q.addr ≠ a) ∧ st.messages.freed.count a = 1 ∧ held st.async a = 0

/-- The node is on the list, and one queued message points at it. -/
def Waiting (st : Onu) (a : Nat) : Prop :=
  (∃ q ∈ st.messages.list, q.addr = a) ∧ st.messages.freed.count a = 0 ∧ held st.async a = 1

def Disposed (st : Onu) (a : Nat) : Prop := Released st a ∨ Waiting st a

instance (st : Onu) (a : Nat) : Decidable (Disposed st a) :=
  inferInstanceAs (Decidable ((_ ∧ _ ∧ _) ∨ (_ ∧ _ ∧ _)))

/-- The opcode of the message that a frame belongs to. -/
def messageOpcode (st : Oam) (m : Mem) : UInt8 :=
  match GwOamMessageListGetNode st (serialOf m) with
  | none => (GWTT_OAM_HEADER.load m).opCode
  | some q => q.GwOpcode

/-- How often the message that a frame belongs to is in the queue. -/
def messageQueued (st : Onu) (m : Mem) : Nat :=
  match GwOamMessageListGetNode st.messages (serialOf m) with
  | none => 0
  | some q => held st.async q.addr

/-- The put of a message is taken and the message is not in the queue, or it is
not taken and the message is there. -/
def QueuedOnce (mal : Bool) (st : Onu) (m : Mem) : Prop :=
  if Takes mal st.async pointerSize 0 then messageQueued st m = 0 else messageQueued st m = 1

section
variable (ntohs : UInt16 → UInt16)

theorem held_none {st : Onu} (h : st.Wf) {a : Nat} (ha : st.messages.next ≤ a) :
    held st.async a = 0 := by
  apply held_zero
  intro i pbuf hb
  have := h.pointers i pbuf hb
  omega

/-- Only command messages are ever in the queue. -/
theorem held_other {st : Onu} (h : st.Wf) {p : GWTT_OAM_MESSAGE_NODE} (hp : p ∈ st.messages.list)
    (hop : p.GwOpcode ≠ CLI_REQ_TRANSMIT) : held st.async p.addr = 0 := by
  apply held_zero
  intro i pbuf hb he
  exact hop (h.commands i pbuf hb p hp he.symm)

theorem delivered_queued {st : Onu} (h : st.Wf) {mal : Malloc} {m : Mem}
    {p : GWTT_OAM_MESSAGE_NODE}
    (hd : (CommOnuMsgReveive ntohs mal st.messages m).delivered = some p) :
    held st.async p.addr = messageQueued st m ∧ p.GwOpcode = messageOpcode st.messages m := by
  obtain ⟨-, -, hnode⟩ := receive_delivered ntohs hd
  unfold messageQueued messageOpcode
  cases hget : GwOamMessageListGetNode st.messages (serialOf m) with
  | none =>
    rw [hget] at hnode
    exact ⟨held_none h (Nat.le_of_eq hnode.1.symm), hnode.2⟩
  | some q =>
    rw [hget] at hnode
    exact ⟨by rw [hnode.1], hnode.2⟩

theorem dispatch_free {st : Onu} (h : st.Wf) (mal : Bool) {p : GWTT_OAM_MESSAGE_NODE}
    (hp : p ∈ st.messages.list) (hop : p.GwOpcode ≠ CLI_REQ_TRANSMIT) :
    Released (dispatch mal st p) p.addr := by
  unfold dispatch
  rw [if_neg hop]
  refine ⟨?_, ?_, held_other h hp hop⟩
  · intro q hq
    exact ((mem_rem h.messages).mp hq).2
  · change (p.addr :: st.messages.freed).count p.addr = 1
    rw [List.count_cons_self, List.count_eq_zero_of_not_mem (h.messages.live p hp)]

theorem held_async_trans {st : Onu} (h : st.Wf) (mal : Bool) (a : Nat) :
    held (gwd_oam_async_trans mal st a).1.async a =
      held st.async a + if Takes mal st.async pointerSize 0 then 1 else 0 := by
  have hpri : (0 : Int).toNat < st.async.pri_num := by
    rw [h.created.pri_num]
    decide
  unfold gwd_oam_async_trans
  by_cases ht : Takes mal st.async pointerSize 0
  · rw [put_takes ht, if_pos ht]
    simpa using held_enqueue st.async hpri ⟨pointerSize, a⟩ a
  · obtain ⟨-, hlist, hsame⟩ := put_refuses ht a
    rw [if_neg ht]
    exact held_same_list hlist hsame.pri_num a

theorem dispatch_queue {st : Onu} (h : st.Wf) (mal : Bool) {p : GWTT_OAM_MESSAGE_NODE}
    (hp : p ∈ st.messages.list) (hop : p.GwOpcode = CLI_REQ_TRANSMIT) :
    Disposed (dispatch mal st p) p.addr ↔
      held st.async p.addr + (if Takes mal st.async pointerSize 0 then 1 else 0) = 1 := by
  have hheld := held_async_trans h mal p.addr
  unfold dispatch
  rw [if_pos hop]
  have hlive : st.messages.freed.count p.addr = 0 :=
    List.count_eq_zero_of_not_mem (h.messages.live p hp)
  refine ⟨?_, ?_⟩
  · rintro (⟨hoff, -, -⟩ | ⟨-, -, hone⟩)
    · exact absurd rfl (hoff p hp)
    · rw [← hheld, hone]
  · intro hone
    exact Or.inr ⟨⟨p, hp, rfl⟩, hlive, hheld.trans hone⟩

end

/-! ## A put with no memory -/

/-- A command of two bytes. -/
def commandFrame : Mem := oamFrame CLI_REQ_TRANSMIT 5 2 0 (Vector.replicate 8 0) [0x6c, 0x73]

def commandNode : GWTT_OAM_MESSAGE_NODE where
  addr := 1
  GwOpcode := CLI_REQ_TRANSMIT
  SendSerNo := 5
  WholePktLen := 2
  RevPktLen := 2
  SessionID := Vector.replicate 8 0
  TimerID := 0
  pPayLoad := some [0x6c, 0x73, 0]

end gwdonu.oam
