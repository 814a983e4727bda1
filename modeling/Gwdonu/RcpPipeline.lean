-- RCP frames between the thread that receives them and the thread that handles them: a copy of
-- each waits in a queue, they are handled in the order in which they came, and no copy is freed
-- twice or kept.
import Gwdonu.Lib.Runs
import Gwdonu.PriQueue
import Gwdonu.RcpReceive

namespace gwdonu.rcp_pipeline

open oam pri_queue runs
open switch_records (Env)

/-! ## The program -/

/-- `pkt` is the address of the copy. -/
structure RCP_MSG_T where
  portid : Nat
  len : Nat
  pkt : Nat
  deriving DecidableEq

/-- `sizeof(RCP_MSG_T)`. -/
def RCP_MSG_SIZE : Nat := 12

def RCP_RCV_QUEUE_DEPTH : Nat := 100

/-- A frame that came in on a port. -/
structure Frame where
  portid : Nat
  pkt : List UInt8
  deriving DecidableEq

/-- What `malloc` and `memcpy` make of the frame: behind its bytes stands what was there before. -/
def copy (pkt : List UInt8) (heap : Mem) : Mem := fun i => pkt.getD i (heap i)

/-- The thread that receives is in `gw_rcppktHandler` once the copy is made. -/
inductive Receiver where
  | idle
  | copied (frame : Frame) (msg : RCP_MSG_T)

/-- `rcp_rcv_handll_thread` between its calls. -/
inductive Thread where
  | waits
  | took (msg : RCP_MSG_T)
  | handled (msg : RCP_MSG_T)

/-- What happened to the tables: a frame was handled, or another thread changed them. -/
inductive Turn where
  | frame (e : Env) (portid len : Nat) (pkt : Mem)
  | others (change : rcp_receive.State → rcp_receive.State)

/-- The handler called at once, with nothing in between. -/
def turn (tables : rcp_receive.State) : Turn → rcp_receive.State
  | .frame e portid len pkt => ((tables.RcpFrameRevHandle e portid len pkt).result.map Prod.fst).getD tables
  | .others change => change tables

def Turn.frame? : Turn → Option Frame
  | .frame _ portid len pkt => some ⟨portid, bytes pkt 0 len⟩
  | .others _ => none

/-- `heap` has the copies that are not freed. The last three are not the program's: each frame with
whether `gw_rcppktHandler` returned `GW_OK`, the turns of the tables, and whether memory was
used or freed that was no copy. -/
structure State where
  rcp_rcv_queue : osal_queue_record_t RCP_MSG_T
  heap : Nat → Option Mem
  receiver : Receiver
  thread : Thread
  tables : rcp_receive.State
  answers : List (Frame × Bool)
  turns : List Turn
  lost : Bool

def State.free (s : State) (p : Nat) : State :=
  match s.heap p with
  | some _ => { s with heap := Function.update s.heap p none }
  | none => { s with lost := true }

/-- `gw_rcppktHandler` up to the put. `p` is what `malloc` gives. -/
def State.gw_rcppktHandler (s : State) (frame : Frame) (p : Option Nat) (heap : Mem) : State :=
  match s.receiver with
  | .idle =>
    match p with
    | some p =>
      { s with
        heap := Function.update s.heap p (some (copy frame.pkt heap))
        receiver := .copied frame ⟨frame.portid, frame.pkt.length, p⟩ }
    | none => { s with answers := s.answers ++ [(frame, false)] }
  | .copied _ _ => s

/-- The rest of it. `mal` is whether there is memory for the message. -/
def State.put (s : State) (mal : Bool) : State :=
  match s.receiver with
  | .idle => s
  | .copied frame msg =>
    let (queue, ret) := gw_pri_queue_put mal s.rcp_rcv_queue (some msg) RCP_MSG_SIZE 0
    let s := { s with rcp_rcv_queue := queue, receiver := .idle, answers := s.answers ++ [(frame, ret == .OK)] }
    if ret = .OK then s else s.free msg.pkt

def State.get (s : State) : State :=
  match s.thread with
  | .waits =>
    if s.rcp_rcv_queue.sem = 0 then s
    else
      let (queue, ret, msg) := gw_pri_queue_get s.rcp_rcv_queue false RCP_MSG_SIZE
      let s := { s with rcp_rcv_queue := queue }
      match ret, msg with
      | .OK, some msg => if RCP_MSG_SIZE ≤ msg.size then { s with thread := .took msg.data } else s
      | _, _ => s
  | _ => s

/-- As long as the handler waits for a semaphore, nothing happens. -/
def State.handle (s : State) (e : Env) : State :=
  match s.thread with
  | .took msg =>
    match s.heap msg.pkt with
    | none => { s with lost := true }
    | some pkt =>
      match (s.tables.RcpFrameRevHandle e msg.portid msg.len pkt).result with
      | none => s
      | some (tables, _) =>
        { s with
          tables, turns := s.turns ++ [.frame e msg.portid msg.len pkt]
          thread := .handled msg }
  | _ => s

def State.release (s : State) : State :=
  match s.thread with
  | .handled msg => { s.free msg.pkt with thread := .waits }
  | _ => s

/-- A step of the receiving thread, of the handling thread, or of a thread that only has the tables. -/
inductive Event where
  | receive (frame : Frame) (p : Option Nat) (heap : Mem)
  | put (mal : Bool)
  | get
  | handle (e : Env)
  | free
  | others (change : rcp_receive.State → rcp_receive.State)

def State.step (s : State) : Event → State
  | .receive frame p heap => s.gw_rcppktHandler frame p heap
  | .put mal => s.put mal
  | .get => s.get
  | .handle e => s.handle e
  | .free => s.release
  | .others change => { s with tables := change s.tables, turns := s.turns ++ [.others change] }

/-- `malloc` gives memory that is not in use. -/
def Fits (s : State) : Event → Prop
  | .receive _ (some p) _ => s.heap p = none
  | _ => True

/-- The queue is made in an entry of the table, and the threads are started. -/
def State.start (slot : osal_queue_record_t RCP_MSG_T) (tables : rcp_receive.State) : State where
  rcp_rcv_queue := (gw_pri_queue_create slot RCP_RCV_QUEUE_DEPTH RCP_MSG_SIZE 3).1
  heap := fun _ => none
  receiver := .idle
  thread := .waits
  tables := tables
  answers := []
  turns := []
  lost := false

/-! ## The law -/

/-- What the message stands for. -/
def State.read (s : State) (msg : RCP_MSG_T) : Frame := ⟨msg.portid, bytes ((s.heap msg.pkt).getD fun _ => 0) 0 msg.len⟩

def Receiver.msgs : Receiver → List RCP_MSG_T
  | .idle => []
  | .copied _ msg => [msg]

/-- The message whose copy the thread has. -/
def Thread.msgs : Thread → List RCP_MSG_T
  | .waits => []
  | .took msg => [msg]
  | .handled msg => [msg]

/-- The message that the thread has not handled. -/
def Thread.todo : Thread → List RCP_MSG_T
  | .took msg => [msg]
  | _ => []

def contents (queue : osal_queue_record_t RCP_MSG_T) : List RCP_MSG_T := (queue.queue_list 0).map (·.data)

def State.queued (s : State) : List RCP_MSG_T := contents s.rcp_rcv_queue

/-- The frames that the program answered for with `GW_OK`. -/
def State.accepted (s : State) : List Frame := (s.answers.filter (·.2)).map (·.1)

/-- The frames that were handled. -/
def State.done (s : State) : List Frame := s.turns.filterMap Turn.frame?

/-- The copies that someone will free. -/
def State.copies (s : State) : List Nat :=
  (s.thread.msgs ++ s.queued ++ s.receiver.msgs).map (·.pkt)

/-- The copies are what is allocated. -/
structure Ledger (heap : Nat → Option Mem) (copies : List Nat) : Prop where
  live : ∀ p, (heap p).isSome ↔ p ∈ copies
  once : copies.Nodup

/-- Frames are handled in the order in which they came, as they came, as if no queue was there, and
the others that were accepted are with the thread or in the queue. -/
structure Orderly (tables : rcp_receive.State) (s : State) : Prop where
  order : s.done ++ (s.thread.todo ++ s.queued).map s.read = s.accepted
  tables : s.tables = run turn tables s.turns
  ledger : Ledger s.heap s.copies
  few : s.copies.length ≤ RCP_RCV_QUEUE_DEPTH + 2
  lost : s.lost = false

/-- A frame is refused for want of memory or of room in the queue, and for no other reason. -/
def Answered (s : State) : Event → Prop
  | .receive frame none heap => s.receiver = .idle →
      (s.step (.receive frame none heap)).answers = s.answers ++ [(frame, false)]
  | .put mal => ∀ frame msg, s.receiver = .copied frame msg →
      (s.step (.put mal)).answers = s.answers ++ [(frame, mal && decide (s.queued.length < RCP_RCV_QUEUE_DEPTH))]
  | _ => True

/-! ## Copies -/

section
variable {heap : Nat → Option Mem} {copies left right : List Nat} {p : Nat}

theorem bytes_copy (pkt : List UInt8) (heap : Mem) : bytes (copy pkt heap) 0 pkt.length = pkt := by
  apply List.ext_getElem
  · simp
  · intro i hi _
    have hlt : i < pkt.length := by simpa using hi
    simp [bytes, copy, hlt]

theorem Ledger.malloc (h : Ledger heap copies) (hfree : heap p = none) (pkt : Mem) :
    Ledger (Function.update heap p (some pkt)) (copies ++ [p]) := by
  have hnew : p ∉ copies := by
    rw [← h.live, hfree]
    exact Bool.false_ne_true
  constructor
  · intro a
    by_cases ha : a = p
    · subst ha
      simp
    · rw [Function.update_of_ne ha, h.live]
      simp [ha]
  · exact List.nodup_append.mpr ⟨h.once, List.nodup_singleton p, by
      rintro a ha b hb rfl
      exact hnew (List.mem_singleton.mp hb ▸ ha)⟩

theorem Ledger.free (h : Ledger heap (left ++ p :: right)) :
    Ledger (Function.update heap p none) (left ++ right) := by
  obtain ⟨hnew, honce⟩ := List.nodup_cons.mp (List.nodup_middle.mp h.once)
  refine ⟨?_, honce⟩
  intro a
  by_cases ha : a = p
  · subst ha
    simpa using hnew
  · rw [Function.update_of_ne ha, h.live]
    simp [ha]

end

/-! ## What each step keeps -/

/-- What holds of the queue, and of the copy that is not in it yet. -/
structure Sound (s : State) : Prop where
  pri : s.rcp_rcv_queue.pri = true
  queue_size : s.rcp_rcv_queue.queue_size = RCP_MSG_SIZE
  depth : s.rcp_rcv_queue.depth = RCP_RCV_QUEUE_DEPTH
  pri_num : s.rcp_rcv_queue.pri_num = 3
  others : ∀ i, 0 < i → i < 3 → s.rcp_rcv_queue.queue_list i = []
  size : ∀ msg ∈ s.rcp_rcv_queue.queue_list 0, msg.size = RCP_MSG_SIZE
  sem : s.rcp_rcv_queue.sem = (s.rcp_rcv_queue.queue_list 0).length
  full : s.queued.length ≤ RCP_RCV_QUEUE_DEPTH
  copied : ∀ frame msg, s.receiver = .copied frame msg → s.read msg = frame

section
variable {s s' : State} {msg : RCP_MSG_T} {frame : Frame}

@[simp] theorem length_queued (s : State) : s.queued.length = (s.rcp_rcv_queue.queue_list 0).length :=
  List.length_map _

theorem few_copies (h : Sound s) : s.copies.length ≤ RCP_RCV_QUEUE_DEPTH + 2 := by
  have hfull := h.full
  have hthread : s.thread.msgs.length ≤ 1 := by cases s.thread <;> simp [Thread.msgs]
  have hreceiver : s.receiver.msgs.length ≤ 1 := by cases s.receiver <;> simp [Receiver.msgs]
  simp only [State.copies, List.length_map, List.length_append]
  omega

theorem read_congr (h : s'.heap msg.pkt = s.heap msg.pkt) : s'.read msg = s.read msg := by
  unfold State.read
  rw [h]

theorem todo_sublist (thread : Thread) : thread.todo.Sublist thread.msgs := by
  cases thread with
  | waits => exact List.Sublist.refl _
  | took msg => exact List.Sublist.refl _
  | handled msg => exact List.nil_sublist _

theorem mem_copies (h : msg ∈ s.thread.todo ++ s.queued) : msg.pkt ∈ s.copies := by
  unfold State.copies
  rw [List.map_append]
  apply List.mem_append_left
  exact List.mem_map_of_mem ((List.Sublist.append_right (todo_sublist s.thread) s.queued).subset h)

/-- As long as no copy changes, the messages stand for the same frames. -/
theorem order_congr (hdone : s'.done = s.done)
    (hwait : s'.thread.todo ++ s'.queued = s.thread.todo ++ s.queued)
    (h : ∀ msg ∈ s.thread.todo ++ s.queued, s'.heap msg.pkt = s.heap msg.pkt) :
    s'.done ++ (s'.thread.todo ++ s'.queued).map s'.read = s.done ++ (s.thread.todo ++ s.queued).map s.read := by
  rw [hdone, hwait]
  congr 1
  apply List.map_congr_left
  intro msg hmsg
  exact read_congr (h msg hmsg)

end

section
variable {s : State} {tables : rcp_receive.State}

theorem accepted_snoc (answers : List (Frame × Bool)) (frame : Frame) (ok : Bool) :
    ((answers ++ [(frame, ok)]).filter (·.2)).map (·.1) =
      (answers.filter (·.2)).map (·.1) ++ if ok then [frame] else [] := by
  cases ok <;> simp

theorem handler_refuses (hidle : s.receiver = .idle) (frame : Frame) (heap : Mem) :
    s.gw_rcppktHandler frame none heap = { s with answers := s.answers ++ [(frame, false)] } := by
  unfold State.gw_rcppktHandler
  rw [hidle]

theorem refused_keeps (hs : Sound s) (ho : Orderly tables s) (frame : Frame) :
    Sound { s with answers := s.answers ++ [(frame, false)] } ∧
      Orderly tables { s with answers := s.answers ++ [(frame, false)] } := by
  refine ⟨⟨hs.pri, hs.queue_size, hs.depth, hs.pri_num, hs.others, hs.size, hs.sem, hs.full, hs.copied⟩,
    ⟨?_, ho.tables, ho.ledger, ho.few, ho.lost⟩⟩
  have haccepted := accepted_snoc s.answers frame false
  rw [if_neg Bool.false_ne_true, List.append_nil] at haccepted
  exact Eq.trans ho.order haccepted.symm

theorem copied_keeps (hs : Sound s) (ho : Orderly tables s) (hidle : s.receiver = .idle) (frame : Frame) {p : Nat}
    (hfree : s.heap p = none) (heap : Mem) :
    Sound (s.gw_rcppktHandler frame (some p) heap) ∧ Orderly tables (s.gw_rcppktHandler frame (some p) heap) := by
  unfold State.gw_rcppktHandler
  rw [hidle]
  dsimp only
  have hother : ∀ a ∈ s.copies, Function.update s.heap p (some (copy frame.pkt heap)) a = s.heap a := by
    intro a ha
    apply Function.update_of_ne
    rintro rfl
    rw [← ho.ledger.live, hfree] at ha
    exact Bool.false_ne_true ha
  have hsound : Sound { s with
      heap := Function.update s.heap p (some (copy frame.pkt heap))
      receiver := .copied frame ⟨frame.portid, frame.pkt.length, p⟩ } := by
    refine ⟨hs.pri, hs.queue_size, hs.depth, hs.pri_num, hs.others, hs.size, hs.sem, hs.full, ?_⟩
    intro frame' msg hcopied
    obtain ⟨rfl, rfl⟩ := Receiver.copied.inj hcopied
    simp [State.read, bytes_copy]
  refine ⟨hsound, ⟨?_, ho.tables, ?_, few_copies hsound, ho.lost⟩⟩
  · refine Eq.trans ?_ ho.order
    exact order_congr rfl rfl fun msg hmsg => hother _ (mem_copies hmsg)
  · have hcopies : s.copies = (s.thread.msgs ++ s.queued).map (·.pkt) := by
      simp [State.copies, hidle, Receiver.msgs]
    have hledger := ho.ledger.malloc hfree (copy frame.pkt heap)
    rw [hcopies] at hledger
    simpa [State.copies, Receiver.msgs, State.queued] using hledger

/-- A put that is taken. -/
theorem put_ok {frame : Frame} {msg : RCP_MSG_T} {mal : Bool} (hreceiver : s.receiver = .copied frame msg)
    (htakes : Takes mal s.rcp_rcv_queue RCP_MSG_SIZE 0) :
    s.put mal = { s with
      rcp_rcv_queue := enqueue s.rcp_rcv_queue 0 ⟨RCP_MSG_SIZE, msg⟩
      receiver := .idle
      answers := s.answers ++ [(frame, true)] } := by
  unfold State.put
  rw [hreceiver]
  dsimp only
  rw [put_takes htakes]
  exact if_pos rfl

theorem put_error {frame : Frame} {msg : RCP_MSG_T} {mal : Bool} {pkt : Mem}
    (hreceiver : s.receiver = .copied frame msg) (hpkt : s.heap msg.pkt = some pkt)
    (htakes : ¬ Takes mal s.rcp_rcv_queue RCP_MSG_SIZE 0) :
    s.put mal = { s with
      rcp_rcv_queue := (gw_pri_queue_put mal s.rcp_rcv_queue (some msg) RCP_MSG_SIZE 0).1
      heap := Function.update s.heap msg.pkt none
      receiver := .idle
      answers := s.answers ++ [(frame, false)] } := by
  obtain ⟨hret, -, -⟩ := put_refuses htakes msg
  unfold State.put
  rw [hreceiver]
  dsimp only
  rw [if_neg hret, beq_eq_false_iff_ne.mpr hret]
  unfold State.free
  dsimp only
  rw [hpkt]

theorem takes_iff (hs : Sound s) (mal : Bool) :
    Takes mal s.rcp_rcv_queue RCP_MSG_SIZE 0 ↔ mal = true ∧ s.queued.length < RCP_RCV_QUEUE_DEPTH := by
  rw [length_queued, ← hs.depth]
  constructor
  · intro h
    exact ⟨h.memory, h.room⟩
  · rintro ⟨hmal, hroom⟩
    exact ⟨hs.pri, hs.queue_size.ge, le_refl _, by simp [hs.pri_num], hroom, hmal⟩

theorem queued_keeps (hs : Sound s) (ho : Orderly tables s) {frame : Frame} {msg : RCP_MSG_T} {mal : Bool}
    (hreceiver : s.receiver = .copied frame msg) (htakes : Takes mal s.rcp_rcv_queue RCP_MSG_SIZE 0) :
    Sound (s.put mal) ∧ Orderly tables (s.put mal) := by
  have hsame := enqueue_keeps s.rcp_rcv_queue 0 ⟨RCP_MSG_SIZE, msg⟩
  have hroom := ((takes_iff hs mal).mp htakes).2
  rw [length_queued] at hroom
  have hlist : (enqueue s.rcp_rcv_queue 0 ⟨RCP_MSG_SIZE, msg⟩).queue_list 0 =
      s.rcp_rcv_queue.queue_list 0 ++ [⟨RCP_MSG_SIZE, msg⟩] := by
    rw [enqueue_list, Function.update_self]
  rw [put_ok hreceiver htakes]
  have hsound : Sound { s with
      rcp_rcv_queue := enqueue s.rcp_rcv_queue 0 ⟨RCP_MSG_SIZE, msg⟩
      receiver := .idle
      answers := s.answers ++ [(frame, true)] } := by
    refine ⟨hsame.pri.trans hs.pri, hsame.queue_size.trans hs.queue_size, hsame.depth.trans hs.depth,
      hsame.pri_num.trans hs.pri_num, ?_, ?_, ?_, ?_, nofun⟩
    · intro i hi hlt
      rw [enqueue_list, Function.update_of_ne (Nat.ne_of_gt hi)]
      exact hs.others i hi hlt
    · intro m hm
      rw [hlist] at hm
      rcases List.mem_append.mp hm with hm | hm
      · exact hs.size m hm
      · rw [List.mem_singleton.mp hm]
    · rw [hlist, enqueue_sem, hs.sem, List.length_append, List.length_singleton]
    · rw [length_queued, hlist, List.length_append, List.length_singleton]
      exact hroom
  have hqueued : contents (enqueue s.rcp_rcv_queue 0 ⟨RCP_MSG_SIZE, msg⟩) = s.queued ++ [msg] := by
    unfold contents
    rw [hlist, List.map_append]
    rfl
  refine ⟨hsound, ⟨?_, ho.tables, ?_, few_copies hsound, ho.lost⟩⟩
  · change s.done ++ (s.thread.todo ++ contents (enqueue _ _ _)).map s.read =
      ((s.answers ++ [(frame, true)]).filter (·.2)).map (·.1)
    rw [hqueued, accepted_snoc, if_pos rfl, ← List.append_assoc, List.map_append, ← List.append_assoc, ho.order,
      List.map_singleton, hs.copied frame msg hreceiver]
    rfl
  · change Ledger s.heap ((s.thread.msgs ++ contents (enqueue _ _ _) ++ []).map RCP_MSG_T.pkt)
    rw [hqueued, List.append_nil, ← List.append_assoc]
    have hledger := ho.ledger
    unfold State.copies at hledger
    rwa [hreceiver] at hledger

theorem unqueued_keeps (hs : Sound s) (ho : Orderly tables s) {frame : Frame} {msg : RCP_MSG_T} {mal : Bool}
    (hreceiver : s.receiver = .copied frame msg) (htakes : ¬ Takes mal s.rcp_rcv_queue RCP_MSG_SIZE 0) :
    Sound (s.put mal) ∧ Orderly tables (s.put mal) := by
  obtain ⟨-, hlist, hsame⟩ := put_refuses htakes msg
  have hsem := put_refuses_sem htakes msg
  have hcopies : s.copies = (s.thread.msgs ++ s.queued).map (·.pkt) ++ msg.pkt :: [] := by
    unfold State.copies
    rw [hreceiver, List.map_append]
    rfl
  have hpkt : (s.heap msg.pkt).isSome := by
    rw [ho.ledger.live, hcopies]
    exact List.mem_append_right _ List.mem_cons_self
  obtain ⟨pkt, hpkt⟩ := Option.isSome_iff_exists.mp hpkt
  have hledger := ho.ledger
  rw [hcopies] at hledger
  have hfreed := hledger.free
  have hother : ∀ m ∈ s.thread.todo ++ s.queued,
      Function.update s.heap msg.pkt none m.pkt = s.heap m.pkt := by
    intro m hm
    apply Function.update_of_ne
    intro he
    have hmem : m.pkt ∈ (s.thread.msgs ++ s.queued).map (·.pkt) := by
      apply List.mem_map_of_mem
      exact (List.Sublist.append_right (todo_sublist s.thread) s.queued).subset hm
    have honce := hledger.once
    rw [List.nodup_append] at honce
    exact honce.2.2 _ hmem _ List.mem_cons_self he
  rw [put_error hreceiver hpkt htakes]
  generalize (gw_pri_queue_put mal s.rcp_rcv_queue (some msg) RCP_MSG_SIZE 0).1 = queue at hlist hsame hsem ⊢
  have hsound : Sound { s with
      rcp_rcv_queue := queue
      heap := Function.update s.heap msg.pkt none
      receiver := .idle
      answers := s.answers ++ [(frame, false)] } := by
    refine ⟨hsame.pri.trans hs.pri, hsame.queue_size.trans hs.queue_size, hsame.depth.trans hs.depth,
      hsame.pri_num.trans hs.pri_num, hlist ▸ hs.others, hlist ▸ hs.size, ?_, ?_, nofun⟩
    · rw [hsem, hs.sem, hlist]
    · have hfull := hs.full
      rw [length_queued] at hfull ⊢
      rwa [hlist]
  have hqueued : contents queue = s.queued := by
    unfold contents
    rw [hlist]
    rfl
  refine ⟨hsound, ⟨?_, ho.tables, ?_, few_copies hsound, ho.lost⟩⟩
  · have haccepted := accepted_snoc s.answers frame false
    rw [if_neg Bool.false_ne_true, List.append_nil] at haccepted
    refine Eq.trans ?_ (Eq.trans ho.order haccepted.symm)
    refine order_congr ?_ ?_ ?_
    · rfl
    · exact congrArg (s.thread.todo ++ ·) hqueued
    · exact hother
  · change Ledger _ ((s.thread.msgs ++ contents queue ++ []).map RCP_MSG_T.pkt)
    rw [hqueued, List.append_nil]
    rwa [List.append_nil] at hfreed

theorem get_empty (hs : Sound s) (hempty : s.rcp_rcv_queue.queue_list 0 = []) : s.get = s := by
  have hsem := hs.sem
  rw [hempty, List.length_nil] at hsem
  unfold State.get
  split
  · exact if_pos hsem
  · rfl

theorem get_first (hs : Sound s) {pbuf : Message RCP_MSG_T} {rest : List (Message RCP_MSG_T)}
    (hwaits : s.thread = .waits) (hlist : s.rcp_rcv_queue.queue_list 0 = pbuf :: rest) :
    ∃ queue, s.get = { s with rcp_rcv_queue := queue, thread := .took pbuf.data } ∧
      SameQueue queue s.rcp_rcv_queue ∧ queue.sem = s.rcp_rcv_queue.sem - 1 ∧
      queue.queue_list = Function.update s.rcp_rcv_queue.queue_list 0 rest := by
  have hsize := hs.size pbuf (hlist ▸ List.mem_cons_self)
  have hsem := hs.sem
  rw [hlist, List.length_cons] at hsem
  have hothers : ∀ i, 0 < i → i < s.rcp_rcv_queue.pri_num → s.rcp_rcv_queue.queue_list i = [] := by
    rw [hs.pri_num]
    exact hs.others
  have hget := get_oldest hs.pri (by omega) (by rw [hs.pri_num]; decide) hothers hlist hsize.le
  refine ⟨{ s.rcp_rcv_queue with
      sem := s.rcp_rcv_queue.sem - 1, queue_list := Function.update s.rcp_rcv_queue.queue_list 0 rest },
    ?_, ⟨rfl, rfl, rfl, rfl⟩, rfl, rfl⟩
  unfold State.get
  rw [hwaits]
  dsimp only
  rw [if_neg (by omega), hget]
  exact if_pos hsize.ge

theorem get_keeps (hs : Sound s) (ho : Orderly tables s) : Sound s.get ∧ Orderly tables s.get := by
  cases hthread : s.thread with
  | took msg =>
    unfold State.get
    rw [hthread]
    exact ⟨hs, ho⟩
  | handled msg =>
    unfold State.get
    rw [hthread]
    exact ⟨hs, ho⟩
  | waits =>
    cases hlist : s.rcp_rcv_queue.queue_list 0 with
    | nil =>
      rw [get_empty hs hlist]
      exact ⟨hs, ho⟩
    | cons pbuf rest =>
      obtain ⟨queue, hget, hsame, hsem, hupdate⟩ := get_first hs hthread hlist
      have hfull := hs.full
      rw [length_queued, hlist, List.length_cons] at hfull
      have hrest : queue.queue_list 0 = rest := by rw [hupdate, Function.update_self]
      have hqueued : s.queued = [pbuf.data] ++ contents queue := by
        unfold State.queued contents
        rw [hlist, hrest]
        rfl
      rw [hget]
      have hsound : Sound { s with rcp_rcv_queue := queue, thread := .took pbuf.data } := by
        refine ⟨hsame.pri.trans hs.pri, hsame.queue_size.trans hs.queue_size, hsame.depth.trans hs.depth,
          hsame.pri_num.trans hs.pri_num, ?_, ?_, ?_, ?_, hs.copied⟩
        · intro i hi hlt
          rw [hupdate, Function.update_of_ne (Nat.ne_of_gt hi)]
          exact hs.others i hi hlt
        · intro m hm
          rw [hrest] at hm
          exact hs.size m (hlist ▸ List.mem_cons_of_mem _ hm)
        · rw [hsem, hs.sem, hlist, hrest, List.length_cons, Nat.add_sub_cancel]
        · rw [length_queued, hrest]
          omega
      refine ⟨hsound, ⟨?_, ho.tables, ?_, few_copies hsound, ho.lost⟩⟩
      · refine Eq.trans ?_ ho.order
        refine order_congr ?_ ?_ ?_
        · rfl
        · rw [hthread, hqueued]
          rfl
        · exact fun _ _ => rfl
      · have hledger := ho.ledger
        unfold State.copies at hledger
        rw [hthread, hqueued] at hledger
        exact hledger

theorem handle_keeps (hs : Sound s) (ho : Orderly tables s) (e : Env) :
    Sound (s.handle e) ∧ Orderly tables (s.handle e) := by
  unfold State.handle
  cases hthread : s.thread with
  | waits => exact ⟨hs, ho⟩
  | handled msg => exact ⟨hs, ho⟩
  | took msg =>
    dsimp only
    have hlive : (s.heap msg.pkt).isSome := by
      rw [ho.ledger.live]
      apply mem_copies
      rw [hthread]
      exact List.mem_cons_self
    obtain ⟨pkt, hpkt⟩ := Option.isSome_iff_exists.mp hlive
    rw [hpkt]
    dsimp only
    cases hresult : (s.tables.RcpFrameRevHandle e msg.portid msg.len pkt).result with
    | none => exact ⟨hs, ho⟩
    | some result =>
      obtain ⟨after, answer⟩ := result
      dsimp only
      have hsound : Sound { s with
          tables := after
          turns := s.turns ++ [.frame e msg.portid msg.len pkt]
          thread := .handled msg } :=
        ⟨hs.pri, hs.queue_size, hs.depth, hs.pri_num, hs.others, hs.size, hs.sem, hs.full, hs.copied⟩
      have hread : s.read msg = ⟨msg.portid, bytes pkt 0 msg.len⟩ := by
        unfold State.read
        rw [hpkt]
        rfl
      refine ⟨hsound, ⟨?_, ?_, ?_, few_copies hsound, ho.lost⟩⟩
      · refine Eq.trans ?_ ho.order
        change (s.turns ++ [Turn.frame e msg.portid msg.len pkt]).filterMap Turn.frame? ++ s.queued.map s.read = _
        rw [List.filterMap_append, hthread, List.append_assoc]
        change s.done ++ ([⟨msg.portid, bytes pkt 0 msg.len⟩] ++ _) = s.done ++ (s.read msg :: s.queued.map s.read)
        rw [hread]
        rfl
      · change after = run turn tables (s.turns ++ [.frame e msg.portid msg.len pkt])
        rw [run_append, ← ho.tables, run_cons, run_nil]
        dsimp only [turn]
        rw [hresult]
        rfl
      · have hledger := ho.ledger
        unfold State.copies at hledger
        rwa [hthread] at hledger

theorem release_keeps (hs : Sound s) (ho : Orderly tables s) : Sound s.release ∧ Orderly tables s.release := by
  unfold State.release
  cases hthread : s.thread with
  | waits => exact ⟨hs, ho⟩
  | took msg => exact ⟨hs, ho⟩
  | handled msg =>
    have hcopies : s.copies = [] ++ msg.pkt :: (s.queued ++ s.receiver.msgs).map (·.pkt) := by
      unfold State.copies
      rw [hthread]
      rfl
    have hledger := ho.ledger
    rw [hcopies] at hledger
    have hlive : (s.heap msg.pkt).isSome := by
      rw [hledger.live]
      exact List.mem_cons_self
    obtain ⟨pkt, hpkt⟩ := Option.isSome_iff_exists.mp hlive
    have hother : ∀ m ∈ s.queued ++ s.receiver.msgs, Function.update s.heap msg.pkt none m.pkt = s.heap m.pkt := by
      intro m hm
      apply Function.update_of_ne
      intro he
      exact (List.nodup_cons.mp hledger.once).1 (he ▸ List.mem_map_of_mem hm)
    unfold State.free
    dsimp only
    rw [hpkt]
    dsimp only
    have hsound : Sound { s with heap := Function.update s.heap msg.pkt none, thread := .waits } := by
      refine ⟨hs.pri, hs.queue_size, hs.depth, hs.pri_num, hs.others, hs.size, hs.sem, hs.full, ?_⟩
      intro frame m hcopied
      rw [← hs.copied frame m hcopied]
      apply read_congr
      apply hother
      apply List.mem_append_right
      change s.receiver = _ at hcopied
      rw [hcopied]
      exact List.mem_cons_self
    refine ⟨hsound, ⟨?_, ho.tables, ?_, few_copies hsound, ho.lost⟩⟩
    · refine Eq.trans ?_ ho.order
      refine order_congr ?_ ?_ ?_
      · rfl
      · rw [hthread]
        rfl
      · intro m hm
        rw [hthread] at hm
        exact hother m (List.mem_append_left _ hm)
    · exact hledger.free

theorem others_keeps (hs : Sound s) (ho : Orderly tables s) (change : rcp_receive.State → rcp_receive.State) :
    Sound (s.step (.others change)) ∧ Orderly tables (s.step (.others change)) := by
  refine ⟨⟨hs.pri, hs.queue_size, hs.depth, hs.pri_num, hs.others, hs.size, hs.sem, hs.full, hs.copied⟩,
    ⟨?_, ?_, ho.ledger, ho.few, ho.lost⟩⟩
  · refine Eq.trans ?_ ho.order
    refine order_congr ?_ ?_ ?_
    · exact List.filterMap_append.trans (List.append_nil _)
    · rfl
    · exact fun _ _ => rfl
  · change change s.tables = run turn tables (s.turns ++ [.others change])
    rw [run_append, ← ho.tables]
    rfl

theorem put_keeps (hs : Sound s) (ho : Orderly tables s) (mal : Bool) :
    Sound (s.put mal) ∧ Orderly tables (s.put mal) := by
  cases hreceiver : s.receiver with
  | idle =>
    unfold State.put
    rw [hreceiver]
    exact ⟨hs, ho⟩
  | copied frame msg =>
    by_cases htakes : Takes mal s.rcp_rcv_queue RCP_MSG_SIZE 0
    · exact queued_keeps hs ho hreceiver htakes
    · exact unqueued_keeps hs ho hreceiver htakes

theorem receive_keeps (hs : Sound s) (ho : Orderly tables s) (frame : Frame) (p : Option Nat) (heap : Mem)
    (hfits : Fits s (.receive frame p heap)) :
    Sound (s.gw_rcppktHandler frame p heap) ∧ Orderly tables (s.gw_rcppktHandler frame p heap) := by
  cases hreceiver : s.receiver with
  | copied frame' msg =>
    unfold State.gw_rcppktHandler
    rw [hreceiver]
    exact ⟨hs, ho⟩
  | idle =>
    cases p with
    | some p => exact copied_keeps hs ho hreceiver frame hfits heap
    | none =>
      rw [handler_refuses hreceiver]
      exact refused_keeps hs ho frame

theorem step_keeps (hs : Sound s) (ho : Orderly tables s) (e : Event) (hfits : Fits s e) :
    Sound (s.step e) ∧ Orderly tables (s.step e) := by
  cases e with
  | receive frame p heap => exact receive_keeps hs ho frame p heap hfits
  | put mal => exact put_keeps hs ho mal
  | get => exact get_keeps hs ho
  | handle e => exact handle_keeps hs ho e
  | free => exact release_keeps hs ho
  | others change => exact others_keeps hs ho change

/-- A frame that is not taken is not taken for want of memory or of room. -/
theorem step_answered (hs : Sound s) (ho : Orderly tables s) (e : Event) : Answered s e := by
  cases e with
  | receive frame p heap =>
    cases p with
    | some p => trivial
    | none =>
      intro hidle
      exact congrArg State.answers (handler_refuses hidle frame heap)
  | put mal =>
    intro frame msg hreceiver
    change (s.put mal).answers = _
    have htakes := takes_iff hs mal
    by_cases ht : Takes mal s.rcp_rcv_queue RCP_MSG_SIZE 0
    · obtain ⟨hmal, hroom⟩ := htakes.mp ht
      rw [put_ok hreceiver ht, hmal, decide_eq_true hroom]
      rfl
    · have hlive : (s.heap msg.pkt).isSome := by
        rw [ho.ledger.live]
        unfold State.copies
        rw [hreceiver]
        exact List.mem_map_of_mem (List.mem_append_right _ List.mem_cons_self)
      obtain ⟨pkt, hpkt⟩ := Option.isSome_iff_exists.mp hlive
      rw [put_error hreceiver hpkt ht]
      have hfalse : (mal && decide (s.queued.length < RCP_RCV_QUEUE_DEPTH)) = false := by
        rw [Bool.eq_false_iff]
        intro htrue
        rw [Bool.and_eq_true, decide_eq_true_iff] at htrue
        exact ht (htakes.mpr htrue)
      rw [hfalse]
  | get => trivial
  | handle e => trivial
  | free => trivial
  | others change => trivial

end

/-- Before the first frame. -/
theorem start_keeps (slot : osal_queue_record_t RCP_MSG_T) (tables : rcp_receive.State) :
    Sound (State.start slot tables) ∧ Orderly tables (State.start slot tables) := by
  have hlist : ∀ i, i < 3 → (State.start slot tables).rcp_rcv_queue.queue_list i = [] := by
    intro i hi
    exact if_pos (by exact_mod_cast hi)
  have h0 := hlist 0 (by decide)
  have hqueued : (State.start slot tables).queued = [] := by
    unfold State.queued contents
    rw [h0, List.map_nil]
  have hcopies : (State.start slot tables).copies = [] := by
    unfold State.copies
    rw [hqueued]
    rfl
  refine ⟨⟨rfl, rfl, rfl, rfl, fun i _ hi => hlist i hi, ?_, ?_, ?_, nofun⟩, ⟨?_, rfl, ⟨?_, ?_⟩, ?_, rfl⟩⟩
  · rw [h0]
    exact nofun
  · rw [h0]
    rfl
  · rw [hqueued]
    exact Nat.zero_le _
  · rw [hqueued]
    rfl
  · intro p
    rw [hcopies]
    exact ⟨nofun, nofun⟩
  · rw [hcopies]
    exact List.nodup_nil
  · rw [hcopies]
    exact Nat.zero_le _

/-- In every order of the steps of both threads, frames are handled in the order in which they came
and as if they had been handled at once, none that was accepted is lost, no copy is freed twice or
kept, and a frame is refused only for want of memory or of room. -/
theorem frames_are_handled_as_they_came (slot : osal_queue_record_t RCP_MSG_T) (tables : rcp_receive.State)
    (es : List Event) (h : Along State.step Fits (State.start slot tables) es) :
    Orderly tables (run State.step (State.start slot tables) es) ∧
      Along State.step Answered (State.start slot tables) es := by
  obtain ⟨hs, ho⟩ := start_keeps slot tables
  have hstep : ∀ s e, Sound s ∧ Orderly tables s → Fits s e → Sound (s.step e) ∧ Orderly tables (s.step e) :=
    fun s e hkept hfits => step_keeps hkept.1 hkept.2 e hfits
  constructor
  · exact (run_inv hstep ⟨hs, ho⟩ h).2
  · exact along_imp hstep (fun s e hkept _ => step_answered hkept.1 hkept.2 e) ⟨hs, ho⟩ h

def hello : Frame := ⟨1, List.replicate 60 0x11⟩
def reply : Frame := ⟨2, List.replicate 60 0x22⟩

/-- One frame is handled while the other comes in, and there is no memory for a third; then the
first copy is freed, and its memory is given out again. -/
def busy : List Event :=
  [.receive hello (some 7) fun _ => 0, .put true, .get, .receive reply (some 8) fun _ => 0,
    .handle ⟨none, true, true⟩, .put true, .receive hello none fun _ => 0, .free,
    .receive hello (some 7) fun _ => 0, .put true, .get, .handle ⟨none, true, true⟩]

theorem two_wait_for_the_third :
    (run State.step (State.start free_record rcp_receive.blank) busy).accepted = [hello, reply, hello] ∧
      Orderly rcp_receive.blank (run State.step (State.start free_record rcp_receive.blank) busy) ∧
      Along State.step Answered (State.start free_record rcp_receive.blank) busy :=
  ⟨by decide, frames_are_handled_as_they_came free_record rcp_receive.blank busy
    ⟨rfl, trivial, trivial, rfl, trivial, trivial, trivial, trivial, rfl, trivial, trivial, trivial, trivial⟩⟩

end gwdonu.rcp_pipeline
