-- The receiver of OAM frames: the list of messages in progress, and
-- `CommOnuMsgReveive`, which puts a frame into the message that it belongs to.
import Gwdonu.OamFrame

namespace gwdonu.oam

/-! ## The message list and its timers -/

/-- `GWTT_OAM_MESSAGE_NODE`. `addr` is the address of the node, and `pPayLoad`
the bytes of the block that its pointer names, or `none` for `NULL`. -/
structure GWTT_OAM_MESSAGE_NODE where
  addr : Nat
  GwOpcode : UInt8
  SendSerNo : UInt32
  WholePktLen : Nat
  RevPktLen : Nat
  SessionID : Vector UInt8 8
  TimerID : Nat
  pPayLoad : Option (List UInt8)
  deriving DecidableEq

/-- A timer that `gw_timer_add` made for `OamMessageRecevTimeOut` and that has
not expired: its handle, and the node whose `SendSerNo` its data points at. -/
structure ReassemblyTimer where
  handle : Nat
  data : Nat
  deriving DecidableEq

/-- The nodes from `GwOamMessageListHead.next` on, the pending timers, the
nodes that were freed, and the next free block. No block is handed out twice,
and block 0 is `NULL`. -/
structure Oam where
  list : List GWTT_OAM_MESSAGE_NODE
  timers : List ReassemblyTimer
  freed : List Nat
  next : Nat
  deriving DecidableEq

/-- The state after `GwOamMessageListInit`. -/
def Oam.init : Oam := ⟨[], [], [], 1⟩

/-- Which calls of `malloc` succeed during one call: for the node, for its
payload, and for its timer. -/
structure Malloc where
  node : Bool
  payload : Bool
  timer : Bool
  deriving DecidableEq

/-- Memory for everything. -/
def plenty : Malloc := ⟨true, true, true⟩

def GwOamMessageListGetNode (st : Oam) (SerNo : UInt32) : Option GWTT_OAM_MESSAGE_NODE :=
  st.list.find? (fun pNode => SerNo = pNode.SendSerNo)

/-- A node of zeros, with a block of `MessLen + 1` zeros when there is a
payload. When the payload gets no memory, the node goes back at once. -/
def GwOamMessageListNodeNew (mal : Malloc) (st : Oam) (MessLen : Nat) :
    Option (Oam × GWTT_OAM_MESSAGE_NODE) :=
  if mal.node then
    let pNode : GWTT_OAM_MESSAGE_NODE :=
      { addr := st.next, GwOpcode := 0, SendSerNo := 0, WholePktLen := 0, RevPktLen := 0,
        SessionID := Vector.replicate 8 0, TimerID := 0, pPayLoad := none }
    if MessLen ≠ 0 then
      if mal.payload then
        some ({ st with next := st.next + 1 },
          { pNode with pPayLoad := some (List.replicate (MessLen + 1) 0) })
      else none
    else some ({ st with next := st.next + 1 }, pNode)
  else none

def GwOamMessageListNodeAdd (st : Oam) (pNode : GWTT_OAM_MESSAGE_NODE) : Oam :=
  { st with list := pNode :: st.list }

/-- Takes the node out of the list, when it is in it. -/
def GwOamMessageListNodeRem (st : Oam) (pNode : Nat) : Oam :=
  { st with list := st.list.eraseP (fun p => p.addr = pNode) }

def GwOamMessageListNodeFree (st : Oam) (pNode : Nat) : Oam :=
  let st := GwOamMessageListNodeRem st pNode
  { st with freed := pNode :: st.freed }

/-- Stores through a node pointer: the fields of the node are now those of `pNode`. -/
def Oam.store (st : Oam) (pNode : GWTT_OAM_MESSAGE_NODE) : Oam :=
  { st with list := st.list.map (fun p => if p.addr = pNode.addr then pNode else p) }

/-- `gw_timer_add` for the reassembly timeout. The handle is 0 with no memory. -/
def gw_timer_add (mal : Malloc) (st : Oam) (data : Nat) : Oam × Nat :=
  if mal.timer then
    ({ st with timers := ⟨st.next, data⟩ :: st.timers, next := st.next + 1 }, st.next)
  else (st, 0)

/-- `gw_timer_del` of a reassembly timer. A handle of no timer leaves the
timers as they are; in C it writes to a block that is free. -/
def gw_timer_del (st : Oam) (timer_handle : Nat) : Oam :=
  { st with timers := st.timers.filter (fun t => t.handle ≠ timer_handle) }

/-- A handle names a timer that is still allocated. -/
def Oam.Allocated (st : Oam) (timer_handle : Nat) : Prop :=
  timer_handle ∈ st.timers.map (·.handle)

instance (st : Oam) (h : Nat) : Decidable (st.Allocated h) :=
  inferInstanceAs (Decidable (h ∈ _))

/-! ## Copies -/

/-- A `memcpy` out of the frame: from which index, how many bytes, to which
place of the destination, and how many bytes the destination has. `none` is a
`NULL` destination. -/
structure Copy where
  src : Nat
  len : Nat
  dst : Nat
  size : Option Nat
  deriving DecidableEq

/-- The bytes of a block after a copy to index `off`. What would lie past the
end of the block is not part of it. -/
def overlay (block : List UInt8) (off : Nat) (data : List UInt8) : List UInt8 :=
  (block.take off ++ data ++ block.drop (off + data.length)).take block.length

def GWTT_OAM_MESSAGE_NODE.fill (p : GWTT_OAM_MESSAGE_NODE) (off : Nat) (data : List UInt8) :
    GWTT_OAM_MESSAGE_NODE :=
  { p with pPayLoad := p.pPayLoad.map (fun block => overlay block off data) }

/-- The bytes that a node holds of its message. -/
def GWTT_OAM_MESSAGE_NODE.payload (p : GWTT_OAM_MESSAGE_NODE) : List UInt8 :=
  (p.pPayLoad.getD []).take p.RevPktLen

/-! ## CommOnuMsgReveive -/

/-- What one call leaves behind: the state, the result, `*ppMessage`, the copies
into the payload of a node, the copies into its session id, and the handles
that `gw_timer_del` was called on. -/
structure Received where
  state : Oam
  ret : GW_OAM_RESULT
  ppMessage : Option GWTT_OAM_MESSAGE_NODE
  payloadCopies : List Copy
  sessionCopies : List Copy
  deleted : List Nat

def Received.refuse (st : Oam) (ret : GW_OAM_RESULT) : Received := ⟨st, ret, none, [], [], []⟩

/-- The message that the caller may use: the one of a call that says OK. -/
def Received.delivered (r : Received) : Option GWTT_OAM_MESSAGE_NODE :=
  if r.ret = .OAM_MESSAGE_RECEV_OK then r.ppMessage else none

/-- The copy of the session id, to the 8 bytes of `SessionID`. -/
def sessionCopy : Copy := ⟨32, 8, 0, some 8⟩

/-- The copy of `len` payload bytes to `pPayLoad + dst`. -/
def payloadCopy (p : GWTT_OAM_MESSAGE_NODE) (len dst : Nat) : Copy :=
  ⟨GWTT_OAM_HEADER.size, len, dst, p.pPayLoad.map List.length⟩

/-- `ntohs` is the one of the build: the system headers have their own. -/
def CommOnuMsgReveive (ntohs : UInt16 → UInt16) (mal : Malloc) (st : Oam) (MessagData : Mem) :
    Received :=
  let vender_header := GWTT_OAM_HEADER.load MessagData
  if vender_header.oui = GwOUI then
    if GwOamRecevOpcodeCheck vender_header.opCode = .OAM_MESSAGE_RECEV_OPCODE_ERR then
      .refuse st .OAM_MESSAGE_RECEV_OPCODE_ERR
    else
      let WholePktLen := (ntohs vender_header.wholePktLen).toNat
      if OAM_DATA_LEN < WholePktLen then .refuse st .OAM_MESSAGE_RECEV_TOO_LONG
      else
        let PayLoadOffset := (ntohs vender_header.payloadOffset).toNat
        let PayloadLength := (ntohs vender_header.payLoadLength).toNat
        let payload := bytes MessagData GWTT_OAM_HEADER.size PayloadLength
        if PayLoadOffset = 0 then
          match GwOamMessageListGetNode st vender_header.senderSerNo with
          | some _ => .refuse st .OAM_MESSAGE_RECEV_ERR
          | none =>
            if WholePktLen = PayloadLength then
              match GwOamMessageListNodeNew mal st WholePktLen with
              | none => .refuse st .OAM_MESSAGE_RECEV_NO_MEM
              | some (st, pNode) =>
                let pMessageNode : GWTT_OAM_MESSAGE_NODE :=
                  { pNode with
                    GwOpcode := vender_header.opCode, RevPktLen := PayloadLength,
                    WholePktLen := PayloadLength, SendSerNo := vender_header.senderSerNo,
                    SessionID := vender_header.sessionId }
                let pMessageNode := pMessageNode.fill 0 payload
                { state := GwOamMessageListNodeAdd st pMessageNode
                  ret := .OAM_MESSAGE_RECEV_OK
                  ppMessage := some pMessageNode
                  payloadCopies := [payloadCopy pNode PayloadLength 0]
                  sessionCopies := [sessionCopy]
                  deleted := [] }
            else
              match GwOamMessageListNodeNew mal st WholePktLen with
              | none => .refuse st .OAM_MESSAGE_RECEV_NO_MEM
              | some (st, pNode) =>
                -- the node is linked first and gets its handle then; nothing
                -- reads the handle in between
                let (st, handle) := gw_timer_add mal st pNode.addr
                let pMessageNode : GWTT_OAM_MESSAGE_NODE :=
                  { pNode with
                    GwOpcode := vender_header.opCode, RevPktLen := PayloadLength,
                    WholePktLen := WholePktLen, SendSerNo := vender_header.senderSerNo,
                    SessionID := vender_header.sessionId, TimerID := handle }
                -- no return here: the call falls through to the last one
                { state := GwOamMessageListNodeAdd st (pMessageNode.fill 0 payload)
                  ret := .OAM_MESSAGE_RECEV_ERR
                  ppMessage := none
                  payloadCopies := [payloadCopy pNode PayloadLength 0]
                  sessionCopies := [sessionCopy]
                  deleted := [] }
        else
          match GwOamMessageListGetNode st vender_header.senderSerNo with
          | none => .refuse st .OAM_MESSAGE_RECEV_ERR
          | some pMessageNode =>
            if pMessageNode.WholePktLen < pMessageNode.RevPktLen + PayloadLength ∨
                pMessageNode.RevPktLen ≠ PayLoadOffset then
              .refuse st .OAM_MESSAGE_RECEV_ERR
            else if pMessageNode.RevPktLen + PayloadLength = pMessageNode.WholePktLen then
              let st := gw_timer_del st pMessageNode.TimerID
              let written := pMessageNode.fill pMessageNode.RevPktLen payload
              let written := { written with RevPktLen := written.WholePktLen }
              { state := st.store written
                ret := .OAM_MESSAGE_RECEV_OK
                ppMessage := some written
                payloadCopies := [payloadCopy pMessageNode PayloadLength pMessageNode.RevPktLen]
                sessionCopies := []
                deleted := [pMessageNode.TimerID] }
            else
              -- the handle of the new timer is not kept
              let st := gw_timer_del st pMessageNode.TimerID
              let (st, _) := gw_timer_add mal st pMessageNode.addr
              let written := pMessageNode.fill pMessageNode.RevPktLen payload
              let written := { written with RevPktLen := written.RevPktLen + PayloadLength }
              { state := st.store written
                ret := .OAM_MESSAGE_RECEV_NOT_COMPLETE
                ppMessage := none
                payloadCopies := [payloadCopy pMessageNode PayloadLength pMessageNode.RevPktLen]
                sessionCopies := []
                deleted := [pMessageNode.TimerID] }
  else .refuse st .OAM_MESSAGE_RECEV_ERR

/-- The timeout of a reassembly. It reads the serial through the pointer that
the timer kept; `junk` is what a block that is free holds there. -/
def OamMessageRecevTimeOut (st : Oam) (data : Nat) (junk : UInt32) : Oam :=
  let SerNo := ((st.list.find? (fun p => p.addr = data)).map (·.SendSerNo)).getD junk
  match GwOamMessageListGetNode st SerNo with
  | none => st
  | some pNode => GwOamMessageListNodeFree st pNode.addr

/-! ## What one call can do -/

section
variable (ntohs : UInt16 → UInt16)

/-- What the call reads of a header that it lets through. -/
def wholeOf (m : Mem) : Nat := (ntohs (GWTT_OAM_HEADER.load m).wholePktLen).toNat

def offsetOf (m : Mem) : Nat := (ntohs (GWTT_OAM_HEADER.load m).payloadOffset).toNat

def lengthOf (m : Mem) : Nat := (ntohs (GWTT_OAM_HEADER.load m).payLoadLength).toNat

def serialOf (m : Mem) : UInt32 := (GWTT_OAM_HEADER.load m).senderSerNo

/-- The payload bytes that the call takes from a frame. -/
def dataOf (m : Mem) : List UInt8 := bytes m GWTT_OAM_HEADER.size (lengthOf ntohs m)

@[simp] theorem dataOf_length (m : Mem) : (dataOf ntohs m).length = lengthOf ntohs m := by
  simp [dataOf]

/-- The vendor's frames with an opcode of the receiving side. -/
def Accepted (m : Mem) : Prop :=
  (GWTT_OAM_HEADER.load m).oui = GwOUI ∧
    GwOamRecevOpcodeCheck (GWTT_OAM_HEADER.load m).opCode = .OAM_MESSAGE_RECEV_OPCODE_OK

/-- The frame starts a message: a first fragment, no node of its serial, and
memory for the node. -/
structure Opens (mal : Malloc) (st : Oam) (m : Mem) : Prop where
  accepted : Accepted m
  offset : offsetOf ntohs m = 0
  unknown : GwOamMessageListGetNode st (serialOf m) = none
  memory : mal.node = true ∧ (wholeOf ntohs m = 0 ∨ mal.payload = true)

/-- The frame holds the next bytes of the message in node `p`. -/
structure Extends (st : Oam) (m : Mem) (p : GWTT_OAM_MESSAGE_NODE) : Prop where
  accepted : Accepted m
  offset : offsetOf ntohs m ≠ 0
  known : GwOamMessageListGetNode st (serialOf m) = some p
  next : p.RevPktLen = offsetOf ntohs m
  room : p.RevPktLen + lengthOf ntohs m ≤ p.WholePktLen

/-- Some message takes the bytes of the frame. -/
def Stores (mal : Malloc) (st : Oam) (m : Mem) : Prop :=
  Opens ntohs mal st m ∨ ∃ p, Extends ntohs st m p

instance (m : Mem) : Decidable (Accepted m) := inferInstanceAs (Decidable (_ ∧ _))

instance (mal : Malloc) (st : Oam) (m : Mem) : Decidable (Opens ntohs mal st m) :=
  decidable_of_iff (Accepted m ∧ offsetOf ntohs m = 0 ∧
      GwOamMessageListGetNode st (serialOf m) = none ∧
      mal.node = true ∧ (wholeOf ntohs m = 0 ∨ mal.payload = true))
    ⟨fun h => ⟨h.1, h.2.1, h.2.2.1, h.2.2.2⟩, fun h => ⟨h.1, h.2, h.3, h.4⟩⟩

instance (st : Oam) (m : Mem) (p : GWTT_OAM_MESSAGE_NODE) : Decidable (Extends ntohs st m p) :=
  decidable_of_iff (Accepted m ∧ offsetOf ntohs m ≠ 0 ∧
      GwOamMessageListGetNode st (serialOf m) = some p ∧ p.RevPktLen = offsetOf ntohs m ∧
      p.RevPktLen + lengthOf ntohs m ≤ p.WholePktLen)
    ⟨fun h => ⟨h.1, h.2.1, h.2.2.1, h.2.2.2.1, h.2.2.2.2⟩, fun h => ⟨h.1, h.2, h.3, h.4, h.5⟩⟩

/-- The block of a message of `n` bytes, before any byte is in. -/
def emptyBlock (n : Nat) : Option (List UInt8) :=
  if n = 0 then none else some (List.replicate (n + 1) 0)

/-- The node of a first fragment. -/
def firstNode (m : Mem) (addr handle : Nat) : GWTT_OAM_MESSAGE_NODE where
  addr := addr
  GwOpcode := (GWTT_OAM_HEADER.load m).opCode
  SendSerNo := serialOf m
  WholePktLen := wholeOf ntohs m
  RevPktLen := lengthOf ntohs m
  SessionID := (GWTT_OAM_HEADER.load m).sessionId
  TimerID := handle
  pPayLoad := (emptyBlock (wholeOf ntohs m)).map (fun b => overlay b 0 (dataOf ntohs m))

/-- A node with the next fragment in. -/
def GWTT_OAM_MESSAGE_NODE.extend (p : GWTT_OAM_MESSAGE_NODE) (data : List UInt8) :
    GWTT_OAM_MESSAGE_NODE :=
  { p.fill p.RevPktLen data with RevPktLen := p.RevPktLen + data.length }

/-- The copy of a first fragment goes to the start of the new block. -/
def firstCopy (m : Mem) : Copy :=
  ⟨GWTT_OAM_HEADER.size, lengthOf ntohs m, 0, (emptyBlock (wholeOf ntohs m)).map List.length⟩

/-- The five ways through `CommOnuMsgReveive`, each with the state that it
needs and all that it leaves behind. -/
inductive Receives (mal : Malloc) (st : Oam) (m : Mem) : Received → Prop
  | refused (ret : GW_OAM_RESULT) :
      ret ≠ .OAM_MESSAGE_RECEV_OK → ret ≠ .OAM_MESSAGE_RECEV_NOT_COMPLETE →
      ¬ Opens ntohs mal st m → (∀ p, ¬ Extends ntohs st m p) →
      Receives mal st m (.refuse st ret)
  | whole :
      Opens ntohs mal st m → wholeOf ntohs m = lengthOf ntohs m →
      Receives mal st m
        { state := GwOamMessageListNodeAdd { st with next := st.next + 1 }
            (firstNode ntohs m st.next 0)
          ret := .OAM_MESSAGE_RECEV_OK
          ppMessage := some (firstNode ntohs m st.next 0)
          payloadCopies := [firstCopy ntohs m]
          sessionCopies := [sessionCopy]
          deleted := [] }
  | first (st' : Oam) (handle : Nat) :
      Opens ntohs mal st m → wholeOf ntohs m ≠ lengthOf ntohs m →
      gw_timer_add mal { st with next := st.next + 1 } st.next = (st', handle) →
      Receives mal st m
        { state := GwOamMessageListNodeAdd st' (firstNode ntohs m st.next handle)
          ret := .OAM_MESSAGE_RECEV_ERR
          ppMessage := none
          payloadCopies := [firstCopy ntohs m]
          sessionCopies := [sessionCopy]
          deleted := [] }
  | last (p : GWTT_OAM_MESSAGE_NODE) :
      Extends ntohs st m p → p.RevPktLen + lengthOf ntohs m = p.WholePktLen →
      Receives mal st m
        { state := (gw_timer_del st p.TimerID).store (p.extend (dataOf ntohs m))
          ret := .OAM_MESSAGE_RECEV_OK
          ppMessage := some (p.extend (dataOf ntohs m))
          payloadCopies := [payloadCopy p (lengthOf ntohs m) p.RevPktLen]
          sessionCopies := []
          deleted := [p.TimerID] }
  | middle (p : GWTT_OAM_MESSAGE_NODE) :
      Extends ntohs st m p → p.RevPktLen + lengthOf ntohs m ≠ p.WholePktLen →
      Receives mal st m
        { state := (gw_timer_add mal (gw_timer_del st p.TimerID) p.addr).1.store
            (p.extend (dataOf ntohs m))
          ret := .OAM_MESSAGE_RECEV_NOT_COMPLETE
          ppMessage := none
          payloadCopies := [payloadCopy p (lengthOf ntohs m) p.RevPktLen]
          sessionCopies := []
          deleted := [p.TimerID] }

theorem opcode_checked (op : UInt8) :
    GwOamRecevOpcodeCheck op ≠ .OAM_MESSAGE_RECEV_OPCODE_ERR ↔
      GwOamRecevOpcodeCheck op = .OAM_MESSAGE_RECEV_OPCODE_OK := by
  unfold GwOamRecevOpcodeCheck
  split <;> simp

theorem nodeNew_none {mal : Malloc} {st : Oam} {n : Nat}
    (h : ¬ (mal.node = true ∧ (n = 0 ∨ mal.payload = true))) :
    GwOamMessageListNodeNew mal st n = none := by
  unfold GwOamMessageListNodeNew
  split_ifs <;> simp_all

theorem nodeNew_some {mal : Malloc} {st : Oam} {n : Nat}
    (h : mal.node = true ∧ (n = 0 ∨ mal.payload = true)) :
    GwOamMessageListNodeNew mal st n = some ({ st with next := st.next + 1 },
      { addr := st.next, GwOpcode := 0, SendSerNo := 0, WholePktLen := 0, RevPktLen := 0,
        SessionID := Vector.replicate 8 0, TimerID := 0, pPayLoad := emptyBlock n }) := by
  unfold GwOamMessageListNodeNew emptyBlock
  split_ifs <;> simp_all

/-- The length check of the receiver passes every 16-bit length. -/
theorem wholeOf_le (m : Mem) : wholeOf ntohs m ≤ OAM_DATA_LEN := by
  have := (ntohs (GWTT_OAM_HEADER.load m).wholePktLen).toNat_lt
  unfold wholeOf OAM_DATA_LEN
  omega

theorem receives (mal : Malloc) (st : Oam) (m : Mem) :
    Receives ntohs mal st m (CommOnuMsgReveive ntohs mal st m) := by
  unfold CommOnuMsgReveive
  dsimp only
  simp only [show (ntohs (GWTT_OAM_HEADER.load m).wholePktLen).toNat = wholeOf ntohs m from rfl,
    show (ntohs (GWTT_OAM_HEADER.load m).payloadOffset).toNat = offsetOf ntohs m from rfl,
    show (ntohs (GWTT_OAM_HEADER.load m).payLoadLength).toNat = lengthOf ntohs m from rfl,
    show bytes m GWTT_OAM_HEADER.size (lengthOf ntohs m) = dataOf ntohs m from rfl,
    show (GWTT_OAM_HEADER.load m).senderSerNo = serialOf m from rfl]
  -- a frame that one of the first checks turns away
  have hturned : ¬ Accepted m → ∀ ret, ret ≠ .OAM_MESSAGE_RECEV_OK →
      ret ≠ .OAM_MESSAGE_RECEV_NOT_COMPLETE → Receives ntohs mal st m (.refuse st ret) :=
    fun h ret h1 h2 => .refused ret h1 h2 (fun ho => h ho.accepted) (fun p hp => h hp.accepted)
  by_cases houi : (GWTT_OAM_HEADER.load m).oui = GwOUI
  case neg =>
    rw [if_neg houi]
    exact hturned (fun h => houi h.1) _ (by decide) (by decide)
  rw [if_pos houi]
  by_cases hop : GwOamRecevOpcodeCheck (GWTT_OAM_HEADER.load m).opCode =
      .OAM_MESSAGE_RECEV_OPCODE_ERR
  case pos =>
    rw [if_pos hop]
    exact hturned (fun h => (opcode_checked _).mpr h.2 hop) _ (by decide) (by decide)
  have hacc : Accepted m := ⟨houi, (opcode_checked _).mp hop⟩
  rw [if_neg hop, if_neg (Nat.not_lt.mpr (wholeOf_le ntohs m))]
  by_cases hoff : offsetOf ntohs m = 0
  · rw [if_pos hoff]
    have hext : ∀ p, ¬ Extends ntohs st m p := fun p hp => hp.offset hoff
    cases hget : GwOamMessageListGetNode st (serialOf m) with
    | some q =>
      exact .refused _ (by decide) (by decide)
        (fun ho => absurd (hget.symm.trans ho.unknown) (by simp)) hext
    | none =>
      by_cases hmem : mal.node = true ∧ (wholeOf ntohs m = 0 ∨ mal.payload = true)
      · have ho : Opens ntohs mal st m := ⟨hacc, hoff, hget, hmem⟩
        rw [nodeNew_some hmem]
        by_cases hwhole : wholeOf ntohs m = lengthOf ntohs m
        · rw [if_pos hwhole]
          have h : Receives ntohs mal st m _ := .whole ho hwhole
          simpa [firstNode, firstCopy, payloadCopy, hwhole, GWTT_OAM_MESSAGE_NODE.fill] using h
        · rw [if_neg hwhole]
          dsimp only
          rcases hadd : gw_timer_add mal { st with next := st.next + 1 } st.next with ⟨st', handle⟩
          exact .first st' handle ho hwhole hadd
      · rw [nodeNew_none hmem]
        have hr : Receives ntohs mal st m (.refuse st .OAM_MESSAGE_RECEV_NO_MEM) :=
          .refused _ (by decide) (by decide) (fun ho => hmem ho.memory) hext
        by_cases hwhole : wholeOf ntohs m = lengthOf ntohs m
        · rw [if_pos hwhole]
          exact hr
        · rw [if_neg hwhole]
          exact hr
  · rw [if_neg hoff]
    have hopen : ¬ Opens ntohs mal st m := fun ho => hoff ho.offset
    cases hget : GwOamMessageListGetNode st (serialOf m) with
    | none =>
      exact .refused _ (by decide) (by decide) hopen
        (fun p hp => absurd (hget.symm.trans hp.known) (by simp))
    | some p =>
      dsimp only
      split
      · rename_i hbad
        refine .refused _ (by decide) (by decide) hopen (fun q hq => ?_)
        obtain rfl : p = q := Option.some.inj (hget.symm.trans hq.known)
        rcases hbad with h | h
        · exact absurd hq.room (Nat.not_le.mpr h)
        · exact h hq.next
      · rename_i hfit
        have hp : Extends ntohs st m p := ⟨hacc, hoff, hget, by omega, by omega⟩
        split
        · rename_i hlast
          have h : Receives ntohs mal st m _ := .last p hp hlast
          simpa [GWTT_OAM_MESSAGE_NODE.extend, GWTT_OAM_MESSAGE_NODE.fill, hlast] using h
        · rename_i hpart
          have h : Receives ntohs mal st m _ := .middle p hp hpart
          simpa [GWTT_OAM_MESSAGE_NODE.extend, GWTT_OAM_MESSAGE_NODE.fill] using h

end

end gwdonu.oam
