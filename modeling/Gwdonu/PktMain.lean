-- The packet thread. Each frame that a driver hands in is classified, copied, and put in
-- a priority queue; the thread takes the copies out, classifies them again, calls the
-- handler of their class, and frees them.
import Gwdonu.OsQueue

namespace gwdonu.pkt_main

open Function fifos runs os_core

/-! ## The program -/

/-- The values of `GW_PKT_TYPE`. A parser can return any `gw_int32`. -/
def GW_PKT_OAM : Int32 := 0
def GW_PKT_LPB : Int32 := 1
def GW_PKT_RCP : Int32 := 2
def GW_PKT_MAX : Int32 := 3

inductive gw_status where
  | GW_OK
  | GW_ERROR
  deriving DecidableEq

/-- What a parser finds at the pointer, and the length that it is told. -/
abbrev PKT_PARSE := List UInt8 → Int32 → Int32
abbrev PKT_HANDLER := List UInt8 → Int32 → Int32 → gw_status

/-- An entry of `gw_pkt_cb_func_tab`. -/
structure gw_pkt_cb_func_t where
  parser : Option PKT_PARSE
  handler : Option PKT_HANDLER

abbrev CbFuncTab := Nat → gw_pkt_cb_func_t

def gw_pkt_pri_maps : List (Int32 × Int32) := [(GW_PKT_OAM, 7), (GW_PKT_LPB, 0), (GW_PKT_RCP, 4)]

/-- A class without a priority has the priority 0, right or not. -/
def gw_get_pkt_pri (type : Int32) : Int32 :=
  let pri := (gw_pkt_pri_maps.lookup type).getD GW_OSAL_MAX_QUEUE_PRI
  if pri = GW_OSAL_MAX_QUEUE_PRI ∧ type ≠ GW_PKT_MAX then 0 else pri

/-- The first parser that knows the frame says what it is. -/
def gw_pkt_parser_call (tab : CbFuncTab) (pkt : List UInt8) (len : Int32) : Int32 :=
  let found := ((List.range GW_PKT_MAX.toNatClampNeg).filterMap fun i => (tab i).parser).map (· pkt len)
  (found.find? (· ≠ GW_PKT_MAX)).getD GW_PKT_MAX

def gw_pkt_queue_name : List Char := ['G', 'W', '_', 'P', 'K', 'T', '_', 'Q', 'U', 'E', 'U', 'E']
def gw_pkt_queue_depth : UInt32 := 400
/-- `sizeof(queue_para_t)`. -/
def gw_pkt_msg_size : UInt32 := 12

structure queue_para_t where
  portid : Int32
  pkt_len : Int32
  pkt : UInt32
  deriving DecidableEq

/-- The bytes of a word in memory. -/
def word (w : UInt32) : List UInt8 :=
  [w.toUInt8, (w >>> 8).toUInt8, (w >>> 16).toUInt8, (w >>> 24).toUInt8]

def ofWord (bytes : List UInt8) : UInt32 :=
  (bytes.getD 0 0).toUInt32 ||| (bytes.getD 1 0).toUInt32 <<< 8 ||| (bytes.getD 2 0).toUInt32 <<< 16 |||
    (bytes.getD 3 0).toUInt32 <<< 24

def queue_para_t.bytes (p : queue_para_t) : List UInt8 :=
  word p.portid.toUInt32 ++ word p.pkt_len.toUInt32 ++ word p.pkt

def queue_para_t.ofBytes (bytes : List UInt8) : queue_para_t :=
  ⟨(ofWord bytes).toInt32, (ofWord (bytes.drop 4)).toInt32, ofWord (bytes.drop 8)⟩

/-- The first `len` bytes at the pointer, as `memcpy` counts them. -/
def frame (pkt : List UInt8) (len : Int32) : List UInt8 := pkt.take len.toUInt32.toNat

/-- A call of `gwlib_sendPktToQueue`, by its number, and what its parser said of the frame. -/
structure Call where
  number : Nat
  type : Int32
  pkt : List UInt8
  len : Int32
  portid : Int32
  deriving DecidableEq

/-- What is done with the frame of a call: it is copied, given to the handler of a class,
and the copy is freed. -/
inductive Deed where
  | copied (c : Call)
  | handed (c : Call) (type : Int32) (pkt : List UInt8) (len portid : Int32)
  | freed (c : Call)
  deriving DecidableEq

structure Copy where
  call : Call
  bytes : List UInt8
  deriving DecidableEq

/-- Where the thread is in its loop, and the record in its buffer. -/
inductive Stage where
  | getting
  | handling (p : queue_para_t)
  | freeing (p : queue_para_t)
  deriving DecidableEq

/-- `heap` has the copies by their address, each with the call it was made for. The last two
fields are not the program's: the calls with what they returned, and what was done. -/
structure State where
  os : Os
  gw_pkt_queueid : Nat
  heap : UInt32 → Option Copy
  stage : Stage
  calls : List (Call × gw_status)
  trace : List Deed

/-- `none` when the queue can not be created. -/
def init_pkt_proc (sem_os : Bool) (mut_os : Nat → Bool) (os : Os) : Option State :=
  match gw_pri_queue_create sem_os mut_os os false (some gw_pkt_queue_name) gw_pkt_queue_depth
      gw_pkt_msg_size GW_OSAL_MAX_QUEUE_PRI with
  | (os, .OK, some gw_pkt_queueid) => some ⟨os, gw_pkt_queueid, fun _ => none, .getting, [], []⟩
  | _ => none

/-- `malloc` gives any address that is not in use, or none. -/
def State.malloc (s : State) (mal : Option UInt32) : Option UInt32 :=
  mal.filter fun p => p ≠ 0 ∧ s.heap p = none

def State.copy (s : State) (data : UInt32) (c : Call) (bytes : List UInt8) : State :=
  { s with heap := update s.heap data (some ⟨c, bytes⟩), trace := s.trace ++ [.copied c] }

/-- `none` when there is no copy at the address. -/
def State.free (s : State) (p : UInt32) : Option State :=
  (s.heap p).map fun copy =>
    { s with heap := update s.heap p none, trace := s.trace ++ [.freed copy.call] }

/-- `mal` is what `malloc` gives for the copy, `room` whether the queue gets memory. -/
def State.gwlib_sendPktToQueue (s : State) (c : Call) (pkt : List UInt8) (mal : Option UInt32)
    (room : Bool) : Option (State × gw_status) :=
  let pri := gw_get_pkt_pri c.type
  if pri ≠ GW_OSAL_MAX_QUEUE_PRI then
    match s.malloc mal with
    | none => some (s, .GW_ERROR)
    | some data =>
      let s := s.copy data c (frame pkt c.len)
      let pdata : queue_para_t := ⟨c.portid, c.len, data⟩
      let (os, code) := gw_pri_queue_put room s.os s.gw_pkt_queueid (some pdata.bytes) gw_pkt_msg_size pri
      let s := { s with os }
      if code ≠ .OK then (s.free data).map (·, .GW_ERROR) else some (s, .GW_OK)
  else some (s, .GW_ERROR)

/-- The handler of a class is called if the class is one of the three, and has one. -/
def State.gw_pkt_handler_call (tab : CbFuncTab) (s : State) (type : Int32) (copy : Copy)
    (len portid : Int32) : State × gw_status :=
  if 0 ≤ type ∧ type < GW_PKT_MAX then
    match (tab type.toNatClampNeg).handler with
    | some handler =>
      ({ s with trace := s.trace ++ [.handed copy.call type copy.bytes len portid] },
        handler copy.bytes len portid)
    | none => (s, .GW_ERROR)
  else (s, .GW_ERROR)

/-- The thread goes on to its next stage. `none` when it reads or frees a copy that is not there. -/
def State.gw_pkt_proc_main (tab : CbFuncTab) (s : State) : Option State :=
  match s.stage with
  | .getting =>
    match gw_pri_queue_get s.os s.gw_pkt_queueid false gw_pkt_msg_size GW_OSAL_WAIT_FOREVER with
    | none => some s
    | some (os, ⟨.OK, some len, some buf⟩) =>
      if len < gw_pkt_msg_size then some { s with os }
      else some { s with os, stage := .handling (.ofBytes buf) }
    | some (os, _) => some { s with os }
  | .handling p =>
    (s.heap p.pkt).map fun copy =>
      let type := gw_pkt_parser_call tab copy.bytes p.pkt_len
      let s := { s with stage := .freeing p }
      -- a frame that its handler refuses is only printed
      if type ≠ GW_PKT_MAX then (s.gw_pkt_handler_call tab type copy p.pkt_len p.portid).1 else s
  | .freeing p => (s.free p.pkt).map fun s => { s with stage := .getting }

inductive Event where
  | send (pkt : List UInt8) (len portid : Int32) (mal : Option UInt32) (room : Bool)
  | proc

def State.newCall (tab : CbFuncTab) (s : State) (pkt : List UInt8) (len portid : Int32) : Call :=
  ⟨s.calls.length, gw_pkt_parser_call tab pkt len, frame pkt len, len, portid⟩

def State.call (tab : CbFuncTab) (s : State) : Event → Option State
  | .send pkt len portid mal room =>
    let c := s.newCall tab pkt len portid
    (s.gwlib_sendPktToQueue c pkt mal room).map fun (s, ret) => { s with calls := s.calls ++ [(c, ret)] }
  | .proc => s.gw_pkt_proc_main tab

/-- What goes wrong leaves nothing to go on from. -/
def State.step (tab : CbFuncTab) (s : State) (e : Event) : State := (s.call tab e).getD s

/-! ## The record -/

theorem or_bytes (w : BitVec 32) :
    (w.setWidth 8).setWidth 32 ||| ((w >>> 8).setWidth 8).setWidth 32 <<< 8 |||
      ((w >>> 16).setWidth 8).setWidth 32 <<< 16 ||| ((w >>> 24).setWidth 8).setWidth 32 <<< 24 = w := by
  ext i hi
  simp only [BitVec.getElem_or, BitVec.getElem_shiftLeft, BitVec.getElem_setWidth,
    BitVec.getLsbD_setWidth, BitVec.getLsbD_ushiftRight]
  rw [← BitVec.getLsbD_eq_getElem]
  rcases (by omega : i < 8 ∨ (8 ≤ i ∧ i < 16) ∨ (16 ≤ i ∧ i < 24) ∨ 24 ≤ i) with h | h | h | h
  all_goals grind

theorem ofWord_word (w : UInt32) (rest : List UInt8) : ofWord (word w ++ rest) = w := by
  apply UInt32.toBitVec_inj.mp
  simp only [ofWord, word]
  exact or_bytes w.toBitVec

@[simp] theorem ofBytes_bytes (p : queue_para_t) : queue_para_t.ofBytes p.bytes = p := by
  have hlen (w : UInt32) (rest : List UInt8) : (word w ++ rest).drop 4 = rest := rfl
  have hlen' (v w : UInt32) (rest : List UInt8) : (word v ++ (word w ++ rest)).drop 8 = rest := rfl
  have hend : ofWord (word p.pkt) = p.pkt := by simpa using ofWord_word p.pkt []
  rw [queue_para_t.ofBytes, queue_para_t.bytes, List.append_assoc, ofWord_word, hlen, hlen', ofWord_word,
    hend]
  simp

theorem take_bytes (p : queue_para_t) : p.bytes.take gw_pkt_msg_size.toNat = p.bytes := by
  apply List.take_of_length_le
  simp [queue_para_t.bytes, word, gw_pkt_msg_size]

end gwdonu.pkt_main
