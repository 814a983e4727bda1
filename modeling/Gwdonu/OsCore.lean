-- The tables of the OS layer: semaphores, mutexes and queues have their places
-- in tables of fixed size, and each call takes the first free one. A call runs
-- to its end before the next one, so what a mutex locks out is left out.
import Gwdonu.UtilList
import Mathlib.Data.UInt

namespace gwdonu.os_core

open Function util_list

/-! ## The tables -/

inductive GW_E_OSAL where
  | OK
  | ERR
  | ERR_INVALID_ID
  | ERR_INVALID_PRIORITY
  | ERR_NAME_TOO_LONG
  | ERR_NO_FREE_IDS
  | ERR_NAME_TAKEN
  | INVALID_POINTER
  | SEM_FAILURE
  | SEM_TIMEOUT
  deriving DecidableEq

def GW_OSAL_MAX_API_NAME : Nat := 20
def GW_OSAL_MAX_COUNT_SEM : Nat := 50
def GW_OSAL_MAX_MUTEX : Nat := 60
def GW_OSAL_MAX_QUEUE : Nat := 10
def GW_OSAL_MAX_QUEUE_PRI : Int32 := 8
def GW_OSAL_NO_WAIT : Int32 := 0
def GW_OSAL_WAIT_FOREVER : Int32 := -1

/-- An entry of `gw_osal_count_sem_table`; `value` is the one of its `sem_t`. -/
structure osal_count_sem_record_t where
  free : Bool
  value : Nat
  name : List Char
  deriving DecidableEq

/-- An entry of `gw_osal_mut_table`. -/
structure osal_mut_record_t where
  free : Bool
  name : List Char
  deriving DecidableEq

inductive QueueType where
  | GW_NORMAL_QUEUE_TYPE
  | GW_PRI_QUEUE_TYPE
  deriving DecidableEq

/-- An entry of `gw_osal_queue_table`. -/
structure osal_queue_record_t where
  free : Bool
  name : List Char
  queue_size : Int32
  depth : Int32
  queue_type : QueueType
  pri_num : Int32
  cnt_sem_id : Nat
  queue_list : Nat → gw_list
  queue_mutex : Nat → Nat
  pri_queue_peek : Nat → UInt32
  peek_value : UInt32
  put_error : UInt32
  put_full_error : UInt32
  put_data_error : UInt32
  put_data_long : UInt32
  get_error : UInt32
  get_data_error : UInt32
  get_data_long : UInt32

/-- What lies behind the node of a queued message. -/
structure Block where
  size : UInt32
  data : List UInt8
  deriving DecidableEq

/-- The tables, and the memory of the messages. No block is handed out twice. -/
structure Os where
  gw_osal_count_sem_table : Nat → osal_count_sem_record_t
  gw_osal_mut_table : Nat → osal_mut_record_t
  gw_osal_queue_table : Nat → osal_queue_record_t
  nodes : Nodes
  blocks : Nat → Block
  live : Nat → Bool
  next : Nat

def free_sem : osal_count_sem_record_t := ⟨true, 0, []⟩

def free_mut : osal_mut_record_t := ⟨true, []⟩

/-- An entry of zeros, but for `free`. -/
def free_queue : osal_queue_record_t where
  free := true
  name := []
  queue_size := 0
  depth := 0
  queue_type := .GW_NORMAL_QUEUE_TYPE
  pri_num := 0
  cnt_sem_id := 0
  queue_list := fun _ => gw_lst_init
  queue_mutex := fun _ => 0
  pri_queue_peek := fun _ => 0
  peek_value := 0
  put_error := 0
  put_full_error := 0
  put_data_error := 0
  put_data_long := 0
  get_error := 0
  get_data_error := 0
  get_data_long := 0

def gw_osal_core_init : Os where
  gw_osal_count_sem_table := fun _ => free_sem
  gw_osal_mut_table := fun _ => free_mut
  gw_osal_queue_table := fun _ => free_queue
  nodes := fun _ => ⟨none, none⟩
  blocks := fun _ => ⟨0, []⟩
  live := fun _ => false
  next := 1

def Os.set_sem (s : Os) (i : Nat) (r : osal_count_sem_record_t) : Os :=
  { s with gw_osal_count_sem_table := update s.gw_osal_count_sem_table i r }

def Os.set_mut (s : Os) (i : Nat) (r : osal_mut_record_t) : Os :=
  { s with gw_osal_mut_table := update s.gw_osal_mut_table i r }

/-- Writes to the queue record at `i`. -/
def Os.edit_queue (s : Os) (i : Nat) (f : osal_queue_record_t → osal_queue_record_t) : Os :=
  { s with gw_osal_queue_table := update s.gw_osal_queue_table i (f (s.gw_osal_queue_table i)) }

/-- The loop for the first free entry of a table. -/
def first_free (free : Nat → Bool) (max : Nat) : Option Nat := (List.range max).find? free

/-! ## Semaphores

`os` says whether the call of the system below succeeds. What a call writes
through its pointer is the last part of the result. -/

def gw_semaphore_init (os : Bool) (s : Os) (sem_id_null : Bool) (sem_name : Option (List Char))
    (sem_initial_value : UInt32) : Os × GW_E_OSAL × Option Nat :=
  match sem_id_null, sem_name with
  | false, some sem_name =>
    if GW_OSAL_MAX_API_NAME < sem_name.length then (s, .ERR_NAME_TOO_LONG, none)
    else
      match first_free (fun i => (s.gw_osal_count_sem_table i).free) GW_OSAL_MAX_COUNT_SEM with
      | none => (s, .ERR_NO_FREE_IDS, none)
      | some id =>
        if os = false then (s.set_sem id free_sem, .ERR, none)
        else (s.set_sem id ⟨false, sem_initial_value.toNat, sem_name⟩, .OK, some id)
  | _, _ => (s, .INVALID_POINTER, none)

def gw_semaphore_destroy (os : Bool) (s : Os) (sem_id : Nat) : Os × GW_E_OSAL :=
  if GW_OSAL_MAX_COUNT_SEM ≤ sem_id ∨ (s.gw_osal_count_sem_table sem_id).free = true then
    (s, .ERR_INVALID_ID)
  else if os = false then (s, .SEM_FAILURE)
  else (s.set_sem sem_id free_sem, .OK)

def osal_count_sem_record_t.post (r : osal_count_sem_record_t) : osal_count_sem_record_t :=
  { r with value := r.value + 1 }

def osal_count_sem_record_t.take (r : osal_count_sem_record_t) : osal_count_sem_record_t :=
  { r with value := r.value - 1 }

def gw_semaphore_post (s : Os) (sem_id : Nat) : Os × GW_E_OSAL :=
  if GW_OSAL_MAX_COUNT_SEM ≤ sem_id ∨ (s.gw_osal_count_sem_table sem_id).free = true then
    (s, .ERR_INVALID_ID)
  else (s.set_sem sem_id (s.gw_osal_count_sem_table sem_id).post, .OK)

/-- `none` when the call does not return. The loop of tries finds the same value
each time; a timeout below that of `GW_OSAL_WAIT_FOREVER` makes no try. -/
def gw_semaphore_wait (s : Os) (sem_id : Nat) (timeout : Int32) : Option (Os × GW_E_OSAL) :=
  if GW_OSAL_MAX_COUNT_SEM ≤ sem_id ∨ (s.gw_osal_count_sem_table sem_id).free = true then
    some (s, .ERR_INVALID_ID)
  else
    let taken := s.set_sem sem_id (s.gw_osal_count_sem_table sem_id).take
    let value := (s.gw_osal_count_sem_table sem_id).value
    if timeout = GW_OSAL_NO_WAIT then some (if value = 0 then (s, .ERR) else (taken, .OK))
    else if timeout = GW_OSAL_WAIT_FOREVER then if value = 0 then none else some (taken, .OK)
    else some (if 0 < timeout ∧ value ≠ 0 then (taken, .OK) else (s, .SEM_TIMEOUT))

/-! ## Mutexes -/

def gw_mutex_init (os : Bool) (s : Os) (mut_id_null : Bool) (mut_name : Option (List Char)) :
    Os × GW_E_OSAL × Option Nat :=
  match mut_id_null, mut_name with
  | false, some mut_name =>
    if GW_OSAL_MAX_API_NAME < mut_name.length then (s, .ERR_NAME_TOO_LONG, none)
    else
      match first_free (fun i => (s.gw_osal_mut_table i).free) GW_OSAL_MAX_MUTEX with
      | none => (s, .ERR_NO_FREE_IDS, none)
      | some id =>
        if ∃ i < GW_OSAL_MAX_MUTEX, (s.gw_osal_mut_table i).free = false ∧
            mut_name = (s.gw_osal_mut_table i).name then
          (s, .ERR_NAME_TAKEN, none)
        else if os = false then (s.set_mut id free_mut, .ERR, none)
        else (s.set_mut id ⟨false, mut_name⟩, .OK, some id)
  | _, _ => (s, .INVALID_POINTER, none)

def gw_mutex_destroy (os : Bool) (s : Os) (mut_id : Nat) : Os × GW_E_OSAL :=
  if GW_OSAL_MAX_MUTEX ≤ mut_id ∨ (s.gw_osal_mut_table mut_id).free = true then
    (s, .ERR_INVALID_ID)
  else if os = false then (s, .SEM_FAILURE)
  else (s.set_mut mut_id free_mut, .OK)

/-! ## Priority queues -/

/-- `sprintf("pq_sem_%d")`. -/
def pri_queue_sem_name (possible_qid : Nat) : List Char :=
  ['p', 'q', '_', 's', 'e', 'm', '_'] ++ Nat.toDigits 10 possible_qid

/-- `sprintf("mx_%s_%d")`. -/
def mutex_name (queue_name : List Char) (i : Nat) : List Char :=
  ['m', 'x', '_'] ++ queue_name ++ '_' :: Nat.toDigits 10 i

def osal_queue_record_t.set_list (i : Nat) (lst : gw_list) (q : osal_queue_record_t) :
    osal_queue_record_t :=
  { q with queue_list := update q.queue_list i lst }

def osal_queue_record_t.set_mutex (i m : Nat) (q : osal_queue_record_t) : osal_queue_record_t :=
  { q with queue_mutex := update q.queue_mutex i m }

/-- One turn of the loop over the priorities. What `gw_mutex_init` returns is
not looked at: where it fails, `queue_mutex` is what it was. -/
def Os.create_priority (os : Nat → Bool) (queue_name : List Char) (qid : Nat) (s : Os) (i : Nat) :
    Os :=
  let s := s.edit_queue qid (.set_list i gw_lst_init)
  match gw_mutex_init (os i) s false (some (mutex_name queue_name i)) with
  | (s, _, some m) => s.edit_queue qid (.set_mutex i m)
  | (s, _, none) => s

def osal_queue_record_t.fill (name : List Char) (queue_depth data_size : UInt32) (pri_num : Int32)
    (q : osal_queue_record_t) : osal_queue_record_t :=
  { q with
    free := false, name, queue_size := data_size.toInt32, depth := queue_depth.toInt32
    queue_type := .GW_PRI_QUEUE_TYPE, pri_num }

/-- `sem_os` and `mut_os` are for the semaphore and for the mutex of each priority. -/
def gw_pri_queue_create (sem_os : Bool) (mut_os : Nat → Bool) (s : Os) (queue_id_null : Bool)
    (queue_name : Option (List Char)) (queue_depth data_size : UInt32) (pri_num : Int32) :
    Os × GW_E_OSAL × Option Nat :=
  match queue_id_null, queue_name with
  | false, some queue_name =>
    if queue_depth = 0 ∨ data_size = 0 then (s, .ERR, none)
    else if pri_num ≤ 0 ∨ GW_OSAL_MAX_QUEUE_PRI < pri_num then (s, .ERR, none)
    else if GW_OSAL_MAX_API_NAME ≤ queue_name.length then (s, .ERR_NAME_TOO_LONG, none)
    else
      match first_free (fun i => (s.gw_osal_queue_table i).free) GW_OSAL_MAX_QUEUE with
      | none => (s, .ERR_NO_FREE_IDS, none)
      | some qid =>
        match gw_semaphore_init sem_os s false (some (pri_queue_sem_name qid)) 0 with
        | (s, _, none) => (s, .ERR, none)
        | (s, _, some sem) =>
          let s := s.edit_queue qid fun q => { q with cnt_sem_id := sem }
          let s := (List.range pri_num.toNatClampNeg).foldl
            (Os.create_priority mut_os queue_name qid) s
          (s.edit_queue qid (.fill queue_name queue_depth data_size pri_num), .OK, some qid)
  | _, _ => (s, .INVALID_POINTER, none)

def gw_queue_delete (s : Os) (queue_id : Nat) : Os × GW_E_OSAL :=
  if GW_OSAL_MAX_QUEUE ≤ queue_id ∨ (s.gw_osal_queue_table queue_id).free = true then
    (s, .ERR_INVALID_ID)
  else (s.edit_queue queue_id fun _ => free_queue, .OK)

/-- The id is not one of a priority queue. -/
def Os.Invalid (s : Os) (queue_id : Nat) : Prop :=
  GW_OSAL_MAX_QUEUE ≤ queue_id ∨ (s.gw_osal_queue_table queue_id).free = true ∨
    (s.gw_osal_queue_table queue_id).queue_type ≠ .GW_PRI_QUEUE_TYPE

instance (s : Os) (queue_id : Nat) : Decidable (s.Invalid queue_id) :=
  inferInstanceAs (Decidable (_ ∨ _))

def osal_queue_record_t.list_count (q : osal_queue_record_t) (i : Nat) : UInt32 :=
  (q.queue_list i).count

/-- The loop of `gw_pri_queue_count`. -/
def osal_queue_record_t.total (q : osal_queue_record_t) : UInt32 :=
  (List.range q.pri_num.toNatClampNeg).foldl (fun count i => count + q.list_count i) 0

/-- The new peaks of the queue. -/
def osal_queue_record_t.peak (q : osal_queue_record_t) (i : Nat) : osal_queue_record_t :=
  let q :=
    if q.pri_queue_peek i < q.list_count i then
      { q with pri_queue_peek := update q.pri_queue_peek i (q.list_count i) }
    else q
  if q.peek_value < q.total then { q with peek_value := q.total } else q

/-- The message gets a block of its own, and goes to the end of its list. -/
def Os.link_message (s : Os) (queue_id : Nat) (data : List UInt8) (size : UInt32) (i : Nat) : Os :=
  let pbuf := s.next
  let k := gw_lst_add s.nodes ((s.gw_osal_queue_table queue_id).queue_list i) pbuf
  { s.edit_queue queue_id (.set_list i k.lst) with
    nodes := k.nodes
    blocks := update s.blocks pbuf ⟨size, data.take size.toNat⟩
    live := update s.live pbuf true
    next := pbuf + 1 }

def osal_queue_record_t.put_fails (q : osal_queue_record_t) : osal_queue_record_t :=
  { q with put_error := q.put_error + 1 }

def osal_queue_record_t.get_fails (q : osal_queue_record_t) : osal_queue_record_t :=
  { q with get_error := q.get_error + 1 }

/-- `mal` is whether `malloc` has memory; `data` are the bytes at the pointer. -/
def gw_pri_queue_put (mal : Bool) (s : Os) (queue_id : Nat) (data : Option (List UInt8))
    (size : UInt32) (priority : Int32) : Os × GW_E_OSAL :=
  if s.Invalid queue_id then (s, .ERR_INVALID_ID)
  else
    let q := s.gw_osal_queue_table queue_id
    match data with
    | none =>
      (s.edit_queue queue_id fun q =>
        { q.put_fails with put_data_error := q.put_data_error + 1 },
        .INVALID_POINTER)
    | some data =>
      if q.queue_size.toUInt32 < size then
        (s.edit_queue queue_id fun q =>
          { q.put_fails with put_data_long := q.put_data_long + 1 }, .ERR)
      else if priority < 0 ∨ q.pri_num ≤ priority then
        (s.edit_queue queue_id .put_fails, .ERR)
      else if q.depth.toUInt32 ≤ q.list_count priority.toNatClampNeg then
        (s.edit_queue queue_id fun q =>
          { q.put_fails with put_full_error := q.put_full_error + 1 }, .ERR)
      else if mal = false then
        (s.edit_queue queue_id .put_fails, .ERR)
      else
        let s := s.link_message queue_id data size priority.toNatClampNeg
        let s := s.edit_queue queue_id fun q => q.peak priority.toNatClampNeg
        ((gw_semaphore_post s q.cnt_sem_id).1, .OK)

/-- The loop from the highest priority down: the first list with a count. -/
def osal_queue_record_t.first_list (q : osal_queue_record_t) : Nat → Option Nat
  | 0 => none
  | i + 1 => if q.list_count i = 0 then q.first_list i else some i

/-- What a get returns, and what it writes to `size_copied` and to `data`. -/
structure Got where
  code : GW_E_OSAL
  size_copied : Option UInt32
  data : Option (List UInt8)
  deriving DecidableEq

def Os.unlink_message (s : Os) (queue_id i pbuf : Nat) (k : Linking) : Os :=
  { s.edit_queue queue_id (.set_list i k.lst) with
    nodes := k.nodes
    live := update s.live pbuf false }

/-- `size` is the room at `data`. `none` when the call does not return: it waits
for ever, or reads a message that is not there. -/
def gw_pri_queue_get (s : Os) (queue_id : Nat) (data_null : Bool) (size : UInt32)
    (timeout : Int32) : Option (Os × Got) :=
  if s.Invalid queue_id then some (s, ⟨.ERR_INVALID_ID, none, none⟩)
  else if data_null then
    some (s.edit_queue queue_id fun q =>
      { q.get_fails with get_data_error := q.get_data_error + 1 },
      ⟨.INVALID_POINTER, none, none⟩)
  else do
    let (s, ret) ← gw_semaphore_wait s (s.gw_osal_queue_table queue_id).cnt_sem_id timeout
    if ret ≠ .OK then return (s.edit_queue queue_id .get_fails, ⟨.ERR, none, none⟩)
    else
      let q := s.gw_osal_queue_table queue_id
      match q.first_list q.pri_num.toNatClampNeg with
      | none => return (s.edit_queue queue_id .get_fails, ⟨.ERR, none, none⟩)
      | some i =>
        match gw_lst_get s.nodes (q.queue_list i) with
        | (_, none) => none
        | (k, some pbuf) =>
          let size_copied := (s.blocks pbuf).size
          let s := s.unlink_message queue_id i pbuf k
          if size < size_copied then
            return (s.edit_queue queue_id fun q =>
              { q.get_fails with get_data_long := q.get_data_long + 1 },
              ⟨.ERR, some size_copied, none⟩)
          else
            return (s, ⟨.OK, some size_copied, some ((s.blocks pbuf).data.take size_copied.toNat)⟩)

end gwdonu.os_core
