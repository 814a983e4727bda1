-- The priority queues of the OS layer: one list of messages for each
-- priority, a limit for each list, and a semaphore that counts the messages.
import Gwdonu.Lib.Fifos

namespace gwdonu.pri_queue

/-- The results of the queue calls. -/
inductive GW_E_OSAL where
  | OK
  | ERR
  | ERR_INVALID_ID
  | INVALID_POINTER
  deriving DecidableEq

/-- `GW_OSAL_MAX_QUEUE_PRI`. -/
def GW_OSAL_MAX_QUEUE_PRI : Nat := 8

/-- A queued message: the size word, and what the bytes behind it stand for. -/
structure Message (α : Type) where
  size : Nat
  data : α
  deriving DecidableEq

/-- An entry of `gw_osal_queue_table`. `pri` says that the entry is in use for
a priority queue, `queue_list` has the messages of each priority with the
oldest first, and `sem` is the count of the semaphore `cnt_sem_id`. -/
structure osal_queue_record_t (α : Type) where
  pri : Bool
  queue_size : Nat
  depth : Nat
  pri_num : Nat
  queue_list : Nat → List (Message α)
  pri_queue_peek : Nat → Nat
  sem : Nat
  peek_value : Nat
  put_error : Nat
  put_full_error : Nat
  put_data_error : Nat
  put_data_long : Nat
  get_error : Nat
  get_data_error : Nat
  get_data_long : Nat

variable {α : Type}

/-- The free entry that the program starts with. -/
def free_record : osal_queue_record_t α :=
  { pri := false, queue_size := 0, depth := 0, pri_num := 0, queue_list := fun _ => []
    pri_queue_peek := fun _ => 0, sem := 0, peek_value := 0, put_error := 0
    put_full_error := 0, put_data_error := 0, put_data_long := 0, get_error := 0
    get_data_error := 0, get_data_long := 0 }

/-- The part of `gw_pri_queue_create` that fills in a free entry. -/
def gw_pri_queue_create (slot : osal_queue_record_t α) (queue_depth data_size : Nat)
    (pri_num : Int) : osal_queue_record_t α × GW_E_OSAL :=
  if queue_depth = 0 ∨ data_size = 0 then (slot, .ERR)
  else if pri_num ≤ 0 ∨ GW_OSAL_MAX_QUEUE_PRI < pri_num then (slot, .ERR)
  else
    ({ slot with
       pri := true, queue_size := data_size, depth := queue_depth, pri_num := pri_num.toNat
       queue_list := fun i => if i < pri_num.toNat then [] else slot.queue_list i
       sem := 0 }, .OK)

def gw_pri_queue_count (q : osal_queue_record_t α) : Nat :=
  ((List.range q.pri_num).map (fun i => (q.queue_list i).length)).sum

/-- The part of `gw_pri_queue_put` that has the buffer: the message goes to the
end of its list, the peaks follow, and the semaphore is posted. -/
def enqueue (q : osal_queue_record_t α) (i : Nat) (pbuf : Message α) : osal_queue_record_t α :=
  let q := { q with queue_list := Function.update q.queue_list i (q.queue_list i ++ [pbuf]) }
  let q :=
    if q.pri_queue_peek i < (q.queue_list i).length then
      { q with pri_queue_peek := Function.update q.pri_queue_peek i (q.queue_list i).length }
    else q
  let total := gw_pri_queue_count q
  let q := if q.peek_value < total then { q with peek_value := total } else q
  { q with sem := q.sem + 1 }

/-- `mal` is whether `malloc` has memory for the message. -/
def gw_pri_queue_put (mal : Bool) (q : osal_queue_record_t α) (data : Option α) (size : Nat)
    (priority : Int) : osal_queue_record_t α × GW_E_OSAL :=
  if q.pri = false then (q, .ERR_INVALID_ID)
  else
    match data with
    | none =>
      ({ q with put_data_error := q.put_data_error + 1, put_error := q.put_error + 1 },
        .INVALID_POINTER)
    | some data =>
      if q.queue_size < size then
        ({ q with put_data_long := q.put_data_long + 1, put_error := q.put_error + 1 }, .ERR)
      else if priority < 0 ∨ q.pri_num ≤ priority then
        ({ q with put_error := q.put_error + 1 }, .ERR)
      else if q.depth ≤ (q.queue_list priority.toNat).length then
        ({ q with put_full_error := q.put_full_error + 1, put_error := q.put_error + 1 }, .ERR)
      else if mal = false then ({ q with put_error := q.put_error + 1 }, .ERR)
      else (enqueue q priority.toNat ⟨size, data⟩, .OK)

/-- The highest priority below `n` that has a message. -/
def highest (q : osal_queue_record_t α) : Nat → Option Nat
  | 0 => none
  | n + 1 => if (q.queue_list n).length = 0 then highest q n else some n

/-- `size` is the room at `data`; a call that waits for ever returns only with
a count above 0. The message is the one that the call took off the queue. -/
def gw_pri_queue_get (q : osal_queue_record_t α) (data_null : Bool) (size : Nat) :
    osal_queue_record_t α × GW_E_OSAL × Option (Message α) :=
  if q.pri = false then (q, .ERR_INVALID_ID, none)
  else if data_null then
    ({ q with get_data_error := q.get_data_error + 1, get_error := q.get_error + 1 },
      .INVALID_POINTER, none)
  else if q.sem = 0 then ({ q with get_error := q.get_error + 1 }, .ERR, none)
  else
    let q := { q with sem := q.sem - 1 }
    match highest q q.pri_num with
    | none => ({ q with get_error := q.get_error + 1 }, .ERR, none)
    | some i =>
      match q.queue_list i with
      | [] => (q, .ERR, none)
      | pbuf :: rest =>
        let q := { q with queue_list := Function.update q.queue_list i rest }
        if size < pbuf.size then
          ({ q with get_data_long := q.get_data_long + 1, get_error := q.get_error + 1 }, .ERR, none)
        else (q, .OK, some pbuf)

/-! ## What a put does -/

/-- The queue takes a message of this size at this priority. -/
structure Takes (mal : Bool) (q : osal_queue_record_t α) (size : Nat) (priority : Int) : Prop where
  pri : q.pri = true
  fits : size ≤ q.queue_size
  low : 0 ≤ priority
  high : priority < q.pri_num
  room : (q.queue_list priority.toNat).length < q.depth
  memory : mal = true

instance (mal : Bool) (q : osal_queue_record_t α) (size : Nat) (priority : Int) :
    Decidable (Takes mal q size priority) :=
  decidable_of_iff (q.pri = true ∧ size ≤ q.queue_size ∧ 0 ≤ priority ∧ priority < q.pri_num ∧
      (q.queue_list priority.toNat).length < q.depth ∧ mal = true)
    ⟨fun h => ⟨h.1, h.2.1, h.2.2.1, h.2.2.2.1, h.2.2.2.2.1, h.2.2.2.2.2⟩,
      fun h => ⟨h.1, h.2, h.3, h.4, h.5, h.6⟩⟩

/-- The settings that no put and no get changes. -/
structure SameQueue (q' q : osal_queue_record_t α) : Prop where
  pri : q'.pri = q.pri
  queue_size : q'.queue_size = q.queue_size
  depth : q'.depth = q.depth
  pri_num : q'.pri_num = q.pri_num

theorem SameQueue.trans {α : Type} {a b c : osal_queue_record_t α} (h : SameQueue a b)
    (h' : SameQueue b c) : SameQueue a c :=
  ⟨h.pri.trans h'.pri, h.queue_size.trans h'.queue_size, h.depth.trans h'.depth,
    h.pri_num.trans h'.pri_num⟩

@[simp] theorem enqueue_list (q : osal_queue_record_t α) (i : Nat) (pbuf : Message α) :
    (enqueue q i pbuf).queue_list = Function.update q.queue_list i (q.queue_list i ++ [pbuf]) := by
  unfold enqueue
  dsimp only
  split_ifs <;> rfl

theorem enqueue_keeps (q : osal_queue_record_t α) (i : Nat) (pbuf : Message α) :
    SameQueue (enqueue q i pbuf) q := by
  unfold enqueue
  dsimp only
  split_ifs <;> exact ⟨rfl, rfl, rfl, rfl⟩

theorem enqueue_sem (q : osal_queue_record_t α) (i : Nat) (pbuf : Message α) : (enqueue q i pbuf).sem = q.sem + 1 := by
  unfold enqueue
  dsimp only
  split_ifs <;> rfl

/-- A put that the queue takes adds the message behind the others of its priority. -/
theorem put_takes {mal : Bool} {q : osal_queue_record_t α} {data : α} {size : Nat} {priority : Int}
    (h : Takes mal q size priority) :
    gw_pri_queue_put mal q (some data) size priority =
      (enqueue q priority.toNat ⟨size, data⟩, .OK) := by
  have hpri : ¬ q.pri = false := by simp [h.pri]
  have hrange : ¬ (priority < 0 ∨ q.pri_num ≤ priority) := by
    have := h.low
    have := h.high
    omega
  have hmem : ¬ mal = false := by simp [h.memory]
  unfold gw_pri_queue_put
  rw [if_neg hpri]
  dsimp only
  rw [if_neg (Nat.not_lt.mpr h.fits), if_neg hrange, if_neg (Nat.not_le.mpr h.room), if_neg hmem]

/-- A put that the queue does not take changes only its error counts. -/
theorem put_refuses {mal : Bool} {q : osal_queue_record_t α} {size : Nat} {priority : Int}
    (h : ¬ Takes mal q size priority) (data : α) :
    (gw_pri_queue_put mal q (some data) size priority).2 ≠ .OK ∧
      (gw_pri_queue_put mal q (some data) size priority).1.queue_list = q.queue_list ∧
      SameQueue (gw_pri_queue_put mal q (some data) size priority).1 q := by
  unfold gw_pri_queue_put
  dsimp only
  split_ifs with hpri hfits hrange hroom hmem
  case neg =>
    have htakes : Takes mal q size priority :=
      ⟨by simpa using hpri, by omega, by omega, by omega, by omega, by simpa using hmem⟩
    exact absurd htakes h
  all_goals exact ⟨by simp, rfl, ⟨rfl, rfl, rfl, rfl⟩⟩

theorem put_refuses_sem {mal : Bool} {q : osal_queue_record_t α} {size : Nat} {priority : Int}
    (h : ¬ Takes mal q size priority) (data : α) :
    (gw_pri_queue_put mal q (some data) size priority).1.sem = q.sem := by
  unfold gw_pri_queue_put
  dsimp only
  split_ifs with hpri hfits hrange hroom hmem
  case neg =>
    have htakes : Takes mal q size priority :=
      ⟨by simpa using hpri, by omega, by omega, by omega, by omega, by simpa using hmem⟩
    exact absurd htakes h
  all_goals rfl

/-! ## Messages in the queue -/

/-- How many queued messages are the message `x`. -/
def held [DecidableEq α] (q : osal_queue_record_t α) (x : α) : Nat :=
  ((List.range q.pri_num).map (fun i => (q.queue_list i).countP (fun pbuf => pbuf.data = x))).sum

theorem held_enqueue [DecidableEq α] (q : osal_queue_record_t α) {i : Nat} (h : i < q.pri_num)
    (pbuf : Message α) (x : α) :
    held (enqueue q i pbuf) x = held q x + if pbuf.data = x then 1 else 0 := by
  unfold held
  rw [(enqueue_keeps q i pbuf).pri_num, enqueue_list, ← fifos.sum_update _ h]
  congr 2
  funext k
  by_cases hk : k = i
  · subst hk
    simp [List.countP_cons]
  · rw [Function.update_of_ne hk, Function.update_of_ne hk]

theorem held_same_list [DecidableEq α] {q q' : osal_queue_record_t α}
    (hlist : q'.queue_list = q.queue_list) (hpri : q'.pri_num = q.pri_num) (x : α) :
    held q' x = held q x := by
  rw [held, held, hlist, hpri]

theorem held_zero [DecidableEq α] {q : osal_queue_record_t α} {x : α}
    (h : ∀ i, ∀ pbuf ∈ q.queue_list i, pbuf.data ≠ x) : held q x = 0 := by
  unfold held
  have hz : ∀ i ∈ List.range q.pri_num,
      (q.queue_list i).countP (fun pbuf => pbuf.data = x) = 0 := by
    intro i _
    rw [List.countP_eq_zero]
    intro pbuf hp
    simpa using h i pbuf hp
  rw [List.map_congr_left hz, List.map_const', List.sum_replicate_nat, Nat.mul_zero]

/-- A get takes a message out of the queue, if any, and leaves the others. -/
theorem get_from (q : osal_queue_record_t α) (data_null : Bool) (size : Nat) :
    (∀ i, ∀ pbuf ∈ (gw_pri_queue_get q data_null size).1.queue_list i, pbuf ∈ q.queue_list i) ∧
      ∀ pbuf, (gw_pri_queue_get q data_null size).2.2 = some pbuf →
        ∃ i, pbuf ∈ q.queue_list i := by
  unfold gw_pri_queue_get
  dsimp only
  split_ifs
  · exact ⟨fun _ _ h => h, nofun⟩
  · exact ⟨fun _ _ h => h, nofun⟩
  · exact ⟨fun _ _ h => h, nofun⟩
  split
  · exact ⟨fun _ _ h => h, nofun⟩
  rename_i i _
  split
  · exact ⟨fun _ _ h => h, nofun⟩
  rename_i pbuf rest hlist
  have hrest : ∀ k, ∀ x ∈ Function.update q.queue_list i rest k, x ∈ q.queue_list k := by
    intro k x hx
    by_cases hk : k = i
    · subst hk
      rw [Function.update_self] at hx
      exact hlist ▸ List.mem_cons_of_mem _ hx
    · rwa [Function.update_of_ne hk] at hx
  split_ifs
  · exact ⟨hrest, nofun⟩
  · refine ⟨hrest, ?_⟩
    intro x hx
    obtain rfl := Option.some.inj hx
    exact ⟨i, by simp [hlist]⟩

/-- The count of the semaphore is not looked at. -/
theorem highest_congr (q : osal_queue_record_t α) (sem n : Nat) : highest { q with sem } n = highest q n := by
  induction n with
  | zero => rfl
  | succ n ih => rw [highest, highest, ih]

/-- Where only the lowest priority has messages, a get takes the oldest of them. -/
theorem get_oldest {q : osal_queue_record_t α} {size : Nat} {pbuf : Message α} {rest : List (Message α)}
    (hpri : q.pri = true) (hsem : 0 < q.sem) (hnum : 0 < q.pri_num)
    (hothers : ∀ i, 0 < i → i < q.pri_num → q.queue_list i = []) (hlist : q.queue_list 0 = pbuf :: rest)
    (hsize : pbuf.size ≤ size) :
    gw_pri_queue_get q false size =
      ({ q with sem := q.sem - 1, queue_list := Function.update q.queue_list 0 rest }, .OK, some pbuf) := by
  have hfirst : ∀ n, n ≤ q.pri_num → 0 < n → highest q n = some 0 := by
    intro n
    induction n with
    | zero => omega
    | succ n ih =>
      intro hn _
      unfold highest
      by_cases h0 : n = 0
      · subst h0
        rw [if_neg (by simp [hlist])]
      · rw [if_pos (by simp [hothers n (by omega) (by omega)])]
        exact ih (by omega) (by omega)
  have hhighest : highest { q with sem := q.sem - 1 } q.pri_num = some 0 := by
    rw [← hfirst q.pri_num (le_refl _) hnum]
    exact highest_congr q (q.sem - 1) q.pri_num
  unfold gw_pri_queue_get
  rw [if_neg (by simp [hpri]), if_neg Bool.false_ne_true, if_neg (by omega)]
  dsimp only
  rw [hhighest]
  dsimp only
  rw [hlist]
  dsimp only
  rw [if_neg (by omega)]

theorem get_keeps (q : osal_queue_record_t α) (data_null : Bool) (size : Nat) :
    SameQueue (gw_pri_queue_get q data_null size).1 q := by
  unfold gw_pri_queue_get
  dsimp only
  split_ifs
  all_goals first
    | exact ⟨rfl, rfl, rfl, rfl⟩
    | skip
  split
  · exact ⟨rfl, rfl, rfl, rfl⟩
  · split
    · exact ⟨rfl, rfl, rfl, rfl⟩
    · split_ifs <;> exact ⟨rfl, rfl, rfl, rfl⟩

end gwdonu.pri_queue
