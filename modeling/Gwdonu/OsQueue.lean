-- What a priority queue is for: a line of messages for each priority. The
-- tables, the semaphore and the linked lists of a queue amount to that.
import Gwdonu.OsCore
import Gwdonu.Lib.Fifos
import Gwdonu.Lib.Runs

namespace gwdonu.os_core

open Function util_list fifos runs

/-! ## The abstract queue -/

/-- What a queue was created with. -/
structure Limits where
  depth : UInt32
  data_size : UInt32
  pri_num : Nat

inductive Call where
  | put (mal : Bool) (data : Option (List UInt8)) (size : UInt32) (priority : Int32)
  | get (data_null : Bool) (size : UInt32) (timeout : Int32)
  deriving DecidableEq

/-- What a caller learns; a call that waits for ever does not return. -/
inductive Answer where
  | put (code : GW_E_OSAL)
  | get (got : Got)
  | waits
  deriving DecidableEq

/-- The arguments are valid, the message fits, its line has room, and there is memory. -/
def Limits.Accepts (L : Limits) (m : Fifos Block) (mal : Bool) (size : UInt32)
    (priority : Int32) : Prop :=
  size ≤ L.data_size ∧ 0 ≤ priority ∧ priority.toNatClampNeg < L.pri_num ∧
    (m priority.toNatClampNeg).length < L.depth.toNat ∧ mal = true

instance (L : Limits) (m : Fifos Block) (mal : Bool) (size : UInt32) (priority : Int32) :
    Decidable (L.Accepts m mal size priority) :=
  inferInstanceAs (Decidable (_ ∧ _))

/-- A reader with room for `size` bytes gets the message, or only learns its size. -/
def Block.read (x : Block) (size : UInt32) : Got :=
  if size < x.size then ⟨.ERR, some x.size, none⟩ else ⟨.OK, some x.size, some x.data⟩

/-- A timeout below that of a call that waits for ever is over at once. -/
def Limits.call (L : Limits) (m : Fifos Block) : Call → Fifos Block × Answer
  | .put _ none _ _ => (m, .put .INVALID_POINTER)
  | .put mal (some data) size priority =>
    if L.Accepts m mal size priority then
      (put m priority.toNatClampNeg ⟨size, data.take size.toNat⟩, .put .OK)
    else (m, .put .ERR)
  | .get true _ _ => (m, .get ⟨.INVALID_POINTER, none, none⟩)
  | .get false size timeout =>
    if timeout < GW_OSAL_WAIT_FOREVER then (m, .get ⟨.ERR, none, none⟩)
    else
      match front m L.pri_num with
      | none => (m, if timeout = GW_OSAL_WAIT_FOREVER then .waits else .get ⟨.ERR, none, none⟩)
      | some (i, x) => (drop m i, .get (x.read size))

/-- A call on the queue in the tables. -/
def Os.call (id : Nat) (s : Os) : Call → Os × Answer
  | .put mal data size priority =>
    ((gw_pri_queue_put mal s id data size priority).1,
      .put (gw_pri_queue_put mal s id data size priority).2)
  | .get data_null size timeout =>
    match gw_pri_queue_get s id data_null size timeout with
    | none => (s, .waits)
    | some (s, got) => (s, .get got)

/-- The messages that the tables hold for a priority. -/
def Os.held (s : Os) (id i : Nat) : List Block :=
  (gw_lst_nodes s.nodes s.next (gw_lst_first ((s.gw_osal_queue_table id).queue_list i))).map s.blocks

/-- The value of the queue's semaphore. -/
def Os.posted (s : Os) (id : Nat) : Nat :=
  (s.gw_osal_count_sem_table (s.gw_osal_queue_table id).cnt_sem_id).value

/-! ## The queue in the tables -/

/-- The fields that no error and no peak changes. -/
structure Core where
  free : Bool
  queue_size : Int32
  depth : Int32
  queue_type : QueueType
  pri_num : Int32
  cnt_sem_id : Nat
  queue_list : Nat → gw_list

def osal_queue_record_t.core (q : osal_queue_record_t) : Core :=
  ⟨q.free, q.queue_size, q.depth, q.queue_type, q.pri_num, q.cnt_sem_id, q.queue_list⟩

/-- The entry `id` is a queue within the limits `L` that holds `m`, its messages
at the nodes `ls`, and its semaphore stands at `k`. -/
structure Queued (s : Os) (id : Nat) (L : Limits) (m : Fifos Block) (ls : Nat → List Nat) (k : Nat) :
    Prop where
  valid : ¬ s.Invalid id
  data_size : (s.gw_osal_queue_table id).queue_size.toUInt32 = L.data_size
  depth : (s.gw_osal_queue_table id).depth.toUInt32 = L.depth
  pri_num : (s.gw_osal_queue_table id).pri_num.toNatClampNeg = L.pri_num
  sem_id : (s.gw_osal_queue_table id).cnt_sem_id < GW_OSAL_MAX_COUNT_SEM
  sem_used : (s.gw_osal_count_sem_table (s.gw_osal_queue_table id).cnt_sem_id).free = false
  sem : s.posted id = k
  lists : ∀ i < L.pri_num,
    Represents s.nodes ((s.gw_osal_queue_table id).queue_list i) (ls i)
  messages : ∀ i < L.pri_num, m i = (ls i).map s.blocks
  room : ∀ i < L.pri_num, (m i).length ≤ L.depth.toNat
  whole : ∀ i < L.pri_num, ∀ x ∈ m i, x.data.length ≤ x.size.toNat
  known : ∀ i < L.pri_num, ∀ a ∈ ls i, a < s.next
  apart : ∀ i < L.pri_num, ∀ j < L.pri_num, i ≠ j → ∀ a ∈ ls i, a ∉ ls j

section
variable {s : Os} {id : Nat} {L : Limits} {m : Fifos Block} {ls : Nat → List Nat} {k i : Nat}

@[simp] theorem edit_queue_self (f : osal_queue_record_t → osal_queue_record_t) :
    (s.edit_queue id f).gw_osal_queue_table id = f (s.gw_osal_queue_table id) :=
  update_self _ _ _

theorem invalid_congr {s' : Os}
    (h : (s'.gw_osal_queue_table id).core = (s.gw_osal_queue_table id).core) :
    s'.Invalid id ↔ s.Invalid id := by
  have hfree : (s'.gw_osal_queue_table id).free = (s.gw_osal_queue_table id).free :=
    congrArg Core.free h
  have htype : (s'.gw_osal_queue_table id).queue_type = (s.gw_osal_queue_table id).queue_type :=
    congrArg Core.queue_type h
  rw [Os.Invalid, Os.Invalid, hfree, htype]

/-- Errors and peaks leave the queue as it is. -/
theorem queued_counters (h : Queued s id L m ls k) {f : osal_queue_record_t → osal_queue_record_t}
    (hf : ∀ q, (f q).core = q.core) : Queued (s.edit_queue id f) id L m ls k := by
  have hcore : ((s.edit_queue id f).gw_osal_queue_table id).core =
      (s.gw_osal_queue_table id).core := by rw [edit_queue_self, hf]
  have hsize : ((s.edit_queue id f).gw_osal_queue_table id).queue_size = _ :=
    congrArg Core.queue_size hcore
  have hdepth : ((s.edit_queue id f).gw_osal_queue_table id).depth = _ :=
    congrArg Core.depth hcore
  have hpri : ((s.edit_queue id f).gw_osal_queue_table id).pri_num = _ :=
    congrArg Core.pri_num hcore
  have hsem : ((s.edit_queue id f).gw_osal_queue_table id).cnt_sem_id = _ :=
    congrArg Core.cnt_sem_id hcore
  have hlist : ((s.edit_queue id f).gw_osal_queue_table id).queue_list = _ :=
    congrArg Core.queue_list hcore
  refine ⟨fun hi => h.valid ((invalid_congr hcore).mp hi), hsize ▸ h.data_size, hdepth ▸ h.depth,
    hpri ▸ h.pri_num, hsem ▸ h.sem_id, ?_, ?_, ?_, h.messages, h.room, h.whole, h.known, h.apart⟩
  · rw [hsem]
    exact h.sem_used
  · rw [Os.posted, hsem]
    exact h.sem
  · intro i hi
    rw [hlist]
    exact h.lists i hi

/-- The count of a list is the number of its messages. -/
theorem list_count_eq (h : Queued s id L m ls k) (hi : i < L.pri_num) :
    ((s.gw_osal_queue_table id).list_count i).toNat = (m i).length := by
  have hroom := h.room i hi
  have hdepth := L.depth.toNat_lt
  rw [h.messages i hi, List.length_map] at hroom ⊢
  rw [osal_queue_record_t.list_count, (h.lists i hi).count]
  exact UInt32.toNat_ofNat_of_lt' (by change _ < 2 ^ 32; omega)

/-- The loop of a get stops at the highest priority with a message. -/
theorem first_list_eq (h : Queued s id L m ls k) {n : Nat} (hn : n ≤ L.pri_num) :
    (s.gw_osal_queue_table id).first_list n = highest m n := by
  induction n with
  | zero => rfl
  | succ n ih =>
    have hcount := list_count_eq h hn
    rw [osal_queue_record_t.first_list, highest_succ, ih (Nat.le_of_succ_le hn)]
    by_cases hnil : m n = []
    · have hzero : (s.gw_osal_queue_table id).list_count n = 0 := by
        apply UInt32.toNat_inj.mp
        rw [hcount, hnil]
        rfl
      rw [if_pos hzero, hnil]
      rfl
    · have hne : ¬ (s.gw_osal_queue_table id).list_count n = 0 := by
        intro hzero
        rw [hzero] at hcount
        exact hnil (List.length_eq_zero_iff.mp hcount.symm)
      rw [if_neg hne, if_neg (by simpa using hnil)]

theorem held_eq (h : Queued s id L m ls k) (hi : i < L.pri_num) : s.held id i = m i := by
  have hlist := h.lists i hi
  have hfew : (ls i).length ≤ s.next := by
    have hsub : ls i ⊆ List.range s.next :=
      fun a ha => List.mem_range.mpr (h.known i hi a ha)
    simpa using (hlist.nodup.subperm hsub).length_le
  rw [Os.held, h.messages i hi, gw_lst_first, head_eq hlist]
  exact congrArg _ (nodes_eq (l := []) hlist hfew)

@[simp] theorem set_sem_self (c : Nat) (r : osal_count_sem_record_t) :
    (s.set_sem c r).gw_osal_count_sem_table c = r := update_self _ _ _

/-- The semaphore moves, and nothing else does. -/
theorem queued_sem (h : Queued s id L m ls k) {r : osal_count_sem_record_t} (hr : r.free = false) :
    Queued (s.set_sem (s.gw_osal_queue_table id).cnt_sem_id r) id L m ls r.value := by
  refine ⟨h.valid, h.data_size, h.depth, h.pri_num, h.sem_id, ?_, ?_, h.lists, h.messages, h.room,
    h.whole, h.known, h.apart⟩
  · change ((s.set_sem _ r).gw_osal_count_sem_table (s.gw_osal_queue_table id).cnt_sem_id).free = _
    rw [set_sem_self]
    exact hr
  · change ((s.set_sem _ r).gw_osal_count_sem_table (s.gw_osal_queue_table id).cnt_sem_id).value = _
    rw [set_sem_self]

theorem sem_valid (h : Queued s id L m ls k) :
    ¬ (GW_OSAL_MAX_COUNT_SEM ≤ (s.gw_osal_queue_table id).cnt_sem_id ∨
      (s.gw_osal_count_sem_table (s.gw_osal_queue_table id).cnt_sem_id).free = true) := by
  rw [h.sem_used]
  have := h.sem_id
  simp only [Bool.false_eq_true, or_false]
  omega

theorem post_queued (h : Queued s id L m ls k) :
    Queued (gw_semaphore_post s (s.gw_osal_queue_table id).cnt_sem_id).1 id L m ls (k + 1) := by
  have hposted := queued_sem h (r := (s.gw_osal_count_sem_table _).post) h.sem_used
  have hvalue : (s.gw_osal_count_sem_table (s.gw_osal_queue_table id).cnt_sem_id).post.value =
      k + 1 := congrArg (· + 1) h.sem
  rw [gw_semaphore_post, if_neg (sem_valid h)]
  exact hvalue ▸ hposted

/-- A wait takes one from the semaphore, when there is one and the call tries. -/
theorem wait_queued (h : Queued s id L m ls (k + 1)) {timeout : Int32}
    (ht : ¬ timeout < GW_OSAL_WAIT_FOREVER) :
    ∃ s', gw_semaphore_wait s (s.gw_osal_queue_table id).cnt_sem_id timeout = some (s', .OK) ∧
      s'.gw_osal_queue_table = s.gw_osal_queue_table ∧ Queued s' id L m ls k := by
  have htaken := queued_sem h (r := (s.gw_osal_count_sem_table _).take) h.sem_used
  have hvalue : (s.gw_osal_count_sem_table (s.gw_osal_queue_table id).cnt_sem_id).take.value = k :=
    congrArg (· - 1) h.sem
  have hne : ¬ (s.gw_osal_count_sem_table (s.gw_osal_queue_table id).cnt_sem_id).value = 0 := by
    rw [show (s.gw_osal_count_sem_table _).value = k + 1 from h.sem]
    exact Nat.succ_ne_zero k
  refine ⟨s.set_sem (s.gw_osal_queue_table id).cnt_sem_id
    (s.gw_osal_count_sem_table (s.gw_osal_queue_table id).cnt_sem_id).take, ?_, rfl,
    hvalue ▸ htaken⟩
  rw [gw_semaphore_wait, if_neg (sem_valid h)]
  dsimp only
  rw [if_neg hne, if_neg hne]
  by_cases hnone : timeout = GW_OSAL_NO_WAIT
  · rw [if_pos hnone]
  · rw [if_neg hnone]
    by_cases hforever : timeout = GW_OSAL_WAIT_FOREVER
    · rw [if_pos hforever]
    · have hpos : 0 < timeout := by
        rw [GW_OSAL_NO_WAIT] at hnone
        rw [GW_OSAL_WAIT_FOREVER] at hforever ht
        rw [Int32.lt_iff_toInt_lt] at ht ⊢
        rw [← Int32.toInt_inj] at hnone hforever
        have h0 : (0 : Int32).toInt = 0 := rfl
        have h1 : (-1 : Int32).toInt = -1 := rfl
        omega
      rw [if_neg hforever, if_pos ⟨hpos, hne⟩]

/-- A wait that gets nothing changes nothing. -/
theorem wait_fails (h : Queued s id L m ls k) {timeout : Int32}
    (ht : timeout < GW_OSAL_WAIT_FOREVER ∨ k = 0) :
    (gw_semaphore_wait s (s.gw_osal_queue_table id).cnt_sem_id timeout =
        if timeout = GW_OSAL_WAIT_FOREVER then none else some (s, .ERR)) ∨
      (timeout ≠ GW_OSAL_WAIT_FOREVER ∧
        gw_semaphore_wait s (s.gw_osal_queue_table id).cnt_sem_id timeout =
          some (s, .SEM_TIMEOUT)) := by
  have hsem : (s.gw_osal_count_sem_table (s.gw_osal_queue_table id).cnt_sem_id).value = k := h.sem
  rw [gw_semaphore_wait, if_neg (sem_valid h)]
  dsimp only
  rw [hsem]
  by_cases hnone : timeout = GW_OSAL_NO_WAIT
  · subst hnone
    have hzero : k = 0 := ht.resolve_left (by decide)
    refine Or.inl ?_
    rw [if_pos rfl, if_pos hzero]
    rfl
  · rw [if_neg hnone]
    by_cases hforever : timeout = GW_OSAL_WAIT_FOREVER
    · subst hforever
      have hzero : k = 0 := ht.resolve_left (by decide)
      rw [if_pos rfl, if_pos hzero]
      exact Or.inl (if_pos rfl).symm
    · rw [if_neg hforever]
      refine Or.inr ⟨hforever, ?_⟩
      rw [if_neg]
      rintro ⟨hpos, hk⟩
      have hlow := ht.resolve_right hk
      rw [Int32.lt_iff_toInt_lt] at hlow hpos
      have h0 : (0 : Int32).toInt = 0 := rfl
      have h1 : GW_OSAL_WAIT_FOREVER.toInt = -1 := rfl
      omega

/-- One line changes: its nodes are old ones of its own, or new. -/
theorem relist_queued (h : Queued s id L m ls k) (hi : i < L.pri_num) {s' : Os} {lst : gw_list}
    {l : List Nat} {xs : List Block}
    (hrecord : s'.gw_osal_queue_table id = (s.gw_osal_queue_table id).set_list i lst)
    (hsems : s'.gw_osal_count_sem_table = s.gw_osal_count_sem_table)
    (hlist : Represents s'.nodes lst l)
    (hnodes : ∀ a < s.next, a ∉ ls i → s'.nodes a = s.nodes a)
    (hblocks : ∀ a < s.next, s'.blocks a = s.blocks a) (hxs : xs = l.map s'.blocks)
    (hroom : xs.length ≤ L.depth.toNat) (hwhole : ∀ x ∈ xs, x.data.length ≤ x.size.toNat)
    (hold : ∀ a ∈ l, a < s'.next ∧ (a ∈ ls i ∨ s.next ≤ a)) (hnext : s.next ≤ s'.next) :
    Queued s' id L (update m i xs) (update ls i l) k := by
  have hown : ∀ j < L.pri_num, j ≠ i → ∀ a ∈ ls j, a ∉ l := by
    intro j hj hji a ha hin
    rcases (hold a hin).2 with hls | hnew
    · exact h.apart j hj i hi hji a ha hls
    · exact absurd (h.known j hj a ha) (Nat.not_lt.mpr hnew)
  refine ⟨?_, ?_, ?_, ?_, ?_, ?_, ?_, ?_, ?_, ?_, ?_, ?_, ?_⟩
  · rw [Os.Invalid, hrecord]
    exact h.valid
  · rw [hrecord]
    exact h.data_size
  · rw [hrecord]
    exact h.depth
  · rw [hrecord]
    exact h.pri_num
  · rw [hrecord]
    exact h.sem_id
  · rw [hrecord, hsems]
    exact h.sem_used
  · rw [Os.posted, hrecord, hsems]
    exact h.sem
  · intro j hj
    rw [hrecord, osal_queue_record_t.set_list]
    dsimp only
    by_cases hji : j = i
    · subst hji
      rw [update_self, update_self]
      exact hlist
    · rw [update_of_ne hji, update_of_ne hji]
      refine represents_congr (h.lists j hj) fun a ha => hnodes a (h.known j hj a ha) ?_
      exact h.apart j hj i hi hji a ha
  · intro j hj
    by_cases hji : j = i
    · subst hji
      rw [update_self, update_self, hxs]
    · rw [update_of_ne hji, update_of_ne hji, h.messages j hj]
      exact (List.map_congr_left fun a ha => hblocks a (h.known j hj a ha)).symm
  · intro j hj
    by_cases hji : j = i
    · subst hji
      rwa [update_self]
    · rw [update_of_ne hji]
      exact h.room j hj
  · intro j hj
    by_cases hji : j = i
    · subst hji
      rwa [update_self]
    · rw [update_of_ne hji]
      exact h.whole j hj
  · intro j hj a ha
    by_cases hji : j = i
    · subst hji
      rw [update_self] at ha
      exact (hold a ha).1
    · rw [update_of_ne hji] at ha
      exact Nat.lt_of_lt_of_le (h.known j hj a ha) hnext
  · intro j hj j' hj' hne a ha ha'
    by_cases hji : j = i
    · subst hji
      rw [update_self] at ha
      rw [update_of_ne hne.symm] at ha'
      exact hown j' hj' hne.symm a ha' ha
    · rw [update_of_ne hji] at ha
      by_cases hji' : j' = i
      · subst hji'
        rw [update_self] at ha'
        exact hown j hj hji a ha ha'
      · rw [update_of_ne hji'] at ha'
        exact h.apart j hj j' hj' hne a ha ha'

/-- A message goes to the end of its line. -/
theorem link_queued (h : Queued s id L m ls k) (hi : i < L.pri_num)
    (hroom : (m i).length < L.depth.toNat) (data : List UInt8) (size : UInt32) :
    Queued (s.link_message id data size i) id L (put m i ⟨size, data.take size.toNat⟩)
      (update ls i (ls i ++ [s.next])) k := by
  have hnew : s.next ∉ ls i := fun ha => Nat.lt_irrefl _ (h.known i hi _ ha)
  have hwithin := add_within (h.lists i hi) (x := s.next)
  let x : Block := ⟨size, data.take size.toNat⟩
  have hold : ∀ a < s.next, update s.blocks s.next x a = s.blocks a :=
    fun a ha => update_of_ne (Nat.ne_of_lt ha) _ _
  refine relist_queued h hi (edit_queue_self _) rfl (add_represents (h.lists i hi) hnew) ?_ hold
    ?_ ?_ ?_ ?_ (Nat.le_succ _)
  · intro a ha hin
    apply hwithin.others
    simp only [List.mem_append, List.mem_singleton, not_or]
    exact ⟨hin, Nat.ne_of_lt ha⟩
  · rw [List.map_append, h.messages i hi]
    change _ = List.map (update s.blocks s.next x) (ls i) ++ [update s.blocks s.next x s.next]
    rw [update_self, List.map_congr_left fun a ha => hold a (h.known i hi a ha)]
  · rw [List.length_append]
    exact hroom
  · intro x hx
    rcases List.mem_append.mp hx with hx | hx
    · exact h.whole i hi x hx
    · obtain rfl := List.mem_singleton.mp hx
      exact List.length_take_le _ _
  · intro a ha
    change a < s.next + 1 ∧ _
    rcases List.mem_append.mp ha with ha | ha
    · exact ⟨Nat.lt_succ_of_lt (h.known i hi a ha), Or.inl ha⟩
    · obtain rfl := List.mem_singleton.mp ha
      exact ⟨Nat.lt_succ_self _, Or.inr (Nat.le_refl _)⟩

/-- The oldest message of a line goes, with its block. -/
theorem unlink_queued (h : Queued s id L m ls k) (hi : i < L.pri_num) {a : Nat} {as : List Nat}
    (hls : ls i = a :: as) :
    Queued (s.unlink_message id i a (gw_lst_delete s.nodes ((s.gw_osal_queue_table id).queue_list i) a))
      id L (drop m i) (update ls i as) k := by
  have hrepr : Represents s.nodes ((s.gw_osal_queue_table id).queue_list i) ([] ++ a :: as) :=
    hls ▸ h.lists i hi
  have hwithin := delete_within hrepr
  refine relist_queued h hi (edit_queue_self _) rfl (delete_represents hrepr) ?_ (fun _ _ => rfl)
    ?_ ?_ ?_ ?_ (Nat.le_refl _)
  · intro b _ hb
    exact hwithin.others b (hls ▸ hb)
  · rw [h.messages i hi, hls]
    rfl
  · rw [List.length_tail]
    exact Nat.le_trans (Nat.sub_le _ _) (h.room i hi)
  · exact fun x hx => h.whole i hi x (List.mem_of_mem_tail hx)
  · intro b hb
    have hin : b ∈ ls i := hls ▸ List.mem_cons_of_mem a hb
    exact ⟨h.known i hi b hin, Or.inl hin⟩

/-! ## A call in the tables is a call of the abstract queue -/

/-- The queue `id` holds `m`, and its semaphore counts the messages. -/
def Serves (id : Nat) (L : Limits) (s : Os) (m : Fifos Block) : Prop :=
  ∃ ls, Queued s id L m ls (total m L.pri_num)

theorem serves_counters (h : Serves id L s m) {f : osal_queue_record_t → osal_queue_record_t}
    (hf : ∀ q, (f q).core = q.core) : Serves id L (s.edit_queue id f) m :=
  h.imp fun _ hq => queued_counters hq hf

theorem clamp_lt {p n : Int32} (hp : 0 ≤ p) : n ≤ p ↔ n.toNatClampNeg ≤ p.toNatClampNeg := by
  have hp' := Int32.le_iff_toInt_le.mp hp
  have h0 : (0 : Int32).toInt = 0 := rfl
  rw [Int32.le_iff_toInt_le, Int32.toNatClampNeg, Int32.toNatClampNeg]
  omega

theorem peak_core (q : osal_queue_record_t) (i : Nat) : (q.peak i).core = q.core := by
  unfold osal_queue_record_t.peak
  dsimp only
  split_ifs <;> rfl

/-- A put that is accepted links its message and posts the semaphore. -/
theorem put_accepted (h : Serves id L s m) {mal : Bool} (data : List UInt8) {size : UInt32}
    {priority : Int32} (ha : L.Accepts m mal size priority) :
    (gw_pri_queue_put mal s id (some data) size priority).2 = .OK ∧
      Serves id L (gw_pri_queue_put mal s id (some data) size priority).1
        (put m priority.toNatClampNeg ⟨size, data.take size.toNat⟩) := by
  obtain ⟨ls, hq⟩ := h
  obtain ⟨hsize, hlow, hhigh, hroom, hmem⟩ := ha
  have hfits : ¬ (s.gw_osal_queue_table id).queue_size.toUInt32 < size := by
    rw [hq.data_size, UInt32.lt_iff_toNat_lt]
    rw [UInt32.le_iff_toNat_le] at hsize
    omega
  have hrange : ¬ (priority < 0 ∨ (s.gw_osal_queue_table id).pri_num ≤ priority) := by
    rw [clamp_lt hlow, hq.pri_num]
    rintro (hneg | hhi)
    · exact Int32.not_lt.mpr hlow hneg
    · omega
  have hfull : ¬ (s.gw_osal_queue_table id).depth.toUInt32 ≤
      (s.gw_osal_queue_table id).list_count priority.toNatClampNeg := by
    rw [hq.depth, UInt32.le_iff_toNat_le, list_count_eq hq hhigh]
    omega
  have hlinked := link_queued hq hhigh hroom data size
  have hpeaked := queued_counters hlinked fun q => peak_core q priority.toNatClampNeg
  have hposted := post_queued hpeaked
  have hsem : (((s.link_message id data size priority.toNatClampNeg).edit_queue id fun q =>
      q.peak priority.toNatClampNeg).gw_osal_queue_table id).cnt_sem_id =
        (s.gw_osal_queue_table id).cnt_sem_id := by
    rw [edit_queue_self]
    refine (congrArg Core.cnt_sem_id (peak_core _ _)).trans ?_
    have hlisted : (s.link_message id data size priority.toNatClampNeg).gw_osal_queue_table id =
        (s.gw_osal_queue_table id).set_list priority.toNatClampNeg _ := edit_queue_self _
    rw [hlisted]
    rfl
  rw [hsem, ← total_put hhigh] at hposted
  rw [gw_pri_queue_put, if_neg hq.valid]
  dsimp only
  rw [if_neg hfits, if_neg hrange, if_neg hfull, if_neg (by rw [hmem]; nofun)]
  exact ⟨rfl, _, hposted⟩

theorem put_serves (h : Serves id L s m) (mal : Bool) (data : Option (List UInt8)) (size : UInt32)
    (priority : Int32) :
    (s.call id (.put mal data size priority)).2 = (L.call m (.put mal data size priority)).2 ∧
      Serves id L (s.call id (.put mal data size priority)).1
        (L.call m (.put mal data size priority)).1 := by
  obtain ⟨ls, hq⟩ := h
  have hserves : Serves id L s m := ⟨ls, hq⟩
  cases data with
  | none =>
    rw [Os.call, Limits.call, gw_pri_queue_put, if_neg hq.valid]
    dsimp only
    refine ⟨rfl, serves_counters hserves ?_⟩
    exact fun _ => rfl
  | some data =>
    rw [Os.call, Limits.call]
    by_cases ha : L.Accepts m mal size priority
    · obtain ⟨hcode, hput⟩ := put_accepted hserves data ha
      rw [if_pos ha, hcode]
      exact ⟨rfl, hput⟩
    · rw [if_neg ha, gw_pri_queue_put, if_neg hq.valid]
      dsimp only
      split_ifs with hsize hrange hfull hmem
      case neg =>
        -- every test was passed
        have hlow : 0 ≤ priority := Int32.not_lt.mp fun hn => hrange (Or.inl hn)
        have hhigh : priority.toNatClampNeg < L.pri_num := by
          rw [clamp_lt hlow, hq.pri_num] at hrange
          omega
        rw [hq.data_size, UInt32.lt_iff_toNat_lt] at hsize
        rw [hq.depth, UInt32.le_iff_toNat_le, list_count_eq hq hhigh] at hfull
        refine absurd ⟨?_, hlow, hhigh, Nat.not_le.mp hfull, by simpa using hmem⟩ ha
        exact UInt32.le_iff_toNat_le.mpr (Nat.not_lt.mp hsize)
      all_goals
        dsimp only
        refine ⟨rfl, serves_counters hserves ?_⟩
        exact fun _ => rfl

/-- A get that does not try, or finds no message, changes only its error count. -/
theorem get_fails (h : Serves id L s m) (size : UInt32) {timeout : Int32}
    (ht : timeout < GW_OSAL_WAIT_FOREVER ∨ total m L.pri_num = 0) :
    (s.call id (.get false size timeout)).2 = (L.call m (.get false size timeout)).2 ∧
      Serves id L (s.call id (.get false size timeout)).1
        (L.call m (.get false size timeout)).1 := by
  obtain ⟨ls, hq⟩ := h
  have hserves : Serves id L s m := ⟨ls, hq⟩
  have hspec : L.call m (.get false size timeout) =
      (m, if timeout = GW_OSAL_WAIT_FOREVER then .waits else .get ⟨.ERR, none, none⟩) := by
    rw [Limits.call]
    split
    · rename_i hlow
      rw [if_neg]
      rintro rfl
      exact Int32.lt_irrefl hlow
    · rename_i hlow
      rw [front_none (highest_none_iff.mpr (ht.resolve_left hlow))]
  have hfailed : Serves id L (s.edit_queue id .get_fails) m := serves_counters hserves fun _ => rfl
  rw [hspec, Os.call, gw_pri_queue_get, if_neg hq.valid, if_neg Bool.false_ne_true]
  rcases wait_fails hq ht with hwait | ⟨hforever, hwait⟩
  · rw [hwait]
    by_cases hforever : timeout = GW_OSAL_WAIT_FOREVER
    · rw [if_pos hforever, if_pos hforever]
      exact ⟨rfl, hserves⟩
    · rw [if_neg hforever, if_neg hforever]
      exact ⟨rfl, hfailed⟩
  · rw [hwait, if_neg hforever]
    exact ⟨rfl, hfailed⟩

/-- A get that is let in takes the oldest message of the highest priority. -/
theorem get_takes (h : Serves id L s m) (size : UInt32) {timeout : Int32}
    (ht : ¬ timeout < GW_OSAL_WAIT_FOREVER) (hm : total m L.pri_num ≠ 0) :
    (s.call id (.get false size timeout)).2 = (L.call m (.get false size timeout)).2 ∧
      Serves id L (s.call id (.get false size timeout)).1
        (L.call m (.get false size timeout)).1 := by
  obtain ⟨ls, hq⟩ := h
  obtain ⟨k, hk⟩ := Nat.exists_eq_succ_of_ne_zero hm
  rw [hk] at hq
  obtain ⟨i, hi⟩ : ∃ i, highest m L.pri_num = some i :=
    Option.ne_none_iff_exists'.mp fun hn => hm (highest_none_iff.mp hn)
  obtain ⟨x, hfront, hline⟩ := front_eq hi
  obtain ⟨hlt, hne, -⟩ := highest_some hi
  obtain ⟨s', hwait, htable, hq'⟩ := wait_queued hq ht
  -- the list of that priority starts with the node of the message
  obtain ⟨a, as, hls⟩ : ∃ a as, ls i = a :: as := by
    apply List.exists_cons_of_ne_nil
    intro hnil
    exact hne (by rw [hq.messages i hlt, hnil]; rfl)
  have hx : s'.blocks a = x := by
    have hhead := hq'.messages i hlt
    rw [hls, hline] at hhead
    exact (List.cons.inj hhead).1.symm
  have hfirst : (s.gw_osal_queue_table id).first_list
      (s.gw_osal_queue_table id).pri_num.toNatClampNeg = some i := by
    rw [hq.pri_num, first_list_eq hq (Nat.le_refl _), hi]
  have hget := get_cons (hls ▸ hq'.lists i hlt)
  have hserves : Serves id L
      (s'.unlink_message id i a (gw_lst_delete s'.nodes ((s'.gw_osal_queue_table id).queue_list i) a))
      (drop m i) := by
    have hdrop := total_drop hlt hne
    have hunlinked := unlink_queued hq' hlt hls
    rw [show k = total (drop m i) L.pri_num by omega] at hunlinked
    exact ⟨_, hunlinked⟩
  have hwhole : x.data.take x.size.toNat = x.data :=
    List.take_of_length_le (hq.whole i hlt x (by rw [hline]; exact List.mem_cons_self))
  rw [htable] at hget hserves
  have hgot : gw_pri_queue_get s id false size timeout =
      let s := s'.unlink_message id i a
        (gw_lst_delete s'.nodes ((s.gw_osal_queue_table id).queue_list i) a)
      some (if size < x.size then
        (s.edit_queue id fun q => { q.get_fails with get_data_long := q.get_data_long + 1 },
          ⟨.ERR, some x.size, none⟩)
      else (s, ⟨.OK, some x.size, some x.data⟩)) := by
    rw [gw_pri_queue_get, if_neg hq.valid, if_neg Bool.false_ne_true, hwait]
    simp only [Option.bind_eq_bind, Option.bind_some, htable, hfirst, hget, hx]
    have hblock : (s'.unlink_message id i a
        (gw_lst_delete s'.nodes ((s.gw_osal_queue_table id).queue_list i) a)).blocks a = x := hx
    rw [if_neg (fun hn => hn rfl), hblock, hwhole]
    split <;> rfl
  rw [Limits.call, if_neg ht, hfront, Os.call, hgot]
  dsimp only
  unfold Block.read
  split
  · refine ⟨rfl, ?_⟩
    dsimp only
    apply serves_counters hserves
    exact fun _ => rfl
  · exact ⟨rfl, hserves⟩

/-- Each call is answered as the abstract queue answers it. -/
theorem call_serves (h : Serves id L s m) (c : Call) :
    (s.call id c).2 = (L.call m c).2 ∧ Serves id L (s.call id c).1 (L.call m c).1 := by
  cases c with
  | put mal data size priority => exact put_serves h mal data size priority
  | get data_null size timeout =>
    cases data_null with
    | true =>
      obtain ⟨ls, hq⟩ := h
      have hserves : Serves id L s m := ⟨ls, hq⟩
      rw [Os.call, gw_pri_queue_get, if_neg hq.valid, if_pos rfl, Limits.call]
      refine ⟨rfl, ?_⟩
      dsimp only
      apply serves_counters hserves
      exact fun _ => rfl
    | false =>
      by_cases ht : timeout < GW_OSAL_WAIT_FOREVER
      · exact get_fails h size (Or.inl ht)
      · by_cases hm : total m L.pri_num = 0
        · exact get_fails h size (Or.inr hm)
        · exact get_takes h size ht hm

/-! ## A new queue -/

/-- What the loop over the priorities leaves. -/
structure Listed (s s' : Os) (id n : Nat) : Prop where
  sems : s'.gw_osal_count_sem_table = s.gw_osal_count_sem_table
  sem_id : (s'.gw_osal_queue_table id).cnt_sem_id = (s.gw_osal_queue_table id).cnt_sem_id
  lists : ∀ j < n, (s'.gw_osal_queue_table id).queue_list j = gw_lst_init

theorem mutex_init_queues (os mut_id_null : Bool) (mut_name : Option (List Char)) :
    (gw_mutex_init os s mut_id_null mut_name).1.gw_osal_queue_table = s.gw_osal_queue_table ∧
      (gw_mutex_init os s mut_id_null mut_name).1.gw_osal_count_sem_table =
        s.gw_osal_count_sem_table := by
  unfold gw_mutex_init
  split
  · split
    · exact ⟨rfl, rfl⟩
    · split
      · exact ⟨rfl, rfl⟩
      · split_ifs <;> exact ⟨rfl, rfl⟩
  · exact ⟨rfl, rfl⟩

theorem create_priority_listed (os : Nat → Bool) (queue_name : List Char) {s₀ : Os} {n : Nat}
    (h : Listed s₀ s id n) : Listed s₀ (s.create_priority os queue_name id n) id (n + 1) := by
  obtain ⟨hqueues, hsems⟩ := mutex_init_queues (s := s.edit_queue id (.set_list n gw_lst_init))
    (os n) false (some (mutex_name queue_name n))
  -- the list is made, whether or not the mutex is
  have hlist : ∀ j < n + 1,
      ((s.gw_osal_queue_table id).set_list n gw_lst_init).queue_list j = gw_lst_init := by
    intro j hj
    rw [osal_queue_record_t.set_list]
    by_cases hjn : j = n
    · subst hjn
      exact update_self _ _ _
    · exact (update_of_ne hjn _ _).trans (h.lists j (by omega))
  have hrecord : (s.edit_queue id (.set_list n gw_lst_init)).gw_osal_queue_table id =
      (s.gw_osal_queue_table id).set_list n gw_lst_init := edit_queue_self _
  have hsame : ∀ s' : Os, s'.gw_osal_count_sem_table = s.gw_osal_count_sem_table →
      (s'.gw_osal_queue_table id).core =
        ((s.gw_osal_queue_table id).set_list n gw_lst_init).core → Listed s₀ s' id (n + 1) := by
    intro s' hsems' hcore
    refine ⟨hsems'.trans h.sems, (congrArg Core.cnt_sem_id hcore).trans h.sem_id, ?_⟩
    intro j hj
    exact (congrFun (congrArg Core.queue_list hcore) j).trans (hlist j hj)
  unfold Os.create_priority
  dsimp only
  split
  · rename_i s' _ m heq
    rw [heq] at hqueues hsems
    refine hsame _ hsems ?_
    rw [edit_queue_self]
    change (s'.gw_osal_queue_table id).core = _
    exact congrArg osal_queue_record_t.core ((congrFun hqueues id).trans hrecord)
  · rename_i s' _ heq
    rw [heq] at hqueues hsems
    exact hsame _ hsems (congrArg osal_queue_record_t.core ((congrFun hqueues id).trans hrecord))

theorem create_priorities_listed (s : Os) (os : Nat → Bool) (queue_name : List Char) (id n : Nat) :
    Listed s ((List.range n).foldl (Os.create_priority os queue_name id) s) id n := by
  induction n with
  | zero => exact ⟨rfl, rfl, nofun⟩
  | succ n ih =>
    rw [List.range_succ, List.foldl_append]
    exact create_priority_listed os queue_name ih

theorem semaphore_init_some {os : Bool} {null : Bool} {name : Option (List Char)} {v : UInt32}
    {s' : Os} {code : GW_E_OSAL} {sem : Nat}
    (h : gw_semaphore_init os s null name v = (s', code, some sem)) :
    sem < GW_OSAL_MAX_COUNT_SEM ∧ (s.gw_osal_count_sem_table sem).free = true ∧
      ∃ name, s' = s.set_sem sem ⟨false, v.toNat, name⟩ := by
  unfold gw_semaphore_init at h
  split at h
  · split at h
    · cases h
    · split at h
      · cases h
      · rename_i id hid
        split at h
        · cases h
        · cases h
          have hfree := List.find?_some hid
          have hlt := List.mem_range.mp (List.mem_of_find?_eq_some hid)
          exact ⟨hlt, hfree, _, rfl⟩
  · cases h

/-- A queue that was made is empty, whatever the tables were. -/
theorem create_serves {sem_os : Bool} {mut_os : Nat → Bool} {null : Bool} {name : Option (List Char)}
    {queue_depth data_size : UInt32} {pri_num : Int32} {s' : Os}
    (h : gw_pri_queue_create sem_os mut_os s null name queue_depth data_size pri_num =
      (s', .OK, some id)) :
    Serves id ⟨queue_depth, data_size, pri_num.toNatClampNeg⟩ s' (fun _ => []) := by
  unfold gw_pri_queue_create at h
  split at h
  case h_2 => cases h
  rename_i queue_name
  split at h
  · cases h
  split at h
  · cases h
  split at h
  · cases h
  split at h
  · cases h
  rename_i qid hqid
  split at h
  · cases h
  rename_i s₁ code sem hsem
  obtain ⟨hlt, -, sem_name, rfl⟩ := semaphore_init_some hsem
  have hloop := create_priorities_listed
    ((s.set_sem sem ⟨false, (0 : UInt32).toNat, sem_name⟩).edit_queue qid
      fun q => { q with cnt_sem_id := sem }) mut_os queue_name qid pri_num.toNatClampNeg
  dsimp only at h
  generalize hs₂ : (List.range pri_num.toNatClampNeg).foldl _ _ = s₂ at h hloop
  cases h
  have hused : s₂.gw_osal_count_sem_table sem = ⟨false, (0 : UInt32).toNat, sem_name⟩ := by
    rw [hloop.sems]
    exact update_self _ _ _
  have hsem_id : (s₂.gw_osal_queue_table id).cnt_sem_id = sem := by
    rw [hloop.sem_id, edit_queue_self]
  have hrange := List.mem_range.mp (List.mem_of_find?_eq_some hqid)
  have hrecord : (s₂.edit_queue id (.fill queue_name queue_depth data_size pri_num)).gw_osal_queue_table
      id = (s₂.gw_osal_queue_table id).fill queue_name queue_depth data_size pri_num :=
    edit_queue_self _
  refine ⟨fun _ => [], ⟨?_, ?_, ?_, ?_, ?_, ?_, ?_, ?_, ?_, ?_, ?_, ?_, ?_⟩⟩
  · rw [Os.Invalid, hrecord]
    rintro (hmax | hfree | htype)
    · exact Nat.not_lt.mpr hmax hrange
    · cases hfree
    · exact htype rfl
  · rw [hrecord]
    exact UInt32.toUInt32_toInt32 data_size
  · rw [hrecord]
    exact UInt32.toUInt32_toInt32 queue_depth
  · rw [hrecord]
    rfl
  · rw [hrecord]
    exact hsem_id ▸ hlt
  · rw [hrecord]
    change (s₂.gw_osal_count_sem_table (s₂.gw_osal_queue_table id).cnt_sem_id).free = false
    rw [hsem_id, hused]
  · rw [Os.posted, hrecord, total_empty]
    change (s₂.gw_osal_count_sem_table (s₂.gw_osal_queue_table id).cnt_sem_id).value = 0
    rw [hsem_id, hused]
    rfl
  · intro i hi
    rw [hrecord]
    change Represents _ ((s₂.gw_osal_queue_table id).queue_list i) []
    rw [hloop.lists i hi]
    exact init_represents _
  all_goals simp

end

/-! ## Over whole runs -/

/-- The queue `id` in the tables `s` is a new queue within `L`, for all that its
callers can tell from the calls `cs`. -/
structure BehavesAs (id : Nat) (L : Limits) (s : Os) (cs : List Call) : Prop where
  answers : outputs (Os.call id) s cs = outputs L.call (fun _ => []) cs
  contents : ∀ i < L.pri_num,
    (run (next (Os.call id)) s cs).held id i = run (next L.call) (fun _ => []) cs i
  semaphore : (run (next (Os.call id)) s cs).posted id =
    total ((run (next (Os.call id)) s cs).held id) L.pri_num
  finds : (run (next (Os.call id)) s cs).posted id ≠ 0 → ∀ size timeout,
    ¬ timeout < GW_OSAL_WAIT_FOREVER →
      ∃ i x, front ((run (next (Os.call id)) s cs).held id) L.pri_num = some (i, x) ∧
        ((run (next (Os.call id)) s cs).call id (.get false size timeout)).2 = .get (x.read size)

theorem serves_total {id : Nat} {L : Limits} {s : Os} {m : Fifos Block} (h : Serves id L s m) :
    s.posted id = total (s.held id) L.pri_num := by
  obtain ⟨ls, hq⟩ := h
  rw [hq.sem]
  exact total_congr fun i hi => by rw [held_eq hq hi]

theorem serves_front {id : Nat} {L : Limits} {s : Os} {m : Fifos Block} (h : Serves id L s m) :
    front (s.held id) L.pri_num = front m L.pri_num := by
  obtain ⟨ls, hq⟩ := h
  exact front_congr fun i hi => held_eq hq hi

/-- A get that is let in finds the message that is first. -/
theorem serves_finds {id : Nat} {L : Limits} {s : Os} {m : Fifos Block} (h : Serves id L s m)
    (hs : s.posted id ≠ 0) (size : UInt32) {timeout : Int32}
    (ht : ¬ timeout < GW_OSAL_WAIT_FOREVER) :
    ∃ i x, front (s.held id) L.pri_num = some (i, x) ∧
      (s.call id (.get false size timeout)).2 = .get (x.read size) := by
  have hm : total m L.pri_num ≠ 0 := by
    obtain ⟨ls, hq⟩ := h
    exact hq.sem ▸ hs
  obtain ⟨i, hi⟩ : ∃ i, highest m L.pri_num = some i :=
    Option.ne_none_iff_exists'.mp fun hn => hm (highest_none_iff.mp hn)
  obtain ⟨x, hfront, -⟩ := front_eq hi
  refine ⟨i, x, (serves_front h).trans hfront, ?_⟩
  rw [(get_takes h size ht hm).1, Limits.call, if_neg ht, hfront]

/-- A priority queue gives out the oldest message of the highest priority, takes
what fits while there is room and memory, and counts in its semaphore what it holds. -/
theorem a_priority_queue_serves_the_oldest_of_the_highest {sem_os : Bool} {mut_os : Nat → Bool}
    {s s' : Os} {null : Bool} {name : Option (List Char)} {queue_depth data_size : UInt32}
    {pri_num : Int32} {id : Nat}
    (h : gw_pri_queue_create sem_os mut_os s null name queue_depth data_size pri_num =
      (s', .OK, some id)) (cs : List Call) :
    BehavesAs id ⟨queue_depth, data_size, pri_num.toNatClampNeg⟩ s' cs := by
  obtain ⟨hanswers, hrun⟩ := outputs_eq (f := Os.call id) (g := Limits.call _)
    (R := Serves id _) (fun s m c hs => call_serves hs c) (create_serves h) cs
  refine ⟨hanswers, ?_, serves_total hrun, fun hs size timeout ht => serves_finds hrun hs size ht⟩
  intro i hi
  obtain ⟨ls, hq⟩ := hrun
  exact held_eq hq hi

/-- A queue of two priorities, with room for four messages at each. -/
def smallQueue : Os × GW_E_OSAL × Option Nat :=
  gw_pri_queue_create true (fun _ => true) gw_osal_core_init false (some ['q']) 4 16 2

/-- Two messages wait at priority 0, then one at 1; a get with no room for it loses the last. -/
def twoPriorities : List Call :=
  [.put true (some [1, 2]) 2 0, .put true (some [3]) 1 0, .put true (some [4, 5]) 2 1,
    .get false 1 0, .get false 8 (-1), .get false 8 (-1)]

theorem two_priorities_are_served_in_order :
    BehavesAs 0 ⟨4, 16, 2⟩ smallQueue.1 twoPriorities ∧
      (outputs (Limits.call ⟨4, 16, 2⟩) (fun _ => []) twoPriorities).drop 3 =
        [.get ⟨.ERR, some 2, none⟩, .get ⟨.OK, some 2, some [1, 2]⟩,
          .get ⟨.OK, some 1, some [3]⟩] := by
  have hmade : smallQueue = (smallQueue.1, .OK, some 0) := Prod.ext rfl (by decide +kernel)
  exact ⟨a_priority_queue_serves_the_oldest_of_the_highest hmade twoPriorities, by decide +kernel⟩

/-- A message that fits, at a priority with room, is refused when there is no memory. -/
theorem a_put_without_memory_is_refused :
    smallQueue.2 = (.OK, some 0) ∧ smallQueue.1.held 0 1 = [] ∧
      (Os.call 0 smallQueue.1 (.put false (some [7]) 1 1)).2 = .put .ERR := by
  decide +kernel

end gwdonu.os_core
