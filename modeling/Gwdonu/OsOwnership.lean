-- Who owns what in the tables: a priority queue is made with a semaphore and a
-- mutex for each priority. Which entries were made for which queue is written
-- down beside the tables.
import Gwdonu.OsQueue

namespace gwdonu.os_core

open Function util_list fifos runs

/-! ## Runs -/

inductive Event where
  | create (sem_os : Bool) (mut_os : Nat → Bool) (null : Bool) (name : Option (List Char))
      (queue_depth data_size : UInt32) (pri_num : Int32)
  | delete (queue_id : Nat)
  | call (queue_id : Nat) (c : Call)
  | mutex_init (os null : Bool) (name : Option (List Char))
  | mutex_destroy (os : Bool) (mut_id : Nat)
  | semaphore_init (os null : Bool) (name : Option (List Char)) (value : UInt32)
  | semaphore_destroy (os : Bool) (sem_id : Nat)

def Os.event (s : Os) : Event → Os
  | .create sem_os mut_os null name queue_depth data_size pri_num =>
    (gw_pri_queue_create sem_os mut_os s null name queue_depth data_size pri_num).1
  | .delete queue_id => (gw_queue_delete s queue_id).1
  | .call queue_id c => (s.call queue_id c).1
  | .mutex_init os null name => (gw_mutex_init os s null name).1
  | .mutex_destroy os mut_id => (gw_mutex_destroy os s mut_id).1
  | .semaphore_init os null name value => (gw_semaphore_init os s null name value).1
  | .semaphore_destroy os sem_id => (gw_semaphore_destroy os s sem_id).1

/-- The queue that the event makes, with its name and its priorities. -/
def Os.makes (s : Os) : Event → Option (Nat × List Char × Nat)
  | .create sem_os mut_os null name queue_depth data_size pri_num =>
    match (gw_pri_queue_create sem_os mut_os s null name queue_depth data_size pri_num).2.2, name with
    | some queue_id, some name => some (queue_id, name, pri_num.toNatClampNeg)
    | _, _ => none
  | _ => none

/-- The tables, and the queue or the priority that each entry was made for. An
entry that an application made was made for none. -/
structure Ledger where
  os : Os
  sem_of : Nat → Option Nat
  mut_of : Nat → Option (Nat × Nat)

def Ledger.init : Ledger := ⟨gw_osal_core_init, fun _ => none, fun _ => none⟩

/-- The priority whose mutex has this name. -/
def priority_of (queue_name : List Char) (n : Nat) (name : List Char) : Option Nat :=
  (List.range n).find? fun i => name = mutex_name queue_name i

/-- An entry that comes into use was made for the queue that the event makes;
the name of a mutex says which priority it is for. -/
def Ledger.event (l : Ledger) (e : Event) : Ledger :=
  let s := l.os.event e
  { os := s
    sem_of := fun c =>
      if (s.gw_osal_count_sem_table c).free = (l.os.gw_osal_count_sem_table c).free then l.sem_of c
      else if (s.gw_osal_count_sem_table c).free = true then none
      else (l.os.makes e).map fun q => q.1
    mut_of := fun m =>
      if (s.gw_osal_mut_table m).free = (l.os.gw_osal_mut_table m).free then l.mut_of m
      else if (s.gw_osal_mut_table m).free = true then none
      else (l.os.makes e).bind fun q =>
        (priority_of q.2.1 q.2.2 (s.gw_osal_mut_table m).name).map fun i => (q.1, i) }

/-- `i` is a priority of the queue. -/
def Os.Priority (s : Os) (id i : Nat) : Prop :=
  i < (s.gw_osal_queue_table id).pri_num.toNatClampNeg

def Os.sem_id (s : Os) (id : Nat) : Nat := (s.gw_osal_queue_table id).cnt_sem_id

def Os.mutex (s : Os) (id i : Nat) : Nat := (s.gw_osal_queue_table id).queue_mutex i

/-- The semaphore and the mutexes of the queue are used entries, made for it, and
no other queue and no other priority uses them. -/
structure Ledger.Owns (l : Ledger) (id : Nat) : Prop where
  sem_used : l.os.sem_id id < GW_OSAL_MAX_COUNT_SEM ∧
    (l.os.gw_osal_count_sem_table (l.os.sem_id id)).free = false
  sem_made : l.sem_of (l.os.sem_id id) = some id
  sem_alone : ∀ id', ¬ l.os.Invalid id' → l.os.sem_id id' = l.os.sem_id id → id' = id
  mut_used : ∀ i, l.os.Priority id i → l.os.mutex id i < GW_OSAL_MAX_MUTEX ∧
    (l.os.gw_osal_mut_table (l.os.mutex id i)).free = false
  mut_made : ∀ i, l.os.Priority id i → l.mut_of (l.os.mutex id i) = some (id, i)
  mut_alone : ∀ i, l.os.Priority id i → ∀ id' i', ¬ l.os.Invalid id' → l.os.Priority id' i' →
    l.os.mutex id' i' = l.os.mutex id i → id' = id ∧ i' = i

/-- Every priority queue owns its locks. -/
def Ledger.Sound (l : Ledger) : Prop := ∀ id, ¬ l.os.Invalid id → l.Owns id

/-- What the queue `id` had in `s` is free in `s'`. -/
structure GivesBack (s s' : Os) (id : Nat) : Prop where
  sem : (s'.gw_osal_count_sem_table (s.sem_id id)).free = true
  muts : ∀ i, s.Priority id i → (s'.gw_osal_mut_table (s.mutex id i)).free = true
  messages : ∀ i, s.Priority id i → ∀ a ∈ gw_lst_nodes s.nodes s.next
    (gw_lst_first ((s.gw_osal_queue_table id).queue_list i)), s'.live a = false

/-- The event leaves each queue with its locks, and a delete gives back what the queue had. -/
def Ledger.Keeps (l : Ledger) (e : Event) : Prop :=
  (l.event e).Sound ∧
    ∀ id, e = .delete id → ¬ l.os.Invalid id → GivesBack l.os (l.event e).os id

/-! ## The steps that keep the locks -/

def Os.free_mutexes (s : Os) : Nat :=
  (List.range GW_OSAL_MAX_MUTEX).countP fun m => (s.gw_osal_mut_table m).free

/-- A create with these arguments makes a queue. -/
structure Os.Creates (s : Os) (sem_os null : Bool) (name : List Char)
    (queue_depth data_size : UInt32) (pri_num : Int32) : Prop where
  pointer : null = false
  depth : queue_depth ≠ 0
  size : data_size ≠ 0
  low : 0 < pri_num
  high : pri_num ≤ GW_OSAL_MAX_QUEUE_PRI
  short : name.length < GW_OSAL_MAX_API_NAME
  queue : ∃ i < GW_OSAL_MAX_QUEUE, (s.gw_osal_queue_table i).free = true
  sem : ∃ c < GW_OSAL_MAX_COUNT_SEM, (s.gw_osal_count_sem_table c).free = true
  sem_os : sem_os = true

/-- There is a mutex for each of `n` priorities: its name is short enough and is
not in use, and enough entries are free. -/
structure Os.HasMutexes (s : Os) (mut_os : Nat → Bool) (name : List Char) (n : Nat) : Prop where
  short : name.length ≤ 15
  enough : n ≤ s.free_mutexes
  untaken : ∀ i < n, ∀ m < GW_OSAL_MAX_MUTEX, (s.gw_osal_mut_table m).free = false →
    mutex_name name i ≠ (s.gw_osal_mut_table m).name
  os : ∀ i < n, mut_os i = true

/-- A queue is made with all its mutexes, no priority queue is deleted, and no
lock of a queue is destroyed. -/
def Os.Careful (s : Os) : Event → Prop
  | .create sem_os mut_os null name queue_depth data_size pri_num =>
    ∀ name' ∈ name, s.Creates sem_os null name' queue_depth data_size pri_num →
      s.HasMutexes mut_os name' pri_num.toNatClampNeg
  | .delete queue_id => s.Invalid queue_id
  | .mutex_destroy os mut_id =>
    os = true → ∀ id i, ¬ s.Invalid id → s.Priority id i → s.mutex id i ≠ mut_id
  | .semaphore_destroy os sem_id => os = true → ∀ id, ¬ s.Invalid id → s.sem_id id ≠ sem_id
  | _ => True

/-! ## Names -/

theorem mutex_name_length (queue_name : List Char) {i : Nat} (hi : i < 10) :
    (mutex_name queue_name i).length = queue_name.length + 5 := by
  rw [mutex_name, Nat.toDigits_of_lt_base hi]
  simp

theorem digits_inj : ∀ i < 10, ∀ j < 10, Nat.toDigits 10 i = Nat.toDigits 10 j → i = j := by
  decide

theorem mutex_name_inj {queue_name : List Char} {i j : Nat} (hi : i < 10) (hj : j < 10)
    (h : mutex_name queue_name i = mutex_name queue_name j) : i = j := by
  rw [mutex_name, mutex_name] at h
  exact digits_inj i hi j hj (List.cons.inj (List.append_cancel_left h)).2

theorem priority_of_eq {queue_name : List Char} {n i : Nat} (hi : i < n) (hn : n ≤ 10) :
    priority_of queue_name n (mutex_name queue_name i) = some i := by
  rw [priority_of, List.find?_range_eq_some]
  refine ⟨by simp, List.mem_range.mpr hi, ?_⟩
  intro j hj
  have hne : mutex_name queue_name i ≠ mutex_name queue_name j :=
    fun he => Nat.ne_of_lt hj (mutex_name_inj (by omega) (by omega) he).symm
  simpa using hne

/-! ## Mutexes -/

section
variable {s : Os}

@[simp] theorem set_mut_self (m : Nat) (r : osal_mut_record_t) :
    (s.set_mut m r).gw_osal_mut_table m = r := update_self _ _ _

theorem set_mut_other {m k : Nat} (h : k ≠ m) (r : osal_mut_record_t) :
    (s.set_mut m r).gw_osal_mut_table k = s.gw_osal_mut_table k := update_of_ne h _ _

/-- The entry `m` comes into use under this name. -/
structure Os.Takes (s : Os) (os : Bool) (name : List Char) (m : Nat) : Prop where
  known : m < GW_OSAL_MAX_MUTEX
  free : (s.gw_osal_mut_table m).free = true
  short : name.length ≤ GW_OSAL_MAX_API_NAME
  untaken : ∀ k < GW_OSAL_MAX_MUTEX, (s.gw_osal_mut_table k).free = false →
    name ≠ (s.gw_osal_mut_table k).name
  os : os = true

/-- What `gw_mutex_init` can do. -/
inductive Os.Inits (s : Os) (os : Bool) (name : Option (List Char)) :
    Os × GW_E_OSAL × Option Nat → Prop
  | refuses (code : GW_E_OSAL) : s.Inits os name (s, code, none)
  | fails (m : Nat) : (s.gw_osal_mut_table m).free = true →
      s.Inits os name (s.set_mut m free_mut, .ERR, none)
  | makes (nm : List Char) (m : Nat) : name = some nm → s.Takes os nm m →
      s.Inits os name (s.set_mut m ⟨false, nm⟩, .OK, some m)

theorem first_free_some {free : Nat → Bool} {max i : Nat} (h : first_free free max = some i) :
    i < max ∧ free i = true :=
  ⟨List.mem_range.mp (List.mem_of_find?_eq_some h), List.find?_some h⟩

theorem first_free_none {free : Nat → Bool} {max : Nat} :
    first_free free max = none ↔ ∀ i < max, free i = false := by
  simp [first_free]

theorem mutex_inits (os null : Bool) (name : Option (List Char)) :
    s.Inits os name (gw_mutex_init os s null name) := by
  unfold gw_mutex_init
  split
  · rename_i nm
    split
    · exact .refuses _
    · rename_i hshort
      split
      · exact .refuses _
      · rename_i m hm
        obtain ⟨hlt, hfree⟩ := first_free_some hm
        split
        · exact .refuses _
        · rename_i htaken
          split
          · exact .fails m hfree
          · rename_i hos
            refine .makes nm m rfl ⟨hlt, hfree, Nat.not_lt.mp hshort, ?_, by simpa using hos⟩
            exact fun k hk hused he => htaken ⟨k, hk, hused, he⟩
  · exact .refuses _

/-- A short name that is not in use gets an entry, when one is free. -/
theorem mutex_init_makes {name : List Char} (hshort : name.length ≤ GW_OSAL_MAX_API_NAME)
    (hfree : 0 < s.free_mutexes)
    (huntaken : ∀ k < GW_OSAL_MAX_MUTEX, (s.gw_osal_mut_table k).free = false →
      name ≠ (s.gw_osal_mut_table k).name) :
    ∃ m, s.Takes true name m ∧
      gw_mutex_init true s false (some name) = (s.set_mut m ⟨false, name⟩, .OK, some m) := by
  obtain ⟨k, hk, hkfree⟩ := List.countP_pos_iff.mp hfree
  cases hfirst : first_free (fun m => (s.gw_osal_mut_table m).free) GW_OSAL_MAX_MUTEX with
  | none =>
    rw [first_free_none.mp hfirst k (List.mem_range.mp hk)] at hkfree
    cases hkfree
  | some m =>
    obtain ⟨hlt, hm⟩ := first_free_some hfirst
    refine ⟨m, ⟨hlt, hm, hshort, huntaken, rfl⟩, ?_⟩
    have htaken : ¬ ∃ i < GW_OSAL_MAX_MUTEX, (s.gw_osal_mut_table i).free = false ∧
        name = (s.gw_osal_mut_table i).name :=
      fun ⟨i, hi, hused, he⟩ => huntaken i hi hused he
    unfold gw_mutex_init
    dsimp only
    rw [if_neg (Nat.not_lt.mpr hshort), hfirst]
    dsimp only
    rw [if_neg htaken, if_neg Bool.true_eq_false.mp]

theorem countP_update {p p' : Nat → Bool} {n m : Nat} (hm : m < n) (hp : p m = true)
    (hp' : p' m = false) (hsame : ∀ k, k ≠ m → p' k = p k) :
    (List.range n).countP p' + 1 = (List.range n).countP p := by
  induction n with
  | zero => omega
  | succ n ih =>
    rw [List.range_succ, List.countP_append, List.countP_append, List.countP_singleton,
      List.countP_singleton]
    by_cases hmn : m = n
    · subst hmn
      have hrest : (List.range m).countP p' = (List.range m).countP p :=
        List.countP_congr fun k hk => by rw [hsame k (Nat.ne_of_lt (List.mem_range.mp hk))]
      rw [hrest, hp, hp']
      simp
    · rw [hsame n (Ne.symm hmn)]
      have := ih (by omega)
      omega

/-- An entry that comes into use is one less that is free. -/
theorem takes_count {os : Bool} {name : List Char} {m : Nat} (h : s.Takes os name m) :
    (s.set_mut m ⟨false, name⟩).free_mutexes + 1 = s.free_mutexes := by
  refine countP_update h.known h.free ?_ ?_
  · rw [set_mut_self]
  · intro k hk
    rw [set_mut_other hk]

/-! ## The mutexes of a new queue -/

section
variable {s₀ : Os} {mut_os : Nat → Bool} {name : List Char} {qid n : Nat}

/-- What one turn of the loop does to the mutexes. -/
inductive Os.Turn (s : Os) (mut_os : Nat → Bool) (name : List Char) (qid i : Nat) : Os → Prop
  | refuses : s.Turn mut_os name qid i (s.edit_queue qid (.set_list i gw_lst_init))
  | fails (m : Nat) : (s.gw_osal_mut_table m).free = true →
      s.Turn mut_os name qid i ((s.set_mut m free_mut).edit_queue qid (.set_list i gw_lst_init))
  | makes (m : Nat) : s.Takes (mut_os i) (mutex_name name i) m →
      s.Turn mut_os name qid i (((s.set_mut m ⟨false, mutex_name name i⟩).edit_queue qid
        (.set_list i gw_lst_init)).edit_queue qid (.set_mutex i m))

theorem create_priority_turn (mut_os : Nat → Bool) (name : List Char) (qid i : Nat) :
    s.Turn mut_os name qid i (s.create_priority mut_os name qid i) := by
  have hinits := mutex_inits (s := s.edit_queue qid (.set_list i gw_lst_init)) (mut_os i) false
    (some (mutex_name name i))
  unfold Os.create_priority
  dsimp only
  generalize gw_mutex_init _ _ _ _ = r at hinits
  cases hinits with
  | refuses => exact .refuses
  | fails m hm => exact .fails m hm
  | makes nm m hnm htakes =>
    obtain rfl := Option.some.inj hnm
    exact .makes m ⟨htakes.known, htakes.free, htakes.short, htakes.untaken, htakes.os⟩

/-- What the loop leaves after `n` turns: the queue's record has changed in its
lists and its mutexes, and entries that have come into use are named for it. -/
structure Turned (mut_os : Nat → Bool) (name : List Char) (qid : Nat) (s₀ s : Os) (n : Nat) :
    Prop where
  sems : s.gw_osal_count_sem_table = s₀.gw_osal_count_sem_table
  others : ∀ id, id ≠ qid → s.gw_osal_queue_table id = s₀.gw_osal_queue_table id
  sem_id : s.sem_id qid = s₀.sem_id qid
  muts : ∀ m, s.gw_osal_mut_table m = s₀.gw_osal_mut_table m ∨
    (s₀.gw_osal_mut_table m).free = true ∧ ((s.gw_osal_mut_table m).free = true ∨
      ∃ i < n, s.gw_osal_mut_table m = ⟨false, mutex_name name i⟩ ∧
        s₀.Takes (mut_os i) (mutex_name name i) m)

theorem edit_queue_other {id : Nat} (h : id ≠ qid) (f : osal_queue_record_t → osal_queue_record_t) :
    (s.edit_queue qid f).gw_osal_queue_table id = s.gw_osal_queue_table id := update_of_ne h _ _

theorem edit_sem_id (id : Nat) {f : osal_queue_record_t → osal_queue_record_t}
    (hf : ∀ q, (f q).cnt_sem_id = q.cnt_sem_id) : (s.edit_queue qid f).sem_id id = s.sem_id id := by
  rw [Os.sem_id, Os.sem_id]
  by_cases hid : id = qid
  · subst hid
    rw [edit_queue_self, hf]
  · rw [edit_queue_other hid]

/-- An entry in use stays as it is. -/
theorem Turned.used (h : Turned mut_os name qid s₀ s n) {m : Nat}
    (hm : (s₀.gw_osal_mut_table m).free = false) :
    s.gw_osal_mut_table m = s₀.gw_osal_mut_table m := by
  rcases h.muts m with hsame | ⟨hfree, -⟩
  · exact hsame
  · rw [hm] at hfree
    cases hfree

theorem Turned.free (h : Turned mut_os name qid s₀ s n) {m : Nat}
    (hm : (s.gw_osal_mut_table m).free = true) : (s₀.gw_osal_mut_table m).free = true := by
  rcases h.muts m with hsame | ⟨hfree, -⟩
  · rwa [hsame] at hm
  · exact hfree

/-- An entry that is free in the middle of the loop was free before it. -/
theorem Turned.takes (h : Turned mut_os name qid s₀ s n) {os : Bool} {nm : List Char} {m : Nat}
    (ht : s.Takes os nm m) : s₀.Takes os nm m := by
  refine ⟨ht.known, h.free ht.free, ht.short, ?_, ht.os⟩
  intro k hk hused
  have hsame := h.used hused
  rw [← hsame]
  exact ht.untaken k hk (by rw [hsame]; exact hused)

theorem turned_zero : Turned mut_os name qid s s 0 :=
  ⟨rfl, fun _ _ => rfl, rfl, fun _ => Or.inl rfl⟩

theorem Turned.weaken (h : Turned mut_os name qid s₀ s n) {s' : Os}
    (hsems : s'.gw_osal_count_sem_table = s.gw_osal_count_sem_table)
    (hothers : ∀ id, id ≠ qid → s'.gw_osal_queue_table id = s.gw_osal_queue_table id)
    (hsem : s'.sem_id qid = s.sem_id qid)
    (hmuts : ∀ m, s'.gw_osal_mut_table m = s.gw_osal_mut_table m ∨
      (s.gw_osal_mut_table m).free = true ∧ ((s'.gw_osal_mut_table m).free = true ∨
        s'.gw_osal_mut_table m = ⟨false, mutex_name name n⟩ ∧
          s.Takes (mut_os n) (mutex_name name n) m)) :
    Turned mut_os name qid s₀ s' (n + 1) := by
  refine ⟨hsems.trans h.sems, fun id hid => (hothers id hid).trans (h.others id hid),
    hsem.trans h.sem_id, ?_⟩
  intro m
  rcases hmuts m with hsame | ⟨hfree, hstill | ⟨hmade, htakes⟩⟩
  · rw [hsame]
    rcases h.muts m with hold | ⟨hm, hfree | ⟨i, hi, hmade⟩⟩
    · exact Or.inl hold
    · exact Or.inr ⟨hm, Or.inl hfree⟩
    · exact Or.inr ⟨hm, Or.inr ⟨i, Nat.lt_succ_of_lt hi, hmade⟩⟩
  · exact Or.inr ⟨h.free hfree, Or.inl hstill⟩
  · exact Or.inr ⟨h.free hfree, Or.inr ⟨n, Nat.lt_succ_self n, hmade, h.takes htakes⟩⟩

theorem turn_turned (h : Turned mut_os name qid s₀ s n) {s' : Os}
    (ht : s.Turn mut_os name qid n s') : Turned mut_os name qid s₀ s' (n + 1) := by
  cases ht with
  | refuses =>
    refine h.weaken rfl (fun id hid => edit_queue_other hid _) ?_ (fun _ => Or.inl rfl)
    exact edit_sem_id _ fun _ => rfl
  | fails m hm =>
    refine h.weaken rfl (fun id hid => edit_queue_other hid _) ?_ ?_
    · exact edit_sem_id _ fun _ => rfl
    · intro k
      by_cases hk : k = m
      · subst hk
        exact Or.inr ⟨hm, Or.inl (congrArg osal_mut_record_t.free (set_mut_self k free_mut))⟩
      · exact Or.inl (set_mut_other hk _)
  | makes m htakes =>
    refine h.weaken rfl ?_ ?_ ?_
    · exact fun id hid => (edit_queue_other hid _).trans (edit_queue_other hid _)
    · refine (edit_sem_id (f := .set_mutex n m) _ fun _ => rfl).trans ?_
      exact edit_sem_id (f := .set_list n gw_lst_init) _ fun _ => rfl
    · intro k
      by_cases hk : k = m
      · subst hk
        exact Or.inr ⟨htakes.free, Or.inr ⟨set_mut_self k _, htakes⟩⟩
      · exact Or.inl (set_mut_other hk _)

theorem create_priorities_turned (s : Os) (mut_os : Nat → Bool) (name : List Char) (qid n : Nat) :
    Turned mut_os name qid s ((List.range n).foldl (Os.create_priority mut_os name qid) s) n := by
  induction n with
  | zero => exact turned_zero
  | succ n ih =>
    rw [List.range_succ, List.foldl_append]
    exact turn_turned ih (create_priority_turn mut_os name qid n)

/-- After `n` turns that all got a mutex. -/
structure Locked (mut_os : Nat → Bool) (name : List Char) (qid : Nat) (s₀ s : Os) (n : Nat) :
    Prop where
  turned : Turned mut_os name qid s₀ s n
  count : s.free_mutexes + n = s₀.free_mutexes
  made : ∀ i < n, s.mutex qid i < GW_OSAL_MAX_MUTEX ∧
    (s₀.gw_osal_mut_table (s.mutex qid i)).free = true ∧
      s.gw_osal_mut_table (s.mutex qid i) = ⟨false, mutex_name name i⟩

theorem locked_zero : Locked mut_os name qid s s 0 := ⟨turned_zero, rfl, nofun⟩

theorem locked_turn {max : Nat} (hmax : max ≤ 8) (hall : s₀.HasMutexes mut_os name max)
    (h : Locked mut_os name qid s₀ s n) (hn : n < max) :
    Locked mut_os name qid s₀ (s.create_priority mut_os name qid n) (n + 1) := by
  have hlen : (mutex_name name n).length ≤ GW_OSAL_MAX_API_NAME := by
    have hshort := hall.short
    rw [mutex_name_length name (by omega)]
    change _ ≤ 20
    omega
  have hfree : 0 < s.free_mutexes := by
    have henough := hall.enough
    have hcount := h.count
    omega
  -- the names in use are the old ones, and those of the lower priorities
  have huntaken : ∀ k < GW_OSAL_MAX_MUTEX, (s.gw_osal_mut_table k).free = false →
      mutex_name name n ≠ (s.gw_osal_mut_table k).name := by
    intro k hk hused
    rcases h.turned.muts k with hsame | ⟨-, hstill | ⟨i, hi, hmade, -⟩⟩
    · rw [hsame] at hused ⊢
      exact hall.untaken n hn k hk hused
    · rw [hused] at hstill
      cases hstill
    · rw [hmade]
      intro he
      exact Nat.ne_of_lt hi (mutex_name_inj (by omega) (by omega) he).symm
  have hos := hall.os n hn
  obtain ⟨m, htakes, hinit⟩ := mutex_init_makes
    (s := s.edit_queue qid (.set_list n gw_lst_init)) hlen hfree huntaken
  have hturn : s.create_priority mut_os name qid n =
      ((s.set_mut m ⟨false, mutex_name name n⟩).edit_queue qid
        (.set_list n gw_lst_init)).edit_queue qid (.set_mutex n m) := by
    rw [Os.create_priority, hos, hinit]
    rfl
  have hm : s.Takes true (mutex_name name n) m :=
    ⟨htakes.known, htakes.free, htakes.short, htakes.untaken, htakes.os⟩
  have hturned := turn_turned h.turned (create_priority_turn (s := s) mut_os name qid n)
  rw [hturn] at hturned ⊢
  have hmutex : ∀ i, Os.mutex (((s.set_mut m ⟨false, mutex_name name n⟩).edit_queue qid
      (.set_list n gw_lst_init)).edit_queue qid (.set_mutex n m)) qid i =
        update (s.gw_osal_queue_table qid).queue_mutex n m i := by
    intro i
    rw [Os.mutex, edit_queue_self, osal_queue_record_t.set_mutex, edit_queue_self]
    rfl
  refine ⟨hturned, ?_, ?_⟩
  · have hcount := takes_count hm
    have hbefore := h.count
    change (s.set_mut m ⟨false, mutex_name name n⟩).free_mutexes + (n + 1) = _
    omega
  · intro i hi
    rw [hmutex]
    change _ ∧ _ ∧ (s.set_mut m ⟨false, mutex_name name n⟩).gw_osal_mut_table _ = _
    by_cases hin : i = n
    · subst hin
      rw [update_self, set_mut_self]
      exact ⟨hm.known, h.turned.free hm.free, rfl⟩
    · obtain ⟨hknown, hold, hmade⟩ := h.made i (by omega)
      have hne : s.mutex qid i ≠ m := by
        intro he
        have hmfree := hm.free
        rw [← he, hmade] at hmfree
        cases hmfree
      rw [update_of_ne hin]
      exact ⟨hknown, hold, (set_mut_other hne _).trans hmade⟩

/-- With a mutex for each priority, each priority gets one. -/
theorem create_priorities_locked (qid : Nat) {max : Nat} (hmax : max ≤ 8)
    (hall : s.HasMutexes mut_os name max) (hn : n ≤ max) :
    Locked mut_os name qid s ((List.range n).foldl (Os.create_priority mut_os name qid) s) n := by
  induction n with
  | zero => exact locked_zero
  | succ n ih =>
    rw [List.range_succ, List.foldl_append]
    exact locked_turn hmax hall (ih (Nat.le_of_succ_le hn)) hn

end

end

/-! ## What the ledger writes down -/

section
variable {l : Ledger} {e : Event} {qid n : Nat} {name : List Char}

theorem event_sem_same {c : Nat} (h : ((l.os.event e).gw_osal_count_sem_table c).free =
    (l.os.gw_osal_count_sem_table c).free) : (l.event e).sem_of c = l.sem_of c := if_pos h

theorem event_mut_same {m : Nat} (h : ((l.os.event e).gw_osal_mut_table m).free =
    (l.os.gw_osal_mut_table m).free) : (l.event e).mut_of m = l.mut_of m := if_pos h

theorem event_sem_new (hmakes : l.os.makes e = some (qid, name, n)) {c : Nat}
    (hold : (l.os.gw_osal_count_sem_table c).free = true)
    (hnew : ((l.os.event e).gw_osal_count_sem_table c).free = false) :
    (l.event e).sem_of c = some qid := by
  change (if _ then _ else _) = _
  rw [hold, hnew, hmakes, if_neg Bool.false_eq_true.mp, if_neg Bool.false_eq_true.mp]
  rfl

theorem event_mut_new (hmakes : l.os.makes e = some (qid, name, n)) (hn : n ≤ 10) {m i : Nat}
    (hi : i < n) (hold : (l.os.gw_osal_mut_table m).free = true)
    (hnew : (l.os.event e).gw_osal_mut_table m = ⟨false, mutex_name name i⟩) :
    (l.event e).mut_of m = some (qid, i) := by
  change (if _ then _ else _) = _
  rw [hold, hnew, hmakes, if_neg Bool.false_eq_true.mp, if_neg Bool.false_eq_true.mp]
  change (priority_of name n (mutex_name name i)).map _ = _
  rw [priority_of_eq hi hn]
  rfl

/-- What is written down was there, or is of the queue that the event makes. -/
theorem event_mut_some {m q i : Nat} (h : (l.event e).mut_of m = some (q, i)) :
    l.mut_of m = some (q, i) ∨ ∃ made, l.os.makes e = some made ∧ made.1 = q := by
  change (if _ then _ else _) = _ at h
  split at h
  · exact Or.inl h
  split at h
  · cases h
  · obtain ⟨made, hmakes, hpri⟩ := Option.bind_eq_some_iff.mp h
    obtain ⟨j, -, hj⟩ := Option.map_eq_some_iff.mp hpri
    exact Or.inr ⟨made, hmakes, congrArg Prod.fst hj⟩

end

/-! ## Steps that make no queue -/

/-- The invariant of careful runs: a mutex that was made for a priority is one of
a queue that is there. -/
structure Ledger.Good (l : Ledger) : Prop where
  sound : l.Sound
  mut_live : ∀ m q i, l.mut_of m = some (q, i) → ¬ l.os.Invalid q

/-- The locks of a queue are used entries that were made for it. -/
structure Ledger.Has (l : Ledger) (id : Nat) : Prop where
  sem_used : l.os.sem_id id < GW_OSAL_MAX_COUNT_SEM ∧
    (l.os.gw_osal_count_sem_table (l.os.sem_id id)).free = false
  sem_made : l.sem_of (l.os.sem_id id) = some id
  mut_used : ∀ i, l.os.Priority id i → l.os.mutex id i < GW_OSAL_MAX_MUTEX ∧
    (l.os.gw_osal_mut_table (l.os.mutex id i)).free = false
  mut_made : ∀ i, l.os.Priority id i → l.mut_of (l.os.mutex id i) = some (id, i)

/-- What was made for one queue is not used by another one. -/
theorem sound_of_has {l : Ledger} (h : ∀ id, ¬ l.os.Invalid id → l.Has id) : l.Sound := by
  intro id hid
  obtain ⟨hsem, hsem_made, hmut, hmut_made⟩ := h id hid
  refine ⟨hsem, hsem_made, ?_, hmut, hmut_made, ?_⟩
  · intro id' hid' he
    have hmade := (h id' hid').sem_made
    rw [he, hsem_made] at hmade
    exact (Option.some.inj hmade).symm
  · intro i hi id' i' hid' hi' he
    have hmade := (h id' hid').mut_made i' hi'
    rw [he, hmut_made i hi] at hmade
    have hpair := Option.some.inj hmade
    exact ⟨(congrArg Prod.fst hpair).symm, (congrArg Prod.snd hpair).symm⟩

/-- `s'` has the queues of `s`, and the locks of a queue that were in use are. -/
structure Os.Respects (s s' : Os) : Prop where
  invalid : ∀ id, s'.Invalid id ↔ s.Invalid id
  sem_id : ∀ id, ¬ s.Invalid id → s'.sem_id id = s.sem_id id
  pri_num : ∀ id, ¬ s.Invalid id →
    (s'.gw_osal_queue_table id).pri_num = (s.gw_osal_queue_table id).pri_num
  mutex : ∀ id, ¬ s.Invalid id → ∀ i, s'.mutex id i = s.mutex id i
  sems : ∀ id, ¬ s.Invalid id → (s.gw_osal_count_sem_table (s.sem_id id)).free = false →
    (s'.gw_osal_count_sem_table (s.sem_id id)).free = false
  muts : ∀ id i, ¬ s.Invalid id → s.Priority id i →
    (s.gw_osal_mut_table (s.mutex id i)).free = false →
      (s'.gw_osal_mut_table (s.mutex id i)).free = false

theorem respects_good {l : Ledger} {e : Event} (h : l.Good) (hmakes : l.os.makes e = none)
    (hr : l.os.Respects (l.os.event e)) : (l.event e).Good := by
  refine ⟨sound_of_has fun id hid => ?_, ?_⟩
  · have hold : ¬ l.os.Invalid id := fun hi => hid ((hr.invalid id).mpr hi)
    have howns := h.sound id hold
    have hsem_id : (l.event e).os.sem_id id = l.os.sem_id id := hr.sem_id id hold
    have hmutex : ∀ i, (l.event e).os.mutex id i = l.os.mutex id i := hr.mutex id hold
    have hpri : ∀ i, (l.event e).os.Priority id i → l.os.Priority id i := by
      intro i hi
      rw [Os.Priority]
      rw [← hr.pri_num id hold]
      exact hi
    have hsem := hr.sems id hold howns.sem_used.2
    refine ⟨?_, ?_, ?_, ?_⟩
    · rw [hsem_id]
      exact ⟨howns.sem_used.1, hsem⟩
    · rw [hsem_id, ← howns.sem_made]
      exact event_sem_same (hsem.trans howns.sem_used.2.symm)
    · intro i hi
      rw [hmutex]
      have hused := howns.mut_used i (hpri i hi)
      exact ⟨hused.1, hr.muts id i hold (hpri i hi) hused.2⟩
    · intro i hi
      have hused := howns.mut_used i (hpri i hi)
      have hstill := hr.muts id i hold (hpri i hi) hused.2
      rw [hmutex, ← howns.mut_made i (hpri i hi)]
      exact event_mut_same (hstill.trans hused.2.symm)
  · intro m q i hm
    rcases event_mut_some hm with hold | ⟨made, hmade, -⟩
    · exact fun hi => h.mut_live m q i hold ((hr.invalid q).mp hi)
    · rw [hmakes] at hmade
      cases hmade

/-- The fields of a queue that say which locks it has. -/
structure Locks where
  free : Bool
  queue_type : QueueType
  pri_num : Int32
  cnt_sem_id : Nat
  queue_mutex : Nat → Nat

def osal_queue_record_t.locks (q : osal_queue_record_t) : Locks :=
  ⟨q.free, q.queue_type, q.pri_num, q.cnt_sem_id, q.queue_mutex⟩

/-- Neither the queues' locks nor what is in use changes. -/
structure SameLocks (s s' : Os) : Prop where
  queues : ∀ id, (s'.gw_osal_queue_table id).locks = (s.gw_osal_queue_table id).locks
  sems : ∀ c, (s'.gw_osal_count_sem_table c).free = (s.gw_osal_count_sem_table c).free
  muts : ∀ m, (s'.gw_osal_mut_table m).free = (s.gw_osal_mut_table m).free

/-- Entries come into use, and the queues are what they were. -/
theorem respects_of {s s' : Os}
    (hqueues : ∀ id, (s'.gw_osal_queue_table id).locks = (s.gw_osal_queue_table id).locks)
    (hsems : ∀ id, ¬ s.Invalid id → (s.gw_osal_count_sem_table (s.sem_id id)).free = false →
      (s'.gw_osal_count_sem_table (s.sem_id id)).free = false)
    (hmuts : ∀ id i, ¬ s.Invalid id → s.Priority id i →
      (s.gw_osal_mut_table (s.mutex id i)).free = false →
        (s'.gw_osal_mut_table (s.mutex id i)).free = false) : s.Respects s' := by
  have hfree := fun id => congrArg Locks.free (hqueues id)
  have htype := fun id => congrArg Locks.queue_type (hqueues id)
  have hpri := fun id => congrArg Locks.pri_num (hqueues id)
  have hsem := fun id => congrArg Locks.cnt_sem_id (hqueues id)
  have hmutex := fun id i => congrFun (congrArg Locks.queue_mutex (hqueues id)) i
  refine ⟨?_, fun id _ => hsem id, fun id _ => hpri id, fun id _ => hmutex id, hsems, hmuts⟩
  intro id
  change _ ∨ _ ∨ _ ↔ _ ∨ _ ∨ _
  rw [show (s'.gw_osal_queue_table id).free = _ from hfree id,
    show (s'.gw_osal_queue_table id).queue_type = _ from htype id]
  rfl

theorem SameLocks.respects {s s' : Os} (h : SameLocks s s') : s.Respects s' :=
  respects_of h.queues (fun id _ hused => (h.sems (s.sem_id id)).trans hused)
    (fun id i _ _ hused => (h.muts (s.mutex id i)).trans hused)

theorem SameLocks.trans {s s' s'' : Os} (h : SameLocks s s') (h' : SameLocks s' s'') :
    SameLocks s s'' :=
  ⟨fun id => (h'.queues id).trans (h.queues id), fun c => (h'.sems c).trans (h.sems c),
    fun m => (h'.muts m).trans (h.muts m)⟩

theorem same_refl (s : Os) : SameLocks s s := ⟨fun _ => rfl, fun _ => rfl, fun _ => rfl⟩

section
variable {s : Os}

theorem edit_same (id : Nat) {f : osal_queue_record_t → osal_queue_record_t}
    (hf : ∀ q, (f q).locks = q.locks) : SameLocks s (s.edit_queue id f) := by
  refine ⟨fun id' => ?_, fun _ => rfl, fun _ => rfl⟩
  by_cases hid : id' = id
  · subst hid
    rw [edit_queue_self, hf]
  · rw [edit_queue_other hid]

theorem set_sem_same (c : Nat) {r : osal_count_sem_record_t}
    (hr : r.free = (s.gw_osal_count_sem_table c).free) : SameLocks s (s.set_sem c r) := by
  refine ⟨fun _ => rfl, fun c' => ?_, fun _ => rfl⟩
  by_cases hc : c' = c
  · subst hc
    rw [set_sem_self, hr]
  · exact congrArg _ (update_of_ne hc _ _)

theorem set_mut_same (m : Nat) {r : osal_mut_record_t}
    (hr : r.free = (s.gw_osal_mut_table m).free) : SameLocks s (s.set_mut m r) := by
  refine ⟨fun _ => rfl, fun _ => rfl, fun m' => ?_⟩
  by_cases hm : m' = m
  · subst hm
    rw [set_mut_self, hr]
  · rw [set_mut_other hm]

theorem post_same (c : Nat) : SameLocks s (gw_semaphore_post s c).1 := by
  unfold gw_semaphore_post
  split
  · exact same_refl s
  · exact set_sem_same c rfl

theorem wait_same {c : Nat} {timeout : Int32} {s' : Os} {code : GW_E_OSAL}
    (h : gw_semaphore_wait s c timeout = some (s', code)) : SameLocks s s' := by
  have htaken : SameLocks s (s.set_sem c (s.gw_osal_count_sem_table c).take) := set_sem_same c rfl
  unfold gw_semaphore_wait at h
  dsimp only at h
  split_ifs at h
  all_goals
    obtain ⟨rfl, -⟩ := Prod.mk.inj (Option.some.inj h)
    first
      | exact same_refl s
      | exact htaken

theorem peak_locks (q : osal_queue_record_t) (i : Nat) : (q.peak i).locks = q.locks := by
  unfold osal_queue_record_t.peak
  dsimp only
  split_ifs <;> rfl

theorem link_same (id : Nat) (data : List UInt8) (size : UInt32) (i : Nat) :
    SameLocks s (s.link_message id data size i) := by
  have hlisted := edit_same (s := s) id
    (f := .set_list i (gw_lst_add s.nodes ((s.gw_osal_queue_table id).queue_list i) s.next).lst)
    fun _ => rfl
  exact ⟨hlisted.queues, hlisted.sems, hlisted.muts⟩

theorem unlink_same (id i a : Nat) (k : Linking) : SameLocks s (s.unlink_message id i a k) := by
  have hlisted := edit_same (s := s) id (f := .set_list i k.lst) fun _ => rfl
  exact ⟨hlisted.queues, hlisted.sems, hlisted.muts⟩

theorem put_same (mal : Bool) (id : Nat) (data : Option (List UInt8)) (size : UInt32)
    (priority : Int32) : SameLocks s (gw_pri_queue_put mal s id data size priority).1 := by
  unfold gw_pri_queue_put
  dsimp only
  split
  · exact same_refl s
  · cases data with
    | none =>
      dsimp only
      apply edit_same
      exact fun _ => rfl
    | some data =>
      dsimp only
      split_ifs
      case neg =>
        have hlinked := link_same (s := s) id data size priority.toNatClampNeg
        have hpeaked := edit_same (s := s.link_message id data size priority.toNatClampNeg) id
          fun q => peak_locks q priority.toNatClampNeg
        exact (hlinked.trans hpeaked).trans (post_same _)
      all_goals
        dsimp only
        apply edit_same
        exact fun _ => rfl

theorem get_same {id : Nat} {data_null : Bool} {size : UInt32} {timeout : Int32} {s' : Os} {got : Got}
    (h : gw_pri_queue_get s id data_null size timeout = some (s', got)) : SameLocks s s' := by
  unfold gw_pri_queue_get at h
  split at h
  · cases h
    exact same_refl s
  split at h
  · cases h
    apply edit_same
    exact fun _ => rfl
  obtain ⟨⟨s₁, ret⟩, hwait, h⟩ := Option.bind_eq_some_iff.mp h
  have hwaited := wait_same hwait
  dsimp only at h
  split at h
  · cases h
    apply hwaited.trans
    apply edit_same
    exact fun _ => rfl
  split at h
  · cases h
    apply hwaited.trans
    apply edit_same
    exact fun _ => rfl
  split at h
  · cases h
  rename_i i _ _ k pbuf _
  have hunlinked := hwaited.trans (unlink_same id i pbuf k)
  split at h
  · cases h
    apply hunlinked.trans
    apply edit_same
    exact fun _ => rfl
  · cases h
    exact hunlinked

/-- Putting and getting messages leaves the locks of every queue alone. -/
theorem call_same (id : Nat) (c : Call) : SameLocks s (s.call id c).1 := by
  cases c with
  | put mal data size priority => exact put_same mal id data size priority
  | get data_null size timeout =>
    rw [Os.call]
    split
    · exact same_refl s
    · rename_i s' got h
      exact get_same h

/-- What `gw_semaphore_init` can do. -/
inductive Os.SemInits (s : Os) (os : Bool) : Os × GW_E_OSAL × Option Nat → Prop
  | refuses (code : GW_E_OSAL) : s.SemInits os (s, code, none)
  | fails (c : Nat) : (s.gw_osal_count_sem_table c).free = true →
      s.SemInits os (s.set_sem c free_sem, .ERR, none)
  | makes (c value : Nat) (name : List Char) : c < GW_OSAL_MAX_COUNT_SEM →
      (s.gw_osal_count_sem_table c).free = true → os = true →
      s.SemInits os (s.set_sem c ⟨false, value, name⟩, .OK, some c)

theorem semaphore_inits (os null : Bool) (name : Option (List Char)) (value : UInt32) :
    s.SemInits os (gw_semaphore_init os s null name value) := by
  unfold gw_semaphore_init
  split
  · split
    · exact .refuses _
    · split
      · exact .refuses _
      · rename_i c hc
        obtain ⟨hlt, hfree⟩ := first_free_some hc
        split
        · exact .fails c hfree
        · rename_i hos
          exact .makes c _ _ hlt hfree (by simpa using hos)
  · exact .refuses _

theorem semaphore_init_makes {name : List Char} (hshort : name.length ≤ GW_OSAL_MAX_API_NAME)
    (hfree : ∃ c < GW_OSAL_MAX_COUNT_SEM, (s.gw_osal_count_sem_table c).free = true)
    (value : UInt32) : (gw_semaphore_init true s false (some name) value).2.2 ≠ none := by
  obtain ⟨c, hlt, hc⟩ := hfree
  unfold gw_semaphore_init
  dsimp only
  rw [if_neg (Nat.not_lt.mpr hshort)]
  split
  · rename_i hnone
    rw [first_free_none.mp hnone c hlt] at hc
    cases hc
  · rw [if_neg Bool.true_eq_false.mp]
    nofun

theorem set_sem_other {c k : Nat} (h : k ≠ c) (r : osal_count_sem_record_t) :
    (s.set_sem c r).gw_osal_count_sem_table k = s.gw_osal_count_sem_table k := update_of_ne h _ _

/-- A semaphore that no queue has, or that comes into use. -/
theorem set_sem_respects (c : Nat) {r : osal_count_sem_record_t}
    (hr : r.free = true → ∀ id, ¬ s.Invalid id → s.sem_id id ≠ c) : s.Respects (s.set_sem c r) := by
  refine respects_of (fun _ => rfl) ?_ (fun _ _ _ _ hused => hused)
  intro id hid hused
  by_cases hc : s.sem_id id = c
  · rw [hc, set_sem_self]
    cases hfree : r.free with
    | false => rfl
    | true => exact absurd hc (hr hfree id hid)
  · rwa [set_sem_other hc]

theorem set_mut_respects (m : Nat) {r : osal_mut_record_t}
    (hr : r.free = true → ∀ id i, ¬ s.Invalid id → s.Priority id i → s.mutex id i ≠ m) :
    s.Respects (s.set_mut m r) := by
  refine respects_of (fun _ => rfl) (fun _ _ hused => hused) ?_
  intro id i hid hi hused
  by_cases hm : s.mutex id i = m
  · rw [hm, set_mut_self]
    cases hfree : r.free with
    | false => rfl
    | true => exact absurd hm (hr hfree id i hid hi)
  · rwa [set_mut_other hm]

/-- Clearing an entry that is no priority queue. -/
theorem clear_respects {id : Nat} (hid : s.Invalid id) :
    s.Respects (s.edit_queue id fun _ => free_queue) := by
  have hsame : ∀ id', ¬ s.Invalid id' →
      (s.edit_queue id fun _ => free_queue).gw_osal_queue_table id' = s.gw_osal_queue_table id' :=
    fun id' hid' => edit_queue_other (fun he => hid' (by rw [he]; exact hid)) _
  refine ⟨?_, ?_, ?_, ?_, fun _ _ hused => hused, fun _ _ _ _ hused => hused⟩
  · intro id'
    by_cases he : id' = id
    · subst he
      refine ⟨fun _ => hid, fun _ => Or.inr (Or.inl ?_)⟩
      rw [edit_queue_self]
      rfl
    · rw [Os.Invalid, edit_queue_other he]
      rfl
  · exact fun id' hid' => congrArg osal_queue_record_t.cnt_sem_id (hsame id' hid')
  · exact fun id' hid' => congrArg osal_queue_record_t.pri_num (hsame id' hid')
  · exact fun id' hid' i => congrFun (congrArg osal_queue_record_t.queue_mutex (hsame id' hid')) i

/-- What is not a create, and is careful, respects the locks. -/
theorem careful_respects {e : Event}
    (he : ∀ sem_os mut_os null name depth size pri,
      e ≠ .create sem_os mut_os null name depth size pri) (hc : s.Careful e) :
    s.Respects (s.event e) := by
  cases e with
  | create => exact absurd rfl (he _ _ _ _ _ _ _)
  | delete id =>
    rw [Os.event, gw_queue_delete]
    split
    · exact (same_refl s).respects
    · exact clear_respects hc
  | call id c => exact (call_same id c).respects
  | mutex_init os null name =>
    have hinits := mutex_inits (s := s) os null name
    rw [Os.event]
    generalize gw_mutex_init os s null name = r at hinits
    cases hinits with
    | refuses => exact (same_refl s).respects
    | fails m hm => exact (set_mut_same m hm.symm).respects
    | makes nm m _ htakes => exact set_mut_respects m nofun
  | mutex_destroy os m =>
    rw [Os.event, gw_mutex_destroy]
    split
    · exact (same_refl s).respects
    · split
      · exact (same_refl s).respects
      · rename_i hos
        exact set_mut_respects m fun _ => hc (by simpa using hos)
  | semaphore_init os null name value =>
    have hinits := semaphore_inits (s := s) os null name value
    rw [Os.event]
    generalize gw_semaphore_init os s null name value = r at hinits
    cases hinits with
    | refuses => exact (same_refl s).respects
    | fails c hfree => exact (set_sem_same c hfree.symm).respects
    | makes c _ _ _ hfree => exact set_sem_respects c nofun
  | semaphore_destroy os c =>
    rw [Os.event, gw_semaphore_destroy]
    split
    · exact (same_refl s).respects
    · split
      · exact (same_refl s).respects
      · rename_i hos
        exact set_sem_respects c fun _ => hc (by simpa using hos)

/-! ## Making a queue -/

/-- The tables after the loop over the priorities. -/
def Os.with_locks (s : Os) (mut_os : Nat → Bool) (name : List Char) (qid n c value : Nat)
    (sem_name : List Char) : Os :=
  (List.range n).foldl (Os.create_priority mut_os name qid)
    ((s.set_sem c ⟨false, value, sem_name⟩).edit_queue qid fun q => { q with cnt_sem_id := c })

/-- What `gw_pri_queue_create` can do. -/
inductive Os.CreatesOr (s : Os) (sem_os : Bool) (mut_os : Nat → Bool) (null : Bool)
    (name : Option (List Char)) (queue_depth data_size : UInt32) (pri_num : Int32) :
    Os × GW_E_OSAL × Option Nat → Prop
  | refuses (s' : Os) (code : GW_E_OSAL) : SameLocks s s' →
      (∀ nm ∈ name, ¬ s.Creates sem_os null nm queue_depth data_size pri_num) →
      s.CreatesOr sem_os mut_os null name queue_depth data_size pri_num (s', code, none)
  | makes (nm : List Char) (qid c value : Nat) (sem_name : List Char) : name = some nm →
      s.Creates sem_os null nm queue_depth data_size pri_num → qid < GW_OSAL_MAX_QUEUE →
      (s.gw_osal_queue_table qid).free = true → c < GW_OSAL_MAX_COUNT_SEM →
      (s.gw_osal_count_sem_table c).free = true →
      s.CreatesOr sem_os mut_os null name queue_depth data_size pri_num
        ((s.with_locks mut_os nm qid pri_num.toNatClampNeg c value sem_name).edit_queue qid
          (.fill nm queue_depth data_size pri_num), .OK, some qid)

theorem sem_name_short {qid : Nat} (h : qid < GW_OSAL_MAX_QUEUE) :
    (pri_queue_sem_name qid).length ≤ GW_OSAL_MAX_API_NAME := by
  have hdigit : qid < 10 := h
  rw [pri_queue_sem_name, Nat.toDigits_of_lt_base hdigit]
  simp [GW_OSAL_MAX_API_NAME]

theorem create_creates (sem_os : Bool) (mut_os : Nat → Bool) (null : Bool)
    (name : Option (List Char)) (queue_depth data_size : UInt32) (pri_num : Int32) :
    s.CreatesOr sem_os mut_os null name queue_depth data_size pri_num
      (gw_pri_queue_create sem_os mut_os s null name queue_depth data_size pri_num) := by
  unfold gw_pri_queue_create
  split
  case h_2 hargs =>
    refine .refuses _ _ (same_refl s) ?_
    rintro nm hnm hc
    exact hargs nm hc.pointer hnm
  rename_i nm
  have hname : ∀ nm' ∈ some nm, nm' = nm := fun nm' h => (Option.some.inj h).symm
  split
  · rename_i hzero
    refine .refuses _ _ (same_refl s) fun nm' _ hc => ?_
    exact hzero.elim hc.depth hc.size
  rename_i hzero
  split
  · rename_i hrange
    refine .refuses _ _ (same_refl s) fun nm' _ hc => ?_
    exact hrange.elim (Int32.not_le.mpr hc.low) (Int32.not_lt.mpr hc.high)
  rename_i hrange
  split
  · rename_i hlong
    refine .refuses _ _ (same_refl s) fun nm' hnm hc => ?_
    rw [hname nm' hnm] at hc
    exact Nat.not_lt.mpr hlong hc.short
  rename_i hshort
  split
  · rename_i hnone
    refine .refuses _ _ (same_refl s) fun nm' _ hc => ?_
    obtain ⟨i, hi, hfree⟩ := hc.queue
    rw [first_free_none.mp hnone i hi] at hfree
    cases hfree
  rename_i qid hqid
  obtain ⟨hlt, hfree⟩ := first_free_some hqid
  have hinits := semaphore_inits (s := s) sem_os false (some (pri_queue_sem_name qid)) 0
  have hmakes := semaphore_init_makes (s := s) (sem_name_short hlt)
  split
  · rename_i s' code heq
    refine .refuses _ _ ?_ fun nm' _ hc => ?_
    · rw [heq] at hinits
      cases hinits with
      | refuses => exact same_refl s
      | fails c hc => exact set_sem_same c hc.symm
    · have hno := hmakes hc.sem 0
      rw [← hc.sem_os, heq] at hno
      exact hno rfl
  · rename_i s' code c heq
    rw [heq] at hinits
    cases hinits with
    | makes _ value sem_name hc hcfree hos =>
      refine .makes nm qid c value sem_name rfl ?_ hlt hfree hc hcfree
      refine ⟨rfl, fun h => hzero (Or.inl h), fun h => hzero (Or.inr h), ?_, ?_,
        Nat.not_le.mp hshort, ⟨qid, hlt, hfree⟩, ⟨c, hc, hcfree⟩, hos⟩
      · exact Int32.not_le.mp fun h => hrange (Or.inl h)
      · exact Int32.not_lt.mp fun h => hrange (Or.inr h)

/-- `s'` has a new queue `qid`, with the semaphore `c` and `n` priorities. -/
structure Os.Made (s s' : Os) (mut_os : Nat → Bool) (name : List Char) (qid c n : Nat) : Prop where
  queue : qid < GW_OSAL_MAX_QUEUE ∧ (s.gw_osal_queue_table qid).free = true
  sem : c < GW_OSAL_MAX_COUNT_SEM ∧ (s.gw_osal_count_sem_table c).free = true
  few : 0 < n ∧ n ≤ 8
  others : ∀ id, id ≠ qid → s'.gw_osal_queue_table id = s.gw_osal_queue_table id
  valid : ¬ s'.Invalid qid
  sem_id : s'.sem_id qid = c
  pri_num : (s'.gw_osal_queue_table qid).pri_num.toNatClampNeg = n
  sem_used : (s'.gw_osal_count_sem_table c).free = false
  sems : ∀ k, k ≠ c → s'.gw_osal_count_sem_table k = s.gw_osal_count_sem_table k
  muts : ∀ m, s'.gw_osal_mut_table m = s.gw_osal_mut_table m ∨
    (s.gw_osal_mut_table m).free = true ∧ ((s'.gw_osal_mut_table m).free = true ∨
      ∃ i < n, s'.gw_osal_mut_table m = ⟨false, mutex_name name i⟩ ∧
        s.Takes (mut_os i) (mutex_name name i) m)
  locked : s.HasMutexes mut_os name n → ∀ i < n, s'.mutex qid i < GW_OSAL_MAX_MUTEX ∧
    (s.gw_osal_mut_table (s'.mutex qid i)).free = true ∧
      s'.gw_osal_mut_table (s'.mutex qid i) = ⟨false, mutex_name name i⟩

theorem with_locks_made {mut_os : Nat → Bool} {null sem_os : Bool} {nm sem_name : List Char}
    {queue_depth data_size : UInt32} {pri_num : Int32} {qid c value : Nat}
    (hc : s.Creates sem_os null nm queue_depth data_size pri_num) (hlt : qid < GW_OSAL_MAX_QUEUE)
    (hfree : (s.gw_osal_queue_table qid).free = true) (hclt : c < GW_OSAL_MAX_COUNT_SEM)
    (hcfree : (s.gw_osal_count_sem_table c).free = true) :
    s.Made ((s.with_locks mut_os nm qid pri_num.toNatClampNeg c value sem_name).edit_queue qid
      (.fill nm queue_depth data_size pri_num)) mut_os nm qid c pri_num.toNatClampNeg := by
  let s₁ := (s.set_sem c ⟨false, value, sem_name⟩).edit_queue qid
    fun q => { q with cnt_sem_id := c }
  have hlow := Int32.lt_iff_toInt_lt.mp hc.low
  have hhigh := Int32.le_iff_toInt_le.mp hc.high
  have h0 : (0 : Int32).toInt = 0 := rfl
  have h8 : GW_OSAL_MAX_QUEUE_PRI.toInt = 8 := rfl
  have hfew : 0 < pri_num.toNatClampNeg ∧ pri_num.toNatClampNeg ≤ 8 := by
    rw [Int32.toNatClampNeg]
    omega
  have hturned := create_priorities_turned s₁ mut_os nm qid pri_num.toNatClampNeg
  have hlocked := fun hall : s₁.HasMutexes mut_os nm pri_num.toNatClampNeg =>
    create_priorities_locked qid hfew.2 hall (Nat.le_refl _)
  change Turned mut_os nm qid s₁ (s.with_locks mut_os nm qid _ c value sem_name) _ at hturned
  change _ → Locked mut_os nm qid s₁ (s.with_locks mut_os nm qid _ c value sem_name) _ at hlocked
  generalize s.with_locks mut_os nm qid _ c value sem_name = s₂ at hturned hlocked
  have hrecord : (s₂.edit_queue qid (.fill nm queue_depth data_size pri_num)).gw_osal_queue_table qid =
      (s₂.gw_osal_queue_table qid).fill nm queue_depth data_size pri_num := edit_queue_self _
  have hsem : s₂.sem_id qid = c := by
    rw [hturned.sem_id, Os.sem_id, edit_queue_self]
  refine ⟨⟨hlt, hfree⟩, ⟨hclt, hcfree⟩, hfew, ?_, ?_, ?_, ?_, ?_, ?_, ?_, ?_⟩
  · intro id hid
    rw [edit_queue_other hid, hturned.others id hid, edit_queue_other hid]
    rfl
  · rw [Os.Invalid, hrecord]
    rintro (hmax | hin | htype)
    · exact Nat.not_lt.mpr hmax hlt
    · cases hin
    · exact htype rfl
  · rw [Os.sem_id, hrecord]
    exact hsem
  · rw [hrecord]
    rfl
  · change (s₂.gw_osal_count_sem_table c).free = false
    rw [hturned.sems]
    exact congrArg _ (set_sem_self c _)
  · intro k hk
    change s₂.gw_osal_count_sem_table k = _
    rw [hturned.sems]
    exact set_sem_other hk _
  · intro m
    rcases hturned.muts m with hsame | ⟨hm, hfree | ⟨i, hi, hmade, ht⟩⟩
    · exact Or.inl hsame
    · exact Or.inr ⟨hm, Or.inl hfree⟩
    · exact Or.inr ⟨hm, Or.inr ⟨i, hi, hmade, ht.known, ht.free, ht.short, ht.untaken, ht.os⟩⟩
  · intro hall
    have hmutex : ∀ i, (s₂.edit_queue qid (.fill nm queue_depth data_size pri_num)).mutex qid i =
        s₂.mutex qid i := by
      intro i
      rw [Os.mutex, hrecord]
      rfl
    intro i hi
    rw [hmutex]
    exact (hlocked ⟨hall.short, hall.enough, hall.untaken, hall.os⟩).made i hi

/-- What a create does: it makes a queue, or leaves the locks of every queue alone. -/
theorem create_event (sem_os : Bool) (mut_os : Nat → Bool) (null : Bool)
    (name : Option (List Char)) (queue_depth data_size : UInt32) (pri_num : Int32) :
    (SameLocks s (s.event (.create sem_os mut_os null name queue_depth data_size pri_num)) ∧
      s.makes (.create sem_os mut_os null name queue_depth data_size pri_num) = none ∧
      ∀ nm ∈ name, ¬ s.Creates sem_os null nm queue_depth data_size pri_num) ∨
    ∃ nm qid c, name = some nm ∧ s.Creates sem_os null nm queue_depth data_size pri_num ∧
      s.Made (s.event (.create sem_os mut_os null name queue_depth data_size pri_num)) mut_os nm
        qid c pri_num.toNatClampNeg ∧
      s.makes (.create sem_os mut_os null name queue_depth data_size pri_num) =
        some (qid, nm, pri_num.toNatClampNeg) := by
  have hor := create_creates (s := s) sem_os mut_os null name queue_depth data_size pri_num
  unfold Os.event Os.makes
  dsimp only
  generalize gw_pri_queue_create sem_os mut_os s null name queue_depth data_size pri_num = r at hor
  cases hor with
  | refuses s' code hsame hno => exact Or.inl ⟨hsame, rfl, hno⟩
  | makes nm qid c value sem_name hname hc hlt hfree hclt hcfree =>
    subst hname
    exact Or.inr ⟨nm, qid, c, rfl, hc, with_locks_made hc hlt hfree hclt hcfree, rfl⟩

section
variable {s' : Os} {mut_os : Nat → Bool} {name : List Char} {qid c n : Nat}

theorem Os.Made.invalid (h : s.Made s' mut_os name qid c n) {id : Nat} (hid : id ≠ qid) :
    s'.Invalid id ↔ s.Invalid id := by
  rw [Os.Invalid, Os.Invalid, h.others id hid]

/-- The new queue was not there. -/
theorem Os.Made.fresh (h : s.Made s' mut_os name qid c n) : s.Invalid qid :=
  Or.inr (Or.inl h.queue.2)

theorem Os.Made.mut_used (h : s.Made s' mut_os name qid c n) {m : Nat}
    (hm : (s.gw_osal_mut_table m).free = false) :
    s'.gw_osal_mut_table m = s.gw_osal_mut_table m := by
  rcases h.muts m with hsame | ⟨hfree, -⟩
  · exact hsame
  · rw [hm] at hfree
    cases hfree

theorem Os.Made.priority (h : s.Made s' mut_os name qid c n) {i : Nat} :
    s'.Priority qid i ↔ i < n := by
  rw [Os.Priority, h.pri_num]

end

section
variable {l : Ledger} {e : Event} {mut_os : Nat → Bool} {name : List Char} {qid c n : Nat}

/-- A queue that was there has what it had. -/
theorem made_has_other (h : l.os.Made (l.os.event e) mut_os name qid c n) (hl : l.Sound) {id : Nat}
    (hid : ¬ (l.event e).os.Invalid id) (hne : id ≠ qid) : (l.event e).Has id := by
  have howns := hl id fun hi => hid ((h.invalid hne).mpr hi)
  have hrecord := h.others id hne
  have hsem : (l.event e).os.sem_id id = l.os.sem_id id :=
    congrArg osal_queue_record_t.cnt_sem_id hrecord
  have hmutex : ∀ i, (l.event e).os.mutex id i = l.os.mutex id i :=
    fun i => congrFun (congrArg osal_queue_record_t.queue_mutex hrecord) i
  have hpri : ∀ i, (l.event e).os.Priority id i → l.os.Priority id i := by
    intro i hi
    rw [Os.Priority, ← hrecord]
    exact hi
  have hnotc : l.os.sem_id id ≠ c := by
    intro he
    have hused := howns.sem_used.2
    rw [he, h.sem.2] at hused
    cases hused
  have hsame := congrArg osal_count_sem_record_t.free (h.sems _ hnotc)
  refine ⟨?_, ?_, ?_, ?_⟩
  · rw [hsem]
    exact ⟨howns.sem_used.1, hsame.trans howns.sem_used.2⟩
  · rw [hsem, event_sem_same hsame]
    exact howns.sem_made
  · intro i hi
    have hused := howns.mut_used i (hpri i hi)
    have hstill := congrArg osal_mut_record_t.free (h.mut_used hused.2)
    rw [hmutex]
    exact ⟨hused.1, hstill.trans hused.2⟩
  · intro i hi
    have hused := howns.mut_used i (hpri i hi)
    have hstill := congrArg osal_mut_record_t.free (h.mut_used hused.2)
    rw [hmutex, event_mut_same hstill]
    exact howns.mut_made i (hpri i hi)

/-- The new queue has its own locks, when there is a mutex for each priority. -/
theorem made_has_new (h : l.os.Made (l.os.event e) mut_os name qid c n)
    (hmakes : l.os.makes e = some (qid, name, n)) (hall : l.os.HasMutexes mut_os name n) :
    (l.event e).Has qid := by
  have hsem : (l.event e).os.sem_id qid = c := h.sem_id
  have hfew := h.few
  refine ⟨?_, ?_, ?_, ?_⟩
  · rw [hsem]
    exact ⟨h.sem.1, h.sem_used⟩
  · rw [hsem]
    exact event_sem_new hmakes h.sem.2 h.sem_used
  · intro i hi
    obtain ⟨hknown, -, hmade⟩ := h.locked hall i (h.priority.mp hi)
    exact ⟨hknown, congrArg osal_mut_record_t.free hmade⟩
  · intro i hi
    obtain ⟨-, hold, hmade⟩ := h.locked hall i (h.priority.mp hi)
    exact event_mut_new hmakes (by omega) (h.priority.mp hi) hold hmade

theorem made_good (hl : l.Good) (h : l.os.Made (l.os.event e) mut_os name qid c n)
    (hmakes : l.os.makes e = some (qid, name, n)) (hall : l.os.HasMutexes mut_os name n) :
    (l.event e).Good := by
  refine ⟨sound_of_has fun id hid => ?_, ?_⟩
  · by_cases hne : id = qid
    · subst hne
      exact made_has_new h hmakes hall
    · exact made_has_other h hl.sound hid hne
  · intro m q i hm
    rcases event_mut_some hm with hold | ⟨made, hmade, hq⟩
    · have hlive := hl.mut_live m q i hold
      have hne : q ≠ qid := fun he => hlive (by rw [he]; exact h.fresh)
      exact fun hi => hlive ((h.invalid hne).mp hi)
    · rw [hmakes] at hmade
      obtain rfl := Option.some.inj hmade
      rw [← hq]
      exact h.valid

/-- What each priority of the new queue has is an entry that came into use for it. -/
theorem made_takes (hl : l.Good) (h : l.os.Made (l.os.event e) mut_os name qid c n)
    (hmakes : l.os.makes e = some (qid, name, n)) (hs : (l.event e).Owns qid) {i : Nat}
    (hi : i < n) : l.os.Takes (mut_os i) (mutex_name name i) ((l.event e).os.mutex qid i) := by
  have hused := hs.mut_used i (h.priority.mpr hi)
  have hmade := hs.mut_made i (h.priority.mpr hi)
  have hfew := h.few
  rcases h.muts ((l.event e).os.mutex qid i) with hsame | ⟨hold, hfree | ⟨j, hj, hnew, htakes⟩⟩
  · rw [event_mut_same (congrArg osal_mut_record_t.free hsame)] at hmade
    exact absurd h.fresh (hl.mut_live _ _ _ hmade)
  · have hnot := hused.2
    rw [show ((l.event e).os.gw_osal_mut_table _).free = true from hfree] at hnot
    cases hnot
  · rw [event_mut_new hmakes (by omega) hj hold hnew] at hmade
    obtain rfl : j = i := congrArg Prod.snd (Option.some.inj hmade)
    exact htakes

/-- A new queue that owns its locks got a mutex for each priority. -/
theorem made_has_mutexes (hl : l.Good) (h : l.os.Made (l.os.event e) mut_os name qid c n)
    (hmakes : l.os.makes e = some (qid, name, n)) (hs : (l.event e).Owns qid) :
    l.os.HasMutexes mut_os name n := by
  have htakes : ∀ i < n, _ := fun i hi => made_takes hl h hmakes hs hi
  have hfew := h.few
  refine ⟨?_, ?_, ?_, fun i hi => (htakes i hi).os⟩
  · have hshort := (htakes 0 h.few.1).short
    rw [mutex_name_length name (by omega)] at hshort
    change _ ≤ 20 at hshort
    omega
  · -- the entries are free, and no two priorities have the same one
    let taken := (List.range n).map ((l.event e).os.mutex qid)
    have hnodup : taken.Nodup := by
      refine List.Nodup.map_on ?_ List.nodup_range
      intro i hi j hj he
      rw [List.mem_range] at hi hj
      exact (hs.mut_alone j (h.priority.mpr hj) qid i h.valid (h.priority.mpr hi) he).2
    have hsub : taken ⊆ (List.range GW_OSAL_MAX_MUTEX).filter
        fun m => (l.os.gw_osal_mut_table m).free := by
      intro m hm
      obtain ⟨i, hi, rfl⟩ := List.mem_map.mp hm
      have hi := htakes i (List.mem_range.mp hi)
      exact List.mem_filter.mpr ⟨List.mem_range.mpr hi.known, hi.free⟩
    have hle := (List.subperm_of_subset hnodup hsub).length_le
    rw [List.length_map, List.length_range, ← List.countP_eq_length_filter] at hle
    exact hle
  · exact fun i hi => (htakes i hi).untaken

end

end

/-! ## Steps and runs -/

section
variable {l : Ledger} {e : Event}

theorem careful_good (h : l.Good) (hc : l.os.Careful e) : (l.event e).Good := by
  cases e with
  | create sem_os mut_os null name depth size pri =>
    rcases create_event (s := l.os) sem_os mut_os null name depth size pri with
      ⟨hsame, hmakes, -⟩ | ⟨nm, qid, c, hname, hcreates, hmade, hmakes⟩
    · exact respects_good h hmakes hsame.respects
    · exact made_good h hmade hmakes (hc nm hname hcreates)
  | _ => exact respects_good h rfl (careful_respects nofun hc)

/-- A delete frees the record of the queue, and nothing else. -/
theorem delete_keeps_nothing_back (h : l.Sound) {id : Nat} (hid : ¬ l.os.Invalid id) :
    ¬ GivesBack l.os (l.os.event (.delete id)) id := by
  intro hback
  have hused := (h id hid).sem_used.2
  have hsems : (l.os.event (.delete id)).gw_osal_count_sem_table = l.os.gw_osal_count_sem_table := by
    rw [Os.event, gw_queue_delete]
    split <;> rfl
  have hfree := hback.sem
  rw [hsems, hused] at hfree
  cases hfree

theorem mutex_destroy_careful (h : l.Sound) {os : Bool} {m : Nat}
    (hs : (l.event (.mutex_destroy os m)).Sound) : l.os.Careful (.mutex_destroy os m) := by
  rintro rfl id i hid hi rfl
  have hused := (h id hid).mut_used i hi
  have hdestroy : l.os.event (.mutex_destroy true (l.os.mutex id i)) =
      l.os.set_mut (l.os.mutex id i) free_mut := by
    rw [Os.event, gw_mutex_destroy, if_neg, if_neg Bool.true_eq_false.mp]
    rintro (hmax | hfree)
    · exact Nat.not_lt.mpr hmax hused.1
    · rw [hused.2] at hfree
      cases hfree
  have hnew : (l.event (.mutex_destroy true (l.os.mutex id i))).os =
      l.os.set_mut (l.os.mutex id i) free_mut := hdestroy
  have hstill := ((hs id (by rw [hnew]; exact hid)).mut_used i (by rw [hnew]; exact hi)).2
  rw [hnew] at hstill
  change ((l.os.set_mut (l.os.mutex id i) free_mut).gw_osal_mut_table (l.os.mutex id i)).free = _
    at hstill
  rw [set_mut_self] at hstill
  cases hstill

theorem semaphore_destroy_careful (h : l.Sound) {os : Bool} {c : Nat}
    (hs : (l.event (.semaphore_destroy os c)).Sound) : l.os.Careful (.semaphore_destroy os c) := by
  rintro rfl id hid rfl
  have hused := (h id hid).sem_used
  have hdestroy : l.os.event (.semaphore_destroy true (l.os.sem_id id)) =
      l.os.set_sem (l.os.sem_id id) free_sem := by
    rw [Os.event, gw_semaphore_destroy, if_neg, if_neg Bool.true_eq_false.mp]
    rintro (hmax | hfree)
    · exact Nat.not_lt.mpr hmax hused.1
    · rw [hused.2] at hfree
      cases hfree
  have hnew : (l.event (.semaphore_destroy true (l.os.sem_id id))).os =
      l.os.set_sem (l.os.sem_id id) free_sem := hdestroy
  have hstill := (hs id (by rw [hnew]; exact hid)).sem_used.2
  rw [hnew] at hstill
  change ((l.os.set_sem (l.os.sem_id id) free_sem).gw_osal_count_sem_table (l.os.sem_id id)).free = _
    at hstill
  rw [set_sem_self] at hstill
  cases hstill

/-- The careful steps are the ones that keep the locks. -/
theorem keeps_iff (h : l.Good) : l.Keeps e ↔ l.os.Careful e := by
  refine ⟨fun ⟨hs, hback⟩ => ?_, fun hc => ⟨(careful_good h hc).sound, ?_⟩⟩
  · cases e with
    | create sem_os mut_os null name depth size pri =>
      intro name' hname' hcreates'
      rcases create_event (s := l.os) sem_os mut_os null name depth size pri with
        ⟨-, -, hno⟩ | ⟨nm, qid, c, hname, hcreates, hmade, hmakes⟩
      · exact absurd hcreates' (hno name' hname')
      · obtain rfl : nm = name' := Option.some.inj (hname.symm.trans hname')
        exact made_has_mutexes h hmade hmakes (hs qid hmade.valid)
    | delete id =>
      by_contra hid
      exact delete_keeps_nothing_back h.sound hid (hback id rfl hid)
    | mutex_destroy os m => exact mutex_destroy_careful h.sound hs
    | semaphore_destroy os c => exact semaphore_destroy_careful h.sound hs
    | _ => trivial
  · rintro id rfl hid
    exact absurd hc hid

theorem good_init : Ledger.init.Good :=
  ⟨fun _ hid => absurd (Or.inr (Or.inl rfl)) hid, nofun⟩

/-- A name of 16 characters has no room for `mx_` and the priority, and a delete
leaves the semaphore in use. -/
theorem a_long_name_and_a_delete_lose_locks :
    ¬ Along Ledger.event Ledger.Keeps Ledger.init
        [.create true (fun _ => true) false (some (List.replicate 16 'q')) 1 1 1] ∧
      ¬ Along Ledger.event Ledger.Keeps Ledger.init
        [.create true (fun _ => true) false (some ['q']) 1 1 1, .delete 0] := by
  refine ⟨?_, ?_⟩
  · rintro ⟨hkeeps, -⟩
    have hcreates : gw_osal_core_init.Creates true false (List.replicate 16 'q') 1 1 1 :=
      ⟨rfl, by decide, by decide, by decide, by decide, by decide, ⟨0, by decide, rfl⟩,
        ⟨0, by decide, rfl⟩, rfl⟩
    have hshort := ((keeps_iff good_init).mp hkeeps _ rfl hcreates).short
    exact absurd hshort (by decide)
  · rintro ⟨hkeeps, hdelete, -⟩
    have hgood := careful_good good_init ((keeps_iff good_init).mp hkeeps)
    have hmade : ¬ (gw_pri_queue_create true (fun _ => true) gw_osal_core_init false (some ['q'])
        1 1 1).1.Invalid 0 := by decide +kernel
    exact hmade ((keeps_iff hgood).mp hdelete)

/-- Every priority queue owns its locks, and a deleted one gives them back, along
a run exactly when every create finds a mutex for each priority and nothing of a
queue is deleted or destroyed. -/
theorem careful_runs_keep_the_locks (es : List Event) :
    Along Ledger.event Ledger.Keeps Ledger.init es ↔
      Along Ledger.event (fun l e => l.os.Careful e) Ledger.init es := by
  apply along_iff_along (I := Ledger.Good)
  · exact fun _ _ => careful_good
  · exact fun _ _ => keeps_iff
  · exact good_init

end

end gwdonu.os_core
