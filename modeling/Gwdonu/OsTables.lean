-- The object tables of the OS layer: threads, semaphores, mutexes and queues each take the
-- first free entry of their table, and copy their name into it.
import Gwdonu.OsOwnership

namespace gwdonu.os_tables

open Function os_core runs
open util_list (gw_lst_init)

/-! ## Threads -/

def GW_OSAL_MAX_THREAD : Nat := 32

/-- Without `CYG_LINUX`. -/
def GW_OSAL_MAX_PRI : UInt32 := 250

/-- An entry of `gw_osal_thread_table`; `stack_buf` is whether it has a stack. -/
structure osal_thread_record_t where
  free : Bool
  name : List Char
  stack_size : UInt32
  priority : UInt32
  stack_buf : Bool
  deriving DecidableEq

abbrev ThreadTable := Nat → osal_thread_record_t

def free_thread : osal_thread_record_t := ⟨true, [], 0, 0, false⟩

/-- `mal` is whether `malloc` has memory for the stack. What `pthread_create` returns is not
looked at. -/
def gw_thread_create (mal : Bool) (table : ThreadTable) (thread_id_null function_null : Bool)
    (thread_name : Option (List Char)) (stack_size priority : UInt32) :
    ThreadTable × GW_E_OSAL × Option Nat :=
  match thread_id_null || function_null, thread_name with
  | false, some thread_name =>
    if GW_OSAL_MAX_API_NAME ≤ thread_name.length then (table, .ERR_NAME_TOO_LONG, none)
    else if GW_OSAL_MAX_PRI < priority then (table, .ERR_INVALID_PRIORITY, none)
    else if mal = false then (table, .ERR, none)
    else
      match first_free (fun i => (table i).free) GW_OSAL_MAX_THREAD with
      | none => (table, .ERR_NO_FREE_IDS, none)
      | some id => (update table id ⟨false, thread_name, stack_size, priority, true⟩, .OK, some id)
  | _, _ => (table, .INVALID_POINTER, none)

def gw_thread_delete (table : ThreadTable) (thread_id : Nat) : ThreadTable × GW_E_OSAL :=
  if GW_OSAL_MAX_THREAD ≤ thread_id ∨ (table thread_id).free ≠ false then (table, .ERR_INVALID_ID)
  else (update table thread_id free_thread, .OK)

/-! ## Message queues -/

def fill_queue (name : List Char) (queue_depth data_size : UInt32) (q : osal_queue_record_t) :
    osal_queue_record_t :=
  { q with
    free := false, name, depth := queue_depth.toInt32, queue_size := data_size.toInt32
    queue_type := .GW_NORMAL_QUEUE_TYPE }

/-- `os` says whether `mq_open` succeeds. -/
def gw_queue_create (os : Bool) (s : Os) (queue_id_null : Bool) (queue_name : Option (List Char))
    (queue_depth data_size : UInt32) : Os × GW_E_OSAL × Option Nat :=
  match queue_id_null, queue_name with
  | false, some queue_name =>
    if queue_depth = 0 ∨ data_size = 0 then (s, .ERR, none)
    else if GW_OSAL_MAX_API_NAME ≤ queue_name.length then (s, .ERR_NAME_TOO_LONG, none)
    else
      match first_free (fun i => (s.gw_osal_queue_table i).free) GW_OSAL_MAX_QUEUE with
      | none => (s, .ERR_NO_FREE_IDS, none)
      | some qid =>
        if ∃ i < GW_OSAL_MAX_QUEUE, (s.gw_osal_queue_table i).free = false ∧
            queue_name = (s.gw_osal_queue_table i).name then
          (s, .ERR_NAME_TAKEN, none)
        else if os = false then (s.edit_queue qid fun _ => free_queue, .ERR, none)
        else (s.edit_queue qid (fill_queue queue_name queue_depth data_size), .OK, some qid)
  | _, _ => (s, .INVALID_POINTER, none)

/-! ## The calls -/

inductive Kind where
  | thread
  | semaphore
  | mutex
  | queue
  deriving DecidableEq

inductive Create where
  | thread (mal thread_id_null function_null : Bool) (name : Option (List Char)) (stack_size priority : UInt32)
  | semaphore (sem_id_null : Bool) (name : Option (List Char)) (sem_initial_value : UInt32)
  | mutex (mut_id_null : Bool) (name : Option (List Char))
  | queue (queue_id_null : Bool) (name : Option (List Char)) (queue_depth data_size : UInt32)
  | pri_queue (queue_id_null : Bool) (name : Option (List Char)) (queue_depth data_size : UInt32) (pri_num : Int32)

def Create.kind : Create → Kind
  | .thread .. => .thread
  | .semaphore .. => .semaphore
  | .mutex .. => .mutex
  | .queue .. | .pri_queue .. => .queue

def Create.name : Create → Option (List Char)
  | .thread _ _ _ name _ _ => name
  | .semaphore _ name _ => name
  | .mutex _ name => name
  | .queue _ name _ _ => name
  | .pri_queue _ name _ _ _ => name

/-- The tables. `live` is not the program's: the objects that were created and not deleted,
by their id, with the name that they were given. -/
structure Tables where
  os : Os
  gw_osal_thread_table : ThreadTable
  live : Kind → List (Nat × List Char)

def Tables.init : Tables := ⟨gw_osal_core_init, fun _ => free_thread, fun _ => []⟩

/-- The calls of the system below succeed. -/
def Tables.create (t : Tables) : Create → Tables × GW_E_OSAL × Option Nat
  | .thread mal thread_id_null function_null name stack_size priority =>
    let (table, ret) := gw_thread_create mal t.gw_osal_thread_table thread_id_null function_null name stack_size
      priority
    ({ t with gw_osal_thread_table := table }, ret)
  | .semaphore sem_id_null name sem_initial_value =>
    let (os, ret) := gw_semaphore_init true t.os sem_id_null name sem_initial_value
    ({ t with os }, ret)
  | .mutex mut_id_null name =>
    let (os, ret) := gw_mutex_init true t.os mut_id_null name
    ({ t with os }, ret)
  | .queue queue_id_null name queue_depth data_size =>
    let (os, ret) := gw_queue_create true t.os queue_id_null name queue_depth data_size
    ({ t with os }, ret)
  | .pri_queue queue_id_null name queue_depth data_size pri_num =>
    let (os, ret) := gw_pri_queue_create true (fun _ => true) t.os queue_id_null name queue_depth data_size pri_num
    ({ t with os }, ret)

def Tables.delete (t : Tables) (id : Nat) : Kind → Tables × GW_E_OSAL
  | .thread =>
    let (table, ret) := gw_thread_delete t.gw_osal_thread_table id
    ({ t with gw_osal_thread_table := table }, ret)
  | .semaphore =>
    let (os, ret) := gw_semaphore_destroy true t.os id
    ({ t with os }, ret)
  | .mutex =>
    let (os, ret) := gw_mutex_destroy true t.os id
    ({ t with os }, ret)
  | .queue =>
    let (os, ret) := gw_queue_delete t.os id
    ({ t with os }, ret)

inductive Request where
  | create (c : Create)
  | delete (k : Kind) (id : Nat)

def Tables.step (t : Tables) : Request → Tables
  | .create c =>
    match t.create c with
    | (t, _, some id) => { t with live := update t.live c.kind ((id, c.name.getD []) :: t.live c.kind) }
    | (t, _, none) => t
  | .delete k id =>
    match t.delete id k with
    | (t, .OK) => { t with live := update t.live k ((t.live k).filter (·.1 ≠ id)) }
    | (t, _) => t

/-! ## The law -/

/-- The name in an entry that is in use. -/
def inUse (max : Nat) (free : Bool) (name : List Char) (i : Nat) : Option (List Char) :=
  if i < max ∧ free = false then some name else none

def Tables.entry (t : Tables) (i : Nat) : Kind → Option (List Char)
  | .thread => inUse GW_OSAL_MAX_THREAD (t.gw_osal_thread_table i).free (t.gw_osal_thread_table i).name i
  | .semaphore =>
    inUse GW_OSAL_MAX_COUNT_SEM (t.os.gw_osal_count_sem_table i).free (t.os.gw_osal_count_sem_table i).name i
  | .mutex => inUse GW_OSAL_MAX_MUTEX (t.os.gw_osal_mut_table i).free (t.os.gw_osal_mut_table i).name i
  | .queue => inUse GW_OSAL_MAX_QUEUE (t.os.gw_osal_queue_table i).free (t.os.gw_osal_queue_table i).name i

/-- What `strcpy` writes from the first byte of the field on: the name, and its NUL. -/
def strcpy (name : List Char) : List Char := name ++ [Char.ofNat 0]

/-- No two entries in use have one name. -/
def Tables.Apart (t : Tables) (k : Kind) : Prop :=
  ∀ i j name, t.entry i k = some name → t.entry j k = some name → i = j

/-- The live objects of a kind have ids of their own, which are entries in use that hold the
names they were given; every name in use was copied inside its field; and no two queues and no
two mutexes have one name. -/
structure Law (t : Tables) : Prop where
  ids : ∀ k, ((t.live k).map Prod.fst).Nodup
  marked : ∀ k, ∀ p ∈ t.live k, t.entry p.1 k = some p.2
  inside : ∀ k i name, t.entry i k = some name → (strcpy name).length ≤ GW_OSAL_MAX_API_NAME
  queues : t.Apart .queue
  mutexes : t.Apart .mutex

/-- The step keeps the law, and a create that returns an error leaves the tables as they were. -/
def Keeps (t : Tables) (e : Request) : Prop :=
  Law (t.step e) ∧ ∀ c, e = .create c → (t.create c).2.1 ≠ .OK → (t.create c).1 = t

/-- No semaphore or mutex gets a name of `GW_OSAL_MAX_API_NAME` bytes, the mutexes of a priority
queue included, and no priority queue gets the name of a queue in use. -/
def Careful (t : Tables) : Request → Prop
  | .create (.semaphore sem_id_null name _) =>
    sem_id_null = false → (∃ i < GW_OSAL_MAX_COUNT_SEM, (t.os.gw_osal_count_sem_table i).free = true) →
      ∀ n ∈ name, n.length ≠ GW_OSAL_MAX_API_NAME
  | .create (.mutex mut_id_null name) =>
    mut_id_null = false → ∀ n ∈ name, ∀ m, t.os.Takes true n m → n.length ≠ GW_OSAL_MAX_API_NAME
  | .create (.pri_queue queue_id_null name queue_depth data_size pri_num) =>
    ∀ n ∈ name, t.os.Creates true queue_id_null n queue_depth data_size pri_num →
      (∀ i < pri_num.toNatClampNeg, ∀ m, t.os.Takes true (mutex_name n i) m →
        (mutex_name n i).length ≠ GW_OSAL_MAX_API_NAME) ∧
      ∀ i, t.entry i .queue ≠ some n
  | _ => True

/-! ## What a write does to the entries -/

section
variable {t t' t'' : Tables} {k : Kind} {id : Nat} {name : List Char}

/-- The entry `id` of the kind becomes `v`, and no other entry changes. -/
def Sets (t t' : Tables) (k : Kind) (id : Nat) (v : Option (List Char)) : Prop :=
  ∀ i k', t'.entry i k' = if i = id ∧ k' = k then v else t.entry i k'

@[simp] theorem inUse_free (max : Nat) (name : List Char) (i : Nat) : inUse max true name i = none := by
  simp [inUse]

theorem inUse_used {max i : Nat} (hi : i < max) (name : List Char) : inUse max false name i = some name := by
  simp [inUse, hi]

/-- No name is in an entry that is out of the table or free. -/
theorem inUse_none {max i : Nat} {free : Bool} (h : max ≤ i ∨ free = true) (name : List Char) :
    inUse max free name i = none := by
  rw [inUse, if_neg]
  rintro ⟨hi, hfree⟩
  rcases h with hout | hused
  · omega
  · rw [hused] at hfree
    cases hfree

theorem inUse_some {max i : Nat} {free : Bool} {n : List Char} (h : inUse max free n i = some name) :
    i < max ∧ free = false ∧ n = name := by
  by_cases hp : i < max ∧ free = false
  · rw [inUse, if_pos hp] at h
    exact ⟨hp.1, hp.2, Option.some.inj h⟩
  · rw [inUse, if_neg hp] at h
    cases h

theorem set_thread_sets (id : Nat) (r : osal_thread_record_t) :
    Sets t { t with gw_osal_thread_table := update t.gw_osal_thread_table id r } .thread id
      (inUse GW_OSAL_MAX_THREAD r.free r.name id) := by
  intro i k'
  by_cases hi : i = id
  · subst hi
    cases k' <;> simp [Tables.entry]
  · cases k' <;> simp [Tables.entry, hi]

theorem set_sem_sets (id : Nat) (r : osal_count_sem_record_t) :
    Sets t { t with os := t.os.set_sem id r } .semaphore id (inUse GW_OSAL_MAX_COUNT_SEM r.free r.name id) := by
  intro i k'
  by_cases hi : i = id
  · subst hi
    cases k' <;> simp [Tables.entry, Os.set_sem]
  · cases k' <;> simp [Tables.entry, Os.set_sem, hi]

theorem set_mut_sets (id : Nat) (r : osal_mut_record_t) :
    Sets t { t with os := t.os.set_mut id r } .mutex id (inUse GW_OSAL_MAX_MUTEX r.free r.name id) := by
  intro i k'
  by_cases hi : i = id
  · subst hi
    cases k' <;> simp [Tables.entry, Os.set_mut]
  · cases k' <;> simp [Tables.entry, Os.set_mut, hi]

theorem edit_queue_sets (id : Nat) (f : osal_queue_record_t → osal_queue_record_t) :
    Sets t { t with os := t.os.edit_queue id f } .queue id
      (inUse GW_OSAL_MAX_QUEUE (f (t.os.gw_osal_queue_table id)).free (f (t.os.gw_osal_queue_table id)).name id) := by
  intro i k'
  by_cases hi : i = id
  · subst hi
    cases k' <;> simp [Tables.entry, Os.edit_queue]
  · cases k' <;> simp [Tables.entry, Os.edit_queue, hi]

theorem Sets.self {v : Option (List Char)} (h : Sets t t' k id v) : t'.entry id k = v := by
  rw [h, if_pos ⟨rfl, rfl⟩]

theorem Sets.other {v : Option (List Char)} (h : Sets t t' k id v) {i : Nat} {k' : Kind}
    (hne : ¬ (i = id ∧ k' = k)) : t'.entry i k' = t.entry i k' := by
  rw [h, if_neg hne]

/-! ## Tables that grow -/

/-- The kinds whose names are looked up before they are taken. -/
def Kind.Named (k : Kind) : Prop := k = .queue ∨ k = .mutex

/-- The entries in use stay, and those that come into use have short names, which for a queue
or a mutex is a new one. -/
structure Grows (t t' : Tables) : Prop where
  kept : ∀ i k name, t.entry i k = some name → t'.entry i k = some name
  short : ∀ i k name, t'.entry i k = some name → t.entry i k = some name ∨ name.length < GW_OSAL_MAX_API_NAME
  apart : ∀ k, k.Named → t.Apart k → t'.Apart k

theorem same_grows (h : ∀ i k, t'.entry i k = t.entry i k) : Grows t t' := by
  refine ⟨?_, ?_, ?_⟩
  · intro i k name hname
    rw [h, hname]
  · intro i k name hname
    rw [h] at hname
    exact Or.inl hname
  · intro k _ hapart i j name hi hj
    rw [h] at hi hj
    exact hapart i j name hi hj

theorem Grows.trans (h : Grows t t') (h' : Grows t' t'') : Grows t t'' := by
  refine ⟨?_, ?_, ?_⟩
  · intro i k name hname
    exact h'.kept i k name (h.kept i k name hname)
  · intro i k name hname
    rcases h'.short i k name hname with hold | hshort
    · exact h.short i k name hold
    · exact Or.inr hshort
  · intro k hk hapart
    exact h'.apart k hk (h.apart k hk hapart)

/-- A free entry takes a short name; a queue or a mutex takes one that no entry has. -/
theorem Sets.grows (h : Sets t t' k id (some name)) (hfree : t.entry id k = none)
    (hshort : name.length < GW_OSAL_MAX_API_NAME) (hnew : k.Named → ∀ i, t.entry i k ≠ some name) :
    Grows t t' := by
  refine ⟨?_, ?_, ?_⟩
  · intro i k' name' hname
    rw [h.other, hname]
    rintro ⟨rfl, rfl⟩
    rw [hfree] at hname
    cases hname
  · intro i k' name' hname
    by_cases hself : i = id ∧ k' = k
    · obtain ⟨rfl, rfl⟩ := hself
      rw [h.self] at hname
      obtain rfl := Option.some.inj hname
      exact Or.inr hshort
    · rw [h.other hself] at hname
      exact Or.inl hname
  · intro k' hk' hapart i j name' hi hj
    -- the new name is not the one of an old entry
    have hself : ∀ j, k' = k → t'.entry j k' = some name → j = id := by
      rintro j rfl hj
      by_contra hne
      rw [h.other (by simp [hne])] at hj
      exact hnew hk' j hj
    by_cases hi_self : i = id ∧ k' = k
    · obtain ⟨rfl, rfl⟩ := hi_self
      rw [h.self] at hi
      obtain rfl := Option.some.inj hi
      exact (hself j rfl hj).symm
    · by_cases hj_self : j = id ∧ k' = k
      · obtain ⟨rfl, rfl⟩ := hj_self
        rw [h.self] at hj
        obtain rfl := Option.some.inj hj
        exact hself i rfl hi
      · rw [h.other hi_self] at hi
        rw [h.other hj_self] at hj
        exact hapart i j name' hi hj

/-! ## The creates -/

/-- What a careful create can do: it leaves the tables, or gives a name to a free entry. -/
inductive Tables.Creates (t : Tables) (c : Create) : Tables × GW_E_OSAL × Option Nat → Prop
  | refuses (code : GW_E_OSAL) : t.Creates c (t, code, none)
  | makes (t' : Tables) (id : Nat) (name : List Char) : c.name = some name → t.entry id c.kind = none →
      t'.entry id c.kind = some name → Grows t t' → t'.live = t.live → t.Creates c (t', .OK, some id)

theorem thread_creates (mal thread_id_null function_null : Bool) (name : Option (List Char))
    (stack_size priority : UInt32) :
    t.Creates (.thread mal thread_id_null function_null name stack_size priority)
      (t.create (.thread mal thread_id_null function_null name stack_size priority)) := by
  unfold Tables.create gw_thread_create
  dsimp only
  split
  · rename_i name _
    split_ifs with hlong hpri hmal
    · exact .refuses _
    · exact .refuses _
    · exact .refuses _
    · cases hfirst : first_free (fun i => (t.gw_osal_thread_table i).free) GW_OSAL_MAX_THREAD with
      | none => exact .refuses _
      | some id =>
        obtain ⟨hid, hfree⟩ := first_free_some hfirst
        have hsets := set_thread_sets (t := t) id ⟨false, name, stack_size, priority, true⟩
        rw [inUse_used hid] at hsets
        have hnone : t.entry id .thread = none := inUse_none (.inr hfree) _
        refine .makes _ id name rfl hnone hsets.self ?_ rfl
        refine hsets.grows hnone (Nat.not_le.mp hlong) ?_
        simp [Kind.Named]
  · exact .refuses _

/-- A semaphore takes the first free entry. -/
theorem semaphore_takes {id : Nat} (hid : id < GW_OSAL_MAX_COUNT_SEM)
    (hfree : (t.os.gw_osal_count_sem_table id).free = true) (value : Nat)
    (hshort : name.length < GW_OSAL_MAX_API_NAME) :
    t.entry id .semaphore = none ∧
      Sets t { t with os := t.os.set_sem id ⟨false, value, name⟩ } .semaphore id (some name) ∧
      Grows t { t with os := t.os.set_sem id ⟨false, value, name⟩ } := by
  have hsets := set_sem_sets (t := t) id ⟨false, value, name⟩
  rw [inUse_used hid] at hsets
  have hnone : t.entry id .semaphore = none := inUse_none (.inr hfree) _
  refine ⟨hnone, hsets, hsets.grows hnone hshort ?_⟩
  simp [Kind.Named]

theorem semaphore_creates (sem_id_null : Bool) (name : Option (List Char)) (value : UInt32)
    (h : Careful t (.create (.semaphore sem_id_null name value))) :
    t.Creates (.semaphore sem_id_null name value) (t.create (.semaphore sem_id_null name value)) := by
  unfold Tables.create gw_semaphore_init
  dsimp only
  split
  · rename_i name
    split
    · exact .refuses _
    · rename_i hlong
      cases hfirst : first_free (fun i => (t.os.gw_osal_count_sem_table i).free) GW_OSAL_MAX_COUNT_SEM with
      | none => exact .refuses _
      | some id =>
        obtain ⟨hid, hfree⟩ := first_free_some hfirst
        have hne := h rfl ⟨id, hid, hfree⟩ name rfl
        have hshort : name.length < GW_OSAL_MAX_API_NAME := by omega
        obtain ⟨hnone, hsets, hgrows⟩ := semaphore_takes hid hfree value.toNat hshort
        exact .makes _ id name rfl hnone hsets.self hgrows rfl
  · exact .refuses _

/-- An entry that a mutex takes is free, and no entry has its name. -/
theorem mutex_takes {os : Bool} {m : Nat} (h : t.os.Takes os name m) (hlen : name.length ≠ GW_OSAL_MAX_API_NAME) :
    t.entry m .mutex = none ∧ Sets t { t with os := t.os.set_mut m ⟨false, name⟩ } .mutex m (some name) ∧
      Grows t { t with os := t.os.set_mut m ⟨false, name⟩ } := by
  have hsets := set_mut_sets (t := t) m ⟨false, name⟩
  rw [inUse_used h.known] at hsets
  have hnone : t.entry m .mutex = none := inUse_none (.inr h.free) _
  have hshort : name.length < GW_OSAL_MAX_API_NAME := Nat.lt_of_le_of_ne h.short hlen
  refine ⟨hnone, hsets, hsets.grows hnone hshort ?_⟩
  intro _ i hi
  obtain ⟨hlt, hused, hname⟩ := inUse_some hi
  exact h.untaken i hlt hused hname.symm

theorem mutex_creates (mut_id_null : Bool) (name : Option (List Char))
    (h : Careful t (.create (.mutex mut_id_null name))) :
    t.Creates (.mutex mut_id_null name) (t.create (.mutex mut_id_null name)) := by
  unfold Tables.create gw_mutex_init
  dsimp only
  split
  · rename_i name
    split
    · exact .refuses _
    · rename_i hlong
      cases hfirst : first_free (fun i => (t.os.gw_osal_mut_table i).free) GW_OSAL_MAX_MUTEX with
      | none => exact .refuses _
      | some m =>
        dsimp only
        obtain ⟨hlt, hfree⟩ := first_free_some hfirst
        split
        · exact .refuses _
        · rename_i htaken
          have htakes : t.os.Takes true name m := by
            refine ⟨hlt, hfree, Nat.not_lt.mp hlong, ?_, rfl⟩
            intro k hk hused hsame
            exact htaken ⟨k, hk, hused, hsame⟩
          obtain ⟨hnone, hsets, hgrows⟩ := mutex_takes htakes (h rfl name rfl m htakes)
          exact .makes _ m name rfl hnone hsets.self hgrows rfl
  · exact .refuses _

/-- A free entry of the queue table takes a name that no entry has. -/
theorem queue_takes {f : osal_queue_record_t → osal_queue_record_t} (hid : id < GW_OSAL_MAX_QUEUE)
    (hnone : t.entry id .queue = none) (hf : ∀ q, (f q).free = false ∧ (f q).name = name)
    (hshort : name.length < GW_OSAL_MAX_API_NAME) (hnew : ∀ i, t.entry i .queue ≠ some name) :
    Sets t { t with os := t.os.edit_queue id f } .queue id (some name) ∧
      Grows t { t with os := t.os.edit_queue id f } := by
  have hsets := edit_queue_sets (t := t) id f
  rw [(hf _).1, (hf _).2, inUse_used hid] at hsets
  exact ⟨hsets, hsets.grows hnone hshort fun _ => hnew⟩

theorem queue_creates (queue_id_null : Bool) (name : Option (List Char)) (queue_depth data_size : UInt32) :
    t.Creates (.queue queue_id_null name queue_depth data_size)
      (t.create (.queue queue_id_null name queue_depth data_size)) := by
  unfold Tables.create gw_queue_create
  dsimp only
  split
  · rename_i name
    split
    · exact .refuses _
    split
    · exact .refuses _
    · rename_i hlong
      cases hfirst : first_free (fun i => (t.os.gw_osal_queue_table i).free) GW_OSAL_MAX_QUEUE with
      | none => exact .refuses _
      | some qid =>
        dsimp only
        obtain ⟨hid, hfree⟩ := first_free_some hfirst
        split
        · exact .refuses _
        · rename_i htaken
          have hnone : t.entry qid .queue = none := inUse_none (.inr hfree) _
          have hnew : ∀ i, t.entry i .queue ≠ some name := by
            intro i hi
            obtain ⟨hlt, hused, hname⟩ := inUse_some hi
            exact htaken ⟨i, hlt, hused, hname.symm⟩
          obtain ⟨hsets, hgrows⟩ := queue_takes (f := fill_queue name queue_depth data_size) hid hnone
            (fun _ => ⟨rfl, rfl⟩) (Nat.not_le.mp hlong) hnew
          exact .makes _ qid name rfl hnone hsets.self hgrows rfl
  · exact .refuses _

/-! ## A priority queue -/

/-- The tables grow, and the queues are what they were. -/
structure Prepares (t t' : Tables) : Prop where
  grows : Grows t t'
  queues : ∀ i, t'.entry i .queue = t.entry i .queue
  live : t'.live = t.live

theorem Prepares.trans (h : Prepares t t') (h' : Prepares t' t'') : Prepares t t'' :=
  ⟨h.grows.trans h'.grows, fun i => (h'.queues i).trans (h.queues i), h'.live.trans h.live⟩

theorem prepares_refl (t : Tables) : Prepares t t := ⟨same_grows fun _ _ => rfl, fun _ => rfl, rfl⟩

/-- A write to a queue that leaves its name and whether it is in use. -/
theorem edit_prepares (id : Nat) {f : osal_queue_record_t → osal_queue_record_t}
    (hf : ∀ q, (f q).free = q.free ∧ (f q).name = q.name) :
    Prepares t { t with os := t.os.edit_queue id f } := by
  have hsets := edit_queue_sets (t := t) id f
  rw [(hf _).1, (hf _).2] at hsets
  have hsame : ∀ i k, Tables.entry { t with os := t.os.edit_queue id f } i k = t.entry i k := by
    intro i k
    rw [hsets]
    split
    · rename_i hself
      obtain ⟨rfl, rfl⟩ := hself
      rfl
    · rfl
  exact ⟨same_grows hsame, fun i => hsame i .queue, rfl⟩

theorem mutex_prepares {os : Bool} {m : Nat} (h : t.os.Takes os name m)
    (hlen : name.length ≠ GW_OSAL_MAX_API_NAME) :
    Prepares t { t with os := t.os.set_mut m ⟨false, name⟩ } := by
  obtain ⟨-, hsets, hgrows⟩ := mutex_takes h hlen
  exact ⟨hgrows, fun i => hsets.other (by simp), rfl⟩

theorem free_mut_prepares {m : Nat} (hfree : (t.os.gw_osal_mut_table m).free = true) :
    Prepares t { t with os := t.os.set_mut m free_mut } := by
  have hsets := set_mut_sets (t := t) m free_mut
  rw [show free_mut.free = true from rfl, inUse_free] at hsets
  have hsame : ∀ i k, Tables.entry { t with os := t.os.set_mut m free_mut } i k = t.entry i k := by
    intro i k
    rw [hsets]
    split
    · rename_i hself
      obtain ⟨rfl, rfl⟩ := hself
      exact (inUse_none (.inr hfree) _).symm
    · rfl
  exact ⟨same_grows hsame, fun i => hsame i .queue, rfl⟩

/-- One turn of the loop, when no free mutex is taken for a name of `GW_OSAL_MAX_API_NAME` bytes. -/
theorem turn_prepares (t : Tables) {s s' : Os} {mut_os : Nat → Bool} {qid i : Nat} (h : s.Turn mut_os name qid i s')
    (hlen : ∀ m, s.Takes (mut_os i) (mutex_name name i) m → (mutex_name name i).length ≠ GW_OSAL_MAX_API_NAME) :
    Prepares { t with os := s } { t with os := s' } := by
  cases h with
  | refuses => exact edit_prepares (t := { t with os := s }) qid (f := .set_list i gw_lst_init) fun _ => ⟨rfl, rfl⟩
  | fails m hfree =>
    have hinit := free_mut_prepares (t := { t with os := s }) hfree
    exact hinit.trans (edit_prepares qid (f := .set_list i gw_lst_init) fun _ => ⟨rfl, rfl⟩)
  | makes m htakes =>
    have hinit := mutex_prepares (t := { t with os := s }) htakes (hlen m htakes)
    have hlist := hinit.trans (edit_prepares qid (f := .set_list i gw_lst_init) fun _ => ⟨rfl, rfl⟩)
    exact hlist.trans (edit_prepares qid (f := .set_mutex i m) fun _ => ⟨rfl, rfl⟩)

theorem create_priorities_prepare (t : Tables) (s : Os) (name : List Char) (qid n : Nat) (hlen : ∀ i < n, ∀ m,
    s.Takes true (mutex_name name i) m → (mutex_name name i).length ≠ GW_OSAL_MAX_API_NAME) :
    Prepares { t with os := s }
      { t with os := (List.range n).foldl (Os.create_priority (fun _ => true) name qid) s } := by
  induction n with
  | zero => exact prepares_refl _
  | succ n ih =>
    have hbefore := ih fun i hi => hlen i (Nat.lt_succ_of_lt hi)
    have hturned := create_priorities_turned s (fun _ => true) name qid n
    rw [List.range_succ, List.foldl_append, List.foldl_cons, List.foldl_nil]
    refine hbefore.trans (turn_prepares t (create_priority_turn _ name qid n) ?_)
    -- what the turn takes could be taken before the first one
    exact fun m hm => hlen n (Nat.lt_succ_self n) m (hturned.takes hm)

theorem pri_queue_sem_name_short {qid : Nat} (h : qid < GW_OSAL_MAX_QUEUE) :
    (pri_queue_sem_name qid).length < GW_OSAL_MAX_API_NAME := by
  have hdigit : qid < 10 := h
  rw [pri_queue_sem_name, Nat.toDigits_of_lt_base hdigit]
  simp [GW_OSAL_MAX_API_NAME]

theorem pri_queue_creates (queue_id_null : Bool) (name : Option (List Char)) (queue_depth data_size : UInt32)
    (pri_num : Int32) (h : Careful t (.create (.pri_queue queue_id_null name queue_depth data_size pri_num))) :
    t.Creates (.pri_queue queue_id_null name queue_depth data_size pri_num)
      (t.create (.pri_queue queue_id_null name queue_depth data_size pri_num)) := by
  unfold Tables.create gw_pri_queue_create
  dsimp only
  split
  · rename_i name
    split
    · exact .refuses _
    rename_i hzero
    split
    · exact .refuses _
    rename_i hpri
    split
    · exact .refuses _
    rename_i hlong
    cases hfirst : first_free (fun i => (t.os.gw_osal_queue_table i).free) GW_OSAL_MAX_QUEUE with
    | none => exact .refuses _
    | some qid =>
      obtain ⟨hid, hfree⟩ := first_free_some hfirst
      dsimp only
      unfold gw_semaphore_init
      dsimp only
      have hsem_short := pri_queue_sem_name_short hid
      rw [if_neg (by omega)]
      cases hsem : first_free (fun i => (t.os.gw_osal_count_sem_table i).free) GW_OSAL_MAX_COUNT_SEM with
      | none => exact .refuses _
      | some sem =>
        obtain ⟨hsem_id, hsem_free⟩ := first_free_some hsem
        obtain ⟨hzero_depth, hzero_size⟩ := not_or.mp hzero
        obtain ⟨hlow, hhigh⟩ := not_or.mp hpri
        have hcreates : t.os.Creates true false name queue_depth data_size pri_num :=
          ⟨rfl, hzero_depth, hzero_size, Int32.not_le.mp hlow, Int32.not_lt.mp hhigh, Nat.not_le.mp hlong,
            ⟨qid, hid, hfree⟩, ⟨sem, hsem_id, hsem_free⟩, rfl⟩
        obtain ⟨hlen, hnew⟩ := h name rfl hcreates
        obtain ⟨hsem_none, hsem_sets, hsem_grows⟩ := semaphore_takes hsem_id hsem_free 0 hsem_short
        have hsem_prepares : Prepares t { t with os := t.os.set_sem sem ⟨false, 0, pri_queue_sem_name qid⟩ } :=
          ⟨hsem_grows, fun i => hsem_sets.other (by simp), rfl⟩
        have hid_prepares := hsem_prepares.trans
          (edit_prepares qid (f := fun q => { q with cnt_sem_id := sem }) fun _ => ⟨rfl, rfl⟩)
        -- the new semaphore and its id do not matter to the mutexes
        have hall := hid_prepares.trans (create_priorities_prepare t _ name qid pri_num.toNatClampNeg
          fun i hi m hm => hlen i hi m ⟨hm.known, hm.free, hm.short, hm.untaken, hm.os⟩)
        have hnone : t.entry qid .queue = none := inUse_none (.inr hfree) _
        obtain ⟨hsets, hgrows⟩ := queue_takes (f := .fill name queue_depth data_size pri_num) hid
          ((hall.queues qid).trans hnone) (fun _ => ⟨rfl, rfl⟩) (Nat.not_le.mp hlong)
          fun i => by rw [hall.queues i]; exact hnew i
        exact .makes _ qid name rfl hnone hsets.self (hall.grows.trans hgrows) rfl
  · exact .refuses _

theorem careful_creates {c : Create} (h : Careful t (.create c)) : t.Creates c (t.create c) := by
  cases c with
  | thread mal thread_id_null function_null name stack_size priority =>
    exact thread_creates mal thread_id_null function_null name stack_size priority
  | semaphore sem_id_null name value => exact semaphore_creates sem_id_null name value h
  | mutex mut_id_null name => exact mutex_creates mut_id_null name h
  | queue queue_id_null name queue_depth data_size => exact queue_creates queue_id_null name queue_depth data_size
  | pri_queue queue_id_null name queue_depth data_size pri_num =>
    exact pri_queue_creates queue_id_null name queue_depth data_size pri_num h

/-! ## The deletes -/

/-- What a delete can do: it leaves the tables, or frees the entry. -/
inductive Tables.Deletes (t : Tables) (id : Nat) (k : Kind) : Tables × GW_E_OSAL → Prop
  | refuses (code : GW_E_OSAL) : code ≠ .OK → t.Deletes id k (t, code)
  | frees (t' : Tables) : Sets t t' k id none → t'.live = t.live → t.Deletes id k (t', .OK)

theorem invalid_id_fails : GW_E_OSAL.ERR_INVALID_ID ≠ .OK := by decide

theorem deletes (t : Tables) (id : Nat) (k : Kind) : t.Deletes id k (t.delete id k) := by
  unfold Tables.delete
  cases k with
  | thread =>
    have hsets := set_thread_sets (t := t) id free_thread
    dsimp only
    unfold gw_thread_delete
    split
    · exact .refuses _ invalid_id_fails
    · exact .frees _ (by simpa [free_thread] using hsets) rfl
  | semaphore =>
    have hsets := set_sem_sets (t := t) id free_sem
    dsimp only
    unfold gw_semaphore_destroy
    split
    · exact .refuses _ invalid_id_fails
    · exact .frees _ (by simpa [free_sem] using hsets) rfl
  | mutex =>
    have hsets := set_mut_sets (t := t) id free_mut
    dsimp only
    unfold gw_mutex_destroy
    split
    · exact .refuses _ invalid_id_fails
    · exact .frees _ (by simpa [free_mut] using hsets) rfl
  | queue =>
    have hsets := edit_queue_sets (t := t) id fun _ => free_queue
    dsimp only
    unfold gw_queue_delete
    split
    · exact .refuses _ invalid_id_fails
    · exact .frees _ (by simpa [free_queue] using hsets) rfl

/-! ## The step -/

/-- A new object has an id of its own. -/
theorem made_law {c : Create} (h : Law t) (hname : c.name = some name) (hfree : t.entry id c.kind = none)
    (hentry : t'.entry id c.kind = some name) (hgrows : Grows t t') :
    Law { t' with live := update t.live c.kind ((id, c.name.getD []) :: t.live c.kind) } := by
  have hnew : ∀ p ∈ t.live c.kind, p.1 ≠ id := by
    rintro p hp rfl
    rw [h.marked c.kind p hp] at hfree
    cases hfree
  refine ⟨?_, ?_, ?_, ?_, ?_⟩
  · intro k
    dsimp only
    by_cases hk : k = c.kind
    · subst hk
      rw [update_self, List.map_cons, List.nodup_cons]
      refine ⟨?_, h.ids _⟩
      rw [List.mem_map]
      rintro ⟨p, hp, hid⟩
      exact hnew p hp hid
    · rw [update_of_ne hk]
      exact h.ids k
  · intro k p hp
    dsimp only at hp
    change t'.entry p.1 k = some p.2
    by_cases hk : k = c.kind
    · subst hk
      rw [update_self] at hp
      rcases List.mem_cons.mp hp with rfl | hold
      · rw [hentry, hname]
        rfl
      · exact hgrows.kept _ _ _ (h.marked _ p hold)
    · rw [update_of_ne hk] at hp
      exact hgrows.kept _ _ _ (h.marked k p hp)
  · intro k i n hn
    rcases hgrows.short i k n hn with hold | hshort
    · exact h.inside k i n hold
    · rw [strcpy, List.length_append]
      exact hshort
  · exact hgrows.apart .queue (.inl rfl) h.queues
  · exact hgrows.apart .mutex (.inr rfl) h.mutexes

theorem freed_law (h : Law t) (hsets : Sets t t' k id none) :
    Law { t' with live := update t.live k ((t.live k).filter (·.1 ≠ id)) } := by
  have hold : ∀ i k' n, t'.entry i k' = some n → t.entry i k' = some n := by
    intro i k' n hn
    by_cases hself : i = id ∧ k' = k
    · obtain ⟨rfl, rfl⟩ := hself
      rw [hsets.self] at hn
      cases hn
    · rw [← hsets.other hself, hn]
  refine ⟨?_, ?_, ?_, ?_, ?_⟩
  · intro k'
    dsimp only
    by_cases hk : k' = k
    · subst hk
      rw [update_self]
      exact (h.ids k').sublist (List.filter_sublist.map _)
    · rw [update_of_ne hk]
      exact h.ids k'
  · intro k' p hp
    dsimp only at hp
    change t'.entry p.1 k' = some p.2
    by_cases hk : k' = k
    · subst hk
      rw [update_self, List.mem_filter] at hp
      have hne : p.1 ≠ id := by simpa using hp.2
      rw [hsets.other (by simp [hne])]
      exact h.marked k' p hp.1
    · rw [update_of_ne hk] at hp
      rw [hsets.other (by simp [hk])]
      exact h.marked k' p hp
  · intro k' i n hn
    exact h.inside k' i n (hold i k' n hn)
  · intro i j n hi hj
    exact h.queues i j n (hold i _ n hi) (hold j _ n hj)
  · intro i j n hi hj
    exact h.mutexes i j n (hold i _ n hi) (hold j _ n hj)

theorem init_law : Law Tables.init := by
  have hentry : ∀ i k, Tables.init.entry i k = none := by
    intro i k
    cases k <;> exact inUse_free _ _ _
  refine ⟨fun _ => List.nodup_nil, fun _ _ hp => absurd hp List.not_mem_nil, ?_, ?_, ?_⟩
  · intro k i n hn
    rw [hentry] at hn
    cases hn
  · intro i j n hi
    rw [hentry] at hi
    cases hi
  · intro i j n hi
    rw [hentry] at hi
    cases hi

theorem careful_keeps (h : Law t) {e : Request} (hc : Careful t e) : Keeps t e := by
  cases e with
  | create c =>
    have hcreates := careful_creates hc
    have herror : (t.create c).2.1 ≠ .OK → (t.create c).1 = t := by
      intro hcode
      cases hcr : t.create c with
      | mk t' r =>
        rw [hcr] at hcreates hcode
        cases hcreates with
        | refuses => rfl
        | makes => exact absurd rfl hcode
    refine ⟨?_, ?_⟩
    · unfold Tables.step
      dsimp only
      cases hcr : t.create c with
      | mk t' r =>
        rw [hcr] at hcreates
        cases hcreates with
        | refuses => exact h
        | makes _ id name hname hfree hentry hgrows hlive =>
          dsimp only
          rw [hlive]
          exact made_law h hname hfree hentry hgrows
    · rintro _ ⟨⟩
      exact herror
  | delete k id =>
    refine ⟨?_, fun c hcreate => absurd hcreate Request.noConfusion⟩
    have hdeletes := deletes t id k
    unfold Tables.step
    dsimp only
    cases hdel : t.delete id k with
    | mk t' code =>
      rw [hdel] at hdeletes
      cases hdeletes with
      | refuses _ hcode =>
        cases code <;> first | exact h | exact absurd rfl hcode
      | frees _ hsets hlive =>
        dsimp only
        rw [hlive]
        exact freed_law h hsets

end

/-! ## Every run -/

/-- A name of 20 bytes. -/
def long_name : List Char := List.replicate 20 'x'

/-- The NUL of a long name is written behind the field, and two priority queues get one name. -/
theorem long_names_and_two_queues_break_the_law :
    ¬ Along Tables.step Keeps Tables.init [.create (.semaphore false (some long_name) 0)] ∧
    ¬ Along Tables.step Keeps Tables.init [.create (.mutex false (some long_name))] ∧
    ¬ Along Tables.step Keeps Tables.init
      [.create (.pri_queue false (some ['q']) 1 1 1), .create (.pri_queue false (some ['q']) 1 1 1)] := by
  refine ⟨?_, ?_, ?_⟩
  · rintro ⟨⟨hlaw, -⟩, -⟩
    exact absurd (hlaw.inside .semaphore 0 long_name (by decide +kernel)) (by decide)
  · rintro ⟨⟨hlaw, -⟩, -⟩
    exact absurd (hlaw.inside .mutex 0 long_name (by decide +kernel)) (by decide)
  · rintro ⟨-, ⟨hlaw, -⟩, -⟩
    exact absurd (hlaw.queues 0 1 ['q'] (by decide +kernel) (by decide +kernel)) (by decide)

/-- While no lock gets a name that fills its field and no priority queue a name that is in use,
the tables keep their law. -/
theorem the_object_tables_are_kept (es : List Request) (h : Along Tables.step Careful Tables.init es) :
    Along Tables.step Keeps Tables.init es :=
  along_imp (I := Law) (fun _ _ hlaw hc => (careful_keeps hlaw hc).1) (fun _ _ hlaw hc => careful_keeps hlaw hc)
    init_law h

theorem a_mutex_and_a_queue_are_kept :
    Along Tables.step Keeps Tables.init
      [.create (.mutex false (some ['m'])), .create (.queue false (some ['q']) 1 1), .delete .mutex 0] := by
  refine the_object_tables_are_kept _ ⟨?_, trivial, trivial, trivial⟩
  rintro - n hn m -
  obtain rfl := Option.some.inj hn
  decide

end gwdonu.os_tables
