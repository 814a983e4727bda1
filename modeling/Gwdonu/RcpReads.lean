-- What the RCP reads allocate: a node, a slot of the list and a semaphore each. They are
-- given back in another order on each path, and one path gives nothing back.
import Gwdonu.RcpChannel
import Mathlib.Data.List.ReduceOption

namespace gwdonu.rcp

open Function os_core runs

variable {s₀ s t : State} {p q : Nat} {c d : Caller} {P : Caller → Bool}

/-! ## The law -/

/-- The read is in the list, from its store to its delete. -/
def Caller.Listed (c : Caller) : Bool :=
  match c.pc with
  | .build | .take _ | .send | .wait _ | .value | .semDelete | .delete => c.kind.isRead
  | .give => c.kind.isRead && !c.kind.locks
  | .port | .insert | .store _ | .returned => false

/-- The read has a node, from its start to its delete. -/
def Caller.HasNode (c : Caller) : Bool :=
  match c.pc with
  | .insert | .store _ => c.kind.isRead
  | _ => c.Listed

/-- The read has a semaphore, which it deletes before it leaves the list. -/
def Caller.HasSem (c : Caller) : Bool := c.HasNode && c.pc ≠ .delete

/-- A call of this kind has the number. -/
def State.Has (s : State) (P : Caller → Bool) (q : Nat) : Prop :=
  ∃ p c, s.caller p = some c ∧ c.pReg = q ∧ P c = true

/-- No read is in the list twice. -/
def Once (l : List (Option Nat)) : Prop :=
  ∀ (i j q : Nat), l[i]? = some (some q) → l[j]? = some (some q) → i = j

/-- The list holds the reads that are in progress, each once. When none is, nothing is
left in use of what was free at the start. -/
structure Tidy (s₀ s : State) : Prop where
  listed : ∀ q, some q ∈ s.rcpRegList ↔ s.Has Caller.Listed q
  once : Once s.rcpRegList
  idle : (∀ q, ¬ s.Has Caller.HasNode q) →
    (∀ q, some q ∉ s.rcpRegList) ∧ (∀ q, s.live q = false) ∧ (∀ id, s.holder id = none) ∧
      ∀ id, (s.os.gw_osal_count_sem_table id).free = (s₀.os.gw_osal_count_sem_table id).free

/-- `RCP_RegList_Update` writes to a node that is in use, and gives the semaphore that was
created for it. -/
def PostsItsOwn (s : State) (e : Event) : Prop :=
  e = .complete → ∀ q r, s.updating = some (q, r) →
    s.live q = true ∧ s.holder (s.reg q).semAccess = some q

def KeepsBooks (s₀ s : State) (e : Event) : Prop := PostsItsOwn s e ∧ Tidy s₀ (s.step e)

/-- The calls of the system below succeed where a read does not look: `sem_destroy`, and the
creation of the semaphore of a 32-bit read. -/
def SystemWorks (s : State) (e : Event) : Prop :=
  (∀ p ok vid c, e = .turn p ok vid → s.caller p = some c →
    c.pc = .semDelete ∨ c.pc = .insert → ok = true) ∧
  ∀ p dev regAddr os, e = .call p (.RCP_Read_32bit_Reg (some dev) regAddr false) true os →
    gw_rcp_sem_create os s.os Kind.read32.semName 0 ≠ none

/-- A 32-bit read finds a slot, and a slot that a read has found is still free when it is
written. A reply does not find a read between its delete of the semaphore and its delete of
the entry, and no read deletes its semaphore while a reply is written to its entry. -/
structure Careful (s : State) (e : Event) : Prop where
  room : ∀ p ok vid c, e = .turn p ok vid → s.caller p = some c → c.pc = .insert → c.kind = .read32 →
    freeSlot s.rcpRegList ≠ none
  kept : ∀ p ok vid c i, e = .turn p ok vid → s.caller p = some c → c.pc = .store i →
    s.rcpRegList[i]? = some none
  found : ∀ i r q, e = .deliver i → s.inflight[i]? = some r → s.Finds r q →
    ∀ p c, s.caller p = some c → c.pReg = q → c.pc ≠ .delete
  written : ∀ p ok vid c q r, e = .turn p ok vid → s.caller p = some c → c.pc = .semDelete →
    s.updating = some (q, r) → q ≠ c.pReg

/-! ## Who has what -/

/-- Calls have numbers of their own. -/
structure Numbered (s : State) : Prop where
  below : ∀ p c, s.caller p = some c → c.pReg < s.calls
  apart : ∀ p q c d, s.caller p = some c → s.caller q = some d → c.pReg = d.pReg → p = q

/-- A call of another thread. -/
def State.Other (s : State) (p : Nat) (P : Caller → Bool) (q : Nat) : Prop :=
  ∃ p' c, p' ≠ p ∧ s.caller p' = some c ∧ c.pReg = q ∧ P c = true

theorem has_iff : s.Has P q ↔ (∃ c, s.caller p = some c ∧ c.pReg = q ∧ P c = true) ∨ s.Other p P q := by
  constructor
  · rintro ⟨p', c, hp, hq, hP⟩
    by_cases hp' : p' = p
    · subst hp'
      exact .inl ⟨c, hp, hq, hP⟩
    · exact .inr ⟨p', c, hp', hp, hq, hP⟩
  · rintro (⟨c, hp, hq, hP⟩ | ⟨p', c, -, hp, hq, hP⟩)
    · exact ⟨p, c, hp, hq, hP⟩
    · exact ⟨p', c, hp, hq, hP⟩

theorem has_set (hcaller : t.caller = s.caller) :
    (t.set p d).Has P q ↔ (d.pReg = q ∧ P d = true) ∨ s.Other p P q := by
  rw [has_iff (p := p)]
  refine or_congr ?_ ?_
  · simp
  · unfold State.Other
    refine exists_congr fun p' => exists_congr fun c => ?_
    constructor
    · rintro ⟨hne, hp, h⟩
      rw [set_other t p d hne, hcaller] at hp
      exact ⟨hne, hp, h⟩
    · rintro ⟨hne, hp, h⟩
      refine ⟨hne, ?_, h⟩
      rw [set_other t p d hne, hcaller]
      exact hp

/-- A call goes on and stays of the kind, or stays not of the kind. -/
theorem has_same (hp : s.caller p = some c) (hcaller : t.caller = s.caller) (hreg : d.pReg = c.pReg)
    (hP : P d = P c) : s.Has P q ↔ (t.set p d).Has P q := by
  rw [has_set hcaller, has_iff (p := p)]
  refine or_congr_left ?_
  simp [hp, hreg, hP]

/-- A call is of the kind no more. -/
theorem has_drop (hn : Numbered s) (hp : s.caller p = some c) (hcaller : t.caller = s.caller)
    (hP : P d = false) : s.Has P q ∧ q ≠ c.pReg ↔ (t.set p d).Has P q := by
  rw [has_set hcaller, has_iff (p := p)]
  symm
  constructor
  · rintro (⟨-, hd⟩ | ⟨p', c', hne, hp', hq, hc'⟩)
    · rw [hP] at hd
      cases hd
    · refine ⟨.inr ⟨p', c', hne, hp', hq, hc'⟩, ?_⟩
      rintro rfl
      exact hne (hn.apart p' p c' c hp' hp hq)
  · rintro ⟨⟨c', hp', hq, -⟩ | hother, hne⟩
    · obtain rfl := Option.some.inj (hp.symm.trans hp')
      exact absurd hq.symm hne
    · exact .inr hother

/-- A call comes to be of the kind. -/
theorem has_add (hold : ∀ c, s.caller p = some c → P c = true → c.pReg = d.pReg)
    (hcaller : t.caller = s.caller) (hP : P d = true) :
    q = d.pReg ∨ s.Has P q ↔ (t.set p d).Has P q := by
  rw [has_set hcaller, has_iff (p := p)]
  symm
  constructor
  · rintro (⟨rfl, -⟩ | hother)
    · exact .inl rfl
    · exact .inr (.inr hother)
  · rintro (rfl | ⟨c, hp, rfl, hc⟩ | hother)
    · exact .inl ⟨rfl, hP⟩
    · exact .inl ⟨(hold c hp hc).symm, hP⟩
    · exact .inr hother

/-- A call that begins, where the thread had no call of the kind. -/
theorem has_none (hold : ∀ c, s.caller p = some c → P c = false) (hcaller : t.caller = s.caller)
    (hP : P d = false) : s.Has P q ↔ (t.set p d).Has P q := by
  rw [has_set hcaller, has_iff (p := p)]
  refine or_congr_left ?_
  rw [hP]
  constructor
  · rintro ⟨c, hp, -, hc⟩
    rw [hold c hp] at hc
    cases hc
  · rintro ⟨-, ⟨⟩⟩

/-! ## The list -/

section
variable {l : List (Option Nat)} {i k : Nat}

theorem slot_set (hi : l[i]? = some none) (j : Nat) :
    (l.set i (some k))[j]? = some (some q) ↔ j = i ∧ q = k ∨ l[j]? = some (some q) := by
  have hlt : i < l.length := (List.getElem?_eq_some_iff.mp hi).1
  by_cases hj : i = j
  · subst hj
    rw [List.getElem?_set_self hlt, hi]
    simp [eq_comm]
  · rw [List.getElem?_set_ne hj]
    simp [Ne.symm hj]

theorem mem_store (hi : l[i]? = some none) : some q ∈ l.set i (some k) ↔ q = k ∨ some q ∈ l := by
  simp only [List.mem_iff_getElem?, slot_set hi]
  constructor
  · rintro ⟨j, ⟨-, rfl⟩ | hj⟩
    · exact .inl rfl
    · exact .inr ⟨j, hj⟩
  · rintro (rfl | ⟨j, hj⟩)
    · exact ⟨i, .inl ⟨rfl, rfl⟩⟩
    · exact ⟨j, .inr hj⟩

theorem once_store (h : Once l) (hi : l[i]? = some none) (hk : some k ∉ l) : Once (l.set i (some k)) := by
  intro a b q ha hb
  rw [slot_set hi] at ha hb
  rcases ha with ⟨rfl, rfl⟩ | ha
  · rcases hb with ⟨rfl, -⟩ | hb
    · rfl
    · exact absurd (List.mem_of_getElem? hb) hk
  · rcases hb with ⟨-, rfl⟩ | hb
    · exact absurd (List.mem_of_getElem? ha) hk
    · exact h a b q ha hb

theorem slot_delete (h : Once l) (j : Nat) :
    (RCP_RegList_Delete l k)[j]? = some (some q) ↔ l[j]? = some (some q) ∧ q ≠ k := by
  unfold RCP_RegList_Delete
  split
  · rename_i hnone
    rw [List.findIdx?_eq_none_iff] at hnone
    refine ⟨fun hj => ⟨hj, ?_⟩, And.left⟩
    rintro rfl
    simpa using hnone _ (List.mem_of_getElem? hj)
  · rename_i i hi
    obtain ⟨hlt, hslot, -⟩ := List.findIdx?_eq_some_iff_getElem.mp hi
    have hslot : l[i]? = some (some k) := by
      rw [List.getElem?_eq_getElem hlt, of_decide_eq_true hslot]
    by_cases hj : i = j
    · subst hj
      rw [List.getElem?_set_self hlt, hslot]
      constructor
      · nofun
      · rintro ⟨hq, hne⟩
        exact absurd (Option.some.inj (Option.some.inj hq)).symm hne
    · rw [List.getElem?_set_ne hj]
      refine ⟨fun hq => ⟨hq, ?_⟩, And.left⟩
      rintro rfl
      exact hj (h i j q hslot hq)

theorem mem_delete (h : Once l) : some q ∈ RCP_RegList_Delete l k ↔ some q ∈ l ∧ q ≠ k := by
  simp only [List.mem_iff_getElem?, slot_delete h]
  exact exists_and_right

theorem once_delete (h : Once l) (k : Nat) : Once (RCP_RegList_Delete l k) := by
  intro a b q ha hb
  rw [slot_delete h] at ha hb
  exact h a b q ha.1 hb.1

end

/-! ## The books -/

/-- A read is at the steps of a read, and no read is at the loop over the ports. -/
def Caller.Shaped (c : Caller) : Bool :=
  match c.pc with
  | .insert | .store _ | .wait _ | .value | .semDelete | .delete => c.kind.isRead
  | .port => !c.kind.isRead
  | .build | .take _ | .send | .give | .returned => true

/-- A reply can be written to the entry: the read is in the list and has its semaphore. -/
def Caller.Open (c : Caller) : Bool := c.HasSem && c.Listed

structure Sound (s₀ s : State) : Prop where
  numbered : Numbered s
  shaped : ∀ p c, s.caller p = some c → c.Shaped = true
  live : ∀ q, s.live q = true ↔ s.Has Caller.HasNode q
  holder : ∀ id q, s.holder id = some q ↔ s.Has Caller.HasSem q ∧ (s.reg q).semAccess = id
  known : ∀ id q, s.holder id = some q → id < GW_OSAL_MAX_COUNT_SEM
  free : ∀ id, (s.os.gw_osal_count_sem_table id).free = true ↔
    (s₀.os.gw_osal_count_sem_table id).free = true ∧ s.holder id = none
  held : ∀ id q, s.holder id = some q → (s₀.os.gw_osal_count_sem_table id).free = true
  listed : ∀ q, some q ∈ s.rcpRegList ↔ s.Has Caller.Listed q
  once : Once s.rcpRegList
  updating : ∀ q r, s.updating = some (q, r) → s.Has Caller.Open q

/-- The step leaves what was allocated, and by whom, as it is. -/
structure Neutral (s t : State) : Prop where
  caller : t.caller = s.caller
  calls : t.calls = s.calls
  live : t.live = s.live
  holder : t.holder = s.holder
  list : t.rcpRegList = s.rcpRegList
  sem : ∀ q, (t.reg q).semAccess = (s.reg q).semAccess
  free : ∀ id, (t.os.gw_osal_count_sem_table id).free = (s.os.gw_osal_count_sem_table id).free
  updating : ∀ q r, t.updating = some (q, r) → s.Has Caller.Open q

theorem Numbered.set (h : Numbered s) (hp : s.caller p = some c) (hcaller : t.caller = s.caller)
    (hcalls : t.calls = s.calls) (hreg : d.pReg = c.pReg) : Numbered (t.set p d) := by
  have hold : ∀ q c', (t.set p d).caller q = some c' → ∃ c'', s.caller q = some c'' ∧ c'.pReg = c''.pReg := by
    intro q c' hq
    rcases set_cases hq with ⟨rfl, rfl⟩ | ⟨-, hq⟩
    · exact ⟨c, hp, hreg⟩
    · exact ⟨c', hcaller ▸ hq, rfl⟩
  constructor
  · intro q c' hq
    obtain ⟨c'', hc'', heq⟩ := hold q c' hq
    change c'.pReg < t.calls
    rw [hcalls, heq]
    exact h.below q c'' hc''
  · intro q r c' d' hq hr heq
    obtain ⟨c'', hc'', hc⟩ := hold q c' hq
    obtain ⟨d'', hd'', hd⟩ := hold r d' hr
    exact h.apart q r c'' d'' hc'' hd'' (by rw [← hc, heq, hd])

theorem shaped_set (h : ∀ p c, s.caller p = some c → c.Shaped = true) (hcaller : t.caller = s.caller)
    (hd : d.Shaped = true) : ∀ q c, (t.set p d).caller q = some c → c.Shaped = true := by
  intro q c hq
  rcases set_cases hq with ⟨-, rfl⟩ | ⟨-, hq⟩
  · exact hd
  · rw [hcaller] at hq
    exact h q c hq

theorem has_still (hcaller : t.caller = s.caller) : s.Has P q ↔ t.Has P q := by
  unfold State.Has
  rw [hcaller]

theorem Sound.still (h : Sound s₀ s) (hn : Neutral s t) : Sound s₀ t := by
  refine ⟨?_, hn.caller ▸ h.shaped, ?_, ?_, ?_, ?_, ?_, ?_, hn.list ▸ h.once, ?_⟩
  · refine ⟨?_, hn.caller ▸ h.numbered.apart⟩
    rw [hn.caller, hn.calls]
    exact h.numbered.below
  · intro q
    rw [hn.live, ← has_still hn.caller]
    exact h.live q
  · intro id q
    rw [hn.holder, hn.sem, ← has_still hn.caller]
    exact h.holder id q
  · exact hn.holder ▸ h.known
  · intro id
    rw [hn.free, hn.holder]
    exact h.free id
  · exact hn.holder ▸ h.held
  · intro q
    rw [hn.list, ← has_still hn.caller]
    exact h.listed q
  · exact fun q r hu => (has_still hn.caller).mp (hn.updating q r hu)

/-- A call goes on and has what it had. -/
theorem Sound.next (h : Sound s₀ s) (hp : s.caller p = some c) (hn : Neutral s t) (hreg : d.pReg = c.pReg)
    (hshaped : d.Shaped = true) (hnode : d.HasNode = c.HasNode) (hsem : d.HasSem = c.HasSem)
    (hlisted : d.Listed = c.Listed) : Sound s₀ (t.set p d) := by
  have ht := h.still hn
  have hp : t.caller p = some c := hn.caller ▸ hp
  have hopen : d.Open = c.Open := by rw [Caller.Open, Caller.Open, hsem, hlisted]
  refine ⟨ht.numbered.set hp rfl rfl hreg, shaped_set ht.shaped rfl hshaped, ?_, ?_, ht.known, ht.free,
    ht.held, ?_, ht.once, ?_⟩
  · exact fun q => (ht.live q).trans (has_same hp rfl hreg hnode)
  · exact fun id q => (ht.holder id q).trans (and_congr_left fun _ => has_same hp rfl hreg hsem)
  · exact fun q => (ht.listed q).trans (has_same hp rfl hreg hlisted)
  · exact fun q r hu => (has_same hp rfl hreg hopen).mp (ht.updating q r hu)

theorem Sound.same (h : Sound s₀ s) : Neutral s s :=
  ⟨rfl, rfl, rfl, rfl, rfl, fun _ => rfl, fun _ => rfl, h.updating⟩

/-! ## Semaphores in use -/

section
variable {o o' : Os} {id : Nat}

theorem post_free (o : Os) (id k : Nat) :
    ((gw_semaphore_post o id).1.gw_osal_count_sem_table k).free = (o.gw_osal_count_sem_table k).free := by
  unfold gw_semaphore_post
  split
  · rfl
  · by_cases hk : k = id
    · subst hk
      rw [set_sem_self]
      rfl
    · rw [set_sem_other hk]

theorem wait_turn_free {n : Nat} {r : Tried} (h : gw_semaphore_wait_turn o id n = (o', r)) (k : Nat) :
    (o'.gw_osal_count_sem_table k).free = (o.gw_osal_count_sem_table k).free := by
  unfold gw_semaphore_wait_turn at h
  split_ifs at h
  all_goals
    rw [Prod.mk.injEq] at h
    obtain ⟨rfl, -⟩ := h
  · rfl
  · rfl
  · rfl
  · rfl
  · by_cases hk : k = id
    · subst hk
      rw [set_sem_self]
      rfl
    · rw [set_sem_other hk]

theorem destroy_some (hid : id < GW_OSAL_MAX_COUNT_SEM) (hused : (o.gw_osal_count_sem_table id).free = false) :
    gw_semaphore_destroy true o id = (o.set_sem id free_sem, .OK) := by
  unfold gw_semaphore_destroy
  rw [if_neg, if_neg Bool.true_eq_false.mp]
  rw [hused]
  simpa using hid

end

/-- A read has its semaphore, and nobody else has it. -/
theorem Sound.sem (h : Sound s₀ s) (hp : s.caller p = some c) (hc : c.HasSem = true) :
    s.holder (s.reg c.pReg).semAccess = some c.pReg :=
  (h.holder _ _).mpr ⟨⟨p, c, hp, rfl, hc⟩, rfl⟩

theorem Sound.semDelete_eq (h : Sound s₀ s) (hp : s.caller p = some c) (hc : c.HasSem = true) :
    s.semDelete true (s.reg c.pReg).semAccess =
      { s with
        os := s.os.set_sem (s.reg c.pReg).semAccess free_sem
        holder := update s.holder (s.reg c.pReg).semAccess none } := by
  have hheld := h.sem hp hc
  have hused : (s.os.gw_osal_count_sem_table (s.reg c.pReg).semAccess).free = false := by
    rw [← Bool.not_eq_true, h.free]
    rintro ⟨-, hnone⟩
    rw [hheld] at hnone
    cases hnone
  unfold State.semDelete
  rw [destroy_some (h.known _ _ hheld) hused]
  rfl

/-! ## The steps of a call -/

theorem listed_node (h : c.Listed = true) : c.HasNode = true := by
  unfold Caller.HasNode
  split
  case h_3 => exact h
  all_goals
    rename_i hpc
    rw [Caller.Listed, hpc] at h
    cases h

theorem unread (hc : c.kind.isRead = false) : c.Listed = false ∧ c.HasNode = false ∧ c.HasSem = false := by
  have hlisted : c.Listed = false := by
    unfold Caller.Listed
    split <;> simp [hc]
  have hnode : c.HasNode = false := by
    unfold Caller.HasNode
    split
    · exact hc
    · exact hc
    · exact hlisted
  exact ⟨hlisted, hnode, by rw [Caller.HasSem, hnode]; rfl⟩

theorem port_sound (h : Sound s₀ s) (hp : s.caller p = some c) (hpc : c.pc = .port) (up : Bool) :
    Sound s₀ (s.set p (c.nextPort up)) := by
  have hread : c.kind.isRead = false := by
    have hshaped := h.shaped p c hp
    rw [Caller.Shaped, hpc] at hshaped
    simpa using hshaped
  have hnext : (c.nextPort up).kind = c.kind ∧ (c.nextPort up).pReg = c.pReg ∧ (c.nextPort up).Shaped = true := by
    unfold Caller.nextPort
    split_ifs <;> simp [Caller.Shaped, hpc, hread]
  obtain ⟨hkind, hreg, hshaped⟩ := hnext
  obtain ⟨hl, hn, hs⟩ := unread hread
  obtain ⟨hl', hn', hs'⟩ := unread (c := c.nextPort up) (by rw [hkind, hread])
  exact h.next hp h.same hreg hshaped (hn'.trans hn.symm) (hs'.trans hs.symm) (hl'.trans hl.symm)

/-- Who holds the semaphores, when a read has deleted its own. -/
theorem Sound.holder_drop (h : Sound s₀ s) (hp : s.caller p = some c) (hc : c.HasSem = true) (id q : Nat) :
    update s.holder (s.reg c.pReg).semAccess none id = some q ↔
      (s.Has Caller.HasSem q ∧ q ≠ c.pReg) ∧ (s.reg q).semAccess = id := by
  by_cases hid : id = (s.reg c.pReg).semAccess
  · subst hid
    rw [update_self]
    constructor
    · nofun
    · rintro ⟨⟨hq, hne⟩, heq⟩
      have hown := (h.holder _ q).mpr ⟨hq, heq⟩
      rw [h.sem hp hc, Option.some.injEq] at hown
      exact absurd hown.symm hne
  · rw [update_of_ne hid, h.holder]
    constructor
    · rintro ⟨hq, rfl⟩
      refine ⟨⟨hq, ?_⟩, rfl⟩
      rintro rfl
      exact hid rfl
    · exact fun ⟨⟨hq, _⟩, heq⟩ => ⟨hq, heq⟩

/-- A deleted semaphore is free as it was at the start. -/
theorem Sound.free_drop (h : Sound s₀ s) (hp : s.caller p = some c) (hc : c.HasSem = true) (id : Nat) :
    ((s.os.set_sem (s.reg c.pReg).semAccess free_sem).gw_osal_count_sem_table id).free = true ↔
      (s₀.os.gw_osal_count_sem_table id).free = true ∧
        update s.holder (s.reg c.pReg).semAccess none id = none := by
  by_cases hid : id = (s.reg c.pReg).semAccess
  · subst hid
    rw [set_sem_self, update_self]
    exact iff_of_true rfl ⟨h.held _ _ (h.sem hp hc), rfl⟩
  · rw [set_sem_other hid, update_of_ne hid]
    exact h.free id

theorem update_none {f : Nat → Option Nat} {i k : Nat} (h : update f i none k = some q) : f k = some q := by
  by_cases hk : k = i
  · subst hk
    rw [update_self] at h
    cases h
  · rwa [update_of_ne hk] at h

/-- A read deletes its semaphore. -/
theorem semDelete_sound (h : Sound s₀ s) (hp : s.caller p = some c) (hpc : c.pc = .semDelete)
    (hwritten : ∀ q r, s.updating = some (q, r) → q ≠ c.pReg) :
    Sound s₀ ((s.semDelete true (s.reg c.pReg).semAccess).set p { c with pc := .delete }) := by
  have hread : c.kind.isRead = true := by
    have hshaped := h.shaped p c hp
    rwa [Caller.Shaped, hpc] at hshaped
  have hc : c.HasSem = true := by simp [Caller.HasSem, Caller.HasNode, Caller.Listed, hpc, hread]
  have hd : Caller.HasSem { c with pc := .delete } = false := by simp [Caller.HasSem]
  have hnode : Caller.HasNode { c with pc := .delete } = c.HasNode := by
    simp [Caller.HasNode, Caller.Listed, hpc]
  have hlisted : Caller.Listed { c with pc := .delete } = c.Listed := by simp [Caller.Listed, hpc]
  have hopen : Caller.Open { c with pc := .delete } = false := by rw [Caller.Open, hd, Bool.false_and]
  rw [h.semDelete_eq hp hc]
  refine ⟨h.numbered.set hp rfl rfl rfl, shaped_set h.shaped rfl hread, ?_, ?_, ?_, ?_, ?_, ?_, h.once, ?_⟩
  · exact fun q => (h.live q).trans (has_same hp rfl rfl hnode)
  · exact fun id q => (h.holder_drop hp hc id q).trans
      (and_congr_left fun _ => (has_drop h.numbered hp rfl hd))
  · exact fun id q hid => h.known id q (update_none hid)
  · exact h.free_drop hp hc
  · exact fun id q hid => h.held id q (update_none hid)
  · exact fun q => (h.listed q).trans (has_same hp rfl rfl hlisted)
  · exact fun q r hu => (has_drop h.numbered hp rfl hopen).mp ⟨h.updating q r hu, hwritten q r hu⟩

theorem free_iff (h : Sound s₀ s) (q k : Nat) :
    update s.live k false q = true ↔ s.Has Caller.HasNode q ∧ q ≠ k := by
  by_cases hq : q = k
  · subst hq
    simp
  · rw [update_of_ne hq, h.live]
    simp [hq]

/-- A read that has not come into the list gives everything back. -/
theorem refuse_sound (h : Sound s₀ s) (hp : s.caller p = some c) (hpc : c.pc = .insert) (hread : c.kind.isRead = true)
    (iRet : RCP_RET) : Sound s₀ (((s.semDelete true (s.reg c.pReg).semAccess).free c.pReg).set p
      { c with pc := .returned, iRet }) := by
  have hc : c.HasSem = true := by simp [Caller.HasSem, Caller.HasNode, hpc, hread]
  have hlisted : Caller.Listed { c with pc := .returned, iRet } = c.Listed := by simp [Caller.Listed, hpc]
  have hopen : Caller.Open { c with pc := .returned, iRet } = c.Open := by
    rw [Caller.Open, Caller.Open, hlisted]
    simp [Caller.Listed, hpc]
  rw [h.semDelete_eq hp hc]
  refine ⟨h.numbered.set hp rfl rfl rfl, shaped_set h.shaped rfl rfl, ?_, ?_, ?_, ?_, ?_, ?_, h.once, ?_⟩
  · exact fun q => (free_iff h q c.pReg).trans (has_drop h.numbered hp rfl rfl)
  · exact fun id q => (h.holder_drop hp hc id q).trans
      (and_congr_left fun _ => (has_drop h.numbered hp rfl rfl))
  · exact fun id q hid => h.known id q (update_none hid)
  · exact h.free_drop hp hc
  · exact fun id q hid => h.held id q (update_none hid)
  · exact fun q => (h.listed q).trans (has_same hp rfl rfl hlisted)
  · exact fun q r hu => Iff.mp (has_same hp rfl rfl hopen) (h.updating q r hu)

theorem insert_sound (h : Sound s₀ s) (hp : s.caller p = some c) (hpc : c.pc = .insert)
    (hroom : c.kind = .read32 → freeSlot s.rcpRegList ≠ none) : Sound s₀ (s.insert p c true) := by
  have hread : c.kind.isRead = true := by
    have hshaped := h.shaped p c hp
    rwa [Caller.Shaped, hpc] at hshaped
  unfold State.insert
  split
  · refine h.next hp (d := { c with pc := .store _ })
      ⟨rfl, rfl, rfl, rfl, rfl, fun _ => rfl, fun _ => rfl, h.updating⟩ rfl hread ?_ ?_ ?_
    all_goals simp [Caller.HasSem, Caller.HasNode, Caller.Listed, hpc]
  · rename_i hfull
    split
    · exact refuse_sound h hp hpc hread .RCP_NO_RESOURCE
    · rename_i hlocks
      have hkind : c.kind = .read32 := by
        revert hread hlocks
        cases c.kind <;> simp [Kind.isRead, Kind.locks]
      exact absurd hfull (hroom hkind)

/-- The slot that a read found is still free. -/
theorem store_sound (h : Sound s₀ s) (hp : s.caller p = some c) {i : Nat} (hpc : c.pc = .store i)
    (hslot : s.rcpRegList[i]? = some none) : Sound s₀ (s.store p c i) := by
  have hread : c.kind.isRead = true := by
    have hshaped := h.shaped p c hp
    rwa [Caller.Shaped, hpc] at hshaped
  have hout : c.Listed = false := by simp [Caller.Listed, hpc]
  have hin : Caller.Listed { c with pc := .build } = true := hread
  have hnode : Caller.HasNode { c with pc := .build } = c.HasNode := by
    simp [Caller.HasNode, Caller.Listed, hpc]
  have hsem : Caller.HasSem { c with pc := .build } = c.HasSem := by
    simp [Caller.HasSem, hnode, hpc]
  have habsent : some c.pReg ∉ s.rcpRegList := by
    rw [h.listed]
    rintro ⟨p', c', hp', hreg, hc'⟩
    obtain rfl := h.numbered.apart p' p c' c hp' hp hreg
    obtain rfl := Option.some.inj (hp.symm.trans hp')
    rw [hout] at hc'
    cases hc'
  refine ⟨h.numbered.set hp rfl rfl rfl, shaped_set h.shaped rfl rfl, ?_, ?_, h.known, h.free, h.held, ?_,
    once_store h.once hslot habsent, ?_⟩
  · exact fun q => (h.live q).trans (has_same hp rfl rfl hnode)
  · exact fun id q => (h.holder id q).trans (and_congr_left fun _ => (has_same hp rfl rfl hsem))
  · intro q
    have hold : ∀ c', s.caller p = some c' → c'.Listed = true → c'.pReg = c.pReg := by
      intro c' hp' _
      rw [← Option.some.inj (hp.symm.trans hp')]
    exact (mem_store hslot).trans
      ((or_congr_right (h.listed q)).trans (has_add (d := { c with pc := .build }) hold rfl hin))
  · intro q r hu
    have hold : ∀ c', s.caller p = some c' → c'.Open = true → c'.pReg = c.pReg := by
      intro c' hp' _
      rw [← Option.some.inj (hp.symm.trans hp')]
    have hopen : Caller.Open { c with pc := .build } = true := by
      rw [Caller.Open, hin, hsem]
      simp [Caller.HasSem, Caller.HasNode, hpc, hread]
    exact (has_add (d := { c with pc := .build }) hold rfl hopen).mp (.inr (h.updating q r hu))

theorem build_sound (h : Sound s₀ s) (hp : s.caller p = some c) (hpc : c.pc = .build) (vid : UInt16) :
    Sound s₀ (s.build p c vid) := by
  refine h.next hp ⟨rfl, rfl, rfl, rfl, rfl, fun _ => rfl, fun _ => rfl, h.updating⟩ rfl rfl ?_ ?_ ?_
  all_goals simp [Caller.HasSem, Caller.HasNode, Caller.Listed, hpc]

theorem take_sound (h : Sound s₀ s) (hp : s.caller p = some c) {n : Nat} (hpc : c.pc = .take n) :
    Sound s₀ (s.take p c n) := by
  unfold State.take
  split
  · refine h.next hp h.same rfl rfl ?_ ?_ ?_
    all_goals simp [Caller.HasSem, Caller.HasNode, Caller.Listed, hpc]
  · rename_i os ret heq
    refine h.next hp ⟨rfl, rfl, rfl, rfl, rfl, fun _ => rfl, wait_turn_free heq, h.updating⟩ rfl rfl ?_ ?_ ?_
    all_goals simp [Caller.HasSem, Caller.HasNode, Caller.Listed, hpc]

/-- Before its exit and behind it a read has the same. -/
theorem exit_has (c : Caller) (iRet : RCP_RET) (data : Option UInt32)
    (hc : c.pc = .send ∨ (∃ n, c.pc = .wait n) ∨ c.pc = .value) :
    Caller.Shaped { c with pc := c.kind.exit, iRet, data } = true ∧
      Caller.HasNode { c with pc := c.kind.exit, iRet, data } = c.HasNode ∧
      Caller.HasSem { c with pc := c.kind.exit, iRet, data } = c.HasSem ∧
      Caller.Listed { c with pc := c.kind.exit, iRet, data } = c.Listed := by
  rcases hc with hpc | ⟨n, hpc⟩ | hpc
  all_goals
    unfold Caller.Shaped Caller.HasSem Caller.HasNode Caller.Listed Kind.exit
    rw [hpc]
    cases c.kind <;> exact ⟨rfl, rfl, rfl, rfl⟩

theorem send_sound (h : Sound s₀ s) (hp : s.caller p = some c) (hpc : c.pc = .send) (ok : Bool) :
    Sound s₀ (s.send p c ok) := by
  obtain ⟨hshaped, hnode, hsem, hlisted⟩ := exit_has c c.iRet c.data (.inl hpc)
  unfold State.send
  split
  · dsimp only
    cases hread : c.kind.isRead with
    | true =>
      refine h.next hp ⟨rfl, rfl, rfl, rfl, rfl, fun _ => rfl, fun _ => rfl, h.updating⟩ rfl hread ?_ ?_ ?_
      all_goals simp [Caller.HasSem, Caller.HasNode, Caller.Listed, hpc]
    | false =>
      exact h.next hp ⟨rfl, rfl, rfl, rfl, rfl, fun _ => rfl, fun _ => rfl, h.updating⟩ rfl hshaped hnode hsem hlisted
  · exact h.next hp h.same rfl hshaped hnode hsem hlisted

theorem wait_sound (h : Sound s₀ s) (hp : s.caller p = some c) {n : Nat} (hpc : c.pc = .wait n) :
    Sound s₀ (s.wait p c n) := by
  have hread : c.kind.isRead = true := by
    have hshaped := h.shaped p c hp
    rwa [Caller.Shaped, hpc] at hshaped
  unfold State.wait
  split
  · refine h.next hp h.same rfl hread ?_ ?_ ?_
    all_goals simp [Caller.HasSem, Caller.HasNode, Caller.Listed, hpc]
  · rename_i os heq
    refine h.next hp ⟨rfl, rfl, rfl, rfl, rfl, fun _ => rfl, wait_turn_free heq, h.updating⟩ rfl hread ?_ ?_ ?_
    all_goals simp [Caller.HasSem, Caller.HasNode, Caller.Listed, hpc]
  · obtain ⟨hshaped, hnode, hsem, hlisted⟩ := exit_has c .RCP_TIMEOUT c.data (.inr (.inl ⟨n, hpc⟩))
    exact h.next hp h.same rfl hshaped hnode hsem hlisted

theorem value_sound (h : Sound s₀ s) (hp : s.caller p = some c) (hpc : c.pc = .value) :
    Sound s₀ (s.value p c) := by
  have hneutral : Neutral s { s with os := (gw_semaphore_post s.os (s.reg c.pReg).semAccess).1 } :=
    ⟨rfl, rfl, rfl, rfl, rfl, fun _ => rfl, post_free _ _, h.updating⟩
  unfold State.value
  dsimp only
  split
  · obtain ⟨hshaped, hnode, hsem, hlisted⟩ := exit_has c c.iRet _ (.inr (.inr hpc))
    exact h.next hp hneutral rfl hshaped hnode hsem hlisted
  · obtain ⟨hshaped, hnode, hsem, hlisted⟩ := exit_has c .RCP_UNKOWN _ (.inr (.inr hpc))
    exact h.next hp hneutral rfl hshaped hnode hsem hlisted

/-- A read leaves the list, and its node is freed. -/
theorem delete_sound (h : Sound s₀ s) (hp : s.caller p = some c) (hpc : c.pc = .delete) :
    Sound s₀ (s.delete p c) := by
  have hafter : Caller.Shaped { c with pc := c.kind.afterDelete } = true ∧
      Caller.HasNode { c with pc := c.kind.afterDelete } = false ∧
      Caller.HasSem { c with pc := c.kind.afterDelete } = c.HasSem ∧
      Caller.Listed { c with pc := c.kind.afterDelete } = false := by
    unfold Caller.Shaped Caller.HasSem Caller.HasNode Caller.Listed Kind.afterDelete
    rw [hpc]
    cases c.kind <;> exact ⟨rfl, rfl, rfl, rfl⟩
  obtain ⟨hshaped, hnode, hsem, hlisted⟩ := hafter
  refine ⟨h.numbered.set hp rfl rfl rfl, shaped_set h.shaped rfl hshaped, ?_, ?_, h.known, h.free, h.held, ?_,
    once_delete h.once c.pReg, ?_⟩
  · exact fun q => (free_iff h q c.pReg).trans (has_drop h.numbered hp rfl hnode)
  · exact fun id q => (h.holder id q).trans (and_congr_left fun _ => (has_same hp rfl rfl hsem))
  · exact fun q => (mem_delete h.once).trans
      ((and_congr_left fun _ => h.listed q).trans (has_drop h.numbered hp rfl hlisted))
  · have hshut : c.Open = false := by simp [Caller.Open, Caller.HasSem, hpc]
    have hopen : Caller.Open { c with pc := c.kind.afterDelete } = c.Open := by
      rw [hshut, Caller.Open, hlisted, Bool.and_false]
    exact fun q r hu => Iff.mp (has_same hp rfl rfl hopen) (h.updating q r hu)

theorem give_sound (h : Sound s₀ s) (hp : s.caller p = some c) (hpc : c.pc = .give) :
    Sound s₀ (s.give p c) := by
  have hafter (lport : Nat) (took : Bool) :
      Caller.Shaped { c with pc := c.kind.afterGive, lport, took } = true ∧
      Caller.HasNode { c with pc := c.kind.afterGive, lport, took } = c.HasNode ∧
      Caller.HasSem { c with pc := c.kind.afterGive, lport, took } = c.HasSem ∧
      Caller.Listed { c with pc := c.kind.afterGive, lport, took } = c.Listed := by
    unfold Caller.Shaped Caller.HasSem Caller.HasNode Caller.Listed Kind.afterGive
    rw [hpc]
    cases c.kind <;> exact ⟨rfl, rfl, rfl, rfl⟩
  obtain ⟨hshaped, hnode, hsem, hlisted⟩ := hafter _ false
  exact h.next hp ⟨rfl, rfl, rfl, rfl, rfl, fun _ => rfl, post_free _ _, h.updating⟩ rfl hshaped hnode hsem hlisted

theorem turn_sound (h : Sound s₀ s) (hp : s.caller p = some c) {ok : Bool} {vid : UInt16}
    (hworks : SystemWorks s (.turn p ok vid)) (hcareful : Careful s (.turn p ok vid)) :
    Sound s₀ (s.turn p c ok vid) := by
  have hok := hworks.1 p ok vid c rfl hp
  unfold State.turn
  split
  case h_1 hpc => exact port_sound h hp hpc ok
  case h_2 hpc =>
    split
    · exact h
    · rw [hok (.inr hpc)]
      exact insert_sound h hp hpc (hcareful.room p ok vid c rfl hp hpc)
  case h_3 hpc => exact store_sound h hp hpc (hcareful.kept p ok vid c _ rfl hp hpc)
  case h_4 hpc => exact build_sound h hp hpc vid
  case h_5 hpc => exact take_sound h hp hpc
  case h_6 hpc => exact send_sound h hp hpc ok
  case h_7 hpc => exact wait_sound h hp hpc
  case h_8 hpc => exact value_sound h hp hpc
  case h_9 hpc =>
    rw [hok (.inl hpc)]
    exact semDelete_sound h hp hpc fun q r => hcareful.written p ok vid c q r rfl hp hpc
  case h_10 hpc =>
    split
    · exact h
    · exact delete_sound h hp hpc
  case h_11 hpc => exact give_sound h hp hpc
  case h_12 => exact h

/-! ## A call begins -/

theorem idle_free (hidle : s.Idle p = true) (hp : s.caller p = some c) :
    c.Listed = false ∧ c.HasNode = false ∧ c.HasSem = false := by
  have hpc : c.pc = .returned := by simpa [State.Idle, hp] using hidle
  simp [Caller.HasSem, Caller.HasNode, Caller.Listed, hpc]

theorem Numbered.begin (h : Numbered s) (hcaller : t.caller = s.caller) (hcalls : t.calls = s.calls + 1)
    (hd : d.pReg = s.calls) : Numbered (t.set p d) := by
  have hold : ∀ q c', (t.set p d).caller q = some c' → q = p ∧ c' = d ∨ q ≠ p ∧ s.caller q = some c' := by
    intro q c' hq
    rw [← hcaller]
    exact set_cases hq
  constructor
  · intro q c' hq
    change c'.pReg < t.calls
    rcases hold q c' hq with ⟨-, rfl⟩ | ⟨-, hq'⟩
    · omega
    · have := h.below q c' hq'
      omega
  · intro q r c' d' hq hr heq
    rcases hold q c' hq with ⟨rfl, rfl⟩ | ⟨-, hq'⟩
    · rcases hold r d' hr with ⟨rfl, -⟩ | ⟨-, hr'⟩
      · rfl
      · have := h.below r d' hr'
        omega
    · rcases hold r d' hr with ⟨-, rfl⟩ | ⟨-, hr'⟩
      · have := h.below q c' hq'
        omega
      · exact h.apart q r c' d' hq' hr' heq

/-- A call that allocates nothing. -/
theorem begin_sound (h : Sound s₀ s) (hidle : s.Idle p = true) (hreg : d.pReg = s.calls)
    (hshaped : d.Shaped = true) (hlisted : d.Listed = false) (hnode : d.HasNode = false) :
    Sound s₀ ({ s with calls := s.calls + 1 }.set p d) := by
  have hsem : d.HasSem = false := by rw [Caller.HasSem, hnode, Bool.false_and]
  have hopen : d.Open = false := by rw [Caller.Open, hsem, Bool.false_and]
  refine ⟨h.numbered.begin rfl rfl hreg, shaped_set h.shaped rfl hshaped, ?_, ?_, h.known, h.free, h.held,
    ?_, h.once, ?_⟩
  · exact fun q => (h.live q).trans (has_none (fun c hp => (idle_free hidle hp).2.1) rfl hnode)
  · exact fun id q => (h.holder id q).trans
      (and_congr_left fun _ => has_none (fun c hp => (idle_free hidle hp).2.2) rfl hsem)
  · exact fun q => (h.listed q).trans (has_none (fun c hp => (idle_free hidle hp).1) rfl hlisted)
  · have hold : ∀ c, s.caller p = some c → c.Open = false := by
      intro c hp
      rw [Caller.Open, (idle_free hidle hp).1, Bool.and_false]
    exact fun q r hu => Iff.mp (has_none hold rfl hopen) (h.updating q r hu)

/-- A read begins with a node and a semaphore of its own. -/
theorem reads_sound (h : Sound s₀ s) (hidle : s.Idle p = true) {kind : Kind} (hread : kind.isRead = true)
    {o : Os} {id : Nat} {os : Bool} (hcreate : gw_rcp_sem_create os s.os kind.semName 0 = some (o, id))
    (dev : Nat) (regAddr : UInt16) :
    Sound s₀ (s.reads p kind dev regAddr o (update s.holder id (some s.calls)) id) := by
  obtain ⟨hlt, hfree⟩ := create_free hcreate
  obtain ⟨hfree₀, hnone⟩ := (h.free id).mp hfree
  have hnew : ∀ P : Caller → Bool, ¬ s.Has P s.calls := by
    rintro P ⟨p', c', hp', hreg, -⟩
    exact absurd (h.numbered.below p' c' hp') (by omega)
  have hold : ∀ P : Caller → Bool, (∀ c, s.caller p = some c → P c = false) →
      ∀ c, s.caller p = some c → P c = true → c.pReg = s.calls := by
    intro P hP c hp hc
    rw [hP c hp] at hc
    cases hc
  have hself : ((s.reads p kind dev regAddr o (update s.holder id (some s.calls)) id).reg s.calls).semAccess = id := by
    rw [State.reads, set_reg, edit_self]
  have hother : ∀ q, q ≠ s.calls →
      ((s.reads p kind dev regAddr o (update s.holder id (some s.calls)) id).reg q).semAccess =
        (s.reg q).semAccess := by
    intro q hq
    rw [State.reads, set_reg, edit_other _ hq]
  have hsem : Caller.HasSem (.new kind dev regAddr 0 0 s.calls .insert .RCP_OK) = true := by
    rw [Caller.HasSem]
    exact Bool.and_eq_true_iff.mpr ⟨hread, rfl⟩
  refine ⟨h.numbered.begin rfl rfl rfl, shaped_set h.shaped rfl hread, ?_, ?_, ?_, ?_, ?_, ?_, h.once, ?_⟩
  · intro q
    refine Iff.trans ?_ (has_add (hold _ fun c hp => (idle_free hidle hp).2.1) rfl hread)
    change update s.live s.calls true q = true ↔ q = s.calls ∨ s.Has Caller.HasNode q
    by_cases hq : q = s.calls
    · subst hq
      simp
    · rw [update_of_ne hq, h.live]
      simp [hq]
  · intro k q
    refine Iff.trans ?_ (and_congr_left fun _ =>
      has_add (hold _ fun c hp => (idle_free hidle hp).2.2) rfl hsem)
    change update s.holder id (some s.calls) k = some q ↔ (q = s.calls ∨ s.Has Caller.HasSem q) ∧ _
    by_cases hq : q = s.calls
    · subst hq
      rw [hself]
      by_cases hk : k = id
      · subst hk
        simp
      · rw [update_of_ne hk, h.holder]
        simp [hnew, Ne.symm hk]
    · rw [hother q hq]
      by_cases hk : k = id
      · subst hk
        rw [update_self]
        refine iff_of_false (fun heq => hq (Option.some.inj heq).symm) ?_
        rintro ⟨hq' | hhas, heq⟩
        · exact hq hq'
        · have hheld := (h.holder k q).mpr ⟨hhas, heq⟩
          rw [hnone] at hheld
          cases hheld
      · rw [update_of_ne hk, h.holder]
        simp [hq]
  · intro k q hk
    by_cases hid : k = id
    · rwa [hid]
    · exact h.known k q (by rwa [← update_of_ne hid (some s.calls) s.holder])
  · intro k
    change (o.gw_osal_count_sem_table k).free = true ↔ _ ∧ update s.holder id (some s.calls) k = none
    rw [(create_some hcreate).2]
    by_cases hid : k = id
    · subst hid
      simp
    · rw [set_sem_other hid, update_of_ne hid]
      exact h.free k
  · intro k q hk
    by_cases hid : k = id
    · rwa [hid]
    · exact h.held k q (by rwa [← update_of_ne hid (some s.calls) s.holder])
  · exact fun q => (h.listed q).trans (has_none (fun c hp => (idle_free hidle hp).1) rfl rfl)
  · have hshut : ∀ c, s.caller p = some c → c.Open = false := by
      intro c hp
      rw [Caller.Open, (idle_free hidle hp).1, Bool.and_false]
    have hopen : Caller.Open (.new kind dev regAddr 0 0 s.calls .insert .RCP_OK) = false := by
      rw [Caller.Open]
      exact Bool.and_false _
    exact fun q r hu => Iff.mp (has_none hshut rfl hopen) (h.updating q r hu)

theorem starts_sound (h : Sound s₀ s) (hidle : s.Idle p = true) {call : Call} {mal os : Bool}
    (hs : s.Starts p os call mal t) (hworks : SystemWorks s (.call p call mal os)) : Sound s₀ t := by
  cases hs with
  | reads kind dev regAddr o id hread hcreate => exact reads_sound h hidle hread hcreate dev regAddr
  | blind dev regAddr hcreate => exact absurd hcreate (hworks.2 p dev regAddr os rfl)
  | refused kind dev regAddr wdata lport iRet hread hret => exact begin_sound h hidle rfl rfl rfl rfl
  | other kind dev regAddr wdata lport pc iRet hread hpc =>
    obtain ⟨hlisted, hnode, -⟩ := unread (c := .new kind dev regAddr wdata lport s.calls pc iRet) hread
    refine begin_sound h hidle rfl ?_ hlisted hnode
    rcases hpc with rfl | rfl | rfl
    · exact congrArg not hread
    · rfl
    · rfl

/-! ## Replies -/

/-- The read that a reply finds has its semaphore, as it is not about to leave the list. -/
theorem find_open (h : Sound s₀ s) {i : Nat} {r : Reply} (hr : s.inflight[i]? = some r) (hfinds : s.Finds r q)
    (hcareful : Careful s (.deliver i)) : s.Has Caller.Open q := by
  obtain ⟨-, dev, -, -, hsearch⟩ := id hfinds
  have hmem := List.mem_of_find?_eq_some hsearch
  rw [List.reduceOption_mem_iff, h.listed] at hmem
  obtain ⟨p, c, hp, hreg, hc⟩ := hmem
  refine ⟨p, c, hp, hreg, ?_⟩
  have hpc := hcareful.found i r q rfl hr hfinds p c hp hreg
  rw [Caller.Open, Caller.HasSem, listed_node hc, hc]
  simpa using hpc

theorem edit_sem (s : State) (q : Nat) {r : RCP_REG} (hr : r.semAccess = (s.reg q).semAccess) (k : Nat) :
    ((s.edit q r).reg k).semAccess = (s.reg k).semAccess := by
  by_cases hk : k = q
  · subst hk
    rw [edit_self, hr]
  · rw [edit_other s hk]

theorem complete_sound (h : Sound s₀ s) {r : Reply} (hu : s.updating = some (q, r)) : Sound s₀ s.complete := by
  rw [complete_some hu]
  exact h.still ⟨rfl, rfl, rfl, rfl, rfl, edit_sem s q rfl, post_free _ _, nofun⟩

theorem posts_own (h : Sound s₀ s) (e : Event) : PostsItsOwn s e := by
  rintro - q r hu
  obtain ⟨p, c, hp, rfl, hc⟩ := h.updating q r hu
  obtain ⟨hsem, -⟩ := Bool.and_eq_true_iff.mp hc
  obtain ⟨hnode, -⟩ := Bool.and_eq_true_iff.mp hsem
  exact ⟨(h.live c.pReg).mpr ⟨p, c, hp, rfl, hnode⟩, h.sem hp hsem⟩

/-! ## Runs -/

theorem step_sound (h : Sound s₀ s) (e : Event) (hworks : SystemWorks s e) (hcareful : Careful s e) :
    Sound s₀ (s.step e) := by
  generalize hnext : s.step e = t
  cases hnext ▸ step_takes s e with
  | nothing => exact h
  | call p call mal os hidle => exact starts_sound h hidle (start_starts s p call mal os) hworks
  | turn p c ok vid hp => exact turn_sound h hp hworks hcareful
  | answer k g hg => exact h.still ⟨rfl, rfl, rfl, rfl, rfl, fun _ => rfl, fun _ => rfl, h.updating⟩
  | drop i => exact h.still ⟨rfl, rfl, rfl, rfl, rfl, fun _ => rfl, fun _ => rfl, h.updating⟩
  | find i r q hlocked hr hq =>
    refine h.still ⟨rfl, rfl, rfl, rfl, rfl, fun _ => rfl, fun _ => rfl, ?_⟩
    rintro _ _ ⟨⟩
    exact find_open h hr hq hcareful
  | complete q r hu => exact complete_sound h hu
  | world w => exact h.still ⟨rfl, rfl, rfl, rfl, rfl, fun _ => rfl, fun _ => rfl, h.updating⟩

theorem init_sound {os : Os} {w : World} (h : RCP_Init os w = some s) : Sound s s := by
  have hidle := init_idle h
  have hnone : ∀ P q, ¬ s.Has P q := by
    rintro P q ⟨p, c, hp, -⟩
    rw [hidle] at hp
    cases hp
  obtain ⟨hlive, hholder, hlist⟩ := init_empty h
  have hupdating := (init_quiet h).2.2
  refine ⟨⟨?_, ?_⟩, ?_, ?_, ?_, ?_, ?_, ?_, ?_, ?_, ?_⟩
  all_goals simp [hidle, hnone, hlive, hholder, hlist, hupdating, Once, List.getElem?_replicate]

/-- A read that has no node has no semaphore and is not in the list. -/
theorem has_node {P : Caller → Bool} (hP : ∀ c, P c = true → c.HasNode = true) (h : s.Has P q) :
    s.Has Caller.HasNode q := by
  obtain ⟨p, c, hp, hq, hc⟩ := h
  exact ⟨p, c, hp, hq, hP c hc⟩

theorem sound_tidy (h : Sound s₀ s) : Tidy s₀ s := by
  refine ⟨h.listed, h.once, ?_⟩
  intro hnone
  have hholder : ∀ id, s.holder id = none := by
    intro id
    rw [Option.eq_none_iff_forall_ne_some]
    intro q hq
    have hhas := ((h.holder id q).mp hq).1
    exact hnone q (has_node (fun c hc => (Bool.and_eq_true_iff.mp hc).1) hhas)
  refine ⟨fun q hq => ?_, fun q => ?_, hholder, fun id => ?_⟩
  · exact hnone q (has_node (fun c => listed_node) ((h.listed q).mp hq))
  · rw [← Bool.not_eq_true, h.live]
    exact hnone q
  · rw [Bool.eq_iff_iff, h.free id]
    exact and_iff_left (hholder id)

/-- While 32-bit reads find a slot, and no reply comes into the way of a clean-up, the list
holds the reads that are in progress, a reply is written to one that has its node and its
semaphore, and when no read is in progress nothing of theirs is left. -/
theorem reads_leave_nothing_behind {os : Os} {w : World} (h : RCP_Init os w = some s) (es : List Event)
    (hcareful : Along State.step (fun s e => SystemWorks s e ∧ Careful s e) s es) :
    Along State.step (KeepsBooks s) s es := by
  refine along_imp (fun t e (ht : Sound s t) hp => step_sound ht e hp.1 hp.2) ?_ (init_sound h) hcareful
  exact fun t e ht hp => ⟨posts_own ht e, sound_tidy (step_sound ht e hp.1 hp.2)⟩

/-- The call of thread 0 is the only one, and its steps succeed. -/
def State.alone (s : State) : Event → Bool
  | .call _ (.RCP_Read_32bit_Reg ..) _ os => (gw_rcp_sem_create os s.os Kind.read32.semName 0).isSome
  | .turn p ok _ => (s.caller p).all fun c =>
      match c.pc with
      | .insert => ok && (freeSlot s.rcpRegList).isSome
      | .store i => s.rcpRegList[i]? = some none
      | .semDelete => ok && s.updating.isNone
      | _ => true
  | .deliver _ => (s.caller 0).any fun c => c.pc ≠ .delete && s.rcpRegList.reduceOption.all (· = c.pReg)
  | _ => true

theorem alone_careful (h : Sound s₀ s) (e : Event) (halone : s.alone e = true) :
    SystemWorks s e ∧ Careful s e := by
  refine ⟨⟨?_, ?_⟩, ?_, ?_, ?_, ?_⟩
  · rintro p ok vid c rfl hp hpc
    rw [State.alone, hp, Option.all_some] at halone
    rcases hpc with hpc | hpc
    all_goals
      rw [hpc] at halone
      exact (Bool.and_eq_true_iff.mp halone).1
  · rintro p dev regAddr os rfl
    exact Option.isSome_iff_ne_none.mp halone
  · rintro p ok vid c rfl hp hpc -
    rw [State.alone, hp, Option.all_some, hpc] at halone
    exact Option.isSome_iff_ne_none.mp (Bool.and_eq_true_iff.mp halone).2
  · rintro p ok vid c i rfl hp hpc
    rw [State.alone, hp, Option.all_some, hpc] at halone
    exact of_decide_eq_true halone
  · rintro i r q rfl hr ⟨-, dev, -, -, hsearch⟩ p c hp hq
    rw [State.alone, Option.any_eq_true] at halone
    obtain ⟨c₀, hp₀, hc₀⟩ := halone
    obtain ⟨hpc, hall⟩ := Bool.and_eq_true_iff.mp hc₀
    have hreg := of_decide_eq_true (List.all_eq_true.mp hall q (List.mem_of_find?_eq_some hsearch))
    obtain rfl := h.numbered.apart p 0 c c₀ hp hp₀ (hq.trans hreg)
    obtain rfl := Option.some.inj (hp.symm.trans hp₀)
    exact of_decide_eq_true hpc
  · rintro p ok vid c q r rfl hp hpc hu
    rw [State.alone, hp, Option.all_some, hpc] at halone
    obtain ⟨-, hnone⟩ := Bool.and_eq_true_iff.mp halone
    rw [hu] at hnone
    cases hnone

/-- A read and a 32-bit read of register 1, which are answered. -/
theorem two_reads_leave_nothing_behind :
    let es : List Event := [.call 0 (.RCP_Read_Reg (some 0) 1 false) true true, .world oneSwitch,
      .turn 0 true 0, .turn 0 true 0, .turn 0 true 0, .turn 0 true 0, .turn 0 true 0,
      .answer 0, .deliver 0, .complete, .turn 0 true 0, .turn 0 true 0, .turn 0 true 0,
      .turn 0 true 0, .turn 0 true 0, .call 0 (.RCP_Read_32bit_Reg (some 0) 1 false) true true,
      .turn 0 true 0, .turn 0 true 0, .turn 0 true 0, .turn 0 true 0, .turn 0 true 0,
      .answer 1, .deliver 0, .complete, .turn 0 true 0, .turn 0 true 0, .turn 0 true 0,
      .turn 0 true 0, .turn 0 true 0]
    ∃ s, RCP_Init gw_osal_core_init oneSwitch = some s ∧ Along State.step (KeepsBooks s) s es ∧
      ((run State.step s es).caller 0).map (fun c => (c.pc, c.iRet, c.data)) =
        some (.returned, .RCP_OK, some 7) := by
  intro es
  have halone : (RCP_Init gw_osal_core_init oneSwitch).all (fun s =>
      decide (Along State.step (fun s e => s.alone e = true) s es) &&
        ((run State.step s es).caller 0).map (fun c => (c.pc, c.iRet, c.data)) =
          some (.returned, .RCP_OK, some 7)) = true := by decide +kernel
  cases hs : RCP_Init gw_osal_core_init oneSwitch with
  | none => cases hs
  | some s =>
    rw [hs, Option.all_some, Bool.and_eq_true, decide_eq_true_eq, decide_eq_true_eq] at halone
    have hcareful : Along State.step (fun s e => SystemWorks s e ∧ Careful s e) s es := by
      refine along_imp (fun t e (ht : Sound s t) hp => ?_) ?_ (init_sound hs) halone.1
      · obtain ⟨hworks, hcareful⟩ := alone_careful ht e hp
        exact step_sound ht e hworks hcareful
      · exact fun t e ht hp => alone_careful ht e hp
    exact ⟨s, rfl, reads_leave_nothing_behind hs es hcareful, halone.2⟩

/-- A read gives up after 5 s. Its reply comes when it has deleted its semaphore and is
still in the list. -/
theorem a_late_reply_posts_a_deleted_semaphore :
    let es : List Event := [.call 0 (.RCP_Read_Reg (some 0) 1 false) true true, .world oneSwitch,
      .turn 0 true 0, .turn 0 true 0, .turn 0 true 0, .turn 0 true 0, .turn 0 true 0] ++
      List.replicate 51 (.turn 0 true 0) ++ [.turn 0 true 0, .answer 0, .deliver 0]
    ∃ s, RCP_Init gw_osal_core_init oneSwitch = some s ∧
      ¬ Along State.step (KeepsBooks s) s (es ++ [.complete]) := by
  intro es
  have hfound : (RCP_Init gw_osal_core_init oneSwitch).all (fun s =>
      let t := run State.step s es
      t.updating.map Prod.fst = some 0 ∧ t.holder (t.reg 0).semAccess = none) = true := by
    decide +kernel
  cases hs : RCP_Init gw_osal_core_init oneSwitch with
  | none => cases hs
  | some s =>
    refine ⟨s, rfl, fun h => ?_⟩
    rw [hs, Option.all_some, decide_eq_true_eq] at hfound
    obtain ⟨hupdating, hholder⟩ := hfound
    obtain ⟨u, hu, hq⟩ := Option.map_eq_some_iff.mp hupdating
    have hlaw := ((along_append _ _ _ _).mp h).2.1.1
    have hown := (hlaw rfl u.1 u.2 hu).2
    rw [hq, hholder] at hown
    cases hown

end gwdonu.rcp
