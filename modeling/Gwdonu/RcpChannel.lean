-- The channel semaphore of the RCP calls. A call that does not get it in time goes on
-- as if it had, and gives it at its end.
import Gwdonu.Rcp

namespace gwdonu.rcp

open Function os_core runs

variable {s t : State} {p q : Nat} {c d : Caller}

/-! ## The law -/

def State.channel (s : State) : osal_count_sem_record_t :=
  s.os.gw_osal_count_sem_table s.semAccessRcpChannel

/-- The channel is free for one call at most, one call at most is between its take and its
give, and one call at most waits for the answer to its GET. -/
structure OneAtATime (s : State) : Prop where
  value : s.channel.value ≤ 1
  holder : ∀ p q c d, s.caller p = some c → s.caller q = some d →
    c.took = true → d.took = true → p = q
  get : ∀ p q c d m n, s.caller p = some c → s.caller q = some d →
    c.pc = .wait m → d.pc = .wait n → p = q

/-- A call gives the channel only when it took it. -/
def GivesItsOwn (s : State) (e : Event) : Prop :=
  ∀ p ok vid c, e = .turn p ok vid → s.caller p = some c → c.pc = .give → c.took = true

def Exclusive (s : State) (e : Event) : Prop := GivesItsOwn s e ∧ OneAtATime (s.step e)

/-- The take of a call finds the channel taken at its last try. -/
def TimesOut (s : State) : Event → Bool
  | .turn p _ _ => (s.caller p).any fun c =>
    match c.pc with
    | .take timeloop =>
      match (gw_semaphore_wait_turn s.os s.semAccessRcpChannel timeloop).2 with
      | .done ret => ret ≠ .OK
      | .again _ => false
    | _ => false
  | _ => false

/-! ## Semaphores -/

section
variable {o o' : Os} {k id : Nat}

theorem post_other (h : k ≠ id) :
    (gw_semaphore_post o id).1.gw_osal_count_sem_table k = o.gw_osal_count_sem_table k := by
  unfold gw_semaphore_post
  split
  · rfl
  · exact set_sem_other h _

theorem post_self (hk : k < GW_OSAL_MAX_COUNT_SEM) (hfree : (o.gw_osal_count_sem_table k).free = false) :
    (gw_semaphore_post o k).1.gw_osal_count_sem_table k = (o.gw_osal_count_sem_table k).post := by
  unfold gw_semaphore_post
  rw [if_neg]
  · exact set_sem_self k _
  · rw [hfree]
    simpa using hk

theorem destroy_other (os : Bool) (h : k ≠ id) :
    (gw_semaphore_destroy os o id).1.gw_osal_count_sem_table k = o.gw_osal_count_sem_table k := by
  unfold gw_semaphore_destroy
  split
  · rfl
  · split
    · rfl
    · exact set_sem_other h _

theorem wait_turn_other {n : Nat} (h : k ≠ id) :
    (gw_semaphore_wait_turn o id n).1.gw_osal_count_sem_table k = o.gw_osal_count_sem_table k := by
  unfold gw_semaphore_wait_turn
  split_ifs
  all_goals first
    | rfl
    | exact set_sem_other h _

/-- A take that succeeds finds the semaphore given. -/
theorem wait_turn_ok {n : Nat} (h : gw_semaphore_wait_turn o id n = (o', .done .OK)) :
    (o.gw_osal_count_sem_table id).value ≠ 0 ∧ o' = o.set_sem id (o.gw_osal_count_sem_table id).take := by
  unfold gw_semaphore_wait_turn at h
  split_ifs at h with hinvalid hn hvalue hlong
  all_goals simp only [Prod.mk.injEq, Tried.done.injEq, reduceCtorEq, and_false] at h
  exact ⟨hvalue, h.1.symm⟩

/-- A new semaphore has the first place that is free. -/
theorem create_some {os : Bool} {name : List Char} {v : UInt32}
    (h : gw_rcp_sem_create os o name v = some (o', id)) :
    first_free (fun i => (o.gw_osal_count_sem_table i).free) GW_OSAL_MAX_COUNT_SEM = some id ∧
      o' = o.set_sem id ⟨false, v.toNat, name⟩ := by
  unfold gw_rcp_sem_create gw_semaphore_init at h
  dsimp only at h
  by_cases hlong : GW_OSAL_MAX_API_NAME < name.length
  · rw [if_pos hlong] at h
    cases h
  · rw [if_neg hlong] at h
    cases hfirst : first_free (fun i => (o.gw_osal_count_sem_table i).free) GW_OSAL_MAX_COUNT_SEM with
    | none =>
      rw [hfirst] at h
      cases h
    | some i =>
      rw [hfirst] at h
      by_cases hos : os = false
      · rw [hos] at h
        cases h
      · simp only [if_neg hos, Option.some.injEq, Prod.mk.injEq] at h
        obtain ⟨rfl, rfl⟩ := h
        exact ⟨rfl, rfl⟩

theorem create_free {os : Bool} {name : List Char} {v : UInt32}
    (h : gw_rcp_sem_create os o name v = some (o', id)) :
    id < GW_OSAL_MAX_COUNT_SEM ∧ (o.gw_osal_count_sem_table id).free = true :=
  first_free_some (create_some h).1

/-- A semaphore that is in use is not created again. -/
theorem create_other {os : Bool} {name : List Char} {v : UInt32}
    (h : gw_rcp_sem_create os o name v = some (o', id)) (hk : (o.gw_osal_count_sem_table k).free = false) :
    k ≠ id ∧ o'.gw_osal_count_sem_table k = o.gw_osal_count_sem_table k := by
  have hne : k ≠ id := by
    rintro rfl
    rw [(create_free h).2] at hk
    cases hk
  rw [(create_some h).2]
  exact ⟨hne, set_sem_other hne _⟩

end

/-! ## What a step leaves of the channel -/

/-- Where a call is between its take of the channel and its give. -/
def Caller.Inside (c : Caller) : Bool :=
  match c.pc with
  | .send | .wait _ | .value | .give => true
  | .semDelete | .delete => c.kind.locks
  | .port | .insert | .store _ | .build | .take _ | .returned => false

/-- What holds of the channel while no take of it times out. -/
structure Held (s : State) : Prop where
  zero : 0 ≠ s.semAccessRcpChannel
  known : s.semAccessRcpChannel < GW_OSAL_MAX_COUNT_SEM
  used : s.channel.free = false
  apart : ∀ q, (s.reg q).semAccess ≠ s.semAccessRcpChannel
  inside : ∀ p c, s.caller p = some c → c.took = c.Inside
  value : s.channel.value ≤ 1
  taken : ∀ p c, s.caller p = some c → c.took = true → s.channel.value = 0
  holder : ∀ p q c d, s.caller p = some c → s.caller q = some d →
    c.took = true → d.took = true → p = q

/-- A step does not touch the channel, nor the callers. -/
structure Quiet (s t : State) : Prop where
  id : t.semAccessRcpChannel = s.semAccessRcpChannel
  record : t.os.gw_osal_count_sem_table s.semAccessRcpChannel =
    s.os.gw_osal_count_sem_table s.semAccessRcpChannel
  caller : t.caller = s.caller
  apart : ∀ q, (t.reg q).semAccess ≠ s.semAccessRcpChannel

theorem Quiet.channel (h : Quiet s t) : t.channel = s.channel := by
  unfold State.channel
  rw [h.id, h.record]

theorem Held.quiet (h : Held s) (hq : Quiet s t) : Held t := by
  have hc := hq.channel
  refine ⟨?_, ?_, ?_, ?_, ?_, ?_, ?_, ?_⟩
  · rw [hq.id]
    exact h.zero
  · rw [hq.id]
    exact h.known
  · rw [hc]
    exact h.used
  · rw [hq.id]
    exact hq.apart
  · rw [hq.caller]
    exact h.inside
  · rw [hc]
    exact h.value
  · rw [hq.caller, hc]
    exact h.taken
  · rw [hq.caller]
    exact h.holder

/-- A caller that goes on, and does not take the channel. -/
theorem Held.set (h : Held s) (hp : d.took = true → ∃ c, s.caller p = some c ∧ c.took = true)
    (hinside : d.took = d.Inside) : Held (s.set p d) := by
  have hold : ∀ q c, (s.set p d).caller q = some c → c.took = true →
      ∃ c', s.caller q = some c' ∧ c'.took = true := by
    intro q c hq htook
    rcases set_cases hq with ⟨rfl, rfl⟩ | ⟨-, hq⟩
    · exact hp htook
    · exact ⟨c, hq, htook⟩
  refine ⟨h.zero, h.known, h.used, h.apart, ?_, h.value, ?_, ?_⟩
  · intro q c hq
    rcases set_cases hq with ⟨rfl, rfl⟩ | ⟨-, hq⟩
    · exact hinside
    · exact h.inside q c hq
  · intro q c hq htook
    obtain ⟨c', hc', htook'⟩ := hold q c hq htook
    exact h.taken q c' hc' htook'
  · intro q r c c' hq hr htook htook'
    obtain ⟨d₁, hd₁, htook₁⟩ := hold q c hq htook
    obtain ⟨d₂, hd₂, htook₂⟩ := hold r c' hr htook'
    exact h.holder q r d₁ d₂ hd₁ hd₂ htook₁ htook₂

theorem Held.next (h : Held s) (hp : s.caller p = some c) (hq : Quiet s t) (htook : d.took = c.took)
    (hinside : d.Inside = c.Inside) : Held (t.set p d) := by
  refine (h.quiet hq).set (fun hd => ⟨c, by rw [hq.caller, hp], htook ▸ hd⟩) ?_
  rw [htook, hinside]
  exact h.inside p c hp

theorem Held.same (h : Held s) : Quiet s s := ⟨rfl, rfl, rfl, h.apart⟩

theorem Held.post (h : Held s) (q : Nat) :
    Quiet s { s with os := (gw_semaphore_post s.os (s.reg q).semAccess).1 } :=
  ⟨rfl, post_other (h.apart q).symm, rfl, h.apart⟩

theorem Held.semDelete (h : Held s) (os : Bool) (q : Nat) :
    Quiet s (s.semDelete os (s.reg q).semAccess) :=
  ⟨rfl, destroy_other os (h.apart q).symm, rfl, h.apart⟩

/-! ## The steps of a call -/

theorem port_held (h : Held s) (hp : s.caller p = some c) (hpc : c.pc = .port) (up : Bool) :
    Held (s.set p (c.nextPort up)) := by
  have hout : c.Inside = false := by rw [Caller.Inside, hpc]
  have hnext : (c.nextPort up).took = c.took ∧ (c.nextPort up).Inside = false := by
    unfold Caller.nextPort
    split_ifs <;> simp [Caller.Inside, hpc]
  exact h.next hp h.same hnext.1 (hnext.2.trans hout.symm)

theorem insert_held (h : Held s) (hp : s.caller p = some c) (hpc : c.pc = .insert) (os : Bool) :
    Held (s.insert p c os) := by
  have hout : c.Inside = false := by rw [Caller.Inside, hpc]
  unfold State.insert
  split
  · exact h.next hp ⟨rfl, rfl, rfl, h.apart⟩ rfl hout.symm
  · split
    · have hq := h.semDelete os c.pReg
      exact h.next hp ⟨hq.id, hq.record, hq.caller, hq.apart⟩ rfl hout.symm
    · exact h.next hp h.same rfl hout.symm

theorem store_held (h : Held s) (hp : s.caller p = some c) {i : Nat} (hpc : c.pc = .store i) :
    Held (s.store p c i) := by
  have hout : c.Inside = false := by rw [Caller.Inside, hpc]
  exact h.next hp ⟨rfl, rfl, rfl, h.apart⟩ rfl hout.symm

theorem build_held (h : Held s) (hp : s.caller p = some c) (hpc : c.pc = .build) (vid : UInt16) :
    Held (s.build p c vid) := by
  have hout : c.Inside = false := by rw [Caller.Inside, hpc]
  exact h.next hp ⟨rfl, rfl, rfl, h.apart⟩ rfl hout.symm

theorem exit_inside (c : Caller) (iRet : RCP_RET) (data : Option UInt32) :
    Caller.Inside { c with pc := c.kind.exit, iRet, data } = true := by
  unfold Caller.Inside Kind.exit
  cases c.kind <;> rfl

theorem send_held (h : Held s) (hp : s.caller p = some c) (hpc : c.pc = .send) (ok : Bool) :
    Held (s.send p c ok) := by
  have hin : c.Inside = true := by rw [Caller.Inside, hpc]
  unfold State.send
  split
  · refine h.next hp ⟨rfl, rfl, rfl, h.apart⟩ rfl ?_
    rw [hin]
    split
    · rfl
    · exact exit_inside c c.iRet c.data
  · exact h.next hp h.same rfl ((exit_inside c _ c.data).trans hin.symm)

theorem wait_held (h : Held s) (hp : s.caller p = some c) {n : Nat} (hpc : c.pc = .wait n) :
    Held (s.wait p c n) := by
  have hin : c.Inside = true := by rw [Caller.Inside, hpc]
  have hother := wait_turn_other (o := s.os) (n := n) (h.apart c.pReg).symm
  unfold State.wait
  split
  · exact h.next hp h.same rfl hin.symm
  · rename_i os heq
    rw [heq] at hother
    exact h.next hp ⟨rfl, hother, rfl, h.apart⟩ rfl hin.symm
  · exact h.next hp h.same rfl ((exit_inside c _ c.data).trans hin.symm)

theorem value_held (h : Held s) (hp : s.caller p = some c) (hpc : c.pc = .value) :
    Held (s.value p c) := by
  have hin : c.Inside = true := by rw [Caller.Inside, hpc]
  unfold State.value
  dsimp only
  split
  · exact h.next hp (h.post c.pReg) rfl ((exit_inside c c.iRet _).trans hin.symm)
  · exact h.next hp (h.post c.pReg) rfl ((exit_inside c _ _).trans hin.symm)

theorem semDelete_held (h : Held s) (hp : s.caller p = some c) (hpc : c.pc = .semDelete) (os : Bool) :
    Held ((s.semDelete os (s.reg c.pReg).semAccess).set p { c with pc := .delete }) := by
  have hin : c.Inside = c.kind.locks := by rw [Caller.Inside, hpc]
  exact h.next hp (h.semDelete os c.pReg) rfl hin.symm

theorem delete_held (h : Held s) (hp : s.caller p = some c) (hpc : c.pc = .delete) :
    Held (s.delete p c) := by
  have hin : c.Inside = c.kind.locks := by rw [Caller.Inside, hpc]
  refine h.next hp ⟨rfl, rfl, rfl, h.apart⟩ rfl ?_
  rw [hin]
  unfold Caller.Inside Kind.afterDelete
  cases c.kind <;> rfl

/-- A take that is not timed out finds the channel free. -/
theorem take_held (h : Held s) (hp : s.caller p = some c) {n : Nat} (hpc : c.pc = .take n)
    (htime : ∀ os ret, gw_semaphore_wait_turn s.os s.semAccessRcpChannel n = (os, .done ret) → ret = .OK) :
    Held (s.take p c n) := by
  have hout : c.Inside = false := by rw [Caller.Inside, hpc]
  unfold State.take
  split
  · exact h.next hp h.same rfl hout.symm
  · rename_i os ret heq
    obtain rfl := htime os ret heq
    obtain ⟨hvalue, rfl⟩ := wait_turn_ok heq
    have hone : s.channel.value = 1 := by
      have hle := h.value
      unfold State.channel at hle ⊢
      omega
    have hfree : ∀ q d, s.caller q = some d → d.took = false := by
      intro q d hq
      rw [← Bool.not_eq_true]
      intro htook
      have hzero := h.taken q d hq htook
      omega
    have hchannel : ∀ d, State.channel ({ s with
        os := s.os.set_sem s.semAccessRcpChannel
          (s.os.gw_osal_count_sem_table s.semAccessRcpChannel).take }.set p d) = s.channel.take := by
      intro d
      exact set_sem_self _ _
    have htaken : s.channel.take.value = 0 := by
      change s.channel.value - 1 = 0
      omega
    refine ⟨h.zero, h.known, ?_, h.apart, ?_, ?_, ?_, ?_⟩
    · rw [hchannel]
      exact h.used
    · intro q d hq
      rcases set_cases hq with ⟨rfl, rfl⟩ | ⟨-, hq⟩
      · rfl
      · exact h.inside q d hq
    · rw [hchannel, htaken]
      exact Nat.zero_le 1
    · intro q d _ _
      rw [hchannel, htaken]
    · intro q r d d' hq hr htook htook'
      rcases set_cases hq with ⟨rfl, -⟩ | ⟨-, hq⟩
      · rcases set_cases hr with ⟨rfl, -⟩ | ⟨-, hr⟩
        · rfl
        · exact absurd htook' (Bool.eq_false_iff.mp (hfree r d' hr))
      · exact absurd htook (Bool.eq_false_iff.mp (hfree q d hq))

theorem give_held (h : Held s) (hp : s.caller p = some c) (hpc : c.pc = .give) :
    Held (s.give p c) := by
  have hin : c.Inside = true := by rw [Caller.Inside, hpc]
  have htook : c.took = true := (h.inside p c hp).trans hin
  have hzero := h.taken p c hp htook
  have hfree : ∀ q d, q ≠ p → s.caller q = some d → d.took = false := by
    intro q d hne hq
    rw [← Bool.not_eq_true]
    exact fun htook' => hne (h.holder q p d c hq hp htook' htook)
  have hchannel : (s.give p c).channel = s.channel.post := post_self h.known h.used
  have hvalue : (s.give p c).channel.value = 1 := by
    rw [hchannel]
    change s.channel.value + 1 = 1
    rw [hzero]
  have hout : ∀ q d, (s.give p c).caller q = some d → d.took = false := by
    intro q d hq
    rcases set_cases hq with ⟨-, rfl⟩ | ⟨hne, hq⟩
    · rfl
    · exact hfree q d hne hq
  refine ⟨h.zero, h.known, ?_, h.apart, ?_, hvalue.le, ?_, ?_⟩
  · rw [hchannel]
    exact h.used
  · intro q d hq
    rcases set_cases hq with ⟨-, rfl⟩ | ⟨-, hq⟩
    · unfold Caller.Inside Kind.afterGive
      cases c.kind <;> rfl
    · exact h.inside q d hq
  · exact fun q d hq htook' => absurd htook' (Bool.eq_false_iff.mp (hout q d hq))
  · exact fun q r d d' hq _ htook' => absurd htook' (Bool.eq_false_iff.mp (hout q d hq))

/-! ## Every run -/

theorem turn_held (h : Held s) (hp : s.caller p = some c) {ok : Bool} {vid : UInt16}
    (htime : TimesOut s (.turn p ok vid) = false) : Held (s.turn p c ok vid) := by
  unfold State.turn
  split
  case h_1 hpc => exact port_held h hp hpc ok
  case h_2 hpc =>
    split
    · exact h
    · exact insert_held h hp hpc ok
  case h_3 hpc => exact store_held h hp hpc
  case h_4 hpc => exact build_held h hp hpc vid
  case h_5 n hpc =>
    refine take_held h hp hpc fun os ret heq => ?_
    simpa [TimesOut, hp, hpc, heq] using htime
  case h_6 hpc => exact send_held h hp hpc ok
  case h_7 hpc => exact wait_held h hp hpc
  case h_8 hpc => exact value_held h hp hpc
  case h_9 hpc => exact semDelete_held h hp hpc ok
  case h_10 hpc =>
    split
    · exact h
    · exact delete_held h hp hpc
  case h_11 hpc => exact give_held h hp hpc
  case h_12 => exact h

theorem apart_edit (h : Held s) (k : Nat) {r : RCP_REG} (hr : r.semAccess ≠ s.semAccessRcpChannel) (q : Nat) :
    ((s.edit k r).reg q).semAccess ≠ s.semAccessRcpChannel := by
  by_cases hq : q = k
  · subst hq
    rwa [edit_self]
  · rw [edit_other s hq]
    exact h.apart q

theorem reads_held (h : Held s) (kind : Kind) (dev : Nat) (regAddr : UInt16) {o : Os}
    (hrecord : o.gw_osal_count_sem_table s.semAccessRcpChannel =
      s.os.gw_osal_count_sem_table s.semAccessRcpChannel)
    (holder : Nat → Option Nat) {semAccess : Nat} (hne : semAccess ≠ s.semAccessRcpChannel) :
    Held (s.reads p kind dev regAddr o holder semAccess) := by
  have hq : Quiet s ({ s with
      os := o
      holder
      live := update s.live s.calls true
      calls := s.calls + 1 }.edit s.calls ⟨regAddr, 0, dev, 0, semAccess⟩) :=
    ⟨rfl, hrecord, rfl, apart_edit h s.calls hne⟩
  exact (h.quiet hq).set nofun rfl

theorem starts_held {call : Call} {mal os : Bool} (h : Held s) (hs : s.Starts p os call mal t) : Held t := by
  have hcount : Held { s with calls := s.calls + 1 } := h.quiet ⟨rfl, rfl, rfl, h.apart⟩
  cases hs with
  | reads kind dev regAddr o sem_id hkind hcreate =>
    obtain ⟨hne, hrecord⟩ := create_other hcreate h.used
    exact reads_held h kind dev regAddr hrecord _ hne.symm
  | blind dev regAddr hcreate => exact reads_held h .read32 dev regAddr rfl _ h.zero
  | refused kind dev regAddr wdata lport iRet hkind hret => exact hcount.set nofun rfl
  | other kind dev regAddr wdata lport pc iRet hkind hpc =>
    refine hcount.set nofun ?_
    rcases hpc with rfl | rfl | rfl <;> rfl

theorem complete_held (h : Held s) : Held s.complete := by
  unfold State.complete
  split
  · exact h
  · rename_i q r hu
    have hapart := apart_edit h q (r := { s.reg q with value := r.regValue, validFlag := 1 }) (h.apart q)
    exact h.quiet ⟨rfl, post_other (hapart q).symm, rfl, hapart⟩

theorem step_held (h : Held s) (e : Event) (htime : TimesOut s e = false) : Held (s.step e) := by
  generalize hnext : s.step e = t
  cases hnext ▸ step_takes s e with
  | nothing => exact h
  | call p call mal os hidle => exact starts_held h (start_starts s p call mal os)
  | turn p c ok vid hp => exact turn_held h hp htime
  | answer k g hg => exact h.quiet ⟨rfl, rfl, rfl, h.apart⟩
  | drop i => exact h.quiet ⟨rfl, rfl, rfl, h.apart⟩
  | find i r q hlocked hr hq => exact h.quiet ⟨rfl, rfl, rfl, h.apart⟩
  | complete q r hu => exact complete_held h
  | world w => exact h.quiet ⟨rfl, rfl, rfl, h.apart⟩

/-- The semaphores that `RCP_Init` creates are three, so that the second is not the first one
of the table. -/
theorem init_held {os : Os} {w : World} (h : RCP_Init os w = some s) : Held s := by
  unfold RCP_Init at h
  simp only [Option.bind_eq_bind, Option.bind_eq_some_iff] at h
  obtain ⟨⟨o₁, a⟩, h₁, ⟨o₂, b⟩, h₂, ⟨o₃, c⟩, h₃, hs⟩ := h
  have hs := Option.some.inj hs
  obtain ⟨hfirst, ho₁⟩ := create_some h₁
  obtain ⟨-, ho₂⟩ := create_some h₂
  have hb : o₂.gw_osal_count_sem_table b = ⟨false, 1, ['r', 'c', 'p', '_', 'c', 'h', 'a', 'n']⟩ := by
    rw [ho₂, set_sem_self]
    rfl
  obtain ⟨-, hrecord⟩ := create_other h₃ (k := b) (by rw [hb])
  rw [hb] at hrecord
  have hzero : 0 ≠ b := by
    rintro rfl
    have hfree := (create_free h₂).2
    have ha : a ≠ 0 := by
      rintro rfl
      rw [ho₁, set_sem_self] at hfree
      cases hfree
    rw [ho₁, set_sem_other ha.symm] at hfree
    have hlt := (List.find?_range_eq_some.mp hfirst).2.2 0 (Nat.pos_of_ne_zero ha)
    rw [hfree] at hlt
    cases hlt
  have hchannel : s.channel = ⟨false, 1, ['r', 'c', 'p', '_', 'c', 'h', 'a', 'n']⟩ := by
    rw [← hs]
    exact hrecord
  have hid : s.semAccessRcpChannel = b := by rw [← hs]
  have hreg : ∀ q, (s.reg q).semAccess = 0 := by
    rw [← hs]
    exact fun _ => rfl
  have hnone : ∀ p, s.caller p = none := by
    rw [← hs]
    exact fun _ => rfl
  refine ⟨?_, ?_, ?_, ?_, ?_, ?_, ?_, ?_⟩
  · rwa [hid]
  · rw [hid]
    exact (create_free h₂).1
  · rw [hchannel]
  · intro q
    rwa [hreg, hid]
  · intro p c hp
    rw [hnone] at hp
    cases hp
  · rw [hchannel]
  · intro p c hp
    rw [hnone] at hp
    cases hp
  · intro p q c d hp
    rw [hnone] at hp
    cases hp

theorem held_one (h : Held s) : OneAtATime s := by
  refine ⟨h.value, h.holder, ?_⟩
  intro p q c d m n hp hq hm hn
  have hc : c.took = true := by rw [h.inside p c hp, Caller.Inside, hm]
  have hd : d.took = true := by rw [h.inside q d hq, Caller.Inside, hn]
  exact h.holder p q c d hp hq hc hd

/-- While no take of the channel times out, a call gives the channel only when it took it,
and one call at most has it. -/
theorem one_call_has_the_channel_while_no_take_times_out {os : Os} {w : World}
    (h : RCP_Init os w = some s) (es : List Event)
    (htime : Along State.step (fun s e => TimesOut s e = false) s es) : Along State.step Exclusive s es := by
  refine along_imp (I := Held) (fun s e => step_held (e := e)) ?_ (init_held h) htime
  intro s e hs htime
  refine ⟨?_, held_one (step_held hs e htime)⟩
  rintro p ok vid c - hp hpc
  rw [hs.inside p c hp, Caller.Inside, hpc]

/-- A read of a register that is answered. -/
theorem a_read_has_the_channel_alone :
    let es : List Event := [.call 0 (.RCP_Read_Reg (some 0) 1 false) true true, .world oneSwitch,
      .turn 0 true 0, .turn 0 true 0, .turn 0 true 0, .turn 0 true 0, .turn 0 true 0,
      .answer 0, .deliver 0, .complete, .turn 0 true 0, .turn 0 true 0, .turn 0 true 0,
      .turn 0 true 0, .turn 0 true 0]
    ∃ s, RCP_Init gw_osal_core_init oneSwitch = some s ∧ Along State.step Exclusive s es := by
  intro es
  have htime : (RCP_Init gw_osal_core_init oneSwitch).all (fun s =>
      decide (Along State.step (fun s e => TimesOut s e = false) s es)) = true := by decide +kernel
  cases hs : RCP_Init gw_osal_core_init oneSwitch with
  | none => cases hs
  | some s =>
    rw [hs, Option.all_some, decide_eq_true_eq] at htime
    exact ⟨s, rfl, one_call_has_the_channel_while_no_take_times_out hs es htime⟩

/-- A write holds the channel for longer than a HELLO waits for it. -/
theorem a_hello_gives_the_channel_of_a_write :
    let es : List Event := [.call 0 (.RCP_Write_Reg (some 0) 1 2) true true, .turn 0 true 0, .turn 0 true 0,
      .call 1 (.RCP_Say_Hello 1) true true, .turn 1 true 0, .turn 1 true 0,
      .turn 1 true 0, .turn 1 true 0, .turn 1 true 0, .turn 1 true 0, .turn 1 true 0, .turn 0 true 0]
    ∃ s, RCP_Init gw_osal_core_init oneSwitch = some s ∧
      ¬ Along State.step Exclusive s (es ++ [.turn 0 true 0]) := by
  intro es
  have hvalue : (RCP_Init gw_osal_core_init oneSwitch).all (fun s =>
      (run State.step s (es ++ [.turn 0 true 0])).channel.value = 2) = true := by decide +kernel
  cases hs : RCP_Init gw_osal_core_init oneSwitch with
  | none => cases hs
  | some s =>
    refine ⟨s, rfl, fun h => ?_⟩
    rw [hs, Option.all_some, decide_eq_true_eq, run_append] at hvalue
    have hone := ((along_append _ _ _ _).mp h).2.1.2.value
    rw [run_cons, run_nil] at hvalue
    rw [hvalue] at hone
    exact absurd hone (by decide)

end gwdonu.rcp
