-- The replies to the RCP reads. A reply goes to the first entry of its register and its
-- switch, whoever asked; where it goes to the call that asked, each read gives an answer of its own.
import Gwdonu.Rcp

namespace gwdonu.rcp

open Function os_core runs

variable {s t : State} {p q : Nat} {c d : Caller} {v : UInt32}

/-! ## The law -/

/-- A switch has sent the value in answer to a frame of the call. -/
def State.Answered (s : State) (call : Nat) (v : UInt32) : Prop :=
  ∃ r ∈ s.answered, ∃ g, s.sent[r.get]? = some g ∧ g.call = call ∧ r.regValue = v

/-- The read has not taken its value yet. -/
def Caller.Pending (c : Caller) : Bool :=
  match c.pc with
  | .insert | .store _ | .build | .take _ | .send | .wait _ | .value => c.kind.isRead
  | _ => false

/-- The read has not sent its GET yet. -/
def Caller.Unsent (c : Caller) : Bool :=
  match c.pc with
  | .insert | .store _ | .build | .take _ | .send => c.kind.isRead
  | _ => false

/-- Each read that has returned with success gave a value that answers a GET of its own. -/
def ReadsItsOwn (s : State) : Prop :=
  ∀ p c, s.caller p = some c → c.kind.isRead = true → c.pc = .returned → c.iRet = .RCP_OK →
    ∃ v, c.data = some (c.kind.result v) ∧ s.Answered c.pReg v

/-- A reply completes the entry of a read when the read has sent its GET. -/
def CompletesAfterSend (s : State) (e : Event) : Prop :=
  e = .complete → ∀ q r p c, s.updating = some (q, r) → s.caller p = some c → c.pReg = q →
    c.Pending = true → c.Unsent = false

def Reaches (s : State) (e : Event) : Prop := CompletesAfterSend s e ∧ ReadsItsOwn (s.step e)

/-- Where a reply is written to the entry of a read that has not taken its value, the
frame that it answers is one of that read. -/
def FindsItsAsker (s : State) (e : Event) : Prop :=
  e = .complete → ∀ q r p c, s.updating = some (q, r) → s.caller p = some c → c.pReg = q →
    c.Pending = true → ∃ g, s.sent[r.get]? = some g ∧ g.call = q

/-! ## Where the values come from -/

/-- What holds of the reads while each reply finds the read that asked. -/
structure Traced (s : State) : Prop where
  port : ∀ p c, s.caller p = some c → c.pc = .port → c.kind.isRead = false
  below : ∀ p c, s.caller p = some c → c.pReg < s.calls
  apart : ∀ p q c d, s.caller p = some c → s.caller q = some d → c.pReg = d.pReg → p = q
  sent : ∀ g ∈ s.sent, g.call < s.calls
  unsent : ∀ p c, s.caller p = some c → c.Unsent = true → ∀ g ∈ s.sent, g.call ≠ c.pReg
  inflight : ∀ r ∈ s.inflight, r ∈ s.answered
  updating : ∀ q r, s.updating = some (q, r) → r ∈ s.answered
  valid : ∀ p c, s.caller p = some c → c.Pending = true → (s.reg c.pReg).validFlag = 1 →
    s.Answered c.pReg (s.reg c.pReg).value
  result : ∀ p c, s.caller p = some c → c.kind.isRead = true → c.Pending = false → c.iRet = .RCP_OK →
    ∃ v, c.data = some (c.kind.result v) ∧ s.Answered c.pReg v

/-- What was sent and answered stays so. -/
theorem Answered.mono {call : Nat} (h : s.Answered call v) (hsent : s.sent <+: t.sent)
    (hanswered : ∀ r ∈ s.answered, r ∈ t.answered) : t.Answered call v := by
  obtain ⟨r, hr, g, hg, hcall, hv⟩ := h
  refine ⟨r, hanswered r hr, g, ?_, hcall, hv⟩
  obtain ⟨l, hl⟩ := hsent
  rw [← hl, List.getElem?_append_left (List.getElem?_eq_some_iff.mp hg).1]
  exact hg

/-- The step leaves the reads and what was sent and answered as they are. -/
structure Still (s t : State) : Prop where
  caller : t.caller = s.caller
  reg : t.reg = s.reg
  calls : t.calls = s.calls
  sent : t.sent = s.sent
  answered : t.answered = s.answered
  inflight : ∀ r ∈ t.inflight, r ∈ s.answered
  updating : ∀ q r, t.updating = some (q, r) → r ∈ s.answered

theorem Still.answers (h : Still s t) (call : Nat) (v : UInt32) : t.Answered call v ↔ s.Answered call v := by
  unfold State.Answered
  rw [h.answered, h.sent]

theorem Traced.still (h : Traced s) (hs : Still s t) : Traced t := by
  refine ⟨?_, ?_, ?_, ?_, ?_, ?_, ?_, ?_, ?_⟩
  · rw [hs.caller]
    exact h.port
  · rw [hs.caller, hs.calls]
    exact h.below
  · rw [hs.caller]
    exact h.apart
  · rw [hs.sent, hs.calls]
    exact h.sent
  · rw [hs.caller, hs.sent]
    exact h.unsent
  · rw [hs.answered]
    exact hs.inflight
  · rw [hs.answered]
    exact hs.updating
  · simp only [hs.caller, hs.reg, hs.answers]
    exact h.valid
  · simp only [hs.caller, hs.answers]
    exact h.result

theorem Traced.same (h : Traced s) : Still s s := ⟨rfl, rfl, rfl, rfl, rfl, h.inflight, h.updating⟩

/-- A call goes on, and gives nothing that does not answer it. -/
theorem Traced.set (h : Traced s) (hp : s.caller p = some c) (hreg : d.pReg = c.pReg)
    (hport : d.pc = .port → d.kind.isRead = false)
    (hunsent : d.Unsent = true → c.Unsent = true) (hpending : d.Pending = true → c.Pending = true)
    (hresult : d.kind.isRead = true → d.Pending = false → d.iRet = .RCP_OK →
      ∃ v, d.data = some (d.kind.result v) ∧ s.Answered d.pReg v) : Traced (s.set p d) := by
  have hold : ∀ q c', (s.set p d).caller q = some c' → ∃ c'', s.caller q = some c'' ∧ c'.pReg = c''.pReg := by
    intro q c' hq
    rcases set_cases hq with ⟨rfl, rfl⟩ | ⟨-, hq⟩
    · exact ⟨c, hp, hreg⟩
    · exact ⟨c', hq, rfl⟩
  refine ⟨?_, ?_, ?_, h.sent, ?_, h.inflight, h.updating, ?_, ?_⟩
  · intro q c' hq hpc
    rcases set_cases hq with ⟨-, rfl⟩ | ⟨-, hq⟩
    · exact hport hpc
    · exact h.port q c' hq hpc
  · intro q c' hq
    obtain ⟨c'', hc'', heq⟩ := hold q c' hq
    exact heq ▸ h.below q c'' hc''
  · intro q r c' d' hq hr heq
    obtain ⟨c'', hc'', hc⟩ := hold q c' hq
    obtain ⟨d'', hd'', hd⟩ := hold r d' hr
    exact h.apart q r c'' d'' hc'' hd'' (by rw [← hc, heq, hd])
  · intro q c' hq hun g hg
    rcases set_cases hq with ⟨rfl, rfl⟩ | ⟨-, hq⟩
    · rw [hreg]
      exact h.unsent _ c hp (hunsent hun) g hg
    · exact h.unsent q c' hq hun g hg
  · intro q c' hq hpend hvalid
    rcases set_cases hq with ⟨rfl, rfl⟩ | ⟨-, hq⟩
    · rw [hreg] at hvalid ⊢
      exact h.valid _ c hp (hpending hpend) hvalid
    · exact h.valid q c' hq hpend hvalid
  · intro q c' hq hread hpend hret
    rcases set_cases hq with ⟨-, rfl⟩ | ⟨-, hq⟩
    · exact hresult hread hpend hret
    · exact h.result q c' hq hread hpend hret

/-! ## The steps of a call -/

/-- A call that goes on as it was: it has given its value or not, as before. -/
theorem Traced.next (h : Traced s) (hp : s.caller p = some c) (hs : Still s t) (hreg : d.pReg = c.pReg)
    (hkind : d.kind = c.kind) (hport : d.pc ≠ .port) (hunsent : d.Unsent = true → c.Unsent = true)
    (hpending : d.Pending = c.Pending) (hdata : d.data = c.data) (hret : d.iRet = .RCP_OK → c.iRet = .RCP_OK) :
    Traced (t.set p d) := by
  have ht := h.still hs
  refine ht.set (hs.caller ▸ hp) hreg (fun hd => absurd hd hport) hunsent (fun hd => hpending ▸ hd) ?_
  intro hread hpend hok
  obtain ⟨v, hv, hanswered⟩ := h.result p c hp (hkind ▸ hread) (hpending ▸ hpend) (hret hok)
  rw [hkind, hreg, hdata]
  exact ⟨v, hv, (hs.answers c.pReg v).mpr hanswered⟩

/-- Up to the send of its frame. -/
def Early : Pc → Bool
  | .insert | .store _ | .build | .take _ | .send => true
  | _ => false

theorem early_phase (h : Early c.pc = true) : c.Unsent = c.kind.isRead ∧ c.Pending = c.kind.isRead := by
  unfold Caller.Unsent Caller.Pending
  unfold Early at h
  split at h
  case h_6 => cases h
  all_goals
    rw [‹c.pc = _›]
    exact ⟨rfl, rfl⟩

/-- A call goes on, with its frame still to send. -/
theorem Traced.early (h : Traced s) (hp : s.caller p = some c) (hs : Still s t) (hreg : d.pReg = c.pReg)
    (hkind : d.kind = c.kind) (hfrom : Early c.pc = true) (hto : Early d.pc = true) (hdata : d.data = c.data)
    (hret : d.iRet = c.iRet) : Traced (t.set p d) := by
  obtain ⟨hunsent, hpending⟩ := early_phase hfrom
  obtain ⟨hunsent', hpending'⟩ := early_phase hto
  refine h.next hp hs hreg hkind ?_ ?_ ?_ hdata fun hok => hret ▸ hok
  · intro hport
    rw [hport] at hto
    cases hto
  · rw [hunsent, hunsent', hkind]
    exact id
  · rw [hpending, hpending', hkind]

/-- A call that does not end with `RCP_OK`. -/
theorem Traced.fail (h : Traced s) (hp : s.caller p = some c) (hs : Still s t) (hreg : d.pReg = c.pReg)
    (hport : d.pc ≠ .port) (hunsent : d.Unsent = false) (hpending : d.Pending = false)
    (hret : d.iRet ≠ .RCP_OK) : Traced (t.set p d) := by
  refine (h.still hs).set (hs.caller ▸ hp) hreg (fun hd => absurd hd hport) ?_ ?_ (fun _ _ hok => absurd hok hret)
  · rw [hunsent]
    nofun
  · rw [hpending]
    nofun

theorem exit_pending (c : Caller) (iRet : RCP_RET) (data : Option UInt32) :
    Caller.Pending { c with pc := c.kind.exit, iRet, data } = false ∧
      Caller.Unsent { c with pc := c.kind.exit, iRet, data } = false := by
  unfold Caller.Pending Caller.Unsent Kind.exit
  cases c.kind <;> exact ⟨rfl, rfl⟩

/-- A call that is not a read gives nothing. -/
theorem Traced.other (h : Traced s) (hp : s.caller p = some c) (hs : Still s t) (hreg : d.pReg = c.pReg)
    (hkind : d.kind.isRead = false) : Traced (t.set p d) := by
  have hpend : d.Pending = false ∧ d.Unsent = false := by
    unfold Caller.Pending Caller.Unsent
    rw [hkind]
    exact ⟨by split <;> rfl, by split <;> rfl⟩
  refine (h.still hs).set (hs.caller ▸ hp) hreg (fun _ => hkind) ?_ ?_ ?_
  · rw [hpend.2]
    nofun
  · rw [hpend.1]
    nofun
  · rw [hkind]
    nofun

theorem port_traced (h : Traced s) (hp : s.caller p = some c) (hpc : c.pc = .port) (up : Bool) :
    Traced (s.set p (c.nextPort up)) := by
  have hnext : (c.nextPort up).kind = c.kind ∧ (c.nextPort up).pReg = c.pReg := by
    unfold Caller.nextPort
    split_ifs <;> exact ⟨rfl, rfl⟩
  refine h.other hp h.same hnext.2 ?_
  rw [hnext.1]
  exact h.port p c hp hpc

theorem insert_traced (h : Traced s) (hp : s.caller p = some c) (hpc : c.pc = .insert) (os : Bool) :
    Traced (s.insert p c os) := by
  unfold State.insert
  split
  · exact h.early hp ⟨rfl, rfl, rfl, rfl, rfl, h.inflight, h.updating⟩ rfl rfl (hpc ▸ rfl) rfl rfl rfl
  · split
    · exact h.fail hp ⟨rfl, rfl, rfl, rfl, rfl, h.inflight, h.updating⟩ rfl nofun rfl rfl nofun
    · exact h.fail hp h.same rfl nofun rfl rfl nofun

theorem store_traced (h : Traced s) (hp : s.caller p = some c) {i : Nat} (hpc : c.pc = .store i) :
    Traced (s.store p c i) := by
  exact h.early hp ⟨rfl, rfl, rfl, rfl, rfl, h.inflight, h.updating⟩ rfl rfl (hpc ▸ rfl) rfl rfl rfl

theorem build_traced (h : Traced s) (hp : s.caller p = some c) (hpc : c.pc = .build) (vid : UInt16) :
    Traced (s.build p c vid) := by
  exact h.early hp ⟨rfl, rfl, rfl, rfl, rfl, h.inflight, h.updating⟩ rfl rfl (hpc ▸ rfl) rfl rfl rfl

theorem take_traced (h : Traced s) (hp : s.caller p = some c) {n : Nat} (hpc : c.pc = .take n) :
    Traced (s.take p c n) := by
  unfold State.take
  split
  all_goals exact h.early hp ⟨rfl, rfl, rfl, rfl, rfl, h.inflight, h.updating⟩ rfl rfl (hpc ▸ rfl) rfl rfl rfl

/-- The frame that is sent is of this call. -/
theorem sent_traced (h : Traced s) (hp : s.caller p = some c) (hpc : c.Unsent = false) {g : Sent}
    (hg : g.call = c.pReg) : Traced { s with sent := s.sent ++ [g] } := by
  have hmono {call : Nat} {v : UInt32} (ha : s.Answered call v) :
      State.Answered { s with sent := s.sent ++ [g] } call v :=
    Answered.mono ha ⟨_, rfl⟩ fun _ hr => hr
  refine ⟨h.port, h.below, h.apart, ?_, ?_, h.inflight, h.updating, ?_, ?_⟩
  · intro g' hg'
    rcases List.mem_append.mp hg' with hg' | hg'
    · exact h.sent g' hg'
    · rw [List.mem_singleton.mp hg', hg]
      exact h.below p c hp
  · intro q d hq hun g' hg'
    rcases List.mem_append.mp hg' with hg' | hg'
    · exact h.unsent q d hq hun g' hg'
    · rw [List.mem_singleton.mp hg', hg]
      intro heq
      obtain rfl := h.apart p q c d hp hq heq
      obtain rfl := Option.some.inj (hp.symm.trans hq)
      rw [hpc] at hun
      cases hun
  · exact fun q d hq hpend hvalid => hmono (h.valid q d hq hpend hvalid)
  · intro q d hq hread hpend hok
    obtain ⟨v, hv, hanswered⟩ := h.result q d hq hread hpend hok
    exact ⟨v, hv, hmono hanswered⟩

theorem exit_port (kind : Kind) : kind.exit ≠ .port := by
  cases kind <;> nofun

theorem send_traced (h : Traced s) (hp : s.caller p = some c) (hpc : c.pc = .send) (ok : Bool) :
    Traced (s.send p c ok) := by
  unfold State.send
  split
  · dsimp only
    have hset : Traced (s.set p { c with
        pc := if c.kind.isRead then .wait RCP_RESPONSE_TIMEOUT else c.kind.exit }) := by
      cases hread : c.kind.isRead with
      | true =>
        refine h.next hp h.same rfl rfl nofun nofun ?_ rfl id
        rw [Caller.Pending, Caller.Pending, hpc]
        rfl
      | false => exact h.other hp h.same rfl hread
    refine sent_traced hset (set_self s p _) ?_ rfl
    cases hread : c.kind.isRead with
    | true => rfl
    | false => exact (exit_pending c c.iRet c.data).2
  · obtain ⟨hpending, hunsent⟩ := exit_pending c .RCP_FAIL c.data
    exact h.fail hp h.same rfl (exit_port c.kind) hunsent hpending nofun

theorem wait_traced (h : Traced s) (hp : s.caller p = some c) {n : Nat} (hpc : c.pc = .wait n) :
    Traced (s.wait p c n) := by
  unfold State.wait
  split
  · refine h.next hp h.same rfl rfl nofun nofun ?_ rfl id
    rw [Caller.Pending, Caller.Pending, hpc]
  · refine h.next hp ⟨rfl, rfl, rfl, rfl, rfl, h.inflight, h.updating⟩ rfl rfl nofun nofun ?_ rfl id
    rw [Caller.Pending, Caller.Pending, hpc]
  · obtain ⟨hpending, hunsent⟩ := exit_pending c .RCP_TIMEOUT c.data
    exact h.fail hp h.same rfl (exit_port c.kind) hunsent hpending nofun

/-- The value that a read takes is in its entry, and answers it. -/
theorem value_traced (h : Traced s) (hp : s.caller p = some c) (hpc : c.pc = .value) :
    Traced (s.value p c) := by
  have hstill : Still s { s with os := (gw_semaphore_post s.os (s.reg c.pReg).semAccess).1 } :=
    ⟨rfl, rfl, rfl, rfl, rfl, h.inflight, h.updating⟩
  unfold State.value
  dsimp only
  split
  · rename_i hvalid
    obtain ⟨hpending, hunsent⟩ := exit_pending c c.iRet (some (c.kind.result (s.reg c.pReg).value))
    refine (h.still hstill).set hp rfl (fun hd => absurd hd (exit_port c.kind)) ?_ ?_ ?_
    · rw [hunsent]
      nofun
    · rw [hpending]
      nofun
    · intro hread _ _
      have hpend : c.Pending = true := by rwa [Caller.Pending, hpc]
      exact ⟨_, rfl, h.valid p c hp hpend hvalid⟩
  · obtain ⟨hpending, hunsent⟩ := exit_pending c .RCP_UNKOWN (some (c.kind.result 0xFFFFFFFF))
    exact h.fail hp hstill rfl (exit_port c.kind) hunsent hpending nofun

theorem semDelete_traced (h : Traced s) (hp : s.caller p = some c) (hpc : c.pc = .semDelete) (os : Bool) :
    Traced ((s.semDelete os (s.reg c.pReg).semAccess).set p { c with pc := .delete }) := by
  refine h.next hp ⟨rfl, rfl, rfl, rfl, rfl, h.inflight, h.updating⟩ rfl rfl nofun nofun ?_ rfl id
  rw [Caller.Pending, Caller.Pending, hpc]

theorem delete_traced (h : Traced s) (hp : s.caller p = some c) (hpc : c.pc = .delete) :
    Traced (s.delete p c) := by
  have hafter : c.kind.afterDelete = .give ∨ c.kind.afterDelete = .returned := by
    cases c.kind
    case read => exact .inl rfl
    all_goals exact .inr rfl
  refine h.next hp ⟨rfl, rfl, rfl, rfl, rfl, h.inflight, h.updating⟩ rfl rfl ?_ ?_ ?_ rfl id
  · rcases hafter with hafter | hafter <;> exact ne_of_eq_of_ne hafter nofun
  · unfold Caller.Unsent
    rcases hafter with hafter | hafter <;> simp [hafter]
  · unfold Caller.Pending
    rcases hafter with hafter | hafter <;> simp [hafter, hpc]

theorem give_traced (h : Traced s) (hp : s.caller p = some c) (hpc : c.pc = .give) :
    Traced (s.give p c) := by
  have hstill : Still s { s with os := (gw_semaphore_post s.os s.semAccessRcpChannel).1 } :=
    ⟨rfl, rfl, rfl, rfl, rfl, h.inflight, h.updating⟩
  cases hread : c.kind.isRead with
  | false => exact h.other hp hstill rfl hread
  | true =>
    have hafter : c.kind.afterGive = .semDelete ∨ c.kind.afterGive = .returned := by
      revert hread
      cases c.kind
      case read32 => exact fun _ => .inl rfl
      case broadcast => nofun
      all_goals exact fun _ => .inr rfl
    refine h.next hp hstill rfl rfl ?_ ?_ ?_ rfl id
    · rcases hafter with hafter | hafter <;> exact ne_of_eq_of_ne hafter nofun
    · unfold Caller.Unsent
      rcases hafter with hafter | hafter <;> simp [hafter]
    · unfold Caller.Pending
      rcases hafter with hafter | hafter <;> simp [hafter, hpc]

theorem turn_traced (h : Traced s) (hp : s.caller p = some c) (ok : Bool) (vid : UInt16) :
    Traced (s.turn p c ok vid) := by
  unfold State.turn
  split
  case h_1 hpc => exact port_traced h hp hpc ok
  case h_2 hpc =>
    split
    · exact h
    · exact insert_traced h hp hpc ok
  case h_3 hpc => exact store_traced h hp hpc
  case h_4 hpc => exact build_traced h hp hpc vid
  case h_5 hpc => exact take_traced h hp hpc
  case h_6 hpc => exact send_traced h hp hpc ok
  case h_7 hpc => exact wait_traced h hp hpc
  case h_8 hpc => exact value_traced h hp hpc
  case h_9 hpc => exact semDelete_traced h hp hpc ok
  case h_10 hpc =>
    split
    · exact h
    · exact delete_traced h hp hpc
  case h_11 hpc => exact give_traced h hp hpc
  case h_12 => exact h

/-! ## Calls and replies -/

/-- A call that begins has a number that no other one has. -/
theorem Traced.begin (h : Traced s) (hcaller : t.caller = s.caller) (hcalls : t.calls = s.calls + 1)
    (hsent : t.sent = s.sent) (hanswered : t.answered = s.answered) (hinflight : t.inflight = s.inflight)
    (hupdating : t.updating = s.updating) (hreg : ∀ q < s.calls, t.reg q = s.reg q)
    (hnumber : d.pReg = s.calls) (hport : d.pc = .port → d.kind.isRead = false)
    (hvalid : d.Pending = true → (t.reg s.calls).validFlag ≠ 1)
    (hret : d.kind.isRead = true → d.Pending = false → d.iRet ≠ .RCP_OK) : Traced (t.set p d) := by
  have hanswers (call : Nat) (v : UInt32) : (t.set p d).Answered call v ↔ s.Answered call v := by
    change (∃ r ∈ t.answered, ∃ g, t.sent[r.get]? = some g ∧ _) ↔ _
    rw [hanswered, hsent]
    rfl
  have hold {q : Nat} {c : Caller} (hq : (t.set p d).caller q = some c) :
      q = p ∧ c = d ∨ q ≠ p ∧ s.caller q = some c := by
    rw [← hcaller]
    exact set_cases hq
  refine ⟨?_, ?_, ?_, ?_, ?_, ?_, ?_, ?_, ?_⟩
  · intro q c hq hpc
    rcases hold hq with ⟨-, rfl⟩ | ⟨-, hq⟩
    · exact hport hpc
    · exact h.port q c hq hpc
  · intro q c hq
    change c.pReg < t.calls
    rw [hcalls]
    rcases hold hq with ⟨-, rfl⟩ | ⟨-, hq⟩
    · rw [hnumber]
      exact Nat.lt_succ_self _
    · exact Nat.lt_succ_of_lt (h.below q c hq)
  · intro q r c c' hq hr heq
    rcases hold hq with ⟨rfl, rfl⟩ | ⟨-, hq'⟩
    · rcases hold hr with ⟨rfl, -⟩ | ⟨-, hr⟩
      · rfl
      · exact absurd (h.below r c' hr) (by rw [← heq, hnumber]; exact lt_irrefl _)
    · rcases hold hr with ⟨-, rfl⟩ | ⟨-, hr⟩
      · exact absurd (h.below q c hq') (by rw [heq, hnumber]; exact lt_irrefl _)
      · exact h.apart q r c c' hq' hr heq
  · intro g hg
    change g ∈ t.sent at hg
    change g.call < t.calls
    rw [hsent] at hg
    rw [hcalls]
    exact Nat.lt_succ_of_lt (h.sent g hg)
  · intro q c hq hun g hg
    change g ∈ t.sent at hg
    rw [hsent] at hg
    rcases hold hq with ⟨-, rfl⟩ | ⟨-, hq⟩
    · rw [hnumber]
      exact (h.sent g hg).ne
    · exact h.unsent q c hq hun g hg
  · intro r hr
    change r ∈ t.answered
    rw [hanswered]
    exact h.inflight r (hinflight ▸ hr)
  · intro q r hu
    change r ∈ t.answered
    rw [hanswered]
    exact h.updating q r (hupdating ▸ hu)
  · intro q c hq hpend hflag
    rw [hanswers]
    rcases hold hq with ⟨-, rfl⟩ | ⟨-, hq⟩
    · rw [hnumber] at hflag
      exact absurd hflag (hvalid hpend)
    · rw [set_reg, hreg _ (h.below q c hq)] at hflag ⊢
      exact h.valid q c hq hpend hflag
  · intro q c hq hread hpend hok
    simp only [hanswers]
    rcases hold hq with ⟨-, rfl⟩ | ⟨-, hq⟩
    · exact absurd hok (hret hread hpend)
    · exact h.result q c hq hread hpend hok

theorem reads_traced (h : Traced s) {kind : Kind} (hread : kind.isRead = true) (dev : Nat) (regAddr : UInt16)
    (o : Os) (holder : Nat → Option Nat) (semAccess : Nat) :
    Traced (s.reads p kind dev regAddr o holder semAccess) := by
  refine h.begin rfl rfl rfl rfl rfl rfl (fun q hq => edit_other _ hq.ne _) rfl nofun ?_ ?_
  · intro _
    rw [edit_self]
    nofun
  · intro _ hpend
    rw [Caller.Pending] at hpend
    exact absurd hread (Bool.eq_false_iff.mp hpend)

theorem starts_traced {call : Call} {mal os : Bool} (h : Traced s) (hs : s.Starts p os call mal t) : Traced t := by
  cases hs with
  | reads kind dev regAddr o sem_id hread hcreate => exact reads_traced h hread dev regAddr o _ sem_id
  | blind dev regAddr hcreate => exact reads_traced h rfl dev regAddr _ _ 0
  | refused kind dev regAddr wdata lport iRet hkind hret =>
    exact h.begin rfl rfl rfl rfl rfl rfl (fun _ _ => rfl) rfl nofun nofun (fun _ _ => hret)
  | other kind dev regAddr wdata lport pc iRet hkind hpc =>
    refine h.begin rfl rfl rfl rfl rfl rfl (fun _ _ => rfl) rfl (fun _ => hkind) ?_ ?_
    · intro hpend
      rcases hpc with rfl | rfl | rfl
      · cases hpend
      · exact absurd hpend (Bool.eq_false_iff.mp hkind)
      · cases hpend
    · exact fun hread => absurd hread (Bool.eq_false_iff.mp hkind)

theorem answer_traced (h : Traced s) (r : Reply) :
    Traced { s with answered := s.answered ++ [r], inflight := s.inflight ++ [r] } := by
  have hmono {call : Nat} {v : UInt32} (ha : s.Answered call v) :
      State.Answered { s with answered := s.answered ++ [r], inflight := s.inflight ++ [r] } call v :=
    Answered.mono ha (List.prefix_refl _) fun _ hr => List.mem_append_left _ hr
  refine ⟨h.port, h.below, h.apart, h.sent, h.unsent, ?_, ?_, ?_, ?_⟩
  · intro r' hr'
    rcases List.mem_append.mp hr' with hr' | hr'
    · exact List.mem_append_left _ (h.inflight r' hr')
    · exact List.mem_append_right _ hr'
  · exact fun q r' hu => List.mem_append_left _ (h.updating q r' hu)
  · exact fun q c hq hpend hvalid => hmono (h.valid q c hq hpend hvalid)
  · intro q c hq hread hpend hok
    obtain ⟨v, hv, hanswered⟩ := h.result q c hq hread hpend hok
    exact ⟨v, hv, hmono hanswered⟩

/-- The entry of a read that asked comes to hold an answer. -/
theorem complete_traced (h : Traced s) {q : Nat} {r : Reply} (hu : s.updating = some (q, r))
    (hasker : FindsItsAsker s .complete) : Traced s.complete := by
  rw [complete_some hu]
  refine ⟨h.port, h.below, h.apart, h.sent, h.unsent, h.inflight, nofun, ?_, h.result⟩
  intro p c hp hpend hvalid
  by_cases hq : c.pReg = q
  · subst hq
    obtain ⟨g, hg, hcall⟩ := hasker rfl _ r p c hu hp rfl hpend
    refine ⟨r, h.updating _ r hu, g, hg, hcall, ?_⟩
    have hreg := edit_self s c.pReg { s.reg c.pReg with value := r.regValue, validFlag := 1 }
    exact (congrArg RCP_REG.value hreg).symm
  · have hreg := edit_other s hq { s.reg q with value := r.regValue, validFlag := 1 }
    dsimp only at hvalid ⊢
    rw [hreg] at hvalid ⊢
    exact h.valid p c hp hpend hvalid

theorem step_traced (h : Traced s) (e : Event) (hasker : FindsItsAsker s e) : Traced (s.step e) := by
  generalize hnext : s.step e = t
  cases hnext ▸ step_takes s e with
  | nothing => exact h
  | call p call mal os hidle => exact starts_traced h (start_starts s p call mal os)
  | turn p c ok vid hp => exact turn_traced h hp ok vid
  | answer k g hg => exact answer_traced h _
  | drop i =>
    exact h.still ⟨rfl, rfl, rfl, rfl, rfl, fun r hr => h.inflight r (List.mem_of_mem_eraseIdx hr), h.updating⟩
  | find i r q hlocked hr hq =>
    refine h.still ⟨rfl, rfl, rfl, rfl, rfl, fun r hr => h.inflight r (List.mem_of_mem_eraseIdx hr), ?_⟩
    rintro _ _ ⟨⟩
    exact h.inflight _ (List.mem_of_getElem? hr)
  | complete q r hu => exact complete_traced h hu hasker
  | world w => exact h.still ⟨rfl, rfl, rfl, rfl, rfl, h.inflight, h.updating⟩

theorem init_traced {os : Os} {w : World} (h : RCP_Init os w = some s) : Traced s := by
  have hnone := init_idle h
  obtain ⟨hsent, hinflight, hupdating⟩ := init_quiet h
  refine ⟨?_, ?_, ?_, ?_, ?_, ?_, ?_, ?_, ?_⟩
  all_goals simp [hnone, hsent, hinflight, hupdating]

theorem traced_reads (h : Traced s) : ReadsItsOwn s := by
  intro p c hp hread hpc hok
  exact h.result p c hp hread (by rw [Caller.Pending, hpc]) hok

theorem traced_completes (h : Traced s) (e : Event) (hasker : FindsItsAsker s e) : CompletesAfterSend s e := by
  intro he q r p c hu hp hreg hpend
  obtain ⟨g, hg, hcall⟩ := hasker he q r p c hu hp hreg hpend
  rw [← Bool.not_eq_true]
  intro hunsent
  exact h.unsent p c hp hunsent g (List.mem_of_getElem? hg) (hcall.trans hreg.symm)

/-- The entry that was found, if any, is of the call that sent the frame that was answered. -/
def State.asker (s : State) : Bool :=
  s.updating.all fun u => s.sent[u.2.get]?.any fun g => g.call = u.1

theorem asker_finds (h : s.asker = true) (e : Event) : FindsItsAsker s e := by
  intro _ q r p c hu _ _ _
  rw [State.asker, hu, Option.all_some, Option.any_eq_true] at h
  obtain ⟨g, hg, hcall⟩ := h
  exact ⟨g, hg, of_decide_eq_true hcall⟩

end gwdonu.rcp
