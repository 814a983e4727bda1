-- Close notifications in the queue of the console. Each entry of the queue
-- carries a stamp, which the program does not read: what had happened when it was put.
import Gwdonu.OamPty

namespace gwdonu.oam_core

open runs CONSOLE_CTRL_CODE

/-! ## The threads -/

def g_oam_pty_queue_deepth : Nat := 100

/-- How many sessions had been accepted, and how many packets had kept one
alive, when the entry was put; and whether a timeout put it. -/
structure Stamp where
  accepted : Nat
  heard : Nat
  timeout : Bool
  deriving DecidableEq

structure Queued where
  message : Message
  stamp : Stamp
  deriving DecidableEq

def Message.isNoti : Message → Bool
  | .PTY_NOTI_MSG _ _ => true
  | _ => false

structure Threads where
  pty : Pty
  queue : List Queued
  accepted : Nat
  heard : Nat
  deriving DecidableEq

def Threads.init : Threads := ⟨Pty.init, [], 0, 0⟩

/-- `gw_pri_queue_put` at priority 0, the only one in use. It fails when the
queue is full or there is no memory. -/
def Threads.put (t : Threads) (mal : Bool) (m : Message) (timeout : Bool) : Threads :=
  if mal ∧ t.queue.length < g_oam_pty_queue_deepth then
    { t with queue := t.queue ++ [⟨m, t.accepted, t.heard, timeout⟩] }
  else t

/-- The message connects its session. -/
def Pty.Accepts (g_pty_master : Int32) (s : Pty) : Message → Prop
  | .PTY_PACKET (some _) (some pPayLoad) => s.gmCliPtyCtrl.lConnect = false ∧
    ctlCode (pPayLoad.headD 0) = some CON_CTL_CODE_CONREQ ∧ 0 < g_pty_master
  | _ => False

/-- The message is a keep-alive or data of the connected session. -/
def Pty.Hears (s : Pty) : Message → Prop
  | .PTY_PACKET (some session) (some pPayLoad) =>
    s.Connected session ∧ ctlCode (pPayLoad.headD 0) ∈ [some CON_CTL_CODE_KPL, some CON_CTL_CODE_DATA]
  | _ => False

instance (g_pty_master : Int32) (s : Pty) : (m : Message) → Decidable (s.Accepts g_pty_master m)
  | .PTY_PACKET (some _) (some _) => inferInstanceAs (Decidable (_ ∧ _))
  | .PTY_PACKET (some _) none | .PTY_PACKET none _ => inferInstanceAs (Decidable False)
  | .PTY_NOTI_MSG _ _ | .PTY_TIMER_MSG | .PTY_ONU_LOSE => inferInstanceAs (Decidable False)

instance (s : Pty) : (m : Message) → Decidable (s.Hears m)
  | .PTY_PACKET (some _) (some _) => inferInstanceAs (Decidable (_ ∧ _))
  | .PTY_PACKET (some _) none | .PTY_PACKET none _ => inferInstanceAs (Decidable False)
  | .PTY_NOTI_MSG _ _ | .PTY_TIMER_MSG | .PTY_ONU_LOSE => inferInstanceAs (Decidable False)

/-- The main thread takes the first message. -/
def Threads.take (g_pty_master : Int32) (t : Threads) (mal : Bool) : Threads :=
  match t.queue with
  | [] => t
  | q :: queue =>
    let (pty, noti) := process g_pty_master t.pty q.message
    let t : Threads := {
      pty
      queue
      accepted := t.accepted + if t.pty.Accepts g_pty_master q.message then 1 else 0
      heard := t.heard + if t.pty.Hears q.message then 1 else 0 }
    match noti with
    | none => t
    | some m => t.put mal m true

/-- What the threads do: a packet comes, the timer ticks, the shell ends, the
main thread takes a message, the flag is set, the shell writes. -/
inductive Act where
  | packet (mal : Bool) (session : SessionID) (pPayLoad : List UInt8)
  | tick (mal : Bool)
  | shell (mal : Bool)
  | take (mal : Bool)
  | telnet (on : Bool)
  | relay (rbuf : List UInt8)
  deriving DecidableEq

def Threads.step (g_pty_master : Int32) (t : Threads) : Act → Threads
  | .packet mal session pPayLoad => t.put mal (.PTY_PACKET (some session) (some pPayLoad)) false
  | .tick mal => t.put mal .PTY_TIMER_MSG false
  | .shell mal => t.put mal (closeNoti g_pty_master) false
  | .take mal => t.take g_pty_master mal
  | .telnet on => { t with pty := { t.pty with pty_oam_2_telnet := on } }
  | .relay rbuf => { t with pty := t.pty.relay rbuf }

/-! ## The law -/

/-- The stamp is of the connected session, and a timeout is of its last packet. -/
def Stamp.Current (p : Stamp) (t : Threads) : Prop :=
  p.accepted = t.accepted ∧ (p.timeout = true → p.heard = t.heard)

instance (p : Stamp) (t : Threads) : Decidable (p.Current t) := inferInstanceAs (Decidable (_ ∧ _))

/-- An entry that does something to the console is current, if it is a close notification. -/
def Queued.NotStale (t : Threads) (q : Queued) : Prop :=
  match q.message with
  | .PTY_NOTI_MSG flag fd => OamPtyNotiMsgProcess t.pty flag fd ≠ t.pty → q.stamp.Current t
  | _ => True

/-- The first close notification of the queue. -/
def firstNoti (queue : List Queued) : Option Queued := queue.find? (·.message.isNoti)

/-- The entry does not connect a session with a close notification behind it,
and is not heard from the session with a timeout as the first one behind it. -/
def Queued.Timely (g_pty_master : Int32) (t : Threads) (q : Queued) : Prop :=
  (t.pty.Accepts g_pty_master q.message → firstNoti t.queue.tail = none) ∧
    (t.pty.Hears q.message → ∀ r ∈ firstNoti t.queue.tail, r.stamp.timeout = false)

instance (t : Threads) (q : Queued) : Decidable (q.NotStale t) := by
  unfold Queued.NotStale
  cases q.message <;> infer_instance

instance (g_pty_master : Int32) (t : Threads) (q : Queued) : Decidable (q.Timely g_pty_master t) :=
  inferInstanceAs (Decidable (_ ∧ _))

/-- What holds of the entry that the main thread takes. -/
def Taken (P : Threads → Queued → Prop) (t : Threads) : Act → Prop
  | .take _ => ∀ q ∈ t.queue.head?, P t q
  | _ => True

instance {P : Threads → Queued → Prop} [∀ t q, Decidable (P t q)] (t : Threads) :
    (a : Act) → Decidable (Taken P t a)
  | .take _ => inferInstanceAs (Decidable (∀ q ∈ t.queue.head?, P t q))
  | .packet _ _ _ | .tick _ | .shell _ | .telnet _ | .relay _ => inferInstanceAs (Decidable True)

/-! ## What a message does to the connection -/

section
variable {g_pty_master : Int32} {s : Pty} {t : Threads} {m : Message} {q : Queued}

theorem data_ctrl (p : List UInt8) :
    (s.data p).gmCliPtyCtrl = { s.gmCliPtyCtrl with lTimeOut := 0 } := by
  unfold Pty.data Pty.pty_write
  dsimp only
  split_ifs <;> rfl

/-- The session that is there stays. -/
def Stays (s s' : Pty) : Prop :=
  s'.gmCliPtyCtrl.lConnect = s.gmCliPtyCtrl.lConnect ∧ s'.gmCliPtyCtrl.lFd = s.gmCliPtyCtrl.lFd

theorem packet_stays (hc : s.gmCliPtyCtrl.lConnect = true) (pSeInf : Option SessionID)
    (pPayLoad : Option (List UInt8)) :
    Stays s (OamPtyPacketProcess g_pty_master s pSeInf pPayLoad) := by
  unfold OamPtyPacketProcess
  rcases pSeInf with _ | session
  · exact ⟨rfl, rfl⟩
  rcases pPayLoad with _ | p
  · exact ⟨rfl, rfl⟩
  dsimp only
  cases ctlCode (p.headD 0) with
  | none => exact ⟨rfl, rfl⟩
  | some code =>
    cases code with
    | CON_CTL_CODE_CONRES => exact ⟨rfl, rfl⟩
    | CON_CTL_CODE_FREERES => exact ⟨rfl, rfl⟩
    | CON_CTL_CODE_KPL =>
      dsimp only
      split <;> exact ⟨rfl, rfl⟩
    | CON_CTL_CODE_CONREQ =>
      dsimp only [OamPtyConnectReqPro]
      rw [if_pos hc]
      exact ⟨rfl, rfl⟩
    | CON_CTL_CODE_FREEREQ =>
      dsimp only [OamPtyConFreeReqPro]
      split <;> exact ⟨rfl, rfl⟩
    | CON_CTL_CODE_DATA =>
      dsimp only
      split
      · rw [Stays, data_ctrl]
        exact ⟨rfl, rfl⟩
      · exact ⟨rfl, rfl⟩

/-- Without a session, a packet does nothing unless it asks for one. -/
theorem packet_unconnected (hc : s.gmCliPtyCtrl.lConnect = false) (session : SessionID)
    (p : List UInt8) :
    OamPtyPacketProcess g_pty_master s (some session) (some p) =
      if ctlCode (p.headD 0) = some CON_CTL_CODE_CONREQ then
        OamPtyConnectReqPro g_pty_master s session
      else s := by
  have hnot : ¬ s.Connected session := by
    intro h
    rw [h.1] at hc
    cases hc
  unfold OamPtyPacketProcess
  dsimp only
  cases ctlCode (p.headD 0) with
  | none => rfl
  | some code =>
    cases code with
    | CON_CTL_CODE_KPL => simp [hnot]
    | CON_CTL_CODE_DATA => simp [hnot]
    | CON_CTL_CODE_FREEREQ => simp [OamPtyConFreeReqPro, hnot]
    | _ => simp

/-- A session that is there keeps others out. -/
theorem not_accepts (hc : s.gmCliPtyCtrl.lConnect = true) (m : Message) :
    ¬ s.Accepts g_pty_master m := by
  intro h
  unfold Pty.Accepts at h
  split at h
  · rw [h.1] at hc
    cases hc
  · exact h

/-- A session starts when one is accepted, and it has the pty. -/
theorem process_starts (hc : s.gmCliPtyCtrl.lConnect = false)
    (h : (process g_pty_master s m).1.gmCliPtyCtrl.lConnect = true) :
    s.Accepts g_pty_master m ∧
      (process g_pty_master s m).1.gmCliPtyCtrl.lFd = g_pty_master := by
  have hsame : ¬ s.gmCliPtyCtrl.lConnect = true := by simp [hc]
  cases m with
  | PTY_ONU_LOSE => exact absurd h hsame
  | PTY_NOTI_MSG flag fd =>
    refine absurd h ?_
    change ¬ (OamPtyNotiMsgProcess s flag fd).gmCliPtyCtrl.lConnect = true
    rw [OamPtyNotiMsgProcess, if_neg fun hcl : s.Closes flag fd => hsame hcl.1]
    exact hsame
  | PTY_TIMER_MSG =>
    refine absurd h ?_
    change ¬ (OamPtyTimerMsgProcess g_pty_master s).1.gmCliPtyCtrl.lConnect = true
    rw [OamPtyTimerMsgProcess, if_neg hsame]
    exact hsame
  | PTY_PACKET pSeInf pPayLoad =>
    rcases pSeInf with _ | session
    · exact absurd h hsame
    rcases pPayLoad with _ | p
    · exact absurd h hsame
    rw [process, packet_unconnected hc] at h ⊢
    by_cases hreq : ctlCode (p.headD 0) = some CON_CTL_CODE_CONREQ
    · rw [if_pos hreq, OamPtyConnectReqPro, if_neg hsame] at h ⊢
      dsimp only at h ⊢
      by_cases hfd : 0 < g_pty_master
      · rw [if_pos hfd]
        exact ⟨⟨hc, hreq, hfd⟩, rfl⟩
      · rw [if_neg hfd] at h
        cases h
    · rw [if_neg hreq] at h
      exact absurd h hsame

/-- Only a close notification ends a session. -/
theorem process_stays (hc : s.gmCliPtyCtrl.lConnect = true) (hm : m.isNoti = false) :
    Stays s (process g_pty_master s m).1 := by
  cases m with
  | PTY_NOTI_MSG flag fd => cases hm
  | PTY_ONU_LOSE => exact ⟨rfl, rfl⟩
  | PTY_PACKET pSeInf pPayLoad => exact packet_stays hc pSeInf pPayLoad
  | PTY_TIMER_MSG =>
    change Stays s (OamPtyTimerMsgProcess g_pty_master s).1
    rw [OamPtyTimerMsgProcess, if_pos hc]
    exact ⟨rfl, rfl⟩

theorem noti_closes (hconnect : s.gmCliPtyCtrl.lConnect = true)
    (hfd : s.gmCliPtyCtrl.lFd = g_pty_master) :
    (process g_pty_master s (closeNoti g_pty_master)).1.gmCliPtyCtrl.lConnect = false := by
  change (OamPtyNotiMsgProcess s PTY_SHELL_CLOSE_FLAG g_pty_master).gmCliPtyCtrl.lConnect = false
  rw [OamPtyNotiMsgProcess, if_pos ⟨hconnect, rfl, hfd.symm⟩]

theorem noti_effect (hconnect : s.gmCliPtyCtrl.lConnect = true)
    (hfd : s.gmCliPtyCtrl.lFd = g_pty_master) :
    OamPtyNotiMsgProcess s PTY_SHELL_CLOSE_FLAG g_pty_master ≠ s := by
  intro hsame
  have hoff : (OamPtyNotiMsgProcess s PTY_SHELL_CLOSE_FLAG g_pty_master).gmCliPtyCtrl.lConnect =
      false := noti_closes hconnect hfd
  rw [hsame, hconnect] at hoff
  cases hoff

/-- A close notification that does nothing leaves no session. -/
theorem noti_unconnected (hfd : s.gmCliPtyCtrl.lConnect = true → s.gmCliPtyCtrl.lFd = g_pty_master) :
    (process g_pty_master s (closeNoti g_pty_master)).1.gmCliPtyCtrl.lConnect = false := by
  cases hc : s.gmCliPtyCtrl.lConnect with
  | true => exact noti_closes hc (hfd hc)
  | false =>
    change (OamPtyNotiMsgProcess s PTY_SHELL_CLOSE_FLAG g_pty_master).gmCliPtyCtrl.lConnect = false
    rw [OamPtyNotiMsgProcess, if_neg]
    · exact hc
    · intro h
      rw [h.1] at hc
      cases hc

/-- The message that a turn queues is a close notification. -/
theorem process_queues {n : Message} (h : (process g_pty_master s m).2 = some n) :
    n = closeNoti g_pty_master := by
  cases m with
  | PTY_NOTI_MSG flag fd => cases h
  | PTY_ONU_LOSE => cases h
  | PTY_PACKET pSeInf pPayLoad => cases h
  | PTY_TIMER_MSG =>
    change (OamPtyTimerMsgProcess g_pty_master s).2 = some n at h
    unfold OamPtyTimerMsgProcess at h
    split at h
    · dsimp only at h
      split at h
      · exact (Option.some.inj h).symm
      · cases h
    · cases h

/-! ## What the queue keeps -/

/-- Each close notification of the queue would end the session that is there,
and the first one is current. -/
structure Fresh (g_pty_master : Int32) (t : Threads) : Prop where
  closes : ∀ q ∈ t.queue, q.message.isNoti = true → q.message = closeNoti g_pty_master
  lFd : t.pty.gmCliPtyCtrl.lConnect = true → t.pty.gmCliPtyCtrl.lFd = g_pty_master
  first : t.pty.gmCliPtyCtrl.lConnect = true → ∀ q ∈ firstNoti t.queue, q.stamp.Current t

theorem init_fresh (g_pty_master : Int32) : Fresh g_pty_master .init := by
  refine ⟨?_, ?_, ?_⟩
  · intro q hq
    cases hq
  · intro h
    cases h
  · intro h
    cases h

theorem put_fresh (h : Fresh g_pty_master t) {mal timeout : Bool}
    (hm : m.isNoti = true → m = closeNoti g_pty_master) :
    Fresh g_pty_master (t.put mal m timeout) := by
  unfold Threads.put
  split
  · refine ⟨?_, h.lFd, ?_⟩
    · intro q hq
      rcases List.mem_append.mp hq with hq | hq
      · exact h.closes q hq
      · rw [List.mem_singleton.mp hq]
        exact hm
    · intro hconnect q hq
      change q ∈ firstNoti (t.queue ++ [_]) at hq
      rw [firstNoti, List.find?_append] at hq
      cases hfirst : firstNoti t.queue with
      | some r =>
        rw [show t.queue.find? (·.message.isNoti) = some r from hfirst, Option.some_or] at hq
        obtain rfl : r = q := Option.some.inj hq
        exact h.first hconnect r hfirst
      | none =>
        rw [show t.queue.find? (·.message.isNoti) = none from hfirst, Option.none_or] at hq
        rw [List.mem_singleton.mp (List.mem_of_find?_eq_some hq)]
        exact ⟨rfl, fun _ => rfl⟩
  · exact h

/-- The turn before the message that it queues. -/
def Threads.turn (g_pty_master : Int32) (t : Threads) (q : Queued) (queue : List Queued) :
    Threads where
  pty := (process g_pty_master t.pty q.message).1
  queue := queue
  accepted := t.accepted + if t.pty.Accepts g_pty_master q.message then 1 else 0
  heard := t.heard + if t.pty.Hears q.message then 1 else 0

theorem take_eq {queue : List Queued} (hq : t.queue = q :: queue) (mal : Bool) :
    t.take g_pty_master mal = match (process g_pty_master t.pty q.message).2 with
      | none => t.turn g_pty_master q queue
      | some m => (t.turn g_pty_master q queue).put mal m true := by
  rw [Threads.take, hq]
  rfl

theorem turn_fresh (h : Fresh g_pty_master t) {queue : List Queued} (hq : t.queue = q :: queue)
    (hp : q.Timely g_pty_master t) : Fresh g_pty_master (t.turn g_pty_master q queue) := by
  have hcloses : ∀ r ∈ queue, r.message.isNoti = true → r.message = closeNoti g_pty_master := by
    intro r hr
    exact h.closes r (hq ▸ List.mem_cons_of_mem q hr)
  cases hm : q.message.isNoti with
  | true =>
    -- a notification ends the session, or finds none
    have hoff : (t.turn g_pty_master q queue).pty.gmCliPtyCtrl.lConnect = false := by
      change (process g_pty_master t.pty q.message).1.gmCliPtyCtrl.lConnect = false
      rw [h.closes q (hq ▸ List.mem_cons_self) hm]
      exact noti_unconnected h.lFd
    refine ⟨hcloses, ?_, ?_⟩
    · intro hconnect
      rw [hoff] at hconnect
      cases hconnect
    · intro hconnect
      rw [hoff] at hconnect
      cases hconnect
  | false =>
    have hfirst : firstNoti t.queue = firstNoti queue := by
      rw [hq, firstNoti, List.find?_cons_of_neg (by simp [hm])]
      rfl
    rw [Queued.Timely, hq, List.tail_cons] at hp
    cases hc : t.pty.gmCliPtyCtrl.lConnect with
    | false =>
      refine ⟨hcloses, fun hconnect => (process_starts hc hconnect).2, ?_⟩
      intro hconnect r hr
      change r ∈ firstNoti queue at hr
      rw [hp.1 (process_starts hc hconnect).1] at hr
      cases hr
    | true =>
      have hnot : ¬ t.pty.Accepts g_pty_master q.message := not_accepts hc _
      refine ⟨hcloses, fun _ => (process_stays hc hm).2.trans (h.lFd hc), ?_⟩
      intro _ r hr
      obtain ⟨haccepted, hheard⟩ := h.first hc r (hfirst ▸ hr)
      refine ⟨?_, ?_⟩
      · change _ = t.accepted + _
        rw [if_neg hnot, haccepted, Nat.add_zero]
      · intro htimeout
        have hsilent : ¬ t.pty.Hears q.message := by
          intro hhears
          rw [hp.2 hhears r hr] at htimeout
          cases htimeout
        change _ = t.heard + _
        rw [if_neg hsilent, hheard htimeout, Nat.add_zero]

theorem step_fresh (t : Threads) (a : Act) (h : Fresh g_pty_master t)
    (hp : Taken (fun t q => q.Timely g_pty_master t) t a) :
    Fresh g_pty_master (t.step g_pty_master a) := by
  cases a with
  | packet mal session pPayLoad => exact put_fresh h (fun hm => nomatch hm)
  | tick mal => exact put_fresh h (fun hm => nomatch hm)
  | shell mal => exact put_fresh h (fun _ => rfl)
  | telnet on => exact ⟨h.closes, h.lFd, h.first⟩
  | relay rbuf => exact ⟨h.closes, h.lFd, h.first⟩
  | take mal =>
    change Fresh g_pty_master (t.take g_pty_master mal)
    cases hq : t.queue with
    | nil =>
      rw [Threads.take, hq]
      exact h
    | cons q queue =>
      have hturn := turn_fresh h hq (hp q (by rw [hq]; rfl))
      rw [take_eq hq]
      split
      · exact hturn
      · rename_i m hm
        exact put_fresh hturn (fun _ => process_queues hm)

/-- What closes the session is current. -/
theorem taken_not_stale (t : Threads) (a : Act) (h : Fresh g_pty_master t) :
    Taken (fun t q => q.NotStale t) t a := by
  cases a with
  | take mal =>
    intro q hq
    unfold Queued.NotStale
    split
    · rename_i flag fd hm
      intro heffect
      have hcloses : t.pty.Closes flag fd := by
        by_contra hc
        exact heffect (if_neg hc)
      obtain ⟨queue, hqueue⟩ : ∃ queue, t.queue = q :: queue := List.head?_eq_some_iff.mp hq
      apply h.first hcloses.1
      rw [hqueue, firstNoti, List.find?_cons_of_pos (by rw [hm]; rfl)]
      rfl
    · trivial
  | _ => trivial

/-! ## A run that is not careful -/

/-- No entry was stamped later than now. -/
def Past (t : Threads) : Prop :=
  ∀ q ∈ t.queue, q.stamp.accepted ≤ t.accepted ∧ q.stamp.heard ≤ t.heard

/-- The stamp is of an earlier session, or a timeout of an earlier packet. -/
def Stamp.Behind (p : Stamp) (t : Threads) : Prop :=
  p.accepted < t.accepted ∨ p.timeout = true ∧ p.heard < t.heard

/-- The next close notification ends the session that is there, for which it
was not meant. -/
structure Doomed (g_pty_master : Int32) (t : Threads) : Prop where
  lConnect : t.pty.gmCliPtyCtrl.lConnect = true
  lFd : t.pty.gmCliPtyCtrl.lFd = g_pty_master
  first : ∃ q, firstNoti t.queue = some q ∧ q.message = closeNoti g_pty_master ∧ q.stamp.Behind t

theorem put_past (h : Past t) (mal timeout : Bool) (m : Message) : Past (t.put mal m timeout) := by
  unfold Threads.put
  split
  · intro q hq
    rcases List.mem_append.mp hq with hq | hq
    · exact h q hq
    · rw [List.mem_singleton.mp hq]
      exact ⟨le_rfl, le_rfl⟩
  · exact h

theorem turn_past (h : Past t) {queue : List Queued} (hq : t.queue = q :: queue) :
    Past (t.turn g_pty_master q queue) := by
  intro r hr
  obtain ⟨haccepted, hheard⟩ := h r (hq ▸ List.mem_cons_of_mem q hr)
  exact ⟨haccepted.trans (Nat.le_add_right _ _), hheard.trans (Nat.le_add_right _ _)⟩

theorem step_past (h : Past t) (a : Act) : Past (t.step g_pty_master a) := by
  cases a with
  | packet mal session pPayLoad => exact put_past h _ _ _
  | tick mal => exact put_past h _ _ _
  | shell mal => exact put_past h _ _ _
  | telnet on => exact h
  | relay rbuf => exact h
  | take mal =>
    change Past (t.take g_pty_master mal)
    cases hq : t.queue with
    | nil =>
      rw [Threads.take, hq]
      exact h
    | cons q queue =>
      rw [take_eq hq]
      split
      · exact turn_past h hq
      · exact put_past (turn_past h hq) _ _ _

theorem put_doomed (h : Doomed g_pty_master t) (mal timeout : Bool) (m : Message) :
    Doomed g_pty_master (t.put mal m timeout) := by
  obtain ⟨q, hq, hclose, hbehind⟩ := h.first
  unfold Threads.put
  split
  · refine ⟨h.lConnect, h.lFd, q, ?_, hclose, hbehind⟩
    change firstNoti (t.queue ++ [_]) = _
    rw [firstNoti, List.find?_append, show t.queue.find? (·.message.isNoti) = some q from hq]
    rfl
  · exact h

/-- The session stays doomed until that notification is taken. -/
theorem turn_doomed (h : Doomed g_pty_master t) {queue : List Queued} (hq : t.queue = q :: queue)
    (hn : q.NotStale t) : Doomed g_pty_master (t.turn g_pty_master q queue) := by
  obtain ⟨r, hr, hclose, hbehind⟩ := h.first
  rw [hq, firstNoti] at hr
  cases hm : q.message.isNoti with
  | true =>
    rw [List.find?_cons_of_pos (by exact hm)] at hr
    obtain rfl : q = r := Option.some.inj hr
    rw [Queued.NotStale, hclose] at hn
    obtain ⟨haccepted, hheard⟩ := hn (noti_effect h.lConnect h.lFd)
    rcases hbehind with hlt | ⟨htimeout, hlt⟩
    · exact absurd haccepted hlt.ne
    · exact absurd (hheard htimeout) hlt.ne
  | false =>
    rw [List.find?_cons_of_neg (by simp [hm])] at hr
    obtain ⟨hconnect, hfd⟩ : Stays t.pty (process g_pty_master t.pty q.message).1 :=
      process_stays h.lConnect hm
    refine ⟨hconnect.trans h.lConnect, hfd.trans h.lFd, r, hr, hclose, ?_⟩
    rcases hbehind with hlt | ⟨htimeout, hlt⟩
    · exact .inl (hlt.trans_le (Nat.le_add_right _ _))
    · exact .inr ⟨htimeout, hlt.trans_le (Nat.le_add_right _ _)⟩

theorem step_doomed (t : Threads) (a : Act) (h : Doomed g_pty_master t)
    (hn : Taken (fun t q => q.NotStale t) t a) : Doomed g_pty_master (t.step g_pty_master a) := by
  cases a with
  | packet mal session pPayLoad => exact put_doomed h _ _ _
  | tick mal => exact put_doomed h _ _ _
  | shell mal => exact put_doomed h _ _ _
  | telnet on => exact ⟨h.lConnect, h.lFd, h.first⟩
  | relay rbuf => exact ⟨h.lConnect, h.lFd, h.first⟩
  | take mal =>
    change Doomed g_pty_master (t.take g_pty_master mal)
    cases hq : t.queue with
    | nil =>
      rw [Threads.take, hq]
      exact h
    | cons q queue =>
      have hturn := turn_doomed h hq (hn q (by rw [hq]; rfl))
      rw [take_eq hq]
      split
      · exact hturn
      · exact put_doomed hturn _ _ _

theorem accepts_connects (h : s.Accepts g_pty_master m) :
    (process g_pty_master s m).1.gmCliPtyCtrl.lConnect = true ∧
      (process g_pty_master s m).1.gmCliPtyCtrl.lFd = g_pty_master := by
  unfold Pty.Accepts at h
  split at h
  · obtain ⟨hc, hreq, hfd⟩ := h
    rw [process, packet_unconnected hc, if_pos hreq, OamPtyConnectReqPro,
      if_neg (by rw [hc]; exact Bool.false_ne_true)]
    dsimp only
    rw [if_pos hfd]
    exact ⟨rfl, rfl⟩
  · cases h

theorem hears_connected (h : s.Hears m) : s.gmCliPtyCtrl.lConnect = true ∧ m.isNoti = false := by
  unfold Pty.Hears at h
  split at h
  · exact ⟨h.1.1, rfl⟩
  · cases h

/-- A message that comes too early or too late leaves its session doomed. -/
theorem untimely_doomed (h : Fresh g_pty_master t) (hpast : Past t) {queue : List Queued}
    (hq : t.queue = q :: queue) (hp : ¬ q.Timely g_pty_master t) :
    Doomed g_pty_master (t.turn g_pty_master q queue) := by
  have hclose : ∀ r, firstNoti queue = some r → r.message = closeNoti g_pty_master ∧
      r.stamp.accepted ≤ t.accepted ∧ r.stamp.heard ≤ t.heard := by
    intro r hr
    have hmem : r ∈ t.queue := hq ▸ List.mem_cons_of_mem q (List.mem_of_find?_eq_some hr)
    have hnoti := List.find?_some (p := fun r : Queued => r.message.isNoti) hr
    exact ⟨h.closes r hmem hnoti, hpast r hmem⟩
  rw [Queued.Timely, hq, List.tail_cons, not_and_or] at hp
  rcases hp with hp | hp
  · obtain ⟨haccepts, hpending⟩ := Classical.not_imp.mp hp
    obtain ⟨r, hr⟩ := Option.ne_none_iff_exists'.mp hpending
    obtain ⟨hm, haccepted, -⟩ := hclose r hr
    obtain ⟨hconnect, hfd⟩ := accepts_connects haccepts
    refine ⟨hconnect, hfd, r, hr, hm, .inl ?_⟩
    change _ < t.accepted + _
    rw [if_pos haccepts]
    exact Nat.lt_succ_of_le haccepted
  · obtain ⟨hhears, hpending⟩ := Classical.not_imp.mp hp
    push Not at hpending
    obtain ⟨r, hr, htimeout⟩ := hpending
    obtain ⟨hm, -, hheard⟩ := hclose r hr
    obtain ⟨hc, hpacket⟩ := hears_connected hhears
    obtain ⟨hconnect, hfd⟩ : Stays t.pty (process g_pty_master t.pty q.message).1 :=
      process_stays hc hpacket
    refine ⟨hconnect.trans hc, hfd.trans (h.lFd hc), r, hr, hm, .inr ⟨by simpa using htimeout, ?_⟩⟩
    change _ < t.heard + _
    rw [if_pos hhears]
    exact Nat.lt_succ_of_le hheard

theorem careless_doomed (h : Fresh g_pty_master t) (hpast : Past t) {a : Act}
    (hp : ¬ Taken (fun t q => q.Timely g_pty_master t) t a) :
    Doomed g_pty_master (t.step g_pty_master a) := by
  cases a with
  | take mal =>
    change Doomed g_pty_master (t.take g_pty_master mal)
    cases hq : t.queue with
    | nil =>
      refine absurd ?_ hp
      rw [Taken, hq]
      intro q hq
      cases hq
    | cons q queue =>
      have hturn : Doomed g_pty_master (t.turn g_pty_master q queue) := by
        apply untimely_doomed h hpast hq
        intro htimely
        apply hp
        rw [Taken, hq]
        intro r hr
        obtain rfl : q = r := Option.some.inj hr
        exact htimely
      rw [take_eq hq]
      split
      · exact hturn
      · exact put_doomed hturn _ _ _
  | _ => exact absurd trivial hp

/-- The main thread empties the queue. -/
def drain (n : Nat) : List Act := List.replicate n (.take false)

theorem take_length (t : Threads) : (t.take g_pty_master false).queue.length = t.queue.length - 1 := by
  cases hq : t.queue with
  | nil =>
    rw [Threads.take, hq]
    simp [hq]
  | cons q queue =>
    rw [take_eq hq]
    split
    · rfl
    · rfl

theorem drain_length (n : Nat) (t : Threads) :
    (run (Threads.step g_pty_master) t (drain n)).queue.length = t.queue.length - n := by
  induction n generalizing t with
  | zero => rfl
  | succ n ih =>
    change (run (Threads.step g_pty_master) (t.take g_pty_master false) (drain n)).queue.length = _
    rw [ih, take_length]
    omega

/-- A doomed session is ended when the queue is emptied. -/
theorem drain_doomed (h : Doomed g_pty_master t) :
    ¬ Along (Threads.step g_pty_master) (Taken fun t q => q.NotStale t) t (drain t.queue.length) := by
  intro hrun
  obtain ⟨q, hq, -⟩ := (run_inv step_doomed h hrun).first
  have hlength : (run (Threads.step g_pty_master) t (drain t.queue.length)).queue.length = _ :=
    drain_length _ _
  rw [Nat.sub_self] at hlength
  rw [List.length_eq_zero_iff.mp hlength] at hq
  cases hq

/-- A run that is not careful closes a session that it should not, at the
latest when the queue is emptied. -/
theorem careless_run (h : Fresh g_pty_master t) (hpast : Past t) {as : List Act}
    (hp : ¬ Along (Threads.step g_pty_master) (Taken fun t q => q.Timely g_pty_master t) t as) :
    ∃ n, ¬ Along (Threads.step g_pty_master) (Taken fun t q => q.NotStale t) t (as ++ drain n) := by
  induction as generalizing t with
  | nil => exact absurd trivial hp
  | cons a as ih =>
    by_cases ha : Taken (fun t q => q.Timely g_pty_master t) t a
    · obtain ⟨n, hn⟩ := ih (step_fresh t a h ha) (step_past hpast a) (fun hrest => hp ⟨ha, hrest⟩)
      exact ⟨n, fun hrun => hn hrun.2⟩
    · have hdoomed := careless_doomed h hpast ha
      refine ⟨(run (Threads.step g_pty_master) (t.step g_pty_master a) as).queue.length, ?_⟩
      intro hrun
      obtain ⟨has, hdrain⟩ := (along_append _ _ as _).mp hrun.2
      exact drain_doomed (run_inv step_doomed hdoomed has) hdrain

/-- What closes a session was queued for that session, and a timeout was its
last word, as long as no session is accepted, and none heard from, with a close
notification behind it that is not meant for it. A run without this care closes
a session that it should not, when the queue is emptied. -/
theorem a_close_notification_is_for_its_session (g_pty_master : Int32) (as : List Act) :
    (Along (Threads.step g_pty_master) (Taken fun t q => q.Timely g_pty_master t) .init as →
      Along (Threads.step g_pty_master) (Taken fun t q => q.NotStale t) .init as) ∧
    (¬ Along (Threads.step g_pty_master) (Taken fun t q => q.Timely g_pty_master t) .init as →
      ∃ n, ¬ Along (Threads.step g_pty_master) (Taken fun t q => q.NotStale t) .init
        (as ++ drain n)) := by
  refine ⟨?_, ?_⟩
  · exact along_imp step_fresh (fun t a hfresh _ => taken_not_stale t a hfresh)
      (init_fresh g_pty_master)
  · apply careless_run (init_fresh g_pty_master)
    intro q hq
    cases hq

/-- One session is heard from after its timeout; another is accepted between
two timeouts of the one before it. -/
theorem a_timeout_closes_another_session :
    let S : SessionID := Vector.replicate 8 1
    let R : SessionID := Vector.replicate 8 2
    let idle : List Act := [.packet true S [2], .take true] ++
      (List.replicate 29 [.tick true, .take true]).flatten
    ¬ Along (Threads.step 5) (Taken fun t q => q.NotStale t) .init
        (idle ++ [.tick true, .packet true S [1]] ++ List.replicate 3 (.take true)) ∧
      ¬ Along (Threads.step 5) (Taken fun t q => q.NotStale t) .init
        (idle ++ [.tick true, .tick true, .take true, .packet true R [2]] ++
          List.replicate 4 (.take true)) := by
  decide +kernel

/-- A session that is silent for 30 ticks is closed before another is accepted;
and one that is heard from too late is closed as well. -/
theorem a_silent_session_is_closed :
    let S : SessionID := Vector.replicate 8 1
    let R : SessionID := Vector.replicate 8 2
    let idle : List Act := [.packet true S [2], .take true] ++
      (List.replicate 29 [.tick true, .take true]).flatten
    Along (Threads.step 5) (Taken fun t q => q.NotStale t) .init
        (idle ++ [.tick true, .take true, .take true, .packet true R [2], .take true]) ∧
      ∃ n, ¬ Along (Threads.step 5) (Taken fun t q => q.NotStale t) .init
        (idle ++ [.tick true, .packet true S [1], .take true, .take true] ++ drain n) := by
  refine ⟨?_, ?_⟩
  · exact (a_close_notification_is_for_its_session 5 _).1 (by decide +kernel)
  · exact (a_close_notification_is_for_its_session 5 _).2 (by decide +kernel)

end

end gwdonu.oam_core
