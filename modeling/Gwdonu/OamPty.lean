-- The console over OAM: the main thread takes packets, ticks and close
-- notifications, and what the packets of the connected session carry goes to the pty.
import Gwdonu.Lib.Runs
import Mathlib.Data.UInt
import Mathlib.Tactic.Common

namespace gwdonu.oam_core

open runs

/-! ## The program -/

abbrev SessionID := Vector UInt8 8

inductive CONSOLE_CTRL_CODE where
  | CON_CTL_CODE_KPL
  | CON_CTL_CODE_CONREQ
  | CON_CTL_CODE_CONRES
  | CON_CTL_CODE_FREEREQ
  | CON_CTL_CODE_FREERES
  | CON_CTL_CODE_DATA
  deriving DecidableEq

open CONSOLE_CTRL_CODE

def CONSOLE_CTRL_CODE.toByte : CONSOLE_CTRL_CODE → UInt8
  | CON_CTL_CODE_KPL => 1
  | CON_CTL_CODE_CONREQ => 2
  | CON_CTL_CODE_CONRES => 3
  | CON_CTL_CODE_FREEREQ => 4
  | CON_CTL_CODE_FREERES => 5
  | CON_CTL_CODE_DATA => 6

/-- The `switch` over the control code. -/
def ctlCode (c : UInt8) : Option CONSOLE_CTRL_CODE :=
  [CON_CTL_CODE_KPL, CON_CTL_CODE_CONREQ, CON_CTL_CODE_CONRES, CON_CTL_CODE_FREEREQ,
    CON_CTL_CODE_FREERES, CON_CTL_CODE_DATA].find? fun k => k.toByte = c

def PTY_CONNECT_REQ_RESP_ACCEPT : UInt8 := 3
def PTY_CONNECT_REQ_RESP_REJECT : UInt8 := 2
def PTY_SHELL_CLOSE_FLAG : Int32 := 0x5192
def PTY_KPL_TIMEOUT : Int32 := 30

/-- `CLI_PTY_CTRL`; a `long` has 32 bits. -/
structure CLI_PTY_CTRL where
  lConnect : Bool
  lFd : Int32
  bSessionId : SessionID
  lTimeOut : Int32
  lSendKpl : Int32
  lSerNo : UInt32
  deriving DecidableEq

/-- A call of `CommOnuMsgSend` with `CLI_PTY_TRANSMIT`. -/
structure Sent where
  serNo : UInt32
  data : List UInt8
  session : SessionID
  deriving DecidableEq

/-- The control block, the telnet flag, the bytes written to the pty, and what was sent. -/
structure Pty where
  gmCliPtyCtrl : CLI_PTY_CTRL
  pty_oam_2_telnet : Bool
  written : List UInt8
  sent : List Sent
  deriving DecidableEq

def noSession : SessionID := Vector.replicate 8 0

def Pty.init : Pty := ⟨⟨false, 0, noSession, 0, 0, 0⟩, false, [], []⟩

inductive Message where
  | PTY_PACKET (pSeInf : Option SessionID) (pPayLoad : Option (List UInt8))
  | PTY_NOTI_MSG (flag fd : Int32)
  | PTY_TIMER_MSG
  | PTY_ONU_LOSE
  deriving DecidableEq

def Pty.send (s : Pty) (data : List UInt8) (session : SessionID) : Pty :=
  { s with
    gmCliPtyCtrl := { s.gmCliPtyCtrl with lSerNo := s.gmCliPtyCtrl.lSerNo + 1 }
    sent := s.sent ++ [⟨s.gmCliPtyCtrl.lSerNo, data, session⟩] }

def Pty.pty_write (s : Pty) (bytes : List UInt8) : Pty := { s with written := s.written ++ bytes }

/-- The session is connected. -/
def Pty.Connected (s : Pty) (session : SessionID) : Prop :=
  s.gmCliPtyCtrl.lConnect = true ∧ s.gmCliPtyCtrl.bSessionId = session

instance (s : Pty) (session : SessionID) : Decidable (s.Connected session) :=
  inferInstanceAs (Decidable (_ ∧ _))

/-- `g_pty_master` is what `cl_pty_fd_get` returns. -/
def OamPtyConnectReqPro (g_pty_master : Int32) (s : Pty) (session : SessionID) : Pty :=
  if s.gmCliPtyCtrl.lConnect then
    s.send [CON_CTL_CODE_CONRES.toByte,
      if s.gmCliPtyCtrl.bSessionId = session then PTY_CONNECT_REQ_RESP_ACCEPT
      else PTY_CONNECT_REQ_RESP_REJECT] session
  else
    let s := { s with gmCliPtyCtrl := { s.gmCliPtyCtrl with lFd := g_pty_master } }
    if 0 < s.gmCliPtyCtrl.lFd then
      Pty.send { s with gmCliPtyCtrl := ⟨true, s.gmCliPtyCtrl.lFd, session, 0, 0, 0⟩ }
        [CON_CTL_CODE_CONRES.toByte, PTY_CONNECT_REQ_RESP_ACCEPT] session
    else
      Pty.send { s with gmCliPtyCtrl := ⟨false, s.gmCliPtyCtrl.lFd, noSession, 0, 0, 0⟩ }
        [CON_CTL_CODE_CONRES.toByte, PTY_CONNECT_REQ_RESP_REJECT] session

/-- `"quit\r"`. -/
def bQuitCmd : List UInt8 := [0x71, 0x75, 0x69, 0x74, 0x0d]

def OamPtyConFreeReqPro (s : Pty) (session : SessionID) : Pty :=
  if s.Connected session then
    (s.send [CON_CTL_CODE_FREERES.toByte, PTY_CONNECT_REQ_RESP_ACCEPT] session).pty_write bQuitCmd
  else s

/-- `strstr(p, "\r\n")` finds something: before the first zero. -/
def strstr_crlf : List UInt8 → Bool
  | a :: b :: l => a ≠ 0 ∧ (a = 0x0d ∧ b = 0x0a ∨ strstr_crlf (b :: l))
  | _ => false

/-- The other end of a line, for the first byte. -/
def swap_eol (pty_oam_2_telnet : Bool) (c : UInt8) : UInt8 :=
  if pty_oam_2_telnet then if c = 0x0d then 0x0a else c
  else if c = 0x0a then 0x0d else c

/-- The branch of a data packet of the connected session. Eight zeros follow
the payload in its block. -/
def Pty.data (s : Pty) (pPayLoad : List UInt8) : Pty :=
  let p := (pPayLoad ++ List.replicate 8 0).drop 1
  let lPayLen : Int := pPayLoad.length - (if strstr_crlf p then 1 else 0) - 1
  let s := { s with gmCliPtyCtrl := { s.gmCliPtyCtrl with lTimeOut := 0 } }
  let p := p.modifyHead (swap_eol s.pty_oam_2_telnet)
  if 0 < lPayLen ∧ 0 ≤ s.gmCliPtyCtrl.lFd then
    -- no telnet options
    if p.head? = some 0xff then s else s.pty_write (p.take lPayLen.toNat)
  else s

def OamPtyPacketProcess (g_pty_master : Int32) (s : Pty) (pSeInf : Option SessionID)
    (pPayLoad : Option (List UInt8)) : Pty :=
  match pSeInf, pPayLoad with
  | some session, some pPayLoad =>
    match ctlCode (pPayLoad.headD 0) with
    | some CON_CTL_CODE_KPL =>
      if s.Connected session then
        { s with gmCliPtyCtrl := { s.gmCliPtyCtrl with lTimeOut := 0 } }
      else s
    | some CON_CTL_CODE_CONREQ => OamPtyConnectReqPro g_pty_master s session
    | some CON_CTL_CODE_FREEREQ => OamPtyConFreeReqPro s session
    | some CON_CTL_CODE_DATA => if s.Connected session then s.data pPayLoad else s
    | some CON_CTL_CODE_CONRES | some CON_CTL_CODE_FREERES | none => s
  | _, _ => s

/-- The message that `OamPtyShellCloseNoti` queues. -/
def closeNoti (lFd : Int32) : Message := .PTY_NOTI_MSG PTY_SHELL_CLOSE_FLAG lFd

/-- The message that the tick queues, if it does. -/
def OamPtyTimerMsgProcess (g_pty_master : Int32) (s : Pty) : Pty × Option Message :=
  if s.gmCliPtyCtrl.lConnect then
    let s := { s with
      gmCliPtyCtrl := { s.gmCliPtyCtrl with lTimeOut := s.gmCliPtyCtrl.lTimeOut + 1 } }
    (s, if PTY_KPL_TIMEOUT ≤ s.gmCliPtyCtrl.lTimeOut then some (closeNoti g_pty_master) else none)
  else (s, none)

/-- The notification closes the session. -/
def Pty.Closes (s : Pty) (flag fd : Int32) : Prop :=
  s.gmCliPtyCtrl.lConnect = true ∧ flag = PTY_SHELL_CLOSE_FLAG ∧ fd = s.gmCliPtyCtrl.lFd

instance (s : Pty) (flag fd : Int32) : Decidable (s.Closes flag fd) :=
  inferInstanceAs (Decidable (_ ∧ _))

def OamPtyNotiMsgProcess (s : Pty) (flag fd : Int32) : Pty :=
  if s.Closes flag fd then
    let bRes := [CON_CTL_CODE_FREEREQ.toByte]
    let s := (s.send bRes s.gmCliPtyCtrl.bSessionId).send bRes s.gmCliPtyCtrl.bSessionId
    { s with gmCliPtyCtrl := ⟨false, 0, noSession, 0, 0, s.gmCliPtyCtrl.lSerNo⟩ }
  else s

/-- One turn of `gw_oam_pty_main_thread_entry`, and the message that it queues. -/
def process (g_pty_master : Int32) (s : Pty) : Message → Pty × Option Message
  | .PTY_PACKET pSeInf pPayLoad => (OamPtyPacketProcess g_pty_master s pSeInf pPayLoad, none)
  | .PTY_NOTI_MSG flag fd => (OamPtyNotiMsgProcess s flag fd, none)
  | .PTY_TIMER_MSG => OamPtyTimerMsgProcess g_pty_master s
  | .PTY_ONU_LOSE => (s, none)

/-- The sub thread sends what the shell wrote, with the code of data before it. -/
def Pty.relay (s : Pty) (rbuf : List UInt8) : Pty :=
  s.send (CON_CTL_CODE_DATA.toByte :: rbuf) s.gmCliPtyCtrl.bSessionId

/-! ## One session -/

/-- What changes the state: a message that the main thread takes, the command
that sets the telnet flag, and output of the shell. -/
inductive Event where
  | take (m : Message)
  | telnet (on : Bool)
  | relay (rbuf : List UInt8)
  deriving DecidableEq

def Pty.event (g_pty_master : Int32) (s : Pty) : Event → Pty
  | .take m => (process g_pty_master s m).1
  | .telnet on => { s with pty_oam_2_telnet := on }
  | .relay rbuf => s.relay rbuf

/-- A packet with the id of another session. -/
def foreign (session : SessionID) : Event → Bool
  | .take (.PTY_PACKET (some id) _) => id ≠ session
  | _ => false

/-- What is seen of the state where the packets sent do not count. -/
def Pty.view (s : Pty) : Pty :=
  { s with gmCliPtyCtrl := { s.gmCliPtyCtrl with lSerNo := 0 }, sent := [] }

/-- What a packet of another session does: a connect request is turned down, and nothing else. -/
structure Frame (s s' : Pty) (id : SessionID) (pPayLoad : Option (List UInt8)) : Prop where
  lConnect : s'.gmCliPtyCtrl.lConnect = s.gmCliPtyCtrl.lConnect
  bSessionId : s'.gmCliPtyCtrl.bSessionId = s.gmCliPtyCtrl.bSessionId
  lFd : s'.gmCliPtyCtrl.lFd = s.gmCliPtyCtrl.lFd
  lTimeOut : s'.gmCliPtyCtrl.lTimeOut = s.gmCliPtyCtrl.lTimeOut
  written : s'.written = s.written
  sent : s'.sent = s.sent ++
    if pPayLoad.map (fun p => ctlCode (p.headD 0)) = some (some CON_CTL_CODE_CONREQ) then
      [⟨s.gmCliPtyCtrl.lSerNo, [CON_CTL_CODE_CONRES.toByte, PTY_CONNECT_REQ_RESP_REJECT], id⟩]
    else []

section
variable {g_pty_master : Int32} {s : Pty} {session id : SessionID}

@[simp] theorem view_view : s.view.view = s.view := rfl

@[simp] theorem view_send (data : List UInt8) : (s.send data id).view = s.view := rfl

@[simp] theorem view_connected : s.view.Connected id ↔ s.Connected id := Iff.rfl

@[simp] theorem view_closes {flag fd : Int32} : s.view.Closes flag fd ↔ s.Closes flag fd := Iff.rfl

/-- A packet of another session, while one is connected. -/
theorem foreign_packet (h : s.Connected session) (hid : id ≠ session)
    (pPayLoad : Option (List UInt8)) :
    OamPtyPacketProcess g_pty_master s (some id) pPayLoad =
      if pPayLoad.map (fun p => ctlCode (p.headD 0)) = some (some CON_CTL_CODE_CONREQ) then
        s.send [CON_CTL_CODE_CONRES.toByte, PTY_CONNECT_REQ_RESP_REJECT] id
      else s := by
  obtain ⟨hconnect, hsession⟩ := h
  have hother : ¬ s.Connected id := fun hc => hid (hc.2.symm.trans hsession)
  have hreq : OamPtyConnectReqPro g_pty_master s id =
      s.send [CON_CTL_CODE_CONRES.toByte, PTY_CONNECT_REQ_RESP_REJECT] id := by
    rw [OamPtyConnectReqPro, if_pos hconnect, if_neg]
    rw [hsession]
    exact hid.symm
  cases pPayLoad with
  | none => rfl
  | some p =>
    rw [Option.map_some]
    unfold OamPtyPacketProcess
    dsimp only
    cases ctlCode (p.headD 0) with
    | none => simp
    | some code =>
      cases code with
      | CON_CTL_CODE_CONREQ => simpa using hreq
      | CON_CTL_CODE_KPL => simp [hother]
      | CON_CTL_CODE_DATA => simp [hother]
      | CON_CTL_CODE_FREEREQ => simp [OamPtyConFreeReqPro, hother]
      | _ => simp

theorem foreign_frame (h : s.Connected session) (hid : id ≠ session)
    (pPayLoad : Option (List UInt8)) :
    Frame s (OamPtyPacketProcess g_pty_master s (some id) pPayLoad) id pPayLoad := by
  rw [foreign_packet h hid]
  split
  · rename_i hreq
    exact ⟨rfl, rfl, rfl, rfl, rfl, by rw [if_pos hreq]; rfl⟩
  · rename_i hreq
    exact ⟨rfl, rfl, rfl, rfl, rfl, by rw [if_neg hreq, List.append_nil]⟩

theorem foreign_view (h : s.Connected session) {e : Event} (he : foreign session e = true) :
    (s.event g_pty_master e).view = s.view := by
  unfold foreign at he
  split at he
  · rename_i id pPayLoad
    rw [Pty.event, process, foreign_packet h (by simpa using he)]
    split <;> rfl
  · cases he

theorem data_view (p : List UInt8) : (s.data p).view = (s.view.data p).view := by
  unfold Pty.data Pty.view Pty.pty_write
  dsimp only
  split_ifs <;> rfl

theorem connect_view (id : SessionID) : (OamPtyConnectReqPro g_pty_master s id).view =
    (OamPtyConnectReqPro g_pty_master s.view id).view := by
  unfold OamPtyConnectReqPro
  by_cases hc : s.gmCliPtyCtrl.lConnect = true
  · rw [if_pos hc, if_pos (show s.view.gmCliPtyCtrl.lConnect = true from hc), view_send, view_send,
      view_view]
  · rw [if_neg hc, if_neg (show ¬ s.view.gmCliPtyCtrl.lConnect = true from hc)]
    by_cases hfd : 0 < g_pty_master
    · rw [if_pos hfd, if_pos hfd]
      rfl
    · rw [if_neg hfd, if_neg hfd]
      rfl

theorem free_view (id : SessionID) :
    (OamPtyConFreeReqPro s id).view = (OamPtyConFreeReqPro s.view id).view := by
  unfold OamPtyConFreeReqPro
  by_cases hc : s.Connected id
  · rw [if_pos hc, if_pos (view_connected.mpr hc)]
    rfl
  · rw [if_neg hc, if_neg (mt view_connected.mp hc)]
    rfl

theorem packet_view (pSeInf : Option SessionID) (pPayLoad : Option (List UInt8)) :
    (OamPtyPacketProcess g_pty_master s pSeInf pPayLoad).view =
      (OamPtyPacketProcess g_pty_master s.view pSeInf pPayLoad).view := by
  cases pSeInf with
  | none => rfl
  | some id =>
    cases pPayLoad with
    | none => rfl
    | some p =>
      unfold OamPtyPacketProcess
      dsimp only
      cases ctlCode (p.headD 0) with
      | none => rfl
      | some code =>
        cases code with
        | CON_CTL_CODE_CONREQ => exact connect_view id
        | CON_CTL_CODE_FREEREQ => exact free_view id
        | CON_CTL_CODE_KPL =>
          by_cases hc : s.Connected id
          · simp only [hc, view_connected, if_true]
            rfl
          · simp only [hc, view_connected, if_false]
            rfl
        | CON_CTL_CODE_DATA =>
          by_cases hc : s.Connected id
          · simp only [hc, view_connected, if_true]
            exact data_view p
          · simp only [hc, view_connected, if_false]
            rfl
        | _ => rfl

/-- What is seen after an event is up to what was seen before it. -/
theorem event_view (s : Pty) (e : Event) :
    (s.event g_pty_master e).view = (s.view.event g_pty_master e).view := by
  cases e with
  | telnet on => rfl
  | relay rbuf => rfl
  | take m =>
    cases m with
    | PTY_ONU_LOSE => rfl
    | PTY_TIMER_MSG =>
      change (OamPtyTimerMsgProcess _ s).1.view = (OamPtyTimerMsgProcess _ s.view).1.view
      unfold OamPtyTimerMsgProcess
      cases hc : s.gmCliPtyCtrl.lConnect <;> simp [Pty.view, hc]
    | PTY_NOTI_MSG flag fd =>
      change (OamPtyNotiMsgProcess s flag fd).view = (OamPtyNotiMsgProcess s.view flag fd).view
      unfold OamPtyNotiMsgProcess
      by_cases hc : s.Closes flag fd
      · rw [if_pos hc, if_pos (view_closes.mpr hc)]
        rfl
      · rw [if_neg hc, if_neg (mt view_closes.mp hc)]
        rfl
    | PTY_PACKET pSeInf pPayLoad =>
      exact packet_view pSeInf pPayLoad

/-- A run whose foreign packets come while the session is connected looks like
the run without them. -/
theorem run_without_foreign {es : List Event}
    (h : Along (Pty.event g_pty_master) (fun s e => foreign session e = true → s.Connected session)
      s es) :
    (run (Pty.event g_pty_master) s es).view =
      (run (Pty.event g_pty_master) s (es.filter fun e => !foreign session e)).view := by
  apply view_filter
  · intro s t e hst
    rw [event_view s, event_view t, hst]
  · refine along_imp (I := fun _ => True) (fun _ _ _ _ => trivial) ?_ trivial h
    intro s e _ hc he
    have hforeign : foreign session e = true := by simpa using he
    exact foreign_view (hc hforeign) hforeign

/-- While a session is connected, a packet of another one writes nothing to the
pty and leaves the session as it is, and is sent at most a refusal. So the bytes
written do not depend on such packets. -/
theorem a_connected_session_has_the_pty_alone (g_pty_master : Int32) (session : SessionID) :
    (∀ s id pPayLoad, Pty.Connected s session → id ≠ session →
      Frame s (OamPtyPacketProcess g_pty_master s (some id) pPayLoad) id pPayLoad) ∧
    ∀ s es es', es.filter (fun e => !foreign session e) = es'.filter (fun e => !foreign session e) →
      Along (Pty.event g_pty_master) (fun s e => foreign session e = true → s.Connected session)
        s es →
      Along (Pty.event g_pty_master) (fun s e => foreign session e = true → s.Connected session)
        s es' →
      (run (Pty.event g_pty_master) s es).written = (run (Pty.event g_pty_master) s es').written := by
  refine ⟨fun s id pPayLoad h hid => foreign_frame h hid pPayLoad, ?_⟩
  intro s es es' hsame h h'
  have hview := (run_without_foreign h).trans ((congrArg (fun l => (run _ s l).view) hsame).trans
    (run_without_foreign h').symm)
  have hwritten := congrArg Pty.written hview
  exact hwritten

/-- Another session asks for the pty and sends data to it. -/
theorem the_bytes_are_those_of_the_session :
    let S : SessionID := Vector.replicate 8 1
    let R : SessionID := Vector.replicate 8 2
    let con : SessionID → Event := fun id => .take (.PTY_PACKET (some id) (some [2]))
    let data : SessionID → Event := fun id => .take (.PTY_PACKET (some id) (some [6, 0x41, 0x0a]))
    let s := Pty.event 5 Pty.init (con S)
    Frame s (OamPtyPacketProcess 5 s (some R) (some [2])) R (some [2]) ∧
      (run (Pty.event 5) Pty.init [con S, con R, data R, data S]).written =
        (run (Pty.event 5) Pty.init [con S, data S]).written := by
  refine ⟨?_, ?_⟩
  · exact (a_connected_session_has_the_pty_alone 5 (Vector.replicate 8 1)).1 _ _ _ (by decide)
      (by decide)
  · exact (a_connected_session_has_the_pty_alone 5 (Vector.replicate 8 1)).2 _ _ _ (by decide)
      (by decide) (by decide)

end

end gwdonu.oam_core
