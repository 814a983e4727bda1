-- The console on the other side: the packets of a session have serials of their own, so that what
-- the shell writes is put together there as it was written.
import Gwdonu.OamPty
import Gwdonu.OamSends

namespace gwdonu.oam_core

open oam (Oam GWTT_OAM_MESSAGE_NODE Malloc Mem Mixes deliveredBy gwd_htons GwOamMessageListGetNode CLI_PTY_TRANSMIT
  memory plenty)
open runs

/-! ## What is sent -/

/-- The call behind a packet. -/
def Sent.send (p : Sent) : oam.Send := ⟨CLI_PTY_TRANSMIT, p.serNo, p.data, p.session⟩

/-- The most that `pty_read` gives to the sub thread. -/
def PTY_READ_LENGTH : Nat := 4094

/-- The sub thread relays what one read gives. -/
def Reads : Event → Prop
  | .relay rbuf => rbuf.length ≤ PTY_READ_LENGTH
  | _ => True

instance : (e : Event) → Decidable (Reads e)
  | .relay _ => inferInstanceAs (Decidable (_ ≤ _))
  | .take _ => inferInstanceAs (Decidable True)
  | .telnet _ => inferInstanceAs (Decidable True)

/-- A session is asked for where none is connected: the serials start again. -/
def Pty.Reopens (s : Pty) : Event → Prop
  | .take (.PTY_PACKET (some _) (some pPayLoad)) =>
    ctlCode (pPayLoad.headD 0) = some CONSOLE_CTRL_CODE.CON_CTL_CODE_CONREQ ∧ s.gmCliPtyCtrl.lConnect = false
  | _ => False

instance (s : Pty) : (e : Event) → Decidable (s.Reopens e)
  | .take (.PTY_PACKET (some _) (some _)) => inferInstanceAs (Decidable (_ ∧ _))
  | .take (.PTY_PACKET (some _) none) => inferInstanceAs (Decidable False)
  | .take (.PTY_PACKET none _) => inferInstanceAs (Decidable False)
  | .take (.PTY_NOTI_MSG _ _) => inferInstanceAs (Decidable False)
  | .take .PTY_TIMER_MSG => inferInstanceAs (Decidable False)
  | .take .PTY_ONU_LOSE => inferInstanceAs (Decidable False)
  | .relay _ => inferInstanceAs (Decidable False)
  | .telnet _ => inferInstanceAs (Decidable False)

/-- What the shell writes for a session. -/
def Pty.shown (s : Pty) (session : SessionID) : Event → List UInt8
  | .relay rbuf => if s.gmCliPtyCtrl.bSessionId = session then rbuf else []
  | _ => []

def shownBy (g_pty_master : Int32) (session : SessionID) : Pty → List Event → List UInt8
  | _, [] => []
  | s, e :: es => s.shown session e ++ shownBy g_pty_master session (s.event g_pty_master e) es

/-- What a terminal makes of a packet: the bytes behind the code of data, when it is for the session. -/
def display (session id : SessionID) (data : List UInt8) : List UInt8 :=
  if id = session ∧ data.head? = some CONSOLE_CTRL_CODE.CON_CTL_CODE_DATA.toByte then data.tail else []

/-- The packets are new, and their serials go on from the one that is next. -/
structure Sends (s s' : Pty) (packets : List Sent) : Prop where
  sent : s'.sent = s.sent ++ packets
  serial : s'.gmCliPtyCtrl.lSerNo = s.gmCliPtyCtrl.lSerNo + UInt32.ofNat packets.length
  serials : packets.map Sent.serNo =
    (List.range packets.length).map fun i => s.gmCliPtyCtrl.lSerNo + UInt32.ofNat i

section
variable {g_pty_master : Int32} {s s' s'' : Pty} {session : SessionID} {packets packets' : List Sent} {e : Event}

theorem sends_nothing (hsent : s'.sent = s.sent) (hserial : s'.gmCliPtyCtrl.lSerNo = s.gmCliPtyCtrl.lSerNo) :
    Sends s s' [] where
  sent := by rw [hsent, List.append_nil]
  serial := by rw [hserial]; exact (UInt32.add_zero _).symm
  serials := rfl

/-- What comes behind some packets has the serials behind theirs. -/
theorem Sends.append (h : Sends s s' packets) (h' : Sends s' s'' packets') : Sends s s'' (packets ++ packets') where
  sent := by rw [h'.sent, h.sent, List.append_assoc]
  serial := by rw [h'.serial, h.serial, List.length_append, UInt32.ofNat_add, UInt32.add_assoc]
  serials := by
    rw [List.map_append, h.serials, h'.serials, List.length_append, List.range_add, List.map_append, List.map_map,
      h.serial]
    congr 1
    refine List.map_congr_left fun i _ => ?_
    rw [Function.comp_apply, UInt32.ofNat_add, UInt32.add_assoc]

theorem sends_one (s : Pty) (data : List UInt8) (id : SessionID) :
    Sends s (s.send data id) [⟨s.gmCliPtyCtrl.lSerNo, data, id⟩] where
  sent := rfl
  serial := rfl
  serials := by
    rw [List.length_singleton, List.range_one, List.map_singleton, List.map_singleton]
    exact congrArg (fun serial => [serial]) (UInt32.add_zero _).symm

/-- A packet that holds no data for the terminal. -/
def Sent.Control (p : Sent) : Prop :=
  p.data ≠ [] ∧ p.data.length ≤ PTY_READ_LENGTH + 1 ∧
    p.data.head? ≠ some CONSOLE_CTRL_CODE.CON_CTL_CODE_DATA.toByte

/-- The code of another packet than one with data, and at most one byte behind it. -/
theorem control_cons {p : Sent} {code : CONSOLE_CTRL_CODE} {rest : List UInt8} (hdata : p.data = code.toByte :: rest)
    (hcode : code ≠ CONSOLE_CTRL_CODE.CON_CTL_CODE_DATA) (hrest : rest.length ≤ 1) : p.Control := by
  unfold Sent.Control
  rw [hdata]
  refine ⟨List.cons_ne_nil _ _, Nat.succ_le_succ (Nat.le_trans hrest (by decide)), fun heq => hcode ?_⟩
  have hbyte := Option.some.inj heq
  cases code with
  | CON_CTL_CODE_DATA => rfl
  | _ => exact absurd hbyte (by decide)

/-- The packets of an event, and what they show. -/
structure Answers (s s' : Pty) (e : Event) (packets : List Sent) : Prop where
  sends : Sends s s' packets
  fits : Reads e → ∀ p ∈ packets, p.data ≠ [] ∧ p.data.length ≤ PTY_READ_LENGTH + 1
  shows : ∀ session, packets.flatMap (fun p => display session p.session p.data) = s.shown session e

theorem display_control {p : Sent} (h : p.Control) (session : SessionID) : display session p.session p.data = [] :=
  if_neg fun hdata => h.2.2 hdata.2

/-- An event that relays nothing sends only control packets. -/
theorem answers_control (hsends : Sends s s' packets) (hcontrol : ∀ p ∈ packets, p.Control)
    (hshown : ∀ session, s.shown session e = []) : Answers s s' e packets where
  sends := hsends
  fits _ p hp := ⟨(hcontrol p hp).1, (hcontrol p hp).2.1⟩
  shows session := by
    rw [hshown, List.flatMap_eq_nil_iff]
    exact fun p hp => display_control (hcontrol p hp) session

theorem answers_silent (hsent : s'.sent = s.sent) (hserial : s'.gmCliPtyCtrl.lSerNo = s.gmCliPtyCtrl.lSerNo)
    (hshown : ∀ session, s.shown session e = []) : Answers s s' e [] :=
  answers_control (sends_nothing hsent hserial) nofun hshown

theorem answers_relay (s : Pty) (rbuf : List UInt8) : ∃ packets, Answers s (s.relay rbuf) (.relay rbuf) packets := by
  refine ⟨_, sends_one s _ _, fun hreads p hp => ?_, fun session => ?_⟩
  · obtain rfl := List.mem_singleton.mp hp
    exact ⟨List.cons_ne_nil _ _, Nat.succ_le_succ hreads⟩
  · rw [List.flatMap_singleton, display, Pty.shown]
    exact if_congr (and_iff_left rfl) rfl rfl

/-- The data of a packet goes to the pty, and nothing is sent. -/
theorem data_sends (s : Pty) (pPayLoad : List UInt8) : (s.data pPayLoad).sent = s.sent ∧
    (s.data pPayLoad).gmCliPtyCtrl.lSerNo = s.gmCliPtyCtrl.lSerNo := by
  unfold Pty.data Pty.pty_write
  dsimp only
  split_ifs <;> exact ⟨rfl, rfl⟩

theorem answers_packet {pSeInf : Option SessionID} {pPayLoad : Option (List UInt8)}
    (hsame : ¬ s.Reopens (.take (.PTY_PACKET pSeInf pPayLoad))) :
    ∃ packets, Answers s (OamPtyPacketProcess g_pty_master s pSeInf pPayLoad) (.take (.PTY_PACKET pSeInf pPayLoad))
      packets := by
  have hsilent : Answers s s (.take (.PTY_PACKET pSeInf pPayLoad)) [] := answers_silent rfl rfl fun _ => rfl
  cases pSeInf with
  | none => exact ⟨[], hsilent⟩
  | some id =>
    cases pPayLoad with
    | none => exact ⟨[], hsilent⟩
    | some p =>
      have hconnected (hcode : ctlCode (p.headD 0) = some CONSOLE_CTRL_CODE.CON_CTL_CODE_CONREQ) :
          s.gmCliPtyCtrl.lConnect = true := by
        by_contra hnot
        exact hsame ⟨hcode, Bool.eq_false_iff.mpr hnot⟩
      unfold OamPtyPacketProcess
      dsimp only
      cases hcode : ctlCode (p.headD 0) with
      | none => exact ⟨[], hsilent⟩
      | some code =>
        cases code with
        | CON_CTL_CODE_KPL =>
          dsimp only
          split
          · exact ⟨[], answers_silent rfl rfl fun _ => rfl⟩
          · exact ⟨[], hsilent⟩
        | CON_CTL_CODE_CONREQ =>
          dsimp only
          rw [OamPtyConnectReqPro, if_pos (hconnected hcode)]
          refine ⟨_, answers_control (sends_one s _ _) (fun q hq => ?_) fun _ => rfl⟩
          obtain rfl := List.mem_singleton.mp hq
          exact control_cons rfl (by decide) (Nat.le_refl 1)
        | CON_CTL_CODE_CONRES => exact ⟨[], hsilent⟩
        | CON_CTL_CODE_FREEREQ =>
          dsimp only
          unfold OamPtyConFreeReqPro
          split
          · refine ⟨_, answers_control ((sends_one s _ _).append (sends_nothing rfl rfl)) (fun q hq => ?_) fun _ => rfl⟩
            obtain rfl := List.mem_singleton.mp hq
            exact control_cons rfl (by decide) (Nat.le_refl 1)
          · exact ⟨[], hsilent⟩
        | CON_CTL_CODE_FREERES => exact ⟨[], hsilent⟩
        | CON_CTL_CODE_DATA =>
          dsimp only
          split
          · obtain ⟨hsent, hserial⟩ := data_sends s p
            exact ⟨[], answers_silent hsent hserial fun _ => rfl⟩
          · exact ⟨[], hsilent⟩

/-- What an event sends that opens no session. -/
theorem event_answers (hsame : ¬ s.Reopens e) : ∃ packets, Answers s (s.event g_pty_master e) e packets := by
  cases e with
  | telnet on => exact ⟨[], answers_silent rfl rfl fun _ => rfl⟩
  | relay rbuf => exact answers_relay s rbuf
  | take m =>
    cases m with
    | PTY_PACKET pSeInf pPayLoad => exact answers_packet hsame
    | PTY_ONU_LOSE => exact ⟨[], answers_silent rfl rfl fun _ => rfl⟩
    | PTY_TIMER_MSG =>
      refine ⟨[], ?_⟩
      show Answers s (OamPtyTimerMsgProcess g_pty_master s).1 _ _
      unfold OamPtyTimerMsgProcess
      split <;> exact answers_silent rfl rfl fun _ => rfl
    | PTY_NOTI_MSG flag fd =>
      show ∃ packets, Answers s (OamPtyNotiMsgProcess s flag fd) _ packets
      unfold OamPtyNotiMsgProcess
      split
      · have hfirst := sends_one s [CONSOLE_CTRL_CODE.CON_CTL_CODE_FREEREQ.toByte] s.gmCliPtyCtrl.bSessionId
        have hsecond := sends_one (s.send [CONSOLE_CTRL_CODE.CON_CTL_CODE_FREEREQ.toByte] s.gmCliPtyCtrl.bSessionId)
          [CONSOLE_CTRL_CODE.CON_CTL_CODE_FREEREQ.toByte] s.gmCliPtyCtrl.bSessionId
        refine ⟨_, answers_control ((hfirst.append hsecond).append (sends_nothing rfl rfl)) (fun q hq => ?_)
          fun _ => rfl⟩
        rw [List.append_nil, List.singleton_append, List.mem_cons, List.mem_singleton] at hq
        rcases hq with rfl | rfl <;> exact control_cons rfl (by decide) (Nat.zero_le 1)
      · exact ⟨[], answers_silent rfl rfl fun _ => rfl⟩

/-! ## A session -/

/-- The packets of a run that opens no session. -/
theorem run_answers {es : List Event}
    (h : Along (Pty.event g_pty_master) (fun s e => ¬ s.Reopens e ∧ Reads e) s es) :
    ∃ packets, Sends s (run (Pty.event g_pty_master) s es) packets ∧
      (∀ p ∈ packets, p.data ≠ [] ∧ p.data.length ≤ PTY_READ_LENGTH + 1) ∧
      ∀ session, packets.flatMap (fun p => display session p.session p.data) = shownBy g_pty_master session s es := by
  induction es generalizing s with
  | nil => exact ⟨[], sends_nothing rfl rfl, nofun, fun _ => rfl⟩
  | cons e es ih =>
    obtain ⟨⟨hsame, hreads⟩, hrest⟩ := h
    obtain ⟨packets, hsends, hfits, hshows⟩ : ∃ packets, Answers s (s.event g_pty_master e) e packets :=
      event_answers hsame
    obtain ⟨packets', hsends', hfits', hshows'⟩ := ih hrest
    refine ⟨packets ++ packets', hsends.append hsends', fun p hp => ?_, fun session => ?_⟩
    · rcases List.mem_append.mp hp with hp | hp
      · exact hfits hreads p hp
      · exact hfits' p hp
    · rw [List.flatMap_append, hshows, hshows', shownBy]

/-- The session is accepted: the serials start with that of the answer. -/
theorem open_sends (hopen : 0 < g_pty_master) (hidle : s.gmCliPtyCtrl.lConnect = false) (session : SessionID) :
    (OamPtyConnectReqPro g_pty_master s session).sent = s.sent ++
        [⟨0, [CONSOLE_CTRL_CODE.CON_CTL_CODE_CONRES.toByte, PTY_CONNECT_REQ_RESP_ACCEPT], session⟩] ∧
      (OamPtyConnectReqPro g_pty_master s session).gmCliPtyCtrl.lSerNo = 1 := by
  rw [OamPtyConnectReqPro, if_neg (by rw [hidle]; exact Bool.false_ne_true), if_pos hopen]
  exact ⟨rfl, rfl⟩

theorem serials_nodup {n : Nat} (hn : n ≤ 2 ^ 32) : ((List.range n).map UInt32.ofNat).Nodup := by
  refine (List.nodup_map_iff_inj_on List.nodup_range).mpr fun i hi j hj heq => ?_
  have hval := congrArg UInt32.toNat heq
  rw [UInt32.toNat_ofNat', UInt32.toNat_ofNat'] at hval
  rw [List.mem_range] at hi hj
  rwa [Nat.mod_eq_of_lt (by omega), Nat.mod_eq_of_lt (by omega)] at hval

/-- The packets of a session are numbered from 0 on. -/
theorem session_packets (hopen : 0 < g_pty_master) (hidle : s.gmCliPtyCtrl.lConnect = false) (id : SessionID)
    {es : List Event} (h : Along (Pty.event g_pty_master) (fun s e => ¬ s.Reopens e ∧ Reads e)
      (OamPtyConnectReqPro g_pty_master s id) es) :
    ∃ packets, (run (Pty.event g_pty_master) (OamPtyConnectReqPro g_pty_master s id) es).sent = s.sent ++ packets ∧
      packets.map Sent.serNo = (List.range packets.length).map UInt32.ofNat ∧
      (∀ p ∈ packets, p.data ≠ [] ∧ p.data.length ≤ PTY_READ_LENGTH + 1) ∧
      ∀ session, packets.flatMap (fun p => display session p.session p.data) =
        shownBy g_pty_master session (OamPtyConnectReqPro g_pty_master s id) es := by
  obtain ⟨hsent, hserial⟩ := open_sends hopen hidle id
  obtain ⟨packets, hsends, hfits, hshows⟩ := run_answers h
  have hcontrol :
      (⟨0, [CONSOLE_CTRL_CODE.CON_CTL_CODE_CONRES.toByte, PTY_CONNECT_REQ_RESP_ACCEPT], id⟩ : Sent).Control :=
    control_cons rfl (by decide) (Nat.le_refl 1)
  refine ⟨⟨0, [CONSOLE_CTRL_CODE.CON_CTL_CODE_CONRES.toByte, PTY_CONNECT_REQ_RESP_ACCEPT], id⟩ :: packets, ?_, ?_,
    fun p hp => ?_, fun session => ?_⟩
  · rw [hsends.sent, hsent, List.append_assoc, List.singleton_append]
  · rw [List.map_cons, hsends.serials, hserial, List.length_cons, List.range_succ_eq_map, List.map_cons, List.map_map]
    congr 1
    refine List.map_congr_left fun i _ => ?_
    rw [Function.comp_apply, Nat.succ_eq_one_add, UInt32.ofNat_add]
    rfl
  · rcases List.mem_cons.mp hp with rfl | hp
    · exact ⟨hcontrol.1, hcontrol.2.1⟩
    · exact hfits p hp
  · rw [List.flatMap_cons, hshows, display_control hcontrol, List.nil_append]

theorem send_fits {p : Sent} (h : p.data ≠ [] ∧ p.data.length ≤ PTY_READ_LENGTH + 1) : p.send.Fits where
  some_data := h.1
  length := Nat.le_trans h.2 (by decide)
  send := rfl
  receive := rfl

/-- What is shown of the packets is shown of the nodes that they arrive as. -/
theorem display_nodes {R : Sent → GWTT_OAM_MESSAGE_NODE → Prop} {nodes : List GWTT_OAM_MESSAGE_NODE}
    (h : List.Forall₂ (fun p node => R p node ∧ p.send.ArrivesAs node) packets nodes) (session : SessionID) :
    nodes.flatMap (fun node => display session node.SessionID node.payload) =
      packets.flatMap fun p => display session p.session p.data := by
  induction h with
  | nil => rfl
  | cons hnode _ ih => rw [List.flatMap_cons, List.flatMap_cons, ih, hnode.2.session, hnode.2.payload, Sent.send]

end

end gwdonu.oam_core
