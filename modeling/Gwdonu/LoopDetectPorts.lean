-- The port that a received loop is put down to: it is an index of arrays, and the loops over
-- the ports have to come to it.
import Gwdonu.LoopDetectWakeup

namespace gwdonu.gwd_eth_loop_detect

open Function gwd_port_admin_t runs

/-! ## The indices -/

/-- What `lpbDetectRevPacketHandle` uses a port as an index for. `setPortLpbStatus` stands for the
arrays of a node. -/
inductive PortArray where
  | gulLoopIgnorePort
  | gulLoopRecFlag
  | setPortLpbStatus
  deriving DecidableEq

structure Use where
  array : PortArray
  port : Nat
  deriving DecidableEq

/-- The loop is recorded there. -/
def Use.Records (u : Use) : Prop := u.array ≠ .gulLoopIgnorePort

/-- `lpbDetectRevPacketHandle`, and the indices that it uses. -/
def revUses (c : Config) (a : Api) (port_loop_back_session : SessionID) (s : Lpb)
    (packet : List UInt8) (port : Nat) (vid : UInt16) : Lpb × List Use :=
  if ¬ isLoopFrame packet then (s, [])
  else if s.gulLoopIgnorePort port then (s, [⟨.gulLoopIgnorePort, port⟩])
  else
    let ulLoopPort := loopPort a port vid
    let s := { s with gulLoopRecFlag := update s.gulLoopRecFlag ulLoopPort true }
    let flagged : List Use := [⟨.gulLoopIgnorePort, port⟩, ⟨.gulLoopRecFlag, ulLoopPort⟩]
    if c.shutsDown then
      if s.admin port = PORT_ADMIN_UP then
        let (s, ok) := s.port_admin_set a port PORT_ADMIN_DOWN
        if ok then
          (reportPortsLpbStatus a
            (setPortLpbStatus c a s vid ulLoopPort true (some (revAlarm packet))) vid
            (some port_loop_back_session), flagged ++ [⟨.setPortLpbStatus, ulLoopPort⟩])
        else (s, flagged)
      else (s, flagged)
    else
      (setPortLpbStatus c a s vid ulLoopPort false (some (revAlarm packet)),
        flagged ++ [⟨.setPortLpbStatus, ulLoopPort⟩])

/-! ## The law -/

/-- A marked port of the VLAN is reported when reports go out. -/
def Reports (vid : UInt16) (p : Nat) : Prop :=
  ∀ (a : Api) (session : SessionID) (t : Lpb), (t.portOf vid p).lpbmask ≠ 0 → (t.portOf vid p).lpbClearCnt = 0 →
    t.timeCounter = LPB_OAM_SEND_INTERVAL →
    (session, loopAlarm p 1 vid (t.portOf vid p).alarmInfo) ∈ (reportPortsLpbStatus a t vid (some session)).alarms

/-- And its mark is taken away when it was silent for long enough. -/
def Clears (vid : UInt16) (p : Nat) : Prop :=
  ∀ (c : Config) (a : Api) (session : SessionID) (t : Lpb), (t.portOf vid p).silent →
    ((lpbDetectWakeupPorts c a session t vid).portOf vid p).lpbmask = 0

/-- No index is behind its array, and a loop is recorded where it is seen. -/
structure Recorded (vid : UInt16) (uses : List Use) : Prop where
  inside : ∀ u ∈ uses, u.port < NUM_PORTS_PER_SYSTEM + 1
  visited : ∀ u ∈ uses, u.Records → u.port ∈ ports
  reported : ∀ u ∈ uses, u.Records → Reports vid u.port
  cleared : ∀ u ∈ uses, u.Records → Clears vid u.port

/-- And every index is one that the loops over the ports come to. -/
structure Handled (vid : UInt16) (uses : List Use) : Prop extends Recorded vid uses where
  all : ∀ u ∈ uses, u.port ∈ ports

/-! ## The loops -/

section
variable {c : Config} {a : Api} {b session : SessionID} {s : Lpb} {vid : UInt16} {p port : Nat}
  {packet : List UInt8}

theorem revUses_state :
    (revUses c a b s packet port vid).1 = lpbDetectRevPacketHandle c a b s packet port vid := by
  unfold revUses lpbDetectRevPacketHandle
  by_cases hframe : isLoopFrame packet
  · by_cases hignore : s.gulLoopIgnorePort port = true
    · simp [hframe, hignore]
    · simp only [hframe, hignore, not_true_eq_false, if_false, or_self, Bool.false_eq_true]
      split_ifs
      · rfl
      · rfl
      · rfl
      · rfl
  · simp [hframe]

/-- The turn of a port, and what comes in front of it and behind it. -/
theorem run_turn (body : Body) (hp : p ∈ ports) (q : Lpb × (Nat → Port)) : ∃ l₁ l₂,
    run body.turn q ports = run body.turn (body.turn (run body.turn q l₁) p) l₂ ∧
      (run body.turn q l₁).2 p = q.2 p ∧
      (run body.turn q ports).2 p = (body (run body.turn q l₁).1 p (q.2 p)).2 := by
  obtain ⟨l₁, l₂, hl⟩ := List.append_of_mem hp
  have hnodup := ports_nodup
  rw [hl, List.nodup_middle, List.nodup_cons, List.mem_append, not_or] at hnodup
  have hother : ∀ (q : Lpb × (Nat → Port)) (i : Nat), i ≠ p → (body.turn q i).2 p = q.2 p :=
    fun q i hi => update_of_ne hi.symm _ _
  have hfront := view_none (v := fun q : Lpb × (Nat → Port) => q.2 p) hother hnodup.1.1 q
  have hsplit : run body.turn q ports = run body.turn (body.turn (run body.turn q l₁) p) l₂ := by
    rw [hl, run_append, run_cons]
  refine ⟨l₁, l₂, hsplit, hfront, ?_⟩
  have hbehind := view_none (v := fun q : Lpb × (Nat → Port) => q.2 p) hother hnodup.1.2
  rw [hsplit, hbehind]
  generalize run body.turn q l₁ = q' at hfront ⊢
  rw [← hfront]
  exact update_self ..

theorem forPorts_body (body : Body) (hlocal : Local body) (hp : p ∈ ports) {n : OAM_ONU_LPB_DETECT_CTRL}
    (h : s.getVlanLpbStasNode vid = some n) :
    ∃ t, (s.forPorts vid body).portOf vid p = (body t p (s.portOf vid p)).2 := by
  obtain ⟨l₁, -, -, -, hturn⟩ := run_turn body hp (s, n.port)
  rw [forPorts_self hlocal h, portOf_some h]
  exact ⟨_, hturn⟩

theorem clears (hp : p ∈ ports) : Clears vid p := by
  intro c a session t hsilent
  cases h : t.getVlanLpbStasNode vid with
  | none =>
    rw [portOf_none h] at hsilent
    cases hsilent.1
  | some n =>
    obtain ⟨t', hbody⟩ := forPorts_body (wakeupPort c a session vid) wakeup_local hp h
    rw [lpbDetectWakeupPorts, hbody, wakeupPort_eq.1, (silent_wakeup hsilent).2]

/-- A turn of a report adds alarms, and leaves the clock. -/
theorem report_grows (s : Lpb) (i : Nat) (x : Port) :
    s.alarms <+: (reportPort a (some session) vid s i x).1.alarms ∧
      (reportPort a (some session) vid s i x).1.timeCounter = s.timeCounter := by
  unfold reportPort
  dsimp only
  split
  · exact ⟨List.prefix_append _ _, rfl⟩
  · exact ⟨List.prefix_refl _, rfl⟩

theorem reports_grow (a : Api) (session : SessionID) (vid : UInt16) (q : Lpb × (Nat → Port)) (l : List Nat) :
    q.1.alarms <+: (run (reportPort a (some session) vid).turn q l).1.alarms ∧
      (run (reportPort a (some session) vid).turn q l).1.timeCounter = q.1.timeCounter :=
  run_rel (v := fun q : Lpb × (Nat → Port) => q.1)
    (r := fun s t => s.alarms <+: t.alarms ∧ t.timeCounter = s.timeCounter)
    (fun _ => ⟨List.prefix_refl _, rfl⟩)
    (fun _ _ _ hx hy => ⟨hx.1.trans hy.1, hy.2.trans hx.2⟩) (fun q i => report_grows q.1 i _) q l

theorem report_sends {x : Port} (hmask : x.lpbmask ≠ 0) (hclear : x.lpbClearCnt = 0)
    (htime : s.timeCounter = LPB_OAM_SEND_INTERVAL) :
    (session, loopAlarm p 1 vid x.alarmInfo) ∈ (reportPort a (some session) vid s p x).1.alarms := by
  have hsame : (x.reopened a s p).lpbmask = x.lpbmask ∧ (x.reopened a s p).lpbClearCnt = x.lpbClearCnt ∧
      (x.reopened a s p).alarmInfo = x.alarmInfo := by
    unfold Port.reopened
    split
    · exact ⟨rfl, rfl, rfl⟩
    · exact ⟨rfl, rfl, rfl⟩
  obtain ⟨hmask', hclear', hinfo⟩ := hsame
  unfold reportPort
  dsimp only
  rw [if_pos ⟨hmask' ▸ hmask, hclear' ▸ hclear, htime⟩, hinfo]
  exact List.mem_append_right _ (List.mem_singleton_self _)

theorem report_alarms {session : Option SessionID} : (reportPortsLpbStatus a s vid session).alarms =
    (s.forPorts vid (reportPort a session vid)).alarms := by
  unfold reportPortsLpbStatus
  dsimp only
  split
  · rfl
  · split
    · rfl
    · rfl

theorem reports (hp : p ∈ ports) : Reports vid p := by
  intro a session t hmask hclear htime
  cases h : t.getVlanLpbStasNode vid with
  | none =>
    rw [portOf_none h] at hmask
    exact absurd rfl hmask
  | some n =>
    rw [portOf_some h] at hmask hclear ⊢
    obtain ⟨l₁, l₂, hsplit, hfront, -⟩ := run_turn (reportPort a (some session) vid) hp (t, n.port)
    have htime' := (reports_grow a session vid (t, n.port) l₁).2.trans htime
    rw [report_alarms, forPorts_some h, hsplit]
    refine (reports_grow _ _ _ _ l₂).1.subset ?_
    generalize run (reportPort a (some session) vid).turn (t, n.port) l₁ = q at hfront htime' ⊢
    change _ ∈ (reportPort a (some session) vid q.1 p (q.2 p)).1.alarms
    rw [hfront]
    exact report_sends hmask hclear htime'

/-! ## The received frame -/

theorem uses_frame (h : ¬ isLoopFrame packet) : (revUses c a b s packet port vid).2 = [] := by
  rw [revUses, if_pos h]

theorem uses_ignored (hframe : isLoopFrame packet) (h : s.gulLoopIgnorePort port = true) :
    (revUses c a b s packet port vid).2 = [⟨.gulLoopIgnorePort, port⟩] := by
  rw [revUses, if_neg (not_not_intro hframe), if_pos h]

/-- The loop is flagged, and perhaps put into the node. -/
theorem uses_recorded (c : Config) (a : Api) (b : SessionID) (vid : UInt16) (hframe : isLoopFrame packet)
    (h : s.gulLoopIgnorePort port = false) :
    ∃ l, (∀ u ∈ l, u = ⟨.setPortLpbStatus, loopPort a port vid⟩) ∧
      (revUses c a b s packet port vid).2 =
        ⟨.gulLoopIgnorePort, port⟩ :: ⟨.gulLoopRecFlag, loopPort a port vid⟩ :: l := by
  have hignore : ¬ s.gulLoopIgnorePort port = true := by simp [h]
  unfold revUses
  rw [if_neg (not_not_intro hframe), if_neg hignore]
  dsimp only
  split_ifs
  · exact ⟨[⟨.setPortLpbStatus, loopPort a port vid⟩], by simp, rfl⟩
  · exact ⟨[], by simp, rfl⟩
  · exact ⟨[], by simp, rfl⟩
  · exact ⟨[⟨.setPortLpbStatus, loopPort a port vid⟩], by simp, rfl⟩

theorem mem_ports : p ∈ ports ↔ 1 ≤ p ∧ p < NUM_PORTS_PER_SYSTEM := by
  rw [ports, List.mem_range'_1]
  exact Iff.rfl

theorem inside_of_ports (hp : p ∈ ports) : p < NUM_PORTS_PER_SYSTEM + 1 := Nat.lt_succ_of_lt (mem_ports.mp hp).2

/-- A port that is recorded is handled when the loops come to it. -/
theorem recorded_iff : Recorded vid (revUses c a b s packet port vid).2 ↔
    (isLoopFrame packet → port < NUM_PORTS_PER_SYSTEM + 1 ∧
      (s.gulLoopIgnorePort port = false → loopPort a port vid ∈ ports)) := by
  by_cases hframe : isLoopFrame packet
  · cases hignore : s.gulLoopIgnorePort port with
    | true =>
      rw [uses_ignored hframe hignore]
      refine ⟨fun h _ => ⟨h.inside _ (List.mem_singleton_self _), nofun⟩, fun h => ?_⟩
      have hnot : ¬ Use.Records ⟨.gulLoopIgnorePort, port⟩ := fun h => h rfl
      refine ⟨?_, ?_, ?_, ?_⟩
      · simpa using (h hframe).1
      · simpa using fun h => absurd h hnot
      · simpa using fun h => absurd h hnot
      · simpa using fun h => absurd h hnot
    | false =>
      obtain ⟨l, hl, huses⟩ := uses_recorded c a b vid hframe hignore
      rw [huses]
      constructor
      · intro h _
        exact ⟨h.inside _ List.mem_cons_self, fun _ => h.visited _ (List.mem_cons_of_mem _ List.mem_cons_self) nofun⟩
      · intro h
        obtain ⟨hport, hloop⟩ := h hframe
        have hloop := hloop rfl
        have huse : ∀ u ∈ (⟨.gulLoopIgnorePort, port⟩ :: ⟨.gulLoopRecFlag, loopPort a port vid⟩ :: l : List Use),
            u = ⟨.gulLoopIgnorePort, port⟩ ∨ u.port = loopPort a port vid := by
          intro u hu
          rcases List.mem_cons.mp hu with rfl | hu
          · exact .inl rfl
          · rcases List.mem_cons.mp hu with rfl | hu
            · exact .inr rfl
            · exact .inr (congrArg Use.port (hl u hu))
        have hrecords : ∀ u ∈ (⟨.gulLoopIgnorePort, port⟩ :: ⟨.gulLoopRecFlag, loopPort a port vid⟩ :: l : List Use),
            u.Records → u.port ∈ ports := by
          intro u hu hrecords
          rcases huse u hu with rfl | hsame
          · exact absurd rfl hrecords
          · exact hsame ▸ hloop
        refine ⟨?_, hrecords, ?_, ?_⟩
        · intro u hu
          rcases huse u hu with rfl | hsame
          · exact hport
          · exact inside_of_ports (hsame ▸ hloop)
        · exact fun u hu h => reports (hrecords u hu h)
        · exact fun u hu h => clears (hrecords u hu h)
  · rw [uses_frame hframe]
    exact iff_of_true ⟨nofun, nofun, nofun, nofun⟩ fun h => absurd h hframe

theorem handled_iff : Handled vid (revUses c a b s packet port vid).2 ↔ (isLoopFrame packet → port ∈ ports) := by
  constructor
  · intro h hframe
    have hfirst : (⟨.gulLoopIgnorePort, port⟩ : Use) ∈ (revUses c a b s packet port vid).2 := by
      cases hignore : s.gulLoopIgnorePort port with
      | true =>
        rw [uses_ignored hframe hignore]
        exact List.mem_singleton_self _
      | false =>
        obtain ⟨l, -, huses⟩ := uses_recorded c a b vid hframe hignore
        rw [huses]
        exact List.mem_cons_self
    exact h.all _ hfirst
  · intro h
    by_cases hframe : isLoopFrame packet
    · have hport := h hframe
      have hloop : loopPort a port vid ∈ ports := by
        rw [loopPort_uni (ports_uni hport)]
        exact hport
      refine ⟨recorded_iff.mpr fun _ => ⟨inside_of_ports hport, fun _ => hloop⟩, ?_⟩
      cases hignore : s.gulLoopIgnorePort port with
      | true =>
        rw [uses_ignored hframe hignore]
        simpa using hport
      | false =>
        obtain ⟨l, hl, huses⟩ := uses_recorded c a b vid hframe hignore
        rw [huses]
        refine List.forall_mem_cons.mpr ⟨hport, List.forall_mem_cons.mpr ⟨hloop, ?_⟩⟩
        intro u hu
        rw [hl u hu]
        exact hloop
    · rw [uses_frame hframe]
      exact ⟨⟨nofun, nofun, nofun, nofun⟩, nofun⟩

end

/-- A loop is handled when its frame comes in on a port of the loops; on any other port of the
arrays it is recorded where it is seen when the VLAN gives such a port for the uplink. -/
theorem a_loop_is_handled_at_a_port_of_the_loops (c : Config) (a : Api) (port_loop_back_session : SessionID) (s : Lpb)
    (packet : List UInt8) (port : Nat) (vid : UInt16) :
    (Handled vid (revUses c a port_loop_back_session s packet port vid).2 ↔ (isLoopFrame packet → port ∈ ports)) ∧
      (Recorded vid (revUses c a port_loop_back_session s packet port vid).2 ↔
        (isLoopFrame packet → port < NUM_PORTS_PER_SYSTEM + 1 ∧
          (s.gulLoopIgnorePort port = false → loopPort a port vid ∈ ports))) :=
  ⟨handled_iff, recorded_iff⟩

/-- A loop frame without a tag. -/
def loopFrame : List UInt8 := List.replicate 14 0 ++ [0, 0x80] ++ List.replicate 30 0

/-- A frame from the uplink, in a VLAN without ports: the loop is recorded for port 26. -/
theorem a_loop_is_recorded_for_the_uplink :
    let a : Api := ⟨true, fun _ => true, fun _ => true, fun _ _ => true, fun _ => none⟩
    let c : Config := ⟨⟨1, 0, 0, 3, 3⟩, ⟨0, 0, 0, 3, 3⟩⟩
    let uses := (revUses c a (Vector.replicate 8 0) Lpb.init loopFrame 26 5).2
    uses = [⟨.gulLoopIgnorePort, 26⟩, ⟨.gulLoopRecFlag, 26⟩, ⟨.setPortLpbStatus, 26⟩] ∧
      ¬ Handled 5 uses ∧ ¬ Recorded 5 uses := by
  intro a c uses
  refine ⟨by decide, ?_, ?_⟩
  · exact fun h => absurd (handled_iff.mp h (by decide)) (by decide)
  · exact fun h => absurd ((recorded_iff.mp h (by decide)).2 (by decide)) (by decide)

end gwdonu.gwd_eth_loop_detect
