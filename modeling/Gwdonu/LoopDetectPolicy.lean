-- The two policies. A reset does not read them as the detections do, and this
-- is when it comes out the same.
import Gwdonu.LoopDetect
import Gwdonu.Lib.Runs

namespace gwdonu.gwd_eth_loop_detect

open Function gwd_port_admin_t runs

/-! ## What the detections shut down -/

section
variable {c : Config} {a : Api} {s : Lpb} {vid : UInt16} {session : Option SessionID}
  {port : Nat → Port} {i lport : Nat}

@[simp] theorem set_commands (st : gwd_port_admin_t) :
    (s.port_admin_set a lport st).1.commands = s.commands ++ [(lport, st)] := rfl

@[simp] theorem send_commands (state : UInt8) (info : ALARM_LOOP) :
    (sendOamLpbDetectNotifyMsg a s lport state vid session info).1.commands = s.commands := by
  unfold sendOamLpbDetectNotifyMsg
  split
  · rfl
  · rfl

@[simp] theorem mark_commands (shutdown : Bool) (info : Option ALARM_LOOP) :
    (setPortLpbStatus c a s vid lport shutdown info).commands = s.commands := by
  unfold setPortLpbStatus
  split
  · rfl
  · split
    · rfl
    · rfl

/-- A loop over ports changes nothing but the list that its body does not change. -/
theorem forPorts_field {α : Type*} {f : Lpb → α}
    (hf : ∀ (s : Lpb) l, f { s with g_lpb_detect_ctrl := l } = f s) {body : Body}
    (h : ∀ s i p, f (body s i p).1 = f s) (s : Lpb) (vid : UInt16) :
    f (s.forPorts vid body) = f s := by
  unfold Lpb.forPorts
  split
  · rfl
  · rename_i n _
    have hrun : f (run body.turn (s, n.port) ports).1 = f s :=
      run_rel (v := fun q : Lpb × (Nat → Port) => f q.1) (r := fun x y => y = x) (fun _ => rfl)
        (fun _ _ _ hx hy => hy.trans hx) (fun q i => h q.1 i (q.2 i)) (s, n.port) ports
    exact (hf _ _).trans hrun

@[simp] theorem cls_commands : (clsPortLpbStatus s vid).commands = s.commands := by
  refine forPorts_field (f := Lpb.commands) (fun _ _ => rfl) ?_ s vid
  intro s i p
  unfold clsPort
  split
  · rfl
  · rfl

@[simp] theorem report_commands :
    (reportPortsLpbStatus a s vid session).commands = s.commands := by
  have hloop : (s.forPorts vid (reportPort a session vid)).commands = s.commands := by
    refine forPorts_field (f := Lpb.commands) (fun _ _ => rfl) ?_ s vid
    intro s i p
    unfold reportPort
    dsimp only
    split
    · exact send_commands _ _
    · rfl
  unfold reportPortsLpbStatus
  dsimp only
  split
  · exact hloop
  · split
    · exact hloop
    · exact hloop

/-- The MAC table shuts the port of the loop down when the policy says so. -/
theorem check_commands (found : Option Nat) :
    (lpbDetectCheckMacTable c a s vid found).commands = s.commands ++
      (found.toList.filter fun lport => boards_port_is_uni lport ∧ s.gulLoopIgnorePort lport = false ∧
        c.shutsDown ∧ s.admin lport = PORT_ADMIN_UP).map (·, PORT_ADMIN_DOWN) := by
  unfold lpbDetectCheckMacTable
  cases found with
  | none => simp
  | some lport =>
    dsimp only
    split_ifs <;> simp_all

/-- And so does a loop frame, with the port that it came in on. -/
theorem rev_commands (session : SessionID) (packet : List UInt8) (lport : Nat) :
    (lpbDetectRevPacketHandle c a session s packet lport vid).commands = s.commands ++
      ([lport].filter fun lport => isLoopFrame packet ∧ s.gulLoopIgnorePort lport = false ∧
        c.shutsDown ∧ s.admin lport = PORT_ADMIN_UP).map (·, PORT_ADMIN_DOWN) := by
  unfold lpbDetectRevPacketHandle
  by_cases hskip : ¬ isLoopFrame packet ∨ s.gulLoopIgnorePort lport = true
  · rw [if_pos hskip]
    rcases hskip with h | h
    · simp [h]
    · simp [h]
  · rw [if_neg hskip]
    rw [not_or, not_not, Bool.not_eq_true] at hskip
    dsimp only
    split_ifs <;> simp_all

/-! ## What a reset opens -/

/-- The ports recorded as shut down, node by node. -/
def Lpb.recorded (s : Lpb) : List Nat :=
  s.g_lpb_detect_ctrl.flatMap fun n => ports.filter fun i => (n.port i).lpbportdown = 1

theorem ports_nodup : ports.Nodup := List.nodup_range'

theorem resetPort_commands (p : Port) : (resetPort a session vid s i p).1.commands =
    s.commands ++ if p.lpbportdown = 1 then [(i, PORT_ADMIN_UP)] else [] := by
  unfold resetPort
  by_cases h : p.lpbportdown = 1
  · rw [if_pos h.symm, if_pos h]
    exact send_commands _ _
  · rw [if_neg (Ne.symm h), if_neg h, List.append_nil]

theorem resetPorts_commands {l : List Nat} (hl : l.Nodup) (s : Lpb) (port : Nat → Port) :
    (l.foldl (resetPort a session vid).turn (s, port)).1.commands = s.commands ++
      (l.filter fun i => (port i).lpbportdown = 1).map (·, PORT_ADMIN_UP) := by
  induction l generalizing s port with
  | nil => simp
  | cons i l ih =>
    obtain ⟨hi, hl⟩ := List.nodup_cons.mp hl
    have hsame : ∀ p, (l.filter fun j => (update port i p j).lpbportdown = 1) =
        l.filter fun j => (port j).lpbportdown = 1 := by
      intro p
      apply List.filter_congr
      intro j hj
      rw [update_of_ne (fun h : j = i => hi (h ▸ hj))]
    rw [List.foldl_cons, Body.turn, ih hl, hsame, resetPort_commands, List.append_assoc]
    congr 1
    rw [List.filter_cons]
    by_cases h : (port i).lpbportdown = 1
    · simp [h]
    · simp [h]

theorem resetNodes_commands (force : Bool) (l : List OAM_ONU_LPB_DETECT_CTRL) (s : Lpb) :
    (resetNodes c a force session s l).1.commands = s.commands ++
      if c.opens force then
        (l.flatMap fun n => ports.filter fun i => (n.port i).lpbportdown = 1).map (·, PORT_ADMIN_UP)
      else [] := by
  induction l generalizing s with
  | nil => simp [resetNodes]
  | cons n l ih =>
    rw [resetNodes]
    dsimp only
    cases h : c.opens force with
    | false =>
      have hrest := ih s
      rw [h] at hrest
      simpa using hrest
    | true =>
      rw [if_pos rfl, ih, h, if_pos rfl, resetPorts_commands ports_nodup, List.flatMap_cons,
        List.map_append, List.append_assoc]
      rfl

theorem reset_commands (force : Bool) : (resetLpbPort c a s force session).commands =
    s.commands ++ if c.opens force then s.recorded.map (·, PORT_ADMIN_UP) else [] :=
  resetNodes_commands force _ s

/-- `!policy & 0x0001` asks for a policy that is zero, not for its last bit. -/
theorem not_and_one (x : UInt16) : c_not x &&& 0x0001 ≠ 0 ↔ x = 0 := by
  unfold c_not
  by_cases h : x = 0
  · simp [h]
  · simp [h]

theorem opens_iff : c.opens false = true ↔
    c.oam_onu_lpb_detect_frame.policy = 0 ∨ c.local_onu_lpb_detect_frame.policy = 0 := by
  unfold Config.opens
  rw [decide_eq_true_iff, not_and_one, not_and_one]
  simp

/-- A reset opens what is recorded as shut down exactly when the policy does not
shut ports down, if nothing is recorded, or the two policies are both nonzero in
the same cases in which the policy in force shuts ports down. -/
theorem a_reset_follows_the_policy (c : Config) (a : Api) (s : Lpb) (session : Option SessionID) :
    (resetLpbPort c a s false session).commands =
        s.commands ++ (if c.shutsDown then [] else s.recorded.map (·, PORT_ADMIN_UP)) ↔
      s.recorded = [] ∨ (c.shutsDown ↔ c.oam_onu_lpb_detect_frame.policy ≠ 0 ∧
        c.local_onu_lpb_detect_frame.policy ≠ 0) := by
  have hopens : c.opens false = false ↔ c.oam_onu_lpb_detect_frame.policy ≠ 0 ∧
      c.local_onu_lpb_detect_frame.policy ≠ 0 := by
    rw [← Bool.not_eq_true, opens_iff, not_or]
  rw [reset_commands, List.append_cancel_left_eq, ← hopens]
  by_cases hdown : c.shutsDown
  · rw [if_pos hdown]
    cases hopen : c.opens false with
    | false => simp [hdown]
    | true => simp [hdown]
  · rw [if_neg hdown]
    cases hopen : c.opens false with
    | false =>
      rw [if_neg Bool.false_ne_true]
      refine ⟨fun h => .inl (List.map_eq_nil_iff.mp h.symm), ?_⟩
      rintro (h | h)
      · rw [h, List.map_nil]
      · exact absurd (h.mpr rfl) hdown
    | true => simp [hdown]

/-- Port 3 is shut down for a loop. When the OLT then asks for policy 2, whose last
bit is not set, it stays shut; and where the ONU's own policy is in force and
shuts ports down, the next reset opens it. -/
theorem a_reset_reads_other_policies :
    let a : Api := ⟨true, fun _ => true, fun _ => true, fun _ _ => true, fun _ => none⟩
    let olt : UInt16 → Config := fun policy => ⟨⟨1, 0, policy, 3, 3⟩, ⟨0, 0, 1, 3, 3⟩⟩
    let own : Config := ⟨⟨1, 0, 0, 3, 3⟩, ⟨1, 0, 1, 3, 3⟩⟩
    let shut : Config → Lpb := fun c => lpbDetectCheckMacTable c a .init 1 (some 3)
    (¬ (olt 2).shutsDown ∧ (shut (olt 1)).recorded = [3] ∧
        (resetLpbPort (olt 2) a (shut (olt 1)) false none).commands = [(3, PORT_ADMIN_DOWN)]) ∧
      own.shutsDown ∧ (shut own).recorded = [3] ∧
        (resetLpbPort own a (shut own) false none).commands =
          [(3, PORT_ADMIN_DOWN), (3, PORT_ADMIN_UP)] := by
  decide

end

end gwdonu.gwd_eth_loop_detect
