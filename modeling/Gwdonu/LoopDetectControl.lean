-- Loop detection is turned on and off. The clean-up is a thing of the task, and
-- the call that turns detection off deletes the task.
import Gwdonu.LoopDetectNodes

namespace gwdonu.gwd_eth_loop_detect

open Function gwd_port_admin_t runs

/-! ## The program -/

def GW_OSAL_MAX_THREAD : Nat := 32
def LOOP_DETECT_MODE_OLT : UInt32 := 1
def LOOP_DETECT_MODE_DISABLE : UInt32 := 0

/-- Where a call of the task takes its VLAN from. -/
inductive Source where
  | olt
  | own
  | entry (vid : UInt16)

def Source.vid (c : Config) : Source → UInt16
  | olt => c.oam_onu_lpb_detect_frame.vid
  | own => c.local_onu_lpb_detect_frame.vid
  | entry vid => vid

/-- The calls that the task makes. The frames that it sends change nothing here. -/
inductive Call where
  | reset (force : Bool)
  | wakeup (v : Source)
  | check (v : Source)
  | cls (v : Source)
  | report (v : Source)
  | free

/-- What a step of the task finds outside the program: what the interface calls
do, the session, the VLANs of the switch with whether a port of theirs is up, and
the port that has the MAC. -/
structure Turn where
  a : Api
  port_loop_back_session : SessionID
  vlans : List (UInt16 × Bool)
  lport : Option Nat

def Call.perform (c : Config) (t : Turn) (s : Lpb) : Call → Lpb
  | reset force => resetLpbPort c t.a s force (some t.port_loop_back_session)
  | wakeup v => lpbDetectWakeupPorts c t.a t.port_loop_back_session s (v.vid c)
  | check v => lpbDetectCheckMacTable c t.a s (v.vid c) t.lport
  | cls v => clsPortLpbStatus s (v.vid c)
  | report v => reportPortsLpbStatus t.a s (v.vid c) (some t.port_loop_back_session)
  | free => freeLpbStatusList s

/-- The calls of one interval. -/
def ethLoopBackDetectActionCall (c : Config) (enable : Bool) (vlans : List (UInt16 × Bool)) :
    List Call :=
  if enable then
    .reset false ::
      if c.local_onu_lpb_detect_frame.enable = 0 ∧ c.oam_onu_lpb_detect_frame.vid ≠ 0 then
        [.wakeup .olt, .check .olt, .report .olt]
      else if c.local_onu_lpb_detect_frame.enable ≠ 0 ∧ c.local_onu_lpb_detect_frame.vid ≠ 0 then
        [.wakeup .own, .check .own, .report .own]
      else
        vlans.flatMap fun (vid, need_to_send) =>
          if vid ≠ 0 then
            [.wakeup (.entry vid),
              if need_to_send then .check (.entry vid) else .cls (.entry vid),
              .report (.entry vid)]
          else []
  else [.reset true, .free]

/-- How far `EthPortLoopBackDetectTask` is: before the test of its loop, behind
it and before the flag is read again, among its calls, in the delay, or out. -/
inductive Pc where
  | test
  | call
  | acting (calls : List Call)
  | delay
  | exited

/-- A slot of the table of threads. -/
inductive Slot where
  | free
  | detect (pc : Pc)
  | other

/-- What loop detection has, and the ports that it shut down and that nobody
touched since. -/
structure Held where
  lpb : Lpb
  shut : Nat → Bool

def Held.after (h : Held) (lpb : Lpb) : Held where
  lpb
  shut := fun p => lpb.admin p = PORT_ADMIN_DOWN ∧ (h.shut p ∨ h.lpb.admin p = PORT_ADMIN_UP)

def Held.perform (c : Config) (h : Held) (t : Turn) (f : Call) : Held :=
  h.after (f.perform c t h.lpb)

structure Detect where
  config : Config
  gulLoopDetectMode : UInt32
  gulLoopDetectFrameHandleRegister : Bool
  gwd_loop_thread_id : Nat
  gw_osal_thread_table : Nat → Slot
  held : Held

/-- The threads of the other modules may be there already. -/
def Detect.init (c : Config) (table : Nat → Bool) : Detect where
  config := { c with oam_onu_lpb_detect_frame.enable := 0 }
  gulLoopDetectMode := LOOP_DETECT_MODE_OLT
  gulLoopDetectFrameHandleRegister := false
  gwd_loop_thread_id := 0
  gw_osal_thread_table := fun i => if table i then .other else .free
  held := ⟨.init, fun _ => false⟩

namespace Detect

variable (s : Detect)

/-- `oam_onu_lpb_detect_frame.enable && gulLoopDetectMode`. -/
def enabled : Prop := s.config.oam_onu_lpb_detect_frame.enable ≠ 0 ∧ s.gulLoopDetectMode ≠ 0

instance : Decidable s.enabled := inferInstanceAs (Decidable (_ ∧ _))

def setPc (i : Nat) (pc : Pc) : Detect :=
  { s with gw_osal_thread_table := update s.gw_osal_thread_table i (.detect pc) }

/-- One step of the task in slot `i`. -/
def taskStep (i : Nat) (t : Turn) : Detect :=
  match s.gw_osal_thread_table i with
  | .detect .test =>
    if s.enabled then
      let timeCounter :=
        if s.held.lpb.timeCounter = LPB_OAM_SEND_INTERVAL then 0 else s.held.lpb.timeCounter + 1
      setPc { s with held.lpb.timeCounter := timeCounter } i .call
    else s.setPc i .exited
  | .detect .call =>
    s.setPc i (.acting (ethLoopBackDetectActionCall s.config
      (s.config.oam_onu_lpb_detect_frame.enable ≠ 0) t.vlans))
  | .detect (.acting (f :: calls)) =>
    setPc { s with held := s.held.perform s.config t f } i (.acting calls)
  | .detect (.acting []) => s.setPc i .delay
  | .detect .delay => s.setPc i .test
  | .detect .exited => s
  | .free => s
  | .other => s

/-- The first slot that is free, if there is memory for the stack. -/
def gw_thread_create (malloc : Bool) : Option Nat :=
  if malloc then
    (List.range GW_OSAL_MAX_THREAD).find? fun i => s.gw_osal_thread_table i matches .free
  else none

/-- The thread is told to end, and ends some steps later. -/
def gw_thread_delete (thread_id : Nat) (turns : List Turn) : Detect :=
  let s := turns.foldl (fun s t => s.taskStep thread_id t) s
  { s with gw_osal_thread_table := update s.gw_osal_thread_table thread_id .free }

/-- The flags of a call that turns detection off. -/
def stop (oamEnable localEnable : UInt32) : Detect :=
  { s with
    config.oam_onu_lpb_detect_frame.enable := if oamEnable = 0 then 0 else 1
    gulLoopDetectMode := if localEnable = 0 then LOOP_DETECT_MODE_DISABLE else LOOP_DETECT_MODE_OLT }

/-- What it does when detection is not on. -/
def start (malloc : Bool) : Detect :=
  let s := { s with
    config.oam_onu_lpb_detect_frame.enable := 1
    gulLoopDetectMode := LOOP_DETECT_MODE_OLT }
  if s.gulLoopDetectFrameHandleRegister then s
  else
    let s := { s with gulLoopDetectFrameHandleRegister := true }
    match s.gw_thread_create malloc with
    | none => s
    | some i => { s.setPc i .test with gwd_loop_thread_id := i }

def EthLoopbackDetectControl (oamEnable localEnable : UInt32) (malloc : Bool) (turns : List Turn) :
    Detect :=
  if oamEnable ≠ 0 ∧ localEnable ≠ 0 then
    if s.enabled then s else s.start malloc
  else
    { (s.stop oamEnable localEnable).gw_thread_delete s.gwd_loop_thread_id turns with
      gulLoopDetectFrameHandleRegister := false }

end Detect

/-! ## What happens to it -/

/-- The calls to the control function, the steps of the task, the loop frames that
come in, and what others do: settings, the flags of the ports, admin states, and
threads of their own. -/
inductive ControlEvent where
  | control (oamEnable localEnable : UInt32) (malloc : Bool) (turns : List Turn)
  | task (i : Nat) (t : Turn)
  | frame (t : Turn) (packet : List UInt8) (port : Nat) (vid : UInt16)
  | settings (c : Config)
  | flags (gulLoopRecFlag gulLoopIgnorePort : Nat → Bool)
  | admin (p : Nat) (st : gwd_port_admin_t)
  | threads (table : Nat → Bool)

namespace Detect

/-- Only the control function writes the flag of the OLT. -/
def step (s : Detect) : ControlEvent → Detect
  | .control oamEnable localEnable malloc turns =>
    s.EthLoopbackDetectControl oamEnable localEnable malloc turns
  | .task i t => s.taskStep i t
  | .frame t packet port vid =>
    { s with held := s.held.after (lpbDetectRevPacketHandle s.config t.a t.port_loop_back_session
        s.held.lpb packet port vid) }
  | .settings c => { s with config := { c with
      oam_onu_lpb_detect_frame.enable := s.config.oam_onu_lpb_detect_frame.enable } }
  | .flags gulLoopRecFlag gulLoopIgnorePort =>
    { s with held.lpb := { s.held.lpb with gulLoopRecFlag, gulLoopIgnorePort } }
  | .admin p st => { s with held := {
      lpb := { s.held.lpb with admin := update s.held.lpb.admin p st }
      shut := update s.held.shut p false } }
  | .threads table => { s with gw_osal_thread_table := fun i =>
      match s.gw_osal_thread_table i with
      | .detect pc => .detect pc
      | _ => if table i then .other else .free }

end Detect

/-- Nothing is shut down, and there is no node. -/
def Held.Clear (h : Held) : Prop := (∀ p, h.shut p = false) ∧ h.lpb.g_lpb_detect_ctrl = []

/-- Detection is turned on by such a call. -/
def ControlEvent.enables : ControlEvent → Prop
  | .control oamEnable localEnable _ _ => oamEnable ≠ 0 ∧ localEnable ≠ 0
  | _ => False

/-- Slot `i` has a detection task. -/
def Detect.detects (s : Detect) (i : Nat) : Prop := ∃ pc, s.gw_osal_thread_table i = .detect pc

/-- The next call that turns detection on starts one task, and there is no other. -/
def Detect.StartsOne (s : Detect) : Prop :=
  ∀ es : List ControlEvent, (∀ e ∈ es, ¬ e.enables) →
    ∀ oamEnable localEnable turns, oamEnable ≠ 0 ∧ localEnable ≠ 0 →
      let s := run Detect.step s es
      (∃ i < GW_OSAL_MAX_THREAD, s.gw_osal_thread_table i = .free) →
        ∃! i, (s.EthLoopbackDetectControl oamEnable localEnable true turns).detects i

/-- What a call that turned detection off is to leave. -/
def Detect.Released (s : Detect) : Prop := s.held.Clear ∧ s.StartsOne

/-- The calls of an interval that the task still gets to make. -/
def Held.finish (c : Config) (h : Held) (calls : List Call) (turns : List Turn) : Held :=
  (calls.zip turns).foldl (fun h (f, t) => h.perform c t f) h

/-- What there is when the interval that is running is cut off. -/
def Detect.interrupted (s : Detect) (oamEnable : UInt32) (turns : List Turn) : Held :=
  match s.gw_osal_thread_table s.gwd_loop_thread_id, turns with
  | .detect (.acting calls), turns => s.held.finish s.config calls turns
  | .detect .call, t :: turns =>
    if oamEnable ≠ 0 then
      s.held.finish s.config (ethLoopBackDetectActionCall s.config true t.vlans) turns
    else s.held
  | _, _ => s.held

/-- The OLT's flag goes while the task is between the test of its loop and its
second look at the flag, it gets through its clean-up, and there it finds every
port that is shut down, and opens it. -/
def Detect.Caught (s : Detect) (oamEnable : UInt32) (turns : List Turn) : Prop :=
  (s.gw_osal_thread_table s.gwd_loop_thread_id = .detect .call ∧ oamEnable = 0) ∧
    3 ≤ turns.length ∧ ∀ t, turns[1]? = some t →
      ∀ p, s.held.shut p = true → p ∈ s.held.lpb.recorded ∧ t.a.set p = true

/-! ## One task at most -/

/-- A task is there only while detection is on, in the slot that is remembered. -/
structure Detect.Single (s : Detect) : Prop where
  slot : ∀ i, s.detects i → s.gulLoopDetectFrameHandleRegister = true ∧ i = s.gwd_loop_thread_id
  flags : s.gulLoopDetectFrameHandleRegister = true ↔ s.enabled
  shut : ∀ p, s.held.shut p = true → s.held.lpb.admin p = PORT_ADMIN_DOWN

section
variable {s s' : Detect} {c : Config} {t : Turn} {i j : Nat} {pc : Pc} {calls : List Call}
  {turns : List Turn} {oamEnable localEnable : UInt32} {malloc : Bool}

theorem init_single (c : Config) (table : Nat → Bool) : (Detect.init c table).Single := by
  refine ⟨?_, ?_, ?_⟩
  · rintro i ⟨pc, hpc⟩
    unfold Detect.init at hpc
    dsimp only at hpc
    split at hpc
    · cases hpc
    · cases hpc
  · simp [Detect.init, Detect.enabled]
  · simp [Detect.init]

/-- A step of a task leaves the flags and the other slots alone. -/
structure Steps (s s' : Detect) (i : Nat) : Prop where
  config : s'.config = s.config
  mode : s'.gulLoopDetectMode = s.gulLoopDetectMode
  register : s'.gulLoopDetectFrameHandleRegister = s.gulLoopDetectFrameHandleRegister
  thread_id : s'.gwd_loop_thread_id = s.gwd_loop_thread_id
  other : ∀ j ≠ i, s'.gw_osal_thread_table j = s.gw_osal_thread_table j
  task : s'.detects i → s.detects i

theorem Steps.refl (s : Detect) (i : Nat) : Steps s s i :=
  ⟨rfl, rfl, rfl, rfl, fun _ _ => rfl, id⟩

theorem Steps.trans {s'' : Detect} (h : Steps s s' i) (h' : Steps s' s'' i) : Steps s s'' i where
  config := h'.config.trans h.config
  mode := h'.mode.trans h.mode
  register := h'.register.trans h.register
  thread_id := h'.thread_id.trans h.thread_id
  other := fun j hj => (h'.other j hj).trans (h.other j hj)
  task := fun hd => h.task (h'.task hd)

/-- The task in slot `i` goes on. -/
theorem steps_setPc (held : Held) (h : s.detects i) :
    Steps s (Detect.setPc { s with held } i pc) i where
  config := rfl
  mode := rfl
  register := rfl
  thread_id := rfl
  other := fun _ hj => update_of_ne hj _ _
  task := fun _ => h

theorem taskStep_steps (s : Detect) (i : Nat) (t : Turn) : Steps s (s.taskStep i t) i := by
  unfold Detect.taskStep
  split
  · rename_i h
    split
    · exact steps_setPc _ ⟨_, h⟩
    · exact steps_setPc s.held ⟨_, h⟩
  · rename_i h
    exact steps_setPc s.held ⟨_, h⟩
  · rename_i h
    exact steps_setPc _ ⟨_, h⟩
  · rename_i h
    exact steps_setPc s.held ⟨_, h⟩
  · rename_i h
    exact steps_setPc s.held ⟨_, h⟩
  · exact Steps.refl s i
  · exact Steps.refl s i
  · exact Steps.refl s i

theorem tasks_steps (s : Detect) (i : Nat) (turns : List Turn) :
    Steps s (turns.foldl (fun s t => s.taskStep i t) s) i := by
  induction turns generalizing s with
  | nil => exact Steps.refl s i
  | cons t turns ih => exact (taskStep_steps s i t).trans (ih _)

/-- What loop detection shut down is down. -/
def Held.Down (h : Held) : Prop := ∀ p, h.shut p = true → h.lpb.admin p = PORT_ADMIN_DOWN

theorem after_down (h : Held) (lpb : Lpb) : (h.after lpb).Down := by
  intro p hp
  unfold Held.after at hp
  exact (of_decide_eq_true hp).1

theorem taskStep_down (h : s.held.Down) : (s.taskStep i t).held.Down := by
  unfold Detect.taskStep
  split
  · split
    · exact h
    · exact h
  · exact h
  · exact after_down _ _
  · exact h
  · exact h
  · exact h
  · exact h
  · exact h

theorem tasks_down (h : s.held.Down) (turns : List Turn) :
    (turns.foldl (fun s t => s.taskStep i t) s).held.Down := by
  induction turns generalizing s with
  | nil => exact h
  | cons t turns ih => exact ih (taskStep_down h)

theorem Steps.enabled (h : Steps s s' i) : s'.enabled ↔ s.enabled := by
  unfold Detect.enabled
  rw [h.config, h.mode]

theorem Steps.detects (h : Steps s s' i) (hd : s'.detects j) : s.detects j := by
  by_cases hj : j = i
  · subst hj
    exact h.task hd
  · obtain ⟨pc, hpc⟩ := hd
    exact ⟨pc, (h.other j hj).symm.trans hpc⟩

theorem Steps.single (h : Steps s s' i) (hdown : s'.held.Down) (hs : s.Single) : s'.Single where
  slot := by
    intro j hd
    rw [h.register, h.thread_id]
    exact hs.slot j (h.detects hd)
  flags := by
    rw [h.register, h.enabled]
    exact hs.flags
  shut := hdown

theorem stop_off (hoff : ¬ (oamEnable ≠ 0 ∧ localEnable ≠ 0)) :
    ¬ (s.stop oamEnable localEnable).enabled := by
  unfold Detect.stop Detect.enabled LOOP_DETECT_MODE_DISABLE LOOP_DETECT_MODE_OLT
  by_cases ho : oamEnable = 0
  · simp [ho]
  · by_cases hl : localEnable = 0
    · simp [hl]
    · exact absurd ⟨ho, hl⟩ hoff

/-- A call that turns detection off leaves no task. -/
theorem disable_single (hs : s.Single) (hoff : ¬ (oamEnable ≠ 0 ∧ localEnable ≠ 0)) :
    (s.EthLoopbackDetectControl oamEnable localEnable malloc turns).Single := by
  unfold Detect.EthLoopbackDetectControl
  rw [if_neg hoff]
  have hsteps := tasks_steps (s.stop oamEnable localEnable) s.gwd_loop_thread_id turns
  have hstop : (s.stop oamEnable localEnable).held.Down := hs.shut
  have hdown : (turns.foldl (fun s' t => s'.taskStep s.gwd_loop_thread_id t)
      (s.stop oamEnable localEnable)).held.Down := tasks_down hstop turns
  refine ⟨?_, ?_, hdown⟩
  · rintro j ⟨pc, hpc⟩
    unfold Detect.gw_thread_delete at hpc
    by_cases hj : j = s.gwd_loop_thread_id
    · subst hj
      simp at hpc
    · dsimp only at hpc
      rw [update_of_ne hj, hsteps.other j hj] at hpc
      exact absurd (hs.slot j ⟨pc, hpc⟩).2 hj
  · have hnot : ¬ ((s.stop oamEnable localEnable).gw_thread_delete s.gwd_loop_thread_id turns).enabled :=
      fun h => stop_off hoff (hsteps.enabled.mp h)
    exact ⟨fun h => (nomatch h), fun h => absurd h hnot⟩

theorem disable_off (hs : s.Single) (hoff : ¬ (oamEnable ≠ 0 ∧ localEnable ≠ 0)) :
    ¬ (s.EthLoopbackDetectControl oamEnable localEnable malloc turns).enabled := by
  apply (disable_single hs hoff).flags.not.mp
  unfold Detect.EthLoopbackDetectControl
  rw [if_neg hoff]
  exact Bool.false_ne_true

theorem create_some (hi : i < GW_OSAL_MAX_THREAD) (hfree : s.gw_osal_thread_table i = .free) :
    ∃ j, s.gw_thread_create true = some j := by
  unfold Detect.gw_thread_create
  rw [if_pos rfl]
  apply Option.isSome_iff_exists.mp
  rw [List.find?_isSome]
  exact ⟨i, List.mem_range.mpr hi, by rw [hfree]⟩

/-- A call that turns detection on when it is not makes the only task. -/
theorem start_eq (hs : s.Single) (hoff : ¬ s.enabled) :
    s.start malloc =
      let s' := { s with
        config.oam_onu_lpb_detect_frame.enable := 1
        gulLoopDetectMode := LOOP_DETECT_MODE_OLT
        gulLoopDetectFrameHandleRegister := true }
      match s.gw_thread_create malloc with
      | none => s'
      | some i => { s'.setPc i .test with gwd_loop_thread_id := i } := by
  have hregister : ¬ s.gulLoopDetectFrameHandleRegister = true := fun h => hoff (hs.flags.mp h)
  unfold Detect.start
  dsimp only
  rw [if_neg hregister]
  rfl

theorem not_detects (hs : s.Single) (hoff : ¬ s.enabled) (j : Nat) : ¬ s.detects j :=
  fun hd => hoff (hs.flags.mp (hs.slot j hd).1)

theorem start_detects (hs : s.Single) (hoff : ¬ s.enabled) (h : s.gw_thread_create malloc = some i) :
    (s.start malloc).detects j ↔ j = i := by
  rw [start_eq hs hoff]
  dsimp only
  rw [h]
  constructor
  · rintro ⟨pc, hpc⟩
    by_contra hj
    refine not_detects hs hoff j ⟨pc, ?_⟩
    unfold Detect.setPc at hpc
    dsimp only at hpc
    rwa [update_of_ne hj] at hpc
  · rintro rfl
    exact ⟨.test, update_self _ _ _⟩

theorem start_single (hs : s.Single) (hoff : ¬ s.enabled) : (s.start malloc).Single := by
  have honly : ∀ i, s.gw_thread_create malloc = some i → ∀ j, (s.start malloc).detects j → j = i :=
    fun i h j hd => (start_detects hs hoff h).mp hd
  rw [start_eq hs hoff] at honly ⊢
  dsimp only at honly ⊢
  cases h : s.gw_thread_create malloc with
  | none =>
    refine ⟨?_, by simp [Detect.enabled, LOOP_DETECT_MODE_OLT], hs.shut⟩
    intro j hd
    exact absurd hd (not_detects hs hoff j)
  | some i =>
    rw [h] at honly
    refine ⟨?_, by simp [Detect.enabled, Detect.setPc, LOOP_DETECT_MODE_OLT], hs.shut⟩
    intro j hd
    exact ⟨rfl, honly i rfl j hd⟩

theorem step_single (hs : s.Single) (e : ControlEvent) : (s.step e).Single := by
  cases e with
  | control oamEnable localEnable malloc turns =>
    by_cases hon : oamEnable ≠ 0 ∧ localEnable ≠ 0
    · unfold Detect.step Detect.EthLoopbackDetectControl
      dsimp only
      rw [if_pos hon]
      split
      · exact hs
      · rename_i hoff
        exact start_single hs hoff
    · exact disable_single hs hon
  | task i t => exact (taskStep_steps s i t).single (taskStep_down hs.shut) hs
  | frame t packet port vid => exact ⟨hs.slot, hs.flags, after_down _ _⟩
  | settings c => exact ⟨hs.slot, hs.flags, hs.shut⟩
  | flags rec ignore => exact ⟨hs.slot, hs.flags, hs.shut⟩
  | admin p st =>
    refine ⟨hs.slot, hs.flags, ?_⟩
    intro q hq
    unfold Detect.step at hq ⊢
    dsimp only at hq ⊢
    by_cases hp : q = p
    · subst hp
      simp at hq
    · rw [update_of_ne hp] at hq ⊢
      exact hs.shut q hq
  | threads table =>
    refine ⟨?_, hs.flags, hs.shut⟩
    rintro i ⟨pc, hpc⟩
    unfold Detect.step at hpc
    dsimp only at hpc
    split at hpc
    · rename_i pc' h
      exact hs.slot i ⟨pc', h⟩
    · split at hpc
      · cases hpc
      · cases hpc

theorem run_single (hs : s.Single) (es : List ControlEvent) : (run Detect.step s es).Single :=
  run_inv (I := Detect.Single) (P := fun _ _ => True) (fun _ e h _ => step_single h e) hs
    (along_true s es)

/-- Detection stays off until a call turns it on. -/
theorem step_off (hoff : ¬ s.enabled) {e : ControlEvent} (he : ¬ e.enables) (hs : s.Single) :
    ¬ (s.step e).enabled := by
  cases e with
  | control oamEnable localEnable malloc turns => exact disable_off hs he
  | task i t => exact fun h => hoff ((taskStep_steps s i t).enabled.mp h)
  | frame t packet port vid => exact hoff
  | settings c => exact hoff
  | flags rec ignore => exact hoff
  | admin p st => exact hoff
  | threads table => exact hoff

theorem startsOne (hs : s.Single) (hoff : ¬ s.enabled) : s.StartsOne := by
  intro es hes oamEnable localEnable turns hon
  obtain ⟨hsingle, hstill⟩ : (run Detect.step s es).Single ∧ ¬ (run Detect.step s es).enabled :=
    run_inv (I := fun s => s.Single ∧ ¬ s.enabled) (P := fun _ e => ¬ e.enables)
      (fun s e h he => ⟨step_single h.1 e, step_off h.2 he h.1⟩) ⟨hs, hoff⟩
      (along_of (fun _ e he => hes e he) s)
  rintro s' ⟨i, hi, hfree⟩
  obtain ⟨j, hj⟩ := create_some hi hfree
  refine ⟨j, ?_, ?_⟩
  · unfold Detect.EthLoopbackDetectControl
    rw [if_pos hon, if_neg hstill]
    exact (start_detects hsingle hstill hj).mpr rfl
  · intro k hk
    unfold Detect.EthLoopbackDetectControl at hk
    rw [if_pos hon, if_neg hstill] at hk
    exact (start_detects hsingle hstill hj).mp hk

/-! ## The task after the flags are gone -/

/-- The task in the slot makes no call any more. -/
def Detect.Idle (s : Detect) (i : Nat) : Prop :=
  ∀ pc, s.gw_osal_thread_table i = .detect pc → pc ≠ .call ∧ ∀ f calls, pc ≠ .acting (f :: calls)

theorem idle_setPc (hcall : pc ≠ .call) (hacting : ∀ f calls, pc ≠ .acting (f :: calls)) :
    (s.setPc i pc).Idle i := by
  intro qc hq
  unfold Detect.setPc at hq
  dsimp only at hq
  rw [update_self] at hq
  cases hq
  exact ⟨hcall, hacting⟩

theorem taskStep_idle (hoff : ¬ s.enabled) (h : s.Idle i) (t : Turn) :
    (s.taskStep i t).Idle i ∧ (s.taskStep i t).held = s.held := by
  unfold Detect.taskStep
  split
  · rw [if_neg hoff]
    exact ⟨idle_setPc (by simp) (by simp), rfl⟩
  · rename_i hpc
    exact absurd rfl (h _ hpc).1
  · rename_i hpc
    exact absurd rfl ((h _ hpc).2 _ _)
  · exact ⟨idle_setPc (by simp) (by simp), rfl⟩
  · exact ⟨idle_setPc (by simp) (by simp), rfl⟩
  · exact ⟨h, rfl⟩
  · exact ⟨h, rfl⟩
  · exact ⟨h, rfl⟩

theorem tasks_idle (hoff : ¬ s.enabled) (h : s.Idle i) (turns : List Turn) :
    (turns.foldl (fun s t => s.taskStep i t) s).held = s.held := by
  induction turns generalizing s with
  | nil => rfl
  | cons t turns ih =>
    obtain ⟨hidle, hheld⟩ := taskStep_idle hoff h t
    have hstill : ¬ (s.taskStep i t).enabled := (taskStep_steps s i t).enabled.not.mpr hoff
    exact (ih hstill hidle).trans hheld

/-- It makes the calls that are left of its interval, and no other. -/
theorem tasks_acting (hoff : ¬ s.enabled)
    (h : s.gw_osal_thread_table i = .detect (.acting calls)) (turns : List Turn) :
    (turns.foldl (fun s t => s.taskStep i t) s).held = s.held.finish s.config calls turns := by
  induction turns generalizing s calls with
  | nil =>
    unfold Held.finish
    rw [List.zip_nil_right]
    rfl
  | cons t turns ih =>
    cases calls with
    | nil =>
      refine tasks_idle hoff ?_ (t :: turns)
      intro pc hpc
      rw [h] at hpc
      cases hpc
      exact ⟨by simp, by simp⟩
    | cons f calls =>
      have hstep : s.taskStep i t =
          Detect.setPc { s with held := s.held.perform s.config t f } i (.acting calls) := by
        unfold Detect.taskStep
        rw [h]
      rw [List.foldl_cons, hstep]
      have hrest : ¬ (Detect.setPc { s with held := s.held.perform s.config t f } i
        (.acting calls)).enabled := hoff
      exact ih hrest (update_self _ _ _)

/-- It reads the flag once more, and makes the calls of an interval. -/
theorem tasks_call (hoff : ¬ s.enabled) (h : s.gw_osal_thread_table i = .detect .call)
    (turns : List Turn) :
    ((t :: turns).foldl (fun s t => s.taskStep i t) s).held =
      s.held.finish s.config (ethLoopBackDetectActionCall s.config
        (s.config.oam_onu_lpb_detect_frame.enable ≠ 0) t.vlans) turns := by
  have hstep : s.taskStep i t = s.setPc i (.acting (ethLoopBackDetectActionCall s.config
      (s.config.oam_onu_lpb_detect_frame.enable ≠ 0) t.vlans)) := by
    unfold Detect.taskStep
    rw [h]
  rw [List.foldl_cons, hstep]
  exact tasks_acting (s := s.setPc i _) hoff (update_self _ _ _) turns

theorem resetNodes_congr {c' : Config} {a : Api} {force : Bool} {session : Option SessionID}
    (h : c.opens force = c'.opens force) (s : Lpb) (l : List OAM_ONU_LPB_DETECT_CTRL) :
    resetNodes c a force session s l = resetNodes c' a force session s l := by
  induction l generalizing s with
  | nil => rfl
  | cons n l ih =>
    unfold resetNodes
    rw [h]
    simp only [ih]

/-- The calls do not look at the flag of the OLT. -/
theorem perform_flag (x : UInt8) (f : Call) (lpb : Lpb) :
    f.perform { c with oam_onu_lpb_detect_frame.enable := x } t lpb = f.perform c t lpb := by
  cases f with
  | reset force =>
    have hsame : ∀ l, resetNodes { c with oam_onu_lpb_detect_frame.enable := x } t.a force
        (some t.port_loop_back_session) lpb l =
          resetNodes c t.a force (some t.port_loop_back_session) lpb l :=
      resetNodes_congr (show Config.opens { c with oam_onu_lpb_detect_frame.enable := x } force =
        c.opens force from rfl) lpb
    unfold Call.perform resetLpbPort
    simp only [hsame]
  | wakeup v =>
    cases v with
    | olt => rfl
    | own => rfl
    | entry vid => rfl
  | check v =>
    cases v with
    | olt => rfl
    | own => rfl
    | entry vid => rfl
  | cls v =>
    cases v with
    | olt => rfl
    | own => rfl
    | entry vid => rfl
  | report v =>
    cases v with
    | olt => rfl
    | own => rfl
    | entry vid => rfl
  | free => rfl

theorem finish_flag (x : UInt8) (h : Held) (calls : List Call) (turns : List Turn) :
    h.finish { c with oam_onu_lpb_detect_frame.enable := x } calls turns =
      h.finish c calls turns := by
  unfold Held.finish Held.perform
  simp only [perform_flag]

/-! ## What the clean-up opens -/

section
variable {a : Api} {force : Bool} {session : Option SessionID} {vid : UInt16} {lpb : Lpb}

theorem resetPort_admin (q : Port) (lport p : Nat) :
    (resetPort a session vid lpb lport q).1.admin p =
      if p = lport ∧ q.lpbportdown = 1 ∧ a.set p = true then PORT_ADMIN_UP else lpb.admin p := by
  unfold resetPort
  by_cases h : q.lpbportdown = 1
  · rw [if_pos h.symm]
    dsimp only
    rw [send_admin, set_admin]
    by_cases hp : p = lport
    · subst hp
      simp [h]
    · simp [hp]
  · rw [if_neg (Ne.symm h)]
    simp [h]

theorem resetPorts_admin {l : List Nat} (hl : l.Nodup) (lpb : Lpb) (port : Nat → Port) (p : Nat) :
    (l.foldl (resetPort a session vid).turn (lpb, port)).1.admin p =
      if (p ∈ l ∧ (port p).lpbportdown = 1) ∧ a.set p = true then PORT_ADMIN_UP
      else lpb.admin p := by
  induction l generalizing lpb port with
  | nil => simp
  | cons i l ih =>
    obtain ⟨hi, hl⟩ := List.nodup_cons.mp hl
    rw [List.foldl_cons, Body.turn, ih hl, resetPort_admin]
    by_cases hp : p = i
    · subst hp
      simp [hi]
    · simp [hp]

theorem resetNodes_admin (hopens : c.opens force = true) (l : List OAM_ONU_LPB_DETECT_CTRL)
    (lpb : Lpb) (p : Nat) :
    (resetNodes c a force session lpb l).1.admin p =
      if (p ∈ l.flatMap fun n => ports.filter fun i => (n.port i).lpbportdown = 1) ∧
        a.set p = true then PORT_ADMIN_UP
      else lpb.admin p := by
  induction l generalizing lpb with
  | nil => simp [resetNodes]
  | cons n l ih =>
    unfold resetNodes
    dsimp only
    rw [if_pos hopens, ih, resetPorts_admin ports_nodup]
    cases hset : a.set p with
    | false => simp
    | true =>
      by_cases hn : p ∈ ports ∧ (n.port p).lpbportdown = 1
      · simp [hn]
      · simp [hn]

theorem reset_admin (p : Nat) : (resetLpbPort c a lpb true session).admin p =
    if p ∈ lpb.recorded ∧ a.set p = true then PORT_ADMIN_UP else lpb.admin p := by
  have hopens : c.opens true = true := by simp [Config.opens]
  exact resetNodes_admin hopens _ lpb p

theorem reset_empty : (resetLpbPort c a lpb force session).g_lpb_detect_ctrl = [] ↔
    lpb.g_lpb_detect_ctrl = [] := by
  have hvids : (resetLpbPort c a lpb force session).vids = lpb.vids := resetNodes_vids force _ lpb
  unfold Lpb.vids at hvids
  constructor
  · intro h
    rw [h] at hvids
    exact List.map_eq_nil_iff.mp hvids.symm
  · intro h
    rw [h] at hvids
    exact List.map_eq_nil_iff.mp hvids

end

variable {h : Held}

/-- What the clean-up opens is what is recorded as shut down. -/
theorem cleanup_shut (hdown : h.Down) (p : Nat) :
    (h.perform c t (.reset true)).shut p = true ↔
      h.shut p = true ∧ ¬ (p ∈ h.lpb.recorded ∧ t.a.set p = true) := by
  unfold Held.perform Held.after Call.perform
  rw [decide_eq_true_iff, reset_admin]
  by_cases hopen : p ∈ h.lpb.recorded ∧ t.a.set p = true
  · simp [hopen]
  · rw [if_neg hopen]
    refine ⟨?_, fun hp => ⟨hdown p hp.1, .inl hp.1⟩⟩
    rintro ⟨hadmin, hp | hup⟩
    · exact ⟨hp, hopen⟩
    · rw [hup] at hadmin
      cases hadmin

theorem free_shut (hdown : h.Down) (p : Nat) : (h.perform c t .free).shut p = h.shut p := by
  apply Bool.eq_iff_iff.mpr
  unfold Held.perform Held.after Call.perform freeLpbStatusList
  rw [decide_eq_true_iff]
  refine ⟨?_, fun hp => ⟨hdown p hp, .inl hp⟩⟩
  rintro ⟨hadmin, hp | hup⟩
  · exact hp
  · rw [hup] at hadmin
    cases hadmin

/-- The clean-up clears everything when it is not cut off and opens every port
that is shut down, or when there is nothing to clear. -/
theorem cleanup_clear (hdown : h.Down) (turns : List Turn) :
    (h.finish c [.reset true, .free] turns).Clear ↔
      (2 ≤ turns.length ∧ ∀ t, turns[0]? = some t →
        ∀ p, h.shut p = true → p ∈ h.lpb.recorded ∧ t.a.set p = true) ∨ h.Clear := by
  cases turns with
  | nil => simp [Held.finish]
  | cons t turns =>
    have hreset : (h.perform c t (.reset true)).Down := after_down _ _
    have hall : (∀ p, (h.perform c t (.reset true)).shut p = false) ↔
        ∀ p, h.shut p = true → p ∈ h.lpb.recorded ∧ t.a.set p = true := by
      refine forall_congr' fun p => ?_
      rw [← Bool.not_eq_true, cleanup_shut hdown, not_and, not_not]
    cases turns with
    | nil =>
      have hlist : (h.perform c t (.reset true)).lpb.g_lpb_detect_ctrl = [] ↔
          h.lpb.g_lpb_detect_ctrl = [] := reset_empty
      simp only [Held.finish, List.zip_cons_cons, List.zip_nil_right, List.foldl_cons,
        List.foldl_nil, Held.Clear]
      rw [hall, hlist]
      constructor
      · rintro ⟨hopen, hempty⟩
        have hnone : h.lpb.recorded = [] := by
          unfold Lpb.recorded
          rw [hempty]
          rfl
        refine .inr ⟨fun p => ?_, hempty⟩
        by_contra hp
        have hmem := (hopen p (by simpa using hp)).1
        simp [hnone] at hmem
      · rintro (⟨hlen, _⟩ | ⟨hshut, hempty⟩)
        · simp at hlen
        · exact ⟨fun p hp => absurd hp (by simp [hshut p]), hempty⟩
    | cons t' turns =>
      have hfinish : (h.finish c [.reset true, .free] (t :: t' :: turns)) =
          (h.perform c t (.reset true)).perform c t' .free := rfl
      have hclear : (h.finish c [.reset true, .free] (t :: t' :: turns)).Clear ↔
          ∀ p, (h.perform c t (.reset true)).shut p = false := by
        rw [hfinish]
        unfold Held.Clear
        simp only [free_shut hreset]
        exact and_iff_left rfl
      rw [hclear, hall]
      constructor
      · intro hopen
        exact .inl ⟨by simp, by simpa using hopen⟩
      · rintro (⟨_, hopen⟩ | ⟨hshut, _⟩)
        · exact hopen t rfl
        · exact fun p hp => absurd hp (by simp [hshut p])

/-- What there is after a call that turns detection off. -/
theorem disable_held (hdisable : ¬ (oamEnable ≠ 0 ∧ localEnable ≠ 0)) :
    (s.EthLoopbackDetectControl oamEnable localEnable malloc turns).held =
      (turns.foldl (fun s' t => s'.taskStep s.gwd_loop_thread_id t)
        (s.stop oamEnable localEnable)).held := by
  unfold Detect.EthLoopbackDetectControl
  rw [if_neg hdisable]
  rfl

/-- What the task sees of the flag. -/
theorem stop_calls (vlans : List (UInt16 × Bool)) :
    ethLoopBackDetectActionCall (s.stop oamEnable localEnable).config
        ((s.stop oamEnable localEnable).config.oam_onu_lpb_detect_frame.enable ≠ 0) vlans =
      ethLoopBackDetectActionCall s.config (oamEnable ≠ 0) vlans := by
  unfold Detect.stop
  by_cases ho : oamEnable = 0
  · simp [ho, ethLoopBackDetectActionCall]
  · simp [ho, ethLoopBackDetectActionCall]

theorem disable_clear (hs : s.Single) (hdisable : ¬ (oamEnable ≠ 0 ∧ localEnable ≠ 0)) :
    (s.EthLoopbackDetectControl oamEnable localEnable malloc turns).held.Clear ↔
      s.Caught oamEnable turns ∨ (s.interrupted oamEnable turns).Clear := by
  have hoff : ¬ (s.stop oamEnable localEnable).enabled := stop_off hdisable
  have hsame : ∀ pc, s.gw_osal_thread_table s.gwd_loop_thread_id = .detect pc →
      (s.stop oamEnable localEnable).gw_osal_thread_table s.gwd_loop_thread_id = .detect pc :=
    fun _ h => h
  rw [disable_held hdisable]
  -- without a task, and with one that makes no call, everything stays as it is
  have hquiet : (s.stop oamEnable localEnable).Idle s.gwd_loop_thread_id →
      (turns.foldl (fun s' t => s'.taskStep s.gwd_loop_thread_id t)
        (s.stop oamEnable localEnable)).held = s.held := fun h => tasks_idle hoff h turns
  unfold Detect.Caught Detect.interrupted
  cases hslot : s.gw_osal_thread_table s.gwd_loop_thread_id with
  | free =>
    rw [hquiet (fun pc hpc => absurd (hslot.symm.trans hpc) (by simp))]
    simp
  | other =>
    rw [hquiet (fun pc hpc => absurd (hslot.symm.trans hpc) (by simp))]
    simp
  | detect pc =>
    cases pc with
    | test =>
      rw [hquiet (fun pc hpc => by cases hslot.symm.trans hpc; simp)]
      simp
    | delay =>
      rw [hquiet (fun pc hpc => by cases hslot.symm.trans hpc; simp)]
      simp
    | exited =>
      rw [hquiet (fun pc hpc => by cases hslot.symm.trans hpc; simp)]
      simp
    | acting calls =>
      rw [tasks_acting hoff (hsame _ hslot)]
      have hfinish : (s.stop oamEnable localEnable).held.finish (s.stop oamEnable localEnable).config
          calls turns = s.held.finish s.config calls turns := finish_flag _ _ _ _
      rw [hfinish]
      simp
    | call =>
      cases turns with
      | nil =>
        have hheld : (s.stop oamEnable localEnable).held = s.held := rfl
        simp [hheld]
      | cons t turns =>
        have hfinish : (s.stop oamEnable localEnable).held.finish
            (s.stop oamEnable localEnable).config
            (ethLoopBackDetectActionCall s.config (oamEnable ≠ 0) t.vlans) turns =
          s.held.finish s.config (ethLoopBackDetectActionCall s.config (oamEnable ≠ 0) t.vlans)
            turns := finish_flag _ _ _ _
        rw [tasks_call hoff (hsame _ hslot), stop_calls, hfinish]
        by_cases ho : oamEnable = 0
        · have hcalls : ethLoopBackDetectActionCall s.config (oamEnable ≠ 0) t.vlans =
              [.reset true, .free] := by simp [ho, ethLoopBackDetectActionCall]
          rw [hcalls, cleanup_clear hs.shut]
          simp [ho]
        · simp [ho]

end

end gwdonu.gwd_eth_loop_detect
