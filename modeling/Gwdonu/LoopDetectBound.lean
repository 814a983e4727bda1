-- The bound on the wake-ups of a port. It holds when the counter of eight bits is
-- wide enough for `maxwakeup`; where it is not, a loop that stays breaks it.
import Gwdonu.LoopDetectWakeup

namespace gwdonu.gwd_eth_loop_detect

open Function gwd_port_admin_t runs

/-! ## A loop that stays -/

/-- There is memory, and the ports take every command. -/
def working : Api := ⟨true, fun _ => true, fun _ => true, fun _ _ => true, fun _ => none⟩

section
variable (c : Config) (vid : UInt16) (p : Nat)

def interval : Event := .wakeup working (Vector.replicate 8 0) vid

def found : Event := .check working vid (some p)

/-- The intervals before the one of the wake-up. -/
def waiting : List Event := (List.replicate (c.waitforwakeup.toNat - 1) [interval vid]).flatten

/-- The port waits, is woken up, and is found in a loop again. -/
def round : List Event := waiting c vid ++ [interval vid, found vid p]

/-- The loop is found as often as the port is woken up, once too often. -/
def stayingLoop : List Event :=
  found vid p :: (List.replicate c.maxwakeup.toNat (round c vid p)).flatten ++ waiting c vid ++
    [interval vid]

end

section
variable {c : Config} {a : Api} {s : Lpb} {vid : UInt16} {p w j : Nat} {x : Port} {t : Watched}
  {info : Option ALARM_LOOP}

/-- The port is shut down and waited `j` intervals. -/
structure Port.Waiting (c : Config) (j : Nat) (x : Port) : Prop where
  loud : ¬ x.silent
  waits : x.waits c
  slp : x.slpcounter.toInt = j

theorem Port.Waiting.succ (h : x.Waiting c j) (hj : j ≤ 65535) :
    (x.slpcounter + 1).toInt = (j + 1 : Nat) := by
  have hslp := h.slp
  rw [slp_succ (by omega) (by omega), hslp]
  rfl

theorem waiting_due (h : x.Waiting c j) (hj : j ≤ 65535) :
    x.due c ↔ c.waitforwakeup.toNat ≤ j + 1 := by
  rw [due_iff, h.succ hj, Int.ofNat_le]
  exact ⟨fun hdue => hdue.2.2, fun hdue => ⟨h.loud, h.waits, hdue⟩⟩

theorem waiting_waits (h : x.Waiting c j) (hj : j + 1 < c.waitforwakeup.toNat) :
    (x.wakeup c).Waiting c (j + 1) := by
  have hlt := c.waitforwakeup.toNat_lt
  have hmax : j ≤ 65535 := by omega
  rw [loud_wakeup h.loud, if_neg (fun hdue => by have := (waiting_due h hmax).mp hdue; omega),
    if_pos h.waits]
  exact ⟨h.loud, h.waits, h.succ hmax⟩

/-- A port that is marked waits, because a counter that is at its end starts again. -/
theorem marked_waits (hc : 255 ≤ c.maxwakeup.toNat) (ha : a.malloc = true) :
    (s.marked c a vid true info p).Waiting c 0 := by
  have hzero : ∀ x : Port, x.lpbportwakeupcounter = 0 → x.wakes c := by
    intro x h0
    rw [Port.wakes, h0]
    exact Nat.lt_of_lt_of_le (by decide) hc
  have hnew : ∀ x : Port, x.lpbmask = 1 → x.lpbClearCnt = 0 → x.lpbportdown = 1 → x.slpcounter = 0 →
      x.wakes c → x.Waiting c 0 := by
    intro x hmask hclear hdown hslp hwakes
    refine ⟨?_, ⟨⟨hmask.symm, ?_, hdown.symm⟩, hwakes⟩, ?_⟩
    · rintro ⟨-, hten⟩
      rw [hclear] at hten
      exact absurd hten (by decide)
    · rw [hclear]
      decide
    · rw [hslp]
      rfl
  unfold Lpb.marked
  split
  · rename_i n _
    unfold Port.mark
    dsimp only
    rw [if_pos rfl]
    by_cases hw : (n.port p).wakes c
    · rw [if_pos (show Port.wakes c { n.port p with lpbClearCnt := 0, lpbmask := 1 } from hw)]
      exact hnew _ rfl rfl rfl rfl hw
    · have hend : (n.port p).lpbportwakeupcounter = 255 := by
        rw [Port.wakes, Nat.not_lt] at hw
        have hlt := (n.port p).lpbportwakeupcounter.toNat_lt
        apply UInt8.toNat_inj.mp
        change _ = 255
        omega
      rw [if_neg (show ¬ Port.wakes c { n.port p with lpbClearCnt := 0, lpbmask := 1 } from hw),
        if_pos hend]
      exact hnew _ rfl rfl rfl rfl (hzero _ rfl)
  · rw [if_pos ha]
    exact hnew _ rfl rfl rfl rfl (hzero _ rfl)

/-! ## The rounds -/

/-- The port is shut down, was woken up `w` times and waited `j` intervals. -/
structure Shut (c : Config) (vid : UInt16) (p w j : Nat) (t : Watched) : Prop where
  wakes : t.wakes = w
  listens : t.lpb.gulLoopIgnorePort p = false
  port : (t.lpb.portOf vid p).Waiting c j

/-- The port is open, and was woken up `w` times. -/
structure Opened (p w : Nat) (t : Watched) : Prop where
  wakes : t.wakes = w
  listens : t.lpb.gulLoopIgnorePort p = false
  up : t.lpb.admin p = PORT_ADMIN_UP

theorem send_ignores {session : Option SessionID} (i : Nat) (state : UInt8) (info : ALARM_LOOP) :
    (sendOamLpbDetectNotifyMsg a s i state vid session info).1.gulLoopIgnorePort =
      s.gulLoopIgnorePort := by
  unfold sendOamLpbDetectNotifyMsg
  split
  · rfl
  · rfl

theorem wakeup_ignores {b : SessionID} (s : Lpb) :
    (lpbDetectWakeupPorts c a b s vid).gulLoopIgnorePort = s.gulLoopIgnorePort := by
  refine forPorts_field (f := Lpb.gulLoopIgnorePort) (fun _ _ => rfl) ?_ s vid
  intro s i x
  have hclear : (clearPort a b vid s i x).1.gulLoopIgnorePort = s.gulLoopIgnorePort := by
    unfold clearPort
    split
    · exact send_ignores _ _ _
    · rfl
  unfold wakeupPort
  dsimp only
  split
  · split
    · exact (send_ignores _ _ _).trans hclear
    · exact hclear
  · exact hclear

theorem mark_ignores {shutdown : Bool} {v : UInt16} {lport : Nat} :
    (setPortLpbStatus c a s v lport shutdown info).gulLoopIgnorePort = s.gulLoopIgnorePort := by
  unfold setPortLpbStatus
  split
  · rfl
  · split
    · rfl
    · rfl

theorem check_shuts (hp : p ∈ ports) (hlisten : s.gulLoopIgnorePort p = false)
    (hpolicy : c.shutsDown) (hup : s.admin p = PORT_ADMIN_UP) (hset : a.set p = true) :
    lpbDetectCheckMacTable c a s vid (some p) =
      setPortLpbStatus c a (s.port_admin_set a p PORT_ADMIN_DOWN).1 vid p true none := by
  have hlisten : ¬ s.gulLoopIgnorePort p = true := by simp [hlisten]
  unfold lpbDetectCheckMacTable
  dsimp only
  rw [if_pos (ports_uni hp), if_neg hlisten, if_pos hpolicy, if_pos hup]
  exact if_pos hset

theorem found_shuts (hp : p ∈ ports) (hc : 255 ≤ c.maxwakeup.toNat) (hpolicy : c.shutsDown)
    (h : Opened p w t) : Shut c vid p w 0 (t.step c vid p (found vid p)) := by
  have hcall : t.lpb.call c (found vid p) = setPortLpbStatus c working
      (Lpb.port_admin_set { t.lpb with commands := [] } working p PORT_ADMIN_DOWN).1 vid p true none :=
    check_shuts (s := { t.lpb with commands := [] }) hp h.listens hpolicy h.up rfl
  have hport : ((t.lpb.call c (found vid p)).portOf vid p).Waiting c 0 := by
    rw [hcall, shut_portOf, if_pos ⟨rfl, rfl⟩]
    exact marked_waits hc rfl
  refine ⟨?_, ?_, hport⟩
  · have hmask := waits_mask hport.waits
    have hup : ¬ (t.lpb.admin p = PORT_ADMIN_DOWN ∧
        (t.lpb.call c (found vid p)).admin p = PORT_ADMIN_UP) := by
      rw [h.up]
      exact fun hdown => nomatch hdown.1
    exact ((if_neg hmask).trans (if_neg hup)).trans h.wakes
  · change (t.lpb.call c (found vid p)).gulLoopIgnorePort p = false
    rw [hcall, mark_ignores]
    exact h.listens

theorem interval_wakesUp : (interval vid).wakesUp vid = true := decide_eq_true rfl

theorem interval_listens (h : t.lpb.gulLoopIgnorePort p = false) :
    (t.step c vid p (interval vid)).lpb.gulLoopIgnorePort p = false :=
  (congrFun (wakeup_ignores (c := c) { t.lpb with commands := [] }) p).trans h

/-- An interval, as the port sees it. -/
theorem interval_call (hp : p ∈ ports) (vid : UInt16) (s : Lpb) :
    (s.call c (interval vid)).portOf vid p = (s.portOf vid p).wakeup c ∧
      ((p, PORT_ADMIN_UP) ∈ (s.call c (interval vid)).commands ↔ (s.portOf vid p).due c) ∧
      ((s.portOf vid p).due c → (s.call c (interval vid)).admin p = PORT_ADMIN_UP) := by
  obtain ⟨hport, hcommand, hadmin⟩ := wakeup_port (c := c) (a := working)
    (b := Vector.replicate 8 0) hp vid { s with commands := [] } List.not_mem_nil
  refine ⟨hport, hcommand, ?_⟩
  intro hdue
  exact hadmin.trans (if_pos ⟨hdue, rfl⟩)

theorem interval_waits (hp : p ∈ ports) (h : Shut c vid p w j t)
    (hj : j + 1 < c.waitforwakeup.toNat) :
    Shut c vid p w (j + 1) (t.step c vid p (interval vid)) := by
  obtain ⟨hport, hcommand, -⟩ := interval_call (c := c) hp vid t.lpb
  have hwaiting := waiting_waits h.port hj
  rw [← hport] at hwaiting
  have hdue : ¬ (t.lpb.portOf vid p).due c := by
    have hlt := c.waitforwakeup.toNat_lt
    rw [waiting_due h.port (by omega)]
    omega
  refine ⟨?_, interval_listens h.listens, hwaiting⟩
  dsimp only [Watched.step]
  rw [if_neg (waits_mask hwaiting.waits), if_pos interval_wakesUp, if_neg (mt hcommand.mp hdue)]
  exact h.wakes

theorem shut_due (h : Shut c vid p w j t) (hj : c.waitforwakeup.toNat ≤ j + 1) (hmax : j ≤ 65535) :
    (t.lpb.portOf vid p).due c := (waiting_due h.port hmax).mpr hj

theorem interval_opens (hp : p ∈ ports) (h : Shut c vid p w j t)
    (hj : c.waitforwakeup.toNat ≤ j + 1) (hmax : j ≤ 65535) :
    Opened p (w + 1) (t.step c vid p (interval vid)) := by
  have hdue := shut_due h hj hmax
  obtain ⟨hport, hcommand, hopened⟩ := interval_call (c := c) hp vid t.lpb
  refine ⟨?_, interval_listens h.listens, hopened hdue⟩
  have hmask : ¬ ((t.lpb.call c (interval vid)).portOf vid p).lpbmask = 0 := by
    rw [hport, loud_mask h.port.loud]
    exact waits_mask h.port.waits
  dsimp only [Watched.step]
  rw [if_neg hmask, if_pos interval_wakesUp, if_pos (hcommand.mpr hdue), h.wakes]

theorem waiting_shut (hp : p ∈ ports) (h : Shut c vid p w 0 t) :
    Shut c vid p w (c.waitforwakeup.toNat - 1) (run (Watched.step c vid p) t (waiting c vid)) := by
  have hrun : Shut c vid p w (0 + (c.waitforwakeup.toNat - 1))
      (run (Watched.step c vid p) t (waiting c vid)) := by
    refine run_times (I := fun j t => Shut c vid p w j t) h _ ?_
    intro j t hj hshut
    exact interval_waits hp hshut (by omega)
  rw [Nat.zero_add] at hrun
  exact hrun

theorem round_wakes (hp : p ∈ ports) (hc : 255 ≤ c.maxwakeup.toNat) (hpolicy : c.shutsDown)
    (h : Shut c vid p w 0 t) :
    Shut c vid p (w + 1) 0 (run (Watched.step c vid p) t (round c vid p)) := by
  have hlt := c.waitforwakeup.toNat_lt
  rw [round, run_append]
  exact found_shuts hp hc hpolicy
    (interval_opens hp (waiting_shut hp h) (by omega) (by omega))

theorem rounds_wake (hp : p ∈ ports) (hc : 255 ≤ c.maxwakeup.toNat) (hpolicy : c.shutsDown)
    (h : Shut c vid p 0 0 t) (n : Nat) :
    Shut c vid p n 0 (run (Watched.step c vid p) t (List.replicate n (round c vid p)).flatten) := by
  have hrun : Shut c vid p (0 + n) 0
      (run (Watched.step c vid p) t (List.replicate n (round c vid p)).flatten) :=
    run_times (I := fun w t => Shut c vid p w 0 t) h n
      (fun w t _ hshut => round_wakes hp hc hpolicy hshut)
  rw [Nat.zero_add] at hrun
  exact hrun

/-- A loop that stays has the port woken up more often than `maxwakeup`. -/
theorem stayingLoop_unbounded (hp : p ∈ ports) (hc : 255 ≤ c.maxwakeup.toNat)
    (hpolicy : c.shutsDown) :
    ¬ Along (Watched.step c vid p) (Bounded c vid p) .init (stayingLoop c vid p) := by
  have hlt := c.waitforwakeup.toNat_lt
  have hopened : Opened p 0 .init := ⟨rfl, rfl, rfl⟩
  have hfound : Shut c vid p 0 0 (Watched.step c vid p .init (found vid p)) :=
    found_shuts hp hc hpolicy hopened
  have hshut := waiting_shut hp (rounds_wake hp hc hpolicy hfound c.maxwakeup.toNat)
  intro h
  rw [stayingLoop, along_append] at h
  obtain ⟨-, ⟨hwoken, -⟩, -⟩ := h
  rw [List.cons_append, run_cons, run_append] at hwoken
  obtain ⟨-, hcommand, -⟩ := interval_call (c := c) hp vid (run (Watched.step c vid p)
    (run (Watched.step c vid p) (Watched.step c vid p .init (found vid p))
      (List.replicate c.maxwakeup.toNat (round c vid p)).flatten) (waiting c vid)).lpb
  have hlast := (hwoken interval_wakesUp (hcommand.mpr (shut_due hshut (by omega) (by omega)))).1
  rw [hshut.wakes] at hlast
  exact absurd hlast (lt_irrefl _)

theorem mem_times {e : Event} {es : List Event} {n : Nat}
    (h : e ∈ (List.replicate n es).flatten) : e ∈ es := by
  obtain ⟨l, hl, he⟩ := List.mem_flatten.mp h
  exact List.eq_of_mem_replicate hl ▸ he

theorem stayingLoop_events {e : Event} (h : e ∈ stayingLoop c vid p) :
    e = interval vid ∨ e = found vid p := by
  have hwaiting : e ∈ waiting c vid → e = interval vid := fun h => List.mem_singleton.mp (mem_times h)
  have hround : e ∈ round c vid p → e = interval vid ∨ e = found vid p := by
    intro h
    rcases List.mem_append.mp h with h | h
    · exact .inl (hwaiting h)
    · simpa using h
  rcases List.mem_append.mp h with h | h
  · rcases List.mem_append.mp h with h | h
    · rcases List.mem_cons.mp h with rfl | h
      · exact .inr rfl
      · exact hround (mem_times h)
    · exact .inl (hwaiting h)
  · exact .inl (List.mem_singleton.mp h)

/-- None of its frames is from the uplink. -/
theorem stayingLoop_inPlace :
    Along (Watched.step c vid p) (InPlace c vid p) .init (stayingLoop c vid p) := by
  refine along_of ?_ _
  intro t e he hstray
  rcases stayingLoop_events he with rfl | rfl
  · exact hstray.elim
  · exact hstray.elim

/-! ## The bound -/

instance (c : Config) (vid : UInt16) (p : Nat) (t : Watched) (e : Event) :
    Decidable (Bounded c vid p t e) := inferInstanceAs (Decidable (_ ∧ _ ∧ _))

end

end gwdonu.gwd_eth_loop_detect
