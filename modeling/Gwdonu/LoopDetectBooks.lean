-- The command that shuts a port down and the record of it. They are made in
-- different functions, and this is when they agree.
import Gwdonu.LoopDetectWakeup
import Gwdonu.LoopDetectControl

namespace gwdonu.gwd_eth_loop_detect

open Function gwd_port_admin_t runs

/-! ## The calls -/

/-- The interface calls and the alarms succeed; memory may run out, and a VLAN may
have no port map. -/
def Api.steady (malloc : Bool) (vlan : UInt16 → Option (UInt32 × UInt32)) : Api where
  malloc
  set := fun _ => true
  get := fun _ => true
  send := fun _ _ => true
  vlan

/-- The calls of loop detection, and what others do to its flags. -/
inductive Entry where
  | rev (c : Config) (malloc : Bool) (vlan : UInt16 → Option (UInt32 × UInt32)) (session : SessionID)
      (packet : List UInt8) (port : Nat) (vid : UInt16)
  | check (c : Config) (malloc : Bool) (vid : UInt16) (lport : Option Nat)
  | wakeup (c : Config) (session : SessionID) (vid : UInt16)
  | cls (vid : UInt16)
  | report (vid : UInt16) (session : SessionID)
  | reset (c : Config) (force : Bool) (session : SessionID)
  | flags (gulLoopRecFlag gulLoopIgnorePort : Nat → Bool) (timeCounter : Nat)

def Lpb.enter (s : Lpb) : Entry → Lpb
  | .rev c malloc vlan session packet port vid =>
    lpbDetectRevPacketHandle c (.steady malloc vlan) session s packet port vid
  | .check c malloc vid lport =>
    lpbDetectCheckMacTable c (.steady malloc fun _ => none) s vid lport
  | .wakeup c session vid =>
    lpbDetectWakeupPorts c (.steady true fun _ => none) session s vid
  | .cls vid => clsPortLpbStatus s vid
  | .report vid session => reportPortsLpbStatus (.steady true fun _ => none) s vid (some session)
  | .reset c force session => resetLpbPort c (.steady true fun _ => none) s force (some session)
  | .flags gulLoopRecFlag gulLoopIgnorePort timeCounter =>
    { s with gulLoopRecFlag, gulLoopIgnorePort, timeCounter }

/-! ## The books -/

section
variable (s : Lpb)

/-- The last command that loop detection gave to the port. -/
def Lpb.lastCommand (p : Nat) : Option gwd_port_admin_t :=
  ((s.commands.filter fun x => x.1 = p).getLast?).map Prod.snd

/-- A node of the VLAN has the port as shut down. -/
def Lpb.Records (v : UInt16) (p : Nat) : Prop :=
  ∃ n ∈ s.g_lpb_detect_ctrl, n.vid = v ∧ (n.port p).lpbportdown ≠ 0

/-- A port that was told to go down last is on record once, and no other port is. -/
def Lpb.Books : Prop := ∀ p,
  (s.lastCommand p = some PORT_ADMIN_DOWN → ∃! v, s.Records v p) ∧
    ∀ v, s.Records v p → s.lastCommand p = some PORT_ADMIN_DOWN

/-- There is a node of the VLAN, or memory for one. -/
def Lpb.HasNode (malloc : Bool) (v : UInt16) : Prop := v ∈ s.vids ∨ malloc = true

/-- A port of the VLAN that a report looks at is marked. -/
def Lpb.Marks (v : UInt16) : Prop := ∃ i ∈ ports, (s.portOf v i).lpbmask ≠ 0

/-- What a call must find for the books to stay right. -/
def Lpb.Entered : Entry → Prop
  | .rev c malloc vlan _ packet port vid =>
    isLoopFrame packet → s.gulLoopIgnorePort port = false →
      (c.shutsDown → s.lastCommand port ≠ some PORT_ADMIN_DOWN →
        loopPort (.steady malloc vlan) port vid = port ∧ s.HasNode malloc vid ∧
          (port ∈ ports ∨ s.Marks vid)) ∧
      (¬ c.shutsDown → ¬ s.Records vid (loopPort (.steady malloc vlan) port vid))
  | .check c malloc vid (some lport) =>
    boards_port_is_uni lport → s.gulLoopIgnorePort lport = false →
      (c.shutsDown → s.lastCommand lport ≠ some PORT_ADMIN_DOWN → s.HasNode malloc vid) ∧
      (¬ c.shutsDown → ¬ s.Records vid lport)
  | .report vid _ => (∃ p, s.Records vid p) → s.Marks vid
  | _ => True

end

/-! ## What the state keeps -/

/-- A port that is recorded as shut down is marked, and its loop is not gone. -/
def Port.Fit (x : Port) : Prop :=
  x.lpbportdown ≠ 0 → x.lpbportdown = 1 ∧ x.lpbmask = 1 ∧ x.lpbClearCnt = 0

/-- The admin state of a port is what it was last told. -/
def Lpb.Told (s : Lpb) : Prop := ∀ p, s.admin p = (s.lastCommand p).getD PORT_ADMIN_UP

/-- One port, in terms of its admin state. -/
structure Lpb.Booked (s : Lpb) (p : Nat) : Prop where
  fit : ∀ v, (s.portOf v p).Fit
  once : s.admin p = PORT_ADMIN_DOWN → ∃! v, (s.portOf v p).lpbportdown ≠ 0
  down : ∀ v, (s.portOf v p).lpbportdown ≠ 0 → s.admin p = PORT_ADMIN_DOWN

section
variable {c : Config} {a : Api} {s s' : Lpb} {v vid : UInt16} {p i port lport : Nat} {x : Port}
  {b : SessionID} {session : Option SessionID} {malloc : Bool} {body : Body}

theorem portOf_mem (h : s.Distinct) {n : OAM_ONU_LPB_DETECT_CTRL} (hn : n ∈ s.g_lpb_detect_ctrl) :
    s.portOf n.vid p = n.port p := by
  cases hnode : s.getVlanLpbStasNode n.vid with
  | none => exact absurd (List.mem_map.mpr ⟨n, hn, rfl⟩) (find_none_iff.mp hnode)
  | some m =>
    have hm : m ∈ s.g_lpb_detect_ctrl := List.mem_of_find?_eq_some hnode
    obtain rfl : m = n := List.inj_on_of_nodup_map h hm hn (find_vid hnode)
    exact portOf_some hnode

theorem records_iff (h : s.Distinct) : s.Records v p ↔ (s.portOf v p).lpbportdown ≠ 0 := by
  constructor
  · rintro ⟨n, hn, rfl, hd⟩
    rwa [portOf_mem h hn]
  · intro hd
    cases hnode : s.getVlanLpbStasNode v with
    | none =>
      rw [portOf_none hnode] at hd
      exact absurd rfl hd
    | some n =>
      rw [portOf_some hnode] at hd
      exact ⟨n, List.mem_of_find?_eq_some hnode, find_vid hnode, hd⟩

theorem told_iff (h : s.Told) : s.lastCommand p = some PORT_ADMIN_DOWN ↔
    s.admin p = PORT_ADMIN_DOWN := by
  rw [h p]
  cases s.lastCommand p with
  | none => simp
  | some st => simp

theorem books_iff (hd : s.Distinct) (ht : s.Told) (hfit : ∀ p v, (s.portOf v p).Fit) :
    s.Books ↔ ∀ p, s.Booked p := by
  unfold Lpb.Books
  simp only [records_iff hd, told_iff ht]
  exact ⟨fun h p => ⟨hfit p, (h p).1, (h p).2⟩, fun h p => ⟨(h p).once, (h p).down⟩⟩

/-! ## The commands -/

theorem lastCommand_append (st : gwd_port_admin_t) :
    (s.port_admin_set a lport st).1.lastCommand p =
      if p = lport then some st else s.lastCommand p := by
  unfold Lpb.lastCommand
  rw [set_commands, List.filter_append]
  by_cases hp : p = lport
  · subst hp
    simp
  · rw [if_neg hp]
    simp [Ne.symm hp]

theorem set_told (ha : a.set lport = true) (h : s.Told) (st : gwd_port_admin_t) :
    (s.port_admin_set a lport st).1.Told := by
  intro p
  rw [lastCommand_append, set_admin]
  by_cases hp : p = lport
  · simp [hp, ha]
  · simp [hp, h p]

theorem told_congr (hadmin : s'.admin = s.admin) (hcommands : s'.commands = s.commands)
    (h : s.Told) : s'.Told := by
  intro p
  unfold Lpb.lastCommand
  rw [hadmin, hcommands]
  exact h p

/-- A loop over ports keeps what its body keeps, if the list does not matter. -/
theorem forPorts_keeps {P : Lpb → Prop} (hlist : ∀ (s : Lpb) l, P { s with g_lpb_detect_ctrl := l } ↔ P s)
    (h : ∀ s i x, P s → P (body s i x).1) (hs : P s) (v : UInt16) : P (s.forPorts v body) := by
  unfold Lpb.forPorts
  split
  · exact hs
  · rename_i n _
    have hrun : P (run body.turn (s, n.port) ports).1 :=
      run_inv (I := fun q : Lpb × (Nat → Port) => P q.1) (P := fun _ _ => True)
        (fun q i hq _ => h q.1 i (q.2 i) hq) (s := (s, n.port)) hs (along_true _ ports)
    exact (hlist _ _).mpr hrun

theorem wakeup_told (ha : ∀ i, a.set i = true) (h : s.Told) (v : UInt16) :
    (lpbDetectWakeupPorts c a b s v).Told := by
  refine forPorts_keeps (fun _ _ => Iff.rfl) ?_ h v
  intro s i x hs
  have hclear : (clearPort a b v s i x).1.Told := told_congr clear_admin clear_commands hs
  unfold wakeupPort
  dsimp only
  split
  · split
    · exact told_congr (send_admin _ _) (send_commands _ _) (set_told (ha i) hclear _)
    · exact hclear
  · exact hclear

theorem resetPort_told (ha : ∀ i, a.set i = true) (h : s.Told) :
    (resetPort a session v s i x).1.Told := by
  unfold resetPort
  split
  · exact told_congr (send_admin _ _) (send_commands _ _) (set_told (ha i) h _)
  · exact h

theorem resetNodes_told (ha : ∀ i, a.set i = true) (force : Bool) (l : List OAM_ONU_LPB_DETECT_CTRL)
    (h : s.Told) : (resetNodes c a force session s l).1.Told := by
  induction l generalizing s with
  | nil => exact h
  | cons n l ih =>
    unfold resetNodes
    dsimp only
    refine ih ?_
    split
    · have hrun : (run (resetPort a session n.vid).turn (s, n.port) ports).1.Told :=
        run_inv (I := fun q : Lpb × (Nat → Port) => q.1.Told) (P := fun _ _ => True)
          (fun q i hq _ => resetPort_told ha hq) (s := (s, n.port)) h (along_true _ ports)
      exact hrun
    · exact h

/-! ## What a loop over the ports of a node does to one port -/

/-- The port and its admin state stay as they were, or it was shut down, and is not
any more, and is open. -/
def Opens (x y : Port × gwd_port_admin_t) : Prop :=
  x.1.Fit → y.1.Fit ∧ ((y.1.lpbportdown = x.1.lpbportdown ∧ y.2 = x.2) ∨
    (x.1.lpbportdown ≠ 0 ∧ y.1.lpbportdown = 0 ∧ y.2 = PORT_ADMIN_UP))

theorem Opens.refl (x : Port × gwd_port_admin_t) : Opens x x := fun h => ⟨h, .inl ⟨rfl, rfl⟩⟩

theorem Opens.trans (x y z : Port × gwd_port_admin_t) (h : Opens x y) (h' : Opens y z) : Opens x z := by
  intro hfit
  obtain ⟨hy, hxy⟩ := h hfit
  obtain ⟨hz, hyz⟩ := h' hy
  refine ⟨hz, ?_⟩
  rcases hxy with ⟨hdown, hadmin⟩ | ⟨hx, hopen, hup⟩
  · rcases hyz with ⟨hdown', hadmin'⟩ | ⟨hy', hopen', hup'⟩
    · exact .inl ⟨hdown'.trans hdown, hadmin'.trans hadmin⟩
    · exact .inr ⟨hdown ▸ hy', hopen', hup'⟩
  · rcases hyz with ⟨hdown', hadmin'⟩ | ⟨hy', -, -⟩
    · exact .inr ⟨hx, hdown'.trans hopen, hadmin'.trans hup⟩
    · exact absurd hopen hy'

theorem noPort_fit : noPort.Fit := fun h => absurd rfl h

/-- A body that keeps its port, and tells no other port anything. -/
structure OpensOwn (body : Body) : Prop where
  own : ∀ s i x, Opens (x, s.admin i) ((body s i x).2, (body s i x).1.admin i)
  other : ∀ (s : Lpb) i x p, p ≠ i → (body s i x).1.admin p = s.admin p

theorem forPorts_opens (hlocal : Local body) (hbody : OpensOwn body) (v : UInt16) (p : Nat) :
    Opens (s.portOf v p, s.admin p) ((s.forPorts v body).portOf v p, (s.forPorts v body).admin p) := by
  cases h : s.getVlanLpbStasNode v with
  | none =>
    rw [forPorts_none h]
    exact Opens.refl _
  | some n =>
    have hrun : Opens (n.port p, s.admin p) ((run body.turn (s, n.port) ports).2 p,
        (run body.turn (s, n.port) ports).1.admin p) := by
      refine run_rel (v := fun q : Lpb × (Nat → Port) => (q.2 p, q.1.admin p)) Opens.refl Opens.trans
        ?_ (s, n.port) ports
      rintro ⟨s, port⟩ i
      unfold Body.turn
      dsimp only
      by_cases hp : p = i
      · subst hp
        rw [update_self]
        exact hbody.own s p (port p)
      · rw [update_of_ne hp, hbody.other s i _ p hp]
        exact Opens.refl _
    rw [forPorts_self hlocal h, portOf_some h, forPorts_some h]
    exact hrun

/-- What such a loop does to the books of a port. -/
theorem opens_booked (h : s.Booked p) (hother : ∀ u ≠ v, s'.portOf u p = s.portOf u p)
    (hopens : Opens (s.portOf v p, s.admin p) (s'.portOf v p, s'.admin p)) : s'.Booked p := by
  obtain ⟨hfit, hcase⟩ := hopens (h.fit v)
  have hfits : ∀ u, (s'.portOf u p).Fit := by
    intro u
    by_cases hu : u = v
    · exact hu ▸ hfit
    · rw [hother u hu]
      exact h.fit u
  rcases hcase with ⟨hdown, hadmin⟩ | ⟨hshut, hopen, hup⟩
  · have hsame : ∀ u, (s'.portOf u p).lpbportdown = (s.portOf u p).lpbportdown := by
      intro u
      by_cases hu : u = v
      · exact hu ▸ hdown
      · rw [hother u hu]
    refine ⟨hfits, ?_, ?_⟩
    · intro hd
      simp only [hsame]
      exact h.once (hadmin.symm.trans hd)
    · intro u hu
      exact hadmin.trans (h.down u (hsame u ▸ hu))
  · -- the port was on record in this VLAN only
    have hnone : ∀ u, (s'.portOf u p).lpbportdown = 0 := by
      intro u
      by_cases hu : u = v
      · exact hu ▸ hopen
      · rw [hother u hu]
        by_contra hd
        exact hu ((h.once (h.down v hshut)).unique hd hshut)
    refine ⟨hfits, ?_, fun u hu => absurd (hnone u) hu⟩
    intro hd
    have hboth : PORT_ADMIN_UP = PORT_ADMIN_DOWN := hup.symm.trans hd
    cases hboth

theorem forPorts_booked (hlocal : Local body) (hbody : OpensOwn body) (h : s.Booked p) (v : UInt16) :
    (s.forPorts v body).Booked p :=
  opens_booked h (fun _ hu => forPorts_other hlocal (Ne.symm hu)) (forPorts_opens hlocal hbody v p)

/-! ## The bodies -/

theorem cls_opens : OpensOwn clsPort where
  own := by
    intro s i x hfit
    unfold clsPort
    split
    · rename_i h
      refine ⟨?_, .inl ⟨rfl, rfl⟩⟩
      intro hd
      exact absurd (hfit hd).1 h.2.1
    · exact ⟨hfit, .inl ⟨rfl, rfl⟩⟩
  other := by
    intro s i x p _
    unfold clsPort
    split
    · rfl
    · rfl

theorem report_opens : OpensOwn (reportPort a session v) where
  own := by
    intro s i x hfit
    have hreopened : Opens (x, s.admin i) (x.reopened a s i, s.admin i) := by
      unfold Port.reopened
      split
      · rename_i h
        exact fun _ => ⟨fun hd => absurd rfl hd, .inr ⟨h.1, rfl, h.2.2⟩⟩
      · exact Opens.refl _
    unfold reportPort
    dsimp only
    split
    · rw [send_admin]
      exact hreopened hfit
    · exact hreopened hfit
  other := by
    intro s i x p _
    unfold reportPort
    dsimp only
    split
    · rw [send_admin]
    · rfl

theorem wakeup_opens (ha : ∀ i, a.set i = true) : OpensOwn (wakeupPort c a b v) where
  own := by
    intro s i x hfit
    obtain ⟨hport, -, hadmin⟩ :=
      wakeupPort_eq (c := c) (a := a) (b := b) (v := v) (s := s) (i := i) (x := x)
    rw [hport, hadmin i]
    -- the first half of the body does not touch a port that is shut down
    have hclear : x.clear.lpbportdown = x.lpbportdown ∧ x.clear.Fit := by
      unfold Port.clear
      split
      · rename_i hsilent
        refine ⟨rfl, ?_⟩
        intro hd
        have hcnt : 10 ≤ x.lpbClearCnt := hsilent.2
        rw [(hfit hd).2.2] at hcnt
        exact absurd hcnt (by decide)
      · exact ⟨rfl, hfit⟩
    unfold Port.wakeup
    by_cases hdue : x.due c
    · rw [if_pos hdue, if_pos ⟨rfl, hdue, ha i⟩]
      have hd : x.clear.lpbportdown = 1 := hdue.1.1.2.2.symm
      refine ⟨fun h => absurd rfl h, .inr ⟨?_, rfl, rfl⟩⟩
      rw [← hclear.1, hd]
      decide
    · have hstay : ¬ (i = i ∧ x.due c ∧ a.set i = true) := fun h => hdue h.2.1
      rw [if_neg hdue, if_neg hstay]
      split
      · exact ⟨hclear.2, .inl ⟨hclear.1, rfl⟩⟩
      · exact ⟨hclear.2, .inl ⟨hclear.1, rfl⟩⟩
  other := by
    intro s i x p hp
    obtain ⟨-, -, hadmin⟩ :=
      wakeupPort_eq (c := c) (a := a) (b := b) (v := v) (s := s) (i := i) (x := x)
    rw [hadmin p, if_neg (fun h => hp h.1)]

theorem same_booked (h : s.Booked p) (hports : ∀ u, s'.portOf u p = s.portOf u p)
    (hadmin : s'.admin p = s.admin p) : s'.Booked p := by
  refine ⟨?_, ?_, ?_⟩
  · simp only [hports]
    exact h.fit
  · simp only [hports, hadmin]
    exact h.once
  · simp only [hports, hadmin]
    exact h.down

/-- A record that goes while the port stays as it is, is one too few. -/
theorem forget_booked (h : s.Booked p) (hother : ∀ u ≠ v, s'.portOf u p = s.portOf u p)
    (hadmin : s'.admin p = s.admin p) (hzero : (s'.portOf v p).lpbportdown = 0) :
    s'.Booked p ↔ (s.portOf v p).lpbportdown = 0 := by
  constructor
  · intro h'
    by_contra hdown
    obtain ⟨u, hu, -⟩ := h'.once (hadmin.trans (h.down v hdown))
    by_cases huv : u = v
    · exact hu (huv ▸ hzero)
    · rw [hother u huv] at hu
      exact huv ((h.once (h.down v hdown)).unique hu hdown)
  · intro hdown
    refine opens_booked h hother ?_
    exact fun _ => ⟨fun hd => absurd hzero hd, .inl ⟨hzero.trans hdown.symm, hadmin⟩⟩

/-- A port that was open and is shut down is to be on record after that. -/
theorem shut_booked (h : s.Booked p) (hup : s.admin p = PORT_ADMIN_UP)
    (hdown : s'.admin p = PORT_ADMIN_DOWN) (hother : ∀ u ≠ v, s'.portOf u p = s.portOf u p)
    (hfit : (s'.portOf v p).Fit) : s'.Booked p ↔ (s'.portOf v p).lpbportdown ≠ 0 := by
  have hnone : ∀ u, (s.portOf u p).lpbportdown = 0 := by
    intro u
    by_contra hd
    have hboth : PORT_ADMIN_UP = PORT_ADMIN_DOWN := hup.symm.trans (h.down u hd)
    cases hboth
  have honly : ∀ u, (s'.portOf u p).lpbportdown ≠ 0 → u = v := by
    intro u hu
    by_contra huv
    rw [hother u huv] at hu
    exact hu (hnone u)
  constructor
  · intro h'
    obtain ⟨u, hu, -⟩ := h'.once hdown
    exact honly u hu ▸ hu
  · intro hd
    refine ⟨?_, fun _ => ⟨v, hd, honly⟩, fun _ _ => hdown⟩
    intro u
    by_cases huv : u = v
    · exact huv ▸ hfit
    · rw [hother u huv]
      exact h.fit u

/-! ## A report -/

theorem marks_loop : (s.forPorts v (reportPort a session v)).Marks v ↔ s.Marks v := by
  have hmask : ∀ i, ((s.forPorts v (reportPort a session v)).portOf v i).lpbmask =
      (s.portOf v i).lpbmask := fun i =>
    forPorts_port (r := fun x y => y.lpbmask = x.lpbmask) (fun _ => rfl)
      (fun _ _ _ hx hy => hy.trans hx) report_local report_mask v
  unfold Lpb.Marks
  simp only [hmask]

/-- A report deletes the node when none of its ports is marked, and else opens nothing. -/
theorem report_spec (hd : s.Distinct) (v : UInt16) (session : Option SessionID) :
    (∀ u ≠ v, ∀ p, (reportPortsLpbStatus a s v session).portOf u p = s.portOf u p) ∧
    (s.Marks v → ∀ p, Opens (s.portOf v p, s.admin p)
      ((reportPortsLpbStatus a s v session).portOf v p, s.admin p)) ∧
    (¬ s.Marks v → ∀ p, (reportPortsLpbStatus a s v session).portOf v p = noPort) := by
  have hloop : ∀ p, Opens (s.portOf v p, s.admin p)
      ((s.forPorts v (reportPort a session v)).portOf v p, s.admin p) := by
    intro p
    have hopens : Opens (s.portOf v p, s.admin p)
        ((s.forPorts v (reportPort a session v)).portOf v p,
          (s.forPorts v (reportPort a session v)).admin p) :=
      forPorts_opens report_local report_opens v p
    have hadmin : (s.forPorts v (reportPort a session v)).admin = s.admin :=
      forPorts_field (f := Lpb.admin) (fun _ _ => rfl) (fun s i x => by
        unfold reportPort
        dsimp only
        split
        · exact send_admin _ _
        · rfl) s v
    rwa [hadmin] at hopens
  have hother : ∀ u ≠ v, ∀ p, (s.forPorts v (reportPort a session v)).portOf u p = s.portOf u p :=
    fun u hu p => forPorts_other report_local (Ne.symm hu)
  have hdistinct : (s.forPorts v (reportPort a session v)).vids.Nodup := by
    rw [forPorts_vids report_local]
    exact hd
  have hmarks : (s.forPorts v (reportPort a session v)).Marks v ↔ s.Marks v := marks_loop
  unfold reportPortsLpbStatus
  dsimp only
  cases hnode : (s.forPorts v (reportPort a session v)).getVlanLpbStasNode v with
  | none =>
    dsimp only
    exact ⟨hother, fun _ => hloop, fun _ p => portOf_none hnode⟩
  | some n =>
    dsimp only
    by_cases hall : (ports.all fun i => (n.port i).lpbmask = 0) = true
    · have hnot : ¬ s.Marks v := by
        rw [← hmarks]
        rintro ⟨i, hi, hmask⟩
        rw [portOf_some hnode] at hmask
        exact hmask (of_decide_eq_true (List.all_eq_true.mp hall i hi))
      rw [if_pos hall]
      refine ⟨?_, fun h => absurd h hnot, fun _ p => portIn_delete_self hdistinct⟩
      intro u hu p
      rw [Lpb.portOf, portIn_delete_other (Ne.symm hu)]
      exact hother u hu p
    · have hmark : s.Marks v := by
        rw [← hmarks]
        simp only [List.all_eq_true, decide_eq_true_eq, not_forall] at hall
        obtain ⟨i, hi, hmask⟩ := hall
        refine ⟨i, hi, ?_⟩
        rw [portOf_some hnode]
        exact hmask
      rw [if_neg hall]
      exact ⟨hother, fun _ => hloop, fun h => absurd hmark h⟩

/-- After a report a port is on the books unless it was in a node that is gone. -/
theorem report_booked (hd : s.Distinct) (h : s.Booked p) :
    (reportPortsLpbStatus a s v session).Booked p ↔
      ((s.portOf v p).lpbportdown ≠ 0 → s.Marks v) := by
  obtain ⟨hother, hmarked, hgone⟩ := report_spec (a := a) hd v session
  have hadmin : (reportPortsLpbStatus a s v session).admin p = s.admin p :=
    congrFun (report_admin s v session) p
  by_cases hm : s.Marks v
  · refine iff_of_true ?_ (fun _ => hm)
    refine opens_booked h (fun u hu => hother u hu p) ?_
    rw [hadmin]
    exact hmarked hm p
  · have hzero : ((reportPortsLpbStatus a s v session).portOf v p).lpbportdown = 0 := by
      rw [hgone hm p]
      rfl
    rw [forget_booked h (fun u hu => hother u hu p) hadmin hzero]
    exact ⟨fun hdown hshut => absurd hdown hshut, fun hmarks => by_contra fun hdown => hm (hmarks hdown)⟩

/-! ## A reset -/

/-- The port after the body of the loop of a reset. -/
def Port.reopen (x : Port) : Port :=
  if x.lpbportdown = 1 then { x with lpbportdown := 0, lpbmask := 0, lpbClearCnt := 0 } else x

theorem resetPort_snd (ha : ∀ i u, a.send i u = true) :
    (resetPort a (some b) v s i x).2 = x.reopen := by
  unfold resetPort Port.reopen sendOamLpbDetectNotifyMsg
  by_cases h : x.lpbportdown = 1
  · simp [h, ha]
  · simp [h, Ne.symm h]

theorem resetPorts_port (ha : ∀ i u, a.send i u = true) (s : Lpb) (port : Nat → Port) (p : Nat) :
    (run (resetPort a (some b) v).turn (s, port) ports).2 p =
      if p ∈ ports then (port p).reopen else port p := by
  have hother : ∀ (q : Lpb × (Nat → Port)) (i : Nat), i ≠ p →
      ((resetPort a (some b) v).turn q i).2 p = q.2 p := by
    intro q i hi
    rw [Body.turn]
    exact update_of_ne (Ne.symm hi) _ _
  by_cases hp : p ∈ ports
  · have hself : ∀ q : Lpb × (Nat → Port),
        ((resetPort a (some b) v).turn q p).2 p = (q.2 p).reopen := by
      intro q
      rw [Body.turn]
      dsimp only
      rw [update_self, resetPort_snd ha]
    rw [if_pos hp]
    exact view_once (v := fun q : Lpb × (Nat → Port) => q.2 p) hother hself ports_nodup hp (s, port)
  · rw [if_neg hp]
    exact view_none (v := fun q : Lpb × (Nat → Port) => q.2 p) hother hp (s, port)

theorem resetNodes_port (ha : ∀ i u, a.send i u = true) {force : Bool} (hopens : c.opens force = true)
    (l : List OAM_ONU_LPB_DETECT_CTRL) (s : Lpb) :
    portIn (resetNodes c a force (some b) s l).2 v p =
      if p ∈ ports then (portIn l v p).reopen else portIn l v p := by
  induction l generalizing s with
  | nil =>
    have hnone : noPort.reopen = noPort := rfl
    have hnil : portIn [] v p = noPort := rfl
    simp [resetNodes, hnil, hnone]
  | cons n l ih =>
    unfold resetNodes
    dsimp only
    rw [portIn_cons, portIn_cons]
    by_cases hn : n.vid = v
    · rw [if_pos hn, if_pos hn, if_pos hopens]
      exact resetPorts_port ha s n.port p
    · rw [if_neg hn, if_neg hn]
      exact ih _

theorem resetNodes_closed {force : Bool} (hopens : c.opens force = false)
    (l : List OAM_ONU_LPB_DETECT_CTRL) (s : Lpb) : resetNodes c a force session s l = (s, l) := by
  induction l with
  | nil => rfl
  | cons n l ih =>
    unfold resetNodes
    simp only [hopens, ih, Bool.false_eq_true, if_false]

theorem reset_booked (hd : s.Distinct) (ha : ∀ i, a.set i = true) (hsend : ∀ i u, a.send i u = true)
    (h : s.Booked p) (force : Bool) : (resetLpbPort c a s force (some b)).Booked p := by
  cases hopens : c.opens force with
  | false =>
    unfold resetLpbPort
    rw [resetNodes_closed hopens]
    exact ⟨h.fit, h.once, h.down⟩
  | true =>
    have hport : ∀ u, (resetLpbPort c a s force (some b)).portOf u p =
        if p ∈ ports then (s.portOf u p).reopen else s.portOf u p :=
      fun u => resetNodes_port hsend hopens _ s
    have hadmin : (resetLpbPort c a s force (some b)).admin p =
        if p ∈ s.recorded ∧ a.set p = true then PORT_ADMIN_UP else s.admin p :=
      resetNodes_admin hopens _ s p
    have hrecorded : p ∈ s.recorded ↔ p ∈ ports ∧ ∃ u, (s.portOf u p).lpbportdown ≠ 0 := by
      unfold Lpb.recorded
      simp only [List.mem_flatMap, List.mem_filter, decide_eq_true_eq]
      constructor
      · rintro ⟨n, hn, hp, hdown⟩
        exact ⟨hp, n.vid, (records_iff hd).mp ⟨n, hn, rfl, by simp [hdown]⟩⟩
      · rintro ⟨hp, u, hu⟩
        obtain ⟨n, hn, hv, -⟩ := (records_iff hd).mpr hu
        have hdown := (h.fit u hu).1
        rw [← hv, portOf_mem hd hn] at hdown
        exact ⟨n, hn, hp, hdown⟩
    by_cases hmem : p ∈ s.recorded
    · have hup : (resetLpbPort c a s force (some b)).admin p = PORT_ADMIN_UP := by
        rw [hadmin, if_pos ⟨hmem, ha p⟩]
      have hzero : ∀ u, ((resetLpbPort c a s force (some b)).portOf u p).lpbportdown = 0 := by
        intro u
        rw [hport u, if_pos (hrecorded.mp hmem).1]
        unfold Port.reopen
        split
        · rfl
        · rename_i hone
          by_contra hdown
          exact hone (h.fit u hdown).1
      refine ⟨fun u hdown => absurd (hzero u) hdown, ?_, fun u hdown => absurd (hzero u) hdown⟩
      intro hdown
      have hboth : PORT_ADMIN_UP = PORT_ADMIN_DOWN := hup.symm.trans hdown
      cases hboth
    · refine same_booked h ?_ ?_
      · intro u
        rw [hport u]
        split
        · rename_i hp
          unfold Port.reopen
          rw [if_neg]
          intro hone
          exact hmem (hrecorded.mpr ⟨hp, u, by simp [hone]⟩)
        · rfl
      · rw [hadmin, if_neg (fun hopen => hmem hopen.1)]

/-! ## A loop is found -/

/-- A port is marked when there is a node, or memory for one. -/
theorem marked_shut_fit {info : Option ALARM_LOOP} (h : s.HasNode a.malloc v) :
    (s.marked c a v true info p).lpbportdown = 1 ∧ (s.marked c a v true info p).lpbmask = 1 ∧
      (s.marked c a v true info p).lpbClearCnt = 0 := by
  unfold Lpb.marked
  cases hnode : s.getVlanLpbStasNode v with
  | none =>
    rcases h with hvid | hmalloc
    · exact absurd hvid (find_none_iff.mp hnode)
    · rw [hmalloc]
      exact ⟨rfl, rfl, rfl⟩
  | some n =>
    unfold Port.mark
    dsimp only
    rw [if_pos rfl]
    refine ⟨rfl, ?_⟩
    dsimp only
    split_ifs
    · exact ⟨rfl, rfl⟩
    · exact ⟨rfl, rfl⟩
    · exact ⟨rfl, rfl⟩

theorem marked_lost {shutdown : Bool} {info : Option ALARM_LOOP} (h : ¬ s.HasNode a.malloc v) :
    s.marked c a v shutdown info p = noPort := by
  unfold Lpb.HasNode at h
  rw [not_or, ← find_none_iff] at h
  unfold Lpb.marked
  rw [h.1]
  simp [h.2]

theorem marked_open {info : Option ALARM_LOOP} :
    (s.marked c a v false info p).lpbportdown = 0 := by
  unfold Lpb.marked
  cases s.getVlanLpbStasNode v with
  | none =>
    dsimp only
    split
    · rfl
    · rfl
  | some n => rfl

/-- A loop under a policy that shuts nothing down. -/
theorem open_booked {info : Option ALARM_LOOP} (h : ∀ p, s.Booked p) :
    (∀ p, (setPortLpbStatus c a s v lport false info).Booked p) ↔
      (s.portOf v lport).lpbportdown = 0 := by
  have hadmin : ∀ p, (setPortLpbStatus c a s v lport false info).admin p = s.admin p :=
    fun p => congrFun (mark_admin _ _) p
  have hother : ∀ u ≠ v, ∀ p, (setPortLpbStatus c a s v lport false info).portOf u p = s.portOf u p := by
    intro u hu p
    rw [mark_portOf, if_neg (fun hhit => hu hhit.1.symm)]
  have hzero : ((setPortLpbStatus c a s v lport false info).portOf v lport).lpbportdown = 0 := by
    rw [mark_portOf, if_pos ⟨rfl, rfl⟩]
    exact marked_open
  have hport := forget_booked (h lport) (fun u hu => hother u hu lport) (hadmin lport) hzero
  rw [← hport]
  refine ⟨fun hall => hall lport, ?_⟩
  intro hown p
  by_cases hp : p = lport
  · exact hp ▸ hown
  · refine same_booked (h p) ?_ (hadmin p)
    intro u
    rw [mark_portOf, if_neg (fun hhit => hp hhit.2.symm)]

/-- The state after a port was shut down and a port was marked for it. -/
theorem shutMark_booked (info : Option ALARM_LOOP) (h : ∀ p, s.Booked p)
    (hup : s.admin port = PORT_ADMIN_UP) (hset : a.set port = true) :
    (∀ p, (setPortLpbStatus c a (s.port_admin_set a port PORT_ADMIN_DOWN).1 v port true info).Booked p) ↔
      s.HasNode a.malloc v := by
  have hother : ∀ u ≠ v, ∀ p, (setPortLpbStatus c a (s.port_admin_set a port PORT_ADMIN_DOWN).1 v port
      true info).portOf u p = s.portOf u p := by
    intro u hu p
    rw [shut_portOf, if_neg (fun hhit => hu hhit.1.symm)]
  have hown : (setPortLpbStatus c a (s.port_admin_set a port PORT_ADMIN_DOWN).1 v port true
      info).portOf v port = s.marked c a v true info port := by
    rw [shut_portOf, if_pos ⟨rfl, rfl⟩]
  have hdown : (setPortLpbStatus c a (s.port_admin_set a port PORT_ADMIN_DOWN).1 v port true
      info).admin port = PORT_ADMIN_DOWN := by
    rw [shut_admin hset, if_pos rfl]
  have hfit : (s.marked c a v true info port).Fit := by
    by_cases hnode : s.HasNode a.malloc v
    · exact fun _ => marked_shut_fit hnode
    · rw [marked_lost hnode]
      exact noPort_fit
  have hport := shut_booked (h port) hup hdown (fun u hu => hother u hu port) (hown ▸ hfit)
  rw [hown] at hport
  constructor
  · intro hall
    by_contra hnode
    have hrecord := hport.mp (hall port)
    rw [marked_lost hnode] at hrecord
    exact hrecord rfl
  · intro hnode p
    by_cases hp : p = port
    · rw [hp, hport, (marked_shut_fit hnode).1]
      decide
    · refine same_booked (h p) ?_ ?_
      · intro u
        rw [shut_portOf, if_neg (fun hhit => hp hhit.2.symm)]
      · rw [shut_admin hset, if_neg hp]

/-- A loop frame, when the port that it came in on is open. -/
theorem revShut_booked (info : Option ALARM_LOOP) (hd : s.Distinct) (h : ∀ p, s.Booked p)
    (hup : s.admin port = PORT_ADMIN_UP) (hset : a.set port = true) :
    (∀ p, (reportPortsLpbStatus a (setPortLpbStatus c a (s.port_admin_set a port PORT_ADMIN_DOWN).1 v
        lport true info) v session).Booked p) ↔
      lport = port ∧ s.HasNode a.malloc v ∧ (port ∈ ports ∨ s.Marks v) := by
  obtain ⟨s₁, hs₁⟩ : ∃ s₁, s₁ = setPortLpbStatus c a (s.port_admin_set a port PORT_ADMIN_DOWN).1 v
    lport true info := ⟨_, rfl⟩
  have hd₁ : s₁.Distinct := by
    rw [hs₁]
    exact mark_distinct (s := (s.port_admin_set a port PORT_ADMIN_DOWN).1) hd true info
  have hadmin : (reportPortsLpbStatus a s₁ v session).admin port = PORT_ADMIN_DOWN := by
    rw [report_admin, hs₁, shut_admin hset, if_pos rfl]
  -- a port that is not on record before the report is not on record behind it
  have hlost : (s₁.portOf v port).lpbportdown = 0 →
      ¬ (reportPortsLpbStatus a s₁ v session).Booked port := by
    obtain ⟨hother, hmarked, hgone⟩ := report_spec (a := a) hd₁ v session
    intro hzero hbooked
    obtain ⟨u, hu, -⟩ := hbooked.once hadmin
    by_cases huv : u = v
    · subst huv
      by_cases hm : s₁.Marks u
      · obtain ⟨-, ⟨hsame, -⟩ | ⟨hshut, -⟩⟩ := hmarked hm port (fun hdown => absurd hzero hdown)
        · exact hu (hsame.trans hzero)
        · exact hshut hzero
      · rw [hgone hm port] at hu
        exact hu rfl
    · rw [hother u huv port, hs₁, shut_portOf, if_neg (fun hhit => huv hhit.1.symm)] at hu
      have hboth : PORT_ADMIN_UP = PORT_ADMIN_DOWN := hup.symm.trans ((h port).down u hu)
      cases hboth
  rw [← hs₁]
  by_cases hport : lport = port
  · subst hport
    by_cases hnode : s.HasNode a.malloc v
    · have hb₁ : ∀ p, s₁.Booked p := by
        rw [hs₁]
        exact (shutMark_booked info h hup hset).mpr hnode
      have hown : s₁.portOf v lport = s.marked c a v true info lport := by
        rw [hs₁, shut_portOf, if_pos ⟨rfl, rfl⟩]
      have hmarks : s₁.Marks v ↔ lport ∈ ports ∨ s.Marks v := by
        have hother : ∀ i ≠ lport, s₁.portOf v i = s.portOf v i := by
          intro i hi
          rw [hs₁, shut_portOf, if_neg (fun hhit => hi hhit.2.symm)]
        constructor
        · rintro ⟨i, hi, hmask⟩
          by_cases hil : i = lport
          · exact .inl (hil ▸ hi)
          · exact .inr ⟨i, hi, hother i hil ▸ hmask⟩
        · intro hmark
          by_cases hin : lport ∈ ports
          · refine ⟨lport, hin, ?_⟩
            rw [hown, (marked_shut_fit hnode).2.1]
            decide
          · obtain ⟨i, hi, hmask⟩ := hmark.resolve_left hin
            have hil : i ≠ lport := fun hil => hin (hil ▸ hi)
            exact ⟨i, hi, (hother i hil).symm ▸ hmask⟩
      simp only [report_booked hd₁ (hb₁ _), true_and]
      rw [← hmarks]
      refine ⟨fun hall => ⟨hnode, hall lport ?_⟩, fun hmark _ _ => hmark.2⟩
      rw [hown, (marked_shut_fit hnode).1]
      decide
    · refine iff_of_false ?_ (fun hall => hnode hall.2.1)
      intro hall
      refine hlost ?_ (hall lport)
      rw [hs₁, shut_portOf, if_pos ⟨rfl, rfl⟩, marked_lost hnode]
      rfl
  · refine iff_of_false ?_ (fun hall => hport hall.1)
    intro hall
    refine hlost ?_ (hall port)
    rw [hs₁, shut_portOf, if_neg (fun hhit => hport hhit.2)]
    by_contra hdown
    have hboth : PORT_ADMIN_UP = PORT_ADMIN_DOWN := hup.symm.trans ((h port).down v hdown)
    cases hboth

/-! ## Every call -/

/-- What every call keeps, as long as the books are right. -/
structure Lpb.Orderly (s : Lpb) : Prop where
  distinct : s.Distinct
  told : s.Told
  booked : ∀ p, s.Booked p

theorem init_orderly : Lpb.init.Orderly where
  distinct := List.nodup_nil
  told := fun _ => rfl
  booked := fun _ => ⟨fun _ => noPort_fit, fun h => gwd_port_admin_t.noConfusion h, fun _ h => absurd rfl h⟩

theorem steady_set (vlan : UInt16 → Option (UInt32 × UInt32)) (i : Nat) :
    (Api.steady malloc vlan).set i = true := rfl

theorem mark_told {shutdown : Bool} {info : Option ALARM_LOOP} (h : s.Told) :
    (setPortLpbStatus c a s v lport shutdown info).Told :=
  told_congr (mark_admin _ _) (mark_commands _ _) h

theorem enter_distinct (hd : s.Distinct) (e : Entry) : (s.enter e).Distinct := by
  cases e with
  | rev c malloc vlan session packet port vid => exact rev_distinct hd packet port vid
  | check c malloc vid lport => exact check_distinct hd vid lport
  | wakeup c session vid => exact wakeup_distinct hd vid
  | cls vid => exact cls_distinct hd vid
  | report vid session => exact report_distinct hd vid
  | reset c force session => exact reset_distinct hd force
  | flags rec ignore timer => exact hd

theorem enter_told (h : s.Told) (e : Entry) : (s.enter e).Told := by
  cases e with
  | rev c malloc vlan session packet port vid =>
    unfold Lpb.enter lpbDetectRevPacketHandle
    dsimp only
    split_ifs
    · exact h
    · exact told_congr (report_admin _ _ _) report_commands (mark_told (set_told rfl h _))
    · exact set_told rfl h _
    · exact h
    · exact mark_told h
  | check c malloc vid lport =>
    have hcls : (clsPortLpbStatus s vid).Told := told_congr (cls_admin s vid) cls_commands h
    dsimp only [Lpb.enter]
    unfold lpbDetectCheckMacTable
    cases lport with
    | none => exact hcls
    | some lport =>
      dsimp only
      split_ifs
      · exact h
      · exact mark_told (set_told rfl h _)
      · exact set_told rfl h _
      · exact h
      · exact mark_told h
      · exact hcls
  | wakeup c session vid => exact wakeup_told (steady_set _) h vid
  | cls vid => exact told_congr (cls_admin s vid) cls_commands h
  | report vid session => exact told_congr (report_admin s vid _) report_commands h
  | reset c force session => exact resetNodes_told (steady_set _) force _ h
  | flags rec ignore timer => exact h

/-! ## What a record looks like, whatever is called -/

theorem mark_fit {shutdown : Bool} {info : Option ALARM_LOOP} (h : ∀ u q, (s.portOf u q).Fit)
    (u : UInt16) (q : Nat) : ((setPortLpbStatus c a s v lport shutdown info).portOf u q).Fit := by
  rw [mark_portOf]
  split
  · cases shutdown with
    | false => exact fun hd => absurd marked_open hd
    | true =>
      by_cases hnode : s.HasNode a.malloc u
      · exact fun _ => marked_shut_fit hnode
      · rw [marked_lost hnode]
        exact noPort_fit
  · exact h u q

theorem forPorts_fit (hlocal : Local body) (hbody : OpensOwn body) (h : ∀ u q, (s.portOf u q).Fit)
    (v u : UInt16) (q : Nat) : ((s.forPorts v body).portOf u q).Fit := by
  by_cases hu : u = v
  · subst hu
    exact (forPorts_opens hlocal hbody u q (h u q)).1
  · rw [forPorts_other hlocal (Ne.symm hu)]
    exact h u q

theorem report_fit (hd : s.Distinct) (h : ∀ u q, (s.portOf u q).Fit) (v : UInt16)
    (session : Option SessionID) (u : UInt16) (q : Nat) :
    ((reportPortsLpbStatus a s v session).portOf u q).Fit := by
  obtain ⟨hother, hmarked, hgone⟩ := report_spec (a := a) hd v session
  by_cases hu : u = v
  · subst hu
    by_cases hm : s.Marks u
    · exact (hmarked hm q (h u q)).1
    · rw [hgone hm q]
      exact noPort_fit
  · rw [hother u hu q]
    exact h u q

theorem reset_fit (hsend : ∀ i u, a.send i u = true) (h : ∀ u q, (s.portOf u q).Fit) (force : Bool)
    (u : UInt16) (q : Nat) : ((resetLpbPort c a s force (some b)).portOf u q).Fit := by
  unfold resetLpbPort
  cases hopens : c.opens force with
  | false =>
    rw [resetNodes_closed hopens]
    exact h u q
  | true =>
    unfold Lpb.portOf
    dsimp only
    rw [resetNodes_port hsend hopens]
    split
    · unfold Port.reopen
      split
      · exact fun hd => absurd rfl hd
      · exact h u q
    · exact h u q

theorem enter_fit (hd : s.Distinct) (h : ∀ u q, (s.portOf u q).Fit) (e : Entry) (u : UInt16) (q : Nat) :
    ((s.enter e).portOf u q).Fit := by
  cases e with
  | rev c malloc vlan session packet port vid =>
    dsimp only [Lpb.enter]
    unfold lpbDetectRevPacketHandle
    dsimp only [Lpb.port_admin_set]
    split_ifs
    · exact h u q
    · refine report_fit ?_ ?_ vid _ u q
      · apply mark_distinct
        exact hd
      · apply mark_fit
        exact h
    · exact h u q
    · exact h u q
    · apply mark_fit
      exact h
  | check c malloc vid lport =>
    dsimp only [Lpb.enter]
    unfold lpbDetectCheckMacTable
    cases lport with
    | none => exact forPorts_fit cls_local cls_opens h vid u q
    | some lport =>
      dsimp only [Lpb.port_admin_set]
      split_ifs
      · exact h u q
      · apply mark_fit
        exact h
      · exact h u q
      · exact h u q
      · apply mark_fit
        exact h
      · exact forPorts_fit cls_local cls_opens h vid u q
  | wakeup c session vid =>
    exact forPorts_fit wakeup_local (wakeup_opens (steady_set _)) h vid u q
  | cls vid => exact forPorts_fit cls_local cls_opens h vid u q
  | report vid session => exact report_fit hd h vid _ u q
  | reset c force session => exact reset_fit (fun _ _ => rfl) h force u q
  | flags rec ignore timer => exact h u q

/-! ## The books after a call -/

theorem told_up (h : s.Told) : s.lastCommand p ≠ some PORT_ADMIN_DOWN ↔ s.admin p = PORT_ADMIN_UP := by
  rw [Ne, told_iff h]
  cases s.admin p with
  | PORT_ADMIN_DOWN => simp
  | PORT_ADMIN_UP => simp

theorem not_records (h : s.Distinct) : ¬ s.Records v p ↔ (s.portOf v p).lpbportdown = 0 := by
  rw [records_iff h, not_not]

theorem cls_booked (h : s.Booked p) (v : UInt16) : (clsPortLpbStatus s v).Booked p :=
  forPorts_booked cls_local cls_opens h v

theorem check_entered (h : s.Orderly) (lport : Option Nat) :
    (∀ p, (s.enter (.check c malloc v lport)).Booked p) ↔ s.Entered (.check c malloc v lport) := by
  dsimp only [Lpb.enter]
  unfold lpbDetectCheckMacTable
  cases lport with
  | none => exact iff_of_true (fun p => cls_booked (h.booked p) v) trivial
  | some lport =>
    dsimp only [Lpb.Entered, Lpb.port_admin_set]
    rw [told_up h.told, not_records h.distinct]
    by_cases huni : boards_port_is_uni lport
    · rw [if_pos huni]
      by_cases hignore : s.gulLoopIgnorePort lport = true
      · rw [if_pos hignore]
        simpa [huni, hignore] using h.booked
      · rw [if_neg hignore]
        rw [Bool.not_eq_true] at hignore
        by_cases hpolicy : c.shutsDown
        · rw [if_pos hpolicy]
          by_cases hup : s.admin lport = PORT_ADMIN_UP
          · rw [if_pos hup, if_pos (steady_set _ lport)]
            refine (shutMark_booked none h.booked hup rfl).trans ?_
            simp [huni, hignore, hpolicy, hup, Api.steady]
          · rw [if_neg hup]
            simpa [huni, hignore, hpolicy, hup] using h.booked
        · rw [if_neg hpolicy]
          refine (open_booked h.booked).trans ?_
          simp [huni, hignore, hpolicy]
    · rw [if_neg huni]
      simpa [huni] using fun p => cls_booked (h.booked p) v

/-- Flags do not matter. -/
theorem flags_booked {f : Nat → Bool} : ({ s with gulLoopRecFlag := f } : Lpb).Booked p ↔ s.Booked p :=
  ⟨fun h => ⟨h.fit, h.once, h.down⟩, fun h => ⟨h.fit, h.once, h.down⟩⟩

theorem rev_entered (h : s.Orderly) {vlan : UInt16 → Option (UInt32 × UInt32)} (packet : List UInt8) :
    (∀ p, (s.enter (.rev c malloc vlan b packet port v)).Booked p) ↔
      s.Entered (.rev c malloc vlan b packet port v) := by
  dsimp only [Lpb.enter, Lpb.Entered]
  rw [told_up h.told, not_records h.distinct]
  unfold lpbDetectRevPacketHandle
  dsimp only [Lpb.port_admin_set]
  obtain ⟨f, hf⟩ : ∃ f, f = update s.gulLoopRecFlag (loopPort (.steady malloc vlan) port v) true :=
    ⟨_, rfl⟩
  have hbooked : ∀ p, ({ s with gulLoopRecFlag := f } : Lpb).Booked p :=
    fun p => flags_booked.mpr (h.booked p)
  rw [← hf]
  by_cases hskip : ¬ isLoopFrame packet ∨ s.gulLoopIgnorePort port = true
  · rw [if_pos hskip]
    refine iff_of_true h.booked ?_
    intro hframe hlisten
    rcases hskip with hnot | hignore
    · exact absurd hframe hnot
    · rw [hlisten] at hignore
      cases hignore
  · rw [if_neg hskip]
    rw [not_or, not_not, Bool.not_eq_true] at hskip
    by_cases hpolicy : c.shutsDown
    · rw [if_pos hpolicy]
      by_cases hup : s.admin port = PORT_ADMIN_UP
      · rw [if_pos hup, if_pos (steady_set _ port)]
        have hdistinct : ({ s with gulLoopRecFlag := f } : Lpb).Distinct := h.distinct
        refine (revShut_booked (some (revAlarm packet)) hdistinct hbooked hup rfl).trans ?_
        simp [hskip, hpolicy, hup, Api.steady, Lpb.HasNode, Lpb.Marks, Lpb.vids, Lpb.portOf]
      · rw [if_neg hup]
        simpa [hskip, hpolicy, hup] using hbooked
    · rw [if_neg hpolicy]
      refine (open_booked hbooked).trans ?_
      simp [hskip, hpolicy, Lpb.portOf]

theorem enter_booked (h : s.Orderly) (e : Entry) : (∀ p, (s.enter e).Booked p) ↔ s.Entered e := by
  cases e with
  | rev c malloc vlan session packet port vid => exact rev_entered h packet
  | check c malloc vid lport => exact check_entered h lport
  | wakeup c session vid =>
    exact iff_of_true (fun p => forPorts_booked wakeup_local (wakeup_opens (steady_set _))
      (h.booked p) vid) trivial
  | cls vid => exact iff_of_true (fun p => cls_booked (h.booked p) vid) trivial
  | report vid session =>
    unfold Lpb.enter Lpb.Entered
    dsimp only
    simp only [report_booked h.distinct (h.booked _), records_iff h.distinct]
    exact ⟨fun hall hex => hex.elim hall, fun hall p hp => hall ⟨p, hp⟩⟩
  | reset c force session =>
    exact iff_of_true (fun p => reset_booked h.distinct (steady_set _) (fun _ _ => rfl)
      (h.booked p) force) trivial
  | flags rec ignore timer =>
    exact iff_of_true (fun p => ⟨(h.booked p).fit, (h.booked p).once, (h.booked p).down⟩) trivial

theorem enter_books (h : s.Orderly) (e : Entry) : (s.enter e).Books ↔ s.Entered e := by
  rw [← enter_booked h e]
  exact books_iff (enter_distinct h.distinct e) (enter_told h.told e)
    (fun p v => enter_fit h.distinct (fun u q => (h.booked q).fit u) e v p)

theorem enter_orderly (h : s.Orderly) {e : Entry} (he : s.Entered e) : (s.enter e).Orderly :=
  ⟨enter_distinct h.distinct e, enter_told h.told e, (enter_booked h e).mpr he⟩

/-- The books are right after every call of a run if and only if every call finds
what it needs to enter what it does. -/
theorem a_port_is_shut_down_on_the_books (es : List Entry) :
    Along Lpb.enter (fun s e => (s.enter e).Books) .init es ↔ Along Lpb.enter Lpb.Entered .init es :=
  along_iff_along (I := Lpb.Orderly) (fun _ _ h he => enter_orderly h he)
    (fun _ e h => enter_books h e) init_orderly es

/-- A port that went down and is in no node. -/
theorem lost_books (hdown : s.lastCommand p = some PORT_ADMIN_DOWN)
    (hnone : ∀ n ∈ s.g_lpb_detect_ctrl, (n.port p).lpbportdown = 0) : ¬ s.Books := by
  intro h
  obtain ⟨v, ⟨n, hn, -, hd⟩, -⟩ := (h p).1 hdown
  exact hd (hnone n hn)

/-- A loop frame on the uplink shuts port 26 down and puts port 1 on record; there
is no memory for the node of port 3; and port 3 is found again under a policy that
shuts nothing down. -/
theorem a_port_is_shut_down_off_the_books :
    let c : UInt16 → Config := fun policy => ⟨⟨1, 0, policy, 3, 3⟩, ⟨0, 0, 1, 3, 3⟩⟩
    let frame : Entry := .rev (c 1) true (fun _ => some (1, 0)) (.replicate 8 0)
      (List.replicate 14 0 ++ [0x00, 0x80]) 26 1
    let bad : List Entry → Prop := fun es =>
      ¬ Along Lpb.enter (fun s e => (s.enter e).Books) .init es
    bad [frame] ∧ bad [.check (c 1) false 1 (some 3)] ∧
      bad [.check (c 1) true 1 (some 3), .check (c 0) true 1 (some 3)] := by
  intro c frame bad
  refine ⟨?_, ?_, ?_⟩
  · rintro ⟨h, -⟩
    exact lost_books (p := 26) (by decide) (by decide) h
  · rintro ⟨h, -⟩
    exact lost_books (p := 3) (by decide) (by decide) h
  · rintro ⟨-, h, -⟩
    exact lost_books (p := 3) (by decide) (by decide) h

end

end gwdonu.gwd_eth_loop_detect
