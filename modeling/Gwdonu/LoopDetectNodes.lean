-- One port of one VLAN: what each call of loop detection does to its node and
-- to its admin state.
import Gwdonu.LoopDetectPolicy
import Gwdonu.Lib.Runs

namespace gwdonu.gwd_eth_loop_detect

open Function gwd_port_admin_t runs

/-! ## The nodes -/

/-- What the node of a VLAN says of a port; nothing, if there is no node. -/
def portIn (l : List OAM_ONU_LPB_DETECT_CTRL) (vid : UInt16) (p : Nat) : Port :=
  ((l.find? fun n => n.vid = vid).map fun n => n.port p).getD noPort

def Lpb.portOf (s : Lpb) (vid : UInt16) (p : Nat) : Port := portIn s.g_lpb_detect_ctrl vid p

def Lpb.vids (s : Lpb) : List UInt16 := s.g_lpb_detect_ctrl.map fun n => n.vid

section
variable {c : Config} {a : Api} {s : Lpb} {vid v : UInt16} {session : Option SessionID}
  {port : Nat → Port} {i p lport : Nat} {l : List OAM_ONU_LPB_DETECT_CTRL}

theorem find_vid {n : OAM_ONU_LPB_DETECT_CTRL} (h : s.getVlanLpbStasNode v = some n) : n.vid = v := by
  have hn := List.find?_some (p := fun n : OAM_ONU_LPB_DETECT_CTRL => decide (n.vid = v)) h
  simpa using hn

theorem find_none_iff : s.getVlanLpbStasNode v = none ↔ v ∉ s.vids := by
  unfold Lpb.getVlanLpbStasNode Lpb.vids
  simp [List.find?_eq_none]

@[simp] theorem writeNode_vids : (writeNode v port l).map (fun n => n.vid) = l.map fun n => n.vid := by
  induction l with
  | nil => rfl
  | cons n l ih =>
    unfold writeNode
    split
    · rfl
    · rw [List.map_cons, List.map_cons, ih]

theorem find_write_self :
    (writeNode v port l).find? (fun n => n.vid = v) =
      (l.find? fun n => n.vid = v).map fun n => { n with port } := by
  induction l with
  | nil => rfl
  | cons n l ih =>
    unfold writeNode
    by_cases h : n.vid = v
    · rw [if_pos h, List.find?_cons_of_pos (by simpa using h), List.find?_cons_of_pos (by simpa using h)]
      rfl
    · rw [if_neg h, List.find?_cons_of_neg (by simpa using h), List.find?_cons_of_neg (by simpa using h),
        ih]

theorem find_write_other (hv : v ≠ vid) :
    (writeNode v port l).find? (fun n => n.vid = vid) = l.find? fun n => n.vid = vid := by
  induction l with
  | nil => rfl
  | cons n l ih =>
    unfold writeNode
    by_cases h : n.vid = v
    · have hne : n.vid ≠ vid := fun h' => hv (h.symm.trans h')
      rw [if_pos h, List.find?_cons_of_neg (by simpa using hne),
        List.find?_cons_of_neg (by simpa using hne)]
    · rw [if_neg h]
      by_cases h' : n.vid = vid
      · rw [List.find?_cons_of_pos (by simpa using h'), List.find?_cons_of_pos (by simpa using h')]
      · rw [List.find?_cons_of_neg (by simpa using h'), List.find?_cons_of_neg (by simpa using h'), ih]

theorem delete_sublist : (deleteLpbStatsNode v l).Sublist l := by
  induction l with
  | nil => exact List.Sublist.slnil
  | cons n l ih =>
    unfold deleteLpbStatsNode
    split
    · exact List.sublist_cons_self n l
    · exact ih.cons_cons n

theorem find_delete_self (h : (l.map fun n => n.vid).Nodup) :
    (deleteLpbStatsNode v l).find? (fun n => n.vid = v) = none := by
  induction l with
  | nil => rfl
  | cons n l ih =>
    rw [List.map_cons, List.nodup_cons] at h
    unfold deleteLpbStatsNode
    by_cases hn : n.vid = v
    · rw [if_pos hn, List.find?_eq_none]
      intro m hm heq
      apply h.1
      rw [hn, ← of_decide_eq_true heq]
      exact List.mem_map_of_mem hm
    · rw [if_neg hn, List.find?_cons_of_neg (by simpa using hn), ih h.2]

theorem find_delete_other (hv : v ≠ vid) :
    (deleteLpbStatsNode v l).find? (fun n => n.vid = vid) = l.find? fun n => n.vid = vid := by
  induction l with
  | nil => rfl
  | cons n l ih =>
    unfold deleteLpbStatsNode
    by_cases h : n.vid = v
    · have hne : n.vid ≠ vid := fun h' => hv (h.symm.trans h')
      rw [if_pos h, List.find?_cons_of_neg (by simpa using hne)]
    · rw [if_neg h]
      by_cases h' : n.vid = vid
      · rw [List.find?_cons_of_pos (by simpa using h'), List.find?_cons_of_pos (by simpa using h')]
      · rw [List.find?_cons_of_neg (by simpa using h'), List.find?_cons_of_neg (by simpa using h'), ih]

/-! ## Loops over the ports -/

theorem portOf_some {n : OAM_ONU_LPB_DETECT_CTRL} (h : s.getVlanLpbStasNode vid = some n) :
    s.portOf vid p = n.port p := by
  rw [Lpb.portOf, portIn, show s.g_lpb_detect_ctrl.find? (fun n => n.vid = vid) = some n from h]
  rfl

theorem portOf_none (h : s.getVlanLpbStasNode vid = none) : s.portOf vid p = noPort := by
  rw [Lpb.portOf, portIn, show s.g_lpb_detect_ctrl.find? (fun n => n.vid = vid) = none from h]
  rfl

theorem portIn_cons (n : OAM_ONU_LPB_DETECT_CTRL) (l : List OAM_ONU_LPB_DETECT_CTRL) :
    portIn (n :: l) vid p = if n.vid = vid then n.port p else portIn l vid p := by
  unfold portIn
  by_cases h : n.vid = vid
  · rw [if_pos h, List.find?_cons_of_pos (by simpa using h)]
    rfl
  · rw [if_neg h, List.find?_cons_of_neg (by simpa using h)]

theorem portIn_delete_self (h : (l.map fun n => n.vid).Nodup) :
    portIn (deleteLpbStatsNode vid l) vid p = noPort := by
  rw [portIn, find_delete_self h]
  rfl

theorem portIn_delete_other (hv : v ≠ vid) :
    portIn (deleteLpbStatsNode v l) vid p = portIn l vid p := by
  rw [portIn, portIn, find_delete_other hv]

theorem portIn_write_other (hv : v ≠ vid) : portIn (writeNode v port l) vid p = portIn l vid p := by
  rw [portIn, portIn, find_write_other hv]

/-- A body that leaves the list to the loop. -/
def Local (body : Body) : Prop :=
  ∀ s i p, (body s i p).1.g_lpb_detect_ctrl = s.g_lpb_detect_ctrl

variable {body : Body}

theorem run_local (hbody : Local body) (q : Lpb × (Nat → Port)) (l : List Nat) :
    (run body.turn q l).1.g_lpb_detect_ctrl = q.1.g_lpb_detect_ctrl :=
  run_rel (v := fun q : Lpb × (Nat → Port) => q.1.g_lpb_detect_ctrl) (r := fun x y => y = x)
    (fun _ => rfl) (fun _ _ _ hx hy => hy.trans hx) (fun q i => hbody q.1 i _) q l

theorem forPorts_none (h : s.getVlanLpbStasNode v = none) : s.forPorts v body = s := by
  rw [Lpb.forPorts, h]

theorem forPorts_some {n : OAM_ONU_LPB_DETECT_CTRL} (h : s.getVlanLpbStasNode v = some n) :
    s.forPorts v body = { (run body.turn (s, n.port) ports).1 with
      g_lpb_detect_ctrl := writeNode v (run body.turn (s, n.port) ports).2
        (run body.turn (s, n.port) ports).1.g_lpb_detect_ctrl } := by
  rw [Lpb.forPorts, h]
  rfl

theorem forPorts_vids (hbody : Local body) : (s.forPorts v body).vids = s.vids := by
  cases h : s.getVlanLpbStasNode v with
  | none => rw [forPorts_none h]
  | some n =>
    rw [forPorts_some h, Lpb.vids, writeNode_vids, run_local hbody]
    rfl

/-- A loop over the ports of the node of the VLAN. -/
theorem forPorts_self (hbody : Local body) {n : OAM_ONU_LPB_DETECT_CTRL}
    (h : s.getVlanLpbStasNode vid = some n) :
    (s.forPorts vid body).portOf vid p = (run body.turn (s, n.port) ports).2 p := by
  have hfind : (s.forPorts vid body).getVlanLpbStasNode vid =
      some { n with port := (run body.turn (s, n.port) ports).2 } := by
    rw [forPorts_some h, Lpb.getVlanLpbStasNode, find_write_self, run_local hbody]
    rw [show s.g_lpb_detect_ctrl.find? (fun n => n.vid = vid) = some n from h]
    rfl
  exact portOf_some hfind

/-- A loop over the ports of another VLAN. -/
theorem forPorts_other (hbody : Local body) (hv : v ≠ vid) :
    (s.forPorts v body).portOf vid p = s.portOf vid p := by
  cases h : s.getVlanLpbStasNode v with
  | none => rw [forPorts_none h]
  | some n =>
    rw [forPorts_some h, Lpb.portOf, portIn_write_other hv, run_local hbody]
    rfl

/-! ## What leaves a port alone -/

/-- The port is not shut down, and its wake-ups are as they were. -/
structure Quiet (x x' : Port) : Prop where
  counter : x'.lpbportwakeupcounter = x.lpbportwakeupcounter
  slp : x'.slpcounter = x.slpcounter
  down : x'.lpbportdown = 1 → x.lpbportdown = 1

theorem Quiet.refl (x : Port) : Quiet x x := ⟨rfl, rfl, id⟩

theorem Quiet.trans (x y z : Port) (h : Quiet x y) (h' : Quiet y z) : Quiet x z :=
  ⟨h'.counter.trans h.counter, h'.slp.trans h.slp, fun hd => h.down (h'.down hd)⟩

def QuietBody (body : Body) : Prop := ∀ s i p, Quiet p (body s i p).2

variable {r : Port → Port → Prop}

/-- A loop over the ports of a node keeps what each turn keeps. -/
theorem run_port (hrefl : ∀ x, r x x) (htrans : ∀ x y z, r x y → r y z → r x z)
    (hbody : ∀ s i p, r p (body s i p).2) (q : Lpb × (Nat → Port)) (l : List Nat) (p : Nat) :
    r (q.2 p) ((run body.turn q l).2 p) := by
  refine run_rel (v := fun q : Lpb × (Nat → Port) => q.2 p) hrefl htrans ?_ q l
  rintro ⟨s, port⟩ i
  rw [Body.turn]
  dsimp only
  by_cases hp : p = i
  · subst hp
    rw [update_self]
    exact hbody s p (port p)
  · rw [update_of_ne hp]
    exact hrefl _

/-- And so does a loop over the ports of some VLAN. -/
theorem forPorts_port (hrefl : ∀ x, r x x) (htrans : ∀ x y z, r x y → r y z → r x z)
    (hlocal : Local body) (hbody : ∀ s i p, r p (body s i p).2) (v : UInt16) :
    r (s.portOf vid p) ((s.forPorts v body).portOf vid p) := by
  cases h : s.getVlanLpbStasNode v with
  | none =>
    rw [forPorts_none h]
    exact hrefl _
  | some n =>
    by_cases hv : v = vid
    · subst hv
      rw [forPorts_self hlocal h, portOf_some h]
      exact run_port hrefl htrans hbody (s, n.port) ports p
    · rw [forPorts_other hlocal hv]
      exact hrefl _

theorem forPorts_quiet (hlocal : Local body) (hquiet : QuietBody body) (v : UInt16) :
    Quiet (s.portOf vid p) ((s.forPorts v body).portOf vid p) :=
  forPorts_port Quiet.refl Quiet.trans hlocal hquiet v

/-! ## The bodies -/

@[simp] theorem send_ctrl (state : UInt8) (info : ALARM_LOOP) :
    (sendOamLpbDetectNotifyMsg a s lport state v session info).1.g_lpb_detect_ctrl =
      s.g_lpb_detect_ctrl := by
  unfold sendOamLpbDetectNotifyMsg
  split
  · rfl
  · rfl

@[simp] theorem send_admin (state : UInt8) (info : ALARM_LOOP) :
    (sendOamLpbDetectNotifyMsg a s lport state v session info).1.admin = s.admin := by
  unfold sendOamLpbDetectNotifyMsg
  split
  · rfl
  · rfl

@[simp] theorem set_ctrl (st : gwd_port_admin_t) :
    (s.port_admin_set a lport st).1.g_lpb_detect_ctrl = s.g_lpb_detect_ctrl := rfl

theorem set_admin (st : gwd_port_admin_t) (p : Nat) : (s.port_admin_set a lport st).1.admin p =
    if p = lport ∧ a.set lport = true then st else s.admin p := by
  unfold Lpb.port_admin_set
  dsimp only
  by_cases hset : a.set lport = true
  · rw [if_pos hset, update_apply]
    simp [hset]
  · rw [if_neg hset, if_neg (fun h => hset h.2)]

theorem cls_local : Local clsPort := by
  intro s i p
  unfold clsPort
  split
  · rfl
  · rfl

theorem cls_quiet : QuietBody clsPort := by
  intro s i p
  unfold clsPort
  split
  · exact ⟨rfl, rfl, id⟩
  · exact Quiet.refl _

theorem report_local : Local (reportPort a session v) := by
  intro s i p
  unfold reportPort
  dsimp only
  split
  · exact send_ctrl _ _
  · rfl

theorem report_quiet : QuietBody (reportPort a session v) := by
  intro s i p
  have hreopened : Quiet p (p.reopened a s i) := by
    unfold Port.reopened
    split
    · exact ⟨rfl, rfl, fun h => nomatch h⟩
    · exact Quiet.refl _
  unfold reportPort
  dsimp only
  split
  · exact hreopened
  · exact hreopened

/-- A report looks at the marks. -/
theorem report_mask (s : Lpb) (i : Nat) (x : Port) :
    (reportPort a session v s i x).2.lpbmask = x.lpbmask := by
  have hreopened : (x.reopened a s i).lpbmask = x.lpbmask := by
    unfold Port.reopened
    split
    · rfl
    · rfl
  unfold reportPort
  dsimp only
  split
  · exact hreopened
  · exact hreopened

theorem reset_quiet : QuietBody (resetPort a session v) := by
  intro s i p
  unfold resetPort
  split
  · dsimp only
    split
    · exact ⟨rfl, rfl, fun h => nomatch h⟩
    · exact Quiet.refl _
  · exact Quiet.refl _

variable {b : SessionID}

theorem clear_local : Local (clearPort a b v) := by
  intro s i p
  unfold clearPort
  split
  · exact send_ctrl _ _
  · rfl

theorem wakeup_local : Local (wakeupPort c a b v) := by
  intro s i p
  unfold wakeupPort
  dsimp only
  split
  · split
    · exact (send_ctrl _ _).trans (clear_local s i p)
    · exact clear_local s i p
  · exact clear_local s i p

/-! ## The calls -/

/-- No two nodes are of one VLAN. -/
def Lpb.Distinct (s : Lpb) : Prop := s.vids.Nodup

theorem cls_calm (v : UInt16) : Quiet (s.portOf vid p) ((clsPortLpbStatus s v).portOf vid p) :=
  forPorts_quiet cls_local cls_quiet v

theorem cls_distinct (h : s.Distinct) (v : UInt16) : (clsPortLpbStatus s v).Distinct := by
  rw [Lpb.Distinct, clsPortLpbStatus, forPorts_vids cls_local]
  exact h

theorem cls_admin (s : Lpb) (v : UInt16) : (clsPortLpbStatus s v).admin = s.admin := by
  refine forPorts_field (f := Lpb.admin) (fun _ _ => rfl) ?_ s v
  intro s i p
  unfold clsPort
  split
  · rfl
  · rfl

theorem wakeup_distinct (h : s.Distinct) (v : UInt16) : (lpbDetectWakeupPorts c a b s v).Distinct := by
  rw [Lpb.Distinct, lpbDetectWakeupPorts, forPorts_vids wakeup_local]
  exact h

theorem wakeup_other (hv : v ≠ vid) : (lpbDetectWakeupPorts c a b s v).portOf vid p = s.portOf vid p :=
  forPorts_other wakeup_local hv

/-- A report is a loop, and then the node may be gone, if none of its ports is marked. -/
theorem report_calm (hp : p ∈ ports) (h : s.Distinct) (v vid : UInt16) (session : Option SessionID) :
    Quiet (s.portOf vid p) ((reportPortsLpbStatus a s v session).portOf vid p) ∨
      (reportPortsLpbStatus a s v session).portOf vid p = noPort ∧
        (s.portOf vid p).lpbmask = 0 := by
  have hloop : Quiet (s.portOf vid p) ((s.forPorts v (reportPort a session v)).portOf vid p) :=
    forPorts_quiet report_local report_quiet v
  have hdistinct : (s.forPorts v (reportPort a session v)).vids.Nodup := by
    rw [forPorts_vids report_local]
    exact h
  have hmask : ((s.forPorts v (reportPort a session v)).portOf vid p).lpbmask =
      (s.portOf vid p).lpbmask :=
    forPorts_port (r := fun x y => y.lpbmask = x.lpbmask) (fun _ => rfl)
      (fun _ _ _ hx hy => hy.trans hx) report_local report_mask v
  unfold reportPortsLpbStatus
  dsimp only
  split
  · exact .inl hloop
  · rename_i pCtrl hnode
    split
    · rename_i hall
      by_cases hv : v = vid
      · subst hv
        refine .inr ⟨portIn_delete_self hdistinct, ?_⟩
        rw [← hmask, portOf_some hnode]
        exact of_decide_eq_true (List.all_eq_true.mp hall p hp)
      · left
        rw [Lpb.portOf, Lpb.portOf, portIn_delete_other hv]
        exact hloop
    · exact .inl hloop

theorem report_distinct (h : s.Distinct) (v : UInt16) :
    (reportPortsLpbStatus a s v session).Distinct := by
  have hloop : (s.forPorts v (reportPort a session v)).Distinct := by
    rw [Lpb.Distinct, forPorts_vids report_local]
    exact h
  unfold reportPortsLpbStatus
  dsimp only
  split
  · exact hloop
  · split
    · exact hloop.sublist (delete_sublist.map _)
    · exact hloop

theorem report_admin (s : Lpb) (v : UInt16) (session : Option SessionID) :
    (reportPortsLpbStatus a s v session).admin = s.admin := by
  have hloop : (s.forPorts v (reportPort a session v)).admin = s.admin := by
    refine forPorts_field (f := Lpb.admin) (fun _ _ => rfl) ?_ s v
    intro s i p
    unfold reportPort
    dsimp only
    split
    · exact send_admin _ _
    · rfl
  unfold reportPortsLpbStatus
  dsimp only
  split
  · exact hloop
  · split
    · exact hloop
    · exact hloop

theorem resetNodes_vids (force : Bool) (l : List OAM_ONU_LPB_DETECT_CTRL) (s : Lpb) :
    (resetNodes c a force session s l).2.map (fun n => n.vid) = l.map fun n => n.vid := by
  induction l generalizing s with
  | nil => rfl
  | cons n l ih =>
    rw [resetNodes]
    dsimp only
    rw [List.map_cons, List.map_cons, ih]

/-- The loop of a reset over the nodes. -/
theorem resetNodes_quiet (force : Bool) (l : List OAM_ONU_LPB_DETECT_CTRL) (s : Lpb) :
    Quiet (portIn l vid p) (portIn (resetNodes c a force session s l).2 vid p) := by
  induction l generalizing s with
  | nil => exact Quiet.refl _
  | cons n l ih =>
    rw [resetNodes]
    dsimp only
    rw [portIn_cons, portIn_cons]
    by_cases hn : n.vid = vid
    · rw [if_pos hn, if_pos hn]
      split
      · exact run_port Quiet.refl Quiet.trans reset_quiet (s, n.port) ports p
      · exact Quiet.refl _
    · rw [if_neg hn, if_neg hn]
      exact ih _

theorem reset_calm (force : Bool) :
    Quiet (s.portOf vid p) ((resetLpbPort c a s force session).portOf vid p) :=
  resetNodes_quiet force _ s

theorem reset_distinct (h : s.Distinct) (force : Bool) :
    (resetLpbPort c a s force session).Distinct := by
  have hvids : (resetLpbPort c a s force session).vids = s.vids := resetNodes_vids force _ s
  rw [Lpb.Distinct, hvids]
  exact h

/-! ## A loop is found -/

/-- What a port is marked with: a new node has counted no wake-up. -/
def Lpb.marked (c : Config) (a : Api) (s : Lpb) (vid : UInt16) (shutdown : Bool)
    (pInfo : Option ALARM_LOOP) (p : Nat) : Port :=
  match s.getVlanLpbStasNode vid with
  | some pCtrl => (pCtrl.port p).mark c shutdown pInfo
  | none => if a.malloc then newPort shutdown pInfo else noPort

theorem mark_admin (shutdown : Bool) (pInfo : Option ALARM_LOOP) :
    (setPortLpbStatus c a s v lport shutdown pInfo).admin = s.admin := by
  unfold setPortLpbStatus
  split
  · rfl
  · split
    · rfl
    · rfl

theorem portIn_write_self {n : OAM_ONU_LPB_DETECT_CTRL}
    (h : l.find? (fun n => n.vid = vid) = some n) : portIn (writeNode vid port l) vid p = port p := by
  rw [portIn, find_write_self, h]
  rfl

/-- A node behind the others is found when there is none of its VLAN. -/
theorem portIn_append (h : l.find? (fun n => n.vid = v) = none) :
    portIn (l ++ [⟨v, port⟩]) vid p = if v = vid then port p else portIn l vid p := by
  rw [portIn, List.find?_append]
  by_cases hv : v = vid
  · subst hv
    rw [h, if_pos rfl, Option.none_or, List.find?_cons_of_pos (by simp)]
    rfl
  · rw [if_neg hv, List.find?_cons_of_neg (by simpa using hv), List.find?_nil, Option.or_none]
    rfl

theorem mark_portOf (shutdown : Bool) (pInfo : Option ALARM_LOOP) :
    (setPortLpbStatus c a s v lport shutdown pInfo).portOf vid p =
      if v = vid ∧ lport = p then s.marked c a vid shutdown pInfo p else s.portOf vid p := by
  unfold setPortLpbStatus
  by_cases hv : v = vid
  · subst hv
    unfold Lpb.marked
    cases h : s.getVlanLpbStasNode v with
    | some n =>
      dsimp only
      rw [Lpb.portOf, portIn_write_self h, portOf_some h]
      by_cases hp : lport = p
      · rw [if_pos ⟨rfl, hp⟩, hp, update_self]
      · rw [if_neg (fun h' => hp h'.2), update_of_ne (Ne.symm hp)]
    | none =>
      dsimp only
      split
      · rw [Lpb.portOf, portIn_append h, if_pos rfl, portOf_none h]
        by_cases hp : lport = p
        · rw [if_pos ⟨rfl, hp⟩, hp, update_self]
        · rw [if_neg (fun h' => hp h'.2), update_of_ne (Ne.symm hp)]
      · rw [portOf_none h, ite_self]
  · have hnot : ¬ (v = vid ∧ lport = p) := fun h' => hv h'.1
    rw [if_neg hnot]
    split
    · rw [Lpb.portOf, portIn_write_other hv]
      rfl
    · rename_i h
      split
      · rw [Lpb.portOf, portIn_append h, if_neg hv]
        rfl
      · rfl

theorem mark_distinct (h : s.Distinct) (shutdown : Bool) (pInfo : Option ALARM_LOOP) :
    (setPortLpbStatus c a s v lport shutdown pInfo).Distinct := by
  unfold setPortLpbStatus
  split
  · rw [Lpb.Distinct, Lpb.vids, writeNode_vids]
    exact h
  · rename_i hnone
    split
    · rw [Lpb.Distinct, Lpb.vids, List.map_append, List.nodup_append]
      refine ⟨h, List.nodup_singleton _, ?_⟩
      intro x hx y hy hxy
      apply find_none_iff.mp hnone
      obtain rfl : y = v := List.mem_singleton.mp hy
      exact hxy ▸ hx
    · exact h

end

end gwdonu.gwd_eth_loop_detect
