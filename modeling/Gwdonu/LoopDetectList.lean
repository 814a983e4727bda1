-- The control list as it is in memory: blocks that malloc gives and free takes
-- back, a head, a tail, and loops that walk from one block to the next.
import Gwdonu.LoopDetectNodes
import Gwdonu.Lib.Chain

namespace gwdonu.gwd_eth_loop_detect

open Function gwd_port_admin_t runs chain

/-! ## The program, with its pointers -/

structure LPB_CTRL_LIST where
  ctrlnode : Nat
  next : Option Nat

/-- The blocks that are allocated, by their addresses, none of which is given
twice. The other globals are in `rest`, whose own list of nodes is not used. -/
structure Memory where
  list : Nat → Option LPB_CTRL_LIST
  ctrl : Nat → Option OAM_ONU_LPB_DETECT_CTRL
  brk : Nat
  g_lpb_detect_ctrl_head : Option Nat
  g_lpb_detect_ctrl_tail : Option Nat
  rest : Lpb

def Memory.init : Memory := ⟨fun _ => none, fun _ => none, 0, none, none, .init⟩

namespace Memory

variable (m : Memory)

/-- What a block of the list names, if it is allocated. -/
def next (p : Nat) : Option (Option Nat) := (m.list p).map LPB_CTRL_LIST.next

/-- A walk that takes more turns than there are blocks does not end. -/
def fuel : Nat := m.brk + 1

/-- The loop of `getVlanLpbStasNode` and of `reportPortsLpbStatus`. `none` when it
reads a block that is not allocated, or does not end. -/
def findNode (vid : UInt16) : Nat → Option Nat → Option (Option Nat)
  | 0, _ => none
  | _ + 1, none => some none
  | fuel + 1, some pNode => do
    let node ← m.list pNode
    let ctrl ← m.ctrl node.ctrlnode
    if ctrl.vid = vid then some (some node.ctrlnode) else findNode vid fuel node.next

def getVlanLpbStasNode (vid : UInt16) : Option (Option Nat) :=
  m.findNode vid m.fuel m.g_lpb_detect_ctrl_head

/-- `p->next = n`. -/
def setNext (p n : Option Nat) : Option Memory := do
  let p ← p
  let node ← m.list p
  some { m with list := update m.list p (some { node with next := n }) }

/-- `free(pNode->ctrlnode); free(pNode)`. -/
def free (pNode : Nat) : Option Memory := do
  let node ← m.list pNode
  let _ ← m.ctrl node.ctrlnode
  some { m with ctrl := update m.ctrl node.ctrlnode none, list := update m.list pNode none }

/-- What `deleteLpbStatsNode` does with the node that it finds. -/
def unlink (pNode : Nat) (ppre : Option Nat) : Option Memory := do
  let node ← m.list pNode
  let m ←
    if some pNode = m.g_lpb_detect_ctrl_head then
      some { m with
        g_lpb_detect_ctrl_head := node.next
        g_lpb_detect_ctrl_tail := if node.next = none then none else m.g_lpb_detect_ctrl_tail }
    else if some pNode = m.g_lpb_detect_ctrl_tail then
      setNext { m with g_lpb_detect_ctrl_tail := ppre } ppre none
    else m.setNext ppre node.next
  m.free pNode

def deleteLoop (vid : UInt16) : Nat → Option Nat → Option Nat → Option Memory
  | 0, _, _ => none
  | _ + 1, none, _ => some m
  | fuel + 1, some pNode, ppre => do
    let node ← m.list pNode
    let ctrl ← m.ctrl node.ctrlnode
    if ctrl.vid = vid then m.unlink pNode ppre else deleteLoop vid fuel node.next (some pNode)

def deleteLpbStatsNode (vid : UInt16) : Option Memory :=
  m.deleteLoop vid m.fuel m.g_lpb_detect_ctrl_head none

/-- A loop over the ports of one node. -/
def loopPorts (pCtrl : Nat) (body : UInt16 → Body) : Option Memory := do
  let ctrl ← m.ctrl pCtrl
  let (rest, port) := ports.foldl (body ctrl.vid).turn (m.rest, ctrl.port)
  some { m with rest, ctrl := update m.ctrl pCtrl (some { ctrl with port }) }

def clsPortLpbStatus (vid : UInt16) : Option Memory := do
  match ← m.getVlanLpbStasNode vid with
  | none => some m
  | some pCtrl => m.loopPorts pCtrl fun _ => clsPort

def reportPortsLpbStatus (a : Api) (vid : UInt16) (session : Option SessionID) : Option Memory := do
  match ← m.getVlanLpbStasNode vid with
  | none => some m
  | some pCtrl => do
    let m ← m.loopPorts pCtrl fun _ => reportPort a session vid
    let ctrl ← m.ctrl pCtrl
    if ports.all fun i => (ctrl.port i).lpbmask = 0 then m.deleteLpbStatsNode ctrl.vid else some m

def lpbDetectWakeupPorts (c : Config) (a : Api) (session : SessionID) (usVid : UInt16) :
    Option Memory := do
  match ← m.getVlanLpbStasNode usVid with
  | none => some m
  | some pCtrl => m.loopPorts pCtrl fun _ => wakeupPort c a session usVid

/-- The body of the `while` of `resetLpbPort`. -/
def resetTurn (c : Config) (a : Api) (force : Bool) (session : Option SessionID) (pCtrl : Nat) :
    Option Memory :=
  if c.opens force then m.loopPorts pCtrl (resetPort a session) else some m

def resetLoop (c : Config) (a : Api) (force : Bool) (session : Option SessionID) (m : Memory) :
    Nat → Option Nat → Option Memory
  | 0, _ => none
  | _ + 1, none => some m
  | fuel + 1, some pList => do
    let node ← m.list pList
    let m ← m.resetTurn c a force session node.ctrlnode
    let node ← m.list pList
    resetLoop c a force session m fuel node.next

def resetLpbPort (c : Config) (a : Api) (force : Bool) (session : Option SessionID) :
    Option Memory :=
  resetLoop c a force session m m.fuel m.g_lpb_detect_ctrl_head

/-- The new node goes behind the last one. -/
def append (vid : UInt16) (port : Nat → Port) : Option Memory :=
  let pCtrl := m.brk
  let pList := m.brk + 1
  let m := { m with
    brk := m.brk + 2
    ctrl := update m.ctrl pCtrl (some ⟨vid, port⟩)
    list := update m.list pList (some ⟨pCtrl, none⟩) }
  if m.g_lpb_detect_ctrl_head = none ∧ m.g_lpb_detect_ctrl_tail = none then
    some { m with g_lpb_detect_ctrl_head := some pList, g_lpb_detect_ctrl_tail := some pList }
  else do
    let tail ← m.g_lpb_detect_ctrl_tail
    let m ← m.setNext (some tail) (some pList)
    let node ← m.list tail
    some { m with g_lpb_detect_ctrl_tail := node.next }

/-- `pCtrl` and `pList` say whether each `malloc` gives a block. -/
def setPortLpbStatus (c : Config) (pCtrl pList : Bool) (vid : UInt16) (lport : Nat)
    (shutdown : Bool) (pInfo : Option ALARM_LOOP) : Option Memory := do
  match ← m.getVlanLpbStasNode vid with
  | some pCtrl => do
    let ctrl ← m.ctrl pCtrl
    let port := update ctrl.port lport ((ctrl.port lport).mark c shutdown pInfo)
    some { m with ctrl := update m.ctrl pCtrl (some { ctrl with port }) }
  | none =>
    if pCtrl then
      -- without a block for the list, the one for the node is freed again
      if pList then m.append vid (update (fun _ => noPort) lport (newPort shutdown pInfo))
      else some m
    else some m

def freeLoop (m : Memory) : Nat → Option Memory
  | 0 => none
  | fuel + 1 =>
    match m.g_lpb_detect_ctrl_head with
    | none => some { m with g_lpb_detect_ctrl_tail := none }
    | some pList => do
      let node ← m.list pList
      let m ← m.free pList
      freeLoop { m with g_lpb_detect_ctrl_head := node.next } fuel

def freeLpbStatusList : Option Memory := freeLoop m m.fuel

end Memory

/-! ## What is in memory -/

/-- A block of the list, the block of its node, and the node. -/
structure Cell where
  pList : Nat
  pCtrl : Nat
  ctrl : OAM_ONU_LPB_DETECT_CTRL

/-- The blocks of the list, from its head to its tail. -/
structure Holds (m : Memory) (cells : List Cell) : Prop where
  spans : Spans m.next m.g_lpb_detect_ctrl_head m.g_lpb_detect_ctrl_tail (cells.map Cell.pList)
  list : ∀ x ∈ cells, ∃ n, m.list x.pList = some ⟨x.pCtrl, n⟩
  ctrl : ∀ x ∈ cells, m.ctrl x.pCtrl = some x.ctrl
  distinct : (cells.map Cell.pCtrl).Nodup
  fresh : ∀ x ∈ cells, x.pList < m.brk ∧ x.pCtrl < m.brk

/-- The memory stands for the list of nodes, and has the other globals. -/
structure Represents (m : Memory) (s : Lpb) : Prop where
  nodes : ∃ cells, Holds m cells ∧ s.g_lpb_detect_ctrl = cells.map Cell.ctrl
  rest : { m.rest with g_lpb_detect_ctrl := s.g_lpb_detect_ctrl } = s

section
variable {m : Memory} {cells pre post : List Cell} {x : Cell} {vid : UInt16} {fuel : Nat}
  {p n : Option Nat} {c : Config} {a : Api} {s : Lpb} {session : Option SessionID}

theorem next_eq (h : m.list x.pList = some ⟨x.pCtrl, n⟩) : m.next x.pList = some n := by
  simp [Memory.next, h]

/-- The walks have turns enough. -/
theorem Holds.enough (h : Holds m cells) : cells.length < m.fuel := by
  have hsub : cells.map Cell.pList ⊆ List.range m.brk := by
    intro q hq
    obtain ⟨y, hy, rfl⟩ := List.mem_map.mp hq
    exact List.mem_range.mpr (h.fresh y hy).1
  have hlength := (h.spans.seg.nodup.subperm hsub).length_le
  rw [List.length_map, List.length_range] at hlength
  exact Nat.lt_succ_of_le hlength

/-- The walk of `getVlanLpbStasNode` over the cells that are left. -/
theorem findNode_eq (hseg : Seg m.next p (cells.map Cell.pList) none)
    (hlist : ∀ x ∈ cells, ∃ n, m.list x.pList = some ⟨x.pCtrl, n⟩)
    (hctrl : ∀ x ∈ cells, m.ctrl x.pCtrl = some x.ctrl) (hfuel : cells.length < fuel) :
    m.findNode vid fuel p = some ((cells.find? fun x => x.ctrl.vid = vid).map Cell.pCtrl) := by
  induction cells generalizing fuel p with
  | nil =>
    obtain rfl : p = none := hseg
    cases fuel with
    | zero => cases hfuel
    | succ fuel => rfl
  | cons x cells ih =>
    obtain ⟨rfl, n, hn, hrest⟩ := hseg
    cases fuel with
    | zero => cases hfuel
    | succ fuel =>
      obtain ⟨k, hk⟩ := hlist x List.mem_cons_self
      obtain rfl : k = n := Option.some.inj ((next_eq hk).symm.trans hn)
      have hfound := ih hrest (fun y hy => hlist y (List.mem_cons_of_mem x hy))
        (fun y hy => hctrl y (List.mem_cons_of_mem x hy)) (Nat.lt_of_succ_lt_succ hfuel)
      unfold Memory.findNode
      simp only [hk, hctrl x List.mem_cons_self, Option.bind_eq_bind, Option.bind_some]
      by_cases hv : x.ctrl.vid = vid
      · simp [hv]
      · simpa [hv] using hfound

theorem Holds.find (h : Holds m cells) (vid : UInt16) : m.getVlanLpbStasNode vid =
    some ((cells.find? fun x => x.ctrl.vid = vid).map Cell.pCtrl) :=
  findNode_eq h.spans.seg h.list h.ctrl h.enough

/-- The node of a VLAN, among the cells. -/
theorem find_cell (hs : s.g_lpb_detect_ctrl = cells.map Cell.ctrl) :
    s.getVlanLpbStasNode vid = (cells.find? fun x => x.ctrl.vid = vid).map Cell.ctrl := by
  unfold Lpb.getVlanLpbStasNode
  rw [hs, List.find?_map]
  rfl

/-- The blocks of a cell are not those of the others. -/
theorem Holds.apart (h : Holds m (pre ++ x :: post)) :
    ∀ y ∈ pre ++ post, y.pList ≠ x.pList ∧ y.pCtrl ≠ x.pCtrl := by
  have hperm : (pre ++ x :: post).Perm (x :: (pre ++ post)) := List.perm_middle
  have hlist := (hperm.map Cell.pList).nodup_iff.mp h.spans.seg.nodup
  have hctrl := (hperm.map Cell.pCtrl).nodup_iff.mp h.distinct
  intro y hy
  refine ⟨fun heq => ?_, fun heq => ?_⟩
  · exact (List.nodup_cons.mp hlist).1 (heq ▸ List.mem_map_of_mem hy)
  · exact (List.nodup_cons.mp hctrl).1 (heq ▸ List.mem_map_of_mem hy)

theorem mem_middle {y : Cell} (h : y ∈ pre ++ post) : y ∈ pre ++ x :: post := by
  simp only [List.mem_append, List.mem_cons] at h ⊢
  tauto

/-- A node is written. -/
theorem Holds.write (h : Holds m (pre ++ x :: post)) (n : OAM_ONU_LPB_DETECT_CTRL) (s : Lpb) :
    Holds { m with ctrl := update m.ctrl x.pCtrl (some n), rest := s }
      (pre ++ { x with ctrl := n } :: post) := by
  have hapart := h.apart
  obtain ⟨hspans, hlist, hctrl, hdistinct, hfresh⟩ := h
  have hcells : ∀ y ∈ pre ++ { x with ctrl := n } :: post,
      y = { x with ctrl := n } ∨ y ∈ pre ++ post := by
    simp only [List.mem_append, List.mem_cons]
    tauto
  have hmem : x ∈ pre ++ x :: post := by simp
  rw [List.map_append, List.map_cons] at hspans hdistinct
  refine ⟨?_, ?_, ?_, ?_, ?_⟩
  · rw [List.map_append, List.map_cons]
    exact hspans
  · intro y hy
    rcases hcells y hy with rfl | hy
    · exact hlist x hmem
    · exact hlist y (mem_middle hy)
  · intro y hy
    dsimp only
    rcases hcells y hy with rfl | hy
    · exact update_self ..
    · rw [update_of_ne (hapart y hy).2]
      exact hctrl y (mem_middle hy)
  · rw [List.map_append, List.map_cons]
    exact hdistinct
  · intro y hy
    rcases hcells y hy with rfl | hy
    · exact hfresh x hmem
    · exact hfresh y (mem_middle hy)

/-! ## A node goes -/

/-- The cells without one, whose blocks are freed. -/
theorem Holds.without (h : Holds m (pre ++ x :: post)) (m' : Memory)
    (hspans : Spans m'.next m'.g_lpb_detect_ctrl_head m'.g_lpb_detect_ctrl_tail
      ((pre ++ post).map Cell.pList))
    (hlist : ∀ y ∈ pre ++ post, ∃ n, m'.list y.pList = some ⟨y.pCtrl, n⟩)
    (hctrl : m'.ctrl = update m.ctrl x.pCtrl none) (hbrk : m'.brk = m.brk) : Holds m' (pre ++ post) := by
  refine ⟨hspans, hlist, ?_, ?_, ?_⟩
  · intro y hy
    rw [hctrl, update_of_ne (h.apart y hy).2]
    exact h.ctrl y (mem_middle hy)
  · have hperm : (pre ++ x :: post).Perm (x :: (pre ++ post)) := List.perm_middle
    exact (List.nodup_cons.mp ((hperm.map Cell.pCtrl).nodup_iff.mp h.distinct)).2
  · intro y hy
    rw [hbrk]
    exact h.fresh y (mem_middle hy)

/-- The first node goes. -/
theorem unlink_first (h : Holds m (x :: post)) :
    ∃ m', m.unlink x.pList none = some m' ∧ Holds m' post ∧ m'.rest = m.rest := by
  have hapart : ∀ y ∈ post, y.pList ≠ x.pList ∧ y.pCtrl ≠ x.pCtrl :=
    Holds.apart (show Holds m ([] ++ x :: post) from h)
  obtain ⟨n, hn⟩ := h.list x List.mem_cons_self
  have hhead : some x.pList = m.g_lpb_detect_ctrl_head := h.spans.seg.head_eq.symm
  have hlive := h.ctrl x List.mem_cons_self
  refine ⟨{ m with
    g_lpb_detect_ctrl_head := n
    g_lpb_detect_ctrl_tail := if n = none then none else m.g_lpb_detect_ctrl_tail
    ctrl := update m.ctrl x.pCtrl none
    list := update m.list x.pList none }, ?_, ?_, rfl⟩
  · simp [Memory.unlink, Memory.free, hn, ← hhead, hlive]
  · refine Holds.without (show Holds m ([] ++ x :: post) from h) _ ?_ ?_ rfl rfl
    · have hspans : Spans m.next m.g_lpb_detect_ctrl_head m.g_lpb_detect_ctrl_tail
        (x.pList :: post.map Cell.pList) := h.spans
      refine (hspans.tail_cons (next_eq hn)).congr ?_
      intro q hq
      obtain ⟨y, hy, rfl⟩ := List.mem_map.mp hq
      simp [Memory.next, (hapart y hy).1]
    · intro y hy
      obtain ⟨k, hk⟩ := h.list y (List.mem_cons_of_mem x hy)
      refine ⟨k, ?_⟩
      rw [← hk]
      exact update_of_ne (hapart y hy).1 _ _

/-- A node behind another goes. -/
theorem unlink_after {y : Cell} (h : Holds m (pre ++ y :: x :: post)) :
    ∃ m', m.unlink x.pList (some y.pList) = some m' ∧ Holds m' (pre ++ y :: post) ∧
      m'.rest = m.rest := by
  have hsplit : pre ++ y :: x :: post = (pre ++ [y]) ++ x :: post := by simp
  have hh : Holds m ((pre ++ [y]) ++ x :: post) := hsplit ▸ h
  have hapart := hh.apart
  have hyx : y.pList ≠ x.pList := (hapart y (by simp)).1
  obtain ⟨n, hn⟩ := h.list x (by simp)
  obtain ⟨k, hk⟩ := h.list y (by simp)
  have hlive := h.ctrl x (by simp)
  have hspans : Spans m.next m.g_lpb_detect_ctrl_head m.g_lpb_detect_ctrl_tail
      (pre.map Cell.pList ++ y.pList :: x.pList :: post.map Cell.pList) := by
    have hs := h.spans
    rwa [List.map_append, List.map_cons, List.map_cons] at hs
  have hhead : some x.pList ≠ m.g_lpb_detect_ctrl_head := by
    rw [hspans.seg.head_eq]
    intro heq
    have hnodup := hspans.seg.nodup
    cases pre with
    | nil => exact hyx (Option.some.inj heq).symm
    | cons z pre => exact (hapart z (by simp)).1 (Option.some.inj heq).symm
  have htail : some x.pList = m.g_lpb_detect_ctrl_tail ↔ post = [] := by
    rw [hspans.tail]
    rcases post.eq_nil_or_concat with rfl | ⟨post, z, rfl⟩
    · simp
    · have hz := (hapart z (by simp)).1
      simp [List.getLast?_append, List.getLast?_cons, Ne.symm hz]
  have hnone : post = [] → n = none := by
    intro hpost
    have hend := hspans
    rw [← htail.mpr hpost] at hend
    exact Option.some.inj ((next_eq hn).symm.trans hend.last_next)
  have hkeep : ∀ z ∈ pre ++ post, z.pList ≠ x.pList ∧ z.pList ≠ y.pList := by
    intro z hz
    exact ⟨(hapart z (by simp at hz ⊢; tauto)).1, (h.apart z (mem_middle hz)).1⟩
  refine ⟨{ m with
    g_lpb_detect_ctrl_tail :=
      if post.map Cell.pList = [] then some y.pList else m.g_lpb_detect_ctrl_tail
    ctrl := update m.ctrl x.pCtrl none
    list := update (update m.list y.pList (some ⟨y.pCtrl, n⟩)) x.pList none }, ?_, ?_, rfl⟩
  · by_cases hpost : post = []
    · simp [Memory.unlink, Memory.setNext, Memory.free, hn, hk, hhead, htail, hpost, hnone hpost,
        hlive, update_of_ne (Ne.symm hyx)]
    · simp [Memory.unlink, Memory.setNext, Memory.free, hn, hk, hhead, htail, hpost, hlive,
        update_of_ne (Ne.symm hyx)]
  · rw [show pre ++ y :: post = pre ++ [y] ++ post by simp]
    refine hh.without _ ?_ ?_ rfl rfl
    · rw [show (pre ++ [y] ++ post).map Cell.pList =
        pre.map Cell.pList ++ y.pList :: post.map Cell.pList by simp]
      refine hspans.remove (next_eq hn) (by simp [Memory.next, update_of_ne hyx]) ?_
      intro q hq
      rw [← List.map_append] at hq
      obtain ⟨z, hz, rfl⟩ := List.mem_map.mp hq
      simp [Memory.next, update_of_ne (hkeep z hz).1, update_of_ne (hkeep z hz).2]
    · intro z hz
      have hz : z = y ∨ z ∈ pre ++ post := by
        simp at hz ⊢
        tauto
      rcases hz with rfl | hz
      · exact ⟨n, by simp [update_of_ne hyx]⟩
      · obtain ⟨k, hk⟩ := h.list z (by simp at hz ⊢; tauto)
        refine ⟨k, ?_⟩
        simp [update_of_ne (hkeep z hz).1, update_of_ne (hkeep z hz).2, hk]

/-- The walk of `deleteLpbStatsNode` over the cells that are left; the one before
them is the last of `pre`. -/
theorem deleteLoop_eq (vid : UInt16) (h : Holds m (pre ++ post))
    (hseg : Seg m.next p (post.map Cell.pList) none) (hfuel : post.length < fuel) :
    ∃ m', m.deleteLoop vid fuel p (pre.getLast?.map Cell.pList) = some m' ∧
      Holds m' (pre ++ post.eraseP fun x => x.ctrl.vid = vid) ∧ m'.rest = m.rest := by
  induction post generalizing pre fuel p with
  | nil =>
    obtain rfl : p = none := hseg
    cases fuel with
    | zero => cases hfuel
    | succ fuel => exact ⟨m, rfl, h, rfl⟩
  | cons x post ih =>
    obtain ⟨rfl, n, hn, hrest⟩ := hseg
    obtain ⟨k, hk⟩ := h.list x (by simp)
    obtain rfl : k = n := Option.some.inj ((next_eq hk).symm.trans hn)
    cases fuel with
    | zero => cases hfuel
    | succ fuel =>
      unfold Memory.deleteLoop
      simp only [hk, h.ctrl x (by simp), Option.bind_eq_bind, Option.bind_some]
      by_cases hv : x.ctrl.vid = vid
      · rw [if_pos hv, List.eraseP_cons_of_pos (by simpa using hv)]
        rcases pre.eq_nil_or_concat with rfl | ⟨pre, y, rfl⟩
        · exact unlink_first h
        · rw [List.concat_eq_append] at h ⊢
          rw [List.getLast?_concat, List.append_assoc]
          rw [List.append_assoc] at h
          exact unlink_after h
      · rw [if_neg hv, List.eraseP_cons_of_neg (by simpa using hv)]
        have hsplit : pre ++ x :: post = (pre ++ [x]) ++ post := by simp
        have hnext := ih (hsplit ▸ h) hrest (Nat.lt_of_succ_lt_succ hfuel)
        rw [List.getLast?_concat, List.append_assoc] at hnext
        exact hnext

theorem delete_eq (l : List OAM_ONU_LPB_DETECT_CTRL) :
    deleteLpbStatsNode vid l = l.eraseP fun n => n.vid = vid := by
  induction l with
  | nil => rfl
  | cons n l ih =>
    unfold deleteLpbStatsNode
    by_cases hv : n.vid = vid
    · rw [if_pos hv, List.eraseP_cons_of_pos (by simpa using hv)]
    · rw [if_neg hv, List.eraseP_cons_of_neg (by simpa using hv), ih]

theorem delete_represents (h : Represents m s) (vid : UInt16) :
    ∃ m', m.deleteLpbStatsNode vid = some m' ∧ Represents m'
      { s with g_lpb_detect_ctrl :=
        deleteLpbStatsNode vid s.g_lpb_detect_ctrl } := by
  obtain ⟨⟨cells, hcells, hs⟩, hrest⟩ := h
  obtain ⟨m', hm', hcells', hsame⟩ := deleteLoop_eq vid
    (show Holds m ([] ++ cells) from hcells) hcells.spans.seg hcells.enough
  refine ⟨m', hm', ⟨_, hcells', ?_⟩, ?_⟩
  · dsimp only
    rw [delete_eq, hs, List.eraseP_map]
    rfl
  · rw [hsame, ← hrest]

/-! ## Loops over the ports of a node -/

/-- A body that neither reads nor writes the list. -/
def Blind (body : Body) : Prop := ∀ (s : Lpb) l i q,
  body { s with g_lpb_detect_ctrl := l } i q =
    ({ (body s i q).1 with g_lpb_detect_ctrl := l }, (body s i q).2)

variable {body : Body} {port : Nat → Port} {l : List OAM_ONU_LPB_DETECT_CTRL} {v : UInt16}

theorem Blind.local (h : Blind body) : Local body := by
  intro s i q
  have hself := congrArg (fun r => r.1.g_lpb_detect_ctrl) (h s s.g_lpb_detect_ctrl i q)
  exact hself

theorem Blind.run (h : Blind body) (l : List OAM_ONU_LPB_DETECT_CTRL) (s : Lpb)
    (port : Nat → Port) (is : List Nat) :
    run body.turn ({ s with g_lpb_detect_ctrl := l }, port) is =
      ({ (run body.turn (s, port) is).1 with g_lpb_detect_ctrl := l },
        (run body.turn (s, port) is).2) := by
  induction is generalizing s port with
  | nil => rfl
  | cons i is ih =>
    rw [run_cons, run_cons, Body.turn, Body.turn, h s l i (port i)]
    exact ih _ _

theorem send_blind (i : Nat) (state : UInt8) (info : ALARM_LOOP) (s : Lpb) :
    sendOamLpbDetectNotifyMsg a { s with g_lpb_detect_ctrl := l } i state v session info =
      ({ (sendOamLpbDetectNotifyMsg a s i state v session info).1 with g_lpb_detect_ctrl := l },
        (sendOamLpbDetectNotifyMsg a s i state v session info).2) := by
  unfold sendOamLpbDetectNotifyMsg
  split
  · rfl
  · rfl

theorem set_blind (i : Nat) (st : gwd_port_admin_t) (s : Lpb) :
    (Lpb.port_admin_set { s with g_lpb_detect_ctrl := l } a i st).1 =
      { (s.port_admin_set a i st).1 with g_lpb_detect_ctrl := l } := rfl

theorem cls_blind : Blind clsPort := by
  intro s l i q
  unfold clsPort
  dsimp only
  split
  · rfl
  · rfl

theorem report_blind : Blind (reportPort a session v) := by
  intro s l i q
  have hreopened : q.reopened a { s with g_lpb_detect_ctrl := l } i = q.reopened a s i := rfl
  unfold reportPort
  simp only [send_blind, hreopened]
  split
  · rfl
  · rfl

theorem reset_blind : Blind (resetPort a session v) := by
  intro s l i q
  unfold resetPort
  split
  · dsimp only
    rw [set_blind, send_blind]
  · rfl

theorem clear_blind {b : SessionID} : Blind (clearPort a b v) := by
  intro s l i q
  unfold clearPort
  split
  · rw [send_blind]
  · rfl

theorem wakeup_blind {b : SessionID} : Blind (wakeupPort c a b v) := by
  intro s l i q
  unfold wakeupPort
  simp only [clear_blind s l i q]
  split
  · split
    · rw [set_blind, send_blind]
    · rfl
  · rfl

theorem writeNode_split {pre post : List OAM_ONU_LPB_DETECT_CTRL} {n : OAM_ONU_LPB_DETECT_CTRL}
    (hpre : ∀ k ∈ pre, k.vid ≠ vid) (hn : n.vid = vid) :
    writeNode vid port (pre ++ n :: post) = pre ++ { n with port } :: post := by
  induction pre with
  | nil =>
    rw [List.nil_append, writeNode, if_pos hn]
    rfl
  | cons k pre ih =>
    rw [List.cons_append, writeNode, if_neg (hpre k List.mem_cons_self),
      ih fun k hk => hpre k (List.mem_cons_of_mem _ hk)]
    rfl

/-- The cell of a VLAN, with the cells before it and behind it. -/
theorem find_split (h : cells.find? (fun x => x.ctrl.vid = vid) = some x) :
    x.ctrl.vid = vid ∧ ∃ pre post, cells = pre ++ x :: post ∧
      ∀ k ∈ pre.map Cell.ctrl, k.vid ≠ vid := by
  obtain ⟨hx, pre, post, hsplit, hpre⟩ := List.find?_eq_some_iff_append.mp h
  refine ⟨of_decide_eq_true hx, pre, post, hsplit, ?_⟩
  intro k hk
  obtain ⟨y, hy, rfl⟩ := List.mem_map.mp hk
  simpa using hpre y hy

/-- The node that is found is written, and so are the globals. -/
theorem Represents.write (h : Represents m s) {q : Nat}
    (hq : m.getVlanLpbStasNode vid = some (some q)) :
    ∃ n, m.ctrl q = some n ∧ s.getVlanLpbStasNode vid = some n ∧
      ∀ (r : Lpb) (port : Nat → Port), r.g_lpb_detect_ctrl = s.g_lpb_detect_ctrl →
        Represents { m with
          ctrl := update m.ctrl q (some { n with port })
          rest := { r with g_lpb_detect_ctrl := m.rest.g_lpb_detect_ctrl } }
        { r with g_lpb_detect_ctrl := writeNode vid port r.g_lpb_detect_ctrl } := by
  obtain ⟨⟨cells, hcells, hs⟩, hrest⟩ := h
  rw [hcells.find] at hq
  obtain ⟨x, hx, rfl⟩ := Option.map_eq_some_iff.mp (Option.some.inj hq)
  obtain ⟨hvid, pre, post, rfl, hpre⟩ := find_split hx
  refine ⟨x.ctrl, hcells.ctrl x (by simp), ?_, ?_⟩
  · rw [find_cell hs, hx]
    rfl
  · intro r port hr
    refine ⟨⟨_, hcells.write { x.ctrl with port } _, ?_⟩, rfl⟩
    rw [hr, hs, List.map_append, List.map_cons, writeNode_split hpre hvid, List.map_append,
      List.map_cons]

/-- A loop over the ports of the node that is found. -/
theorem loop_represents (h : Represents m s) (hblind : Blind body) {q : Nat}
    (hq : m.getVlanLpbStasNode vid = some (some q)) :
    ∃ m' n, m.loopPorts q (fun _ => body) = some m' ∧ Represents m' (s.forPorts vid body) ∧
      m'.ctrl q = some n ∧ (s.forPorts vid body).getVlanLpbStasNode vid = some n := by
  obtain ⟨n, hn, hfind, hwrite⟩ := h.write hq
  have hsame : { s with g_lpb_detect_ctrl := m.rest.g_lpb_detect_ctrl } = m.rest := by rw [← h.rest]
  have hrun := hblind.run m.rest.g_lpb_detect_ctrl s n.port ports
  rw [hsame] at hrun
  have hloop : s.forPorts vid body = { (run body.turn (s, n.port) ports).1 with
      g_lpb_detect_ctrl := writeNode vid (run body.turn (s, n.port) ports).2
        (run body.turn (s, n.port) ports).1.g_lpb_detect_ctrl } := forPorts_some hfind
  have hlist := run_local hblind.local (s, n.port) ports
  obtain ⟨r, hr⟩ : ∃ r, r = run body.turn (s, n.port) ports := ⟨_, rfl⟩
  rw [← hr] at hrun hloop hlist
  refine ⟨{ m with
    ctrl := update m.ctrl q (some { n with port := r.2 })
    rest := { r.1 with g_lpb_detect_ctrl := m.rest.g_lpb_detect_ctrl } },
    { n with port := r.2 }, ?_, ?_, update_self .., ?_⟩
  · unfold Memory.loopPorts
    simp only [hn, Option.bind_eq_bind, Option.bind_some]
    rw [show ports.foldl body.turn (m.rest, n.port) = _ from hrun]
  · rw [hloop]
    exact hwrite r.1 r.2 hlist
  · rw [hloop]
    refine find_write_self.trans ?_
    rw [hlist, show s.g_lpb_detect_ctrl.find? (fun n => n.vid = vid) = some n from hfind]
    rfl

/-- No node of the VLAN: nothing is looped over. -/
theorem absent (h : Represents m s) (hnone : m.getVlanLpbStasNode vid = some none) :
    s.getVlanLpbStasNode vid = none := by
  obtain ⟨⟨cells, hcells, hs⟩, -⟩ := h
  rw [hcells.find] at hnone
  rw [find_cell hs, Option.map_eq_none_iff.mp (Option.some.inj hnone)]
  rfl

theorem Represents.find (h : Represents m s) (vid : UInt16) :
    ∃ r, m.getVlanLpbStasNode vid = some r := by
  obtain ⟨⟨cells, hcells, -⟩, -⟩ := h
  exact ⟨_, hcells.find vid⟩

/-! ## The calls -/

/-- The call comes to its end, and the memory stands for the list that it leaves. -/
def Ends (r : Option Memory) (s : Lpb) : Prop := ∃ m, r = some m ∧ Represents m s

theorem cls_ends (h : Represents m s) : Ends (m.clsPortLpbStatus vid) (clsPortLpbStatus s vid) := by
  obtain ⟨r, hr⟩ := h.find vid
  unfold Memory.clsPortLpbStatus clsPortLpbStatus
  rw [hr, Option.bind_eq_bind, Option.bind_some]
  cases r with
  | none =>
    rw [forPorts_none (absent h hr)]
    exact ⟨m, rfl, h⟩
  | some q =>
    obtain ⟨m', -, hm', hdone, -⟩ := loop_represents h cls_blind hr
    exact ⟨m', hm', hdone⟩

theorem wakeup_ends {b : SessionID} (h : Represents m s) :
    Ends (m.lpbDetectWakeupPorts c a b vid) (lpbDetectWakeupPorts c a b s vid) := by
  obtain ⟨r, hr⟩ := h.find vid
  unfold Memory.lpbDetectWakeupPorts lpbDetectWakeupPorts
  rw [hr, Option.bind_eq_bind, Option.bind_some]
  cases r with
  | none =>
    rw [forPorts_none (absent h hr)]
    exact ⟨m, rfl, h⟩
  | some q =>
    obtain ⟨m', -, hm', hdone, -⟩ := loop_represents h wakeup_blind hr
    exact ⟨m', hm', hdone⟩

theorem report_ends (h : Represents m s) :
    Ends (m.reportPortsLpbStatus a vid session) (reportPortsLpbStatus a s vid session) := by
  obtain ⟨r, hr⟩ := h.find vid
  unfold Memory.reportPortsLpbStatus reportPortsLpbStatus
  rw [hr, Option.bind_eq_bind, Option.bind_some]
  cases r with
  | none =>
    dsimp only
    rw [forPorts_none (absent h hr), absent h hr]
    exact ⟨m, rfl, h⟩
  | some q =>
    obtain ⟨m', n, hm', hdone, hctrl, hfind⟩ :=
      loop_represents h (report_blind (a := a) (v := vid)) hr
    dsimp only
    rw [hm', hfind]
    simp only [Option.bind_eq_bind, Option.bind_some, hctrl]
    rw [find_vid hfind]
    split
    · exact delete_represents hdone vid
    · exact ⟨m', rfl, hdone⟩

/-- A new node behind the others. -/
theorem append_holds (h : Holds m cells) (vid : UInt16) (port : Nat → Port) :
    ∃ m', m.append vid port = some m' ∧ Holds m' (cells ++ [⟨m.brk + 1, m.brk, ⟨vid, port⟩⟩]) ∧
      m'.rest = m.rest := by
  have hold : ∀ y ∈ cells, y.pList ≠ m.brk + 1 ∧ y.pCtrl ≠ m.brk := by
    intro y hy
    obtain ⟨hlist, hctrl⟩ := h.fresh y hy
    omega
  have hdone : ∀ (m' : Memory), m'.brk = m.brk + 2 →
      m'.ctrl = update m.ctrl m.brk (some ⟨vid, port⟩) →
      (∀ y ∈ cells, ∃ n, m'.list y.pList = some ⟨y.pCtrl, n⟩) →
      m'.list (m.brk + 1) = some ⟨m.brk, none⟩ →
      Spans m'.next m'.g_lpb_detect_ctrl_head m'.g_lpb_detect_ctrl_tail
        (cells.map Cell.pList ++ [m.brk + 1]) →
      Holds m' (cells ++ [⟨m.brk + 1, m.brk, ⟨vid, port⟩⟩]) := by
    intro m' hbrk hctrl hlist hnew hspans
    refine ⟨by simpa using hspans, ?_, ?_, ?_, ?_⟩
    · intro y hy
      rcases List.mem_append.mp hy with hy | hy
      · exact hlist y hy
      · rw [List.mem_singleton.mp hy]
        exact ⟨none, hnew⟩
    · intro y hy
      rw [hctrl]
      rcases List.mem_append.mp hy with hy | hy
      · rw [update_of_ne (hold y hy).2]
        exact h.ctrl y hy
      · rw [List.mem_singleton.mp hy]
        exact update_self ..
    · rw [List.map_append, List.nodup_append]
      refine ⟨h.distinct, List.nodup_singleton _, ?_⟩
      intro q hq r hr
      obtain ⟨y, hy, rfl⟩ := List.mem_map.mp hq
      rw [List.map_singleton, List.mem_singleton] at hr
      rw [hr]
      exact (hold y hy).2
    · intro y hy
      rw [hbrk]
      rcases List.mem_append.mp hy with hy | hy
      · obtain ⟨hlist, hctrl⟩ := h.fresh y hy
        omega
      · rw [List.mem_singleton.mp hy]
        dsimp only
        omega
  unfold Memory.append
  dsimp only
  by_cases hnil : cells = []
  · rw [if_pos (h.spans.empty_iff.mpr (by rw [hnil]; rfl))]
    refine ⟨_, rfl, hdone _ rfl rfl ?_ (update_self ..) ?_, rfl⟩
    · simp [hnil]
    · rw [hnil]
      exact spans_single (by simp [Memory.next])
  · obtain ⟨pre, t, rfl⟩ := (List.eq_nil_or_concat cells).resolve_left hnil
    rw [List.concat_eq_append] at h hold hdone ⊢
    obtain ⟨k, hk⟩ := h.list t (by simp)
    have htail : m.g_lpb_detect_ctrl_tail = some t.pList := by
      rw [h.spans.tail]
      simp
    have hne : t.pList ≠ m.brk + 1 := (hold t (by simp)).1
    rw [if_neg (by simp [htail])]
    simp only [htail, Memory.setNext, Option.bind_eq_bind, Option.bind_some,
      update_of_ne hne, hk, update_self]
    refine ⟨_, rfl, hdone _ rfl rfl ?_ (by simp [update_of_ne (Ne.symm hne)]) ?_, rfl⟩
    · intro y hy
      by_cases hyt : y.pList = t.pList
      · have hsame : y.pCtrl = t.pCtrl := by
          obtain ⟨n, hn⟩ := h.list y hy
          rw [hyt, hk] at hn
          exact (congrArg LPB_CTRL_LIST.ctrlnode (Option.some.inj hn)).symm
        rw [hyt, hsame]
        exact ⟨_, update_self ..⟩
      · obtain ⟨n, hn⟩ := h.list y hy
        refine ⟨n, ?_⟩
        dsimp only
        rw [update_of_ne hyt, update_of_ne (hold y hy).1, hn]
    · refine h.spans.append htail (by simp [Memory.next])
        (by simp [Memory.next, update_of_ne (Ne.symm hne)]) ?_
      intro q hq hqt
      obtain ⟨y, hy, rfl⟩ := List.mem_map.mp hq
      simp [Memory.next, update_of_ne hqt, update_of_ne (hold y hy).1]

theorem set_ends {lport : Nat} {shutdown : Bool} {info : Option ALARM_LOOP} (h : Represents m s)
    (pCtrl pList : Bool) (ha : a.malloc = (pCtrl && pList)) :
    Ends (m.setPortLpbStatus c pCtrl pList vid lport shutdown info)
      (setPortLpbStatus c a s vid lport shutdown info) := by
  obtain ⟨r, hr⟩ := h.find vid
  unfold Memory.setPortLpbStatus setPortLpbStatus
  rw [hr, Option.bind_eq_bind, Option.bind_some]
  cases r with
  | some q =>
    obtain ⟨n, hn, hfind, hwrite⟩ := h.write hr
    dsimp only
    rw [hn, hfind]
    have hsame : { s with g_lpb_detect_ctrl := m.rest.g_lpb_detect_ctrl } = m.rest := by
      rw [← h.rest]
    have hdone := hwrite s (update n.port lport ((n.port lport).mark c shutdown info)) rfl
    rw [hsame] at hdone
    exact ⟨_, rfl, hdone⟩
  | none =>
    rw [absent h hr, ha]
    obtain ⟨⟨cells, hcells, hs⟩, hrest⟩ := h
    cases pCtrl with
    | false => exact ⟨m, rfl, ⟨cells, hcells, hs⟩, hrest⟩
    | true =>
      cases pList with
      | false => exact ⟨m, rfl, ⟨cells, hcells, hs⟩, hrest⟩
      | true =>
        obtain ⟨m', hm', hcells', hsame⟩ := append_holds hcells vid
          (update (fun _ => noPort) lport (newPort shutdown info))
        refine ⟨m', hm', ⟨_, hcells', ?_⟩, ?_⟩
        · rw [List.map_append]
          exact congrArg (· ++ _) hs
        · rw [hsame, ← hrest]
          rfl

theorem loopPorts_eq (h : Holds m (pre ++ x :: post)) (body : UInt16 → Body) :
    m.loopPorts x.pCtrl body =
      some { m with
        rest := (run (body x.ctrl.vid).turn (m.rest, x.ctrl.port) ports).1
        ctrl := update m.ctrl x.pCtrl (some { x.ctrl with
          port := (run (body x.ctrl.vid).turn (m.rest, x.ctrl.port) ports).2 }) } := by
  unfold Memory.loopPorts
  simp only [h.ctrl x (by simp), Option.bind_eq_bind, Option.bind_some]
  rfl

/-- What a reset does to one node. -/
theorem reset_turn {force : Bool} (h : Holds m (pre ++ x :: post))
    (hs : { m.rest with g_lpb_detect_ctrl := s.g_lpb_detect_ctrl } = s) {q : Lpb × (Nat → Port)}
    (hq : q = if c.opens force then
      ports.foldl (resetPort a session x.ctrl.vid).turn (s, x.ctrl.port) else (s, x.ctrl.port)) :
    ∃ m', m.resetTurn c a force session x.pCtrl = some m' ∧
      m'.list = m.list ∧ Holds m' (pre ++ { x with ctrl := { x.ctrl with port := q.2 } } :: post) ∧
      { m'.rest with g_lpb_detect_ctrl := q.1.g_lpb_detect_ctrl } = q.1 := by
  unfold Memory.resetTurn
  cases hopens : c.opens force with
  | false =>
    rw [hopens, if_neg Bool.false_ne_true] at hq
    rw [if_neg Bool.false_ne_true, hq]
    exact ⟨m, rfl, rfl, h, hs⟩
  | true =>
    rw [hopens, if_pos rfl] at hq
    have hsame : { s with g_lpb_detect_ctrl := m.rest.g_lpb_detect_ctrl } = m.rest := by rw [← hs]
    have hblind : Blind (resetPort a session x.ctrl.vid) := reset_blind
    have hrun := hblind.run m.rest.g_lpb_detect_ctrl s x.ctrl.port ports
    rw [hsame, show run (resetPort a session x.ctrl.vid).turn (s, x.ctrl.port) ports = q from hq.symm]
      at hrun
    have hloop := loopPorts_eq h (resetPort a session)
    rw [hrun] at hloop
    rw [if_pos rfl]
    exact ⟨_, hloop, rfl, h.write _ _, rfl⟩

/-- The loop of a reset over the cells that are left. -/
theorem resetLoop_eq (c : Config) (a : Api) (force : Bool) (session : Option SessionID)
    (h : Holds m (pre ++ post))
    (hseg : Seg m.next p (post.map Cell.pList) none) (hfuel : post.length < fuel)
    (hs : { m.rest with g_lpb_detect_ctrl := s.g_lpb_detect_ctrl } = s) :
    ∃ m' post', Memory.resetLoop c a force session m fuel p = some m' ∧ Holds m' (pre ++ post') ∧
      post'.map Cell.ctrl = (resetNodes c a force session s (post.map Cell.ctrl)).2 ∧
      { m'.rest with g_lpb_detect_ctrl :=
          (resetNodes c a force session s (post.map Cell.ctrl)).1.g_lpb_detect_ctrl } =
        (resetNodes c a force session s (post.map Cell.ctrl)).1 := by
  induction post generalizing m s pre fuel p with
  | nil =>
    obtain rfl : p = none := hseg
    cases fuel with
    | zero => cases hfuel
    | succ fuel => exact ⟨m, [], rfl, h, rfl, hs⟩
  | cons x post ih =>
    obtain ⟨rfl, n, hn, hrest⟩ := hseg
    obtain ⟨k, hk⟩ := h.list x (by simp)
    obtain rfl : k = n := Option.some.inj ((next_eq hk).symm.trans hn)
    cases fuel with
    | zero => cases hfuel
    | succ fuel =>
      rw [List.map_cons, resetNodes]
      obtain ⟨q, hq⟩ : ∃ q, q = if c.opens force then
        ports.foldl (resetPort a session x.ctrl.vid).turn (s, x.ctrl.port) else (s, x.ctrl.port) :=
        ⟨_, rfl⟩
      obtain ⟨m', hm', hlist, hcells, hsame⟩ := reset_turn h hs hq
      have hnext : m'.next = m.next := by
        unfold Memory.next
        rw [hlist]
      rw [show ∀ (y : Cell), pre ++ y :: post = (pre ++ [y]) ++ post by simp] at hcells
      obtain ⟨m'', post', hm'', hdone, hnodes, hend⟩ := ih hcells (hnext ▸ hrest)
        (Nat.lt_of_succ_lt_succ hfuel) hsame
      rw [← hq]
      refine ⟨m'', { x with ctrl := { x.ctrl with port := q.2 } } :: post', ?_, ?_, ?_, hend⟩
      · unfold Memory.resetLoop
        simp only [hk, hm', hlist, Option.bind_eq_bind, Option.bind_some]
        exact hm''
      · simpa using hdone
      · rw [List.map_cons, hnodes]

theorem reset_ends {force : Bool} (h : Represents m s) :
    Ends (m.resetLpbPort c a force session) (resetLpbPort c a s force session) := by
  obtain ⟨⟨cells, hcells, hs⟩, hrest⟩ := h
  obtain ⟨m', cells', hm', hcells', hnodes, hend⟩ := resetLoop_eq c a force session
    (show Holds m ([] ++ cells) from hcells) hcells.spans.seg hcells.enough hrest
  rw [← hs] at hnodes hend
  refine ⟨m', hm', ⟨cells', hcells', hnodes.symm⟩, ?_⟩
  unfold resetLpbPort
  dsimp only
  rw [← hend]

/-- The loop of `freeLpbStatusList`. The tail is not looked at. -/
theorem freeLoop_eq (hseg : Seg m.next m.g_lpb_detect_ctrl_head (cells.map Cell.pList) none)
    (hlist : ∀ x ∈ cells, ∃ n, m.list x.pList = some ⟨x.pCtrl, n⟩)
    (hctrl : ∀ x ∈ cells, m.ctrl x.pCtrl = some x.ctrl) (hdistinct : (cells.map Cell.pCtrl).Nodup)
    (hfuel : cells.length < fuel) :
    ∃ m', m.freeLoop fuel = some m' ∧ Holds m' [] ∧ m'.rest = m.rest := by
  induction cells generalizing m fuel with
  | nil =>
    have hhead : m.g_lpb_detect_ctrl_head = none := hseg
    cases fuel with
    | zero => cases hfuel
    | succ fuel =>
      unfold Memory.freeLoop
      rw [hhead]
      exact ⟨_, rfl, ⟨spans_nil, by simp, by simp, List.nodup_nil, by simp⟩, rfl⟩
  | cons x cells ih =>
    have hnodup := hseg.nodup
    obtain ⟨hhead, n, hn, hrest⟩ := hseg
    obtain ⟨k, hk⟩ := hlist x List.mem_cons_self
    obtain rfl : k = n := Option.some.inj ((next_eq hk).symm.trans hn)
    rw [List.map_cons, List.nodup_cons] at hnodup hdistinct
    have hapart : ∀ y ∈ cells, y.pList ≠ x.pList ∧ y.pCtrl ≠ x.pCtrl := by
      intro y hy
      exact ⟨fun h => hnodup.1 (h ▸ List.mem_map_of_mem hy),
        fun h => hdistinct.1 (h ▸ List.mem_map_of_mem hy)⟩
    cases fuel with
    | zero => cases hfuel
    | succ fuel =>
      unfold Memory.freeLoop
      rw [hhead]
      simp only [Memory.free, hk, hctrl x List.mem_cons_self, Option.bind_eq_bind, Option.bind_some]
      refine ih ?_ ?_ ?_ hdistinct.2 (Nat.lt_of_succ_lt_succ hfuel)
      · apply hrest.congr
        intro q hq
        obtain ⟨y, hy, rfl⟩ := List.mem_map.mp hq
        simp [Memory.next, update_of_ne (hapart y hy).1]
      · intro y hy
        dsimp only
        rw [update_of_ne (hapart y hy).1]
        exact hlist y (List.mem_cons_of_mem x hy)
      · intro y hy
        dsimp only
        rw [update_of_ne (hapart y hy).2]
        exact hctrl y (List.mem_cons_of_mem x hy)

theorem free_ends (h : Represents m s) : Ends m.freeLpbStatusList (freeLpbStatusList s) := by
  obtain ⟨⟨cells, hcells, hs⟩, hrest⟩ := h
  obtain ⟨m', hm', hdone, hsame⟩ := freeLoop_eq hcells.spans.seg hcells.list hcells.ctrl
    hcells.distinct hcells.enough
  refine ⟨m', hm', ⟨[], hdone, rfl⟩, ?_⟩
  rw [hsame, ← hrest]
  rfl

/-! ## Runs -/

/-- The calls that use the list, and what happens to the other globals between them. -/
inductive ListCall where
  | set (c : Config) (pCtrl pList : Bool) (vid : UInt16) (lport : Nat) (shutdown : Bool)
      (pInfo : Option ALARM_LOOP)
  | cls (vid : UInt16)
  | report (a : Api) (vid : UInt16) (session : Option SessionID)
  | reset (c : Config) (a : Api) (force : Bool) (session : Option SessionID)
  | wakeup (c : Config) (a : Api) (session : SessionID) (usVid : UInt16)
  | free
  | others (rest : Lpb)

def Memory.call (m : Memory) : ListCall → Option Memory
  | .set c pCtrl pList vid lport shutdown pInfo =>
    m.setPortLpbStatus c pCtrl pList vid lport shutdown pInfo
  | .cls vid => m.clsPortLpbStatus vid
  | .report a vid session => m.reportPortsLpbStatus a vid session
  | .reset c a force session => m.resetLpbPort c a force session
  | .wakeup c a session usVid => m.lpbDetectWakeupPorts c a session usVid
  | .free => m.freeLpbStatusList
  | .others rest => some { m with rest }

/-- A run is `none` once a call reads what is not allocated, or does not end. -/
def Memory.calls (m : Memory) (es : List ListCall) : Option Memory := es.foldlM Memory.call m

/-- The node of a block of the list. -/
def Memory.node (m : Memory) (p : Nat) : Option OAM_ONU_LPB_DETECT_CTRL := do
  let node ← m.list p
  m.ctrl node.ctrlnode

/-- The node of a VLAN. -/
def Memory.nodeOf (m : Memory) (vid : UInt16) : Option OAM_ONU_LPB_DETECT_CTRL := do
  let q ← m.getVlanLpbStasNode vid
  let q ← q
  m.ctrl q

/-- `l` are the blocks of the list. It has an end and no cycle, its tail is right,
and no two of its nodes are of one VLAN. -/
structure Intact (m : Memory) (l : List Nat) : Prop where
  ends : Seg m.next m.g_lpb_detect_ctrl_head l none
  acyclic : l.Nodup
  tail : (m.g_lpb_detect_ctrl_head = none ∧ m.g_lpb_detect_ctrl_tail = none) ∨
    ∃ p, m.g_lpb_detect_ctrl_tail = some p ∧ l.getLast? = some p ∧ m.next p = some none
  nodes : ∀ p ∈ l, ∃ n, m.node p = some n
  vlans : ∀ p ∈ l, ∀ q ∈ l, ∀ n k, m.node p = some n → m.node q = some k → n.vid = k.vid → p = q

theorem Holds.node (h : Holds m cells) (hx : x ∈ cells) : m.node x.pList = some x.ctrl := by
  obtain ⟨n, hn⟩ := h.list x hx
  unfold Memory.node
  simp [hn, h.ctrl x hx]

theorem intact_of (h : Represents m s) (hdistinct : s.Distinct) : ∃ l, Intact m l := by
  obtain ⟨⟨cells, hcells, hs⟩, -⟩ := h
  refine ⟨cells.map Cell.pList, hcells.spans.seg, hcells.spans.seg.nodup, ?_, ?_, ?_⟩
  · have hspans := hcells.spans
    cases htail : m.g_lpb_detect_ctrl_tail with
    | none =>
      left
      rw [htail] at hspans
      refine ⟨?_, rfl⟩
      rw [hspans.seg.head_eq, List.getLast?_eq_none_iff.mp hspans.tail.symm]
      rfl
    | some p =>
      right
      rw [htail] at hspans
      exact ⟨p, rfl, hspans.tail.symm, hspans.last_next⟩
  · intro p hp
    obtain ⟨x, hx, rfl⟩ := List.mem_map.mp hp
    exact ⟨_, hcells.node hx⟩
  · intro p hp q hq n k hn hk hvid
    obtain ⟨x, hx, rfl⟩ := List.mem_map.mp hp
    obtain ⟨y, hy, rfl⟩ := List.mem_map.mp hq
    obtain rfl : x.ctrl = n := Option.some.inj ((hcells.node hx).symm.trans hn)
    obtain rfl : y.ctrl = k := Option.some.inj ((hcells.node hy).symm.trans hk)
    unfold Lpb.Distinct Lpb.vids at hdistinct
    rw [hs, List.map_map] at hdistinct
    rw [List.inj_on_of_nodup_map hdistinct hx hy hvid]

theorem node_eq (h : Represents m s) (vid : UInt16) : m.nodeOf vid = s.getVlanLpbStasNode vid := by
  obtain ⟨r, hr⟩ := h.find vid
  unfold Memory.nodeOf
  rw [hr]
  cases r with
  | none => exact (absent h hr).symm
  | some q =>
    obtain ⟨n, hn, hfind, -⟩ := h.write hr
    rw [hfind]
    exact hn

/-- A call that ends in a represented list of distinct VLANs. -/
theorem Ends.distinct {r : Option Memory} {s' : Lpb} (h : Ends r s') (hdistinct : s'.Distinct) :
    ∃ m' s', r = some m' ∧ Represents m' s' ∧ s'.Distinct := by
  obtain ⟨m', hm', hdone⟩ := h
  exact ⟨m', s', hm', hdone, hdistinct⟩

theorem call_ends (h : Represents m s) (hdistinct : s.Distinct) (e : ListCall) :
    ∃ m' s', m.call e = some m' ∧ Represents m' s' ∧ s'.Distinct := by
  cases e with
  | set c pCtrl pList vid lport shutdown pInfo =>
    let a : Api := ⟨pCtrl && pList, fun _ => true, fun _ => true, fun _ _ => true, fun _ => none⟩
    have hset : Ends (m.setPortLpbStatus c pCtrl pList vid lport shutdown pInfo)
        (setPortLpbStatus c a s vid lport shutdown pInfo) := set_ends h pCtrl pList rfl
    exact hset.distinct (mark_distinct hdistinct _ _)
  | cls vid => exact (cls_ends h).distinct (cls_distinct hdistinct vid)
  | report a vid session => exact (report_ends h).distinct (report_distinct hdistinct vid)
  | reset c a force session => exact (reset_ends h).distinct (reset_distinct hdistinct force)
  | wakeup c a session usVid => exact (wakeup_ends h).distinct (wakeup_distinct hdistinct usVid)
  | free =>
    exact (free_ends h).distinct List.nodup_nil
  | others rest =>
    obtain ⟨cells, hcells, hs⟩ := h.nodes
    exact ⟨_, { rest with g_lpb_detect_ctrl := s.g_lpb_detect_ctrl }, rfl, ⟨⟨cells, ⟨hcells.spans,
      hcells.list, hcells.ctrl, hcells.distinct, hcells.fresh⟩, hs⟩, rfl⟩, hdistinct⟩

theorem calls_end (h : Represents m s) (hdistinct : s.Distinct) (es : List ListCall) :
    ∃ m' s', m.calls es = some m' ∧ Represents m' s' ∧ s'.Distinct := by
  induction es generalizing m s with
  | nil => exact ⟨m, s, rfl, h, hdistinct⟩
  | cons e es ih =>
    obtain ⟨m', s', hm', h', hdistinct'⟩ := call_ends h hdistinct e
    obtain ⟨m'', s'', hm'', hdone⟩ := ih h' hdistinct'
    refine ⟨m'', s'', ?_, hdone⟩
    unfold Memory.calls at hm'' ⊢
    rw [List.foldlM_cons, hm']
    exact hm''

/-- A report leaves the node of its VLAN when one of its ports is marked. -/
theorem report_node (hdistinct : s.Distinct) :
    (∀ n, (reportPortsLpbStatus a s vid session).getVlanLpbStasNode vid = some n →
      ∃ i ∈ ports, (n.port i).lpbmask ≠ 0) ∧
    ((∃ n, (reportPortsLpbStatus a s vid session).getVlanLpbStasNode vid = some n) ↔
      ∃ n, s.getVlanLpbStasNode vid = some n ∧ ∃ i ∈ ports, (n.port i).lpbmask ≠ 0) := by
  unfold reportPortsLpbStatus
  dsimp only
  cases h : s.getVlanLpbStasNode vid with
  | none =>
    rw [forPorts_none h, h]
    dsimp only
    rw [h]
    simp
  | some n =>
    obtain ⟨r, hr⟩ : ∃ r, r = run (reportPort a session vid).turn (s, n.port) ports := ⟨_, rfl⟩
    have hmask : ∀ i, (r.2 i).lpbmask = (n.port i).lpbmask := by
      intro i
      rw [hr]
      exact run_port (r := fun x y => y.lpbmask = x.lpbmask) (fun _ => rfl)
        (fun _ _ _ hx hy => hy.trans hx) report_mask (s, n.port) ports i
    have hfind : (s.forPorts vid (reportPort a session vid)).getVlanLpbStasNode vid =
        some { n with port := r.2 } := by
      rw [forPorts_some h, ← hr]
      refine find_write_self.trans ?_
      rw [hr, run_local report_local]
      rw [show s.g_lpb_detect_ctrl.find? (fun n => n.vid = vid) = some n from h]
      rfl
    rw [hfind]
    dsimp only
    by_cases hall : (ports.all fun i => (r.2 i).lpbmask = 0) = true
    · rw [if_pos hall]
      have hgone : Lpb.getVlanLpbStasNode { s.forPorts vid (reportPort a session vid) with
          g_lpb_detect_ctrl := deleteLpbStatsNode vid
            (s.forPorts vid (reportPort a session vid)).g_lpb_detect_ctrl } vid = none := by
        refine find_delete_self ?_
        have h' : (s.forPorts vid (reportPort a session vid)).vids.Nodup := by
          rw [forPorts_vids report_local]
          exact hdistinct
        exact h'
      rw [hgone]
      simp only [List.all_eq_true, decide_eq_true_eq, hmask] at hall
      simpa using hall
    · rw [if_neg hall, hfind]
      simp only [List.all_eq_true, decide_eq_true_eq, hmask, not_forall] at hall
      obtain ⟨i, hi, hmarked⟩ := hall
      refine ⟨?_, ⟨fun _ => ⟨n, rfl, i, hi, hmarked⟩, fun _ => ⟨_, rfl⟩⟩⟩
      rintro k hk
      obtain rfl := Option.some.inj hk
      exact ⟨i, hi, by rwa [hmask]⟩

end

end gwdonu.gwd_eth_loop_detect
