-- Packet dispatch is exactly once: what the packet thread does with the frames of any calls,
-- whenever they come between its steps.
import Gwdonu.PktMain

namespace gwdonu.pkt_main

open Function fifos runs os_core

/-! ## The law -/

/-- The parsers look only at the bytes of the frame. -/
def OnlyFrame (tab : CbFuncTab) : Prop :=
  ∀ i parser, (tab i).parser = some parser → ∀ pkt len, parser pkt len = parser (frame pkt len) len

/-- The class has a handler. -/
def Handled (tab : CbFuncTab) (type : Int32) : Prop :=
  0 ≤ type ∧ type < GW_PKT_MAX ∧ (tab type.toNatClampNeg).handler ≠ none

def Deed.call : Deed → Call
  | .copied c => c
  | .handed c .. => c
  | .freed c => c

/-- What was done with the frame of the call, in order. -/
def State.about (s : State) (c : Call) : List Deed := s.trace.filter (·.call = c)

/-- The calls that returned `GW_OK`, in order. -/
def State.accepted (s : State) : List Call := (s.calls.filter (·.2 = .GW_OK)).map (·.1)

instance (tab : CbFuncTab) (type : Int32) : Decidable (Handled tab type) :=
  match h : (tab type.toNatClampNeg).handler with
  | none => .isFalse fun hn => hn.2.2 h
  | some _ => decidable_of_iff (0 ≤ type ∧ type < GW_PKT_MAX)
      ⟨fun hr => ⟨hr.1, hr.2, by rw [h]; exact Option.some_ne_none _⟩, fun hn => ⟨hn.1, hn.2.1⟩⟩

/-- The handler gets the bytes, the length and the port of the call. -/
def Call.handing (c : Call) : Deed := .handed c c.type c.pkt c.len c.portid

def Call.handings (tab : CbFuncTab) (c : Call) : List Deed := if Handled tab c.type then [c.handing] else []

/-- All that is to be done with an accepted frame. -/
def Call.whole (tab : CbFuncTab) (c : Call) : List Deed := .copied c :: c.handings tab ++ [.freed c]

/-- The frames that were given to the handler of the class, in order. -/
def State.handedTo (s : State) (type : Int32) : List Deed :=
  s.trace.filter fun | .handed _ t .. => t = type | _ => false

/-- Each accepted frame is copied, then handled, then freed, and none of it twice; a refused
one is never handled; and each handler gets the frames of its class in the order of their calls. -/
structure Law (tab : CbFuncTab) (s : State) : Prop where
  distinct : (s.calls.map (·.1)).Nodup
  known : ∀ d ∈ s.trace, d.call ∈ s.calls.map (·.1)
  accepted : ∀ c ∈ s.accepted, [.copied c] <+: s.about c ∧ s.about c <+: c.whole tab
  refused : ∀ c, (c, .GW_ERROR) ∈ s.calls → s.about c = [] ∨ s.about c = [.copied c, .freed c]
  order : ∀ type, s.handedTo type <+: (s.accepted.filter (·.type = type)).map Call.handing

/-- The frame that the thread takes has the highest class of those that wait. -/
def MostUrgent (s t : State) : Prop :=
  ∀ p copy, s.stage = .getting → t.stage = .handling p → s.heap p.pkt = some copy →
    ∀ c ∈ s.accepted, .freed c ∉ s.trace → gw_get_pkt_pri c.type ≤ gw_get_pkt_pri copy.call.type

/-- The event comes to its end, keeps the law, and takes the most urgent frame. -/
def Keeps (tab : CbFuncTab) (s : State) (e : Event) : Prop :=
  ∃ t, s.call tab e = some t ∧ Law tab t ∧ MostUrgent s t

/-- Nothing that was accepted is left to do. -/
def Finished (tab : CbFuncTab) (s : State) : Prop := ∀ c ∈ s.accepted, s.about c = c.whole tab

/-! ## What waits -/

/-- An accepted frame, and the address of its copy. -/
structure Item where
  call : Call
  pkt : UInt32
  deriving DecidableEq

def Item.para (x : Item) : queue_para_t := ⟨x.call.portid, x.call.len, x.pkt⟩

def Item.block (x : Item) : Block := ⟨gw_pkt_msg_size, x.para.bytes⟩

def Item.line (x : Item) : Nat := (gw_get_pkt_pri x.call.type).toNatClampNeg

def limits : Limits := ⟨gw_pkt_queue_depth, gw_pkt_msg_size, GW_OSAL_MAX_QUEUE_PRI.toNatClampNeg⟩

/-- What the thread has in its buffer. -/
def Stage.Holds : Stage → List Item → Prop
  | .getting, hand => hand = []
  | .handling p, hand | .freeing p, hand => ∃ x, hand = [x] ∧ p = x.para

/-- What was done so far with the frame that the thread has. -/
def Stage.deeds (tab : CbFuncTab) (stage : Stage) (x : Item) : List Deed :=
  .copied x.call :: match stage with
    | .freeing _ => x.call.handings tab
    | _ => []

/-- Which of what the thread has was handled. -/
def Stage.handled (stage : Stage) (hand : List Item) : List Item :=
  match stage with
  | .freeing _ => hand
  | _ => []

def Deed.isHanded : Deed → Bool
  | .handed .. => true
  | _ => false

/-- The frames `came` were accepted. The thread is through with `done`, has `hand` in its
buffer, and the others wait in the queue, as `m`. -/
structure Holds (tab : CbFuncTab) (s : State) (came done hand : List Item) (m : Fifos Item) : Prop where
  serves : Serves s.gw_pkt_queueid limits s.os (map Item.block m)
  accepted : s.accepted = came.map Item.call
  numbers : s.calls.map (·.1.number) = List.range s.calls.length
  turn : InTurn Item.line came (done ++ hand) m
  stage : s.stage.Holds hand
  owned : ∀ x ∈ came, x ∉ done → s.heap x.pkt = some ⟨x.call, x.call.pkt⟩
  typed : ∀ x ∈ came, x.call.type ≠ GW_PKT_MAX ∧ gw_pkt_parser_call tab x.call.pkt x.call.len = x.call.type
  known : ∀ d ∈ s.trace, d.call ∈ s.calls.map (·.1)
  gone : ∀ x ∈ done, s.about x.call = x.call.whole tab
  held : ∀ x ∈ hand, s.about x.call = s.stage.deeds tab x
  waiting : ∀ i, ∀ x ∈ m i, s.about x.call = [.copied x.call]
  refused : ∀ c, (c, .GW_ERROR) ∈ s.calls → s.about c = [] ∨ s.about c = [.copied c, .freed c]
  order : s.trace.filter Deed.isHanded = (done ++ s.stage.handled hand).flatMap (·.call.handings tab)

section
variable {tab : CbFuncTab} {s : State} {came done hand : List Item} {m : Fifos Item} {x : Item}

theorem Holds.distinct (h : Holds tab s came done hand m) : (s.calls.map (·.1)).Nodup := by
  have hnumbers : ((s.calls.map (·.1)).map Call.number).Nodup := by
    rw [List.map_map]
    change (s.calls.map (·.1.number)).Nodup
    rw [h.numbers]
    exact List.nodup_range
  exact hnumbers.of_map

theorem accepted_sublist (s : State) : s.accepted.Sublist (s.calls.map (·.1)) :=
  List.filter_sublist.map _

/-- The accepted frames are apart by their calls. -/
theorem Holds.apart (h : Holds tab s came done hand m) : (came.map Item.call).Nodup :=
  h.accepted ▸ h.distinct.sublist (accepted_sublist s)

theorem Holds.nodup (h : Holds tab s came done hand m) : came.Nodup := h.apart.of_map

theorem Holds.gone_nodup (h : Holds tab s came done hand m) : (done ++ hand).Nodup := h.turn.gone_nodup h.nodup

/-- One call has one frame. -/
theorem Holds.call_inj (h : Holds tab s came done hand m) {y : Item} (hx : x ∈ came) (hy : y ∈ came)
    (hxy : x.call = y.call) : x = y := List.inj_on_of_nodup_map h.apart hx hy hxy

/-- Where an accepted frame is. -/
theorem Holds.somewhere (h : Holds tab s came done hand m) (hx : x ∈ came) :
    x ∈ done ∨ x ∈ hand ∨ x ∈ m x.line := by
  rcases h.turn.mem.mp hx with hgone | hwaits
  · rcases List.mem_append.mp hgone with hdone | hhand
    · exact Or.inl hdone
    · exact Or.inr (Or.inl hhand)
  · exact Or.inr (Or.inr hwaits)

theorem Holds.done_came (h : Holds tab s came done hand m) (hx : x ∈ done) : x ∈ came :=
  h.turn.mem.mpr (Or.inl (List.mem_append_left _ hx))

theorem Holds.hand_came (h : Holds tab s came done hand m) (hx : x ∈ hand) : x ∈ came :=
  h.turn.mem.mpr (Or.inl (List.mem_append_right _ hx))

theorem pri_in_range {type : Int32} (h : type ≠ GW_PKT_MAX) :
    0 ≤ gw_get_pkt_pri type ∧ gw_get_pkt_pri type < GW_OSAL_MAX_QUEUE_PRI := by
  unfold gw_get_pkt_pri
  dsimp only
  split_ifs with hpri
  · decide
  · have hne : (gw_pkt_pri_maps.lookup type).getD GW_OSAL_MAX_QUEUE_PRI ≠ GW_OSAL_MAX_QUEUE_PRI :=
      fun heq => hpri ⟨heq, h⟩
    simp only [gw_pkt_pri_maps, List.lookup_cons, List.lookup_nil] at hne ⊢
    split
    · decide
    · split
      · decide
      · split
        · decide
        · simp_all

theorem pri_toNat {type : Int32} (h : type ≠ GW_PKT_MAX) :
    ((gw_get_pkt_pri type).toNatClampNeg : Int) = (gw_get_pkt_pri type).toInt := by
  have hlow := Int32.le_iff_toInt_le.mp (pri_in_range h).1
  exact Int.toNat_of_nonneg hlow

theorem line_lt (h : x.call.type ≠ GW_PKT_MAX) : x.line < limits.pri_num := by
  have hpri := pri_toNat h
  have hhigh := Int32.lt_iff_toInt_lt.mp (pri_in_range h).2
  change (gw_get_pkt_pri x.call.type).toInt < 8 at hhigh
  change (gw_get_pkt_pri x.call.type).toNatClampNeg < 8
  omega

theorem pri_max : gw_get_pkt_pri GW_PKT_MAX = GW_OSAL_MAX_QUEUE_PRI := by decide

/-! ## The law of what waits -/

theorem deeds_first (stage : Stage) (x : Item) : stage.deeds tab x <+: x.call.whole tab := by
  cases stage with
  | freeing p => exact List.prefix_append _ _
  | _ => exact List.prefix_append _ (x.call.handings tab ++ [.freed x.call])

theorem copied_first (l : List Deed) (c : Call) : [.copied c] <+: .copied c :: l := ⟨l, rfl⟩

/-- An accepted frame was copied, and what was done since is in order. -/
theorem Holds.part (h : Holds tab s came done hand m) (hx : x ∈ came) :
    [.copied x.call] <+: s.about x.call ∧ s.about x.call <+: x.call.whole tab := by
  rcases h.somewhere hx with hdone | hhand | hwaits
  · rw [h.gone x hdone]
    exact ⟨copied_first _ _, List.prefix_rfl⟩
  · rw [h.held x hhand]
    exact ⟨copied_first _ _, deeds_first _ _⟩
  · rw [h.waiting _ x hwaits]
    exact ⟨List.prefix_rfl, copied_first _ _⟩

theorem handedTo_eq (s : State) (type : Int32) :
    s.handedTo type =
      (s.trace.filter Deed.isHanded).filter fun | .handed _ t .. => t = type | _ => false := by
  rw [List.filter_filter, State.handedTo]
  apply List.filter_congr
  intro d _
  cases d <;> simp [Deed.isHanded]

/-- Of the handings of some frames, those of a class are the handings of its frames. -/
theorem handings_of_class (tab : CbFuncTab) (l : List Item) (type : Int32) :
    (l.flatMap (·.call.handings tab)).filter (fun | .handed _ t .. => t = type | _ => false) =
      if Handled tab type then ((l.filter (·.call.type = type)).map Item.call).map Call.handing else [] := by
  induction l with
  | nil => simp
  | cons x l ih =>
    rw [List.flatMap_cons, List.filter_append, ih, Call.handings]
    by_cases hx : x.call.type = type
    · subst hx
      split_ifs <;> simp [Call.handing]
    · rw [List.filter_cons_of_neg (by simpa using hx)]
      split_ifs <;> simp [Call.handing, hx]

theorem handled_first (stage : Stage) (hand : List Item) : stage.handled hand <+: hand := by
  cases stage with
  | freeing p => exact List.prefix_rfl
  | _ => exact List.nil_prefix

/-- A handler gets the frames of its class in the order of their calls. -/
theorem Holds.class_order (h : Holds tab s came done hand m) (type : Int32) :
    s.handedTo type <+: (s.accepted.filter (·.type = type)).map Call.handing := by
  rw [handedTo_eq, h.order, handings_of_class, h.accepted, List.filter_map]
  split_ifs
  · have hclass := h.turn.class (f := (·.call.type)) (g := fun t => (gw_get_pkt_pri t).toNatClampNeg)
      (fun _ => rfl) type
    have hgone : done ++ s.stage.handled hand <+: done ++ hand :=
      (List.prefix_append_right_inj done).mpr (handled_first s.stage hand)
    have hfirst : (done ++ s.stage.handled hand).filter (·.call.type = type) <+:
        came.filter (·.call.type = type) := by
      rw [hclass]
      exact (hgone.filter _).trans (List.prefix_append _ _)
    exact (hfirst.map _).map _
  · exact List.nil_prefix

theorem Holds.law (h : Holds tab s came done hand m) : Law tab s := by
  refine ⟨h.distinct, h.known, ?_, h.refused, h.class_order⟩
  intro c hc
  rw [h.accepted] at hc
  obtain ⟨x, hx, rfl⟩ := List.mem_map.mp hc
  exact h.part hx

/-- A frame that was not freed when the thread is at its next one waits. -/
theorem Holds.unfreed (h : Holds tab s came done [] m) {c : Call} (hc : c ∈ s.accepted)
    (hfreed : .freed c ∉ s.trace) : ∃ x, x.call = c ∧ x ∈ m x.line := by
  rw [h.accepted] at hc
  obtain ⟨x, hx, rfl⟩ := List.mem_map.mp hc
  refine ⟨x, rfl, ?_⟩
  rcases h.somewhere hx with hdone | hhand | hwaits
  · have hwhole := h.gone x hdone
    have hmem : .freed x.call ∈ s.about x.call := by
      rw [hwhole, Call.whole]
      simp
    exact absurd (List.mem_filter.mp hmem).1 hfreed
  · cases hhand
  · exact hwaits

/-- When nothing waits, everything was done. -/
theorem Holds.finished (h : Holds tab s came done [] m) (hempty : total m limits.pri_num = 0) :
    Finished tab s := by
  intro c hc
  rw [h.accepted] at hc
  obtain ⟨x, hx, rfl⟩ := List.mem_map.mp hc
  rcases h.somewhere hx with hdone | hhand | hwaits
  · exact h.gone x hdone
  · cases hhand
  · rw [total_zero hempty (line_lt (h.typed x hx).1)] at hwaits
    cases hwaits

/-! ## A call -/

/-- A new call has no deeds yet. -/
theorem Holds.fresh (h : Holds tab s came done hand m) {c : Call} (hc : c.number = s.calls.length) :
    c ∉ s.calls.map (·.1) := by
  intro hmem
  have hnumber : c.number ∈ s.calls.map (·.1.number) := by
    obtain ⟨e, he, rfl⟩ := List.mem_map.mp hmem
    exact List.mem_map_of_mem he
  rw [h.numbers, List.mem_range] at hnumber
  omega

theorem Holds.about_fresh (h : Holds tab s came done hand m) {c : Call} (hc : c ∉ s.calls.map (·.1)) :
    s.about c = [] := by
  rw [State.about, List.filter_eq_nil_iff]
  intro d hd hdc
  rw [decide_eq_true_eq] at hdc
  exact hc (hdc ▸ h.known d hd)

theorem Holds.accepted_known (h : Holds tab s came done hand m) (hx : x ∈ came) :
    x.call ∈ s.calls.map (·.1) := by
  refine (accepted_sublist s).subset ?_
  rw [h.accepted]
  exact List.mem_map_of_mem hx

/-- What is done for another call changes nothing for this one. -/
theorem other_deeds {c c' : Call} (hne : c' ≠ c) {ds : List Deed} (hds : ∀ d ∈ ds, d.call = c') :
    ds.filter (·.call = c) = [] := by
  rw [List.filter_eq_nil_iff]
  intro d hd hdc
  rw [decide_eq_true_eq] at hdc
  exact hne ((hds d hd).symm.trans hdc)

/-- A call comes to its end, and what was done for it is `ds`. -/
def State.ended (s : State) (os : Os) (heap : UInt32 → Option Copy) (c : Call) (ret : gw_status)
    (ds : List Deed) : State :=
  { s with os, heap, calls := s.calls ++ [(c, ret)], trace := s.trace ++ ds }

variable {os : Os} {heap : UInt32 → Option Copy} {c : Call} {ds : List Deed}

theorem ended_about (ret : gw_status) (c' : Call) :
    (s.ended os heap c ret ds).about c' = s.about c' ++ ds.filter (·.call = c') :=
  List.filter_append ..

theorem ended_about_known (hc : c ∉ s.calls.map (·.1)) (hds : ∀ d ∈ ds, d.call = c) (ret : gw_status) {c' : Call}
    (hc' : c' ∈ s.calls.map (·.1)) :
    (s.ended os heap c ret ds).about c' = s.about c' := by
  have hne : c ≠ c' := fun heq => hc (heq ▸ hc')
  rw [ended_about, other_deeds hne hds, List.append_nil]

theorem Holds.ended_fresh (h : Holds tab s came done hand m) (hc : c ∉ s.calls.map (·.1))
    (hds : ∀ d ∈ ds, d.call = c) (ret : gw_status) : (s.ended os heap c ret ds).about c = ds := by
  rw [ended_about, h.about_fresh hc, List.nil_append, List.filter_eq_self]
  intro d hd
  exact decide_eq_true (hds d hd)

/-- The call is counted, and what was held for the others is held still. -/
theorem Holds.ended (h : Holds tab s came done hand m) (hc : c.number = s.calls.length)
    (hds : ∀ d ∈ ds, d.call = c) (hhanded : ds.filter Deed.isHanded = []) {ret : gw_status}
    (hret : ret = .GW_ERROR → ds = [] ∨ ds = [.copied c, .freed c])
    {came' : List Item} {m' : Fifos Item}
    (hserves : Serves s.gw_pkt_queueid limits os (map Item.block m'))
    (haccepted : (s.ended os heap c ret ds).accepted = came'.map Item.call)
    (hturn : InTurn Item.line came' (done ++ hand) m')
    (howned : ∀ x ∈ came', x ∉ done → heap x.pkt = some ⟨x.call, x.call.pkt⟩)
    (htyped : ∀ x ∈ came', x.call.type ≠ GW_PKT_MAX ∧
      gw_pkt_parser_call tab x.call.pkt x.call.len = x.call.type)
    (hwaiting : ∀ i, ∀ x ∈ m' i, (s.ended os heap c ret ds).about x.call = [.copied x.call]) :
    Holds tab (s.ended os heap c ret ds) came' done hand m' := by
  have hfresh := h.fresh hc
  refine ⟨hserves, haccepted, ?_, hturn, h.stage, howned, htyped, ?_, ?_, ?_, hwaiting, ?_, ?_⟩
  · change (s.calls ++ [(c, ret)]).map (·.1.number) = List.range (s.calls ++ [(c, ret)]).length
    rw [List.map_append, h.numbers, List.length_append, List.length_singleton, List.range_succ, ← hc]
    rfl
  · intro d hd
    change d.call ∈ (s.calls ++ [(c, ret)]).map (·.1)
    rw [List.map_append, List.mem_append]
    rcases List.mem_append.mp hd with hold | hnew
    · exact Or.inl (h.known d hold)
    · exact Or.inr (by simp [hds d hnew])
  · intro x hx
    rw [ended_about_known hfresh hds ret (h.accepted_known (h.done_came hx))]
    exact h.gone x hx
  · intro x hx
    rw [ended_about_known hfresh hds ret (h.accepted_known (h.hand_came hx))]
    exact h.held x hx
  · intro c' hc'
    rcases List.mem_append.mp hc' with hold | hnew
    · rw [ended_about_known hfresh hds ret (List.mem_map.mpr ⟨_, hold, rfl⟩)]
      exact h.refused c' hold
    · obtain ⟨rfl, rfl⟩ := Prod.mk.inj (List.mem_singleton.mp hnew)
      rw [h.ended_fresh hfresh hds]
      exact hret rfl
  · change (s.trace ++ ds).filter Deed.isHanded = _
    rw [List.filter_append, hhanded, List.append_nil]
    exact h.order

theorem Holds.refuse (h : Holds tab s came done hand m) (hc : c.number = s.calls.length)
    (hserves : Serves s.gw_pkt_queueid limits os (map Item.block m))
    (hds : ds = [] ∨ ds = [.copied c, .freed c]) :
    Holds tab (s.ended os s.heap c .GW_ERROR ds) came done hand m := by
  have hown : ∀ d ∈ ds, d.call = c := by
    rcases hds with rfl | rfl
    · nofun
    · simp [Deed.call]
  have hhanded : ds.filter Deed.isHanded = [] := by
    rcases hds with rfl | rfl <;> rfl
  have haccepted : (s.ended os s.heap c .GW_ERROR ds).accepted = s.accepted := by
    simp [State.ended, State.accepted]
  refine h.ended hc hown hhanded (fun _ => hds) hserves (haccepted.trans h.accepted) h.turn h.owned h.typed ?_
  intro i x hx
  rw [ended_about_known (h.fresh hc) hown _ (h.accepted_known (h.turn.waits hx))]
  exact h.waiting i x hx

theorem Holds.accept (h : Holds tab s came done hand m) (hx : x.call.number = s.calls.length)
    (hserves : Serves s.gw_pkt_queueid limits os (map Item.block (put m x.line x)))
    (hpkt : s.heap x.pkt = none) (htype : x.call.type ≠ GW_PKT_MAX)
    (hparse : gw_pkt_parser_call tab x.call.pkt x.call.len = x.call.type) :
    Holds tab
      (s.ended os (update s.heap x.pkt (some ⟨x.call, x.call.pkt⟩)) x.call .GW_OK [.copied x.call])
      (came ++ [x]) done hand (put m x.line x) := by
  have hfresh := h.fresh hx
  have hown : ∀ d ∈ [Deed.copied x.call], d.call = x.call := by simp [Deed.call]
  refine h.ended hx hown rfl (by rintro ⟨⟩) hserves ?_ (h.turn.put x) ?_ ?_ ?_
  · rw [List.map_append, ← h.accepted]
    simp [State.ended, State.accepted]
  · intro y hy hdone
    rcases List.mem_append.mp hy with hold | hnew
    · have howned := h.owned y hold hdone
      have hne : y.pkt ≠ x.pkt := by
        intro heq
        rw [heq, hpkt] at howned
        cases howned
      rw [update_of_ne hne]
      exact howned
    · obtain rfl := List.mem_singleton.mp hnew
      exact update_self ..
  · intro y hy
    rcases List.mem_append.mp hy with hold | hnew
    · exact h.typed y hold
    · obtain rfl := List.mem_singleton.mp hnew
      exact ⟨htype, hparse⟩
  · have hold : ∀ i, ∀ y ∈ m i, (s.ended os (update s.heap x.pkt (some ⟨x.call, x.call.pkt⟩)) x.call .GW_OK
        [.copied x.call]).about y.call = [.copied y.call] := by
      intro i y hy
      rw [ended_about_known hfresh hown _ (h.accepted_known (h.turn.waits hy))]
      exact h.waiting i y hy
    intro i y hy
    by_cases hi : i = x.line
    · subst hi
      rw [put_self, List.mem_append] at hy
      rcases hy with hy | hy
      · exact hold _ y hy
      · obtain rfl := List.mem_singleton.mp hy
        exact h.ended_fresh hfresh hown _
    · rw [put_other hi] at hy
      exact hold i y hy

/-- The record is put in the line of its class, or the queue is as it was. -/
theorem put_line {id : Nat} (h : Serves id limits os (map Item.block m)) (x : Item)
    (room : Bool) :
    let r := gw_pri_queue_put room os id (some x.para.bytes) gw_pkt_msg_size (gw_get_pkt_pri x.call.type)
    (r.2 = .OK ∧ Serves id limits r.1 (map Item.block (put m x.line x))) ∨
      (r.2 ≠ .OK ∧ Serves id limits r.1 (map Item.block m)) := by
  obtain ⟨hcode, hserves⟩ := put_serves h room (some x.para.bytes) gw_pkt_msg_size
    (gw_get_pkt_pri x.call.type)
  rw [Os.call] at hcode hserves
  dsimp only at hcode hserves ⊢
  rw [Limits.call] at hcode hserves
  split_ifs at hcode hserves
  · left
    refine ⟨Answer.put.inj hcode, ?_⟩
    rw [map_put]
    rw [take_bytes] at hserves
    exact hserves
  · right
    refine ⟨?_, hserves⟩
    rw [Answer.put.inj hcode]
    decide

/-- What the thread's next take finds. -/
theorem get_line {id : Nat} (h : Serves id limits os (map Item.block m)) :
    (gw_pri_queue_get os id false gw_pkt_msg_size GW_OSAL_WAIT_FOREVER = none ∧
        total m limits.pri_num = 0) ∨
      ∃ i x os', highest m limits.pri_num = some i ∧ m i = x :: (m i).tail ∧
        gw_pri_queue_get os id false gw_pkt_msg_size GW_OSAL_WAIT_FOREVER =
          some (os', ⟨.OK, some gw_pkt_msg_size, some x.para.bytes⟩) ∧
        Serves id limits os' (map Item.block (drop m i)) := by
  obtain ⟨hanswer, hserves⟩ := call_serves h (.get false gw_pkt_msg_size GW_OSAL_WAIT_FOREVER)
  rw [Limits.call, if_neg (by decide), front_map] at hanswer hserves
  rw [Os.call] at hanswer hserves
  cases hi : highest m limits.pri_num with
  | none =>
    left
    rw [front_none hi] at hanswer
    refine ⟨?_, highest_none_iff.mp hi⟩
    cases hget : gw_pri_queue_get os id false gw_pkt_msg_size GW_OSAL_WAIT_FOREVER with
    | none => rfl
    | some r =>
      rw [hget] at hanswer
      cases hanswer
  | some i =>
    right
    obtain ⟨x, hfront, hm⟩ := front_eq hi
    rw [hfront] at hanswer hserves
    cases hget : gw_pri_queue_get os id false gw_pkt_msg_size GW_OSAL_WAIT_FOREVER with
    | none =>
      rw [hget] at hanswer
      cases hanswer
    | some r =>
      obtain ⟨os', got⟩ := r
      rw [hget] at hanswer hserves
      refine ⟨i, x, os', rfl, hm, ?_, ?_⟩
      · rw [Answer.get.inj hanswer]
        rfl
      · rw [map_drop]
        exact hserves

theorem parser_frame (hparse : OnlyFrame tab) (pkt : List UInt8) (len : Int32) :
    gw_pkt_parser_call tab (frame pkt len) len = gw_pkt_parser_call tab pkt len := by
  have hfound : ∀ f ∈ (List.range GW_PKT_MAX.toNatClampNeg).filterMap fun i => (tab i).parser,
      f (frame pkt len) len = f pkt len := by
    intro f hf
    obtain ⟨i, -, hi⟩ := List.mem_filterMap.mp hf
    exact (hparse i f hi pkt len).symm
  unfold gw_pkt_parser_call
  rw [List.map_congr_left hfound]

theorem malloc_free {mal : Option UInt32} {data : UInt32} (h : s.malloc mal = some data) :
    s.heap data = none := by
  have hdata := (Option.filter_eq_some_iff.mp h).2
  simp only [decide_eq_true_eq] at hdata
  exact hdata.2

@[simp] theorem copy_os (data : UInt32) (c : Call) (bytes : List UInt8) : (s.copy data c bytes).os = s.os := rfl

@[simp] theorem copy_queueid (data : UInt32) (c : Call) (bytes : List UInt8) :
    (s.copy data c bytes).gw_pkt_queueid = s.gw_pkt_queueid := rfl

/-- What a call comes to once it has its copy: the copy is freed again if the queue refuses it. -/
theorem send_copied (c : Call) (pkt : List UInt8) {mal : Option UInt32} (room : Bool) {data : UInt32}
    (hpri : gw_get_pkt_pri c.type ≠ GW_OSAL_MAX_QUEUE_PRI) (hmal : s.malloc mal = some data) :
    let r := gw_pri_queue_put room s.os s.gw_pkt_queueid (some (Item.para ⟨c, data⟩).bytes) gw_pkt_msg_size
      (gw_get_pkt_pri c.type)
    (r.2 ≠ .OK → s.gwlib_sendPktToQueue c pkt mal room =
      some ({ s with os := r.1, trace := s.trace ++ [.copied c, .freed c] }, .GW_ERROR)) ∧
    (r.2 = .OK → s.gwlib_sendPktToQueue c pkt mal room =
      some ({ s with
        os := r.1
        heap := update s.heap data (some ⟨c, frame pkt c.len⟩)
        trace := s.trace ++ [.copied c] }, .GW_OK)) := by
  have hback : update (update s.heap data (some ⟨c, frame pkt c.len⟩)) data none = s.heap := by
    rw [update_idem, ← malloc_free hmal, update_eq_self]
  have hbytes : (Item.para ⟨c, data⟩).bytes = queue_para_t.bytes ⟨c.portid, c.len, data⟩ := rfl
  rw [State.gwlib_sendPktToQueue]
  dsimp only
  rw [if_pos hpri, hmal, hbytes]
  simp only [copy_os, copy_queueid]
  constructor
  · intro hcode
    simp only [hcode, ne_eq, not_false_eq_true, if_true]
    rw [State.copy, State.free]
    dsimp only
    rw [update_self, Option.map_some, Option.map_some, hback, List.append_assoc]
    rfl
  · intro hcode
    simp only [hcode, ne_eq, not_true_eq_false, if_false]
    rfl

/-- A call ends, and its frame waits if it was accepted. -/
theorem send_holds (hparse : OnlyFrame tab) (h : Holds tab s came done hand m) (pkt : List UInt8)
    (len portid : Int32) (mal : Option UInt32) (room : Bool) :
    ∃ t came' m', s.call tab (.send pkt len portid mal room) = some t ∧
      Holds tab t came' done hand m' ∧ t.stage = s.stage ∧
      total m' limits.pri_num ≤ total m limits.pri_num + 1 := by
  have hframe := parser_frame hparse pkt len
  rw [State.call]
  dsimp only
  generalize hcall : s.newCall tab pkt len portid = c
  have hnumber : c.number = s.calls.length := by rw [← hcall]; rfl
  have hbytes : c.pkt = frame pkt c.len := by rw [← hcall]; rfl
  have htyped : gw_pkt_parser_call tab c.pkt c.len = c.type := by
    rw [← hcall]
    exact hframe
  by_cases htype : c.type = GW_PKT_MAX
  · have hrefuse := h.refuse hnumber h.serves (Or.inl rfl)
    rw [State.gwlib_sendPktToQueue, if_neg (by simp [htype, pri_max])]
    refine ⟨_, came, m, rfl, ?_, rfl, Nat.le_succ _⟩
    simpa [State.ended] using hrefuse
  have hpri : gw_get_pkt_pri c.type ≠ GW_OSAL_MAX_QUEUE_PRI := by
    intro heq
    have hlt := (pri_in_range htype).2
    rw [heq] at hlt
    exact absurd hlt (by decide)
  cases hmal : s.malloc mal with
  | none =>
    have hrefuse := h.refuse hnumber h.serves (Or.inl rfl)
    rw [State.gwlib_sendPktToQueue, if_pos hpri, hmal]
    refine ⟨_, came, m, rfl, ?_, rfl, Nat.le_succ _⟩
    simpa [State.ended] using hrefuse
  | some data =>
    obtain ⟨hrefused, htaken⟩ := send_copied c pkt room hpri hmal
    rcases put_line h.serves ⟨c, data⟩ room with ⟨hcode, hserves⟩ | ⟨hcode, hserves⟩
    · have haccept := h.accept (x := ⟨c, data⟩) hnumber hserves (malloc_free hmal) htype htyped
      rw [htaken hcode, ← hbytes]
      refine ⟨_, came ++ [Item.mk c data], put m (Item.line ⟨c, data⟩) ⟨c, data⟩, rfl, haccept, rfl, ?_⟩
      exact (total_put (line_lt htype) _).le
    · have hrefuse := h.refuse hnumber hserves (Or.inr rfl)
      rw [hrefused hcode]
      exact ⟨_, _, _, rfl, hrefuse, rfl, Nat.le_succ _⟩

/-! ## A stage of the thread -/

theorem handings_call (tab : CbFuncTab) (c : Call) : ∀ d ∈ c.handings tab, d.call = c := by
  intro d hd
  unfold Call.handings at hd
  split at hd
  · rw [List.mem_singleton.mp hd]
    rfl
  · cases hd

/-- What the thread does for its frame. -/
def State.moved (s : State) (stage : Stage) (heap : UInt32 → Option Copy) (ds : List Deed) : State :=
  { s with stage, heap, trace := s.trace ++ ds }

theorem moved_about {stage : Stage} {c' : Call} (hds : ∀ d ∈ ds, d.call = c) (hne : c ≠ c') :
    (s.moved stage heap ds).about c' = s.about c' := by
  have happend : (s.moved stage heap ds).about c' = s.about c' ++ ds.filter (·.call = c') :=
    List.filter_append ..
  rw [happend, other_deeds hne hds, List.append_nil]

theorem moved_about_self {stage : Stage} (hds : ∀ d ∈ ds, d.call = c) :
    (s.moved stage heap ds).about c = s.about c ++ ds := by
  have hall : ds.filter (·.call = c) = ds := by
    rw [List.filter_eq_self]
    intro d hd
    exact decide_eq_true (hds d hd)
  have happend : (s.moved stage heap ds).about c = s.about c ++ ds.filter (·.call = c) :=
    List.filter_append ..
  rw [happend, hall]

theorem Holds.moved_known (h : Holds tab s came done [x] m) (hds : ∀ d ∈ ds, d.call = x.call) (stage : Stage) :
    ∀ d ∈ (s.moved stage heap ds).trace, d.call ∈ s.calls.map (·.1) := by
  intro d hd
  rcases List.mem_append.mp hd with hold | hnew
  · exact h.known d hold
  · rw [hds d hnew]
    exact h.accepted_known (h.hand_came List.mem_cons_self)

/-- The calls that returned an error are not those that were accepted. -/
theorem Holds.refused_apart (h : Holds tab s came done hand m) (hx : x ∈ came)
    (hc : (c, .GW_ERROR) ∈ s.calls) : x.call ≠ c := by
  rintro rfl
  have haccepted : x.call ∈ s.accepted := by
    rw [h.accepted]
    exact List.mem_map_of_mem hx
  obtain ⟨e, he, hcall⟩ := List.mem_map.mp haccepted
  obtain ⟨he, hok⟩ := List.mem_filter.mp he
  have heq := List.inj_on_of_nodup_map h.distinct he hc hcall
  rw [heq] at hok
  cases hok

theorem Holds.hand_apart (h : Holds tab s came done [x] m) : x ∉ done := by
  intro hx
  exact (List.nodup_append.mp h.gone_nodup).2.2 x hx x List.mem_cons_self rfl

/-- The frame that the thread has is none of the others. -/
theorem Holds.other_call (h : Holds tab s came done [x] m) {y : Item} (hy : y ∈ came) (hne : y ≠ x) :
    x.call ≠ y.call :=
  fun heq => hne (h.call_inj hy (h.hand_came List.mem_cons_self) heq.symm)

theorem Holds.waits_apart (h : Holds tab s came done [x] m) {i : Nat} {y : Item} (hy : y ∈ m i) : y ≠ x := by
  rintro rfl
  exact h.turn.apart h.nodup (List.mem_append_right done List.mem_cons_self) hy

theorem Holds.done_apart (h : Holds tab s came done [x] m) {y : Item} (hy : y ∈ done) : y ≠ x := by
  rintro rfl
  exact h.hand_apart hy

/-- The thread takes a frame out of the queue. -/
theorem Holds.take (h : Holds tab s came done [] m) {i : Nat} {l : List Item} (hm : m i = x :: l)
    (hserves : Serves s.gw_pkt_queueid limits os (map Item.block (drop m i))) :
    Holds tab { s with os, stage := .handling x.para } came done [x] (drop m i) := by
  have hx : x ∈ m i := hm ▸ List.mem_cons_self
  have hstage : s.stage = .getting := by
    have hstage := h.stage
    cases hs : s.stage with
    | getting => rfl
    | _ =>
      rw [hs] at hstage
      obtain ⟨y, hy, -⟩ := hstage
      cases hy
  have horder := h.order
  rw [hstage] at horder
  refine ⟨hserves, h.accepted, h.numbers, ?_, ⟨x, rfl, rfl⟩, h.owned, h.typed, h.known, h.gone, ?_, ?_,
    h.refused, horder⟩
  · simpa using h.turn.drop hm
  · intro y hy
    obtain rfl := List.mem_singleton.mp hy
    exact h.waiting i y hx
  · intro j y hy
    refine h.waiting j y ?_
    by_cases hj : j = i
    · subst hj
      rw [drop_self] at hy
      exact List.mem_of_mem_tail hy
    · rwa [drop_other hj] at hy

/-- The handler is called, if the class has one. -/
theorem Holds.handle (h : Holds tab s came done [x] m) {p : queue_para_t} (hstage : s.stage = .handling p) :
    Holds tab (s.moved (.freeing p) s.heap (x.call.handings tab)) came done [x] m := by
  have hds := handings_call tab x.call
  have hheld := h.held x List.mem_cons_self
  have hp := h.stage
  have horder := h.order
  rw [hstage] at hheld hp horder
  refine ⟨h.serves, h.accepted, h.numbers, h.turn, hp, h.owned, h.typed, h.moved_known hds _, ?_, ?_, ?_, ?_, ?_⟩
  · intro y hy
    rw [moved_about hds (h.other_call (h.done_came hy) (h.done_apart hy))]
    exact h.gone y hy
  · intro y hy
    obtain rfl := List.mem_singleton.mp hy
    rw [moved_about_self hds, hheld]
    rfl
  · intro i y hy
    rw [moved_about hds (h.other_call (h.turn.waits hy) (h.waits_apart hy))]
    exact h.waiting i y hy
  · intro c hc
    rw [moved_about hds (h.refused_apart (h.hand_came List.mem_cons_self) hc)]
    exact h.refused c hc
  · have hhanded : (x.call.handings tab).filter Deed.isHanded = x.call.handings tab := by
      unfold Call.handings
      split <;> rfl
    change (s.trace ++ x.call.handings tab).filter Deed.isHanded = _
    rw [List.filter_append, horder, hhanded]
    simp [Stage.handled, State.moved]

/-- The copy is freed. -/
theorem Holds.free (h : Holds tab s came done [x] m) {p : queue_para_t} (hstage : s.stage = .freeing p) :
    Holds tab (s.moved .getting (update s.heap x.pkt none) [.freed x.call]) came (done ++ [x]) [] m := by
  have hds : ∀ d ∈ [Deed.freed x.call], d.call = x.call := by simp [Deed.call]
  have hx := h.hand_came List.mem_cons_self
  have hheld := h.held x List.mem_cons_self
  have horder := h.order
  rw [hstage] at hheld horder
  refine ⟨h.serves, h.accepted, h.numbers, ?_, rfl, ?_, h.typed, h.moved_known hds _, ?_, nofun, ?_, ?_, ?_⟩
  · rw [List.append_nil]
    exact h.turn
  · intro y hy hdone
    rw [List.mem_append, List.mem_singleton, not_or] at hdone
    have howned := h.owned y hy hdone.1
    have hne : y.pkt ≠ x.pkt := by
      intro heq
      have hsame := howned.symm.trans (heq ▸ h.owned x hx h.hand_apart)
      exact h.other_call hy hdone.2 (Copy.mk.inj (Option.some.inj hsame)).1.symm
    change update s.heap x.pkt none y.pkt = _
    rw [update_of_ne hne]
    exact howned
  · intro y hy
    rcases List.mem_append.mp hy with hold | hnew
    · rw [moved_about hds (h.other_call (h.done_came hold) (h.done_apart hold))]
      exact h.gone y hold
    · obtain rfl := List.mem_singleton.mp hnew
      rw [moved_about_self hds, hheld]
      rfl
  · intro i y hy
    rw [moved_about hds (h.other_call (h.turn.waits hy) (h.waits_apart hy))]
    exact h.waiting i y hy
  · intro c hc
    rw [moved_about hds (h.refused_apart hx hc)]
    exact h.refused c hc
  · change (s.trace ++ [Deed.freed x.call]).filter Deed.isHanded = _
    rw [List.filter_append, horder]
    simp [Stage.handled, State.moved, Deed.isHanded]

/-- How many stages are left for the frame that the thread has. -/
def Stage.left : Stage → Nat
  | .getting => 0
  | .handling _ => 2
  | .freeing _ => 1

theorem handler_call_eq (tab : CbFuncTab) (s : State) (c : Call) :
    (s.gw_pkt_handler_call tab c.type ⟨c, c.pkt⟩ c.len c.portid).1 =
      { s with trace := s.trace ++ c.handings tab } := by
  by_cases hh : Handled tab c.type
  · rw [Call.handings, if_pos hh]
    obtain ⟨hlow, hhigh, hsome⟩ := hh
    obtain ⟨handler, hhandler⟩ := Option.ne_none_iff_exists'.mp hsome
    rw [State.gw_pkt_handler_call, if_pos ⟨hlow, hhigh⟩, hhandler]
    rfl
  · rw [Call.handings, if_neg hh, List.append_nil, State.gw_pkt_handler_call]
    split_ifs with hrange
    · cases hhandler : (tab c.type.toNatClampNeg).handler with
      | none => rfl
      | some handler =>
        refine absurd ⟨hrange.1, hrange.2, ?_⟩ hh
        rw [hhandler]
        exact Option.some_ne_none handler
    · rfl

/-- The oldest frame of the highest line that is not empty is as urgent as any. -/
theorem Holds.most_urgent (h : Holds tab s came done [] m) {i : Nat} {l : List Item} (hm : m i = x :: l)
    (hi : highest m limits.pri_num = some i) (os : Os) :
    MostUrgent s { s with os, stage := .handling x.para } := by
  intro p copy _ hp hcopy c hc hfreed
  obtain rfl := Stage.handling.inj hp
  have hwaits : x ∈ m i := hm ▸ List.mem_cons_self
  have hx := h.turn.waits hwaits
  have hdone : x ∉ done := fun hd => h.turn.apart h.nodup (List.mem_append_left _ hd) hwaits
  have hcopy' : some copy = some ⟨x.call, x.call.pkt⟩ := hcopy.symm.trans (h.owned x hx hdone)
  obtain rfl := Option.some.inj hcopy'
  obtain ⟨y, rfl, hy⟩ := h.unfreed hc hfreed
  have htype := (h.typed y (h.turn.waits hy)).1
  have hle : y.line ≤ x.line := by
    rw [h.turn.pri_eq hwaits]
    by_contra hlt
    rw [(highest_some hi).2.2 _ (Nat.lt_of_not_le hlt) (line_lt htype)] at hy
    cases hy
  rw [Int32.le_iff_toInt_le, ← pri_toNat htype, ← pri_toNat (h.typed x hx).1]
  exact Int.ofNat_le.mpr hle

/-- The thread's next stage leaves one less to go, or the thread waits for a frame. -/
theorem proc_holds (h : Holds tab s came done hand m) :
    ∃ t done' hand' m', s.call tab .proc = some t ∧ Holds tab t came done' hand' m' ∧ MostUrgent s t ∧
      t.calls = s.calls ∧ 3 * total m' limits.pri_num + t.stage.left =
        3 * total m limits.pri_num + s.stage.left - 1 := by
  have hhand := h.stage
  rw [State.call, State.gw_pkt_proc_main]
  cases hstage : s.stage with
  | getting =>
    rw [hstage] at hhand
    obtain rfl : hand = [] := hhand
    dsimp only
    rcases get_line h.serves with ⟨hget, hempty⟩ | ⟨i, x, os', hi, hm, hget, hserves⟩
    · rw [hget]
      refine ⟨s, done, [], m, rfl, h, ?_, rfl, by rw [hempty, hstage]; rfl⟩
      intro p copy _ hnext
      rw [hstage] at hnext
      cases hnext
    · rw [hget]
      dsimp only
      rw [if_neg (by decide), ofBytes_bytes]
      refine ⟨_, done, [x], drop m i, rfl, h.take hm hserves, h.most_urgent hm hi os', rfl, ?_⟩
      · obtain ⟨hlt, hne, -⟩ := highest_some hi
        have hdrop := total_drop hlt hne
        simp only [Stage.left]
        omega
  | handling p =>
    rw [hstage] at hhand
    obtain ⟨x, rfl, rfl⟩ := hhand
    have hx := h.hand_came List.mem_cons_self
    have hheap : s.heap x.para.pkt = some ⟨x.call, x.call.pkt⟩ := h.owned x hx h.hand_apart
    obtain ⟨htype, hparse⟩ := h.typed x hx
    have hparse' : gw_pkt_parser_call tab x.call.pkt x.para.pkt_len = x.call.type := hparse
    have hcalled := handler_call_eq tab { s with stage := .freeing x.para } x.call
    dsimp only
    rw [hheap, Option.map_some]
    dsimp only
    rw [hparse', if_pos htype]
    refine ⟨s.moved (.freeing x.para) s.heap (x.call.handings tab), done, [x], m, congrArg some hcalled,
      h.handle hstage, ?_, rfl, ?_⟩
    · intro p copy hgetting
      rw [hstage] at hgetting
      cases hgetting
    · simp [Stage.left, State.moved]
  | freeing p =>
    rw [hstage] at hhand
    obtain ⟨x, rfl, rfl⟩ := hhand
    have hx := h.hand_came List.mem_cons_self
    have hheap : s.heap x.para.pkt = some ⟨x.call, x.call.pkt⟩ := h.owned x hx h.hand_apart
    dsimp only
    rw [State.free, hheap]
    refine ⟨_, done ++ [x], [], m, rfl, h.free hstage, ?_, rfl, ?_⟩
    · intro p copy hgetting
      rw [hstage] at hgetting
      cases hgetting
    · simp [Stage.left]

/-! ## Over whole runs -/

/-- So many stages are left until nothing waits any more. -/
def Left (tab : CbFuncTab) (s : State) (k : Nat) : Prop :=
  ∃ came done hand m, Holds tab s came done hand m ∧ 3 * total m limits.pri_num + s.stage.left = k

theorem init_left {sem_os : Bool} {mut_os : Nat → Bool} (h : init_pkt_proc sem_os mut_os os = some s) :
    Left tab s 0 := by
  unfold init_pkt_proc at h
  split at h
  · rename_i os' id hcreate
    obtain rfl := Option.some.inj h
    refine ⟨[], [], [], fun _ => [], ?_, by rw [total_empty]; rfl⟩
    exact ⟨create_serves hcreate, rfl, rfl, in_turn_empty, rfl, nofun, nofun, nofun, nofun, nofun, nofun, nofun,
      rfl⟩
  · cases h

theorem proc_left {k : Nat} (h : Left tab s k) :
    Keeps tab s .proc ∧ Left tab (s.step tab .proc) (k - 1) ∧ (s.step tab .proc).calls = s.calls := by
  obtain ⟨came, done, hand, m, hholds, hk⟩ := h
  obtain ⟨t, done', hand', m', hcall, hnext, hurgent, hcalls, hleft⟩ := proc_holds hholds
  rw [State.step, hcall, Option.getD_some]
  exact ⟨⟨t, hcall, hnext.law, hurgent⟩, ⟨came, done', hand', m', hnext, hk ▸ hleft⟩, hcalls⟩

/-- Each event leaves at most three stages more. -/
theorem event_left (hparse : OnlyFrame tab) {k : Nat} (h : Left tab s k) (e : Event) :
    Keeps tab s e ∧ ∃ k' ≤ k + 3, Left tab (s.step tab e) k' := by
  cases e with
  | proc =>
    obtain ⟨hkeeps, hleft, -⟩ := proc_left h
    exact ⟨hkeeps, k - 1, by omega, hleft⟩
  | send pkt len portid mal room =>
    obtain ⟨came, done, hand, m, hholds, rfl⟩ := h
    obtain ⟨t, came', m', hcall, hnext, hstage, htotal⟩ := send_holds hparse hholds pkt len portid mal room
    rw [State.step, hcall, Option.getD_some]
    refine ⟨⟨t, hcall, hnext.law, ?_⟩, _, ?_, came', done, hand, m', hnext, rfl⟩
    · intro p copy hgetting hhandling
      rw [hstage, hgetting] at hhandling
      cases hhandling
    · rw [hstage]
      omega

theorem run_left (hparse : OnlyFrame tab) (es : List Event) {k : Nat} (h : Left tab s k) :
    Along (State.step tab) (Keeps tab) s es ∧
      ∃ k' ≤ k + 3 * es.length, Left tab (run (State.step tab) s es) k' := by
  induction es generalizing s k with
  | nil => exact ⟨trivial, k, Nat.le_refl _, h⟩
  | cons e es ih =>
    obtain ⟨hkeeps, k₁, hk₁, hstep⟩ := event_left hparse h e
    obtain ⟨halong, k₂, hk₂, hrun⟩ := ih hstep
    refine ⟨⟨hkeeps, halong⟩, k₂, ?_, hrun⟩
    rw [List.length_cons]
    omega

/-- The thread alone comes to the end of what is left. -/
theorem drain_left {k : Nat} (h : Left tab s k) (n : Nat) :
    let t := run (State.step tab) s (List.replicate n .proc)
    Left tab t (k - n) ∧ t.calls = s.calls := by
  induction n generalizing s k with
  | zero => exact ⟨h, rfl⟩
  | succ n ih =>
    obtain ⟨-, hleft, hcalls⟩ := proc_left h
    obtain ⟨hrun, hsame⟩ := ih hleft
    rw [List.replicate_succ]
    refine ⟨?_, hsame.trans hcalls⟩
    rw [show k - (n + 1) = k - 1 - n by omega]
    exact hrun

theorem left_finished (h : Left tab s 0) : Finished tab s := by
  obtain ⟨came, done, hand, m, hholds, hk⟩ := h
  have hstage : s.stage = .getting := by
    cases hs : s.stage with
    | getting => rfl
    | _ =>
      rw [hs] at hk
      simp [Stage.left] at hk
  have hhand := hholds.stage
  rw [hstage] at hhand
  obtain rfl : hand = [] := hhand
  exact hholds.finished (by omega)

end

/-- Each accepted frame is handled once, with its bytes, length and port, if its class has a
handler: in the order of its class, and the most urgent class first. Its copy is freed once,
after that; the copy of a refused frame is freed at once. No event goes wrong on the way. -/
theorem accepted_frames_are_handled_once {sem_os : Bool} {mut_os : Nat → Bool} {os : Os} {s : State}
    {tab : CbFuncTab} (h : init_pkt_proc sem_os mut_os os = some s) (hparse : OnlyFrame tab)
    (es : List Event) :
    Along (State.step tab) (Keeps tab) s es ∧
      ∀ k, 3 * es.length ≤ k →
        let t := run (State.step tab) (run (State.step tab) s es) (List.replicate k .proc)
        t.calls = (run (State.step tab) s es).calls ∧ Finished tab t := by
  obtain ⟨halong, n, hn, hrun⟩ := run_left hparse es (init_left h)
  refine ⟨halong, ?_⟩
  intro k hk
  obtain ⟨hleft, hcalls⟩ := drain_left hrun k
  rw [show n - k = 0 by omega] at hleft
  exact ⟨hcalls, left_finished hleft⟩

def started : Option State := init_pkt_proc true (fun _ => true) gw_osal_core_init

/-- A parser that knows the frames with this first byte. -/
def firstByte (b : UInt8) (type : Int32) : PKT_PARSE := fun pkt len =>
  if (frame pkt len).head? = some b then type else GW_PKT_MAX

/-- The class `GW_PKT_OAM` has a parser and a handler, `GW_PKT_LPB` has only its parser. -/
def halfRegistered : CbFuncTab := fun i =>
  match i with
  | 0 => ⟨some (firstByte 1 GW_PKT_OAM), some fun _ _ _ => .GW_OK⟩
  | 1 => ⟨some (firstByte 2 GW_PKT_LPB), none⟩
  | _ => ⟨none, none⟩

theorem halfRegistered_only_frame : OnlyFrame halfRegistered := by
  have hframe : ∀ (b : UInt8) (type : Int32) (pkt : List UInt8) (len : Int32),
      firstByte b type pkt len = firstByte b type (frame pkt len) len := by
    intro b type pkt len
    have hsame : frame (frame pkt len) len = frame pkt len := by simp [frame]
    rw [firstByte, firstByte, hsame]
  intro i parser hp pkt len
  match i with
  | 0 =>
    obtain rfl := Option.some.inj hp
    exact hframe ..
  | 1 =>
    obtain rfl := Option.some.inj hp
    exact hframe ..
  | _ + 2 => cases hp

/-- Two frames arrive, the second one more urgent; the first finds memory for its copy, the second
finds it taken at first. -/
def twoFrames : List Event :=
  [.send [2, 7] 2 0 (some 64) true, .send [1, 8] 2 1 (some 64) true, .send [1, 8] 2 1 (some 80) true, .proc]

theorem two_frames_are_handled_once :
    Along (State.step halfRegistered) (Keeps halfRegistered) (started.get (by decide)) twoFrames ∧
      Finished halfRegistered (run (State.step halfRegistered) (started.get (by decide))
        (twoFrames ++ List.replicate 12 .proc)) := by
  have hstart : started = some (started.get (by decide)) := (Option.some_get _).symm
  obtain ⟨halong, hall⟩ := accepted_frames_are_handled_once hstart halfRegistered_only_frame twoFrames
  refine ⟨halong, ?_⟩
  rw [run_append]
  exact (hall 12 (by decide)).2

/-- A frame whose class has a parser and no handler is accepted, and then dropped. -/
theorem a_class_without_a_handler_drops_its_frames :
    OnlyFrame halfRegistered ∧
      ∃ s c, started = some s ∧
        (run (State.step halfRegistered) s [.send [2, 7] 2 0 (some 64) true, .proc, .proc, .proc]).accepted =
          [c] ∧
        (run (State.step halfRegistered) s [.send [2, 7] 2 0 (some 64) true, .proc, .proc, .proc]).trace =
          [.copied c, .freed c] := by
  refine ⟨halfRegistered_only_frame, started.get (by decide), ⟨0, GW_PKT_LPB, [2, 7], 2, 0⟩,
    (Option.some_get _).symm, by decide +kernel, by decide +kernel⟩

end gwdonu.pkt_main
