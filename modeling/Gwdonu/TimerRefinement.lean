-- The pointers refine the schedule: as long as no call mixes up the two lists,
-- each step of the module does what the schedule says, and reaches no block
-- that is free.
import Gwdonu.TimerSchedule
import Mathlib.Data.List.Perm.Subperm
import Mathlib.Data.List.TakeWhile

namespace gwdonu.timer

open Function util_list runs

/-- The lists of the module hold the timers of the schedule. -/
structure Refines (s : Timers) (A : Schedule) : Prop where
  blocks : s.toBlocks = A.toBlocks
  waiting : Represents s.nodes s.timer_list A.waiting
  due : Represents s.nodes s.expire_timer_list A.due

theorem refines_init : Refines Timers.init Schedule.init :=
  ⟨rfl, init_represents _, init_represents _⟩

/-- The operation ends, in a state of the schedule `A`, and `dangling` are the
free blocks that were reached so far. -/
def Ends (r : Option Timers) (A : Schedule) (dangling : List Nat) : Prop :=
  ∃ s, r = some s ∧ Refines s A ∧ s.dangling = dangling

section
variable {s : Timers} {A : Schedule} {t : Nat}

theorem Refines.live (h : Refines s A) : s.live = A.live := congrArg Blocks.live h.blocks

theorem Refines.timers (h : Refines s A) : s.timers = A.timers := congrArg Blocks.timers h.blocks

theorem Refines.next (h : Refines s A) : s.next = A.next := congrArg Blocks.next h.blocks

theorem Refines.delta (h : Refines s A) : s.delta = A.delta := congrArg Blocks.delta h.blocks

theorem Refines.phase (h : Refines s A) : s.phase = A.phase := congrArg Blocks.phase h.blocks

theorem touch_live {l : List Nat} (h : ∀ a ∈ l, s.live a = true) : s.touch l = s := by
  have hnone : l.filter (fun a => !s.live a) = [] :=
    List.filter_eq_nil_iff.mpr (fun a ha => by simp [h a ha])
  simp [Timers.touch, hnone]

theorem edit_live_block (ht : s.live t = true) (f : gw_timer_t → gw_timer_t) :
    s.edit t f = { s with toBlocks := s.toBlocks.edit t f } := by
  unfold Timers.edit
  rw [touch_live (by simpa using ht)]

theorem edit_refines (h : Refines s A) (ht : A.live t = true) (f : gw_timer_t → gw_timer_t) :
    Refines (s.edit t f) (A.edit t f) ∧ (s.edit t f).dangling = s.dangling := by
  rw [edit_live_block (by rw [h.live, ht])]
  exact ⟨⟨congrArg (fun b : Blocks => b.edit t f) h.blocks, h.waiting, h.due⟩, rfl⟩

theorem free_refines (h : Refines s A) (ht : A.live t = true) :
    Refines (s.free t) (A.free t) ∧ (s.free t).dangling = s.dangling := by
  have hlive : ∀ a ∈ [t], s.live a = true := by simpa [h.live] using ht
  unfold Timers.free
  rw [touch_live hlive]
  exact ⟨⟨congrArg (fun b : Blocks => b.free t) h.blocks, h.waiting, h.due⟩, rfl⟩

/-- What a loop over the timers that wait relies on. -/
structure Schedule.Listed (A : Schedule) : Prop where
  live : ∀ a ∈ A.waiting, A.live a = true
  few : A.waiting.length ≤ A.next

/-- A list of timers is not longer than there are blocks. -/
theorem Schedule.Wf.few (hw : A.Wf) {l : List Nat} (hl : l.Nodup)
    (hlive : ∀ a ∈ l, A.live a = true) : l.length ≤ A.next := by
  have hsub : l ⊆ List.range A.next :=
    fun a ha => List.mem_range.mpr (hw.fresh a (hlive a ha)).2
  simpa using (List.subperm_of_subset hl hsub).length_le

theorem Schedule.Wf.listed (hw : A.Wf) : A.Listed :=
  have hlive := fun a ha => hw.held a (Or.inl ha)
  ⟨hlive, hw.few hw.waiting hlive⟩

theorem Schedule.Listed.edit (hl : A.Listed) (f : gw_timer_t → gw_timer_t) :
    (A.edit t f).Listed := ⟨hl.live, hl.few⟩

/-- A loop over `timer_list` ends. -/
theorem scan_waiting (h : Refines s A) (hl : A.Listed) (stop : Nat → Bool) :
    gw_lst_scan s.nodes stop s.next (gw_lst_first s.timer_list) =
      some (A.waiting.takeWhile (fun a => !stop a), A.waiting.find? stop) := by
  rw [gw_lst_first, head_eq h.waiting, h.next]
  exact scan_eq (l := []) stop h.waiting hl.few

theorem touch_waiting (h : Refines s A) (hl : A.Listed) {l : List Nat} (hsub : l ⊆ A.waiting) :
    s.touch l = s :=
  touch_live (fun a ha => by rw [h.live, hl.live a (hsub ha)])

theorem lookup_eq (h : Refines s A) (hl : A.Listed) (t : Nat) :
    gw_lookup_timer s t = some (s, decide (t ∈ A.waiting)) := by
  have hfound : (A.waiting.find? (fun p => p = t)).isSome = decide (t ∈ A.waiting) := by
    rw [Bool.eq_iff_iff, List.find?_isSome]
    simp
  unfold gw_lookup_timer
  rw [scan_waiting h hl]
  simp only [Option.bind_eq_bind, Option.bind_some, Option.pure_def, hfound]
  rw [touch_waiting h hl (List.takeWhile_subset _)]

/-! ## The operations -/

theorem destroy_ends (h : Refines s A) (hl : A.Listed) (ht : A.live t = true) :
    Ends (gw_destroy_timer s t) (A.destroy t) s.dangling := by
  obtain ⟨hr, hd⟩ := edit_refines h ht (gw_timer_t.flag .GW_TIMER_DESTROYED)
  unfold gw_destroy_timer Schedule.destroy
  dsimp only
  rw [lookup_eq hr (hl.edit _)]
  by_cases hwaits : t ∈ A.waiting
  · simp only [edit_waiting, hwaits, decide_true]
    exact ⟨_, rfl, hr, hd⟩
  · simp only [edit_waiting, hwaits, decide_false]
    obtain ⟨hfree, hdangling⟩ := free_refines hr ht
    exact ⟨_, rfl, hfree, hdangling.trans hd⟩

theorem relink_refines (h : Refines s A) {k : Linking} {l all : List Nat}
    (hk : Represents k.nodes k.lst l) (hin : Within s.nodes k all)
    (hall : ∀ a ∈ all, A.live a = true ∧ a ∉ A.due) :
    Refines (s.relink k) { A with waiting := l } ∧ (s.relink k).dangling = s.dangling := by
  have hlive : ∀ a ∈ k.touched, s.live a = true := by
    intro a ha
    rw [h.live]
    exact (hall a (hin.touched a ha)).1
  have hdue : Represents k.nodes s.expire_timer_list A.due :=
    represents_congr h.due (fun a ha => hin.others a (fun hm => (hall a hm).2 ha))
  unfold Timers.relink
  rw [touch_live hlive]
  exact ⟨⟨h.blocks, hk, hdue⟩, rfl⟩

theorem stop_ends (h : Refines s A) (hw : A.Wf) (ht : A.live t = true) :
    Ends (gw_stop_timer s t) (A.stop t) s.dangling := by
  obtain ⟨hr, hd⟩ := edit_refines h ht (gw_timer_t.flag .GW_TIMER_STOPPED)
  unfold gw_stop_timer Schedule.stop
  dsimp only
  rw [lookup_eq hr (hw.listed.edit _)]
  by_cases hwaits : t ∈ A.waiting
  · simp only [edit_waiting, hwaits, decide_true]
    obtain ⟨l, r, hsplit⟩ := List.append_of_mem hwaits
    have hlist : Represents (s.edit t (gw_timer_t.flag .GW_TIMER_STOPPED)).nodes
        (s.edit t (gw_timer_t.flag .GW_TIMER_STOPPED)).timer_list (l ++ t :: r) :=
      hsplit ▸ hr.waiting
    have herase : A.waiting.erase t = l ++ r := by
      have hnodup := hsplit ▸ hw.waiting
      have hl : t ∉ l := fun hm => (List.nodup_append.mp hnodup).2.2 t hm t (by simp) rfl
      rw [hsplit, List.erase_append_right _ hl, List.erase_cons_head]
    have hall : ∀ a ∈ l ++ t :: r, A.live a = true ∧ a ∉ A.due := by
      intro a ha
      rw [← hsplit] at ha
      exact ⟨hw.held a (Or.inl ha), hw.apart a ha⟩
    obtain ⟨hrel, hdangling⟩ :=
      relink_refines hr (delete_represents hlist) (delete_within hlist) hall
    refine ⟨_, rfl, ?_, hdangling.trans hd⟩
    rw [herase]
    exact hrel
  · simp only [edit_waiting, hwaits, decide_false]
    refine ⟨_, rfl, ?_, hd⟩
    rw [List.erase_of_not_mem hwaits]
    exact hr

/-- A timer is linked in where the schedule places it. -/
theorem place_refines (h : Refines s A) (hw : A.Wf) (ht : A.live t = true) (hwaits : t ∉ A.waiting)
    (hdue : t ∉ A.due) :
    Refines (s.relink (gw_lst_insert s.nodes s.timer_list
        (A.waiting.takeWhile (A.upTo t)).getLast? t)) (A.place t) ∧
      (s.relink (gw_lst_insert s.nodes s.timer_list
        (A.waiting.takeWhile (A.upTo t)).getLast? t)).dangling = s.dangling := by
  have hsplit : A.waiting.takeWhile (A.upTo t) ++ A.waiting.dropWhile (A.upTo t) = A.waiting :=
    List.takeWhile_append_dropWhile
  have hlist : Represents s.nodes s.timer_list
      (A.waiting.takeWhile (A.upTo t) ++ A.waiting.dropWhile (A.upTo t)) := by
    rw [hsplit]
    exact h.waiting
  have hall : ∀ a ∈ A.waiting.takeWhile (A.upTo t) ++ t :: A.waiting.dropWhile (A.upTo t),
      A.live a = true ∧ a ∉ A.due := by
    intro a ha
    rcases mem_place.mp ha with rfl | ha
    · exact ⟨ht, hdue⟩
    · exact ⟨hw.held a (Or.inl ha), hw.apart a ha⟩
  exact relink_refines h (insert_represents hlist (by rwa [hsplit])) (insert_within hlist) hall

theorem link_in_ends (h : Refines s A) (hw : A.Wf) (ht : A.live t = true) (hwaits : t ∉ A.waiting)
    (hdue : t ∉ A.due) : Ends (s.link_in t) (A.place t) s.dangling := by
  have hplace := place_refines h hw ht hwaits hdue
  have hstop : (fun p => decide (¬ (s.timers p).remain_interval ≤ (s.timers t).remain_interval)) =
      fun p => !A.upTo t p := by
    funext p
    simp only [Schedule.upTo, h.timers, decide_not]
  have hsplit : A.waiting.takeWhile (A.upTo t) ++ A.waiting.dropWhile (A.upTo t) = A.waiting :=
    List.takeWhile_append_dropWhile
  unfold Timers.link_in
  rw [hstop, scan_waiting h hw.listed, List.find?_not_eq_head?_dropWhile]
  simp only [Option.bind_eq_bind, Option.bind_some, Option.pure_def, Bool.not_not]
  have htouch : s.touch (A.waiting.takeWhile (A.upTo t) ++
      (A.waiting.dropWhile (A.upTo t)).head?.toList) = s := by
    refine touch_waiting h hw.listed (List.append_subset.mpr ⟨List.takeWhile_subset _, ?_⟩)
    intro a ha
    exact List.dropWhile_subset _ (List.mem_of_head? (by simpa using ha))
  rw [htouch]
  cases hlater : A.waiting.dropWhile (A.upTo t) with
  | nil =>
    -- no timer is later: the end of the list
    rw [hlater, List.append_nil] at hsplit
    rw [hsplit, ← tail_eq h.waiting] at hplace
    exact ⟨_, rfl, hplace⟩
  | cons p later =>
    have hprev := previous_eq (l := A.waiting.takeWhile (A.upTo t)) (x := p) (r := later)
      (by rw [← hlater, hsplit]; exact h.waiting)
    rw [← hprev] at hplace
    exact ⟨_, rfl, hplace⟩

theorem start_ends (h : Refines s A) (hw : A.Wf) (ht : A.live t = true) (hdue : t ∉ A.due) :
    Ends (gw_start_timer s t) (A.start t) s.dangling := by
  obtain ⟨hflag, hd⟩ := edit_refines h ht (gw_timer_t.flag .GW_TIMER_NO_STOPPED)
  have hwflag := wf_flag (t := t) hw (f := .GW_TIMER_NO_STOPPED) (by decide)
  unfold gw_start_timer Schedule.start
  dsimp only
  rw [lookup_eq hflag hwflag.listed]
  by_cases hwaits : t ∈ A.waiting
  · simp only [edit_waiting, hwaits, decide_true]
    exact ⟨_, rfl, hflag, hd⟩
  · simp only [edit_waiting, hwaits, decide_false]
    obtain ⟨hreset, hd'⟩ := edit_refines hflag ht gw_timer_t.reset
    have hlink := link_in_ends hreset (wf_reset hwflag ht) ht hwaits hdue
    rw [hd', hd] at hlink
    exact hlink

/-- One operation after another. -/
theorem Ends.bind {r : Option Timers} {B : Schedule} {d : List Nat} {f : Timers → Option Timers}
    (h : Ends r A d) (hf : ∀ s, Refines s A → Ends (f s) B s.dangling) : Ends (r.bind f) B d := by
  obtain ⟨s, rfl, hs, rfl⟩ := h
  exact hf s hs

theorem restart_ends (h : Refines s A) (hw : A.Wf) (ht : A.live t = true) (hdue : t ∉ A.due) :
    Ends (gw_restart_timer s t) ((A.stop t).start t) s.dangling :=
  (stop_ends h hw ht).bind (fun _ hs => start_ends hs (wf_stop hw) ht hdue)

theorem retiming_ends (h : Refines s A) (hw : A.Wf) (timeout : UInt32) :
    Ends (gw_retiming_timer s t timeout) (A.retiming t timeout) s.dangling := by
  unfold gw_retiming_timer Schedule.retiming
  rw [lookup_eq h hw.listed]
  by_cases hwaits : t ∈ A.waiting
  · simp only [hwaits, decide_true]
    exact ⟨_, rfl, edit_refines h (hw.held t (Or.inl hwaits)) _⟩
  · simp only [hwaits, decide_false]
    exact ⟨_, rfl, h, rfl⟩

/-! ## The calls -/

/-- A new block is on no list. -/
theorem create_refines (h : Refines s A) (hw : A.Wf) (p : gw_timer_t) (f : gw_timer_t → gw_timer_t)
    (node : gw_node) :
    Refines (Timers.edit { s with
        toBlocks := s.toBlocks.create p, nodes := update s.nodes s.next node } s.next f)
        (A.create (f p)) ∧
      (Timers.edit { s with
        toBlocks := s.toBlocks.create p, nodes := update s.nodes s.next node } s.next f).dangling =
        s.dangling := by
  obtain ⟨hwaits, hdue⟩ := next_unlisted hw
  have hother : ∀ a, a ≠ A.next → update s.nodes s.next node a = s.nodes a := by
    intro a ha
    rw [h.next, update_of_ne ha]
  rw [edit_live_block (by simp [Blocks.create])]
  refine ⟨⟨?_, ?_, ?_⟩, rfl⟩
  · change (s.toBlocks.create p).edit s.next f = A.toBlocks.create (f p)
    rw [h.blocks]
    simp [Blocks.create, Blocks.edit]
  · exact represents_congr h.waiting (fun a ha => hother a (fun he => hwaits (he ▸ ha)))
  · exact represents_congr h.due (fun a ha => hother a (fun he => hdue (he ▸ ha)))

theorem add_ends (h : Refines s A) (hw : A.Wf) (timer_type : TIMER_TYPE) (mal : Bool)
    (timeout : UInt32) (callback : Option Nat) (data : Nat) :
    Ends ((timer_add timer_type mal s timeout callback data).map (·.1))
      (A.add timer_type mal timeout callback data) s.dangling := by
  have hpos := ticks_pos timeout
  unfold timer_add Schedule.add
  cases callback with
  | none => exact ⟨s, rfl, h, rfl⟩
  | some callback =>
    dsimp only
    unfold gw_create_timer
    by_cases hneg : timeout.toInt32 ≤ 0
    · rw [if_pos hneg, if_pos (Or.inl hneg)]
      exact ⟨s, rfl, h, rfl⟩
    · by_cases hmal : mal = false
      · rw [if_neg hneg, if_pos hmal, if_pos (Or.inr hmal)]
        exact ⟨s, rfl, h, rfl⟩
      · have hnext : s.next ≠ 0 := by
          have := hw.next
          rw [h.next]
          omega
        have hnew : (A.create (newTimer timer_type timeout callback data)).Wf :=
          wf_create hw nofun ⟨hpos, Int32.le_of_lt hpos⟩
        have hok : ¬ (timeout.toInt32 ≤ 0 ∨ mal = false) := by simp [hneg, hmal]
        rw [if_neg hok, if_neg hneg, if_neg hmal]
        dsimp only
        rw [if_neg hnext, UInt32.toUInt32_toInt32]
        obtain ⟨hcreate, hdangling⟩ := create_refines h hw
          { zeroTimer with
            interval := gw_milli_to_ticks timeout, remain_interval := gw_milli_to_ticks timeout }
          (fun p => { p with timer_type, app_callback := callback, data }) ⟨none, none⟩
        obtain ⟨s', hs', hr, hd⟩ := start_ends hcreate hnew (create_live.mpr (Or.inl rfl))
          (next_unlisted hw).2
        rw [← h.next] at hs'
        rw [hs']
        exact ⟨s', rfl, hr, hd.trans hdangling⟩

theorem Ends.returns {r : Option Timers} {d : List Nat} {x : Int} (h : Ends r A d) :
    Ends ((r.bind (fun s => some (s, x))).map (·.1)) A d := by
  obtain ⟨s, rfl, hs, rfl⟩ := h
  exact ⟨s, rfl, hs, rfl⟩

theorem call_ends (h : Refines s A) (hw : A.Wf) {c : Call}
    (hlive : ∀ t ∈ c.handle, A.live t = true) (ha : A.Apart (.call c)) :
    Ends (s.call c) (A.call c) s.dangling := by
  have hzero : ∀ t ∈ c.handle, t ≠ 0 := fun t ht => Nat.ne_of_gt (hw.fresh t (hlive t ht)).1
  cases c with
  | gw_timer_add mal timeout callback data => exact add_ends h hw _ mal timeout callback data
  | gw_circle_timer_add mal timeout callback data => exact add_ends h hw _ mal timeout callback data
  | gw_timer_del t =>
    rw [Timers.call, gw_timer_del, if_neg (hzero t rfl)]
    have hdel : Ends ((gw_stop_timer s t).bind (fun s => gw_destroy_timer s t))
        ((A.stop t).destroy t) s.dangling :=
      (stop_ends h hw (hlive t rfl)).bind
        (fun _ hs => destroy_ends hs (wf_stop hw).listed (hlive t rfl))
    have hret := hdel.returns (x := GW_TIMER_OK)
    rw [Option.bind_assoc] at hret
    exact hret
  | gw_timer_stop t =>
    rw [Timers.call, gw_timer_stop, if_neg (hzero t rfl)]
    exact (stop_ends h hw (hlive t rfl)).returns
  | gw_timer_start t =>
    rw [Timers.call, gw_timer_start, if_neg (hzero t rfl)]
    exact (start_ends h hw (hlive t rfl) ha).returns
  | gw_timer_restart t =>
    rw [Timers.call, gw_timer_restart, if_neg (hzero t rfl)]
    exact (restart_ends h hw (hlive t rfl) ha).returns
  | gw_timer_retiming t timeout =>
    rw [Timers.call, gw_timer_retiming, if_neg (hzero t rfl)]
    exact (retiming_ends h hw timeout).returns

/-! ## The pass -/

theorem relinkExpired_refines (h : Refines s A) {k : Linking} {l all : List Nat}
    (hk : Represents k.nodes k.lst l) (hin : Within s.nodes k all)
    (hall : ∀ a ∈ all, A.live a = true ∧ a ∉ A.waiting) :
    Refines (s.relinkExpired k) { A with due := l } ∧
      (s.relinkExpired k).dangling = s.dangling := by
  have hlive : ∀ a ∈ k.touched, s.live a = true := by
    intro a ha
    rw [h.live]
    exact (hall a (hin.touched a ha)).1
  have hwaiting : Represents k.nodes s.timer_list A.waiting :=
    represents_congr h.waiting (fun a ha => hin.others a (fun hm => (hall a hm).2 ha))
  unfold Timers.relinkExpired
  rw [touch_live hlive]
  exact ⟨⟨h.blocks, hwaiting, hk⟩, rfl⟩

/-- The schedule after the loop over `todo`, when `kept` has stayed. -/
def Schedule.counted (A : Schedule) (kept todo : List Nat) : Schedule :=
  { A with
    timers := fun a => if a ∈ todo then (A.timers a).count_down A.delta else A.timers a
    waiting := kept ++ todo.filter (fun a => stays A.delta (A.timers a))
    due := A.due ++ todo.filter (fun a => !stays A.delta (A.timers a)) }

theorem counted_nil (kept : List Nat) (hk : A.waiting = kept) : A.counted kept [] = A := by
  subst hk
  simp [Schedule.counted]

/-- The first timer is counted down, and then the others. -/
theorem counted_cons {kept todo : List Nat} {a : Nat} (ha : a ∉ todo) :
    A.counted kept (a :: todo) =
      if stays A.delta (A.timers a) then
        (A.edit a (gw_timer_t.count_down A.delta)).counted (kept ++ [a]) todo
      else
        ({ A.edit a (gw_timer_t.count_down A.delta) with
          waiting := kept ++ todo, due := A.due ++ [a] } : Schedule).counted kept todo := by
  have hne : ∀ b ∈ todo, b ≠ a := fun b hb he => ha (he ▸ hb)
  have hfilter : ∀ p : gw_timer_t → Bool, todo.filter (fun b => p (A.timers b)) =
      todo.filter (fun b => p ((A.edit a (gw_timer_t.count_down A.delta)).timers b)) := by
    intro p
    refine List.filter_congr (fun b hb => ?_)
    rw [edit_other (hne b hb)]
  have htimers : (fun b => if b ∈ a :: todo then (A.timers b).count_down A.delta
      else A.timers b) = fun b => if b ∈ todo then
        ((A.edit a (gw_timer_t.count_down A.delta)).timers b).count_down A.delta
        else (A.edit a (gw_timer_t.count_down A.delta)).timers b := by
    funext b
    by_cases hb : b = a
    · subst hb
      simp [ha]
    · simp [hb, edit_other hb]
  have hstay := hfilter (stays A.delta)
  have hgo := hfilter (fun p => !stays A.delta p)
  unfold Schedule.counted
  rw [htimers]
  split
  · rename_i hs
    rw [List.filter_cons_of_pos (p := fun b => stays A.delta (A.timers b)) hs,
      List.filter_cons_of_neg (p := fun b => !stays A.delta (A.timers b)) (by simpa using hs),
      hstay, hgo, List.append_cons]
    rfl
  · rename_i hs
    rw [List.filter_cons_of_neg (p := fun b => stays A.delta (A.timers b)) hs,
      List.filter_cons_of_pos (p := fun b => !stays A.delta (A.timers b)) (by simpa using hs),
      hstay, hgo, List.append_cons]
    rfl

/-- The loop over `timer_list`, from the timers `todo` on. -/
theorem loop_ends {todo kept : List Nat} {n : Nat} (h : Refines s A)
    (hsplit : A.waiting = kept ++ todo) (hapart : ∀ a ∈ A.waiting, a ∉ A.due)
    (hlive : ∀ a, a ∈ A.waiting ∨ a ∈ A.due → A.live a = true) (hn : todo.length ≤ n) :
    Ends (expire_loop n s todo.head?) (A.counted kept todo) s.dangling := by
  induction todo generalizing kept n s A with
  | nil =>
    rw [counted_nil kept (by simpa using hsplit)]
    cases n <;> exact ⟨s, rfl, h, rfl⟩
  | cons a todo ih =>
    obtain _ | n := n
    · simp at hn
    have hnodup : (kept ++ a :: todo).Nodup := hsplit ▸ h.waiting.nodup
    have hatodo : a ∉ todo := (List.nodup_cons.mp (List.nodup_append.mp hnodup).2.1).1
    have hwaits : a ∈ A.waiting := by simp [hsplit]
    have ha := hlive a (Or.inl hwaits)
    obtain ⟨hr, hd⟩ := edit_refines h ha (gw_timer_t.count_down A.delta)
    have hlist : Represents (s.edit a (gw_timer_t.count_down A.delta)).nodes
        (s.edit a (gw_timer_t.count_down A.delta)).timer_list (kept ++ a :: todo) :=
      hsplit ▸ hr.waiting
    have hstays : (sys_interval_in_tick ≤
        ((s.edit a (gw_timer_t.count_down A.delta)).timers a).remain_interval.toUInt32) =
          (stays A.delta (A.timers a) = true) := by
      rw [hr.timers, edit_self, stays, decide_eq_true_iff]
      rfl
    rw [List.head?_cons, expire_loop, counted_cons hatodo, h.delta, gw_lst_next, next_eq hlist]
    simp only [hstays]
    by_cases hs : stays A.delta (A.timers a) = true
    · rw [if_pos hs, if_pos hs, ← hd]
      exact ih hr (by rw [edit_waiting, hsplit, List.append_cons]) hapart hlive (by simpa using hn)
    · rw [if_neg hs, if_neg hs]
      -- off the one list and onto the end of the other
      have hall : ∀ b ∈ kept ++ a :: todo,
          (A.edit a (gw_timer_t.count_down A.delta)).live b = true ∧
            b ∉ (A.edit a (gw_timer_t.count_down A.delta)).due := by
        intro b hb
        rw [← hsplit] at hb
        exact ⟨hlive b (Or.inl hb), hapart b hb⟩
      obtain ⟨hoff, hdoff⟩ :=
        relink_refines hr (delete_represents hlist) (delete_within hlist) hall
      have hsub : ∀ b ∈ kept ++ todo, b ∈ A.waiting := by
        intro b hb
        rw [hsplit]
        exact ((List.sublist_cons_self a todo).append_left kept).subset hb
      have haoff : a ∉ kept ++ todo := (List.nodup_cons.mp (List.nodup_middle.mp hnodup)).1
      have hon : ∀ b ∈ A.due ++ [a],
          A.live b = true ∧ b ∉ kept ++ todo := by
        intro b hb
        rcases List.mem_append.mp hb with hb | hb
        · exact ⟨hlive b (Or.inr hb), fun hm => hapart b (hsub b hm) hb⟩
        · obtain rfl := List.mem_singleton.mp hb
          exact ⟨ha, haoff⟩
      obtain ⟨hadd, hdadd⟩ := relinkExpired_refines hoff
        (add_represents hoff.due (hapart a hwaits)) (add_within hoff.due) hon
      rw [← hd, ← hdoff, ← hdadd]
      refine ih hadd rfl ?_ ?_ (by simpa using hn)
      · intro b hb hm
        exact (hon b hm).2 hb
      · rintro b (hb | hb)
        · exact hlive b (Or.inl (hsub b hb))
        · exact (hon b hb).1

theorem enter_ends (h : Refines s A) (hw : A.Wf) (begin_time : UInt64) :
    Ends (s.enter begin_time) (A.begin_pass begin_time) s.dangling := by
  have hempty : Refines { s with expire_timer_list := gw_lst_init } { A with due := [] } :=
    ⟨h.blocks, h.waiting, init_represents _⟩
  obtain ⟨s', hs', hr, hd⟩ := @loop_ends _ _ A.waiting [] _ hempty rfl (by simp)
    (by simpa using hw.listed.live) hw.listed.few
  unfold Timers.enter
  dsimp only
  rw [gw_lst_first, head_eq h.waiting, h.next, hs']
  refine ⟨_, rfl, ⟨?_, hr.waiting, hr.due⟩, hd⟩
  exact congrArg (fun b : Blocks => { b with phase := .expiring begin_time }) hr.blocks

/-- The time of a callback is longer than any before. -/
def Schedule.Longest (A : Schedule) (cb_begin_time cb_end_time : UInt64) : Prop :=
  A.callback_peek_time.toUInt64 < cb_end_time - cb_begin_time

instance (A : Schedule) (b e : UInt64) : Decidable (A.Longest b e) :=
  inferInstanceAs (Decidable (_ < _))

theorem peek_refines (h : Refines s A) (a : Nat) (b e : UInt64) :
    Refines (s.peek a b e) (A.peek b e) ∧ (s.peek a b e).dangling =
      s.dangling ++ if A.Longest b e ∧ A.live a = false then [a] else [] := by
  have hpeek : s.callback_peek_time = A.callback_peek_time :=
    congrArg Blocks.callback_peek_time h.blocks
  unfold Timers.peek Schedule.peek Schedule.Longest
  rw [hpeek]
  by_cases hlong : A.callback_peek_time.toUInt64 < e - b
  · rw [if_pos hlong, if_pos hlong]
    refine ⟨⟨?_, h.waiting, h.due⟩, ?_⟩
    · exact congrArg (fun x : Blocks => { x with callback_peek_time := (e - b).toUInt32 }) h.blocks
    · cases hlive : A.live a <;> simp [Timers.touch, h.live, hlive, hlong]
  · rw [if_neg hlong, if_neg hlong, if_neg (fun hc => hlong hc.1), List.append_nil]
    exact ⟨h, rfl⟩

/-- No timer that is called back was destroyed. -/
theorem enter_callback_eq (h : Refines s A) {a : Nat} (ha : A.live a = true)
    (hintact : (A.timers a).timer_type = .GW_CIRCLE_TIMER →
      (A.timers a).stop_flag ≠ .GW_TIMER_DESTROYED) :
    s.enter_callback a =
      if (A.timers a).Skipped then (s, false)
      else (s.edit a (gw_timer_t.flag .GW_TIMER_NO_STOPPED), true) := by
  have htouch : s.touch [a] = s := touch_live (by simpa [h.live] using ha)
  have hnot : ¬ ((A.timers a).timer_type = .GW_CIRCLE_TIMER ∧
      (A.timers a).stop_flag = .GW_TIMER_DESTROYED) := fun hc => hintact hc.1 hc.2
  unfold Timers.enter_callback
  dsimp only
  rw [htouch, h.timers, if_neg hnot]
  rfl

theorem next_expired_refines (h : Refines s A) (hw : A.Wf) (begin_time now later : UInt64) :
    Refines (s.next_expired begin_time now later) (A.next_expired begin_time now later) ∧
      (s.next_expired begin_time now later).dangling = s.dangling := by
  unfold Timers.next_expired Schedule.next_expired
  cases hdue : A.due with
  | nil =>
    -- no timer is due: the pass ends
    have hnone : Represents s.nodes s.expire_timer_list [] := hdue ▸ h.due
    have hsame : s.relinkExpired ⟨s.nodes, s.expire_timer_list, []⟩ = s := by
      unfold Timers.relinkExpired
      rw [touch_live (by simp)]
    rw [get_nil hnone]
    dsimp only
    rw [hsame]
    refine ⟨⟨?_, h.waiting, hnone⟩, rfl⟩
    exact congrArg (fun b : Blocks =>
      { b with delta := (now - begin_time).toUInt32, phase := .outside }) h.blocks
  | cons a due =>
    have hlist : Represents s.nodes s.expire_timer_list ([] ++ a :: due) := hdue ▸ h.due
    have hmem : ∀ x ∈ [] ++ a :: due, A.live x = true ∧ x ∉ A.waiting := by
      intro x hx
      have hx' : x ∈ A.due := hdue ▸ hx
      exact ⟨hw.held x (Or.inr hx'), fun hm => hw.apart x hm hx'⟩
    obtain ⟨hr, hd⟩ :=
      relinkExpired_refines h (delete_represents hlist) (delete_within hlist) hmem
    have ha : A.live a = true := (hmem a (by simp)).1
    rw [get_cons hlist]
    dsimp only
    generalize s.relinkExpired (gw_lst_delete s.nodes s.expire_timer_list a) = s' at hr hd
    rw [enter_callback_eq hr ha (hw.intact a ha)]
    by_cases hskip : (A.timers a).Skipped
    · simp only [if_pos hskip]
      obtain ⟨hpeek, hdpeek⟩ := peek_refines hr a now later
      refine ⟨hpeek, hdpeek.trans ?_⟩
      rw [if_neg (by simp [ha]), List.append_nil, hd]
    · simp only [if_neg hskip]
      obtain ⟨hedit, hdedit⟩ := edit_refines hr ha (gw_timer_t.flag .GW_TIMER_NO_STOPPED)
      refine ⟨⟨?_, hedit.waiting, hedit.due⟩, hdedit.trans hd⟩
      exact congrArg (fun b : Blocks => { b with phase := .callback begin_time now a }) hedit.blocks

/-- The free blocks that an event reaches: a once timer is read once more when
its callback took longest, and by then it is destroyed. -/
def Schedule.late (A : Schedule) : Event → List Nat
  | .callback_returns now =>
    match A.phase with
    | .callback _ cb_begin_time a =>
      if A.Longest cb_begin_time now ∧
          ((A.timers a).timer_type = .GW_ONCE_TIMER ∧ a ∉ A.waiting) then [a]
      else []
    | _ => []
  | _ => []

theorem leave_callback_phased (phase : Phase) (a : Nat) :
    (A.phased phase).leave_callback a = (A.leave_callback a).phased phase := by
  unfold Schedule.leave_callback Schedule.destroy Schedule.start
  by_cases honce : (A.timers a).timer_type = .GW_ONCE_TIMER
  · by_cases hwaits : a ∈ A.waiting
    · simp only [Schedule.phased, honce, hwaits]
      rfl
    · simp only [Schedule.phased, honce, hwaits]
      rfl
  · by_cases hwaits : a ∈ A.waiting
    · simp only [Schedule.phased, honce, hwaits]
      rfl
    · simp only [Schedule.phased, honce, hwaits]
      rfl

theorem leave_callback_ends (h : Refines s A) (hw : A.Wf) {a : Nat} (ha : A.live a = true)
    (hdue : a ∉ A.due) : Ends (s.leave_callback a) (A.leave_callback a) s.dangling := by
  have htouch : s.touch [a] = s := touch_live (by simpa [h.live] using ha)
  unfold Timers.leave_callback Schedule.leave_callback
  dsimp only
  rw [htouch, h.timers]
  split
  · exact destroy_ends h hw.listed ha
  · exact start_ends h hw ha hdue

theorem phased_refines (h : Refines s A) (phase : Phase) :
    Refines { s with phase } (A.phased phase) :=
  ⟨congrArg (fun b : Blocks => { b with phase }) h.blocks, h.waiting, h.due⟩

theorem peek_phased (phase : Phase) (b e : UInt64) :
    (A.phased phase).peek b e = (A.peek b e).phased phase := by
  unfold Schedule.peek
  change (if A.Longest b e then _ else _) = (if A.Longest b e then _ else _ : Schedule).phased phase
  split <;> rfl

theorem leave_callback_longest (a : Nat) :
    (A.leave_callback a).callback_peek_time = A.callback_peek_time := by
  unfold Schedule.leave_callback Schedule.destroy Schedule.start
  split_ifs <;> rfl

/-- A once timer that waits again is not freed. -/
theorem leave_callback_live {a : Nat} (ha : A.live a = true) :
    (A.leave_callback a).live a = false ↔
      (A.timers a).timer_type = .GW_ONCE_TIMER ∧ a ∉ A.waiting := by
  have hstart : (A.start a).live = A.live := by
    unfold Schedule.start
    split <;> rfl
  have hdestroy : (A.destroy a).live a = false ↔ a ∉ A.waiting := by
    unfold Schedule.destroy
    split
    · rename_i hwaits
      simp [hwaits, ha]
    · rename_i hwaits
      simp [hwaits, Schedule.free, Blocks.free]
  unfold Schedule.leave_callback
  split
  · rename_i honce
    rw [hdestroy, and_iff_right honce]
  · rename_i hcircle
    rw [hstart, ha]
    exact iff_of_false nofun (fun h => hcircle h.1)

theorem callback_returns_refines (h : Refines s A) (hw : A.Wf) {b c : UInt64} {a : Nat}
    (hp : A.phase = .callback b c a) (now : UInt64) :
    Refines (s.event (.callback_returns now))
        (((A.phased (.expiring b)).leave_callback a).peek c now) ∧
      (s.event (.callback_returns now)).dangling =
        s.dangling ++ A.late (.callback_returns now) := by
  obtain ⟨hlive, hdue⟩ := hw.called b c a hp
  obtain ⟨s', hs', hr, hd⟩ := leave_callback_ends h hw hlive hdue
  obtain ⟨hpeek, hdpeek⟩ := peek_refines hr a c now
  have hstep : s.event (.callback_returns now) =
      { s'.peek a c now with phase := .expiring b } := by
    rw [Timers.event, Timers.step, h.phase, hp]
    dsimp only
    rw [hs']
    rfl
  rw [leave_callback_phased, peek_phased, hstep]
  refine ⟨phased_refines hpeek _, ?_⟩
  have hlong : (A.leave_callback a).Longest c now ↔ A.Longest c now := by
    rw [Schedule.Longest, leave_callback_longest, Schedule.Longest]
  change (s'.peek a c now).dangling = _
  rw [hdpeek, hd, Schedule.late, hp]
  simp only [hlong, leave_callback_live hlive]

theorem Ends.event {e : Event} {B : Schedule} (hlate : A.late e = [])
    (h : Ends (s.step e) B s.dangling) :
    Refines (s.event e) B ∧ (s.event e).dangling = s.dangling ++ A.late e := by
  obtain ⟨s', hs', hr, hd⟩ := h
  rw [Timers.event, hs', hlate, List.append_nil]
  exact ⟨hr, hd⟩

/-- Each step of the module is the step of the schedule. -/
theorem event_refines (h : Refines s A) (hw : A.Wf) {e : Event} (ha : A.Apart e) :
    Refines (s.event e) (A.event e) ∧ (s.event e).dangling = s.dangling ++ A.late e := by
  cases e with
  | begin_pass begin_time =>
    apply Ends.event rfl
    rw [Timers.step, Schedule.event, h.phase]
    cases A.phase with
    | outside => exact enter_ends h hw begin_time
    | _ => exact ⟨s, rfl, h, rfl⟩
  | next_expired now later =>
    apply Ends.event rfl
    rw [Timers.step, Schedule.event, h.phase]
    cases A.phase with
    | expiring b => exact ⟨_, rfl, next_expired_refines h hw b now later⟩
    | _ => exact ⟨s, rfl, h, rfl⟩
  | callback_returns now =>
    cases hp : A.phase with
    | callback b c a =>
      rw [Schedule.event, hp]
      exact callback_returns_refines h hw hp now
    | _ =>
      apply Ends.event (by rw [Schedule.late, hp])
      rw [Timers.step, Schedule.event, h.phase, hp]
      exact ⟨s, rfl, h, rfl⟩
  | call c =>
    apply Ends.event rfl
    rw [Timers.step, Schedule.event, h.live]
    by_cases hlive : ∀ t ∈ c.handle, A.live t = true
    · rw [if_pos hlive, if_pos hlive]
      exact call_ends h hw hlive ha
    · rw [if_neg hlive, if_neg hlive]
      exact ⟨s, rfl, h, rfl⟩

end

end gwdonu.timer
