-- The timers without pointers: the timers that wait and the ones that are due
-- are two lists of addresses. What the module is for is said here.
import Gwdonu.Timer
import Gwdonu.Lib.Runs
import Mathlib.Algebra.Ring.Nat

namespace gwdonu.timer

open Function runs

/-! ## The two lists -/

/-- The timers on `timer_list` and on `expire_timer_list`. -/
structure Schedule extends Blocks where
  waiting : List Nat
  due : List Nat

def Schedule.init : Schedule := { Timers.init.toBlocks with waiting := [], due := [] }

def Schedule.edit (A : Schedule) (a : Nat) (f : gw_timer_t → gw_timer_t) : Schedule :=
  { A with toBlocks := A.toBlocks.edit a f }

def Schedule.free (A : Schedule) (a : Nat) : Schedule :=
  { A with toBlocks := A.toBlocks.free a }

def Schedule.phased (A : Schedule) (phase : Phase) : Schedule := { A with phase }

/-- Timer `p` is no later than `t`. -/
def Schedule.upTo (A : Schedule) (t p : Nat) : Bool :=
  (A.timers p).remain_interval ≤ (A.timers t).remain_interval

/-- Timer `t` comes before the first one that is later. -/
def Schedule.place (A : Schedule) (t : Nat) : Schedule :=
  { A with waiting := A.waiting.takeWhile (A.upTo t) ++ t :: A.waiting.dropWhile (A.upTo t) }

def Schedule.start (A : Schedule) (t : Nat) : Schedule :=
  if t ∈ A.waiting then A.edit t (gw_timer_t.flag .GW_TIMER_NO_STOPPED)
  else ((A.edit t (gw_timer_t.flag .GW_TIMER_NO_STOPPED)).edit t gw_timer_t.reset).place t

def Schedule.stop (A : Schedule) (t : Nat) : Schedule :=
  { A.edit t (gw_timer_t.flag .GW_TIMER_STOPPED) with waiting := A.waiting.erase t }

def Schedule.destroy (A : Schedule) (t : Nat) : Schedule :=
  if t ∈ A.waiting then A.edit t (gw_timer_t.flag .GW_TIMER_DESTROYED)
  else (A.edit t (gw_timer_t.flag .GW_TIMER_DESTROYED)).free t

def Schedule.retiming (A : Schedule) (t : Nat) (timeout : UInt32) : Schedule :=
  if t ∈ A.waiting then A.edit t (gw_timer_t.retime (gw_milli_to_ticks timeout)) else A

/-- The timer that a call makes. -/
def newTimer (timer_type : TIMER_TYPE) (timeout : UInt32) (callback data : Nat) : gw_timer_t :=
  { zeroTimer with
    interval := gw_milli_to_ticks timeout
    remain_interval := gw_milli_to_ticks timeout
    timer_type
    app_callback := callback
    data }

def Schedule.create (A : Schedule) (p : gw_timer_t) : Schedule :=
  { A with toBlocks := A.toBlocks.create p }

def Schedule.add (timer_type : TIMER_TYPE) (mal : Bool) (A : Schedule) (timeout : UInt32)
    (callback : Option Nat) (data : Nat) : Schedule :=
  match callback with
  | none => A
  | some callback =>
    if timeout.toInt32 ≤ 0 ∨ mal = false then A
    else (A.create (newTimer timer_type timeout callback data)).start A.next

def Schedule.call (A : Schedule) : Call → Schedule
  | .gw_timer_add mal timeout callback data => A.add .GW_ONCE_TIMER mal timeout callback data
  | .gw_circle_timer_add mal timeout callback data =>
    A.add .GW_CIRCLE_TIMER mal timeout callback data
  | .gw_timer_del h => (A.stop h).destroy h
  | .gw_timer_stop h => A.stop h
  | .gw_timer_start h => A.start h
  | .gw_timer_restart h => (A.stop h).start h
  | .gw_timer_retiming h timeout => A.retiming h timeout

/-! ## The steps -/

/-- The timer has ticks left after the pass. -/
def stays (delta : UInt32) (p : gw_timer_t) : Bool :=
  sys_interval_in_tick ≤ (count_down delta p.remain_interval).toUInt32

/-- Every timer that waits is counted down once, and the ones with no ticks left
are due now. -/
def Schedule.begin_pass (A : Schedule) (begin_time : UInt64) : Schedule :=
  { A with
    timers := fun a => if a ∈ A.waiting then (A.timers a).count_down A.delta else A.timers a
    waiting := A.waiting.filter (fun a => stays A.delta (A.timers a))
    due := A.waiting.filter (fun a => !stays A.delta (A.timers a))
    phase := .expiring begin_time }

def Schedule.peek (A : Schedule) (cb_begin_time cb_end_time : UInt64) : Schedule :=
  if A.callback_peek_time.toUInt64 < cb_end_time - cb_begin_time then
    { A with callback_peek_time := (cb_end_time - cb_begin_time).toUInt32 }
  else A

/-- The timer was stopped when it was due already; only circle timers look. -/
def gw_timer_t.Skipped (p : gw_timer_t) : Prop :=
  p.timer_type = .GW_CIRCLE_TIMER ∧ p.stop_flag = .GW_TIMER_STOPPED

instance (p : gw_timer_t) : Decidable p.Skipped := inferInstanceAs (Decidable (_ ∧ _))

def Schedule.next_expired (A : Schedule) (begin_time now later : UInt64) : Schedule :=
  match A.due with
  | [] => { A with delta := (now - begin_time).toUInt32, phase := .outside }
  | a :: due =>
    let A := { A with due }
    if (A.timers a).Skipped then A.peek now later
    else (A.edit a (gw_timer_t.flag .GW_TIMER_NO_STOPPED)).phased (.callback begin_time now a)

def Schedule.leave_callback (A : Schedule) (a : Nat) : Schedule :=
  if (A.timers a).timer_type = .GW_ONCE_TIMER then A.destroy a else A.start a

def Schedule.event (A : Schedule) : Event → Schedule
  | .begin_pass begin_time =>
    match A.phase with
    | .outside => A.begin_pass begin_time
    | _ => A
  | .next_expired now later =>
    match A.phase with
    | .expiring begin_time => A.next_expired begin_time now later
    | _ => A
  | .callback_returns now =>
    match A.phase with
    | .callback begin_time cb_begin_time a =>
      ((A.phased (.expiring begin_time)).leave_callback a).peek cb_begin_time now
    | _ => A
  | .call c => if ∀ h ∈ c.handle, A.live h = true then A.call c else A

/-- What one event can do. -/
inductive Moves (A : Schedule) : Event → Schedule → Prop
  | idle (e : Event) :
      (∀ b, e = .begin_pass b → A.phase ≠ .outside) →
      (∀ n l b, e = .next_expired n l → A.phase ≠ .expiring b) → Moves A e A
  | begin_pass (begin_time : UInt64) :
      A.phase = .outside → Moves A (.begin_pass begin_time) (A.begin_pass begin_time)
  | next_expired (begin_time now later : UInt64) :
      A.phase = .expiring begin_time →
      Moves A (.next_expired now later) (A.next_expired begin_time now later)
  | callback_returns (b c : UInt64) (a : Nat) (now : UInt64) :
      A.phase = .callback b c a →
      Moves A (.callback_returns now) (((A.phased (.expiring b)).leave_callback a).peek c now)
  | call (c : Call) : (∀ h ∈ c.handle, A.live h = true) → Moves A (.call c) (A.call c)

theorem moves (A : Schedule) (e : Event) : Moves A e (A.event e) := by
  cases e with
  | begin_pass begin_time =>
    cases hp : A.phase with
    | outside =>
      rw [Schedule.event, hp]
      exact .begin_pass begin_time hp
    | _ =>
      rw [Schedule.event, hp]
      exact .idle _ (by simp [hp]) nofun
  | next_expired now later =>
    cases hp : A.phase with
    | expiring b =>
      rw [Schedule.event, hp]
      exact .next_expired b now later hp
    | _ =>
      rw [Schedule.event, hp]
      exact .idle _ nofun (by simp [hp])
  | callback_returns now =>
    cases hp : A.phase with
    | callback b c a =>
      rw [Schedule.event, hp]
      exact .callback_returns b c a now hp
    | _ =>
      rw [Schedule.event, hp]
      exact .idle _ nofun nofun
  | call c =>
    by_cases hlive : ∀ h ∈ c.handle, A.live h = true
    · rw [Schedule.event, if_pos hlive]
      exact .call c hlive
    · rw [Schedule.event, if_neg hlive]
      exact .idle _ nofun nofun

/-! ## Ticks -/

theorem toInt32_nonneg (u : UInt32) : 0 ≤ u.toInt32 ↔ u.toNat < 2 ^ 31 := by
  have hu := u.toNat_lt
  rw [Int32.le_iff_toInt_le, ← Int32.toInt_toBitVec u.toInt32, UInt32.toBitVec_toInt32,
    BitVec.toInt_eq_toNat_cond]
  simp only [Int32.toInt_zero, UInt32.toNat_toBitVec]
  split <;> omega

/-- A tick count without a sign. -/
theorem nonneg_lt {r : Int32} (h : 0 ≤ r) : r.toUInt32.toNat < 2 ^ 31 :=
  (toInt32_nonneg r.toUInt32).mp (by simpa using h)

theorem pos_iff {r : Int32} (h : 0 ≤ r) : 0 < r ↔ 0 < r.toUInt32.toNat := by
  have hn := Int32.toNat_toUInt32_of_le h
  have hc := Int32.cast_toNatClampNeg r h
  rw [Int32.lt_iff_toInt_lt, Int32.toInt_zero]
  omega

theorem ticks_pos (milli_seconds : UInt32) : 0 < gw_milli_to_ticks milli_seconds := by
  have hm := milli_seconds.toNat_lt
  unfold gw_milli_to_ticks
  dsimp only
  split
  · decide
  · rename_i hne
    have hdiv : (milli_seconds / 10).toNat = milli_seconds.toNat / 10 := UInt32.toNat_div _ _
    have hnonneg : 0 ≤ (milli_seconds / 10).toInt32 := (toInt32_nonneg _).mpr (by omega)
    apply (pos_iff hnonneg).mpr
    rw [UInt32.toUInt32_toInt32]
    have : (milli_seconds / 10).toNat ≠ 0 := fun h0 => hne (UInt32.toNat_inj.mp h0.symm)
    omega

/-- A pass takes the ticks that it is late, and one more. -/
theorem count_down_ticks (delta : UInt32) {r : Int32} (h : 0 ≤ r) :
    0 ≤ count_down delta r ∧
      (count_down delta r).toUInt32.toNat = r.toUInt32.toNat - (delta.toNat + 1) := by
  have hr := nonneg_lt h
  unfold count_down
  by_cases hlt : r.toUInt32 < delta
  · rw [UInt32.lt_iff_toNat_lt] at hlt
    simp only [if_pos (UInt32.lt_iff_toNat_lt.mpr hlt), Int32.lt_irrefl, if_false]
    refine ⟨by decide, ?_⟩
    change 0 = _
    omega
  · have hle := hlt
    rw [UInt32.lt_iff_toNat_lt] at hle
    have hsub : (r.toUInt32 - delta).toNat = r.toUInt32.toNat - delta.toNat :=
      UInt32.toNat_sub_of_le _ _ (UInt32.le_iff_toNat_le.mpr (by omega))
    have hnonneg : 0 ≤ (r.toUInt32 - delta).toInt32 := (toInt32_nonneg _).mpr (by omega)
    simp only [if_neg hlt, pos_iff hnonneg, UInt32.toUInt32_toInt32]
    by_cases hpos : 0 < (r.toUInt32 - delta).toNat
    · have hone : (r.toUInt32 - delta - sys_interval_in_tick).toNat =
          (r.toUInt32 - delta).toNat - 1 :=
        UInt32.toNat_sub_of_le _ _ (UInt32.le_iff_toNat_le.mpr hpos)
      rw [if_pos hpos, toInt32_nonneg, UInt32.toUInt32_toInt32]
      omega
    · rw [if_neg hpos, toInt32_nonneg, UInt32.toUInt32_toInt32]
      omega

theorem stays_iff (delta : UInt32) {p : gw_timer_t} (h : 0 ≤ p.remain_interval) :
    stays delta p = true ↔ delta.toNat + 1 < p.remain_interval.toUInt32.toNat := by
  have hticks := (count_down_ticks delta h).2
  rw [stays, decide_eq_true_iff, UInt32.le_iff_toNat_le, hticks]
  change 1 ≤ _ ↔ _
  omega

/-! ## Which steps keep the lists apart -/

/-- A due timer is not started; a timer that is due, or whose callback runs, is
not deleted. -/
def Schedule.Apart (A : Schedule) : Event → Prop
  | .call (.gw_timer_start t) => t ∉ A.due
  | .call (.gw_timer_restart t) => t ∉ A.due
  | .call (.gw_timer_del t) => t ∉ A.due ∧ A.phase.running ≠ some t
  | _ => True

instance decidableApart (A : Schedule) : ∀ e, Decidable (A.Apart e)
  | .call (.gw_timer_start t) | .call (.gw_timer_restart t) =>
    inferInstanceAs (Decidable (t ∉ A.due))
  | .call (.gw_timer_del t) => inferInstanceAs (Decidable (t ∉ A.due ∧ A.phase.running ≠ some t))
  | .call (.gw_timer_add ..) | .call (.gw_circle_timer_add ..) | .call (.gw_timer_stop _)
  | .call (.gw_timer_retiming ..) | .begin_pass _ | .next_expired .. | .callback_returns _ =>
    .isTrue trivial

/-- What holds of a schedule between two steps. -/
structure Schedule.Wf (A : Schedule) : Prop where
  waiting : A.waiting.Nodup
  due : A.due.Nodup
  apart : ∀ a ∈ A.waiting, a ∉ A.due
  held : ∀ a, a ∈ A.waiting ∨ a ∈ A.due → A.live a = true
  fresh : ∀ a, A.live a = true → 0 < a ∧ a < A.next
  intact : ∀ a, A.live a = true → (A.timers a).timer_type = .GW_CIRCLE_TIMER →
    (A.timers a).stop_flag ≠ .GW_TIMER_DESTROYED
  ticks : ∀ a, A.live a = true →
    0 < (A.timers a).interval ∧ 0 ≤ (A.timers a).remain_interval
  called : ∀ b c a, A.phase = .callback b c a → A.live a = true ∧ a ∉ A.due
  outside : A.phase = .outside → A.due = []
  runs : A.phase ≠ .stuck
  next : 0 < A.next

theorem not_running {p : Phase} {t : Nat} (h : p.running ≠ some t) (b c : UInt64) :
    p ≠ .callback b c t := by
  rintro rfl
  exact h rfl

theorem wf_init : Schedule.init.Wf := by
  constructor <;> simp [Schedule.init, Timers.init]

section
variable {A : Schedule} {t : Nat}

@[simp] theorem edit_waiting (f : gw_timer_t → gw_timer_t) : (A.edit t f).waiting = A.waiting := rfl

@[simp] theorem edit_due (f : gw_timer_t → gw_timer_t) : (A.edit t f).due = A.due := rfl

@[simp] theorem edit_live (f : gw_timer_t → gw_timer_t) : (A.edit t f).live = A.live := rfl

@[simp] theorem edit_phase (f : gw_timer_t → gw_timer_t) : (A.edit t f).phase = A.phase := rfl

@[simp] theorem edit_next (f : gw_timer_t → gw_timer_t) : (A.edit t f).next = A.next := rfl

@[simp] theorem edit_self (f : gw_timer_t → gw_timer_t) :
    (A.edit t f).timers t = f (A.timers t) := by
  simp [Schedule.edit, Blocks.edit]

theorem edit_other {a : Nat} (h : a ≠ t) (f : gw_timer_t → gw_timer_t) :
    (A.edit t f).timers a = A.timers a := by
  simp [Schedule.edit, Blocks.edit, h]

/-- A change of one timer that leaves it in order. -/
theorem wf_edit (h : A.Wf) {f : gw_timer_t → gw_timer_t}
    (hflag : (f (A.timers t)).timer_type = .GW_CIRCLE_TIMER →
      (f (A.timers t)).stop_flag ≠ .GW_TIMER_DESTROYED)
    (hticks : A.live t = true →
      0 < (f (A.timers t)).interval ∧ 0 ≤ (f (A.timers t)).remain_interval) :
    (A.edit t f).Wf := by
  refine ⟨h.waiting, h.due, h.apart, h.held, h.fresh, ?_, ?_, h.called, h.outside, h.runs, h.next⟩
  · intro a ha
    by_cases hat : a = t
    · subst hat
      rw [edit_self]
      exact hflag
    · rw [edit_other hat]
      exact h.intact a ha
  · intro a ha
    by_cases hat : a = t
    · subst hat
      rw [edit_self]
      exact hticks ha
    · rw [edit_other hat]
      exact h.ticks a ha

theorem wf_flag (h : A.Wf) {f : StopFlag} (hf : f ≠ .GW_TIMER_DESTROYED) :
    (A.edit t (gw_timer_t.flag f)).Wf :=
  wf_edit h (fun _ => hf) (fun ht => h.ticks t ht)

theorem wf_reset (h : A.Wf) (ht : A.live t = true) : (A.edit t gw_timer_t.reset).Wf :=
  wf_edit h (fun hc => h.intact t ht hc)
    (fun ht => ⟨(h.ticks t ht).1, Int32.le_of_lt (h.ticks t ht).1⟩)

theorem mem_place {a : Nat} : a ∈ (A.place t).waiting ↔ a = t ∨ a ∈ A.waiting := by
  have hsplit := List.takeWhile_append_dropWhile (p := A.upTo t) (l := A.waiting)
  conv_rhs => rw [← hsplit]
  simp only [Schedule.place, List.mem_append, List.mem_cons]
  tauto

theorem wf_place (h : A.Wf) (ht : A.live t = true) (hw : t ∉ A.waiting) (hd : t ∉ A.due) :
    (A.place t).Wf := by
  refine ⟨?_, h.due, ?_, ?_, h.fresh, h.intact, h.ticks, h.called, h.outside, h.runs, h.next⟩
  · unfold Schedule.place
    dsimp only
    rw [List.nodup_middle, List.takeWhile_append_dropWhile]
    exact List.nodup_cons.mpr ⟨hw, h.waiting⟩
  · intro a ha
    rcases mem_place.mp ha with rfl | ha
    · exact hd
    · exact h.apart a ha
  · intro a ha
    rcases ha with ha | ha
    · rcases mem_place.mp ha with rfl | ha
      · exact ht
      · exact h.held a (Or.inl ha)
    · exact h.held a (Or.inr ha)

theorem wf_start (h : A.Wf) (ht : A.live t = true) (hd : t ∉ A.due) : (A.start t).Wf := by
  have hflag := wf_flag (t := t) h (f := .GW_TIMER_NO_STOPPED) (by decide)
  unfold Schedule.start
  split
  · exact hflag
  · rename_i hw
    exact wf_place (wf_reset hflag ht) ht hw hd

theorem wf_stop (h : A.Wf) : (A.stop t).Wf := by
  have hflag := wf_flag (t := t) h (f := .GW_TIMER_STOPPED) (by decide)
  have hmem : ∀ a ∈ (A.stop t).waiting, a ∈ A.waiting := fun a => List.mem_of_mem_erase
  refine ⟨h.waiting.erase t, h.due, fun a ha => h.apart a (hmem a ha), ?_, h.fresh, hflag.intact,
    hflag.ticks, h.called, h.outside, h.runs, h.next⟩
  intro a ha
  exact h.held a (ha.imp_left (hmem a))

theorem wf_destroy (h : A.Wf) (hd : t ∉ A.due) (hc : ∀ b c, A.phase ≠ .callback b c t)
    (hw : t ∈ A.waiting → (A.timers t).timer_type = .GW_ONCE_TIMER) : (A.destroy t).Wf := by
  unfold Schedule.destroy
  split
  · rename_i hwaits
    refine wf_edit h (fun hcircle => ?_) (fun ht => h.ticks t ht)
    rw [gw_timer_t.flag, hw hwaits] at hcircle
    cases hcircle
  · rename_i hwaits
    have hlive : ∀ a, update A.live t false a = true → a ≠ t ∧ A.live a = true := by
      intro a ha
      by_cases hat : a = t
      · subst hat
        simp at ha
      · exact ⟨hat, by simpa [hat] using ha⟩
    refine ⟨h.waiting, h.due, h.apart, ?_, ?_, ?_, ?_, ?_, h.outside, h.runs, h.next⟩
    · intro a ha
      have hat : a ≠ t := by
        rintro rfl
        exact ha.elim hwaits hd
      change update A.live t false a = true
      rw [update_of_ne hat]
      exact h.held a ha
    · exact fun a ha => h.fresh a (hlive a ha).2
    · intro a ha
      obtain ⟨hat, ha⟩ := hlive a ha
      change ((A.edit t _).timers a).timer_type = _ → ((A.edit t _).timers a).stop_flag ≠ _
      rw [edit_other hat]
      exact h.intact a ha
    · intro a ha
      obtain ⟨hat, ha⟩ := hlive a ha
      change 0 < ((A.edit t _).timers a).interval ∧ 0 ≤ ((A.edit t _).timers a).remain_interval
      rw [edit_other hat]
      exact h.ticks a ha
    · intro b c a ha
      have hat : a ≠ t := by
        rintro rfl
        exact hc b c ha
      change update A.live t false a = true ∧ a ∉ A.due
      rw [update_of_ne hat]
      exact h.called b c a ha

theorem wf_retiming (h : A.Wf) (timeout : UInt32) : (A.retiming t timeout).Wf := by
  have hpos := ticks_pos timeout
  unfold Schedule.retiming
  split
  · rename_i hw
    exact wf_edit h (h.intact t (h.held t (Or.inl hw))) (fun _ => ⟨hpos, Int32.le_of_lt hpos⟩)
  · exact h

/-- A new block is not one of those that are there. -/
theorem live_ne (h : A.Wf) {a : Nat} (ha : A.live a = true) : a ≠ A.next :=
  Nat.ne_of_lt (h.fresh a ha).2

theorem create_live {p : gw_timer_t} {a : Nat} :
    (A.create p).live a = true ↔ a = A.next ∨ A.live a = true := by
  by_cases ha : a = A.next
  · simp [Schedule.create, Blocks.create, ha]
  · simp [Schedule.create, Blocks.create, ha]

theorem create_other {p : gw_timer_t} {a : Nat} (ha : a ≠ A.next) :
    (A.create p).timers a = A.timers a := by
  simp [Schedule.create, Blocks.create, ha]

theorem create_self {p : gw_timer_t} : (A.create p).timers A.next = p := by
  simp [Schedule.create, Blocks.create]

theorem wf_create (h : A.Wf) {p : gw_timer_t}
    (hflag : p.stop_flag ≠ .GW_TIMER_DESTROYED) (hticks : 0 < p.interval ∧ 0 ≤ p.remain_interval) :
    (A.create p).Wf := by
  refine ⟨h.waiting, h.due, h.apart, ?_, ?_, ?_, ?_, ?_, h.outside, h.runs, Nat.succ_pos _⟩
  · exact fun a ha => create_live.mpr (Or.inr (h.held a ha))
  · intro a ha
    change 0 < a ∧ a < A.next + 1
    have hnext := h.next
    rcases create_live.mp ha with rfl | ha
    · omega
    · have := h.fresh a ha
      omega
  · intro a ha
    rcases create_live.mp ha with rfl | ha
    · rw [create_self]
      exact fun _ => hflag
    · rw [create_other (live_ne h ha)]
      exact h.intact a ha
  · intro a ha
    rcases create_live.mp ha with rfl | ha
    · rw [create_self]
      exact hticks
    · rw [create_other (live_ne h ha)]
      exact h.ticks a ha
  · intro b c a ha
    exact ⟨create_live.mpr (Or.inr (h.called b c a ha).1), (h.called b c a ha).2⟩

theorem next_unlisted (h : A.Wf) : A.next ∉ A.waiting ∧ A.next ∉ A.due :=
  ⟨fun hw => live_ne h (h.held _ (Or.inl hw)) rfl, fun hd => live_ne h (h.held _ (Or.inr hd)) rfl⟩

theorem wf_add (h : A.Wf) (timer_type : TIMER_TYPE) (mal : Bool) (timeout : UInt32)
    (callback : Option Nat) (data : Nat) : (A.add timer_type mal timeout callback data).Wf := by
  have hpos := ticks_pos timeout
  unfold Schedule.add
  cases callback with
  | none => exact h
  | some callback =>
    dsimp only
    split
    · exact h
    · have hnew : (A.create (newTimer timer_type timeout callback data)).Wf :=
        wf_create h nofun ⟨hpos, Int32.le_of_lt hpos⟩
      exact wf_start hnew (create_live.mpr (Or.inl rfl)) (next_unlisted h).2

/-! ## Steps keep a schedule well formed -/

theorem wf_call (h : A.Wf) {c : Call} (hlive : ∀ t ∈ c.handle, A.live t = true)
    (ha : A.Apart (.call c)) : (A.call c).Wf := by
  cases c with
  | gw_timer_add mal timeout callback data => exact wf_add h _ mal timeout callback data
  | gw_circle_timer_add mal timeout callback data => exact wf_add h _ mal timeout callback data
  | gw_timer_del t =>
    refine wf_destroy (wf_stop h) ha.1 (not_running ha.2) (fun hw => ?_)
    exact absurd hw (List.Nodup.not_mem_erase h.waiting)
  | gw_timer_stop t => exact wf_stop h
  | gw_timer_start t => exact wf_start h (hlive t rfl) ha
  | gw_timer_restart t => exact wf_start (wf_stop h) (hlive t rfl) ha
  | gw_timer_retiming t timeout => exact wf_retiming h timeout

theorem wf_begin_pass (h : A.Wf) (begin_time : UInt64) : (A.begin_pass begin_time).Wf := by
  have hmem : ∀ a, a ∈ (A.begin_pass begin_time).waiting ∨ a ∈ (A.begin_pass begin_time).due →
      a ∈ A.waiting := fun a ha => ha.elim List.mem_of_mem_filter List.mem_of_mem_filter
  refine ⟨h.waiting.filter _, h.waiting.filter _, ?_, ?_, h.fresh, ?_, ?_, nofun, nofun, nofun,
    h.next⟩
  · intro a hw hd
    have hstays := (List.mem_filter.mp hw).2
    have hgoes := (List.mem_filter.mp hd).2
    simp [hstays] at hgoes
  · exact fun a ha => h.held a (Or.inl (hmem a ha))
  · intro a ha
    change (if a ∈ A.waiting then _ else _ : gw_timer_t).timer_type = _ →
      (if a ∈ A.waiting then _ else _ : gw_timer_t).stop_flag ≠ _
    split
    · exact h.intact a ha
    · exact h.intact a ha
  · intro a ha
    change 0 < (if a ∈ A.waiting then _ else _ : gw_timer_t).interval ∧
      0 ≤ (if a ∈ A.waiting then _ else _ : gw_timer_t).remain_interval
    split
    · exact ⟨(h.ticks a ha).1, (count_down_ticks _ (h.ticks a ha).2).1⟩
    · exact h.ticks a ha

theorem wf_peek (h : A.Wf) (b e : UInt64) : (A.peek b e).Wf := by
  unfold Schedule.peek
  split
  · exact ⟨h.waiting, h.due, h.apart, h.held, h.fresh, h.intact, h.ticks, h.called, h.outside,
      h.runs, h.next⟩
  · exact h

/-- A due timer leaves the list, and the thread goes to `phase`. -/
theorem wf_taken (h : A.Wf) {a : Nat} {due : List Nat} (hd : A.due = a :: due) (phase : Phase)
    (hphase : phase ≠ .outside ∧ phase ≠ .stuck ∧ ∀ b c x, phase = .callback b c x → x = a) :
    ({ A with due, phase } : Schedule).Wf := by
  have hnodup := List.nodup_cons.mp (hd ▸ h.due)
  have hsub : ∀ x ∈ due, x ∈ A.due := fun x hx => hd ▸ List.mem_cons_of_mem a hx
  refine ⟨h.waiting, hnodup.2, fun x hx hdue => h.apart x hx (hsub x hdue), ?_, h.fresh, h.intact,
    h.ticks, ?_, fun ho => absurd ho hphase.1, hphase.2.1, h.next⟩
  · exact fun x hx => h.held x (hx.imp_right (hsub x))
  · intro b c x hx
    obtain rfl := hphase.2.2 b c x hx
    exact ⟨h.held x (Or.inr (by rw [hd]; exact List.mem_cons_self)), hnodup.1⟩

theorem wf_next_expired (h : A.Wf) {begin_time : UInt64} (hp : A.phase = .expiring begin_time)
    (now later : UInt64) : (A.next_expired begin_time now later).Wf := by
  unfold Schedule.next_expired
  split
  · rename_i hd
    refine ⟨h.waiting, h.due, h.apart, h.held, h.fresh, h.intact, h.ticks, nofun, ?_, nofun, h.next⟩
    exact fun _ => hd
  · rename_i a due hd
    dsimp only
    split
    · have htaken := wf_taken h hd A.phase (by simp [hp])
      exact wf_peek htaken now later
    · have htaken := wf_taken h hd (.callback begin_time now a) (by simp)
      exact wf_flag htaken (by decide)

theorem wf_callback_returns (h : A.Wf) {b c : UInt64} {a : Nat} (hp : A.phase = .callback b c a)
    (now : UInt64) : (((A.phased (.expiring b)).leave_callback a).peek c now).Wf := by
  obtain ⟨hlive, hdue⟩ := h.called b c a hp
  have hphased : (A.phased (.expiring b)).Wf :=
    ⟨h.waiting, h.due, h.apart, h.held, h.fresh, h.intact, h.ticks, nofun, nofun, nofun, h.next⟩
  apply wf_peek
  unfold Schedule.leave_callback
  split
  · rename_i honce
    exact wf_destroy hphased hdue nofun (fun _ => honce)
  · exact wf_start hphased hlive hdue

theorem wf_event (h : A.Wf) {e : Event} (ha : A.Apart e) : (A.event e).Wf := by
  have hm := moves A e
  generalize A.event e = A' at hm
  cases hm with
  | idle => exact h
  | begin_pass begin_time hp => exact wf_begin_pass h begin_time
  | next_expired b now later hp => exact wf_next_expired h hp now later
  | callback_returns b c a now hp => exact wf_callback_returns h hp now
  | call c hlive => exact wf_call h hlive ha

end

end gwdonu.timer
