-- The broadcast rate of a port: two readings of its counters and of the clock, and
-- the packets for each hundred ticks between them. The clock and the counters wrap around.
import Gwdonu.BroadStorm
import Mathlib.Data.Rat.Floor
import Mathlib.Tactic.FieldSimp
import Mathlib.Tactic.Ring

namespace gwdonu.gwd_broadstorm

open Function runs

/-! ## The program -/

/-- The broadcast counters of a port's statistics. -/
structure gw_onu_counter_t where
  RxBroadcasts : UInt64
  TxBroadcasts : UInt64

/-- `ulIntervalTick` and the `fRate`s of each port's last update are kept for the laws only. -/
structure PortMon where
  gulCurrentpktCntIn : Nat → UInt64
  gulCurrentpktCntOut : Nat → UInt64
  gulOctRateIn : Nat → UInt64
  gulOctRateOut : Nat → UInt64
  gulLastTick4PortMon : Nat → UInt32
  gulCurrentTick4PortMon : Nat → UInt32
  ulIntervalTick : Nat → UInt64
  fRateIn : Nat → ℚ
  fRateOut : Nat → ℚ

/-- The difference of two 32-bit ticks, made a 64-bit number. -/
def intervalTick (current last : UInt32) : UInt64 :=
  if current > last then (current - last).toUInt64 else (0xFFFFFFFF - (last - current)).toUInt64

/-- The rate of one direction. The floats are exact numbers here. -/
def fRate (now before ulIntervalTick : UInt64) : ℚ :=
  if now ≥ before then (now - before).toNat / ulIntervalTick.toNat * 100
  else (0xFFFFFFFF - (before - now)).toNat / ulIntervalTick.toNat * 1000

/-- What is done when the statistics and the time have been read. -/
def PortMon.rate_update (m : PortMon) (port : Nat) (counter : gw_onu_counter_t) (tick : UInt32) : PortMon :=
  let ulIntervalTick := intervalTick tick (m.gulLastTick4PortMon port)
  let fRateIn := fRate counter.RxBroadcasts (m.gulCurrentpktCntIn port) ulIntervalTick
  let fRateOut := fRate counter.TxBroadcasts (m.gulCurrentpktCntOut port) ulIntervalTick
  { gulCurrentpktCntIn := update m.gulCurrentpktCntIn port counter.RxBroadcasts
    gulCurrentpktCntOut := update m.gulCurrentpktCntOut port counter.TxBroadcasts
    gulOctRateIn := update m.gulOctRateIn port (.ofNat ⌊fRateIn⌋.toNat)
    gulOctRateOut := update m.gulOctRateOut port (.ofNat ⌊fRateOut⌋.toNat)
    gulLastTick4PortMon := update m.gulLastTick4PortMon port tick
    gulCurrentTick4PortMon := update m.gulCurrentTick4PortMon port tick
    ulIntervalTick := update m.ulIntervalTick port ulIntervalTick
    fRateIn := update m.fRateIn port fRateIn
    fRateOut := update m.fRateOut port fRateOut }

/-- When the statistics are not read, the pointer to them is never set, and is followed. -/
def PortMon.gwd_port_rate_update (m : PortMon) (port : Nat) (data : Option gw_onu_counter_t) (tick : UInt32) :
    Option PortMon :=
  data.map fun counter => m.rate_update port counter tick

/-! ## The law -/

/-- What is read of a port in one update. -/
structure Update where
  port : Nat
  counter : gw_onu_counter_t
  tick : UInt32

def PortMon.step (m : PortMon) (u : Update) : PortMon := m.rate_update u.port u.counter u.tick

/-- How far a counter or the clock went from one reading to the next one, around its end if it must. -/
def packets (before now : UInt64) : ℚ := (now - before).toNat
def ticks (last current : UInt32) : ℚ := (current - last).toNat

/-- `rate` is a hundred times the packets, divided by the ticks. -/
def IsRate (rate : ℚ) (before now : UInt64) (last current : UInt32) : Prop :=
  rate * ticks last current = packets before now * 100

/-- The update `u'` of a port, after the update `u` of it, has the right rates, and divides
by no zero. -/
structure PortMon.Measures (m : PortMon) (u u' : Update) : Prop where
  divisor : m.ulIntervalTick u'.port ≠ 0
  rateIn : IsRate (m.fRateIn u'.port) u.counter.RxBroadcasts u'.counter.RxBroadcasts u.tick u'.tick
  rateOut : IsRate (m.fRateOut u'.port) u.counter.TxBroadcasts u'.counter.TxBroadcasts u.tick u'.tick

/-- The clock has gone on, and then no counter has wrapped around; or it has not, and then no
counter has moved, and the clock is not at its start right after its end. -/
def Measurable (u u' : Update) : Prop :=
  if u.tick < u'.tick then
    u.counter.RxBroadcasts ≤ u'.counter.RxBroadcasts ∧ u.counter.TxBroadcasts ≤ u'.counter.TxBroadcasts
  else
    u.counter.RxBroadcasts = u'.counter.RxBroadcasts ∧ u.counter.TxBroadcasts = u'.counter.TxBroadcasts ∧
      ¬ (u.tick = 0xFFFFFFFF ∧ u'.tick = 0)

instance (u u' : Update) : Decidable (Measurable u u') := by unfold Measurable; infer_instance

/-! ## One direction -/

section
variable {before now i : UInt64} {last current : UInt32}

theorem interval_on (h : last < current) : (intervalTick current last).toNat = (current - last).toNat := by
  rw [intervalTick, if_pos h]
  exact UInt32.toNat_toUInt64 _

theorem interval_around (h : ¬ last < current) :
    (intervalTick current last).toNat = 2 ^ 32 - 1 - (last.toNat - current.toNat) := by
  have hle : current ≤ last := UInt32.not_lt.mp h
  have hle' : last - current ≤ 0xFFFFFFFF := UInt32.le_iff_toNat_le.mpr (Nat.le_of_lt_succ (last - current).toNat_lt)
  rw [intervalTick, if_neg h, UInt32.toNat_toUInt64, UInt32.toNat_sub_of_le _ _ hle', UInt32.toNat_sub_of_le _ _ hle]
  rfl

/-- Around the end of the clock the interval is one tick too short, and when the clock stands
still it is the longest one. -/
theorem ticks_around (h : ¬ last < current) :
    ((current - last).toNat = 0 ∧ 0 < (intervalTick current last).toNat) ∨
      (current - last).toNat = (intervalTick current last).toNat + 1 := by
  have hle : current.toNat ≤ last.toNat := UInt32.le_iff_toNat_le.mp (UInt32.not_lt.mp h)
  have hlast := last.toNat_lt
  rw [interval_around h, UInt32.toNat_sub]
  rcases Nat.eq_or_lt_of_le hle with heq | hlt
  · rw [heq]
    exact .inl ⟨by omega, by omega⟩
  · exact .inr (by omega)

theorem interval_zero_iff : intervalTick current last = 0 ↔ last = 0xFFFFFFFF ∧ current = 0 := by
  rw [← UInt64.toNat_inj, ← UInt32.toNat_inj, ← UInt32.toNat_inj]
  have hlast := last.toNat_lt
  by_cases h : last < current
  · have hlt := UInt32.lt_iff_toNat_lt.mp h
    rw [interval_on h, UInt32.toNat_sub_of_le _ _ (UInt32.le_of_lt h)]
    change current.toNat - last.toNat = 0 ↔ last.toNat = 4294967295 ∧ current.toNat = 0
    omega
  · have hle := UInt32.le_iff_toNat_le.mp (UInt32.not_lt.mp h)
    rw [interval_around h]
    change _ ↔ last.toNat = 4294967295 ∧ current.toNat = 0
    change _ = 0 ↔ _
    omega

/-- A quotient that is cut short of nothing is compared by its products. -/
theorem quotient_iff {a b c t n : ℕ} (hn : n ≠ 0) : (a / n * c : ℚ) * t = b * 100 ↔ a * c * t = b * 100 * n := by
  have hn' : (n : ℚ) ≠ 0 := Nat.cast_ne_zero.mpr hn
  rw [div_mul_eq_mul_div, div_mul_eq_mul_div, div_eq_iff hn']
  norm_cast

/-- A counter that has not wrapped around gives the rate when it has not moved, or when the
interval is right. -/
theorem isRate_forward (hi : i ≠ 0) (h : before ≤ now) :
    IsRate (fRate now before i) before now last current ↔ before = now ∨ (current - last).toNat = i.toNat := by
  have hi : i.toNat ≠ 0 := fun h0 => hi (UInt64.toNat_inj.mp h0)
  have hmoved : (now - before).toNat = 0 ↔ before = now := by
    have hle := UInt64.le_iff_toNat_le.mp h
    rw [UInt64.toNat_sub_of_le _ _ h, ← UInt64.toNat_inj]
    omega
  rw [IsRate, fRate, if_pos h, ticks, packets, ← hmoved]
  refine (quotient_iff (c := 100) hi).trans ?_
  rw [mul_eq_mul_left_iff, Nat.mul_eq_zero, or_iff_left (b := 100 = 0) (by decide)]
  exact or_comm

/-- A counter that has wrapped around is taken for one of 32 bits. -/
theorem wrapped_count (h : now < before) :
    ((0xFFFFFFFF - (before - now)).toNat < 2 ^ 32 ∧ 2 ^ 63 < (now - before).toNat) ∨
      (0 < (now - before).toNat ∧ (now - before).toNat < (0xFFFFFFFF - (before - now)).toNat) := by
  have hlt := UInt64.lt_iff_toNat_lt.mp h
  have hbefore := before.toNat_lt
  rw [UInt64.toNat_sub, UInt64.toNat_sub_of_le _ _ (UInt64.le_of_lt h), UInt64.toNat_sub]
  change ((2 ^ 64 - (before.toNat - now.toNat) + 4294967295) % 2 ^ 64 < 2 ^ 32 ∧ _) ∨
    (_ ∧ _ < (2 ^ 64 - (before.toNat - now.toNat) + 4294967295) % 2 ^ 64)
  omega

/-- Ten times too many packets, or far too few, over an interval that is one tick too short at most. -/
theorem products_apart {n e t k : ℕ} (hk : 0 < k) (ht : t = 0 ∨ t = k ∨ t = k + 1)
    (hn : (n < 2 ^ 32 ∧ 2 ^ 63 < e) ∨ (0 < e ∧ e < n)) : n * 1000 * t ≠ e * 100 * k := by
  have he : 0 < e := by omega
  have hright : 0 < e * 100 * k := by positivity
  rcases ht with rfl | ht
  · rw [Nat.mul_zero]
    exact Nat.ne_of_lt hright
  · rcases hn with ⟨hfew, hmany⟩ | ⟨-, hmore⟩
    · have hlt : n * 1000 * 2 < e * 100 := by omega
      have hle : n * 1000 * t ≤ n * 1000 * (2 * k) := Nat.mul_le_mul_left _ (by omega)
      refine Nat.ne_of_lt (hle.trans_lt ?_)
      rw [← Nat.mul_assoc]
      exact Nat.mul_lt_mul_of_pos_right hlt hk
    · have hlt : e * 100 < n * 1000 := by omega
      refine Nat.ne_of_gt ((Nat.mul_lt_mul_of_pos_right hlt hk).trans_le ?_)
      exact Nat.mul_le_mul_left _ (by omega)

theorem not_isRate_wrapped (hi : i ≠ 0) (h : now < before)
    (ht : (current - last).toNat = 0 ∨ (current - last).toNat = i.toNat ∨ (current - last).toNat = i.toNat + 1) :
    ¬ IsRate (fRate now before i) before now last current := by
  have hi : 0 < i.toNat := Nat.pos_of_ne_zero fun h0 => hi (UInt64.toNat_inj.mp h0)
  rw [IsRate, fRate, if_neg (UInt64.not_le.mpr h), ticks, packets]
  intro hrate
  exact products_apart hi ht (wrapped_count h) ((quotient_iff (c := 1000) (Nat.ne_of_gt hi)).mp hrate)

/-- The rate of one direction, as the two readings of the clock and of the counter have it. -/
theorem isRate_iff (hi : intervalTick current last ≠ 0) :
    IsRate (fRate now before (intervalTick current last)) before now last current ↔
      if last < current then before ≤ now else before = now := by
  by_cases hclock : last < current
  · have ht := (interval_on hclock).symm
    rw [if_pos hclock]
    by_cases h : before ≤ now
    · exact iff_of_true ((isRate_forward hi h).mpr (.inr ht)) h
    · exact iff_of_false (not_isRate_wrapped hi (UInt64.not_le.mp h) (.inr (.inl ht))) h
  · have ht := ticks_around hclock
    rw [if_neg hclock]
    by_cases h : before ≤ now
    · rw [isRate_forward hi h, or_iff_left (by omega)]
    · refine iff_of_false (not_isRate_wrapped hi (UInt64.not_le.mp h) (by omega)) ?_
      exact fun heq => h (heq ▸ UInt64.le_refl _)

end

/-! ## Two updates of a port -/

/-- The readings of a port's last update. -/
def PortMon.Holds (m : PortMon) (u : Update) : Prop :=
  m.gulLastTick4PortMon u.port = u.tick ∧ m.gulCurrentpktCntIn u.port = u.counter.RxBroadcasts ∧
    m.gulCurrentpktCntOut u.port = u.counter.TxBroadcasts

section
variable {m : PortMon} {u u' v : Update}

theorem holds_step (m : PortMon) (u : Update) : (m.step u).Holds u :=
  ⟨update_self .., update_self .., update_self ..⟩

theorem PortMon.Holds.other (h : m.Holds u) (hv : v.port ≠ u.port) : (m.step v).Holds u :=
  ⟨(update_of_ne hv.symm ..).trans h.1, (update_of_ne hv.symm ..).trans h.2.1, (update_of_ne hv.symm ..).trans h.2.2⟩

theorem PortMon.Holds.others (h : m.Holds u) {others : List Update} (hother : ∀ v ∈ others, v.port ≠ u.port) :
    (run PortMon.step m others).Holds u := by
  induction others generalizing m with
  | nil => exact h
  | cons v others ih =>
    obtain ⟨hv, hother⟩ := List.forall_mem_cons.mp hother
    exact ih (h.other hv) hother

theorem measures_iff (h : m.Holds u) (hport : u'.port = u.port) : (m.step u').Measures u u' ↔ Measurable u u' := by
  obtain ⟨htick, hin, hout⟩ := h
  rw [← hport] at htick hin hout
  have hinterval : (m.step u').ulIntervalTick u'.port = intervalTick u'.tick u.tick := by
    rw [← htick]
    exact update_self ..
  have hrateIn : (m.step u').fRateIn u'.port =
      fRate u'.counter.RxBroadcasts u.counter.RxBroadcasts (intervalTick u'.tick u.tick) := by
    rw [← htick, ← hin]
    exact update_self ..
  have hrateOut : (m.step u').fRateOut u'.port =
      fRate u'.counter.TxBroadcasts u.counter.TxBroadcasts (intervalTick u'.tick u.tick) := by
    rw [← htick, ← hout]
    exact update_self ..
  have hmeasures : (m.step u').Measures u u' ↔ intervalTick u'.tick u.tick ≠ 0 ∧
      (if u.tick < u'.tick then u.counter.RxBroadcasts ≤ u'.counter.RxBroadcasts
        else u.counter.RxBroadcasts = u'.counter.RxBroadcasts) ∧
      (if u.tick < u'.tick then u.counter.TxBroadcasts ≤ u'.counter.TxBroadcasts
        else u.counter.TxBroadcasts = u'.counter.TxBroadcasts) := by
    constructor
    · rintro ⟨hdivisor, hratein, hrateout⟩
      rw [hinterval] at hdivisor
      rw [hrateIn] at hratein
      rw [hrateOut] at hrateout
      exact ⟨hdivisor, (isRate_iff hdivisor).mp hratein, (isRate_iff hdivisor).mp hrateout⟩
    · rintro ⟨hdivisor, hratein, hrateout⟩
      refine ⟨hinterval ▸ hdivisor, ?_, ?_⟩
      · rw [hrateIn]
        exact (isRate_iff hdivisor).mpr hratein
      · rw [hrateOut]
        exact (isRate_iff hdivisor).mpr hrateout
  rw [hmeasures, Ne, interval_zero_iff, Measurable]
  by_cases hclock : u.tick < u'.tick
  · have hdivisor : ¬ (u.tick = 0xFFFFFFFF ∧ u'.tick = 0) := fun ⟨_, h0⟩ => UInt32.not_lt_zero (h0 ▸ hclock)
    simp only [if_pos hclock, hdivisor, not_false_eq_true, true_and]
  · simp only [if_neg hclock]
    exact ⟨fun ⟨hd, hi, ho⟩ => ⟨hi, ho, hd⟩, fun ⟨hi, ho, hd⟩ => ⟨hd, hi, ho⟩⟩

end

/-- The rates of an update are those between it and the port's last one as long as neither the
clock nor a counter has wrapped around in between. -/
theorem the_rate_is_right_until_something_wraps_around (m : PortMon) (u u' : Update) (others : List Update)
    (hport : u'.port = u.port) (hother : ∀ v ∈ others, v.port ≠ u.port) :
    ((run PortMon.step (m.step u) others).step u').Measures u u' ↔ Measurable u u' :=
  measures_iff ((holds_step m u).others hother) hport

/-- Nothing has been read yet. -/
def PortMon.init : PortMon :=
  ⟨fun _ => 0, fun _ => 0, fun _ => 0, fun _ => 0, fun _ => 0, fun _ => 0, fun _ => 0, fun _ => 0, fun _ => 0⟩

/-- Ten packets in ten ticks, after an update of another port. -/
theorem ten_packets_in_ten_ticks :
    ((run PortMon.step (PortMon.init.step ⟨3, ⟨5, 5⟩, 20⟩) [⟨4, ⟨0, 9⟩, 25⟩]).step ⟨3, ⟨15, 5⟩, 30⟩).Measures
      ⟨3, ⟨5, 5⟩, 20⟩ ⟨3, ⟨15, 5⟩, 30⟩ :=
  (the_rate_is_right_until_something_wraps_around _ ⟨3, ⟨5, 5⟩, 20⟩ ⟨3, ⟨15, 5⟩, 30⟩ [⟨4, ⟨0, 9⟩, 25⟩]
    rfl (by simp)).mpr (by decide)

/-- Ten packets in ten ticks, and the clock wraps around: there are nine ticks in the interval. -/
theorem the_clock_wraps_around : ¬ ((PortMon.init.step ⟨3, ⟨5, 5⟩, 0xFFFFFFFB⟩).step ⟨3, ⟨15, 5⟩, 5⟩).Measures
    ⟨3, ⟨5, 5⟩, 0xFFFFFFFB⟩ ⟨3, ⟨15, 5⟩, 5⟩ := by
  have hport : (Update.mk 3 ⟨15, 5⟩ 5).port = 3 := rfl
  intro h
  exact absurd ((measures_iff (holds_step PortMon.init ⟨3, ⟨5, 5⟩, 0xFFFFFFFB⟩) hport).mp h) (by decide)

end gwdonu.gwd_broadstorm
