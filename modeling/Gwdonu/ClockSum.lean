-- The time that the ONU shows: the time that the OLT set and the time since then, field by
-- field, with carries. When the carries leave a date and a time of day.
import Gwdonu.TimeSync

namespace gwdonu.clock_sum

open oam (localtime_tm ValidTime Globals Mem realtimeSync)

/-! ## The program -/

/-- The test for a carry out of a field, and the carry into the one above. -/
def carry (radix low high : Nat) : Nat × Nat :=
  if radix < low then
    let gw_t := low / radix
    (low - gw_t * radix, high + gw_t)
  else (low, high)

/-- The sums up to the carry into the days. For days and months from 1 on, and years from 1970 on. -/
def sumToDays (olt_time onu_time : localtime_tm) : localtime_tm :=
  let (tm_sec, tm_min) := carry 60 (onu_time.tm_sec + olt_time.tm_sec) (onu_time.tm_min + olt_time.tm_min)
  let (tm_min, tm_hour) := carry 60 tm_min (onu_time.tm_hour + olt_time.tm_hour)
  let (tm_hour, tm_mday) := carry 24 tm_hour (onu_time.tm_mday + olt_time.tm_mday - 1)
  { tm_sec, tm_min, tm_hour, tm_mday
    tm_mon := onu_time.tm_mon + olt_time.tm_mon - 1
    tm_year := onu_time.tm_year + olt_time.tm_year - 70 }

def curr_time_cheak_and_get (olt_time onu_time : localtime_tm) : localtime_tm :=
  let local_time := sumToDays olt_time onu_time
  let (tm_mday, tm_mon) := carry 31 local_time.tm_mday local_time.tm_mon
  let (tm_mon, tm_year) := carry 12 tm_mon local_time.tm_year
  { local_time with tm_mday, tm_mon, tm_year }

/-! ## The law -/

def secondsOfDay (t : localtime_tm) : Nat := t.tm_hour * 3600 + t.tm_min * 60 + t.tm_sec

/-- The time that a request of the OLT sets and does not turn down. -/
def SetByRequest (t : localtime_tm) : Prop :=
  ∃ (g : Globals) (payload : Mem), g.g_cSetTime.length = oam.Object.g_cSetTime.size ∧
    (realtimeSync g payload).reply ≠ .err ∧ (realtimeSync g payload).globals.w_gw_tim = t

/-- The sum is a date and a time of day, the seconds of both days run on, and the days are those of
both and what the seconds come to. -/
structure AddsUp (base elapsed : localtime_tm) : Prop where
  valid : ValidTime (curr_time_cheak_and_get base elapsed)
  time : secondsOfDay (curr_time_cheak_and_get base elapsed) =
    (secondsOfDay base + secondsOfDay elapsed) % 86400
  days : (sumToDays base elapsed).tm_mday =
    base.tm_mday + (elapsed.tm_mday - 1) + (secondsOfDay base + secondsOfDay elapsed) / 86400

section
variable (base elapsed : localtime_tm)

/-! The sum of each field, with the carries from below. -/

def sumSec : Nat := elapsed.tm_sec + base.tm_sec
def sumMin : Nat := elapsed.tm_min + base.tm_min + sumSec base elapsed / 60
def sumHour : Nat := elapsed.tm_hour + base.tm_hour + sumMin base elapsed / 60
def sumDay : Nat := elapsed.tm_mday + base.tm_mday - 1 + sumHour base elapsed / 24
def sumMon : Nat := elapsed.tm_mon + base.tm_mon - 1 + (sumDay base elapsed - 1) / 31

/-- No sum is one that the tests take for a value in range, or that leaves 0 where there is no 0. -/
structure Carries : Prop where
  sec : sumSec base elapsed ≠ 60
  min : sumMin base elapsed ≠ 60
  hour : sumHour base elapsed ≠ 24
  day : sumDay base elapsed ≠ 62
  mon : sumMon base elapsed ≠ 24

end

/-! ## The carries -/

variable {base elapsed : localtime_tm}

theorem carry_of_ne {radix low : Nat} (h : low ≠ radix) (high : Nat) :
    carry radix low high = (low % radix, high + low / radix) := by
  unfold carry
  split_ifs with hcarry
  · have hmod : low - low / radix * radix = low % radix := by
      have hsplit := Nat.div_add_mod' low radix
      omega
    dsimp only
    rw [hmod]
  · have hlt : low < radix := by omega
    rw [Nat.mod_eq_of_lt hlt, Nat.div_eq_of_lt hlt, Nat.add_zero]

/-- A sum that comes to the radix stays. -/
theorem carry_radix (radix high : Nat) : carry radix radix high = (radix, high) := by
  unfold carry
  rw [if_neg (Nat.lt_irrefl radix)]

theorem sec_stays (h : sumSec base elapsed = 60) : (curr_time_cheak_and_get base elapsed).tm_sec = 60 := by
  change (carry 60 (sumSec base elapsed) (elapsed.tm_min + base.tm_min)).1 = 60
  rw [h, carry_radix]

theorem min_stays (hsec : sumSec base elapsed ≠ 60) (h : sumMin base elapsed = 60) :
    (curr_time_cheak_and_get base elapsed).tm_min = 60 := by
  change (carry 60 (carry 60 (sumSec base elapsed) (elapsed.tm_min + base.tm_min)).2
    (elapsed.tm_hour + base.tm_hour)).1 = 60
  rw [carry_of_ne hsec, ← sumMin, h, carry_radix]

/-- What the carries of the seconds and the minutes leave. -/
theorem sumToDays_hour (hsec : sumSec base elapsed ≠ 60) (hmin : sumMin base elapsed ≠ 60) :
    sumToDays base elapsed =
      { tm_sec := sumSec base elapsed % 60
        tm_min := sumMin base elapsed % 60
        tm_hour := (carry 24 (sumHour base elapsed) (elapsed.tm_mday + base.tm_mday - 1)).1
        tm_mday := (carry 24 (sumHour base elapsed) (elapsed.tm_mday + base.tm_mday - 1)).2
        tm_mon := elapsed.tm_mon + base.tm_mon - 1
        tm_year := elapsed.tm_year + base.tm_year - 70 } := by
  unfold sumToDays
  rw [← sumSec, carry_of_ne hsec]
  dsimp only
  rw [← sumMin, carry_of_ne hmin]
  rfl

theorem hour_stays (hsec : sumSec base elapsed ≠ 60) (hmin : sumMin base elapsed ≠ 60)
    (h : sumHour base elapsed = 24) : (curr_time_cheak_and_get base elapsed).tm_hour = 24 := by
  change (sumToDays base elapsed).tm_hour = 24
  rw [sumToDays_hour hsec hmin, h, carry_radix]

/-- What all carries up to the days leave. -/
theorem sumToDays_day (hsec : sumSec base elapsed ≠ 60) (hmin : sumMin base elapsed ≠ 60)
    (hhour : sumHour base elapsed ≠ 24) :
    sumToDays base elapsed =
      { tm_sec := sumSec base elapsed % 60
        tm_min := sumMin base elapsed % 60
        tm_hour := sumHour base elapsed % 24
        tm_mday := sumDay base elapsed
        tm_mon := elapsed.tm_mon + base.tm_mon - 1
        tm_year := elapsed.tm_year + base.tm_year - 70 } := by
  rw [sumToDays_hour hsec hmin, carry_of_ne hhour]
  rfl

/-- The days are 1 to 61 or 62, of which each but the last comes to a day of a month. -/
theorem carry_days {day : Nat} (hpos : 1 ≤ day) (hle : day ≤ 62) (mon : Nat) (h : day ≠ 62) :
    1 ≤ (carry 31 day mon).1 ∧ (carry 31 day mon).1 ≤ 31 ∧ (carry 31 day mon).2 = mon + (day - 1) / 31 := by
  unfold carry
  split_ifs
  all_goals dsimp only
  all_goals omega

theorem carry_months {mon : Nat} (hpos : 1 ≤ mon) (hle : mon ≤ 24) (year : Nat) (h : mon ≠ 24) :
    1 ≤ (carry 12 mon year).1 ∧ (carry 12 mon year).1 ≤ 12 := by
  unfold carry
  split_ifs
  all_goals dsimp only
  all_goals omega

/-! ## The sums of two times -/

theorem sums_in_range (hbase : ValidTime base) (helapsed : ValidTime elapsed) :
    1 ≤ sumDay base elapsed ∧ sumDay base elapsed ≤ 62 ∧ 1 ≤ sumMon base elapsed ∧ sumMon base elapsed ≤ 24 := by
  obtain ⟨⟨hmon, hmon'⟩, ⟨hday, hday'⟩, hhour, hmin, hsec⟩ := hbase
  obtain ⟨⟨emon, emon'⟩, ⟨eday, eday'⟩, ehour, emin, esec⟩ := helapsed
  have hseconds : sumSec base elapsed ≤ 118 := by
    unfold sumSec
    omega
  have hminutes : sumMin base elapsed ≤ 119 := by
    unfold sumMin
    omega
  have hhours : sumHour base elapsed ≤ 47 := by
    unfold sumHour
    omega
  have hdays : 1 ≤ sumDay base elapsed ∧ sumDay base elapsed ≤ 62 := by
    unfold sumDay
    omega
  have hmonths : 1 ≤ sumMon base elapsed ∧ sumMon base elapsed ≤ 24 := by
    unfold sumMon
    omega
  exact ⟨hdays.1, hdays.2, hmonths.1, hmonths.2⟩

/-- Seconds, minutes and hours that are carried are the seconds of both days. -/
theorem carried_seconds (base elapsed : localtime_tm) : secondsOfDay base + secondsOfDay elapsed =
    sumHour base elapsed / 24 * 86400 +
      (sumHour base elapsed % 24 * 3600 + sumMin base elapsed % 60 * 60 + sumSec base elapsed % 60) := by
  unfold secondsOfDay sumHour sumMin sumSec
  omega

theorem sum_fields (hsec : sumSec base elapsed ≠ 60) (hmin : sumMin base elapsed ≠ 60)
    (hhour : sumHour base elapsed ≠ 24) :
    let t := curr_time_cheak_and_get base elapsed
    let days := carry 31 (sumDay base elapsed) (elapsed.tm_mon + base.tm_mon - 1)
    t.tm_sec = sumSec base elapsed % 60 ∧ t.tm_min = sumMin base elapsed % 60 ∧
      t.tm_hour = sumHour base elapsed % 24 ∧ t.tm_mday = days.1 ∧
      t.tm_mon = (carry 12 days.2 (elapsed.tm_year + base.tm_year - 70)).1 := by
  unfold curr_time_cheak_and_get
  rw [sumToDays_day hsec hmin hhour]
  exact ⟨rfl, rfl, rfl, rfl, rfl⟩

theorem adds_up_of_carries (hbase : ValidTime base) (helapsed : ValidTime elapsed) (h : Carries base elapsed) :
    AddsUp base elapsed := by
  obtain ⟨hday, hday', hmon, hmon'⟩ := sums_in_range hbase helapsed
  obtain ⟨fsec, fmin, fhour, fday, fmon⟩ := sum_fields h.sec h.min h.hour
  obtain ⟨hone, hlast, hnext⟩ := carry_days hday hday' (elapsed.tm_mon + base.tm_mon - 1) h.day
  rw [hnext, ← sumMon] at fmon
  have hseconds := carried_seconds base elapsed
  have hrest : sumHour base elapsed % 24 * 3600 + sumMin base elapsed % 60 * 60 + sumSec base elapsed % 60 < 86400 := by
    omega
  refine ⟨⟨?_, ?_, ?_, ?_, ?_⟩, ?_, ?_⟩
  · rw [fmon]
    exact carry_months hmon hmon' _ h.mon
  · rw [fday]
    exact ⟨hone, hlast⟩
  · omega
  · omega
  · omega
  · rw [secondsOfDay, fhour, fmin, fsec, hseconds, Nat.mul_add_mod', Nat.mod_eq_of_lt hrest]
  · have helapsed' := helapsed.day.1
    rw [sumToDays_day h.sec h.min h.hour]
    change sumDay base elapsed = _
    unfold sumDay
    omega

theorem carries_of_adds_up (hbase : ValidTime base) (helapsed : ValidTime elapsed) (h : AddsUp base elapsed) :
    Carries base elapsed := by
  obtain ⟨hmon, hday, hhour, hmin, hsec⟩ := h.valid
  have sec : sumSec base elapsed ≠ 60 := by
    intro heq
    rw [sec_stays heq] at hsec
    omega
  have min : sumMin base elapsed ≠ 60 := by
    intro heq
    rw [min_stays sec heq] at hmin
    omega
  have hour : sumHour base elapsed ≠ 24 := by
    intro heq
    rw [hour_stays sec min heq] at hhour
    omega
  obtain ⟨-, -, -, fday, fmon⟩ := sum_fields sec min hour
  have day : sumDay base elapsed ≠ 62 := by
    intro heq
    rw [fday, heq] at hday
    exact Nat.lt_irrefl 0 hday.1
  obtain ⟨hone, hlast, -, -⟩ := sums_in_range hbase helapsed
  refine ⟨sec, min, hour, day, fun heq => ?_⟩
  rw [fmon, (carry_days hone hlast _ day).2.2, ← sumMon, heq] at hmon
  exact Nat.lt_irrefl 0 hmon.1

/-! ## The times that the OLT sets -/

theorem valid_of_set (h : SetByRequest base) (hmon : 1 ≤ base.tm_mon) (hday : 1 ≤ base.tm_mday)
    (hhour : base.tm_hour ≤ 23) : ValidTime base := by
  obtain ⟨g, payload, hsize, haccepted, rfl⟩ := h
  by_cases hyear : oam.yearOf payload < 1980 ∨ 2079 < oam.yearOf payload
  · unfold realtimeSync at haccepted
    dsimp only at haccepted
    rw [if_pos hyear] at haccepted
    exact absurd rfl haccepted
  · obtain ⟨hreply, htime, -⟩ := oam.realtimeSync_fields hsize hyear
    have hin : ¬ (oam.inRange payload oam.timeFields 3).length < oam.timeFields.length :=
      fun hout => haccepted (hreply.mpr hout)
    obtain ⟨hset, hmon', hday', -, hmin, hsec⟩ := oam.inRange_all hin (oam.yearOf payload)
    rw [htime, hset] at hmon hday hhour ⊢
    exact ⟨⟨hmon, hmon'⟩, ⟨hday, hday'⟩, hhour, hmin, hsec⟩

/-- A time that was set and the time since then add up just when no field comes to 60, 60 or 24,
no day to 62, and no month to 24. -/
theorem times_add_up_iff_they_carry (hset : SetByRequest base) (hmon : 1 ≤ base.tm_mon) (hday : 1 ≤ base.tm_mday)
    (hhour : base.tm_hour ≤ 23) (helapsed : ValidTime elapsed) :
    AddsUp base elapsed ↔ Carries base elapsed :=
  have hbase := valid_of_set hset hmon hday hhour
  ⟨carries_of_adds_up hbase helapsed, adds_up_of_carries hbase helapsed⟩

/-- The 6th of May 2024, 7:08:09. -/
theorem a_time_in_may_is_set : SetByRequest ⟨9, 8, 7, 6, 5, 2024⟩ :=
  ⟨Globals.init, oam.memory (oam.timeRequest [5, 6, 7, 8, 9]), rfl, by decide, by decide⟩

/-- Ten seconds later. -/
theorem ten_seconds_add_up : AddsUp ⟨9, 8, 7, 6, 5, 2024⟩ ⟨10, 0, 0, 1, 1, 70⟩ :=
  (times_add_up_iff_they_carry a_time_in_may_is_set (by decide) (by decide) (by decide)
    ⟨by decide, by decide, by decide, by decide, by decide⟩).mpr
    ⟨by decide, by decide, by decide, by decide, by decide⟩

/-- 51 seconds later it is 7:08:60. -/
theorem a_full_minute_is_not_carried : SetByRequest ⟨9, 8, 7, 6, 5, 2024⟩ ∧ ValidTime ⟨51, 0, 0, 1, 1, 70⟩ ∧
    ¬ AddsUp ⟨9, 8, 7, 6, 5, 2024⟩ ⟨51, 0, 0, 1, 1, 70⟩ := by
  refine ⟨a_time_in_may_is_set, ⟨by decide, by decide, by decide, by decide, by decide⟩, fun h => ?_⟩
  exact absurd h.valid.second (by decide)

end gwdonu.clock_sum
