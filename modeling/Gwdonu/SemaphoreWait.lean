-- A wait for a semaphore with a timeout, while others post to it. When it takes what is there
-- in time, and when it gives up on what is.
import Gwdonu.Rcp
import Mathlib.Logic.Function.Iterate

namespace gwdonu.semaphore_wait

open Function os_core rcp

/-! ## The program -/

/-- The moments of whole milliseconds behind a call, in any time. -/
structure Clock (T : Type) [LinearOrder T] where
  ms : Nat → T
  ms_lt : StrictMono ms

/-- How many posts there have been up to each moment. -/
structure Posts (T : Type) [LinearOrder T] where
  upTo : T → Nat
  mono : Monotone upTo

section
variable {T : Type} [LinearOrder T] (clock : Clock T) (posts : Posts T) (s : Os) (sem_id : Nat)

/-- The tables behind so many posts. -/
def posted (n : Nat) : Os := (fun s => (gw_semaphore_post s sem_id).1)^[n] s

/-- The tables at so many milliseconds, while the wait has taken nothing. -/
def at_ms (elapsed : Nat) : Os := posted s sem_id (posts.upTo (clock.ms elapsed))

/-- What a wait leaves behind, what it returns, and how long it slept. -/
structure Waited where
  os : Os
  ret : GW_E_OSAL
  elapsed : Nat

/-- The loop of `gw_semaphore_wait`: each try that fails sleeps for 100 ms, but for a try with
less than that left. -/
def waitFrom (elapsed timeloop : Nat) : Waited :=
  match h : gw_semaphore_wait_turn (at_ms clock posts s sem_id elapsed) sem_id timeloop with
  | (os, .done ret) => ⟨os, ret, elapsed⟩
  | (_, .again timeloop') => waitFrom (elapsed + 100) timeloop'
termination_by timeloop
decreasing_by exact wait_turn_lt h

/-- For a timeout above zero. -/
def gw_semaphore_wait (timeout : Nat) : Waited := waitFrom clock posts s sem_id 0 timeout

/-! ## The law -/

def InUse : Prop := sem_id < GW_OSAL_MAX_COUNT_SEM ∧ (s.gw_osal_count_sem_table sem_id).free = false

/-- The count at a moment, while the wait has taken nothing. -/
def count (τ : T) : Nat := (s.gw_osal_count_sem_table sem_id).value + posts.upTo τ

/-- The wait takes one when there is one up to its deadline, and it gives up at no other time than
behind it. -/
structure KeepsDeadline (t : Nat) : Prop where
  taken_iff : (gw_semaphore_wait clock posts s sem_id t).ret = .OK ↔
    ∃ τ, clock.ms 0 ≤ τ ∧ τ ≤ clock.ms t ∧ 0 < count posts s sem_id τ
  takes_one : ∀ w, gw_semaphore_wait clock posts s sem_id t = w → w.ret = .OK →
    ((at_ms clock posts s sem_id w.elapsed).gw_osal_count_sem_table sem_id).value ≠ 0 ∧
      w.os = (at_ms clock posts s sem_id w.elapsed).set_sem sem_id
        ((at_ms clock posts s sem_id w.elapsed).gw_osal_count_sem_table sem_id).take
  gives_up : ∀ w, gw_semaphore_wait clock posts s sem_id t = w → w.ret ≠ .OK →
    w.ret = .SEM_TIMEOUT ∧ w.os = at_ms clock posts s sem_id w.elapsed ∧ t ≤ w.elapsed

/-- The time of the last try. -/
def lastTry (t : Nat) : Nat := 100 * ((t - 1) / 100)

/-- The last try finds something, or there is nothing up to the deadline, which the sleeps meet. -/
def Meets (t : Nat) : Prop :=
  0 < count posts s sem_id (clock.ms (lastTry t)) ∨ 100 ∣ t ∧ count posts s sem_id (clock.ms t) = 0

/-! ## The posts -/

variable {s sem_id}

theorem InUse.valid (h : InUse s sem_id) :
    ¬ (GW_OSAL_MAX_COUNT_SEM ≤ sem_id ∨ (s.gw_osal_count_sem_table sem_id).free = true) := by
  rintro (hid | hfree)
  · exact Nat.not_le.mpr h.1 hid
  · rw [h.2] at hfree
    cases hfree

theorem post_eq (h : InUse s sem_id) : (gw_semaphore_post s sem_id).1 =
    s.set_sem sem_id (s.gw_osal_count_sem_table sem_id).post := by
  rw [gw_semaphore_post, if_neg h.valid]

theorem posted_record (h : InUse s sem_id) (n : Nat) : (posted s sem_id n).gw_osal_count_sem_table sem_id =
    { s.gw_osal_count_sem_table sem_id with value := (s.gw_osal_count_sem_table sem_id).value + n } := by
  induction n generalizing s with
  | zero => rfl
  | succ n ih =>
    have hrecord : (s.set_sem sem_id (s.gw_osal_count_sem_table sem_id).post).gw_osal_count_sem_table sem_id =
        (s.gw_osal_count_sem_table sem_id).post := update_self _ _ _
    have hin : InUse (s.set_sem sem_id (s.gw_osal_count_sem_table sem_id).post) sem_id :=
      ⟨h.1, by rw [hrecord]; exact h.2⟩
    rw [posted, iterate_succ_apply, post_eq h, ← posted, ih hin, hrecord]
    simp only [osal_count_sem_record_t.post, Nat.add_assoc, Nat.add_comm 1 n]

theorem at_ms_value (h : InUse s sem_id) (e : Nat) :
    ((at_ms clock posts s sem_id e).gw_osal_count_sem_table sem_id).value = count posts s sem_id (clock.ms e) := by
  rw [at_ms, posted_record h]
  rfl

theorem count_mono {d e : Nat} (h : d ≤ e) :
    count posts s sem_id (clock.ms d) ≤ count posts s sem_id (clock.ms e) :=
  Nat.add_le_add_left (posts.mono (clock.ms_lt.monotone h)) _

/-! ## The loop -/

/-- A turn, by what it finds. -/
theorem turn_eq (h : InUse s sem_id) (e timeloop : Nat) :
    gw_semaphore_wait_turn (at_ms clock posts s sem_id e) sem_id timeloop =
      if timeloop = 0 then (at_ms clock posts s sem_id e, .done .SEM_TIMEOUT)
      else if count posts s sem_id (clock.ms e) = 0 then
        if 100 ≤ timeloop then (at_ms clock posts s sem_id e, .again (timeloop - 100))
        else (at_ms clock posts s sem_id e, .done .SEM_TIMEOUT)
      else ((at_ms clock posts s sem_id e).set_sem sem_id
        ((at_ms clock posts s sem_id e).gw_osal_count_sem_table sem_id).take, .done .OK) := by
  have hin : InUse (at_ms clock posts s sem_id e) sem_id := ⟨h.1, by rw [at_ms, posted_record h]; exact h.2⟩
  rw [gw_semaphore_wait_turn, if_neg hin.valid, at_ms_value clock posts h]

theorem waitFrom_done {e timeloop : Nat} {os : Os} {ret : GW_E_OSAL}
    (h : gw_semaphore_wait_turn (at_ms clock posts s sem_id e) sem_id timeloop = (os, .done ret)) :
    waitFrom clock posts s sem_id e timeloop = ⟨os, ret, e⟩ := by
  rw [waitFrom]
  split
  · rename_i hturn
    rw [h] at hturn
    cases hturn
    rfl
  · rename_i hturn
    rw [h] at hturn
    cases hturn

theorem waitFrom_again {e timeloop left : Nat} {os : Os}
    (h : gw_semaphore_wait_turn (at_ms clock posts s sem_id e) sem_id timeloop = (os, .again left)) :
    waitFrom clock posts s sem_id e timeloop = waitFrom clock posts s sem_id (e + 100) left := by
  rw [waitFrom]
  split
  · rename_i hturn
    rw [h] at hturn
    cases hturn
  · rename_i hturn
    rw [h] at hturn
    cases hturn
    rfl

/-- With nothing there at the last try, the wait sleeps for the whole slices that it has. -/
theorem waitFrom_nothing (h : InUse s sem_id) (timeloop e : Nat)
    (hlast : 0 < timeloop → count posts s sem_id (clock.ms (e + lastTry timeloop)) = 0) :
    waitFrom clock posts s sem_id e timeloop = ⟨at_ms clock posts s sem_id (e + 100 * (timeloop / 100)), .SEM_TIMEOUT,
      e + 100 * (timeloop / 100)⟩ := by
  induction timeloop using Nat.strong_induction_on generalizing e with
  | h timeloop ih =>
    by_cases hzero : timeloop = 0
    · subst hzero
      rw [Nat.zero_div, Nat.mul_zero, Nat.add_zero]
      exact waitFrom_done clock posts (by rw [turn_eq clock posts h, if_pos rfl])
    · have hnone : count posts s sem_id (clock.ms e) = 0 :=
        Nat.le_zero.mp ((count_mono clock posts (Nat.le_add_right e (lastTry timeloop))).trans
          (hlast (Nat.pos_of_ne_zero hzero)).le)
      by_cases hlong : 100 ≤ timeloop
      · have hslices : 100 * (timeloop / 100) = 100 + 100 * ((timeloop - 100) / 100) := by omega
        rw [waitFrom_again clock posts (by rw [turn_eq clock posts h, if_neg hzero, if_pos hnone, if_pos hlong]),
          hslices, ← Nat.add_assoc]
        refine ih (timeloop - 100) (by omega) (e + 100) fun hleft => ?_
        have htry : e + 100 + lastTry (timeloop - 100) = e + lastTry timeloop := by
          unfold lastTry
          omega
        rw [htry]
        exact hlast (Nat.pos_of_ne_zero hzero)
      · have hslices : timeloop / 100 = 0 := by omega
        rw [waitFrom_done clock posts (by rw [turn_eq clock posts h, if_neg hzero, if_pos hnone, if_neg hlong]),
          hslices, Nat.mul_zero, Nat.add_zero]

/-- With something there at the last try, that try or one before it takes one. -/
theorem waitFrom_something (h : InUse s sem_id) (timeloop e : Nat) (hpos : 0 < timeloop)
    (hlast : 0 < count posts s sem_id (clock.ms (e + lastTry timeloop))) :
    ∃ e', count posts s sem_id (clock.ms e') ≠ 0 ∧ e' ≤ e + lastTry timeloop ∧
      waitFrom clock posts s sem_id e timeloop = ⟨(at_ms clock posts s sem_id e').set_sem sem_id
        ((at_ms clock posts s sem_id e').gw_osal_count_sem_table sem_id).take, .OK, e'⟩ := by
  induction timeloop using Nat.strong_induction_on generalizing e with
  | h timeloop ih =>
    by_cases hnone : count posts s sem_id (clock.ms e) = 0
    · have hlater : lastTry timeloop ≠ 0 := by
        intro hzero
        rw [hzero, Nat.add_zero, hnone] at hlast
        exact Nat.lt_irrefl 0 hlast
      have htry : e + 100 + lastTry (timeloop - 100) = e + lastTry timeloop ∧ 100 < timeloop := by
        unfold lastTry at hlater ⊢
        omega
      obtain ⟨e', hsome, hle, heq⟩ := ih (timeloop - 100) (by omega) (e + 100) (by omega) (by rw [htry.1]; exact hlast)
      refine ⟨e', hsome, by rw [← htry.1]; exact hle, ?_⟩
      rw [← heq]
      exact waitFrom_again clock posts (by rw [turn_eq clock posts h, if_neg hpos.ne', if_pos hnone, if_pos htry.2.le])
    · exact ⟨e, hnone, Nat.le_add_right e _,
        waitFrom_done clock posts (by rw [turn_eq clock posts h, if_neg hpos.ne', if_neg hnone])⟩

/-- While nobody posts, the wait is the one whose tries all find the same value. -/
theorem wait_alone (h : InUse s sem_id) {timeout : Int32} (ht : 0 < timeout) (hposts : ∀ τ, posts.upTo τ = 0) :
    os_core.gw_semaphore_wait s sem_id timeout =
      some ((gw_semaphore_wait clock posts s sem_id timeout.toInt.toNat).os,
        (gw_semaphore_wait clock posts s sem_id timeout.toInt.toNat).ret) := by
  have hsame (e : Nat) : at_ms clock posts s sem_id e = s := by rw [at_ms, hposts]; rfl
  have hcount (τ : T) : count posts s sem_id τ = (s.gw_osal_count_sem_table sem_id).value := by
    rw [count, hposts, Nat.add_zero]
  have hlong : (0 : Int) < timeout.toInt := Int32.lt_iff_toInt_lt.mp ht
  have hnowait : timeout ≠ GW_OSAL_NO_WAIT := fun heq => Int32.lt_irrefl (heq ▸ ht)
  have hforever : timeout ≠ GW_OSAL_WAIT_FOREVER := by
    rintro rfl
    exact absurd ht (by decide)
  rw [os_core.gw_semaphore_wait, if_neg h.valid, gw_semaphore_wait]
  dsimp only
  rw [if_neg hnowait, if_neg hforever]
  by_cases hvalue : (s.gw_osal_count_sem_table sem_id).value = 0
  · rw [if_neg (fun hboth => hboth.2 hvalue), waitFrom_nothing clock posts h _ _ (fun _ => by rw [hcount, hvalue]),
      hsame]
  · rw [if_pos ⟨ht, hvalue⟩, waitFrom_done clock posts
      (by rw [turn_eq clock posts h, if_neg (by omega), if_neg (by rw [hcount]; exact hvalue)]), hsame]

theorem lastTry_le (t : Nat) : lastTry t ≤ t := by
  unfold lastTry
  omega

/-- There is something at the deadline just when there is at a moment up to it. -/
theorem some_by_deadline (t : Nat) :
    (∃ τ, clock.ms 0 ≤ τ ∧ τ ≤ clock.ms t ∧ 0 < count posts s sem_id τ) ↔ 0 < count posts s sem_id (clock.ms t) := by
  constructor
  · rintro ⟨τ, -, hτ, hsome⟩
    exact hsome.trans_le (Nat.add_le_add_left (posts.mono hτ) _)
  · intro hsome
    exact ⟨clock.ms t, clock.ms_lt.monotone (Nat.zero_le t), le_refl _, hsome⟩

theorem keeps_of_something (h : InUse s sem_id) {t : Nat} (ht : 1 ≤ t)
    (hlast : 0 < count posts s sem_id (clock.ms (lastTry t))) : KeepsDeadline clock posts s sem_id t := by
  obtain ⟨e', hsome, -, heq⟩ := waitFrom_something clock posts h t 0 ht (by rw [Nat.zero_add]; exact hlast)
  refine ⟨?_, ?_, ?_⟩
  · rw [some_by_deadline, gw_semaphore_wait, heq]
    exact iff_of_true rfl (hlast.trans_le (count_mono clock posts (lastTry_le t)))
  · rintro w rfl -
    rw [gw_semaphore_wait, heq, at_ms_value clock posts h]
    exact ⟨hsome, rfl⟩
  · rintro w rfl hret
    rw [gw_semaphore_wait, heq] at hret
    exact absurd rfl hret

theorem keeps_iff_of_nothing (h : InUse s sem_id) {t : Nat}
    (hlast : count posts s sem_id (clock.ms (lastTry t)) = 0) :
    KeepsDeadline clock posts s sem_id t ↔ 100 ∣ t ∧ count posts s sem_id (clock.ms t) = 0 := by
  have heq := waitFrom_nothing clock posts h t 0 fun _ => by rw [Nat.zero_add]; exact hlast
  rw [Nat.zero_add] at heq
  have hwait : gw_semaphore_wait clock posts s sem_id t =
      ⟨at_ms clock posts s sem_id (100 * (t / 100)), .SEM_TIMEOUT, 100 * (t / 100)⟩ := heq
  have hnot : GW_E_OSAL.SEM_TIMEOUT ≠ .OK := by decide
  constructor
  · intro hkeeps
    have hret := hkeeps.taken_iff
    have hlong := (hkeeps.gives_up _ hwait hnot).2.2
    rw [some_by_deadline, hwait] at hret
    refine ⟨?_, ?_⟩
    · change t ≤ 100 * (t / 100) at hlong
      omega
    · by_contra hsome
      exact absurd (hret.mpr (Nat.pos_of_ne_zero hsome)) hnot
  · rintro ⟨hslices, hnone⟩
    refine ⟨?_, ?_, ?_⟩
    · rw [some_by_deadline, hwait, hnone]
      exact iff_of_false hnot (Nat.lt_irrefl 0)
    · rintro w rfl hret
      rw [hwait] at hret
      exact absurd hret hnot
    · rintro w rfl -
      rw [hwait]
      exact ⟨rfl, rfl, (Nat.mul_div_cancel' hslices).ge⟩

/-- A wait keeps its deadline just when its last try finds something, or nothing comes up to the
deadline and that is a whole number of sleeps away. -/
theorem a_wait_keeps_its_deadline_iff_its_last_try_meets_it (h : InUse s sem_id) (t : Nat) (ht : 1 ≤ t) :
    KeepsDeadline clock posts s sem_id t ↔ Meets clock posts s sem_id t := by
  by_cases hlast : count posts s sem_id (clock.ms (lastTry t)) = 0
  · rw [keeps_iff_of_nothing clock posts h hlast, Meets, hlast]
    simp only [Nat.lt_irrefl, false_or]
  · have hpos := Nat.pos_of_ne_zero hlast
    exact iff_of_true (keeps_of_something clock posts h ht hpos) (Or.inl hpos)

end

/-! ## Waits of whole milliseconds -/

def wholeMs : Clock Nat := ⟨id, strictMono_id⟩

/-- A post at 50 ms, and no other. -/
def postAt50 : Posts Nat where
  upTo τ := if τ < 50 then 0 else 1
  mono a b h := by
    dsimp only
    split_ifs
    all_goals omega

/-- The first semaphore is in use and has nothing. -/
def emptySem : Os := gw_osal_core_init.set_sem 0 ⟨false, 0, []⟩

/-- A wait of 150 ms finds at its second try what was posted at 50 ms. -/
theorem a_wait_of_150_ms_keeps_its_deadline : KeepsDeadline wholeMs postAt50 emptySem 0 150 :=
  (a_wait_keeps_its_deadline_iff_its_last_try_meets_it wholeMs postAt50 ⟨by decide, rfl⟩ 150 (by decide)).mpr
    (Or.inl (by decide))

/-- A wait of 100 ms sleeps to its deadline and does not try again. -/
theorem a_wait_of_100_ms_misses_a_post_at_50_ms : ¬ KeepsDeadline wholeMs postAt50 emptySem 0 100 := by
  rw [keeps_iff_of_nothing wholeMs postAt50 ⟨by decide, rfl⟩ rfl]
  rintro ⟨-, hnone⟩
  exact absurd hnone (by decide)

end gwdonu.semaphore_wait
