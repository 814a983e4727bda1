-- The authentication of the switches: once it is enabled, a record that names a switch should
-- name one with the OUI of the vendor.
import Gwdonu.SwitchRounds

namespace gwdonu.switch_auth

open Function runs switch_monitor
open oam (Mem bytes)
open rcp (MAX_RRCP_SWITCH_TO_MANAGE)

/-! ## The law -/

/-- The record of a port that names a switch. -/
def valid (s : State) (i : Nat) : Option RCP_DEV :=
  if i < MAX_RRCP_SWITCH_TO_MANAGE then (s.rcpDevList i).filter (·.switchMac ≠ nullMac) else none

def Gwd (dev : RCP_DEV) : Prop := dev.switchMac.toList.take 3 = gwdOui

instance (dev : RCP_DEV) : Decidable (Gwd dev) := inferInstanceAs (Decidable (_ = _))

/-- Every valid record is of a switch with the OUI. -/
def Authentic (s : State) : Prop := ∀ i, ∀ dev ∈ valid s i, Gwd dev

/-- The command to enable it leaves the valid records with the OUI, each as it was, and no other
valid one; and after every step all are authentic, while it is enabled. -/
structure Sound (s : State) (e : Event) : Prop where
  purge : e = .auth true → ∃ t, s.cli_int_switch_manage_auth true = some t ∧
    ∀ i, valid t i = (valid s i).filter fun dev => Gwd dev
  authentic : (s.step e).gulGwdRcpAuth = true → Authentic (s.step e)

/-- When it is enabled, the ports have a record each, and none of a switch with the OUI; and
the entry 0, which the command does not come to, has no other one. -/
def Careful (s : State) (e : Event) : Prop :=
  e = .auth true →
    (∀ i, 1 ≤ i → i < MAX_RRCP_SWITCH_TO_MANAGE → s.rcpDevList i ≠ none ∧ ∀ dev ∈ valid s i, ¬ Gwd dev) ∧
      ∀ dev ∈ valid s 0, Gwd dev

/-! ## The command -/

section
variable {s t : State} {e : Event} {list : Nat → Option RCP_DEV} {n : Nat}

/-- The loop needs a record at each port, and leaves none. -/
theorem authPort_loop (a n : Nat) (list list' : Nat → Option RCP_DEV) :
    (List.range' a n).foldlM authPort list = some list' ↔
      (∀ i, a ≤ i → i < a + n → list i ≠ none) ∧
        list' = fun i => if a ≤ i ∧ i < a + n then none else list i := by
  induction n generalizing a list with
  | zero =>
    have hsame : (fun i => if a ≤ i ∧ i < a + 0 then none else list i) = list := by
      funext i
      rw [if_neg (by omega)]
    rw [hsame]
    constructor
    · intro h
      exact ⟨fun i _ _ => by omega, (Option.some.inj h).symm⟩
    · rintro ⟨-, rfl⟩
      rfl
  | succ n ih =>
    rw [List.range'_succ, List.foldlM_cons, authPort]
    cases hfirst : list a with
    | none =>
      constructor
      · intro h
        cases h
      · rintro ⟨hall, -⟩
        exact absurd hfirst (hall a (Nat.le_refl a) (by omega))
    | some dev =>
      change (List.range' (a + 1) n).foldlM authPort (update list a none) = _ ↔ _
      rw [ih]
      have hiff : (∀ i, a + 1 ≤ i → i < a + 1 + n → update list a none i ≠ none) ↔
          ∀ i, a ≤ i → i < a + (n + 1) → list i ≠ none := by
        constructor
        · intro h i hlow hhigh
          by_cases hi : i = a
          · rw [hi, hfirst]
            exact Option.some_ne_none dev
          · have hrest := h i (by omega) (by omega)
            rwa [update_of_ne hi] at hrest
        · intro h i hlow hhigh
          rw [update_of_ne (by omega)]
          exact h i (by omega) (by omega)
      have hlist : (fun i => if a + 1 ≤ i ∧ i < a + 1 + n then none else update list a none i) =
          fun i => if a ≤ i ∧ i < a + (n + 1) then none else list i := by
        funext i
        by_cases hi : i = a
        · subst hi
          rw [update_self, if_neg (by omega), if_pos (by omega)]
        · rw [update_of_ne hi]
          by_cases hin : a + 1 ≤ i ∧ i < a + 1 + n
          · rw [if_pos hin, if_pos (by omega)]
          · rw [if_neg hin, if_neg (by omega)]
      rw [hiff, hlist]

/-- The state that the command leaves. -/
def purged (s : State) : State :=
  { s with
    rcpDevList := fun i => if 1 ≤ i ∧ i < MAX_RRCP_SWITCH_TO_MANAGE then none else s.rcpDevList i
    gulGwdRcpAuth := true }

theorem enable_iff : s.cli_int_switch_manage_auth true = some t ↔
    (∀ i, 1 ≤ i → i < MAX_RRCP_SWITCH_TO_MANAGE → s.rcpDevList i ≠ none) ∧ t = purged s := by
  unfold State.cli_int_switch_manage_auth
  rw [if_pos rfl, Option.map_eq_some_iff]
  constructor
  · rintro ⟨list', hlist, rfl⟩
    obtain ⟨hall, rfl⟩ := (authPort_loop 1 (MAX_RRCP_SWITCH_TO_MANAGE - 1) s.rcpDevList list').mp hlist
    exact ⟨hall, rfl⟩
  · rintro ⟨hall, rfl⟩
    exact ⟨_, (authPort_loop 1 (MAX_RRCP_SWITCH_TO_MANAGE - 1) s.rcpDevList _).mpr ⟨hall, rfl⟩, rfl⟩

/-- After the command, only the entry 0 can name a switch. -/
theorem purged_valid (i : Nat) : valid (purged s) i = if i = 0 then valid s 0 else none := by
  unfold valid purged
  by_cases hi : i = 0
  · simp [hi]
  · by_cases hin : i < MAX_RRCP_SWITCH_TO_MANAGE
    · have hlow : 1 ≤ i := Nat.one_le_iff_ne_zero.mpr hi
      simp [hi, hin, hlow]
    · simp [hi, hin]

/-! ## The other steps -/

theorem mem_valid {i : Nat} {dev : RCP_DEV} :
    dev ∈ valid s i ↔ i < MAX_RRCP_SWITCH_TO_MANAGE ∧ s.rcpDevList i = some dev ∧ dev.switchMac ≠ nullMac := by
  unfold valid
  by_cases hi : i < MAX_RRCP_SWITCH_TO_MANAGE
  · simp [hi, Option.filter_eq_some_iff]
  · simp [hi]

/-- A record of `t` names the switch that it named in `s`, or none. -/
def NamesFrom (s t : State) : Prop :=
  ∀ i dev, t.rcpDevList i = some dev → dev.switchMac = nullMac ∨
    ∃ old, s.rcpDevList i = some old ∧ dev.switchMac = old.switchMac

theorem names_refl (h : t.rcpDevList = s.rcpDevList) : NamesFrom s t := by
  intro i dev hdev
  rw [h] at hdev
  exact .inr ⟨dev, hdev, rfl⟩

theorem names_edit {u : State} (i : Nat) (f : RCP_DEV → RCP_DEV) (pc : Pc) (hu : u.rcpDevList = s.rcpDevList)
    (hf : ∀ dev, (f dev).switchMac = nullMac ∨ (f dev).switchMac = dev.switchMac) :
    NamesFrom s { u.edit i f with pc } := by
  intro j dev hdev
  change (u.edit i f).rcpDevList j = some dev at hdev
  by_cases hj : j = i
  · subst hj
    rw [edit_self, hu] at hdev
    obtain ⟨old, hold, rfl⟩ := Option.map_eq_some_iff.mp hdev
    exact (hf old).imp id fun hmac => ⟨old, hold, hmac⟩
  · rw [edit_other f hj, hu] at hdev
    exact .inr ⟨dev, hdev, rfl⟩

theorem NamesFrom.authentic (h : NamesFrom s t) (hs : Authentic s) : Authentic t := by
  intro i dev hdev
  obtain ⟨hi, hfound, hmac⟩ := mem_valid.mp hdev
  rcases h i dev hfound with hnull | ⟨old, hold, hsame⟩
  · exact absurd hnull hmac
  · have hgwd := hs i old (mem_valid.mpr ⟨hi, hold, by rwa [← hsame]⟩)
    rwa [Gwd, hsame]

theorem register_mac (dev : RCP_DEV) : dev.register.switchMac = dev.switchMac := by
  unfold RCP_DEV.register
  dsimp only
  split <;> rfl

theorem poll_mac (dev : RCP_DEV) : dev.poll.switchMac = dev.switchMac := by
  unfold RCP_DEV.poll
  dsimp only
  split <;> rfl

theorem turn_names {env : Env} (h : s.Turn env t) : NamesFrom s t ∧ t.gulGwdRcpAuth = s.gulGwdRcpAuth := by
  cases h with
  | polls i => exact ⟨names_edit i .poll _ rfl fun dev => .inr (poll_mac dev), rfl⟩
  | falls i dev => exact ⟨names_edit i .offline _ (report_list ..) fun _ => .inr rfl, report_auth ..⟩
  | rises i dev => exact ⟨names_edit i .reregister _ (report_list ..) fun _ => .inr rfl, report_auth ..⟩
  | rises_quietly i => exact ⟨names_edit i .reregister _ rfl fun _ => .inr rfl, rfl⟩
  | clears i j => exact ⟨names_edit i .clear _ rfl fun _ => .inl rfl, rfl⟩
  | replaces i dev =>
    refine ⟨names_edit i .register _ ?_ fun dev => .inr (register_mac dev), ?_⟩
    · exact (report_list ..).trans (report_list ..)
    · exact (report_auth ..).trans (report_auth ..)
  | registers i dev =>
      exact ⟨names_edit i .register _ (report_list ..) fun dev => .inr (register_mac dev), report_auth ..⟩
  | _ => exact ⟨names_refl rfl, rfl⟩

/-- A hello reply is let through by its source, which becomes the MAC of the record. -/
theorem receives_authentic {mal : Bool} {portid len : Nat} {frame : Mem} (h : s.Receives mal portid len frame t)
    (hs : s.gulGwdRcpAuth = true → Authentic s) : t.gulGwdRcpAuth = true → Authentic t := by
  intro hauth
  cases h with
  | drops => exact hs hauth
  | starves => exact hs hauth
  | answers dev mac _ hport hrecord houi =>
    intro i found hfound
    obtain ⟨hi, hlist, hmac⟩ := mem_valid.mp hfound
    by_cases hp : i = portid
    · subst hp
      dsimp only at hlist
      rw [update_self] at hlist
      obtain rfl := Option.some.inj hlist
      exact houi hauth
    · dsimp only at hlist
      rw [update_of_ne hp] at hlist
      exact hs hauth i found (mem_valid.mpr ⟨hi, hlist, hmac⟩)

theorem mask_names (onuPort : Nat) (all enable : Bool) :
    NamesFrom s (s.cli_int_mask_alarm_switch onuPort all enable) ∧
      (s.cli_int_mask_alarm_switch onuPort all enable).gulGwdRcpAuth = s.gulGwdRcpAuth := by
  obtain ⟨g, m, u, heq, rfl | rfl⟩ := mask_cases s onuPort all enable
  · rw [heq]
    exact ⟨names_refl rfl, rfl⟩
  · rw [heq]
    exact ⟨names_edit onuPort (fun dev => { dev with alarmMask := m }) s.pc rfl fun dev => .inr rfl, rfl⟩

/-! ## Every run -/

/-- While authentication is enabled, the records are authentic. -/
def Kept (s : State) : Prop := s.gulGwdRcpAuth = true → Authentic s

theorem other_kept (he : e ≠ .auth true) (h : Kept s) : Kept (s.step e) := by
  cases e with
  | monitor env =>
    obtain ⟨hnames, hauth⟩ := turn_names (monitor_turn s env)
    intro henabled
    exact hnames.authentic (h (hauth ▸ henabled))
  | frame mal portid len frame => exact receives_authentic (frame_receives s mal portid len frame) h
  | auth enable =>
    cases enable with
    | true => exact absurd rfl he
    | false => exact fun hoff => absurd hoff Bool.false_ne_true
  | set enable => exact h
  | mask onuPort all enable =>
    obtain ⟨hnames, hauth⟩ := mask_names (s := s) onuPort all enable
    intro henabled
    exact hnames.authentic (h (hauth ▸ henabled))

theorem filter_gwd {i : Nat} {dev : RCP_DEV} (hdev : dev ∈ valid s i) (hgwd : Gwd dev) :
    ((valid s i).filter fun dev => Gwd dev) = some dev :=
  Option.filter_eq_some_iff.mpr ⟨hdev, decide_eq_true hgwd⟩

/-- The command does what it should just when there is a record at each port, none of a switch
with the OUI, and no other one behind the entry 0. -/
theorem purge_sound_iff : Sound s (.auth true) ↔ Careful s (.auth true) := by
  constructor
  · rintro ⟨hpurge, hauth⟩ -
    obtain ⟨t, ht, hvalid⟩ := hpurge rfl
    obtain ⟨hall, rfl⟩ := enable_iff.mp ht
    refine ⟨fun i hlow hhigh => ⟨hall i hlow hhigh, ?_⟩, ?_⟩
    · intro dev hdev hgwd
      have hkept := hvalid i
      rw [filter_gwd hdev hgwd, purged_valid, if_neg (by omega)] at hkept
      cases hkept
    · have hstep : s.step (.auth true) = purged s := by
        rw [State.step, ht]
        rfl
      rw [hstep] at hauth
      intro dev hdev
      refine hauth rfl 0 dev ?_
      rwa [purged_valid, if_pos rfl]
  · intro h
    obtain ⟨hports, hzero⟩ := h rfl
    have ht : s.cli_int_switch_manage_auth true = some (purged s) :=
      enable_iff.mpr ⟨fun i hlow hhigh => (hports i hlow hhigh).1, rfl⟩
    have hvalid : ∀ i, valid (purged s) i = (valid s i).filter fun dev => Gwd dev := by
      intro i
      rw [purged_valid]
      by_cases hi : i = 0
      · subst hi
        rw [if_pos rfl]
        cases hfirst : valid s 0 with
        | none => rfl
        | some dev => rw [← hfirst, filter_gwd hfirst (hzero dev hfirst), hfirst]
      · rw [if_neg hi]
        cases hfound : valid s i with
        | none => rfl
        | some dev =>
          obtain ⟨hhigh, -⟩ := mem_valid.mp hfound
          rw [← hfound]
          symm
          rw [Option.filter_eq_none_iff]
          intro dev hdev
          simpa using (hports i (by omega) hhigh).2 dev hdev
    have hstep : s.step (.auth true) = purged s := by
      rw [State.step, ht]
      rfl
    refine ⟨fun _ => ⟨purged s, ht, hvalid⟩, ?_⟩
    rw [hstep]
    rintro - i dev hdev
    rw [hvalid i] at hdev
    simpa using (Option.filter_eq_some_iff.mp hdev).2

theorem sound_iff (h : Kept s) : Sound s e ↔ Careful s e := by
  by_cases he : e = .auth true
  · rw [he]
    exact purge_sound_iff
  · exact ⟨fun _ hauth => absurd hauth he, fun _ => ⟨fun hauth => absurd hauth he, other_kept he h⟩⟩

/-- A switch with the OUI is dropped, and an empty entry is written to. -/
theorem the_command_drops_and_crashes :
    ¬ Along State.step Sound { State.init true with
        rcpDevList := fun i => some { RCP_DEV.fresh i with switchMac := #v[0x00, 0x0f, 0xe9, 1, 2, 3] } }
      [.auth true] ∧
      (State.init true).cli_int_switch_manage_auth true = none := by
  refine ⟨?_, by decide +kernel⟩
  rintro ⟨hsound, -⟩
  have hdrop := (purge_sound_iff.mp hsound rfl).1 1 (by decide) (by decide)
  exact hdrop.2 _ (mem_valid.mpr ⟨by decide, rfl, by decide⟩) (by decide)

/-- From every population on, the records are authentic after every command to enable it, in a
run and all along, just when each of these commands finds what it needs. -/
theorem the_records_are_authentic_iff (s : State) (es : List Event) :
    Along State.step Sound { s with gulGwdRcpAuth := false } es ↔
      Along State.step Careful { s with gulGwdRcpAuth := false } es := by
  refine along_iff_along (I := Kept) ?_ (fun _ _ => sound_iff) ?_ es
  · intro s e hkept hcareful
    exact ((sound_iff hkept).mpr hcareful).authentic
  · exact fun henabled => absurd henabled Bool.false_ne_true

end

end gwdonu.switch_auth
