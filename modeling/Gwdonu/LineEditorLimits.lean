-- The limits of the line editor: a key that does not fit breaks the law, by an access outside of an
-- array or by a length that is not that of the string, so that the law of a session says just where
-- every key fits.
import Gwdonu.LineEditorRuns

namespace gwdonu.line_editor

open cells runs gwdonu.cli_parser

namespace cli_loop

variable {s s' : cli_loop} {line : Line} {n : Nat} {c : UInt8} {l : List UInt8} {o : Outcome} {e : Event}

/-! ## Names -/

theorem not_strcasecmp (h : l.length ≠ n) {t : List UInt8} (ht : t.length = n) : ¬ strcasecmp l t := by
  intro heq
  have hlen := congrArg List.length heq
  rw [List.length_map, List.length_map] at hlen
  omega

theorem of_username_restart (s : cli_loop) : s.restart.of_username = s.of_username := by
  unfold restart
  dsimp only
  split
  · rfl
  · rfl

/-- A user name that is too long is copied. -/
theorem Shows.long_name (h : s.Shows line) (hlogin : s.state = .STATE_LOGIN) (hlong : (USERNAME : Int) ≤ s.l)
    (o : Outcome) : ¬ (s.finish o).Inside := by
  have hl := h.l_eq
  have hname : (65 : Int) ≤ s.l := hlong
  have hstring : (s.access 0 (min ((s.string 0).length + 1) (QUIT.length + 1))).string 0 = line.text := h.string
  have hstate : (s.access 0 (min ((s.string 0).length + 1) (QUIT.length + 1))).state = .STATE_LOGIN := hlogin
  have hl' : (s.access 0 (min ((s.string 0).length + 1) (QUIT.length + 1))).l = s.l := rfl
  have hquit : ¬ strcasecmp line.text QUIT := not_strcasecmp (n := 4) (by omega) rfl
  unfold finish
  rw [if_neg (by omega)]
  dsimp only
  generalize s.access 0 (min ((s.string 0).length + 1) (QUIT.length + 1)) = s1 at *
  rw [hstring, if_neg fun hover => hquit hover.1, hstate]
  dsimp only
  rw [if_neg (by omega)]
  rintro ⟨-, husername, -⟩
  rw [of_username_restart] at husername
  have hcopied : Extent.Inside ⟨0, line.text.length + 1⟩ USERNAME := by
    refine husername _ ?_
    unfold cli_loop.login
    dsimp only
    rw [show (s1.read_string 0).string 0 = line.text from hstring]
    simp
  unfold Extent.Inside USERNAME at hcopied
  dsimp only at hcopied
  omega

/-! ## Deletions -/

theorem inside_move_left : s.move_left.Inside ↔ s.Inside ∧
    Extent.Inside ⟨s.cursor + 1, (s.l - s.cursor + 1).toNat⟩ MAX_LINE_LENTH ∧
      Extent.Inside ⟨s.cursor, (s.l - s.cursor + 1).toNat⟩ MAX_LINE_LENTH := by
  rw [← and_assoc, ← inside_access, ← inside_access]
  rfl

theorem inside_delete (h : s.delete.Inside) : s.Inside := by
  unfold delete at h
  dsimp only at h
  split at h
  · exact (inside_access.mp h).1
  · exact (inside_move_left.mp (inside_access.mp h).1).1

theorem inside_deletes (h : (deletes n s).Inside) : s.Inside := by
  induction n generalizing s with
  | zero => exact h
  | succ n ih => exact inside_delete (ih h)

/-- The rest of a full line moves up with the byte behind the array. -/
theorem Shows.full_delete (h : s.Shows line) (hmid : s.cursor ≠ s.l) (hfull : s.l = (MAX_LINE_LENTH - 1 : Nat)) :
    ¬ s.delete.Inside := by
  have hcursor := h.consistent.cursor_le
  unfold cli_loop.delete
  dsimp only
  rw [if_neg (Ne.symm hmid)]
  intro hin
  obtain ⟨-, hread, -⟩ := inside_move_left.mp (inside_access.mp hin).1
  unfold Extent.Inside at hread
  dsimp only at hread
  unfold MAX_LINE_LENTH at hread hfull
  omega

theorem Shows.full_delete_word (h : s.Shows line) (hpos : s.cursor ≠ 0) (hmid : s.cursor ≠ s.l)
    (hfull : s.l = (MAX_LINE_LENTH - 1 : Nat)) : ¬ s.delete_word.Inside := by
  have hfront : line.front ≠ [] := fun hnil => hpos (by rw [h.cursor_eq, hnil]; rfl)
  obtain ⟨s', word, hlooked, hword, heq⟩ := h.delete_word_eq
  obtain ⟨-, hl, hcursor, -⟩ := hlooked.cmd
  rw [heq]
  cases word with
  | nil =>
    rw [List.append_nil] at hword
    exact absurd hword (Line.delete_word_ne line hfront)
  | cons c word =>
    rw [← hl] at hfull
    rw [← hl, ← hcursor] at hmid
    exact fun hin => (hlooked.shows h).full_delete hmid hfull (inside_deletes hin)

/-! ## Lengths -/

/-- The text goes, and its length stays. -/
theorem Shows.cleared_line (h : s.Shows line) (hmode : s.mode ≠ MODE_EXEC) (hpos : s.l ≠ 0) :
    ¬ s.disable.Consistent := by
  have hcells := h.clear
  rw [← clear_line_cmd] at hcells
  obtain ⟨hl, -, -⟩ := clear_line_fields s
  unfold cli_loop.disable
  rw [if_pos hmode]
  generalize s.gw_cli_clear_line = cleared at *
  intro hconsistent
  have hempty : cleared.string 0 = [] := hcells.text_eq List.not_mem_nil (by decide)
  have hlen : ((cleared.string 0).length : Int) = cleared.l := hconsistent.strlen
  rw [hempty, hl] at hlen
  exact hpos hlen.symm

theorem insert_full (hfull : (MAX_LINE_LENTH - 2 : Nat) ≤ s.l) : (s.insert c).l = s.l ∧
    (s.insert c).cmd = put (shiftUp s.cmd (s.l - 1) (s.l - s.cursor).toNat) s.cursor [c] := by
  have hl : s.l - 1 + 1 = s.l := by omega
  have hcount : s.l - 1 - s.cursor + 1 = s.l - s.cursor := by omega
  unfold cli_loop.insert
  rw [if_pos hfull]
  dsimp only
  constructor
  · exact hl
  · rw [← hcount]
    rfl

theorem echo_fields (s : cli_loop) (c : UInt8) : (s.echo c).1.l = s.l ∧ (s.echo c).1.cmd = s.cmd := by
  unfold echo
  split
  · exact ⟨rfl, rfl⟩
  · exact ⟨rfl, rfl⟩

theorem Shows.byte_ne_zero (h : s.Shows line) {k : Nat} (hk : k < line.text.length) : s.cmd k ≠ 0 := by
  rw [h.cells.get (Nat.le_of_lt h.fits) hk]
  exact fun hzero => h.chars (hzero ▸ List.getElem_mem hk)

/-- The last byte of the line has moved to where the NUL is to be. -/
theorem Shows.full_insert (h : s.Shows line) (hmid : s.cursor ≠ s.l) (hfull : (MAX_LINE_LENTH - 2 : Nat) ≤ s.l) :
    ¬ ((s.insert c).echo c).1.Consistent := by
  obtain ⟨hl, hcmd⟩ := insert_full (c := c) hfull
  obtain ⟨hl', hcmd'⟩ := echo_fields (s.insert c) c
  have hcursor := h.consistent.cursor_le
  have hlen := h.l_eq
  intro hconsistent
  have hzero := hconsistent.zero
  rw [hcmd', hl', hl, hcmd, put_one, if_neg (Ne.symm hmid), shiftUp_apply, if_pos (by omega)] at hzero
  refine h.byte_ne_zero (k := line.text.length - 1) (by unfold MAX_LINE_LENTH at hfull; omega) ?_
  rw [← hzero]
  congr 1
  unfold MAX_LINE_LENTH at hfull
  omega

/-- A name that ends in front of the old text leaves it behind, and one that is too long for the array
goes on behind it. -/
theorem Shows.misfit_completion (h : s.Shows ⟨l, []⟩) {name : List UInt8}
    (hmisfit : (l.rdropWhile fun c => c ≠ 0x20 ∧ c ≠ 0x7c).length + name.length + 1 < l.length ∨
      MAX_LINE_LENTH ≤ (l.rdropWhile fun c => c ≠ 0x20 ∧ c ≠ 0x7c).length + name.length + 1) :
    ¬ (s.complete_with name).Consistent := by
  have hcount : s.l.toNat = l.length := by
    rw [h.l_eq, Line.length_mk]
    rfl
  obtain ⟨hlooked, hstart⟩ := h.skip_back (fun c => decide (c ≠ 0x20 ∧ c ≠ 0x7c)) (List.prefix_refl l)
  have hshows := hlooked.shows h
  unfold cli_loop.complete_with
  rw [hcount]
  dsimp only
  rw [hstart]
  generalize (cli_loop.skip_back (fun c => decide (c ≠ 0x20 ∧ c ≠ 0x7c)) l.length s).1 = s1 at *
  generalize (l.rdropWhile fun c => decide (c ≠ 0x20 ∧ c ≠ 0x7c)).length = front at *
  intro hconsistent
  rcases hmisfit with hshort | hlong
  · have hzero := hconsistent.zero
    change put (put s1.cmd front (name ++ [0])) (front + name.length) [0x20] (front + name.length + 1) = 0 at hzero
    rw [put_put, put_behind (by rw [List.length_append, List.length_singleton]; omega)] at hzero
    refine hshows.byte_ne_zero (k := front + name.length + 1) ?_ hzero
    rw [Line.text_mk]
    exact hshort
  · have hle := hconsistent.l_le
    change ((front : Int) + name.length + 1) ≤ (MAX_LINE_LENTH - 1 : Nat) at hle
    unfold MAX_LINE_LENTH at hle hlong
    omega

/-! ## Keys that do not fit -/

theorem skip_back_session_over (P : UInt8 → Bool) (n : Nat) (s : cli_loop) :
    (skip_back P n s).1.session_over = s.session_over := by
  induction n generalizing s with
  | zero => rfl
  | succ n ih =>
    rw [skip_back]
    split
    · exact ih _
    · rfl

theorem disable_session_over (s : cli_loop) : s.disable.session_over = s.session_over := by
  unfold disable gw_cli_clear_line
  split
  · simp only [session_over_memset]
  · rfl

theorem complete_with_session_over (s : cli_loop) (name : List UInt8) :
    (s.complete_with name).session_over = s.session_over := by
  unfold complete_with
  dsimp only
  simp only [session_over_store]
  exact skip_back_session_over _ _ s

theorem insert_session_over (s : cli_loop) (c : UInt8) : (s.insert c).session_over = s.session_over := by
  unfold insert
  dsimp only
  split
  · simp only [session_over_access, session_over_store, session_over_move_right]
  · simp only [session_over_access, session_over_store, session_over_move_right]

theorem echo_session_over (s : cli_loop) (c : UInt8) : (s.echo c).1.session_over = s.session_over := by
  unfold echo
  split
  · rfl
  · rfl

/-- A question mark that ends a user name goes to it. -/
theorem Shows.long_question (h : s.Shows line) (hb : s.Books) (hlogin : s.state = .STATE_LOGIN) (hend : s.cursor = s.l)
    (hlong : (USERNAME - 1 : Nat) ≤ s.l) (hroom : s.l ≠ (MAX_LINE_LENTH - 1 : Nat)) (o : Outcome) :
    (s.normal 0x3f).2 = true ∧ ¬ ((s.normal 0x3f).1.finish o).Inside := by
  have hlen : line.text.length = line.front.length + line.back.length := List.length_append
  have hl := h.l_eq
  have hcursor := h.cursor_eq
  have hle := h.consistent.l_le
  have hback : line.back = [] := List.eq_nil_of_length_eq_zero (by omega)
  have hline : line = ⟨line.front, []⟩ := by
    rw [← hback]
  rw [hline] at h
  have happended := h.append hb (c := 0x3f) (by decide)
  have hstate := (state_append s 0x3f).trans hlogin
  rw [if_pos (by omega)] at happended
  obtain ⟨hbooks, htrue, hshows⟩ := happended
  unfold cli_loop.normal
  rw [if_pos hend]
  generalize s.append 0x3f = appended at *
  obtain ⟨s1, room⟩ := appended
  dsimp only at htrue hshows hstate ⊢
  subst htrue
  have hl1 := hshows.l_eq
  have hcursor1 := hshows.cursor_eq
  rw [Line.text_mk, List.length_append, List.length_singleton] at hl1
  dsimp only at hcursor1
  rw [List.length_append, List.length_singleton] at hcursor1
  have hhidden : ¬ s1.Hidden := by
    rw [Hidden, hstate]
    simp
  have hmark : ¬ s1.Hidden ∧ (0x3f : UInt8) = 0x3f ∧ s1.cursor = s1.l := ⟨hhidden, rfl, by omega⟩
  rw [if_pos rfl, cli_loop.echo, if_pos hmark]
  refine ⟨rfl, ?_⟩
  have hmoved : line_editor.Shows s1.cmd s1.l (s1.l - 1) ⟨line.front, [0x3f]⟩ := by
    refine hshows.move ?_ (by dsimp only; omega)
    rw [Line.text_mk]
    rfl
  refine Shows.long_name (s := { s1 with oldl := some (s1.l - 1), cursor := s1.l - 1 }) hmoved hstate ?_ o
  unfold USERNAME at hlong ⊢
  dsimp only
  omega

/-- Of a key that does not fit, either what it does or what becomes of the line breaks the law. -/
theorem Shows.misfit (h : s.Shows line) (hb : s.Books) (hon : s.session_over = false) {k : Key}
    (hmisfit : ¬ s.KeyFits c k) (o : Outcome) : ¬ ((s.key c k).1.Kept ∧ ((s.key c k).2 = true → ((s.key c k).1.finish o).Kept)) := by
  have hlen : line.text.length = line.front.length + line.back.length := List.length_append
  have hl := h.l_eq
  have hcursor := h.cursor_eq
  have hle := h.consistent.l_le
  have hfull (hfits : ¬ s.DeletionFits) : s.cursor ≠ 0 ∧ s.cursor ≠ s.l ∧ s.l = (MAX_LINE_LENTH - 1 : Nat) := by
    rw [DeletionFits, not_or, not_or] at hfits
    exact ⟨hfits.1, hfits.2.1, by omega⟩
  rintro ⟨hkept, hfinished⟩
  cases k with
  | newline =>
    obtain ⟨hlogin, hlong⟩ := Classical.not_imp.mp hmisfit
    exact h.long_name hlogin (Int.not_lt.mp hlong) o (hfinished rfl).inside
  | word =>
    obtain ⟨hpos, hmid, hl255⟩ := hfull hmisfit
    have hno : ¬ (s.l = 0 ∨ s.cursor = 0) := by omega
    refine h.full_delete_word hpos hmid hl255 ?_
    have hin := hkept.inside
    unfold cli_loop.key at hin
    dsimp only at hin
    rw [if_neg hno] at hin
    exact hin
  | char =>
    obtain ⟨hpos, hmid, hl255⟩ := hfull hmisfit
    have hno : ¬ (s.l = 0 ∨ s.cursor = 0) := by omega
    refine h.full_delete hmid hl255 ?_
    have hin := hkept.inside
    unfold cli_loop.key at hin
    dsimp only at hin
    rw [if_neg hno] at hin
    exact hin
  | disable =>
    obtain ⟨hmode, hpos⟩ := not_or.mp hmisfit
    exact h.cleared_line hmode hpos (hkept.line ((disable_session_over s).trans hon))
  | completion =>
    obtain ⟨name, hname⟩ := Classical.not_forall.mp hmisfit
    obtain ⟨hlogin, hshown⟩ := Classical.not_imp.mp hname
    obtain ⟨hend, honly⟩ := Classical.not_imp.mp hshown
    obtain ⟨hsingle, hplace⟩ := Classical.not_imp.mp honly
    have hback : line.back = [] := List.eq_nil_of_length_eq_zero (by omega)
    have hline : (s.read_string 0).Shows ⟨line.front, []⟩ := by
      rw [← hback]
      exact h
    have hcompleted : (s.key c .completion).1 = (s.read_string 0).complete_with name := by
      unfold cli_loop.key cli_loop.completion
      dsimp only
      rw [if_neg hlogin, if_neg (not_not_intro hend), hsingle]
    have htext : line.text = line.front := by
      rw [Line.text, hback, List.append_nil]
    rw [h.string, htext] at hplace
    rw [hcompleted] at hkept
    refine hline.misfit_completion ?_ (hkept.line ((complete_with_session_over _ name).trans hon))
    omega
  | normal =>
    rcases Decidable.not_and_iff_or_not.mp hmisfit with hmiddle | hname
    · obtain ⟨hmid, hlong⟩ := Classical.not_imp.mp hmiddle
      have hline := hkept.line
      have hnormal : s.key c .normal = (s.insert c).echo c := if_neg hmid
      rw [hnormal, echo_session_over, insert_session_over] at hline
      exact h.full_insert hmid (Int.not_lt.mp hlong) (hline hon)
    · obtain ⟨hlogin, hquestion⟩ := Classical.not_imp.mp hname
      obtain ⟨hmark, hat⟩ := Classical.not_imp.mp hquestion
      obtain ⟨hend, hlimits⟩ := Classical.not_imp.mp hat
      obtain ⟨hlong, hroom⟩ := not_or.mp hlimits
      subst hmark
      obtain ⟨hends, houtside⟩ := h.long_question hb hlogin hend (Int.not_lt.mp hlong) hroom o
      exact houtside (hfinished hends).inside
  | _ => exact hmisfit trivial

/-! ## The law of the line editor -/

/-- Between two bytes, an event keeps the law just when it fits. -/
theorem Sound.step_kept_iff (h : s.Sound) : s.StepKept e ↔ s.Fits e := by
  refine ⟨fun hkept => ?_, fun hfits => (h.event hfits).1⟩
  cases e with
  | byte c o =>
    intro hon k hk
    by_contra hmisfit
    obtain ⟨line, hshows, hbooks, -, hover⟩ := h.decoded hon c
    have hhandled := hkept.handled c o rfl hon
    have hnext := hkept.next
    have hread : s.read c = (s.prompt.decode c).1.key k (Key.of k) := by
      unfold cli_loop.read
      generalize s.prompt.decode c = decoded at *
      obtain ⟨s1, k1⟩ := decoded
      cases k1 with
      | none => cases hk
      | some k1 =>
        obtain rfl := Option.some.inj hk
        rfl
    have hevent : s.event (.byte c o) = if (s.read c).2 then (s.read c).1.finish o else (s.read c).1 :=
      if_neg (Bool.eq_false_iff.mp hon)
    rw [hevent, hread] at hnext
    rw [hread] at hhandled
    refine hshows.misfit hbooks hover hmisfit o ⟨hhandled, fun hends => ?_⟩
    rw [if_pos hends] at hnext
    exact hnext
  | idle => trivial
  | timeout o => trivial
  | lost => trivial

theorem start_sound (start : Start) : start.loop.Sound := by
  refine ⟨⟨⟨nofun, nofun, nofun⟩, start.ends, ?_⟩, fun _ => ⟨⟨[], []⟩, shows_empty (padded_fill 0 _ _), rfl⟩⟩
  exact show (-1 : Int) ≤ 0 ∧ (0 : Int) < MAX_HISTORY by decide

end cli_loop

open cli_loop

/-- A session keeps its line consistent, and itself in its arrays, when each byte comes through as a
key that fits. -/
theorem session_keeps_its_line_iff (start : Start) (events : List Event) :
    KeepsItsLine start events ↔ Along event Fits start.loop events := by
  have hsound := start_sound start
  unfold KeepsItsLine
  rw [and_iff_right hsound.kept]
  exact along_iff_along (fun s e hs hfits => (hs.event hfits).2) (fun s e hs => hs.step_kept_iff) hsound events

/-- In the mode that the command `en` leaves, a byte and the key for the first mode. -/
theorem a_disabled_line_keeps_its_length : ∃ start events, ¬ KeepsItsLine start events := by
  let outcome : Outcome := ⟨true, false, .STATE_NORMAL, MODE_CONFIG, PRIVILEGE_PRIVILEGED⟩
  refine ⟨⟨.CHANNEL_PTY, .STATE_NORMAL, MODE_EXEC, PRIVILEGE_PRIVILEGED, .NULL, fun _ => [], fun _ => 0, ?_⟩,
    [.byte 0x65 outcome, .byte 0x6e outcome, .byte 0x0d outcome, .byte 0x61 outcome, .byte (CTRL 'Z') outcome], ?_⟩
  · exact fun _ => ⟨by decide, List.not_mem_nil⟩
  · rintro ⟨-, -, -, -, -, hdisabled, -⟩
    have hline := hdisabled.next.line (by decide)
    exact absurd hline.strlen (by decide)

end gwdonu.line_editor
