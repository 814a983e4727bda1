-- The line editor over whole sessions: what a line that ends leaves, and that every byte keeps the
-- line consistent and the accesses inside exactly when it comes through as a key that fits.
import Gwdonu.LineEditorKeys

namespace gwdonu.line_editor

open cells runs

namespace cli_loop

variable {s s' : cli_loop} {line : Line} {start : Int} {n : Nat} {c : UInt8} {l : List UInt8} {o : Outcome} {e : Event}

/-! ## The end of a line -/

theorem Untouched.trans {s'' : cli_loop} (h : Untouched s s') (h' : Untouched s' s'') : Untouched s s'' := by
  obtain ⟨-, hcmd, hl, hcursor, hold⟩ := h
  obtain ⟨hbooks, hcmd', hl', hcursor', hold'⟩ := h'
  exact ⟨hbooks, hcmd'.trans hcmd, hl'.trans hl, hcursor'.trans hcursor, hold'.trans hold⟩

theorem Untouched.shows (h : Untouched s s') (hs : s.Shows line) : s'.Shows line := by
  obtain ⟨hcmd, hl, hcursor, -⟩ := h.line
  rw [Shows, hcmd, hl, hcursor]
  exact hs

theorem Untouched.string (h : Untouched s s') (p : Int) : s'.string p = s.string p := by
  unfold cli_loop.string
  rw [h.line.1]

theorem untouched_refl (hb : s.Books) : Untouched s s := ⟨hb, rfl, rfl, rfl, rfl⟩

theorem Shows.read_untouched (h : s.Shows line) (hb : s.Books) : Untouched s (s.read_string 0) :=
  ⟨h.read_string hb, rfl, rfl, rfl, rfl⟩

theorem read_history_untouched (hb : s.Books) {i : Int} (hlo : 0 ≤ i) (hhi : i < MAX_HISTORY) :
    Untouched s (s.read_history i) := ⟨hb.read_history hlo hhi, rfl, rfl, rfl, rfl⟩

theorem write_history_untouched (hb : s.Books) {i : Int} (hlo : 0 ≤ i) (hhi : i < MAX_HISTORY)
    (hlen : l.length < MAX_LINE_LENTH) (hl : 0 ∉ l) : Untouched s (s.write_history i l) :=
  ⟨hb.write_history hlo hhi hlen hl, rfl, rfl, rfl, rfl⟩

theorem drop_history_untouched (hb : s.Books) {i : Int} (hlo : 0 ≤ i) (hn : i + n < MAX_HISTORY) :
    Untouched s (drop_history n i s) := by
  induction n generalizing s i with
  | zero => exact untouched_refl hb
  | succ n ih =>
    have hread := read_history_untouched hb (i := i + 1) (by omega) (by omega)
    obtain ⟨hlen, hzero⟩ := hb.2.1 (i + 1)
    have hwritten := write_history_untouched hread.books (i := i) hlo (by omega) hlen hzero
    rw [drop_history]
    exact (hread.trans hwritten).trans (ih hwritten.books (by omega) (by omega))

/-- The search has come so far that there are `n` entries left. -/
theorem add_history_untouched (hb : s.Books) (hlen : l.length < MAX_LINE_LENTH) (hl : 0 ∉ l) {i : Int} (hlo : 0 ≤ i)
    (hn : i + n = MAX_HISTORY) : Untouched s (add_history l n i s) := by
  induction n generalizing s i with
  | zero =>
    have hcleared : Untouched s { s with
        history := fun j => if j = 0 then [] else s.history j
        of_history := s.of_history ++ [(0, ⟨0, MAX_LINE_LENTH⟩)] } := by
      refine ⟨⟨⟨hb.1.1, hb.1.2.1, ?_⟩, fun j => ?_, hb.2.2⟩, rfl, rfl, rfl, rfl⟩
      · dsimp only
        rw [List.forall_mem_append, List.forall_mem_singleton]
        exact ⟨hb.1.2.2, by decide, by decide, .inr (by decide)⟩
      · dsimp only
        split
        · exact ⟨by decide, List.not_mem_nil⟩
        · exact hb.2.1 j
    have hdropped := drop_history_untouched (n := MAX_HISTORY - 1) hcleared.books (Int.le_refl 0) (by decide)
    rw [add_history]
    exact (hcleared.trans hdropped).trans
      (write_history_untouched hdropped.books (Int.natCast_nonneg _) (by decide) hlen hl)
  | succ n ih =>
    have hread := read_history_untouched hb (i := i) hlo (by omega)
    rw [add_history]
    dsimp only
    split
    · split
      · exact hread.trans (write_history_untouched hread.books hlo (by omega) hlen hl)
      · have hbefore := read_history_untouched hread.books (i := i - 1) (by omega) (by omega)
        split
        · exact (hread.trans hbefore).trans (write_history_untouched hbefore.books hlo (by omega) hlen hl)
        · exact hread.trans hbefore
    · exact hread.trans (ih hread.books (by omega) (by omega))

/-- Between two bytes. -/
def Sound (s : cli_loop) : Prop := s.Books ∧ (s.session_over = false → ∃ line, s.Shows line ∧ s.oldl = none)

/-- The loop that reads starts again: it has no line, or what is in front of the question mark. -/
theorem restart_sound (hb : s.Books)
    (h : ∃ line, s.Shows line ∧ ∀ k ∈ s.oldl, k = line.front.length ∧ line.back.length = 1) :
    s.restart.Sound := by
  obtain ⟨line, hshows, hold⟩ := h
  have hrange : (0 : Int) < MAX_HISTORY := by decide
  have hstarted : Books { s with showprompt := true, in_history := 0, lastchar := 0 } := hb.seek (by decide) hrange
  unfold restart
  dsimp only
  split
  · rename_i k hk
    obtain ⟨hplace, hback⟩ := hold k hk
    have hlen : line.text.length = line.front.length + line.back.length := List.length_append
    have hfits := hshows.fits
    obtain ⟨mark, hmark⟩ := List.length_eq_one_iff.mp hback
    have hcells : Padded 0 (put s.cmd k [0]) MAX_LINE_LENTH line.front := by
      have hcells : Padded 0 s.cmd MAX_LINE_LENTH (line.front ++ [mark]) := by
        rw [← hmark]
        exact hshows.cells
      rw [hplace, ← padded_append_end]
      exact hcells.overwrite (Nat.le_refl 1)
    have hchars : 0 ∉ line.front := fun hmem => hshows.chars (List.mem_append_left _ hmem)
    refine ⟨hstarted.store (by omega) (by rw [List.length_singleton]; omega), fun _ => ⟨⟨line.front, []⟩, ?_, rfl⟩⟩
    refine ⟨?_, ?_, hplace, ?_, ?_⟩
    · rw [Line.text_mk]
      exact hcells
    · rw [Line.text_mk]
      exact hplace
    · rw [Line.text_mk]
      omega
    · rw [Line.text_mk]
      exact hchars
  · rename_i hk
    refine ⟨hstarted.memset (c := 0) (n := MAX_LINE_LENTH) (Int.le_refl 0) (Int.le_of_eq (Int.zero_add _)), fun _ => ?_⟩
    exact ⟨⟨[], []⟩, shows_empty (padded_fill 0 s.cmd MAX_LINE_LENTH), hk⟩

theorem Untouched.restart (h : Untouched s s') (hs : s.Shows line)
    (hold : ∀ k ∈ s.oldl, k = line.front.length ∧ line.back.length = 1) : s'.restart.Sound := by
  refine restart_sound h.books ⟨line, h.shows hs, ?_⟩
  rw [h.line.2.2.2]
  exact hold

theorem leave_sound (hb : s.Books) : s.leave.Sound := ⟨hb, nofun⟩

/-- The name has room for the line. -/
theorem Shows.login (h : s.Shows line) (hb : s.Books) (hname : s.l < USERNAME) : Untouched s s.login := by
  obtain ⟨⟨hcmd, husername, hhistory⟩, hends⟩ := h.read_string hb
  refine ⟨⟨⟨hcmd, ?_, hhistory⟩, hends⟩, rfl, rfl, rfl, rfl⟩
  have hstring : (s.read_string 0).string 0 = line.text := h.string
  have hl := h.l_eq
  unfold cli_loop.login
  dsimp only
  rw [hstring, List.forall_mem_append, List.forall_mem_cons, List.forall_mem_singleton]
  exact ⟨husername, .inr ⟨Int.le_refl 0, by decide⟩, .inr ⟨Int.le_refl 0, by dsimp only; omega⟩⟩

theorem Shows.gw_cli_add_history (h : s.Shows line) (hb : s.Books) : Untouched s s.gw_cli_add_history := by
  have hread := h.read_untouched hb
  unfold cli_loop.gw_cli_add_history
  rw [h.string]
  exact hread.trans (add_history_untouched hread.books h.fits h.chars (Int.le_refl 0) (Int.zero_add _))

/-- The line goes to the history, unless it asks for help or for the history. -/
theorem Shows.run_command (h : s.Shows line) (hb : s.Books) (hpos : s.l ≠ 0)
    (hold : ∀ k ∈ s.oldl, k = line.front.length ∧ line.back.length = 1) (o : Outcome) : (s.run_command o).Sound := by
  have hl := h.l_eq
  have hfits := h.fits
  have hlooked : Untouched s (s.access (s.l - 1) 1) := ⟨hb.access (by omega) (by omega), rfl, rfl, rfl, rfl⟩
  have hread := hlooked.trans ((hlooked.shows h).read_untouched hlooked.books)
  have hadded : Untouched s
      (if (s.access (s.l - 1) 1).cmd ((s.access (s.l - 1) 1).l - 1) ≠ 0x3f then
        if ¬ strcasecmp (((s.access (s.l - 1) 1).read_string 0).string 0) HISTORY then
          ((s.access (s.l - 1) 1).read_string 0).gw_cli_add_history
        else (s.access (s.l - 1) 1).read_string 0
      else s.access (s.l - 1) 1) := by
    split
    · split
      · exact hread.trans ((hread.shows h).gw_cli_add_history hread.books)
      · exact hread
    · exact hlooked
  unfold cli_loop.run_command
  dsimp only
  generalize (if (s.access (s.l - 1) 1).cmd ((s.access (s.l - 1) 1).l - 1) ≠ 0x3f then _ else _ : cli_loop) = s1 at *
  have hrun := hadded.trans ((hadded.shows h).read_untouched hadded.books)
  have hleft : Untouched s { s1.read_string 0 with state := o.state, mode := o.mode, privilege := o.privilege } :=
    ⟨hrun.books, hrun.line⟩
  split
  · exact leave_sound hleft.books
  · exact hleft.restart h hold

/-- What becomes of a line that ends. -/
theorem Handled.finish (h : Handled s true) (o : Outcome) : (s.finish o).Sound := by
  obtain ⟨hb, ⟨line, hshows, hold⟩, -, hname⟩ := h
  have hfive : min ((s.string 0).length + 1) (QUIT.length + 1) ≤ 5 := Nat.min_le_right _ _
  have hlooked : Untouched s (s.access 0 (min ((s.string 0).length + 1) (QUIT.length + 1))) := by
    refine ⟨hb.access (Int.le_refl 0) ?_, rfl, rfl, rfl, rfl⟩
    unfold MAX_LINE_LENTH
    omega
  have hread := hlooked.trans ((hlooked.shows hshows).read_untouched hlooked.books)
  unfold cli_loop.finish
  split
  · exact leave_sound hb
  · dsimp only
    split
    · exact leave_sound hlooked.books
    · split
      · rename_i hlogin
        split
        · exact hlooked.restart hshows hold
        · exact (hlooked.trans ((hlooked.shows hshows).login hlooked.books (hname rfl hlogin))).restart hshows hold
      · exact Untouched.restart (s := s) ⟨hread.books, hread.line⟩ hshows hold
      · split
        · exact Untouched.restart (s := s) ⟨hread.books, hread.line⟩ hshows hold
        · exact Untouched.restart (s := s) ⟨hread.books, hread.line⟩ hshows hold
      · split
        · exact hlooked.restart hshows hold
        · rename_i hpos
          exact (hlooked.shows hshows).run_command hlooked.books hpos hold o
      · split
        · exact hlooked.restart hshows hold
        · rename_i hpos
          exact (hlooked.shows hshows).run_command hlooked.books hpos hold o

/-! ## One byte -/

theorem Shows.prompt (h : s.Shows line) (hb : s.Books) : Untouched s s.prompt := by
  unfold cli_loop.prompt
  split
  · dsimp only
    split
    · exact ⟨hb.access (Int.le_refl 0) h.l_toNat, rfl, rfl, rfl, rfl⟩
    · exact ⟨hb, rfl, rfl, rfl, rfl⟩
  · exact untouched_refl hb

theorem prompt_fields (s : cli_loop) : s.prompt.session_over = s.session_over ∧ s.prompt.channel = s.channel := by
  unfold prompt
  split
  · dsimp only
    split
    · exact ⟨rfl, rfl⟩
    · exact ⟨rfl, rfl⟩
  · exact ⟨rfl, rfl⟩

/-- The line is not touched before the byte has come through. -/
theorem decode_fields (s : cli_loop) (c : UInt8) : ∃ skip is_telnet_option esc,
    (s.decode c).1 = { s with skip, is_telnet_option, esc } := by
  have hreceived : ∃ skip is_telnet_option, (s.receive c).1 = { s with skip, is_telnet_option } := by
    unfold receive telnet
    dsimp only
    split
    · exact ⟨_, _, rfl⟩
    · split
      · exact ⟨_, _, rfl⟩
      · split
        · exact ⟨_, _, rfl⟩
        · split
          · split
            · exact ⟨_, _, rfl⟩
            · split
              · exact ⟨_, _, rfl⟩
              · exact ⟨_, _, rfl⟩
          · exact ⟨_, _, rfl⟩
    · exact ⟨_, _, rfl⟩
  have harrows (s : cli_loop) (c : UInt8) : ∃ esc, (s.arrows c).1 = { s with esc } := by
    unfold arrows
    split
    · exact ⟨_, rfl⟩
    · split
      · exact ⟨_, rfl⟩
      · exact ⟨_, rfl⟩
  obtain ⟨skip, is_telnet_option, hreceived⟩ := hreceived
  unfold decode
  generalize s.receive c = received at *
  obtain ⟨s1, c1⟩ := received
  dsimp only at hreceived
  subst hreceived
  cases c1 with
  | none => exact ⟨_, _, _, rfl⟩
  | some c1 =>
    obtain ⟨esc, hesc⟩ := harrows { s with skip, is_telnet_option } c1
    exact ⟨skip, is_telnet_option, esc, hesc⟩

theorem decode_untouched (hb : s.Books) (c : UInt8) : Untouched s (s.decode c).1 ∧
    (s.decode c).1.session_over = s.session_over := by
  obtain ⟨skip, is_telnet_option, esc, heq⟩ := decode_fields s c
  rw [heq]
  exact ⟨⟨hb, rfl, rfl, rfl, rfl⟩, rfl⟩

theorem Handled.kept {line_ends : Bool} (h : Handled s line_ends) : s.Kept := by
  obtain ⟨line, hshows, -⟩ := h.line
  exact ⟨fun _ => hshows.consistent, h.books.1⟩

theorem Sound.kept (h : s.Sound) : s.Kept := by
  refine ⟨fun hon => ?_, h.1.1⟩
  obtain ⟨line, hshows, -⟩ := h.2 hon
  exact hshows.consistent

/-- What a byte finds when it has come through. -/
theorem Sound.decoded (h : s.Sound) (hon : s.session_over = false) (c : UInt8) :
    ∃ line, (s.prompt.decode c).1.Shows line ∧ (s.prompt.decode c).1.Books ∧ (s.prompt.decode c).1.oldl = none ∧
      (s.prompt.decode c).1.session_over = false := by
  obtain ⟨line, hshows, hold⟩ := h.2 hon
  have hprompt := hshows.prompt h.1
  obtain ⟨hdecoded, hover⟩ := decode_untouched hprompt.books c
  have hall := hprompt.trans hdecoded
  exact ⟨line, hall.shows hshows, hall.books, hall.line.2.2.2.trans hold, hover.trans ((prompt_fields s).1.trans hon)⟩

theorem Sound.read (h : s.Sound) (hon : s.session_over = false) (hfits : s.Fits (.byte c o)) :
    Handled (s.read c).1 (s.read c).2 := by
  obtain ⟨line, hshows, hbooks, hold, -⟩ := h.decoded hon c
  have hfits := hfits hon
  unfold cli_loop.read
  generalize s.prompt.decode c = decoded at *
  obtain ⟨s1, k⟩ := decoded
  cases k with
  | none => exact Handled.more hshows hbooks hold
  | some k => exact hshows.key hbooks hold key_of_normal (hfits k rfl)

/-- When the time is up, the session is over. -/
theorem Sound.timeout (h : s.Sound) (hon : s.session_over = false) (htcp : s.channel = .CHANNEL_TCP) (o : Outcome) :
    ((s.prompt.store 0 (strncpy QUIT (MAX_LINE_LENTH - 1))).finish o).Sound := by
  obtain ⟨line, hshows, -⟩ := h.2 hon
  have hprompt := hshows.prompt h.1
  have hcells : Padded 0 s.prompt.cmd MAX_LINE_LENTH ([] ++ line.text) := (hprompt.shows hshows).cells
  have hquit : Padded 0 (s.prompt.store 0 (strncpy QUIT (MAX_LINE_LENTH - 1))).cmd MAX_LINE_LENTH QUIT := by
    have hfits := hshows.fits
    have hwritten := hcells.overwrite (t := strncpy QUIT (MAX_LINE_LENTH - 1)) (by rw [strncpy_length]; omega)
    rw [List.nil_append] at hwritten
    rw [strncpy_eq (by decide), padded_append_replicate] at hwritten
    rw [strncpy_eq (by decide)]
    exact hwritten
  have hstring : (s.prompt.store 0 (strncpy QUIT (MAX_LINE_LENTH - 1))).string 0 = QUIT :=
    hquit.text_eq (by decide) (by decide)
  have hbooks : (s.prompt.store 0 (strncpy QUIT (MAX_LINE_LENTH - 1))).Books := by
    refine hprompt.books.store (Int.le_refl 0) ?_
    rw [strncpy_length]
    decide
  have hchannel : (s.prompt.store 0 (strncpy QUIT (MAX_LINE_LENTH - 1))).channel = .CHANNEL_TCP :=
    (prompt_fields s).2.trans htcp
  generalize s.prompt.store 0 (strncpy QUIT (MAX_LINE_LENTH - 1)) = s1 at *
  unfold finish
  split
  · exact leave_sound hbooks
  · have hlooked : (s1.access 0 (min ((s1.string 0).length + 1) (QUIT.length + 1))).Books := by
      refine hbooks.access (Int.le_refl 0) ?_
      rw [hstring]
      decide
    have hstring' : (s1.access 0 (min ((s1.string 0).length + 1) (QUIT.length + 1))).string 0 = QUIT := hstring
    have hchannel' : (s1.access 0 (min ((s1.string 0).length + 1) (QUIT.length + 1))).channel = .CHANNEL_TCP := hchannel
    dsimp only
    generalize s1.access 0 (min ((s1.string 0).length + 1) (QUIT.length + 1)) = s2 at *
    have hequal : strcasecmp (s2.string 0) QUIT := by
      rw [hstring']
      rfl
    rw [if_pos ⟨hequal, .inl hchannel'⟩]
    exact leave_sound hlooked

/-- An event that fits. -/
theorem Sound.event (h : s.Sound) (hfits : s.Fits e) : s.StepKept e ∧ (s.event e).Sound := by
  suffices hsound : (s.event e).Sound by
    refine ⟨⟨fun c o he hon => ?_, hsound.kept⟩, hsound⟩
    subst he
    exact (h.read hon hfits).kept
  by_cases hover : s.session_over
  · have hsame : s.event e = s := by
      cases e with
      | byte c o => exact if_pos hover
      | idle => exact if_pos hover
      | timeout o => exact if_pos hover
      | lost => exact if_pos hover
    rw [hsame]
    exact h
  · have hon : s.session_over = false := Bool.eq_false_iff.mpr hover
    obtain ⟨line, hshows, hold⟩ := h.2 hon
    have hprompt := hshows.prompt h.1
    have hprompted : s.prompt.Sound :=
      ⟨hprompt.books, fun _ => ⟨line, hprompt.shows hshows, hprompt.line.2.2.2.trans hold⟩⟩
    unfold cli_loop.event
    cases e with
    | byte c o =>
      have hread := h.read hon hfits
      dsimp only
      rw [if_neg hover]
      split
      · rename_i hends
        rw [hends] at hread
        exact hread.finish o
      · rename_i hmore
        obtain ⟨line', hshows', -⟩ := hread.line
        exact ⟨hread.books, fun _ => ⟨line', hshows', hread.goes_on (Bool.eq_false_iff.mpr hmore)⟩⟩
    | idle =>
      dsimp only
      rw [if_neg hover]
      exact hprompted
    | timeout o =>
      dsimp only
      rw [if_neg hover]
      split
      · rename_i htcp
        exact h.timeout hon htcp o
      · exact hprompted
    | lost =>
      dsimp only
      rw [if_neg hover]
      split
      · exact hprompted
      · exact leave_sound (s := { s.prompt with l := -1 }) hprompt.books

end cli_loop

end gwdonu.line_editor
