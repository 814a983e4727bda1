-- The login of the shell: what the loop takes the lines of a session for, who gets to give
-- commands, and what the history has.
import Gwdonu.LineEditorLimits

namespace gwdonu.shell_login

open runs line_editor line_editor.cli_loop

/-! ## The program -/

structure unp where
  username : List UInt8
  password : List UInt8

/-- What the loop checks the lines with. A callback answers whether it gives `CLI_OK`. -/
structure cli_def where
  users : List unp
  auth_callback : Option (List UInt8 → List UInt8 → Bool)
  enable_password : Option (List UInt8)
  enable_callback : Option (List UInt8 → Bool)

/-- What a command does to the record. No command but `t_enable` sets the state. -/
inductive Ran where
  | gw_cli_int_enable
  | other (quits : Bool) (mode privilege : Int)

/-- What comes to the loop, with what the command of a line does. -/
inductive Input where
  | byte (c : UInt8) (ran : Ran)
  | idle
  | timeout
  | lost

def pass_matches (pass try_ : List UInt8) : Bool := pass == try_

namespace cli_def

variable (cli : cli_def)

/-- The check of `STATE_PASSWORD`. -/
def allowed (username password : List UInt8) : Bool :=
  (match cli.auth_callback with
    | some auth_callback => auth_callback username password
    | none => false) ||
    cli.users.any fun u => u.username == username && pass_matches u.password password

/-- The check of `STATE_ENABLE_PASSWORD`. -/
def enables (cmd : List UInt8) : Bool :=
  (match cli.enable_password with
    | some enable_password => pass_matches enable_password cmd
    | none => false) ||
    match cli.enable_callback with
    | some enable_callback => enable_callback cmd
    | none => false

def gw_cli_int_enable (s : cli_loop) : Outcome :=
  if s.privilege = PRIVILEGE_PRIVILEGED then ⟨false, false, s.state, s.mode, s.privilege⟩
  else if cli.enable_password.isNone ∧ cli.enable_callback.isNone then
    ⟨false, false, s.state, MODE_EXEC, PRIVILEGE_PRIVILEGED⟩
  else ⟨false, false, .STATE_ENABLE_PASSWORD, s.mode, s.privilege⟩

/-- What comes of the line that the loop has. -/
def outcome (s : cli_loop) (ran : Ran) : Outcome :=
  match s.state with
  | .STATE_LOGIN => ⟨false, false, s.state, s.mode, s.privilege⟩
  | .STATE_PASSWORD => ⟨cli.allowed s.username (s.string 0), false, s.state, s.mode, s.privilege⟩
  | .STATE_ENABLE_PASSWORD => ⟨cli.enables (s.string 0), false, s.state, s.mode, s.privilege⟩
  | .STATE_NORMAL | .STATE_ENABLE =>
    match ran with
    | .gw_cli_int_enable => cli.gw_cli_int_enable s
    | .other quits mode privilege => ⟨false, quits, s.state, mode, privilege⟩

/-- The loop with its checks. -/
def told (s : cli_loop) : Input → Event
  | .byte c ran => .byte c (cli.outcome (s.read c).1 ran)
  | .idle => .idle
  | .timeout => .timeout (cli.outcome s (.other false s.mode s.privilege))
  | .lost => .lost

def step (s : cli_loop) (i : Input) : cli_loop := s.event (cli.told s i)

/-- How a session starts: the history is freed, and on TCP somebody has to be let in first, if
anybody can be. -/
def gw_cli_loop (channel : Channel) (commands : gwdonu.cli_parser.cli_command) (around : Int → UInt8) : Start where
  channel := channel
  state :=
    if channel = .CHANNEL_TCP ∧ ¬ (cli.users = [] ∧ cli.auth_callback.isNone) then .STATE_LOGIN else .STATE_NORMAL
  mode := MODE_EXEC
  privilege := PRIVILEGE_PRIVILEGED
  commands := commands
  history _ := []
  around := around
  ends _ := ⟨by decide, List.not_mem_nil⟩

end cli_def

/-! ## The lines of a session -/

/-- What the loop takes a line for. -/
inductive Taken where
  | username (l : List UInt8)
  | password (l : List UInt8)
  | enable_password (l : List UInt8)
  | command (l : List UInt8)
  deriving DecidableEq

/-- The line of the loop, when it has ended. Empty names and commands are passed over, and `quit`
ends the session. -/
def line (s : cli_loop) : List Taken :=
  if s.l < 0 ∨ (strcasecmp (s.string 0) QUIT ∧ (s.channel = .CHANNEL_TCP ∨ s.channel = .CHANNEL_PTY)) then []
  else
    match s.state with
    | .STATE_LOGIN => if s.l = 0 then [] else [.username (s.string 0)]
    | .STATE_PASSWORD => [.password (s.string 0)]
    | .STATE_ENABLE_PASSWORD => [.enable_password (s.string 0)]
    | .STATE_NORMAL | .STATE_ENABLE => if s.l = 0 then [] else [.command (s.string 0)]

def taken (s : cli_loop) : Input → List Taken
  | .byte c _ => if s.session_over then [] else if (s.read c).2 then line (s.read c).1 else []
  | _ => []

namespace cli_def

variable (cli : cli_def)

/-- The lines of a whole session. -/
def transcript : cli_loop → List Input → List Taken
  | _, [] => []
  | s, i :: is => taken s i ++ transcript (cli.step s i) is

/-- Nobody has been let in: each name was turned down with its password. -/
inductive Refused : List Taken → Prop
  | nil : Refused []
  | more {ts : List Taken} {username password : List UInt8} : Refused ts → cli.allowed username password = false →
      Refused (ts ++ [.username username, .password password])

/-- The lines of somebody who is in. -/
def Inside : Taken → Prop
  | .command _ | .enable_password _ => True
  | _ => False

/-- Somebody who is let in has been in since. -/
def LetIn (ts : List Taken) : Prop :=
  ∃ before username password after, cli.Refused before ∧ cli.allowed username password = true ∧
    (∀ t ∈ after, Inside t) ∧ ts = before ++ [.username username, .password password] ++ after

/-- What the state says of the lines so far. -/
def Stands (ts : List Taken) (s : cli_loop) : Prop :=
  match s.state with
  | .STATE_LOGIN => cli.Refused ts
  | .STATE_PASSWORD => ∃ before, cli.Refused before ∧ ts = before ++ [.username s.username]
  | _ => cli.LetIn ts

end cli_def

/-! ## What the keys leave alone -/

/-- Who is there, and what is known of the lines before. -/
structure Same (s t : cli_loop) : Prop where
  state : t.state = s.state
  username : t.username = s.username
  history : t.history = s.history

section
variable {s t u : cli_loop} {c : UInt8} {n : Nat}

theorem Same.refl (s : cli_loop) : Same s s := ⟨rfl, rfl, rfl⟩

theorem Same.trans (h : Same s t) (h' : Same t u) : Same s u :=
  ⟨h'.state.trans h.state, h'.username.trans h.username, h'.history.trans h.history⟩

theorem same_access (s : cli_loop) (start : Int) (n : Nat) : Same s (s.access start n) := ⟨rfl, rfl, rfl⟩

theorem same_store (s : cli_loop) (start : Int) (l : List UInt8) : Same s (s.store start l) := ⟨rfl, rfl, rfl⟩

theorem same_memset (s : cli_loop) (start : Int) (c : UInt8) (n : Nat) : Same s (s.memset start c n) :=
  ⟨rfl, rfl, rfl⟩

theorem same_read_string (s : cli_loop) (p : Int) : Same s (s.read_string p) := same_access _ _ _

theorem same_read_history (s : cli_loop) (i : Int) : Same s (s.read_history i) := ⟨rfl, rfl, rfl⟩

theorem same_gw_cli_clear_line (s : cli_loop) : Same s s.gw_cli_clear_line :=
  (((same_memset _ _ _ _).trans (same_memset _ _ _ _)).trans (same_memset _ _ _ _)).trans (same_memset _ _ _ _)

theorem same_skip_back (P : UInt8 → Bool) (n : Nat) (s : cli_loop) : Same s (skip_back P n s).1 := by
  induction n generalizing s with
  | zero => exact Same.refl s
  | succ n ih =>
    rw [skip_back]
    split
    · exact (same_access s n 1).trans (ih _)
    · exact same_access s n 1

theorem same_delete (s : cli_loop) : Same s s.delete := by
  unfold delete
  dsimp only
  split
  · exact ⟨rfl, rfl, rfl⟩
  · exact ⟨rfl, rfl, rfl⟩

theorem same_deletes (n : Nat) (s : cli_loop) : Same s (deletes n s) := by
  induction n generalizing s with
  | zero => exact Same.refl s
  | succ n ih => exact (same_delete s).trans (ih _)

theorem same_delete_word (s : cli_loop) : Same s s.delete_word :=
  ((same_skip_back _ _ s).trans (same_skip_back _ _ _)).trans (same_deletes _ _)

theorem same_clear_line (s : cli_loop) : Same s s.clear_line := by
  unfold clear_line
  split
  · exact ⟨rfl, rfl, rfl⟩
  · exact (same_gw_cli_clear_line s).trans ⟨rfl, rfl, rfl⟩

theorem same_kill (s : cli_loop) : Same s s.kill := by
  unfold kill
  split
  · exact Same.refl s
  · exact ⟨rfl, rfl, rfl⟩

theorem same_eot (s : cli_loop) : Same s s.eot.1 := by
  unfold eot
  split
  · exact Same.refl s
  · split
    · exact Same.refl s
    · exact ⟨rfl, rfl, rfl⟩

theorem same_disable (s : cli_loop) : Same s s.disable := by
  unfold disable
  split
  · exact (same_gw_cli_clear_line s).trans ⟨rfl, rfl, rfl⟩
  · exact Same.refl s

theorem same_complete_with (s : cli_loop) (name : List UInt8) : Same s (s.complete_with name) := by
  have hback := same_skip_back (fun c => c ≠ 0x20 ∧ c ≠ 0x7c) s.l.toNat s
  unfold complete_with
  generalize skip_back _ _ _ = skipped at *
  obtain ⟨s1, start⟩ := skipped
  have hstored : Same s1 ((s1.store start (name ++ [0])).store ((start : Int) + name.length) [0x20]) :=
    (same_store _ _ _).trans (same_store _ _ _)
  exact (hback.trans hstored).trans ⟨rfl, rfl, rfl⟩

theorem same_completion (s : cli_loop) (c : UInt8) : Same s (s.completion c) := by
  have hread := same_read_string s 0
  unfold completion
  split
  · exact Same.refl s
  · split
    · exact Same.refl s
    · split
      · exact hread
      · exact hread.trans (same_complete_with _ _)
      · dsimp only
        split
        · exact hread.trans ⟨rfl, rfl, rfl⟩
        · exact hread.trans ⟨rfl, rfl, rfl⟩

theorem same_last_history (n : Nat) (s : cli_loop) : Same s (last_history n s) := by
  induction n generalizing s with
  | zero => exact ⟨rfl, rfl, rfl⟩
  | succ n ih =>
    rw [last_history]
    split
    · exact (same_read_history s n).trans ⟨rfl, rfl, rfl⟩
    · exact (same_read_history s n).trans (ih _)

theorem same_up (s : cli_loop) : Same s s.up := by
  have hback : Same s { s with in_history := s.in_history - 1 } := ⟨rfl, rfl, rfl⟩
  unfold up
  dsimp only
  split
  · exact hback.trans (same_last_history _ _)
  · exact ⟨rfl, rfl, rfl⟩

theorem same_down (s : cli_loop) : Same s s.down := by
  unfold down
  dsimp only
  split
  · exact ⟨rfl, rfl, rfl⟩
  · split
    · exact ⟨rfl, rfl, rfl⟩
    · exact ⟨rfl, rfl, rfl⟩

theorem same_show_history (s : cli_loop) (entry : List UInt8) : Same s (s.show_history entry) := by
  have hshown := ((same_gw_cli_clear_line s).trans (same_memset _ 0 0 MAX_LINE_LENTH)).trans
    (same_store _ 0 (strncpy entry (MAX_LINE_LENTH - 1)))
  unfold show_history
  dsimp only
  generalize cli_loop.store _ _ _ = s1 at *
  exact (hshown.trans (same_read_string s1 0)).trans ⟨rfl, rfl, rfl⟩

theorem same_recall_history (s : cli_loop) : Same s s.recall_history := by
  unfold recall_history
  split
  · exact Same.refl s
  · dsimp only
    split
    · exact same_read_history s _
    · exact (same_read_history s _).trans (same_show_history _ _)

theorem same_left (s : cli_loop) : Same s s.left := by
  unfold left
  split
  · exact ⟨rfl, rfl, rfl⟩
  · exact Same.refl s

theorem same_right (s : cli_loop) : Same s s.right := by
  unfold right
  split
  · dsimp only
    split
    · exact ⟨rfl, rfl, rfl⟩
    · exact ⟨rfl, rfl, rfl⟩
  · exact Same.refl s

theorem same_end_of_line (s : cli_loop) : Same s s.end_of_line := by
  unfold end_of_line
  split
  · dsimp only
    split
    · exact ⟨rfl, rfl, rfl⟩
    · exact ⟨rfl, rfl, rfl⟩
  · exact Same.refl s

theorem same_append (s : cli_loop) (c : UInt8) : Same s (s.append c).1 := by
  have hput (s : cli_loop) : Same s (if s.l < (MAX_LINE_LENTH - 1 : Nat) then
      ({ s.store s.cursor [c] with l := s.l + 1, cursor := s.cursor + 1 }, true)
      else ((s.store s.cursor [c]).store (MAX_LINE_LENTH - 1 : Nat) [0], false)).1 := by
    split
    · exact ⟨rfl, rfl, rfl⟩
    · exact ⟨rfl, rfl, rfl⟩
  unfold cli_loop.append
  dsimp only
  split
  · have hback : Same s { s with cursor := 0, l := 0 } := ⟨rfl, rfl, rfl⟩
    exact hback.trans (hput _)
  · exact hput s

theorem same_move_right (s : cli_loop) : Same s s.move_right := ⟨rfl, rfl, rfl⟩

theorem same_insert (s : cli_loop) (c : UInt8) : Same s (s.insert c) := by
  have hshortened : Same s (if (MAX_LINE_LENTH - 2 : Nat) ≤ s.l then { s with l := s.l - 1 } else s) := by
    split
    · exact ⟨rfl, rfl, rfl⟩
    · exact Same.refl s
  unfold cli_loop.insert
  dsimp only
  generalize (if (MAX_LINE_LENTH - 2 : Nat) ≤ s.l then _ else _ : cli_loop) = s1 at *
  have hstored := (hshortened.trans (same_move_right s1)).trans (same_store _ s1.cursor [c])
  generalize s1.move_right.store s1.cursor [c] = s2 at *
  exact (hstored.trans (same_access s2 s2.cursor (s2.l - s2.cursor + 1).toNat)).trans ⟨rfl, rfl, rfl⟩

theorem same_echo (s : cli_loop) (c : UInt8) : Same s (s.echo c).1 := by
  unfold echo
  split
  · exact ⟨rfl, rfl, rfl⟩
  · exact ⟨rfl, rfl, rfl⟩

theorem same_normal (s : cli_loop) (c : UInt8) : Same s (s.normal c).1 := by
  unfold normal
  split
  · have happend := same_append s c
    generalize s.append c = appended at *
    obtain ⟨s1, room⟩ := appended
    dsimp only at happend ⊢
    split
    · exact happend.trans (same_echo _ _)
    · exact happend
  · exact (same_insert s c).trans (same_echo _ _)

/-- A key sees to the line only. -/
theorem same_key (s : cli_loop) (c : UInt8) (k : Key) : Same s (s.key c k).1 := by
  cases k with
  | nothing => exact Same.refl s
  | newline => exact Same.refl s
  | escape => exact ⟨rfl, rfl, rfl⟩
  | bell => exact Same.refl s
  | word =>
    unfold cli_loop.key
    dsimp only
    split
    · exact Same.refl s
    · exact same_delete_word s
  | char =>
    unfold cli_loop.key
    dsimp only
    split
    · exact Same.refl s
    · exact same_deletes 1 s
  | redraw =>
    unfold cli_loop.key
    dsimp only
    split
    · exact Same.refl s
    · exact ⟨rfl, rfl, rfl⟩
  | clear_line => exact same_clear_line s
  | kill => exact same_kill s
  | eot => exact same_eot s
  | disable => exact same_disable s
  | completion => exact same_completion s c
  | up =>
    unfold cli_loop.key
    dsimp only
    split
    · exact Same.refl s
    · exact (same_up s).trans (same_recall_history _)
  | down =>
    unfold cli_loop.key
    dsimp only
    split
    · exact Same.refl s
    · exact (same_down s).trans (same_recall_history _)
  | left => exact same_left s
  | right => exact same_right s
  | start_of_line => exact ⟨rfl, rfl, rfl⟩
  | end_of_line => exact same_end_of_line s
  | normal => exact same_normal s c

theorem same_prompt (s : cli_loop) : Same s s.prompt := by
  unfold prompt
  split
  · dsimp only
    split
    · exact ⟨rfl, rfl, rfl⟩
    · exact ⟨rfl, rfl, rfl⟩
  · exact Same.refl s

theorem same_decode (s : cli_loop) (c : UInt8) : Same s (s.decode c).1 := by
  obtain ⟨skip, is_telnet_option, esc, heq⟩ := decode_fields s c
  rw [heq]
  exact ⟨rfl, rfl, rfl⟩

theorem same_read (s : cli_loop) (c : UInt8) : Same s (s.read c).1 := by
  have hdecoded := (same_prompt s).trans (same_decode s.prompt c)
  unfold cli_loop.read
  generalize s.prompt.decode c = decoded at *
  obtain ⟨s1, k⟩ := decoded
  cases k with
  | none => exact hdecoded
  | some k => exact hdecoded.trans (same_key s1 k _)

end

/-! ## The end of a line -/

/-- All strings of the history, and the empty one, meet `P`. -/
def Every (P : List UInt8 → Prop) (s : cli_loop) : Prop := P [] ∧ ∀ i, P (s.history i)

/-- The history has only lines that were taken for commands. -/
def Recalls (ts : List Taken) (s : cli_loop) : Prop := Every (fun l => l = [] ∨ .command l ∈ ts) s

section
variable {cli : cli_def} {s t : cli_loop} {P : List UInt8 → Prop} {l : List UInt8} {n : Nat} {ts us : List Taken}
  {c : UInt8} {ran : Ran} {i : Input}

theorem Every.congr (hs : Every P s) (h : t.history = s.history) : Every P t := by
  unfold Every
  rw [h]
  exact hs

theorem Same.every (h : Same s t) (hs : Every P s) : Every P t := hs.congr h.history

theorem Every.write_history (h : Every P s) (hl : P l) (i : Int) : Every P (s.write_history i l) := by
  refine ⟨h.1, fun j => ?_⟩
  unfold cli_loop.write_history
  dsimp only
  split
  · exact hl
  · exact h.2 j

theorem Every.drop_history (h : Every P s) (i : Int) : Every P (drop_history n i s) := by
  induction n generalizing s i with
  | zero => exact h
  | succ n ih => exact ih (((same_read_history s (i + 1)).every h).write_history (h.2 (i + 1)) i) (i + 1)

theorem Every.add_history (h : Every P s) (hl : P l) (i : Int) : Every P (add_history l n i s) := by
  induction n generalizing s i with
  | zero =>
    have hcleared : Every P { s with
        history := fun j => if j = 0 then [] else s.history j
        of_history := s.of_history ++ [(0, ⟨0, MAX_LINE_LENTH⟩)] } := by
      refine ⟨h.1, fun j => ?_⟩
      dsimp only
      split
      · exact h.1
      · exact h.2 j
    exact (hcleared.drop_history 0).write_history hl _
  | succ n ih =>
    have hread := (same_read_history s i).every h
    have hbefore := (same_read_history _ (i - 1)).every hread
    rw [cli_loop.add_history]
    dsimp only
    split
    · split
      · exact hread.write_history hl i
      · split
        · exact hbefore.write_history hl i
        · exact hbefore
    · exact ih hread (i + 1)

theorem Every.gw_cli_add_history (h : Every P s) (hl : P (s.string 0)) : Every P s.gw_cli_add_history :=
  ((same_read_string s 0).every h).add_history hl 0

theorem Recalls.append (h : Recalls ts s) (us : List Taken) : Recalls (ts ++ us) s := by
  refine ⟨.inl rfl, fun i => ?_⟩
  rcases h.2 i with hnone | hcommand
  · exact .inl hnone
  · exact .inr (List.mem_append_left us hcommand)

theorem same_restart (s : cli_loop) : Same s s.restart := by
  have hstarted : Same s { s with showprompt := true, in_history := 0, lastchar := 0 } := ⟨rfl, rfl, rfl⟩
  unfold restart
  dsimp only
  split
  · exact hstarted.trans ⟨rfl, rfl, rfl⟩
  · exact hstarted.trans ⟨rfl, rfl, rfl⟩

theorem same_leave (s : cli_loop) : Same s s.leave := ⟨rfl, rfl, rfl⟩

/-- The state is the only thing that the answer to a line sets. -/
theorem Same.stands (h : Same s t) (hs : cli.Stands ts s) : cli.Stands ts t := by
  unfold cli_def.Stands at *
  rw [h.state, h.username]
  exact hs

theorem LetIn.stands (h : cli.LetIn ts) (hs : s.state ≠ .STATE_LOGIN ∧ s.state ≠ .STATE_PASSWORD) :
    cli.Stands ts s := by
  unfold cli_def.Stands
  split
  · rename_i hlogin
    exact absurd hlogin hs.1
  · rename_i hpassword
    exact absurd hpassword hs.2
  · exact h

theorem LetIn.append (h : cli.LetIn ts) (hus : ∀ t ∈ us, cli_def.Inside t) : cli.LetIn (ts ++ us) := by
  obtain ⟨before, username, password, after, hrefused, hallowed, hafter, rfl⟩ := h
  refine ⟨before, username, password, after ++ us, hrefused, hallowed, ?_, List.append_assoc _ _ _⟩
  rw [List.forall_mem_append]
  exact ⟨hafter, hus⟩

/-- A command goes into the history, and leaves its user in. -/
theorem run_command_stands (h : cli.LetIn ts) (hr : Recalls ts s) {o : Outcome}
    (ho : o.state ≠ .STATE_LOGIN ∧ o.state ≠ .STATE_PASSWORD) :
    cli.Stands (ts ++ [.command (s.string 0)]) (s.run_command o) ∧
      Recalls (ts ++ [.command (s.string 0)]) (s.run_command o) := by
  have hin : cli.LetIn (ts ++ [.command (s.string 0)]) := LetIn.append h (by simp [cli_def.Inside])
  have hgiven : Recalls (ts ++ [.command (s.string 0)]) s := hr.append _
  have hlooked := (same_access s (s.l - 1) 1).every hgiven
  have hread := (same_read_string _ 0).every hlooked
  have hline : s.string 0 = [] ∨ Taken.command (s.string 0) ∈ ts ++ [.command (s.string 0)] :=
    .inr (List.mem_append_right ts (List.mem_singleton_self _))
  unfold cli_loop.run_command
  dsimp only
  generalize hadded :
    (if (s.access (s.l - 1) 1).cmd ((s.access (s.l - 1) 1).l - 1) ≠ 0x3f then _ else _ : cli_loop) = s1
  have hkept : Recalls (ts ++ [.command (s.string 0)]) s1 := by
    rw [← hadded]
    split
    · split
      · exact hread.gw_cli_add_history hline
      · exact hread
    · exact hlooked
  have hran : Recalls (ts ++ [.command (s.string 0)])
      { s1.read_string 0 with state := o.state, mode := o.mode, privilege := o.privilege } := hkept.congr rfl
  split
  · exact ⟨LetIn.stands hin ho, (same_leave _).every hran⟩
  · exact ⟨(same_restart _).stands (LetIn.stands hin ho), (same_restart _).every hran⟩

/-- No answer to a command asks who is there. -/
theorem outcome_state (hs : s.state = .STATE_NORMAL ∨ s.state = .STATE_ENABLE) (ran : Ran) :
    (cli.outcome s ran).state ≠ .STATE_LOGIN ∧ (cli.outcome s ran).state ≠ .STATE_PASSWORD := by
  have hstays : s.state ≠ .STATE_LOGIN ∧ s.state ≠ .STATE_PASSWORD := by
    rcases hs with hs | hs
    · rw [hs]
      decide
    · rw [hs]
      decide
  have henable : (cli.gw_cli_int_enable s).state ≠ .STATE_LOGIN ∧
      (cli.gw_cli_int_enable s).state ≠ .STATE_PASSWORD := by
    unfold cli_def.gw_cli_int_enable
    split
    · exact hstays
    · split
      · exact hstays
      · exact ⟨nofun, nofun⟩
  unfold cli_def.outcome
  split
  · exact hstays
  · exact hstays
  · exact hstays
  · split
    · exact henable
    · exact hstays
  · split
    · exact henable
    · exact hstays

/-- What a line that ends leaves. -/
theorem finish_stands (hs : cli.Stands ts s) (hr : Recalls ts s) (ran : Ran) :
    cli.Stands (ts ++ line s) (s.finish (cli.outcome s ran)) ∧
      Recalls (ts ++ line s) (s.finish (cli.outcome s ran)) := by
  unfold line cli_loop.finish
  by_cases hl : s.l < 0
  · rw [if_pos hl, if_pos (.inl hl), List.append_nil]
    exact ⟨(same_leave s).stands hs, (same_leave s).every hr⟩
  · rw [if_neg hl]
    dsimp only
    have hlooked := same_access s 0 (min ((s.string 0).length + 1) (QUIT.length + 1))
    have hstring : (s.access 0 (min ((s.string 0).length + 1) (QUIT.length + 1))).string 0 = s.string 0 := rfl
    have hchannel : (s.access 0 (min ((s.string 0).length + 1) (QUIT.length + 1))).channel = s.channel := rfl
    have hlen : (s.access 0 (min ((s.string 0).length + 1) (QUIT.length + 1))).l = s.l := rfl
    generalize s.access 0 (min ((s.string 0).length + 1) (QUIT.length + 1)) = s1 at *
    by_cases hq : strcasecmp (s.string 0) QUIT ∧ (s.channel = .CHANNEL_TCP ∨ s.channel = .CHANNEL_PTY)
    · rw [hstring, hchannel, if_pos hq, if_pos (.inr hq), List.append_nil]
      exact ⟨(hlooked.trans (same_leave s1)).stands hs, (hlooked.trans (same_leave s1)).every hr⟩
    · have hnot : ¬ (s.l < 0 ∨ strcasecmp (s.string 0) QUIT ∧ (s.channel = .CHANNEL_TCP ∨ s.channel = .CHANNEL_PTY)) :=
        not_or.mpr ⟨hl, hq⟩
      rw [hstring, hchannel, if_neg hq, if_neg hnot, hlooked.state, hlen]
      have hr1 : Recalls ts s1 := hlooked.every hr
      have hstands := hs
      have hpassed : cli.Stands (ts ++ []) s1.restart ∧ Recalls (ts ++ []) s1.restart := by
        rw [List.append_nil]
        exact ⟨(hlooked.trans (same_restart s1)).stands hs, (hlooked.trans (same_restart s1)).every hr⟩
      unfold cli_def.Stands at hstands
      cases hstate : s.state with
      | STATE_LOGIN =>
        rw [hstate] at hstands
        dsimp only at hstands ⊢
        split_ifs with hzero
        · exact hpassed
        · have hasked : cli.Stands (ts ++ [.username (s.string 0)]) s1.login := by
            rw [← hstring]
            exact ⟨ts, hstands, rfl⟩
          exact ⟨(same_restart _).stands hasked, (same_restart _).every ((hr1.append _).congr rfl)⟩
      | STATE_PASSWORD =>
        rw [hstate] at hstands
        dsimp only at hstands ⊢
        obtain ⟨before, hrefused, rfl⟩ := hstands
        have hout : (cli.outcome s ran).allowed = cli.allowed s.username (s.string 0) := by
          unfold cli_def.outcome
          rw [hstate]
        refine ⟨(same_restart _).stands ?_, (same_restart _).every ((hr1.append _).congr rfl)⟩
        rw [hout, List.append_assoc]
        cases hallowed : cli.allowed s.username (s.string 0) with
        | false => exact cli_def.Refused.more hrefused hallowed
        | true => exact ⟨before, s.username, s.string 0, [], hrefused, hallowed, nofun, (List.append_nil _).symm⟩
      | STATE_ENABLE_PASSWORD =>
        rw [hstate] at hstands
        have hin : cli.LetIn (ts ++ [.enable_password (s.string 0)]) :=
          LetIn.append hstands (by simp [cli_def.Inside])
        dsimp only at hin ⊢
        split
        · exact ⟨(same_restart _).stands (LetIn.stands hin ⟨nofun, nofun⟩),
            (same_restart _).every ((hr1.append _).congr rfl)⟩
        · exact ⟨(same_restart _).stands (LetIn.stands hin ⟨nofun, nofun⟩),
            (same_restart _).every ((hr1.append _).congr rfl)⟩
      | STATE_NORMAL =>
        rw [hstate] at hstands
        dsimp only
        split_ifs with hzero
        · exact hpassed
        · rw [← hstring]
          exact run_command_stands hstands hr1 (outcome_state (.inl hstate) ran)
      | STATE_ENABLE =>
        rw [hstate] at hstands
        dsimp only
        split_ifs with hzero
        · exact hpassed
        · rw [← hstring]
          exact run_command_stands hstands hr1 (outcome_state (.inr hstate) ran)

/-! ## Whole sessions -/

/-- The line that ends the session when the time is up. -/
theorem string_quit (h : s.Sound) (hon : s.session_over = false) :
    (s.prompt.store 0 (strncpy QUIT (MAX_LINE_LENTH - 1))).string 0 = QUIT := by
  obtain ⟨text, hshows, -⟩ := h.2 hon
  have hprompt := (hshows.prompt h.1).shows hshows
  have hcells : cells.Padded 0 s.prompt.cmd MAX_LINE_LENTH ([] ++ text.text) := hprompt.cells
  have hfits := hprompt.fits
  have hwritten := hcells.overwrite (t := strncpy QUIT (MAX_LINE_LENTH - 1)) (by rw [strncpy_length]; omega)
  rw [List.nil_append, strncpy_eq (by decide), cells.padded_append_replicate] at hwritten
  rw [strncpy_eq (by decide)]
  exact hwritten.text_eq (by decide) (by decide)

theorem same_finish (htcp : s.channel = .CHANNEL_TCP) (hquit : s.string 0 = QUIT) (o : Outcome) :
    Same s (s.finish o) := by
  have hlooked := same_access s 0 (min ((s.string 0).length + 1) (QUIT.length + 1))
  have hstring : (s.access 0 (min ((s.string 0).length + 1) (QUIT.length + 1))).string 0 = QUIT := hquit
  have hchannel : (s.access 0 (min ((s.string 0).length + 1) (QUIT.length + 1))).channel = .CHANNEL_TCP := htcp
  unfold finish
  split
  · exact same_leave s
  · dsimp only
    generalize s.access 0 (min ((s.string 0).length + 1) (QUIT.length + 1)) = s1 at *
    have hleaves : strcasecmp (s1.string 0) QUIT ∧ (s1.channel = .CHANNEL_TCP ∨ s1.channel = .CHANNEL_PTY) := by
      rw [hstring, hchannel]
      exact ⟨rfl, .inl rfl⟩
    rw [if_pos hleaves]
    exact hlooked.trans (same_leave s1)

/-- What one byte, or its absence, leaves. -/
theorem step_stands (hsound : s.Sound) (hs : cli.Stands ts s) (hr : Recalls ts s) (i : Input) :
    cli.Stands (ts ++ taken s i) (cli.step s i) ∧ Recalls (ts ++ taken s i) (cli.step s i) := by
  have hsame {t : cli_loop} (h : Same s t) : cli.Stands (ts ++ []) t ∧ Recalls (ts ++ []) t := by
    rw [List.append_nil]
    exact ⟨h.stands hs, h.every hr⟩
  unfold cli_def.step
  cases i with
  | byte c ran =>
    unfold cli_def.told taken cli_loop.event
    dsimp only
    split_ifs with hover hends
    · exact hsame (Same.refl s)
    · exact finish_stands ((same_read s c).stands hs) ((same_read s c).every hr) ran
    · exact hsame (same_read s c)
  | idle =>
    unfold cli_def.told taken cli_loop.event
    dsimp only
    split_ifs with hover
    · exact hsame (Same.refl s)
    · exact hsame (same_prompt s)
  | timeout =>
    unfold cli_def.told taken cli_loop.event
    dsimp only
    split_ifs with hover htcp
    · exact hsame (Same.refl s)
    · have hstored := (same_prompt s).trans (same_store _ 0 (strncpy QUIT (MAX_LINE_LENTH - 1)))
      have hchannel : (s.prompt.store 0 (strncpy QUIT (MAX_LINE_LENTH - 1))).channel = .CHANNEL_TCP :=
        (prompt_fields s).2.trans htcp
      exact hsame (hstored.trans (same_finish hchannel (string_quit hsound (Bool.eq_false_iff.mpr hover)) _))
    · exact hsame (same_prompt s)
  | lost =>
    unfold cli_def.told taken cli_loop.event
    dsimp only
    split_ifs with hover hpty
    · exact hsame (Same.refl s)
    · exact hsame (same_prompt s)
    · exact hsame ((same_prompt s).trans ⟨rfl, rfl, rfl⟩)

/-- What a run leaves, from any state between two bytes on. -/
theorem run_stands {is : List Input} (hsound : s.Sound) (hs : cli.Stands ts s) (hr : Recalls ts s)
    (hfits : Along cli.step (fun s i => s.Fits (cli.told s i)) s is) :
    cli.Stands (ts ++ cli.transcript s is) (run cli.step s is) ∧
      Recalls (ts ++ cli.transcript s is) (run cli.step s is) := by
  induction is generalizing s ts with
  | nil =>
    rw [cli_def.transcript, List.append_nil]
    exact ⟨hs, hr⟩
  | cons i is ih =>
    obtain ⟨hfit, hrest⟩ := hfits
    obtain ⟨hs', hr'⟩ := step_stands hsound hs hr i
    rw [cli_def.transcript, ← List.append_assoc]
    exact ih (hsound.event hfit).2 hs' hr' hrest

theorem Refused.outside (h : cli.Refused ts) : ∀ t ∈ ts, ¬ cli_def.Inside t := by
  induction h with
  | nil => exact nofun
  | more _ _ ih =>
    rw [List.forall_mem_append]
    exact ⟨ih, by simp [cli_def.Inside]⟩

/-- A line of somebody who is in has a login in front of it. -/
theorem Stands.letIn_before (h : cli.Stands ts s) {front back : List Taken} {t : Taken} (ht : cli_def.Inside t)
    (heq : ts = front ++ t :: back) : cli.LetIn front := by
  have hmem : t ∈ ts := by
    rw [heq]
    exact List.mem_append_right front List.mem_cons_self
  have hin : cli.LetIn ts := by
    unfold cli_def.Stands at h
    split at h
    · exact absurd ht (Refused.outside h t hmem)
    · obtain ⟨before, hrefused, rfl⟩ := h
      rcases List.mem_append.mp hmem with hmem | hmem
      · exact absurd ht (Refused.outside hrefused t hmem)
      · rw [List.mem_singleton.mp hmem] at ht
        exact absurd ht id
    · exact h
  obtain ⟨before, username, password, after, hrefused, hallowed, hafter, rfl⟩ := hin
  have hout : ∀ t ∈ before ++ [.username username, .password password], ¬ cli_def.Inside t := by
    rw [List.forall_mem_append]
    exact ⟨Refused.outside hrefused, by simp [cli_def.Inside]⟩
  rcases List.append_eq_append_iff.mp heq with ⟨mid, rfl, rfl⟩ | ⟨mid, hfront, hback⟩
  · exact ⟨before, username, password, mid, hrefused, hallowed,
      fun t hmid => hafter t (List.mem_append_left _ hmid), rfl⟩
  · cases mid with
    | nil =>
      rw [List.append_nil] at hfront
      exact ⟨before, username, password, [], hrefused, hallowed, nofun, by rw [List.append_nil, hfront]⟩
    | cons t' mid =>
      obtain ⟨rfl, -⟩ := List.cons_eq_cons.mp hback
      exact absurd ht (hout t (by rw [hfront]; simp))

end

/-- On TCP, when anybody can be let in at all, each command has a login in front of it that the
users or the callback allow, whatever is typed and however often it was turned down; and what is
typed for a name or a password does not get into the history. -/
theorem each_command_is_behind_a_login (cli : cli_def) (hasked : ¬ (cli.users = [] ∧ cli.auth_callback.isNone))
    (commands : gwdonu.cli_parser.cli_command) (around : Int → UInt8) {is : List Input}
    (hfits : Along cli.step (fun s i => s.Fits (cli.told s i))
      (cli.gw_cli_loop .CHANNEL_TCP commands around).loop is) :
    let start := (cli.gw_cli_loop .CHANNEL_TCP commands around).loop
    (∀ front l back, cli.transcript start is = front ++ .command l :: back → cli.LetIn front) ∧
      cli.Stands (cli.transcript start is) (run cli.step start is) ∧
      Recalls (cli.transcript start is) (run cli.step start is) := by
  intro start
  have hstate : start.state = .STATE_LOGIN := if_pos ⟨rfl, hasked⟩
  have hs : cli.Stands [] start := by
    unfold cli_def.Stands
    rw [hstate]
    exact cli_def.Refused.nil
  have hr : Recalls [] start := ⟨.inl rfl, fun _ => .inl rfl⟩
  obtain ⟨hstands, hrecalls⟩ := run_stands (start_sound _) hs hr hfits
  rw [List.nil_append] at hstands hrecalls
  exact ⟨fun _ l _ heq => Stands.letIn_before hstands (show cli_def.Inside (.command l) from trivial) heq, hstands,
    hrecalls⟩

instance (s : cli_loop) : Decidable s.CompletionFits :=
  match h : s.gw_cli_get_completions gwdonu.cli_parser.MAX_WORDS_NUM with
  | [] => .isTrue fun _ _ _ hname => by rw [h] at hname; cases hname
  | _ :: _ :: _ => .isTrue fun _ _ _ hname => by rw [h] at hname; cases hname
  | [name] =>
    let start := ((s.string 0).rdropWhile fun c => c ≠ 0x20 ∧ c ≠ 0x7c).length
    decidable_of_iff (¬ (s.state = .STATE_LOGIN ∨ s.Hidden) → s.cursor = s.l →
        s.l ≤ start + name.length + 1 ∧ start + name.length + 1 < MAX_LINE_LENTH) (by
      constructor
      · intro hfits name' hstate hend hname
        rw [h, List.cons_eq_cons] at hname
        exact hname.1 ▸ hfits hstate hend
      · exact fun hfits hstate hend => hfits name hstate hend h)

instance (s : cli_loop) (c : UInt8) : (k : Key) → Decidable (s.KeyFits c k)
  | .newline => inferInstanceAs (Decidable (_ → _))
  | .word | .char => inferInstanceAs (Decidable s.DeletionFits)
  | .disable => inferInstanceAs (Decidable (_ ∨ _))
  | .completion => inferInstanceAs (Decidable s.CompletionFits)
  | .normal => inferInstanceAs (Decidable (s.NormalFits c))
  | .nothing | .escape | .bell | .redraw | .clear_line | .kill | .eot | .up | .down | .left | .right | .start_of_line
  | .end_of_line => .isTrue trivial

instance (s : cli_loop) : (e : Event) → Decidable (s.Fits e)
  | .byte c _ => inferInstanceAs (Decidable (s.session_over = false →
      ∀ k ∈ (s.prompt.decode c).2, (s.prompt.decode c).1.KeyFits k (Key.of k)))
  | .idle | .timeout _ | .lost => .isTrue trivial

/-- The user `a` types a wrong password first. -/
theorem a_user_is_let_in_the_second_time :
    let cli : cli_def := ⟨[⟨[0x61], [0x62]⟩], none, none, none⟩
    let start := (cli.gw_cli_loop .CHANNEL_TCP .NULL fun _ => 0).loop
    let is := [0x61, 0x0d, 0x63, 0x0d, 0x61, 0x0d, 0x62, 0x0d, 0x73, 0x0d].map fun c =>
      Input.byte c (.other false MODE_EXEC PRIVILEGE_PRIVILEGED)
    (∃ front, cli.transcript start is = front ++ [.command [0x73]] ∧ cli.LetIn front) ∧
      (run cli.step start is).state = .STATE_NORMAL := by
  intro cli start is
  have hfits : Along cli.step (fun s i => s.Fits (cli.told s i)) start is := by decide +kernel
  have hline : cli.transcript start is = [.username [0x61], .password [0x63], .username [0x61], .password [0x62]] ++
      [.command [0x73]] := by
    decide +kernel
  have hlogin : ¬ (cli.users = [] ∧ cli.auth_callback.isNone) := by
    rintro ⟨hnone, -⟩
    cases hnone
  obtain ⟨hcommands, -⟩ := each_command_is_behind_a_login cli hlogin .NULL (fun _ => 0) hfits
  exact ⟨⟨_, hline, hcommands _ _ _ hline⟩, by decide +kernel⟩

end gwdonu.shell_login
