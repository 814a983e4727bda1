-- The line editor of the CLI: what each key of `gw_cli_loop` makes of the line, the cursor and the
-- length, what becomes of a line that ends, and which bytes are read and written on the way.
import Gwdonu.CliCompletions
import Gwdonu.Lib.Padded
import Gwdonu.Lib.Runs
import Mathlib.Data.List.DropRight

/-! ## The words of any line -/

namespace gwdonu.cli_parser

/-- The loop of `parse`, with the words that are there where it gives up. -/
def parse_stored : List Char → Parsed → Bool × List (List Char)
  | [], s =>
    if MAX_WORDS_NUM - 1 ≤ s.words.length then (true, s.words)
    else
      match s.store with
      | none => (false, s.words)
      | some words => (true, words)
  | c :: p, s =>
    if MAX_WORDS_NUM - 1 ≤ s.words.length then (true, s.words)
    else if s.inquote = some c ∨ (s.word_start ≠ none ∧ s.inquote = none ∧ isspace c) then
      match s.store with
      | none => (false, s.words)
      | some words => parse_stored p ⟨words, none, none⟩
    else if c = '"' ∨ c = '\'' then parse_stored p ⟨s.words, some [], some c⟩
    else
      match s.word_start with
      | some word => parse_stored p { s with word_start := some (word ++ [c]) }
      | none =>
        if c = '|' then parse_stored p { s with words := s.words ++ [['|']] }
        else if ¬ isspace c then parse_stored p { s with word_start := some [c] }
        else parse_stored p s

theorem parse_eq (p : List Char) (s : Parsed) :
    parse p s = if (parse_stored p s).1 then some (parse_stored p s).2 else none := by
  induction p generalizing s with
  | nil =>
    rw [parse, parse_stored]
    split
    · rfl
    · cases s.store with
      | none => rfl
      | some words => rfl
  | cons c p ih =>
    rw [parse, parse_stored]
    split
    · rfl
    · split
      · cases s.store with
        | none => rfl
        | some words => exact ih _
      · split
        · exact ih _
        · cases s.word_start with
          | some word => exact ih _
          | none =>
            dsimp only
            split
            · exact ih _
            · split
              · exact ih _
              · exact ih _

/-- The words in front of the last one, and the last one. A line beyond the limits has none, but
behind a blank its first word is left where the last one is looked for. -/
def line_words (command : List Char) : Option (List (List Char) × Option (List Char)) :=
  let command := command.dropWhile fun c => isspace c
  let (parsed, words) := parse_stored command ⟨[], if command = [] then none else some [], none⟩
  if parsed then
    if command = [] ∨ command.getLast? = some ' ' then some (words, none)
    else words.getLast?.map fun last => (words.dropLast, some last)
  else if command.getLast? = some ' ' then some ([], words.head?)
  else none

theorem completion_words_eq {command : List Char} (h : gw_cli_parse_line command ≠ none) :
    completion_words command = line_words command := by
  unfold completion_words line_words
  unfold gw_cli_parse_line at h ⊢
  rw [parse_eq] at h ⊢
  dsimp only
  generalize parse_stored _ _ = parsed at h ⊢
  obtain ⟨parsed, words⟩ := parsed
  cases parsed with
  | false => exact absurd rfl h
  | true => rfl

end gwdonu.cli_parser

namespace gwdonu.line_editor

open cells runs gwdonu.cli_parser

/-! ## The program -/

def MAX_LINE_LENTH : Nat := 256
def MAX_HISTORY : Nat := 10
def USERNAME : Nat := 65
def MODE_EXEC : Int := 0
def PRIVILEGE_PRIVILEGED : Int := 15

/-- The channels that the loop reads from. -/
inductive Channel where
  | CHANNEL_SERIAL
  | CHANNEL_TCP
  | CHANNEL_PTY
  deriving DecidableEq

inductive cli_states where
  | STATE_LOGIN
  | STATE_PASSWORD
  | STATE_NORMAL
  | STATE_ENABLE_PASSWORD
  | STATE_ENABLE
  deriving DecidableEq

/-- What the loop uses of the record, and its variables. `cmd` has the bytes around it too, an
entry of the history is its string, `oldl` is nothing when `oldcmd` is `NULL`, and the session is
over when the loop has ended. -/
structure cli_loop where
  channel : Channel
  state : cli_states
  mode : Int
  privilege : Int
  commands : cli_command
  history : Int → List UInt8
  showprompt : Bool
  cmd : Int → UInt8
  l : Int
  cursor : Int
  oldl : Option Int
  username : List UInt8
  esc : UInt8
  in_history : Int
  lastchar : UInt8
  skip : Nat
  is_telnet_option : Nat
  session_over : Bool
  /-- the bytes of `cmd`, of the user name, and of the entries of the history that were read
  or written -/
  of_cmd : List Extent
  of_username : List Extent
  of_history : List (Int × Extent)

/-- What comes of a line: the answer to a password, or what the command leaves. -/
structure Outcome where
  allowed : Bool
  quits : Bool
  state : cli_states
  mode : Int
  privilege : Int

/-- A byte is read, with what comes of the line when it ends one, or none is there. On TCP the
time may be up. -/
inductive Event where
  | byte (c : UInt8) (o : Outcome)
  | idle
  | timeout (o : Outcome)
  | lost

def CTRL (c : Char) : UInt8 := c.toUInt8 - '@'.toUInt8

def tolower (c : UInt8) : UInt8 := if 0x41 ≤ c ∧ c ≤ 0x5a then c + 0x20 else c

/-- Whether `strcasecmp` gives 0. -/
def strcasecmp (s t : List UInt8) : Prop := s.map tolower = t.map tolower

instance (s t : List UInt8) : Decidable (strcasecmp s t) := inferInstanceAs (Decidable (_ = _))

def strncpy (s : List UInt8) (n : Nat) : List UInt8 := s.take n ++ List.replicate (n - s.length) 0

def QUIT : List UInt8 := [0x71, 0x75, 0x69, 0x74]

def HISTORY : List UInt8 := [0x68, 0x69, 0x73, 0x74, 0x6f, 0x72, 0x79]

namespace cli_loop

variable (s : cli_loop)

def access (start : Int) (size : Nat) : cli_loop := { s with of_cmd := s.of_cmd ++ [⟨start, size⟩] }

def store (start : Int) (l : List UInt8) : cli_loop :=
  { s.access start l.length with cmd := put s.cmd start l }

def memset (start : Int) (c : UInt8) (n : Nat) : cli_loop :=
  { s.access start n with cmd := fill s.cmd start n c }

/-- The string at `p`. -/
def string (p : Int) : List UInt8 := text 0 s.cmd p (MAX_LINE_LENTH - p).toNat

def read_string (p : Int) : cli_loop := s.access p ((s.string p).length + 1)

def read_history (i : Int) : cli_loop :=
  { s with of_history := s.of_history ++ [(i, ⟨0, (s.history i).length + 1⟩)] }

def write_history (i : Int) (l : List UInt8) : cli_loop :=
  { s with
    history := fun j => if j = i then l else s.history j
    of_history := s.of_history ++ [(i, ⟨0, l.length + 1⟩)] }

/-- No echo. -/
def Hidden : Prop := s.state = .STATE_PASSWORD ∨ s.state = .STATE_ENABLE_PASSWORD

instance : Decidable s.Hidden := inferInstanceAs (Decidable (_ ∨ _))

/-! ### The history -/

/-- No entry is free: the first one goes. -/
def drop_history : Nat → Int → cli_loop → cli_loop
  | 0, _, s => s
  | n + 1, i, s => drop_history n (i + 1) ((s.read_history (i + 1)).write_history i (s.history (i + 1)))

/-- The search for a free entry, of which there are so many left. -/
def add_history (line : List UInt8) : Nat → Int → cli_loop → cli_loop
  | 0, _, s =>
    let s := { s with
      history := fun j => if j = 0 then [] else s.history j
      of_history := s.of_history ++ [(0, ⟨0, MAX_LINE_LENTH⟩)] }
    (drop_history (MAX_HISTORY - 1) 0 s).write_history (MAX_HISTORY - 1 : Nat) line
  | n + 1, i, s =>
    let s := s.read_history i
    if s.history i = [] then
      if i = 0 then s.write_history i line
      else
        let s := s.read_history (i - 1)
        if ¬ strcasecmp (s.history (i - 1)) line then s.write_history i line else s
    else add_history line n (i + 1) s

def gw_cli_add_history : cli_loop := add_history (s.string 0) MAX_HISTORY 0 (s.read_string 0)

/-! ### The keys -/

/-- The line is blanked on the screen by way of `cmd`. -/
def gw_cli_clear_line : cli_loop :=
  let n := s.l.toNat
  (((s.memset 0 0x08 n).memset 0 0x20 n).memset 0 0x08 n).memset 0 0 n

/-- How far the cursor goes back over such bytes. -/
def skip_back (P : UInt8 → Bool) : Nat → cli_loop → cli_loop × Nat
  | 0, s => (s, 0)
  | nc + 1, s =>
    let s := s.access nc 1
    if P (s.cmd nc) then skip_back P nc s else (s, nc + 1)

/-- From the cursor to the end of the line, each byte takes the place of the one in front of it. -/
def move_left : cli_loop :=
  let n := (s.l - s.cursor + 1).toNat
  { (s.access (s.cursor + 1) n).access s.cursor n with cmd := shiftDown s.cmd s.cursor n }

/-- Everything from the cursor on moves one character to the right. -/
def move_right : cli_loop :=
  let n := (s.l - s.cursor + 1).toNat
  { (s.access s.cursor n).access (s.cursor + 1) n with cmd := shiftUp s.cmd s.l n }

/-- One turn of the loop of the deletions. -/
def delete : cli_loop :=
  let cursor := s.cursor - 1
  if s.l = s.cursor then { s.store cursor [0] with cursor, l := s.l - 1 }
  else
    let s := { s with cursor }.move_left
    { s.read_string cursor with l := s.l - 1 }

def deletes : Nat → cli_loop → cli_loop
  | 0, s => s
  | back + 1, s => deletes back s.delete

/-- The blanks in front of the cursor, and the word in front of them. -/
def delete_word : cli_loop :=
  let (s, nc) := skip_back (fun c => c = 0x20) s.cursor.toNat s
  let (s, nc) := skip_back (fun c => c ≠ 0x20) nc s
  deletes (s.cursor.toNat - nc) s

def clear_line : cli_loop :=
  if s.Hidden then { s.memset 0 0 s.l.toNat with l := 0, cursor := 0 }
  else { s.gw_cli_clear_line with l := 0, cursor := 0 }

def eot : cli_loop × Bool :=
  if s.Hidden then (s, true)
  else if s.l ≠ 0 then (s, false)
  else ({ s.store 0 (QUIT ++ [0]) with l := QUIT.length, cursor := QUIT.length }, true)

/-- Back to the first mode. -/
def disable : cli_loop :=
  if s.mode ≠ MODE_EXEC then { s.gw_cli_clear_line with mode := MODE_EXEC, showprompt := true } else s

def kill : cli_loop :=
  if s.cursor = s.l then s else { s.memset s.cursor 0 (s.l - s.cursor).toNat with l := s.cursor }

/-- The bytes of a line or of a name, as the commands have them. -/
def chars (l : List UInt8) : List Char := l.map fun c => Char.ofNat c.toNat

def bytes (name : List Char) : List UInt8 := (name.map Char.toUInt8).takeWhile fun c => c ≠ 0

def gw_cli_get_completions (max_completions : Nat) : List (List UInt8) :=
  match line_words (chars (s.string 0)) with
  | none => []
  | some (front, last) =>
    (complete s.privilege s.mode s.commands front last max_completions).completions.map fun k =>
      bytes k.1.entry.command

/-- The only completion takes the place of what is behind the last blank or bar. -/
def complete_with (name : List UInt8) : cli_loop :=
  let (s, start) := skip_back (fun c => c ≠ 0x20 ∧ c ≠ 0x7c) s.l.toNat s
  let s := s.store start (name ++ [0])
  let l : Int := start + name.length
  { s.store l [0x20] with l := l + 1, cursor := l + 1 }

def completion (c : UInt8) : cli_loop :=
  if s.state = .STATE_LOGIN ∨ s.Hidden then s
  else if s.cursor ≠ s.l then s
  else
    match s.gw_cli_get_completions MAX_WORDS_NUM with
    | [] => s.read_string 0
    | [name] => (s.read_string 0).complete_with name
    | _ =>
      let s := s.read_string 0
      if s.lastchar = CTRL 'I' then { s with showprompt := true } else { s with lastchar := c }

/-- The last entry that is there, of so many. -/
def last_history : Nat → cli_loop → cli_loop
  | 0, s => { s with in_history := -1 }
  | n + 1, s =>
    let s := s.read_history n
    if s.history n ≠ [] then { s with in_history := n } else last_history n s

def up : cli_loop :=
  let s := { s with in_history := s.in_history - 1 }
  if s.in_history < 0 then last_history MAX_HISTORY s else s.read_history s.in_history

/-- An entry of the history is never `NULL`. -/
def down : cli_loop :=
  let s := { s with in_history := s.in_history + 1 }
  if (MAX_HISTORY : Int) ≤ s.in_history then { s with in_history := 0 }
  else
    let s := s.read_history s.in_history
    if s.history s.in_history = [] then { s with in_history := 0 } else s

def show_history (entry : List UInt8) : cli_loop :=
  let s := (s.gw_cli_clear_line.memset 0 0 MAX_LINE_LENTH).store 0 (strncpy entry (MAX_LINE_LENTH - 1))
  { s.read_string 0 with l := (s.string 0).length, cursor := (s.string 0).length }

def recall_history : cli_loop :=
  if s.in_history < 0 then s
  else
    let s := s.read_history s.in_history
    if s.history s.in_history = [] then s else s.show_history (s.history s.in_history)

def left : cli_loop := if s.cursor ≠ 0 then { s with cursor := s.cursor - 1 } else s

def right : cli_loop :=
  if s.cursor < s.l then
    let s := if s.Hidden then s else s.access s.cursor 1
    { s with cursor := s.cursor + 1 }
  else s

def start_of_line : cli_loop := { s with cursor := 0 }

def end_of_line : cli_loop :=
  if s.cursor < s.l then
    let s := if s.Hidden then s else s.access s.cursor (s.l - s.cursor).toNat
    { s with cursor := s.l }
  else s

/-- At the end of the line; `false` when there is no room for the byte. -/
def append (c : UInt8) : cli_loop × Bool :=
  let s := if s.cursor < 0 ∨ MAX_LINE_LENTH - 1 < s.cursor then { s with cursor := 0, l := 0 } else s
  let s := s.store s.cursor [c]
  if s.l < (MAX_LINE_LENTH - 1 : Nat) then ({ s with l := s.l + 1, cursor := s.cursor + 1 }, true)
  else (s.store (MAX_LINE_LENTH - 1 : Nat) [0], false)

/-- In the middle of the text. -/
def insert (c : UInt8) : cli_loop :=
  let s := if (MAX_LINE_LENTH - 2 : Nat) ≤ s.l then { s with l := s.l - 1 } else s
  let s := s.move_right.store s.cursor [c]
  { s.access s.cursor (s.l - s.cursor + 1).toNat with l := s.l + 1, cursor := s.cursor + 1 }

/-- The byte is in the line. A question mark at its end ends it, and is not in the next one. -/
def echo (c : UInt8) : cli_loop × Bool :=
  if ¬ s.Hidden ∧ c = 0x3f ∧ s.cursor = s.l then
    ({ s with oldl := some (s.l - 1), cursor := s.l - 1 }, true)
  else ({ s with oldl := none, lastchar := c }, false)

def normal (c : UInt8) : cli_loop × Bool :=
  if s.cursor = s.l then
    let (s, room) := s.append c
    if room then s.echo c else (s, false)
  else (s.insert c).echo c

end cli_loop

/-- What the loop tells a byte for. -/
inductive Key where
  | nothing
  | newline
  | escape
  | bell
  | word
  | char
  | redraw
  | clear_line
  | kill
  | eot
  | disable
  | completion
  | up
  | down
  | left
  | right
  | start_of_line
  | end_of_line
  | normal
  deriving DecidableEq

def Key.of (c : UInt8) : Key :=
  if c = 0 ∨ c = 0x0a then .nothing
  else if c = 0x0d then .newline
  else if c = 27 then .escape
  else if c = CTRL 'C' then .bell
  else if c = CTRL 'W' then .word
  else if c = CTRL 'H' ∨ c = 0x7f then .char
  else if c = CTRL 'L' then .redraw
  else if c = CTRL 'U' then .clear_line
  else if c = CTRL 'K' then .kill
  else if c = CTRL 'D' then .eot
  else if c = CTRL 'Z' then .disable
  else if c = CTRL 'I' then .completion
  else if c = CTRL 'P' then .up
  else if c = CTRL 'N' then .down
  else if c = CTRL 'B' then .left
  else if c = CTRL 'F' then .right
  else if c = CTRL 'A' then .start_of_line
  else if c = CTRL 'E' then .end_of_line
  else .normal

namespace cli_loop

/-- What a key does, and whether the line ends. -/
def key (s : cli_loop) (c : UInt8) : Key → cli_loop × Bool
  | .nothing => (s, false)
  | .newline => (s, true)
  | .escape => ({ s with esc := 1 }, false)
  | .bell => (s, false)
  | .word => (if s.l = 0 ∨ s.cursor = 0 then s else s.delete_word, false)
  | .char => (if s.l = 0 ∨ s.cursor = 0 then s else s.deletes 1, false)
  | .redraw => (if s.Hidden then s else s.access 0 s.l.toNat, false)
  | .clear_line => (s.clear_line, false)
  | .kill => (s.kill, false)
  | .eot => s.eot
  | .disable => (s.disable, false)
  | .completion => (s.completion c, false)
  | .up => (if s.state = .STATE_LOGIN ∨ s.Hidden then s else s.up.recall_history, false)
  | .down => (if s.state = .STATE_LOGIN ∨ s.Hidden then s else s.down.recall_history, false)
  | .left => (s.left, false)
  | .right => (s.right, false)
  | .start_of_line => (s.start_of_line, false)
  | .end_of_line => (s.end_of_line, false)
  | .normal => s.normal c

/-! ### One byte -/

variable (s : cli_loop)

/-- The options of telnet do not come through. -/
def telnet (c : UInt8) : cli_loop × Option UInt8 :=
  let c' := if c = 0x0a then 0x0d else c
  if s.skip ≠ 0 then ({ s with skip := s.skip - 1 }, none)
  else if c = 255 ∧ s.is_telnet_option = 0 then ({ s with is_telnet_option := s.is_telnet_option + 1 }, none)
  else if s.is_telnet_option ≠ 0 then
    if 251 ≤ c ∧ c ≤ 254 then ({ s with is_telnet_option := c.toNat }, none)
    else if c ≠ 255 then ({ s with is_telnet_option := 0 }, none)
    else ({ s with is_telnet_option := 0 }, some c')
  else (s, some c')

def receive (c : UInt8) : cli_loop × Option UInt8 :=
  match s.channel with
  | .CHANNEL_SERIAL => (s, some (if c = 0x0a then 0x0d else c))
  | .CHANNEL_TCP => s.telnet c
  | .CHANNEL_PTY => (s, if 0xfb ≤ c then none else some c)

/-- The arrows are remapped to control codes. -/
def arrows (c : UInt8) : cli_loop × Option UInt8 :=
  if s.esc = 0 then (s, some c)
  else if s.esc = 0x5b then
    let c :=
      if c = 0x41 then CTRL 'P'
      else if c = 0x42 then CTRL 'N'
      else if c = 0x43 then CTRL 'F'
      else if c = 0x44 then CTRL 'B'
      else 0
    ({ s with esc := 0 }, some c)
  else ({ s with esc := if c = 0x5b then c else 0 }, none)

def decode (c : UInt8) : cli_loop × Option UInt8 :=
  match s.receive c with
  | (s, none) => (s, none)
  | (s, some c) => s.arrows c

/-- The prompt shows the line. -/
def prompt : cli_loop :=
  if s.showprompt then
    let s := if s.state = .STATE_NORMAL ∨ s.state = .STATE_ENABLE then s.access 0 s.l.toNat else s
    { s with showprompt := false }
  else s

/-- One turn of the loop that reads. -/
def read (c : UInt8) : cli_loop × Bool :=
  match s.prompt.decode c with
  | (s, none) => (s, false)
  | (s, some c) => s.key c (Key.of c)

/-! ### The end of a line -/

/-- The loop that reads starts again, with the old line when it was for help. -/
def restart : cli_loop :=
  let s := { s with showprompt := true, in_history := 0, lastchar := 0 }
  match s.oldl with
  | some l => { s.store l [0] with l, cursor := l, oldl := none }
  | none => { s.memset 0 0 MAX_LINE_LENTH with l := 0, cursor := 0 }

def leave : cli_loop := { s with session_over := true }

/-- `username` is cleared before the line goes there. -/
def login : cli_loop :=
  let s := s.read_string 0
  { s with
    username := s.string 0
    of_username := s.of_username ++ [⟨0, USERNAME⟩, ⟨0, (s.string 0).length + 1⟩]
    state := .STATE_PASSWORD }

def run_command (o : Outcome) : cli_loop :=
  let s := s.access (s.l - 1) 1
  let s :=
    if s.cmd (s.l - 1) ≠ 0x3f then
      let s := s.read_string 0
      if ¬ strcasecmp (s.string 0) HISTORY then s.gw_cli_add_history else s
    else s
  let s := { s.read_string 0 with state := o.state, mode := o.mode, privilege := o.privilege }
  if o.quits then s.leave else s.restart

/-- What becomes of a line. The comparison with `quit` looks at five bytes at most. -/
def finish (o : Outcome) : cli_loop :=
  if s.l < 0 then s.leave
  else
    let s := s.access 0 (min ((s.string 0).length + 1) (QUIT.length + 1))
    if strcasecmp (s.string 0) QUIT ∧ (s.channel = .CHANNEL_TCP ∨ s.channel = .CHANNEL_PTY) then s.leave
    else
      match s.state with
      | .STATE_LOGIN => if s.l = 0 then s.restart else s.login.restart
      | .STATE_PASSWORD =>
        let s := s.read_string 0
        { s with state := if o.allowed then .STATE_NORMAL else .STATE_LOGIN }.restart
      | .STATE_ENABLE_PASSWORD =>
        let s := s.read_string 0
        if o.allowed then { s with state := .STATE_ENABLE, privilege := PRIVILEGE_PRIVILEGED }.restart
        else { s with state := .STATE_NORMAL }.restart
      | .STATE_NORMAL | .STATE_ENABLE => if s.l = 0 then s.restart else s.run_command o

def event : Event → cli_loop
  | .byte c o => if s.session_over then s else if (s.read c).2 then (s.read c).1.finish o else (s.read c).1
  | .idle => if s.session_over then s else s.prompt
  | .timeout o =>
    if s.session_over then s
    else if s.channel = .CHANNEL_TCP then (s.prompt.store 0 (strncpy QUIT (MAX_LINE_LENTH - 1))).finish o
    else s.prompt
  | .lost =>
    if s.session_over then s
    else if s.channel = .CHANNEL_PTY then s.prompt
    else { s.prompt with l := -1 }.leave

end cli_loop

/-! ## The law -/

/-- What a session finds when its loop starts, whatever it is. The strings of the history end. -/
structure Start where
  channel : Channel
  state : cli_states
  mode : Int
  privilege : Int
  commands : cli_command
  history : Int → List UInt8
  around : Int → UInt8
  ends : ∀ i, (history i).length < MAX_LINE_LENTH ∧ 0 ∉ history i

def Start.loop (start : Start) : cli_loop where
  channel := start.channel
  state := start.state
  mode := start.mode
  privilege := start.privilege
  commands := start.commands
  history := start.history
  showprompt := true
  cmd := fill start.around 0 MAX_LINE_LENTH 0
  l := 0
  cursor := 0
  oldl := none
  username := []
  esc := 0
  in_history := 0
  lastchar := 0
  skip := 0
  is_telnet_option := 0
  session_over := false
  of_cmd := []
  of_username := []
  of_history := []

namespace cli_loop

/-- The cursor is in the line, the line in the array, and its length is the one that is kept. -/
structure Consistent (s : cli_loop) : Prop where
  cursor_nonneg : 0 ≤ s.cursor
  cursor_le : s.cursor ≤ s.l
  l_le : s.l ≤ (MAX_LINE_LENTH - 1 : Nat)
  strlen : (s.string 0).length = s.l

/-- The bytes that were read and written are those of the arrays. -/
def Inside (s : cli_loop) : Prop :=
  (∀ x ∈ s.of_cmd, x.Inside MAX_LINE_LENTH) ∧ (∀ x ∈ s.of_username, x.Inside USERNAME) ∧
    ∀ x ∈ s.of_history, 0 ≤ x.1 ∧ x.1 < MAX_HISTORY ∧ x.2.Inside MAX_LINE_LENTH

structure Kept (s : cli_loop) : Prop where
  line : s.session_over = false → s.Consistent
  inside : s.Inside

/-- The line is consistent when a byte has done what it does, and when the next one is waited for. -/
structure StepKept (s : cli_loop) (e : Event) : Prop where
  handled : ∀ c o, e = .byte c o → s.session_over = false → (s.read c).1.Kept
  next : (s.event e).Kept

/-- The law of the line editor. -/
def KeepsItsLine (start : Start) (events : List Event) : Prop :=
  start.loop.Kept ∧ Along event StepKept start.loop events

/-! ## What the keys need -/

/-- There is a byte of the array behind the end of the line, when the rest of it moves up. -/
def DeletionFits (s : cli_loop) : Prop := s.cursor = 0 ∨ s.cursor = s.l ∨ s.l < (MAX_LINE_LENTH - 1 : Nat)

instance (s : cli_loop) : Decidable s.DeletionFits := inferInstanceAs (Decidable (_ ∨ _ ∨ _))

/-- The only completion does not end in front of the text that it takes the place of, or where there
is no room for a blank and a NUL behind it. -/
def CompletionFits (s : cli_loop) : Prop :=
  ∀ name, ¬ (s.state = .STATE_LOGIN ∨ s.Hidden) → s.cursor = s.l → s.gw_cli_get_completions MAX_WORDS_NUM = [name] →
    let start := ((s.string 0).rdropWhile fun c => c ≠ 0x20 ∧ c ≠ 0x7c).length
    s.l ≤ start + name.length + 1 ∧ start + name.length + 1 < MAX_LINE_LENTH

/-- A byte in the middle of the text moves the rest on, and a question mark that ends a user name
is part of it. -/
def NormalFits (s : cli_loop) (c : UInt8) : Prop :=
  (s.cursor ≠ s.l → s.l < (MAX_LINE_LENTH - 2 : Nat)) ∧
    (s.state = .STATE_LOGIN → c = 0x3f → s.cursor = s.l → s.l < (USERNAME - 1 : Nat) ∨ s.l = (MAX_LINE_LENTH - 1 : Nat))

instance (s : cli_loop) (c : UInt8) : Decidable (s.NormalFits c) := inferInstanceAs (Decidable (_ ∧ _))

def KeyFits (s : cli_loop) (c : UInt8) : Key → Prop
  | .newline => s.state = .STATE_LOGIN → s.l < USERNAME
  | .word | .char => s.DeletionFits
  | .disable => s.mode = MODE_EXEC ∨ s.l = 0
  | .completion => s.CompletionFits
  | .normal => s.NormalFits c
  | _ => True

/-- The byte comes through as a key that fits, if it comes through. -/
def Fits (s : cli_loop) : Event → Prop
  | .byte c _ => s.session_over = false → ∀ k ∈ (s.prompt.decode c).2, (s.prompt.decode c).1.KeyFits k (Key.of k)
  | _ => True

end cli_loop

end gwdonu.line_editor
