-- The commands of the CLI: a registration appends a record to the children of its parent and
-- counts again how much of a name is unique, and a line is looked up word by word.
import Mathlib.Data.List.Basic

namespace gwdonu.cli_parser

/-! ## The records -/

def MODE_ANY : Int := -1
def MODE_CONFIG : Int := 1
def GW_MAX_CLI_COMMAND : Nat := 256
def CLI_OK : Int := 0
def CLI_ERROR : Int := -1
def CLI_ERROR_ARG : Int := -3

/-- What a record is registered with; `callback` is nothing when it is `NULL`. -/
structure Entry where
  command : List Char
  callback : Option Nat
  privilege : Int
  mode : Int
  deriving DecidableEq

/-- `index` is the one in `gw_cli_command`. -/
structure Fields where
  index : Nat
  entry : Entry
  unique_len : Nat
  deriving DecidableEq

/-- A pointer to a record, with the records behind it. -/
inductive cli_command where
  | NULL
  | record (c : Fields) (children next : cli_command)
  deriving DecidableEq

/-- The records that are registered, and the root of the commands. -/
structure Commands where
  used : Nat
  cmd_root : cli_command

def Commands.init : Commands := ⟨0, .NULL⟩

/-! ## The registration -/

/-- `len` when two names have been compared: one more than the characters they start with. -/
def matched : List Char → List Char → Nat
  | a :: cp, b :: pp => if a = b then matched cp pp + 1 else 1
  | _, _ => 1

/-- The loop over `p`, with the `unique_len` of `c`. -/
def longest (c : Fields) : cli_command → Nat → Nat
  | .NULL, unique_len => unique_len
  | .record p _ next, unique_len =>
    if c.index = p.index then longest c next unique_len
    else
      let len := matched c.entry.command p.entry.command
      longest c next (if unique_len < len then len else unique_len)

/-- The loop over `c`, in the list that starts with `commands`. -/
def build (commands : cli_command) : cli_command → cli_command
  | .NULL => .NULL
  | .record c children next =>
    .record { c with unique_len := longest c commands 1 } (build children children) (build commands next)

def gw_cli_build_shortest (commands : cli_command) : cli_command := build commands commands

def append (c : cli_command) : cli_command → cli_command
  | .NULL => c
  | .record p children next => .record p children (append c next)

/-- The record is put under `parent`, and the lengths are counted from `parent` on. -/
def put_under (parent : Nat) (c : cli_command) : cli_command → cli_command
  | .NULL => .NULL
  | .record p children next =>
    if p.index = parent then gw_cli_build_shortest (.record p (append c children) next)
    else .record p (put_under parent c children) (put_under parent c next)

/-- `parent` is one that a call has given, or nothing; `command` is nothing when it is `NULL`. -/
structure Registration where
  parent : Option Nat
  command : Option (List Char)
  callback : Option Nat
  privilege : Int
  mode : Int

/-- The new record, with `unique_len` still to be counted. -/
def Registration.record (r : Registration) (command : List Char) (index : Nat) : cli_command :=
  .record ⟨index, ⟨command, r.callback, r.privilege, r.mode⟩, 0⟩ .NULL .NULL

/-- The first free record is behind those that are used. -/
def gw_cli_register_command (s : Commands) (r : Registration) : Commands × Option Nat :=
  match r.command with
  | none => (s, none)
  | some command =>
    if s.used = GW_MAX_CLI_COMMAND then (s, none)
    else
      let c := r.record command s.used
      let cmd_root := match r.parent with
        | some parent => put_under parent c s.cmd_root
        | none => gw_cli_build_shortest (append c s.cmd_root)
      (⟨s.used + 1, cmd_root⟩, some s.used)

def register_all (s : Commands) (rs : List Registration) : Commands :=
  rs.foldl (fun s r => (gw_cli_register_command s r).1) s

/-! ## The look-up -/

def lower (name : List Char) : List Char := name.map Char.toLower

/-- Whether `strncasecmp` gives 0. -/
def strncasecmp (s t : List Char) (n : Nat) : Prop := (lower s).take n = (lower t).take n

instance (s t : List Char) (n : Nat) : Decidable (strncasecmp s t n) := inferInstanceAs (Decidable (_ = _))

/-- The two tests of a name. -/
def Passes (c : Fields) (word : List Char) : Prop :=
  strncasecmp c.entry.command word c.unique_len ∧ strncasecmp c.entry.command word word.length

instance (c : Fields) (word : List Char) : Decidable (Passes c word) := inferInstanceAs (Decidable (_ ∧ _))

/-- A call of a callback: the names from the root, and the words behind the command. -/
structure Call where
  callback : Nat
  name : List (List Char)
  argv : List (List Char)
  mode : Int
  deriving DecidableEq

/-- What a line has done: the calls, the mode it leaves, and the value that is returned. -/
structure Ran where
  calls : List Call
  mode : Int
  rc : Int
  deriving DecidableEq

section
variable (answer : List Call → Int) (privilege : Int)

/-- The callback gives what `answer` says after the calls of the line so far. -/
def Ran.call (r : Ran) (callback : Nat) (name argv : List (List Char)) : Ran :=
  let calls := r.calls ++ [⟨callback, name, argv, r.mode⟩]
  ⟨calls, r.mode, answer calls⟩

/-- What comes before the loop: no word, and a word that asks for help. -/
def enter (words : List (List Char)) (mode : Int) (loop : List Char → List (List Char) → Ran) : Ran :=
  match words with
  | [] => ⟨[], mode, CLI_ERROR⟩
  | word :: rest => if word.getLast? = some '?' then ⟨[], mode, CLI_OK⟩ else loop word rest

/-- A command of the right mode is found; `below` is the look-up among its children. -/
def found (c : Fields) (children : cli_command) (name rest : List (List Char)) (mode : Int) (below : Ran) : Ran :=
  if children = .NULL ∨ rest = [] then
    match c.entry.callback with
    | none => ⟨[], mode, CLI_ERROR⟩
    | some callback => Ran.call answer ⟨[], mode, CLI_OK⟩ callback name rest
  else if below.rc = CLI_ERROR_ARG then
    match c.entry.callback with
    | none => below
    | some callback => below.call answer callback name rest
  else below

/-- The loop over the commands of a list. `again` is what the command of `MODE_CONFIG` does
that is remembered. -/
def search : cli_command → List (List Char) → Int → List Char → List (List Char) → Option Ran → Ran
  | .NULL, _, mode, _, _, again => again.getD ⟨[], mode, CLI_ERROR_ARG⟩
  | .record c children next, name, mode, word, rest, again =>
    let run (mode : Int) : Ran :=
      let name := name ++ [c.entry.command]
      found answer c children name rest mode
        (enter rest mode fun word rest => search children name mode word rest none)
    if privilege < c.entry.privilege ∨ ¬ Passes c word then search next name mode word rest again
    else if c.entry.mode = mode ∨ c.entry.mode = MODE_ANY then run mode
    else if MODE_CONFIG < mode ∧ c.entry.mode = MODE_CONFIG then
      search next name mode word rest (some (run MODE_CONFIG))
    else search next name mode word rest again

def gw_cli_find_command (commands : cli_command) (name : List (List Char)) (mode : Int)
    (words : List (List Char)) : Ran :=
  enter words mode fun word rest => search answer privilege commands name mode word rest none

end

end gwdonu.cli_parser
