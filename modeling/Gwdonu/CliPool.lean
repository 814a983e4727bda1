-- The table of the commands: records that name each other, of which a registration takes a free one
-- and a removal frees those of a whole command. What it holds is the tree of the commands.
import Gwdonu.CliCommands
import Gwdonu.Lib.Forest
import Gwdonu.Lib.Runs
import Mathlib.Data.List.Range

namespace gwdonu.cli_pool

open Function gwdonu.cli_parser forests runs

/-! ## The program -/

/-- A record of `gw_cli_command`. The name of a free one, which is `NULL`, stands as the empty one. -/
structure Record where
  usage : Bool
  entry : Entry
  unique_len : Nat
  next : Option Nat
  children : Option Nat
  parent : Option Nat
  deriving DecidableEq

/-- The record after `memset`. -/
def zero : Record := ⟨false, ⟨[], none, 0, 0⟩, 0, none, none, none⟩

structure Pool where
  gw_cli_command : Nat → Record
  cmd_root : Option Nat

/-- What `gw_cli_tree_init` starts with. -/
def Pool.init : Pool := ⟨fun _ => zero, none⟩

/-- A walk that takes more turns than there are records does not end. -/
def fuel : Nat := GW_MAX_CLI_COMMAND + 1

namespace Pool

variable (s : Pool)

def set (i : Nat) (c : Record) : Pool := { s with gw_cli_command := update s.gw_cli_command i c }

/-- The loop that ends at the last record of a list. -/
def last : Nat → Option Nat → Option (Option Nat)
  | 0, _ => none
  | _ + 1, none => some none
  | n + 1, some p =>
    match (s.gw_cli_command p).next with
    | none => some (some p)
    | some next => last n (some next)

/-- The loop over `p`, with the `unique_len` of `c`. -/
def longest (c : Nat) : Nat → Option Nat → Nat → Option Nat
  | 0, _, _ => none
  | _ + 1, none, unique_len => some unique_len
  | n + 1, some p, unique_len =>
    let next := (s.gw_cli_command p).next
    if c = p then longest c n next unique_len
    else
      let len := matched (s.gw_cli_command c).entry.command (s.gw_cli_command p).entry.command
      longest c n next (if unique_len < len then len else unique_len)

/-- The loop over `c`, in the list that starts with `commands`. -/
def build (commands : Option Nat) : Nat → Option Nat → Pool → Option Pool
  | 0, _, _ => none
  | _ + 1, none, s => some s
  | n + 1, some c, s => do
    let unique_len ← s.longest c fuel commands 1
    let s := s.set c { s.gw_cli_command c with unique_len }
    let children := (s.gw_cli_command c).children
    let s ← build children n children s
    build commands n (s.gw_cli_command c).next s

def gw_cli_build_shortest (commands : Option Nat) : Option Pool := build commands fuel commands s

/-- `c` goes behind the last record of the list. -/
def chain (first c : Nat) : Option Pool := do
  match ← s.last fuel (some first) with
  | none => some s
  | some p => some (s.set p { s.gw_cli_command p with next := some c })

/-- `c` goes to the children of `parent`, or to the commands of the root. -/
def attach (parent : Option Nat) (c : Nat) : Option Pool :=
  match parent with
  | some parent =>
    match (s.gw_cli_command parent).children with
    | none => some (s.set parent { s.gw_cli_command parent with children := some c })
    | some first => s.chain first c
  | none =>
    match s.cmd_root with
    | none => some { s with cmd_root := some c }
    | some first => s.chain first c

def firstFree : Option Nat := (List.range GW_MAX_CLI_COMMAND).find? fun i => ¬ (s.gw_cli_command i).usage

/-- The record, and `NULL` when there is no name or no free record. -/
def gw_cli_register_command (r : Registration) : Option (Pool × Option Nat) :=
  match r.command with
  | none => some (s, none)
  | some command =>
    match s.firstFree with
    | none => some (s, none)
    | some i => do
      let s := s.set i { s.gw_cli_command i with
        usage := true
        entry := ⟨command, r.callback, r.privilege, r.mode⟩
        next := none
        parent := r.parent }
      let s ← s.attach r.parent i
      let s ← s.gw_cli_build_shortest (r.parent.or s.cmd_root)
      some (s, some i)

/-- The loop of `gw_cli_free_command` over the children, with what it does for each of them. -/
def freeList : Nat → Option Nat → Pool → Option Pool
  | 0, _, _ => none
  | _ + 1, none, s => some s
  | n + 1, some c, s => do
    let p := (s.gw_cli_command c).next
    let s ← freeList n (s.gw_cli_command c).children s
    freeList n p (s.set c zero)

def gw_cli_free_command (cmd : Nat) : Option Pool := do
  let s ← freeList fuel (s.gw_cli_command cmd).children s
  some (s.set cmd zero)

def unregisterLoop (command : List Char) : Nat → Option Nat → Option Nat → Option Pool
  | 0, _, _ => none
  | _ + 1, none, _ => some s
  | n + 1, some c, p =>
    if (s.gw_cli_command c).entry.command = command then
      let next := (s.gw_cli_command c).next
      let s := match p with
        | some p => s.set p { s.gw_cli_command p with next }
        | none => { s with cmd_root := next }
      s.gw_cli_free_command c
    else unregisterLoop command n (s.gw_cli_command c).next (some c)

def gw_cli_unregister_command (command : Option (List Char)) : Option (Pool × Int) :=
  match command with
  | none => some (s, -1)
  | some command => do
    let s ← s.unregisterLoop command fuel s.cmd_root none
    some (s, CLI_OK)

end Pool

/-! ## The calls -/

inductive PoolCall where
  | register (r : Registration)
  | unregister (command : Option (List Char))

inductive Answer where
  | registered (c : Option Nat)
  | unregistered (rc : Int)
  deriving DecidableEq

/-- A call, unless it does not end. -/
def Pool.call (s : Pool) : PoolCall → Option (Pool × Answer)
  | .register r => (s.gw_cli_register_command r).map fun (s, c) => (s, .registered c)
  | .unregister command => (s.gw_cli_unregister_command command).map fun (s, rc) => (s, .unregistered rc)

def Pool.calls : Pool → List PoolCall → Option (Pool × List Answer)
  | s, [] => some (s, [])
  | s, c :: calls => do
    let (s, answer) ← s.call c
    let (s, answers) ← Pool.calls s calls
    some (s, answer :: answers)

/-! ## The tree -/

/-- The indices of the records of a tree. -/
def indices : cli_command → List Nat
  | .NULL => []
  | .record c children next => c.index :: (indices children ++ indices next)

def free_index (t : cli_command) : Option Nat :=
  (List.range GW_MAX_CLI_COMMAND).find? fun i => ¬ i ∈ indices t

def register (t : cli_command) (r : Registration) : cli_command × Option Nat :=
  match r.command with
  | none => (t, none)
  | some command =>
    match free_index t with
    | none => (t, none)
    | some i =>
      let c := r.record command i
      (match r.parent with
        | some parent => put_under parent c t
        | none => gw_cli_build_shortest (append c t),
        some i)

/-- The first command of the name goes, with all that is below it. -/
def remove (command : List Char) : cli_command → cli_command
  | .NULL => .NULL
  | .record c children next =>
    if c.entry.command = command then next else .record c children (remove command next)

def unregister (t : cli_command) : Option (List Char) → cli_command × Int
  | none => (t, -1)
  | some command => (remove command t, CLI_OK)

def call (t : cli_command) : PoolCall → cli_command × Answer
  | .register r => ((register t r).1, .registered (register t r).2)
  | .unregister command => ((unregister t command).1, .unregistered (unregister t command).2)

def calls : cli_command → List PoolCall → cli_command × List Answer
  | t, [] => (t, [])
  | t, c :: cs => ((calls (call t c).1 cs).1, (call t c).2 :: (calls (call t c).1 cs).2)

/-! ## The law -/

/-- A registration names a parent that is there. -/
def ParentLives (t : cli_command) : PoolCall → Prop
  | .register r => ∀ parent ∈ r.parent, parent ∈ indices t
  | .unregister _ => True

instance (t : cli_command) : (c : PoolCall) → Decidable (ParentLives t c)
  | .register _ => inferInstanceAs (Decidable (∀ _ ∈ _, _))
  | .unregister _ => inferInstanceAs (Decidable True)

/-- A tree as it is in memory, with some of the data of each record. -/
def shape {β : Type} (f : Fields → β) : cli_command → Forest Nat β
  | .NULL => .nil
  | .record c children next => .node c.index (f c) (shape f children) (shape f next)

def Pool.links {β : Type} (s : Pool) (f : Record → β) : Links Nat β where
  next i := (s.gw_cli_command i).next
  child i := (s.gw_cli_command i).children
  parent i := (s.gw_cli_command i).parent
  data i := f (s.gw_cli_command i)

/-- The table holds the tree: the records that are used are those of the tree, all others are zero. -/
structure Pool.Represents (s : Pool) (t : cli_command) : Prop where
  holds : Holds (s.links fun c => (c.entry, c.unique_len)) none s.cmd_root (shape (fun c => (c.entry, c.unique_len)) t)
  distinct : (indices t).Nodup
  within : ∀ i ∈ indices t, i < GW_MAX_CLI_COMMAND
  busy : ∀ i ∈ indices t, (s.gw_cli_command i).usage = true
  free : ∀ i, i ∉ indices t → s.gw_cli_command i = zero

end gwdonu.cli_pool
