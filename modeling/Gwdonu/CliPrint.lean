-- What the CLI prints: a text is put behind what is pending in the buffer, and cut into lines
-- there. Which lines come out, and how far the printing reads and writes.
import Gwdonu.Lib.Cells
import Gwdonu.Lib.Lines
import Gwdonu.Lib.Runs

namespace gwdonu.cli_print

open cells lines runs

/-! ## The program -/

def PRINT_PLAIN : Nat := 0x00
def PRINT_FILTERED : Nat := 0x01
def PRINT_BUFFERED : Nat := 0x02

/-- What `_gw_print` uses of the record. `buffer` has the bytes around it too; `printed` are the
lines that went to the print callback or to the channel. -/
structure cli_def where
  buf_size : Nat
  buffer : Int → UInt8
  printed : List (List UInt8)
  /-- the bytes of `buffer` that were read or written -/
  accessed : List Extent

/-- `text` is what the format gives, or nothing when `vsnprintf` fails, and `filters` say of the
lines, by their number, whether they are printed. -/
structure Call where
  print_mode : Nat
  filters : Nat → List UInt8 → Bool
  text : Option (List UInt8)

namespace cli_def

variable (cli : cli_def)

def access (start : Int) (size : Nat) : cli_def := { cli with accessed := cli.accessed ++ [⟨start, size⟩] }

def store (start : Int) (l : List UInt8) : cli_def :=
  { cli.access start l.length with buffer := put cli.buffer start l }

/-- The string at `p`. -/
def string (p : Nat) : List UInt8 := text 0 cli.buffer p (cli.buf_size - p)

/-- What waits for the end of its line. -/
def pending : List UInt8 := cli.string 0

def emit (line : List UInt8) : cli_def := { cli with printed := cli.printed ++ [line] }

end cli_def

/-- What is written when there are `n` bytes for it. -/
def vsnprintf (n : Nat) (text : List UInt8) : List UInt8 := if n = 0 then [] else text.take (n - 1) ++ [0]

/-- The filters, and what follows them. -/
def print_line (c : Call) (n : Nat) (cli : cli_def) (p : Nat) : cli_def :=
  let line := cli.string p
  let cli := cli.access p (line.length + 1)
  if c.print_mode &&& PRINT_FILTERED ≠ 0 ∧ c.filters n line = false then cli else cli.emit line

/-- The byte in front of the end of a line, that is at `next`. -/
def drop_return (cli : cli_def) (p next : Nat) : cli_def :=
  let d : Int := next - 1
  let cli := cli.access d 1
  if cli.buffer d = 0x0d ∧ d ≠ p then cli.store d [0] else cli

/-- The line ends, and the byte behind it is looked at. Where the next one starts. -/
def end_line (cli : cli_def) (p next : Nat) : cli_def × Nat :=
  let cli := (drop_return cli p next).store next [0]
  let next := next + 1
  let cli := cli.access next 1
  if cli.buffer next = 0x0d then (cli.store next [0], next + 1) else (cli, next)

/-- The loop, for at most so many lines: where it has stopped, which is nowhere behind the last
line. `none` when there are more. -/
def line_loop (c : Call) : Nat → cli_def → Nat → Option (cli_def × Option Nat)
  | 0, _, _ => none
  | n + 1, cli, p =>
    match (cli.string p).findIdx? (· = 0x0a) with
    | some k =>
      let (cli, next) := end_line (cli.access p (k + 1)) p (p + k)
      line_loop c n (print_line c n cli p) next
    | none =>
      let cli := cli.access p ((cli.string p).length + 1)
      if c.print_mode &&& PRINT_BUFFERED ≠ 0 then some (cli, some p) else some (print_line c n cli p, none)

/-- What is left goes to the front of the buffer. -/
def keep (cli : cli_def) : Option Nat → cli_def
  | none => cli.store 0 [0]
  | some p =>
    let cli := cli.access p 1
    if cli.buffer p = 0 then cli.store 0 [0]
    else if p = 0 then cli
    else
      let left := cli.string p
      (cli.access p (left.length + 1)).store 0 left

/-- The buffer ends with a 0 whatever was written. -/
def format (cli : cli_def) (c : Call) : cli_def :=
  let len := cli.pending.length
  let cli := cli.access 0 (len + 1)
  let cli := match c.text with
    | some text => cli.store len (vsnprintf (cli.buf_size - len - 1) text)
    | none => cli
  cli.store (cli.buf_size - 1 : Nat) [0]

/-- `none` when the loop has no end. -/
def _gw_print (cli : cli_def) (c : Call) : Option cli_def :=
  let cli := format cli c
  match c.text with
  | none => some cli
  | some _ => (line_loop c cli.buf_size cli 0).map fun (cli, p) => keep cli p

/-- Without filters. -/
def gw_cli_bufprint (text : List UInt8) : Call := ⟨PRINT_BUFFERED ||| PRINT_FILTERED, fun _ _ => true, some text⟩

def gw_cli_print (filters : Nat → List UInt8 → Bool) (text : Option (List UInt8)) : Call :=
  ⟨PRINT_FILTERED, filters, text⟩

def gw_cli_error (text : Option (List UInt8)) : Call := ⟨PRINT_PLAIN, fun _ _ => true, text⟩

def cli_def.event (cli : cli_def) (c : Call) : cli_def := (_gw_print cli c).getD cli

/-! ## The law -/

/-- A buffer with nothing pending in it, and nothing printed. -/
structure Start where
  buf_size : Nat
  buffer : Int → UInt8
  size_pos : 0 < buf_size
  empty : buffer 0 = 0

def Start.cli (start : Start) : cli_def := ⟨start.buf_size, start.buffer, [], []⟩

/-- Nothing outside of the buffer was read or written. -/
def cli_def.Inside (cli : cli_def) : Prop := ∀ x ∈ cli.accessed, x.Inside cli.buf_size

/-- There is no CR and no NUL in the text. -/
def Plain (text : List UInt8) : Prop := 0x0d ∉ text ∧ 0 ∉ text

instance (text : List UInt8) : Decidable (Plain text) := inferInstanceAs (Decidable (_ ∧ _))

/-- The free space of the buffer has room for the text, with the NUL behind it. -/
def cli_def.Fits (cli : cli_def) (text : List UInt8) : Prop := text.length < cli.buf_size - cli.pending.length - 1

instance (cli : cli_def) (text : List UInt8) : Decidable (cli.Fits text) := inferInstanceAs (Decidable (_ < _))

def cli_def.bufprint (cli : cli_def) (text : List UInt8) : cli_def := cli.event (gw_cli_bufprint text)

/-- Every call returns, and stays in the buffer. Of a text that is printed in chunks, the complete
lines come out, and the unfinished one is pending. -/
structure CutsFaithfully (start : Start) (calls : List Call) : Prop where
  returns : Along cli_def.event (fun cli c => (_gw_print cli c).isSome) start.cli calls
  inside : (run cli_def.event start.cli calls).Inside
  lines : ∀ chunks, calls = chunks.map gw_cli_bufprint → (∀ chunk ∈ chunks, Plain chunk) →
    Along cli_def.bufprint cli_def.Fits start.cli chunks →
      (run cli_def.event start.cli calls).printed = whole 0x0a chunks.flatten ∧
        (run cli_def.event start.cli calls).pending = rest 0x0a chunks.flatten

/-- The text starts with a newline, and nothing is pending. -/
def cli_def.StartsEmpty (cli : cli_def) (c : Call) : Prop :=
  cli.pending = [] ∧ 2 < cli.buf_size ∧ ∃ text ∈ c.text, text.head? = some 0x0a

instance (cli : cli_def) (c : Call) : Decidable (cli.StartsEmpty c) := inferInstanceAs (Decidable (_ ∧ _ ∧ _))

/-- The text with what is pending has no complete line, or no unfinished one, or a newline just
as far from its start as the unfinished line is long. -/
def cli_def.Keeps (cli : cli_def) (chunk : List UInt8) : Prop :=
  let text := cli.pending ++ chunk
  whole 0x0a text = [] ∨ rest 0x0a text = [] ∨ text[(rest 0x0a text).length]? = some 0x0a

instance (cli : cli_def) (chunk : List UInt8) : Decidable (cli.Keeps chunk) := inferInstanceAs (Decidable (_ ∨ _ ∨ _))

/-! ## Accesses -/

namespace cli_def

variable {cli : cli_def} {start : Int} {size p : Nat} {l line : List UInt8}

@[simp] theorem buf_size_access : (cli.access start size).buf_size = cli.buf_size := rfl

@[simp] theorem buffer_access : (cli.access start size).buffer = cli.buffer := rfl

@[simp] theorem string_access : (cli.access start size).string p = cli.string p := rfl

@[simp] theorem buffer_store : (cli.store start l).buffer = put cli.buffer start l := rfl

@[simp] theorem buffer_emit : (cli.emit line).buffer = cli.buffer := rfl

@[simp] theorem inside_access : (cli.access start size).Inside ↔
    cli.Inside ∧ Extent.Inside ⟨start, size⟩ cli.buf_size := by
  unfold Inside access
  rw [List.forall_mem_append, List.forall_mem_singleton]

@[simp] theorem inside_store : (cli.store start l).Inside ↔
    cli.Inside ∧ Extent.Inside ⟨start, l.length⟩ cli.buf_size := inside_access

end cli_def

theorem inside_of_le {start size n : Nat} (h : start + size ≤ n) : Extent.Inside ⟨start, size⟩ n := by
  refine .inr ⟨Int.natCast_nonneg start, ?_⟩
  dsimp only
  omega

/-! ## One line -/

/-- The loop is at `p`: the buffer ends with a 0, and there is no newline in front of `p`. -/
structure cli_def.Looping (cli : cli_def) (p : Nat) : Prop where
  last : cli.buffer (cli.buf_size - 1 : Nat) = 0
  pos : p < cli.buf_size
  clean : ∀ i : Nat, i < p → cli.buffer i ≠ 0x0a

variable {cli : cli_def} {c : Call} {n p k : Nat} {s : List UInt8}

theorem string_holds (hlast : cli.buffer (cli.buf_size - 1 : Nat) = 0) (hpos : p < cli.buf_size) :
    Holds 0 cli.buffer p (cli.string p) ∧ p + (cli.string p).length < cli.buf_size := by
  have hzero : cli.buffer ((p : Int) + (cli.buf_size - 1 - p : Nat)) = 0 := by
    rw [show (p : Int) + (cli.buf_size - 1 - p : Nat) = (cli.buf_size - 1 : Nat) by omega]
    exact hlast
  obtain ⟨hholds, hlen⟩ := holds_text (n := cli.buf_size - p) (by omega) hzero
  exact ⟨hholds, by unfold cli_def.string; omega⟩

/-- Some bytes were made 0. -/
structure Zeroed (cli cli' : cli_def) : Prop where
  buf_size : cli'.buf_size = cli.buf_size
  buffer : ∀ i, cli'.buffer i = cli.buffer i ∨ cli'.buffer i = 0

theorem Zeroed.trans {a b c : cli_def} (h : Zeroed a b) (h' : Zeroed b c) : Zeroed a c := by
  refine ⟨h'.buf_size.trans h.buf_size, fun i => ?_⟩
  rcases h'.buffer i with heq | hzero
  · rw [heq]
    exact h.buffer i
  · exact .inr hzero

theorem Zeroed.zero {cli' : cli_def} (h : Zeroed cli cli') {i : Int} (hi : cli.buffer i = 0) : cli'.buffer i = 0 :=
  (h.buffer i).elim (fun heq => heq.trans hi) id

theorem Zeroed.clean {cli' : cli_def} (h : Zeroed cli cli') {i : Int} (hi : cli.buffer i ≠ 0x0a) :
    cli'.buffer i ≠ 0x0a := by
  rcases h.buffer i with heq | hzero
  · rw [heq]
    exact hi
  · rw [hzero]
    decide

theorem zeroed_access (start : Int) (size : Nat) : Zeroed cli (cli.access start size) := ⟨rfl, fun _ => .inl rfl⟩

theorem zeroed_store (j : Int) : Zeroed cli (cli.store j [0]) := by
  refine ⟨rfl, fun i => ?_⟩
  rw [cli_def.buffer_store, put_one]
  split
  · exact .inr rfl
  · exact .inl rfl

theorem store_zero (j : Int) : (cli.store j [0]).buffer j = 0 := by
  rw [cli_def.buffer_store, put_one, if_pos rfl]

/-- Only a line that ends where the buffer starts has no byte in front of its end. -/
theorem drop_return_spec {next : Nat} (hnext : next < cli.buf_size) : Zeroed cli (drop_return cli p next) ∧
    ((drop_return cli p next).Inside ↔ cli.Inside ∧ next ≠ 0) := by
  have hbyte : Extent.Inside ⟨(next : Int) - 1, 1⟩ cli.buf_size ↔ next ≠ 0 := by
    unfold Extent.Inside
    dsimp only
    omega
  unfold drop_return
  dsimp only
  split
  · refine ⟨(zeroed_access _ _).trans (zeroed_store _), ?_⟩
    rw [cli_def.inside_store, cli_def.inside_access]
    exact ⟨fun h => ⟨h.1.1, hbyte.mp h.1.2⟩, fun h => ⟨⟨h.1, hbyte.mpr h.2⟩, hbyte.mpr h.2⟩⟩
  · exact ⟨zeroed_access _ _, by rw [cli_def.inside_access, hbyte]⟩

/-- What the end of a line leaves: the loop goes on behind it. -/
theorem end_line_spec {next : Nat} (hlast : cli.buffer (cli.buf_size - 1 : Nat) = 0) (hnext : next + 1 < cli.buf_size)
    (hclean : ∀ i : Nat, i < next → cli.buffer i ≠ 0x0a) :
    (end_line cli p next).1.Looping (end_line cli p next).2 ∧ next < (end_line cli p next).2 ∧
      Zeroed cli (end_line cli p next).1 ∧ ((end_line cli p next).1.Inside ↔ cli.Inside ∧ next ≠ 0) := by
  obtain ⟨hdropped, hinside⟩ := @drop_return_spec cli p next (by omega)
  unfold end_line
  dsimp only
  generalize hended : (drop_return cli p next).store next [0] = ended
  have hzeroed : Zeroed cli ended := hended ▸ hdropped.trans (zeroed_store _)
  have hin : ended.Inside ↔ cli.Inside ∧ next ≠ 0 := by
    rw [← hended, cli_def.inside_store, hinside, hdropped.buf_size]
    exact and_iff_left (inside_of_le (by rw [List.length_singleton]; omega))
  have hclean' : ∀ i : Nat, i < next + 1 → ended.buffer i ≠ 0x0a := by
    intro i hi
    rcases Nat.lt_or_eq_of_le (Nat.le_of_lt_succ hi) with hlt | rfl
    · exact hzeroed.clean (hclean i hlt)
    · rw [← hended, store_zero]
      decide
  have hnextin : Extent.Inside ⟨((next + 1 : Nat) : Int), 1⟩ ended.buf_size :=
    inside_of_le (by rw [hzeroed.buf_size]; omega)
  rw [cli_def.buffer_access]
  split
  · rename_i hreturn
    -- the last byte is 0, and this one is not
    have hne : next + 1 ≠ cli.buf_size - 1 := by
      intro heq
      rw [heq, hzeroed.zero hlast] at hreturn
      exact absurd hreturn (by decide)
    have hall : Zeroed cli ((ended.access (next + 1 : Nat) 1).store (next + 1 : Nat) [0]) :=
      (hzeroed.trans (zeroed_access _ _)).trans (zeroed_store _)
    refine ⟨⟨?_, ?_, ?_⟩, by dsimp only; omega, hall, ?_⟩
    · dsimp only
      rw [hall.buf_size]
      exact hall.zero hlast
    · dsimp only
      rw [hall.buf_size]
      omega
    · intro i hi
      rcases Nat.lt_or_eq_of_le (Nat.le_of_lt_succ hi) with hlt | rfl
      · exact (zeroed_store _).clean (hclean' i hlt)
      · rw [store_zero]
        decide
    · rw [cli_def.inside_store, cli_def.inside_access, hin]
      exact ⟨fun h => h.1.1, fun h => ⟨⟨h, hnextin⟩, hnextin⟩⟩
  · have hall : Zeroed cli (ended.access (next + 1 : Nat) 1) := hzeroed.trans (zeroed_access _ _)
    refine ⟨⟨?_, ?_, hclean'⟩, Nat.lt_succ_self _, hall, ?_⟩
    · dsimp only
      rw [hall.buf_size]
      exact hall.zero hlast
    · dsimp only
      rw [hall.buf_size]
      exact hnext
    · rw [cli_def.inside_access, hin]
      exact and_iff_left hnextin

/-! ## The loop -/

theorem print_line_spec (hin : p + (cli.string p).length < cli.buf_size) : Zeroed cli (print_line c n cli p) ∧
    ((print_line c n cli p).Inside ↔ cli.Inside) ∧ (print_line c n cli p).buffer = cli.buffer := by
  have haccess : (cli.access p ((cli.string p).length + 1)).Inside ↔ cli.Inside := by
    rw [cli_def.inside_access]
    exact and_iff_left (inside_of_le hin)
  unfold print_line
  dsimp only
  split
  · exact ⟨zeroed_access _ _, haccess, rfl⟩
  · exact ⟨⟨rfl, fun _ => .inl rfl⟩, haccess, rfl⟩

/-- The first newline behind `p` is the first one of the buffer. -/
theorem cli_def.Looping.newline (h : cli.Looping p) (hfind : (cli.string p).findIdx? (· = 0x0a) = some k) :
    p + k + 1 < cli.buf_size ∧ (∀ i : Nat, i < p + k → cli.buffer i ≠ 0x0a) ∧
      (p = 0 ∧ cli.buffer p = 0x0a ↔ p + k = 0) := by
  obtain ⟨hholds, hlen⟩ := string_holds h.last h.pos
  obtain ⟨hk, hnewline, hfirst⟩ := List.findIdx?_eq_some_iff_getElem.mp hfind
  have hget {j : Nat} (hj : j < (cli.string p).length) : cli.buffer ((p + j : Nat) : Int) = (cli.string p)[j] := by
    rw [Int.natCast_add, hholds.get hj]
  have hclean : ∀ i : Nat, i < p + k → cli.buffer i ≠ 0x0a := by
    intro i hi
    by_cases hip : i < p
    · exact h.clean i hip
    · obtain ⟨j, rfl⟩ := Nat.exists_eq_add_of_le (Nat.le_of_not_lt hip)
      rw [hget (by omega)]
      simpa using hfirst j (by omega)
  refine ⟨by omega, hclean, ?_⟩
  constructor
  · rintro ⟨rfl, hbegins⟩
    by_contra hne
    exact hclean 0 (by omega) hbegins
  · intro h0
    obtain ⟨rfl, rfl⟩ : p = 0 ∧ k = 0 := by omega
    have hzero := hget hk
    simp only [Nat.add_zero] at hzero
    refine ⟨rfl, ?_⟩
    rw [hzero]
    simpa using hnewline

theorem cli_def.Looping.no_newline (h : cli.Looping p) (hfind : (cli.string p).findIdx? (· = 0x0a) = none) :
    0x0a ∉ cli.string p ∧ ¬ (p = 0 ∧ cli.buffer p = 0x0a) := by
  obtain ⟨hholds, -⟩ := string_holds h.last h.pos
  have hnone : (0x0a : UInt8) ∉ cli.string p := by
    intro hmem
    have hall := List.findIdx?_eq_none_iff.mp hfind 0x0a hmem
    simp at hall
  refine ⟨hnone, ?_⟩
  rintro ⟨-, hbegins⟩
  cases hs : cli.string p with
  | nil =>
    rw [hs, holds_nil] at hholds
    rw [hholds] at hbegins
    exact absurd hbegins (by decide)
  | cons a l =>
    rw [hs, holds_cons] at hholds
    exact hnone (hs ▸ hholds.1 ▸ hbegins ▸ List.mem_cons_self)

theorem cli_def.Looping.print_line {next : Nat} (h : cli.Looping next) (hp : p < cli.buf_size) :
    (print_line c n cli p).Looping next := by
  obtain ⟨hprinted, -, hbuffer⟩ := @print_line_spec cli c n p (string_holds h.last hp).2
  refine ⟨?_, ?_, ?_⟩
  · rw [hprinted.buf_size, hbuffer]
    exact h.last
  · rw [hprinted.buf_size]
    exact h.pos
  · rw [hbuffer]
    exact h.clean

/-- Where the loop has stopped, what is left is in the buffer, and has no newline. -/
structure Stopped (cli cli' : cli_def) (q : Option Nat) : Prop where
  zeroed : Zeroed cli cli'
  left : ∀ p ∈ q, cli'.Looping p ∧ 0x0a ∉ cli'.string p

/-- The loop stops, and only a line that ends where the buffer starts takes it outside. -/
theorem line_loop_spec (h : cli.Looping p) (hn : cli.buf_size - p ≤ n) :
    ∃ cli' q, line_loop c n cli p = some (cli', q) ∧ Stopped cli cli' q ∧
      (cli'.Inside ↔ cli.Inside ∧ ¬ (p = 0 ∧ cli.buffer p = 0x0a)) := by
  induction n generalizing cli p with
  | zero =>
    have hpos := h.pos
    omega
  | succ n ih =>
    unfold line_loop
    cases hfind : (cli.string p).findIdx? (· = 0x0a) with
    | some k =>
      obtain ⟨hnext, hclean, hbegins⟩ := h.newline hfind
      have hread : (cli.access p (k + 1)).Inside ↔ cli.Inside := by
        rw [cli_def.inside_access]
        exact and_iff_left (inside_of_le (by omega))
      obtain ⟨hloop, hlt, hzeroed, hin⟩ := @end_line_spec (cli.access p (k + 1)) p (p + k) h.last hnext hclean
      dsimp only
      generalize end_line (cli.access p (k + 1)) p (p + k) = ended at hloop hlt hzeroed hin ⊢
      obtain ⟨cli1, next⟩ := ended
      dsimp only at hloop hlt hzeroed hin ⊢
      have hsize : cli1.buf_size = cli.buf_size := hzeroed.buf_size
      have hp : p < cli1.buf_size := by omega
      obtain ⟨hprinted, hprintedIn, -⟩ := @print_line_spec cli1 c n p (string_holds hloop.last hp).2
      obtain ⟨cli', q, hrun, hstopped, hinside⟩ := ih (hloop.print_line hp) (by rw [hprinted.buf_size]; omega)
      refine ⟨cli', q, hrun, ⟨?_, hstopped.left⟩, ?_⟩
      · exact (((zeroed_access _ _).trans hzeroed).trans hprinted).trans hstopped.zeroed
      · have hbehind : ¬ (next = 0 ∧ (print_line c n cli1 p).buffer next = 0x0a) := fun h => by omega
        rw [hinside, and_iff_left hbehind, hprintedIn, hin, hread, hbegins]
    | none =>
      obtain ⟨hnone, hbegins⟩ := h.no_newline hfind
      obtain ⟨-, hlen⟩ := string_holds h.last h.pos
      have hread : (cli.access p ((cli.string p).length + 1)).Inside ↔ cli.Inside := by
        rw [cli_def.inside_access]
        exact and_iff_left (inside_of_le hlen)
      dsimp only
      split
      · refine ⟨_, _, rfl, ⟨zeroed_access _ _, ?_⟩, ?_⟩
        · rintro q hq
          obtain rfl := Option.some.inj hq
          exact ⟨⟨h.last, h.pos, h.clean⟩, hnone⟩
        · rw [hread]
          exact (and_iff_left hbegins).symm
      · obtain ⟨hprinted, hprintedIn, -⟩ := @print_line_spec (cli.access p ((cli.string p).length + 1)) c n p hlen
        refine ⟨_, _, rfl, ⟨(zeroed_access _ _).trans hprinted, nofun⟩, ?_⟩
        rw [hprintedIn, hread]
        exact (and_iff_left hbegins).symm

/-! ## One call -/

/-- The pending text is one line, which ends in the buffer. -/
def cli_def.Waiting (cli : cli_def) : Prop :=
  ∃ k : Nat, k < cli.buf_size ∧ cli.buffer k = 0 ∧ ∀ i : Nat, i < k → cli.buffer i ≠ 0x0a

theorem waiting_pending (h : cli.Waiting) : Holds 0 cli.buffer 0 cli.pending ∧ cli.pending.length < cli.buf_size ∧
    0x0a ∉ cli.pending := by
  obtain ⟨k, hk, hzero, hclean⟩ := h
  have hzero' : cli.buffer (0 + (k : Int)) = 0 := by
    rw [Int.zero_add]
    exact hzero
  obtain ⟨hholds, hlen⟩ := holds_text hk hzero'
  have hpending : cli.pending = text 0 cli.buffer 0 cli.buf_size := rfl
  rw [hpending]
  refine ⟨hholds, by omega, fun hmem => ?_⟩
  obtain ⟨i, hi, hget⟩ := List.getElem_of_mem hmem
  have hcell := hholds.get hi
  rw [hget, Int.zero_add] at hcell
  exact hclean i (by omega) hcell

theorem waiting_empty (hpos : 0 < cli.buf_size) : (cli.store 0 [0]).Waiting :=
  ⟨0, hpos, store_zero 0, nofun⟩

theorem vsnprintf_length (n : Nat) (text : List UInt8) : (vsnprintf n text).length ≤ n := by
  unfold vsnprintf
  split
  · exact Nat.zero_le n
  · rw [List.length_append, List.length_take, List.length_singleton]
    omega

/-- The bytes in front of the text stay. -/
theorem put_vsnprintf_front {l text : List UInt8} (hholds : Holds 0 cli.buffer 0 l) (hl : l ≠ []) (n : Nat) :
    put cli.buffer l.length (vsnprintf n text) 0 = l.head hl := by
  obtain ⟨a, l, rfl⟩ := List.exists_cons_of_ne_nil hl
  rw [put_before (by rw [List.length_cons]; omega), (holds_cons.mp hholds).1, List.head_cons]

theorem put_vsnprintf_empty {text : List UInt8} (hzero : cli.buffer 0 = 0) (n : Nat) :
    put cli.buffer (0 : Nat) (vsnprintf n text) 0 = 0x0a ↔ 1 < n ∧ text.head? = some 0x0a := by
  unfold vsnprintf
  by_cases hn : n = 0
  · rw [if_pos hn, put_behind (by simp), hzero]
    exact iff_of_false (by decide) fun h => by omega
  · obtain ⟨n, rfl⟩ := Nat.exists_eq_succ_of_ne_zero hn
    rw [if_neg hn, Nat.succ_sub_one]
    have hpos : 0 < (text.take n ++ [0]).length := by
      rw [List.length_append, List.length_singleton]
      omega
    have hfirst := put_at (m := cli.buffer) (p := 0) hpos
    rw [Int.zero_add] at hfirst
    change put cli.buffer 0 _ 0 = _ at hfirst
    rw [show ((0 : Nat) : Int) = 0 from rfl, hfirst]
    cases text with
    | nil => simp
    | cons a text =>
      cases n with
      | zero => simp
      | succ n => simp

/-- The text is behind what is pending, and its first byte is that of the buffer when nothing is. -/
theorem format_first (h : cli.Waiting) {text : List UInt8} (htext : c.text = some text) :
    (format cli c).buffer 0 = 0x0a ↔ cli.StartsEmpty c := by
  obtain ⟨hholds, hlen, hline⟩ := waiting_pending h
  have hfirst : (format cli c).buffer 0 =
      if 0 = ((cli.buf_size - 1 : Nat) : Int) then 0
      else put cli.buffer cli.pending.length (vsnprintf (cli.buf_size - cli.pending.length - 1) text) 0 := by
    unfold format
    rw [htext, cli_def.buffer_store, put_one]
    rfl
  have hhead : (∃ text ∈ c.text, text.head? = some 0x0a) ↔ text.head? = some 0x0a := by
    rw [htext]
    simp
  rw [hfirst, cli_def.StartsEmpty, hhead]
  by_cases hempty : cli.pending = []
  · rw [hempty] at hholds ⊢
    rw [List.length_nil, and_iff_right rfl]
    split
    · exact iff_of_false (by decide) fun h => by omega
    · rw [put_vsnprintf_empty (holds_nil.mp hholds)]
      exact and_congr_left fun _ => by omega
  · have hpos : 0 < cli.pending.length := List.length_pos_iff.mpr hempty
    rw [if_neg (by omega), put_vsnprintf_front hholds hempty]
    exact iff_of_false (fun heq => hline (heq ▸ List.head_mem hempty)) fun h => hempty h.1

/-- Before the loop. -/
theorem format_spec (h : cli.Waiting) (c : Call) : (format cli c).Looping 0 ∧
    (format cli c).buf_size = cli.buf_size ∧ ((format cli c).Inside ↔ cli.Inside) := by
  obtain ⟨hholds, hlen, hline⟩ := waiting_pending h
  have hread : (cli.access 0 (cli.pending.length + 1)).Inside ↔ cli.Inside := by
    rw [cli_def.inside_access]
    exact and_iff_left (@inside_of_le 0 _ _ (by omega))
  have hlast : Extent.Inside ⟨(cli.buf_size - 1 : Nat), [(0 : UInt8)].length⟩ cli.buf_size :=
    inside_of_le (by rw [List.length_singleton]; omega)
  unfold format
  cases c.text with
  | none =>
    refine ⟨⟨store_zero _, Nat.zero_lt_of_lt hlen, nofun⟩, rfl, ?_⟩
    rw [cli_def.inside_store, hread]
    exact and_iff_left hlast
  | some text =>
    have hwritten := vsnprintf_length (cli.buf_size - cli.pending.length - 1) text
    have htext : Extent.Inside ⟨cli.pending.length, (vsnprintf (cli.buf_size - cli.pending.length - 1) text).length⟩
        cli.buf_size := inside_of_le (by omega)
    refine ⟨⟨store_zero _, Nat.zero_lt_of_lt hlen, nofun⟩, rfl, ?_⟩
    rw [cli_def.inside_store, cli_def.inside_store, hread]
    exact (and_iff_left hlast).trans (and_iff_left htext)

/-- What is left goes to the front as one line. -/
theorem keep_spec {q : Option Nat} (hpos : 0 < cli.buf_size) (hleft : ∀ p ∈ q, cli.Looping p ∧ 0x0a ∉ cli.string p) :
    (keep cli q).Waiting ∧ (keep cli q).buf_size = cli.buf_size ∧ ((keep cli q).Inside ↔ cli.Inside) := by
  have hfirst : Extent.Inside ⟨0, 1⟩ cli.buf_size := @inside_of_le 0 _ _ hpos
  cases q with
  | none =>
    refine ⟨waiting_empty hpos, rfl, ?_⟩
    unfold keep
    rw [cli_def.inside_store]
    exact and_iff_left hfirst
  | some p =>
    obtain ⟨hloop, hline⟩ := hleft p rfl
    obtain ⟨hholds, hlen⟩ := string_holds hloop.last hloop.pos
    have hread : (cli.access p 1).Inside ↔ cli.Inside := by
      rw [cli_def.inside_access]
      exact and_iff_left (inside_of_le hloop.pos)
    have hchar {j : Nat} (hj : j < (cli.string p).length) : (cli.string p)[j] ≠ 0x0a :=
      fun heq => hline (heq ▸ List.getElem_mem hj)
    have hclean : ∀ i : Nat, i < p + (cli.string p).length → cli.buffer i ≠ 0x0a := by
      intro i hi
      by_cases hip : i < p
      · exact hloop.clean i hip
      · obtain ⟨j, rfl⟩ := Nat.exists_eq_add_of_le (Nat.le_of_not_lt hip)
        rw [Int.natCast_add, hholds.get (by omega)]
        exact hchar (by omega)
    have hends : cli.buffer ((p + (cli.string p).length : Nat) : Int) = 0 := by
      rw [Int.natCast_add]
      exact hholds.ends
    unfold keep
    dsimp only
    split
    · refine ⟨waiting_empty hpos, rfl, ?_⟩
      rw [cli_def.inside_store, hread]
      exact and_iff_left hfirst
    · split
      · exact ⟨⟨_, hlen, hends, hclean⟩, rfl, hread⟩
      · rw [cli_def.string_access]
        refine ⟨⟨p + (cli.string p).length, hlen, ?_, fun i hi => ?_⟩, rfl, ?_⟩
        · rw [cli_def.buffer_store, put_behind (by omega)]
          exact hends
        · rw [cli_def.buffer_store]
          by_cases hi' : i < (cli.string p).length
          · have hcopied := put_at (m := cli.buffer) (p := 0) hi'
            rw [Int.zero_add] at hcopied
            rw [cli_def.buffer_access, cli_def.buffer_access, hcopied]
            exact hchar hi'
          · rw [put_behind (by omega)]
            exact hclean i hi
        · rw [cli_def.inside_store, cli_def.inside_access, hread]
          have hfront : Extent.Inside ⟨0, (cli.string p).length⟩ cli.buf_size := @inside_of_le 0 _ _ (by omega)
          exact (and_iff_left hfront).trans (and_iff_left (inside_of_le hlen))

theorem Zeroed.waiting {cli' : cli_def} (h : Zeroed cli cli') (hw : cli.Waiting) : cli'.Waiting := by
  obtain ⟨k, hk, hzero, hclean⟩ := hw
  exact ⟨k, by rw [h.buf_size]; exact hk, h.zero hzero, fun i hi => h.clean (hclean i hi)⟩

theorem gw_print_none (htext : c.text = none) : _gw_print cli c = some (format cli c) := by
  unfold _gw_print
  rw [htext]

theorem gw_print_some {text : List UInt8} (htext : c.text = some text) : _gw_print cli c =
    (line_loop c (format cli c).buf_size (format cli c) 0).map fun (cli, p) => keep cli p := by
  unfold _gw_print
  rw [htext]

/-- A call returns, and leaves one line pending. -/
theorem event_spec (h : cli.Waiting) (c : Call) : (_gw_print cli c).isSome ∧ (cli.event c).Waiting ∧
    (cli.event c).buf_size = cli.buf_size ∧ ((cli.event c).Inside ↔ cli.Inside ∧ ¬ cli.StartsEmpty c) := by
  obtain ⟨hloop, hsize, hin⟩ := format_spec h c
  unfold cli_def.event
  cases htext : c.text with
  | none =>
    have hno : ¬ cli.StartsEmpty c := by
      rintro ⟨-, -, text, hmem, -⟩
      rw [htext] at hmem
      cases hmem
    have hformat : format cli c = (cli.access 0 (cli.pending.length + 1)).store (cli.buf_size - 1 : Nat) [0] := by
      unfold format
      rw [htext]
      rfl
    have hzeroed : Zeroed cli (format cli c) := hformat ▸ (zeroed_access _ _).trans (zeroed_store _)
    rw [gw_print_none htext]
    exact ⟨rfl, hzeroed.waiting h, hsize, hin.trans (and_iff_left hno).symm⟩
  | some text =>
    have hfirst := format_first h htext
    obtain ⟨cli', q, hrun, hstopped, hinside⟩ := line_loop_spec (c := c) (n := (format cli c).buf_size) hloop (by omega)
    obtain ⟨hwaiting, hkept, hkeptIn⟩ := @keep_spec cli' q
      (by rw [hstopped.zeroed.buf_size]; exact hloop.pos) hstopped.left
    rw [gw_print_some htext, hrun]
    refine ⟨rfl, hwaiting, hkept.trans (hstopped.zeroed.buf_size.trans hsize), hkeptIn.trans ?_⟩
    rw [hinside, hin, and_iff_right (rfl : 0 = 0)]
    exact and_congr_right fun _ => not_congr hfirst

end gwdonu.cli_print
