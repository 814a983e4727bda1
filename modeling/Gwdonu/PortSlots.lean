-- The interface of a command, as a port, a slot and a port, or a range of ports. What the
-- scanner takes, and which ports it stores.
import Gwdonu.Lib.Scanner
import Mathlib.Data.UInt

namespace gwdonu.port_slots

open scanner

/-! ## Characters -/

def isdigit (c : UInt8) : Bool := 0x30 ≤ c && c ≤ 0x39

def isspace (c : UInt8) : Bool := c = 0x20 || 0x09 ≤ c && c ≤ 0x0d

/-- What the digits are worth to the base 10, up to what a `long` can hold. -/
def atol (digits : List UInt8) : Nat := min (digits.foldl (fun n c => n * 10 + (c - 0x30).toNat) 0) (2 ^ 31 - 1)

def comma : UInt8 := 0x2c
def dash : UInt8 := 0x2d
def slash : UInt8 := 0x2f

/-- A number has ten digits or fewer. -/
def lexis : Lexis UInt8 := ⟨isdigit, isspace, 11⟩

/-- The bytes of a string, up to the zero that ends it. -/
abbrev Argv := { l : List UInt8 // 0 ∉ l }

/-! ## The program -/

inductive ScanState where
  | STATE_S
  | STATE_PS
  | STATE_PE
  deriving DecidableEq

structure slot_port where
  ulSlot : Nat
  ulPort : Nat
  deriving DecidableEq

def MAXSlotNum : Nat := 2
def MAXPortOnSlotNum : Nat := 32
def SysIsValidPortOnSlot (port : Nat) : Bool := 1 ≤ port && port ≤ MAXPortOnSlotNum

structure Parse where
  ulState : ScanState
  p : slot_port
  deriving DecidableEq

/-- The separators of each state; those that a state has not got end the scan. -/
def separators (s : Parse) (cToken : UInt8) : Option (List UInt8 → Parse × Bool) :=
  match s.ulState with
  | .STATE_S =>
    if cToken = slash then some fun digit_temp =>
      let ulSlot := atol digit_temp
      if MAXSlotNum ≤ ulSlot then (s, false) else (⟨.STATE_PS, { s.p with ulSlot }⟩, true)
    else if cToken = comma then some fun digit_temp =>
      let ulPort := atol digit_temp
      if SysIsValidPortOnSlot ulPort = false then (s, false) else (⟨.STATE_S, { s.p with ulPort }⟩, true)
    else if cToken = dash then some fun digit_temp => (⟨.STATE_PE, { s.p with ulPort := atol digit_temp }⟩, true)
    else none
  | .STATE_PS =>
    if cToken = comma then some fun digit_temp =>
      let ulPort := atol digit_temp
      if MAXPortOnSlotNum ≤ ulPort then (s, false) else (⟨.STATE_S, { s.p with ulPort }⟩, true)
    else if cToken = dash then some fun digit_temp => (⟨.STATE_PE, { s.p with ulPort := atol digit_temp }⟩, true)
    else none
  | .STATE_PE =>
    if cToken = comma then some fun digit_temp => (⟨.STATE_S, { s.p with ulPort := atol digit_temp }⟩, true)
    else none

/-- The copy of the argument, with a comma behind it, up to its zero. -/
def list (argv : Argv) : List UInt8 := argv.1 ++ [comma]

/-- The places of `list` that are written: those of `strncpy`, and the two at the end. -/
def listWritten (ulListLen : Nat) : List Nat := List.range (ulListLen + 1) ++ [ulListLen, ulListLen + 1]

/-- Whether it returns `RCP_OK`, what is stored, and the places of `digit_temp` that are written. -/
structure Parsed where
  ok : Bool
  p : slot_port
  written : List Nat

/-- `mal` says whether there is memory for the copy. The test for the end of `list` stops no scan, as its
zero does. -/
def BEGIN_PARSE_PORT_EAND_SLOT (mal : Bool) (argv : Argv) (my_onu : slot_port) : Parsed :=
  if mal = false then ⟨false, my_onu, []⟩
  else
    let r := Scan.scan lexis separators ⟨⟨.STATE_S, my_onu⟩, [], []⟩ (list argv)
    ⟨r.2, r.1.state.p, r.1.written⟩

/-! ## The law -/

/-- What is written lies in its buffer, and what is taken is a port that there is, of a slot that there
is, if a slot is given. -/
structure TakesUsable (mal : Bool) (argv : Argv) (my_onu : slot_port) : Prop where
  digit_temp : ∀ k ∈ (BEGIN_PARSE_PORT_EAND_SLOT mal argv my_onu).written, k < 12
  list : ∀ k ∈ listWritten argv.1.length, k < argv.1.length + 2
  port : (BEGIN_PARSE_PORT_EAND_SLOT mal argv my_onu).ok = true →
    1 ≤ (BEGIN_PARSE_PORT_EAND_SLOT mal argv my_onu).p.ulPort ∧
      (BEGIN_PARSE_PORT_EAND_SLOT mal argv my_onu).p.ulPort ≤ MAXPortOnSlotNum
  slot : (BEGIN_PARSE_PORT_EAND_SLOT mal argv my_onu).ok = true → slash ∈ argv.1 →
    (BEGIN_PARSE_PORT_EAND_SLOT mal argv my_onu).p.ulSlot < MAXSlotNum

/-- An element of a list, with its numbers. -/
inductive Element where
  | port (ulPort : Nat)
  | slotPort (ulSlot ulPort : Nat)
  | range (first last : Nat)
  | slotRange (ulSlot first last : Nat)

/-- The numbers of a list, and its elements. -/
inductive Elements : List (Token UInt8) → List Element → Prop
  | nil : Elements [] []
  | port {n ts es} : lexis.Number n → Elements ts es → Elements ((n, comma) :: ts) (.port (atol n) :: es)
  | slotPort {s n ts es} : lexis.Number s → lexis.Number n → Elements ts es →
      Elements ((s, slash) :: (n, comma) :: ts) (.slotPort (atol s) (atol n) :: es)
  | range {a b ts es} : lexis.Number a → lexis.Number b → Elements ts es →
      Elements ((a, dash) :: (b, comma) :: ts) (.range (atol a) (atol b) :: es)
  | slotRange {s a b ts es} : lexis.Number s → lexis.Number a → lexis.Number b → Elements ts es →
      Elements ((s, slash) :: (a, dash) :: (b, comma) :: ts) (.slotRange (atol s) (atol a) (atol b) :: es)

/-- The tests that an element has to pass. -/
def Element.Valid : Element → Prop
  | .port n => 1 ≤ n ∧ n ≤ MAXPortOnSlotNum
  | .slotPort s n => s < MAXSlotNum ∧ n < MAXPortOnSlotNum
  | .range _ _ => True
  | .slotRange s _ _ => s < MAXSlotNum

/-- The port that an element stores last. -/
def Element.last : Element → Nat
  | .port n => n
  | .slotPort _ n => n
  | .range _ b => b
  | .slotRange _ _ b => b

/-- The argument is no list of valid elements, or the last of them ends with a port that there is. -/
def EndsUsable (argv : Argv) : Prop :=
  ∀ es e, Elements (tokens lexis [] (list argv)) (es ++ [e]) → (∀ e' ∈ es ++ [e], e'.Valid) →
    1 ≤ e.last ∧ e.last ≤ MAXPortOnSlotNum

/-! ## The elements -/

/-- What an element stores. -/
def Element.store (p : slot_port) : Element → slot_port
  | .port n => { p with ulPort := n }
  | .slotPort s n => ⟨s, n⟩
  | .range _ b => { p with ulPort := b }
  | .slotRange s _ b => ⟨s, b⟩

variable {p : slot_port} {ts : List (Token UInt8)} {es : List Element} {t : Token UInt8}

/-- A list of valid elements is taken, one after another. -/
theorem run_elements (h : Elements ts es) (hvalid : ∀ e ∈ es, e.Valid) (p : slot_port) :
    run lexis separators ⟨.STATE_S, p⟩ ts = (⟨.STATE_S, es.foldl Element.store p⟩, true) := by
  induction h generalizing p with
  | nil => rfl
  | @port n ts es hn _ ih =>
    obtain ⟨hport, hrest⟩ := List.forall_mem_cons.mp hvalid
    have hstep : step lexis separators ⟨.STATE_S, p⟩ (n, comma) = (⟨.STATE_S, { p with ulPort := atol n }⟩, true) := by
      have hok : ¬ SysIsValidPortOnSlot (atol n) = false := by
        simp only [SysIsValidPortOnSlot, Bool.and_eq_false_iff, decide_eq_false_iff_not]
        exact fun h => h.elim (fun h => h hport.1) fun h => h hport.2
      exact (step_of_some rfl hn).trans (if_neg hok)
    rw [run_of_step hstep]
    exact ih hrest _
  | @slotPort s n ts es hs hn _ ih =>
    obtain ⟨⟨hslot, hport⟩, hrest⟩ := List.forall_mem_cons.mp hvalid
    have hfirst : step lexis separators ⟨.STATE_S, p⟩ (s, slash) =
        (⟨.STATE_PS, { p with ulSlot := atol s }⟩, true) :=
      (step_of_some rfl hs).trans (if_neg (Nat.not_le.mpr hslot))
    have hsecond : step lexis separators ⟨.STATE_PS, { p with ulSlot := atol s }⟩ (n, comma) =
        (⟨.STATE_S, ⟨atol s, atol n⟩⟩, true) :=
      (step_of_some rfl hn).trans (if_neg (Nat.not_le.mpr hport))
    rw [run_of_step hfirst, run_of_step hsecond]
    exact ih hrest _
  | @range a b ts es ha hb _ ih =>
    have hfirst : step lexis separators ⟨.STATE_S, p⟩ (a, dash) =
        (⟨.STATE_PE, { p with ulPort := atol a }⟩, true) := (step_of_some rfl ha).trans rfl
    have hsecond : step lexis separators ⟨.STATE_PE, { p with ulPort := atol a }⟩ (b, comma) =
        (⟨.STATE_S, { p with ulPort := atol b }⟩, true) := (step_of_some rfl hb).trans rfl
    rw [run_of_step hfirst, run_of_step hsecond]
    exact ih (List.forall_mem_cons.mp hvalid).2 _
  | @slotRange s a b ts es hs ha hb _ ih =>
    obtain ⟨hslot, hrest⟩ := List.forall_mem_cons.mp hvalid
    have hfirst : step lexis separators ⟨.STATE_S, p⟩ (s, slash) =
        (⟨.STATE_PS, { p with ulSlot := atol s }⟩, true) :=
      (step_of_some rfl hs).trans (if_neg (Nat.not_le.mpr hslot))
    have hsecond : step lexis separators ⟨.STATE_PS, { p with ulSlot := atol s }⟩ (a, dash) =
        (⟨.STATE_PE, ⟨atol s, atol a⟩⟩, true) := (step_of_some rfl ha).trans rfl
    have hthird : step lexis separators ⟨.STATE_PE, ⟨atol s, atol a⟩⟩ (b, comma) =
        (⟨.STATE_S, ⟨atol s, atol b⟩⟩, true) := (step_of_some rfl hb).trans rfl
    rw [run_of_step hfirst, run_of_step hsecond, run_of_step hthird]
    exact ih hrest _

/-- What a number is taken for that begins an element. -/
theorem of_step_S (h : (step lexis separators ⟨.STATE_S, p⟩ t).2 = true) : lexis.Number t.1 ∧
    (t.2 = slash ∧ atol t.1 < MAXSlotNum ∧ (step lexis separators ⟨.STATE_S, p⟩ t).1.ulState = .STATE_PS ∨
      t.2 = comma ∧ (Element.port (atol t.1)).Valid ∧ (step lexis separators ⟨.STATE_S, p⟩ t).1.ulState = .STATE_S ∨
      t.2 = dash ∧ (step lexis separators ⟨.STATE_S, p⟩ t).1.ulState = .STATE_PE) := by
  obtain ⟨f, hf, hnumber, heq, htaken⟩ := of_step h
  rw [heq]
  refine ⟨hnumber, ?_⟩
  unfold separators at hf
  dsimp only at hf
  split_ifs at hf with hslash hcomma hdash
  · obtain rfl := Option.some.inj hf
    dsimp only at htaken ⊢
    split_ifs at htaken ⊢ with hslot
    exact Or.inl ⟨hslash, Nat.lt_of_not_le hslot, rfl⟩
  · obtain rfl := Option.some.inj hf
    dsimp only at htaken ⊢
    split_ifs at htaken ⊢ with hport
    have hvalid : 1 ≤ atol t.1 ∧ atol t.1 ≤ MAXPortOnSlotNum := by
      have htrue := Bool.eq_true_of_not_eq_false hport
      rw [SysIsValidPortOnSlot, Bool.and_eq_true, decide_eq_true_eq, decide_eq_true_eq] at htrue
      exact htrue
    exact Or.inr (Or.inl ⟨hcomma, hvalid, rfl⟩)
  · obtain rfl := Option.some.inj hf
    exact Or.inr (Or.inr ⟨hdash, rfl⟩)

/-- What a number is taken for behind a slot. -/
theorem of_step_PS (h : (step lexis separators ⟨.STATE_PS, p⟩ t).2 = true) : lexis.Number t.1 ∧
    (t.2 = comma ∧ atol t.1 < MAXPortOnSlotNum ∧ (step lexis separators ⟨.STATE_PS, p⟩ t).1.ulState = .STATE_S ∨
      t.2 = dash ∧ (step lexis separators ⟨.STATE_PS, p⟩ t).1.ulState = .STATE_PE) := by
  obtain ⟨f, hf, hnumber, heq, htaken⟩ := of_step h
  rw [heq]
  refine ⟨hnumber, ?_⟩
  unfold separators at hf
  dsimp only at hf
  split_ifs at hf with hcomma hdash
  · obtain rfl := Option.some.inj hf
    dsimp only at htaken ⊢
    split_ifs at htaken ⊢ with hport
    exact Or.inl ⟨hcomma, Nat.lt_of_not_le hport, rfl⟩
  · obtain rfl := Option.some.inj hf
    exact Or.inr ⟨hdash, rfl⟩

/-- The end of a range has a comma behind it. -/
theorem of_step_PE (h : (step lexis separators ⟨.STATE_PE, p⟩ t).2 = true) : lexis.Number t.1 ∧
    t.2 = comma ∧ (step lexis separators ⟨.STATE_PE, p⟩ t).1.ulState = .STATE_S := by
  obtain ⟨f, hf, hnumber, heq, -⟩ := of_step h
  rw [heq]
  refine ⟨hnumber, ?_⟩
  unfold separators at hf
  dsimp only at hf
  split_ifs at hf with hcomma
  obtain rfl := Option.some.inj hf
  exact ⟨hcomma, rfl⟩

/-- The last number has a comma behind it. -/
def Closed (ts : List (Token UInt8)) : Prop := ∀ t, ts.getLast? = some t → t.2 = comma

theorem Closed.tail (h : Closed (t :: ts)) : Closed ts := by
  intro u hu
  cases ts with
  | nil => cases hu
  | cons v ts => exact h u (by rwa [List.getLast?_cons_cons])

theorem Closed.more {ds : List UInt8} {c : UInt8} (h : Closed ((ds, c) :: ts)) (hne : c ≠ comma) : ts ≠ [] := by
  rintro rfl
  exact hne (h (ds, c) rfl)

theorem Parse.eq_of_state {s : Parse} {ulState : ScanState} (h : s.ulState = ulState) : s = ⟨ulState, s.p⟩ := by
  subst h
  rfl

/-- The rest of a range that is taken: its end, and what comes behind the comma. -/
theorem of_run_PE (hne : ts ≠ []) (hclosed : Closed ts) (h : (run lexis separators ⟨.STATE_PE, p⟩ ts).2 = true) :
    ∃ b ts' p', ts = (b, comma) :: ts' ∧ lexis.Number b ∧ Closed ts' ∧
      (run lexis separators ⟨.STATE_S, p'⟩ ts').2 = true := by
  cases ts with
  | nil => exact absurd rfl hne
  | cons t ts =>
    obtain ⟨hstep, hrest⟩ := of_run_cons h
    obtain ⟨hnumber, hcomma, hstate⟩ := of_step_PE hstep
    rw [Parse.eq_of_state hstate] at hrest
    exact ⟨t.1, ts, _, by rw [← hcomma], hnumber, hclosed.tail, hrest⟩

/-- What is taken is a list of valid elements. -/
theorem elements_of_run (n : Nat) (hn : ts.length ≤ n) (hclosed : Closed ts) (p : slot_port)
    (h : (run lexis separators ⟨.STATE_S, p⟩ ts).2 = true) : ∃ es, Elements ts es ∧ ∀ e ∈ es, e.Valid := by
  induction n generalizing ts p with
  | zero =>
    obtain rfl := List.eq_nil_of_length_eq_zero (Nat.le_zero.mp hn)
    exact ⟨[], .nil, nofun⟩
  | succ n ih =>
    cases ts with
    | nil => exact ⟨[], .nil, nofun⟩
    | cons t ts =>
      obtain ⟨ds, c⟩ := t
      rw [List.length_cons] at hn
      obtain ⟨hstep, hrest⟩ := of_run_cons h
      obtain ⟨hnumber, ⟨hc, hslot, hstate⟩ | ⟨hc, hport, hstate⟩ | ⟨hc, hstate⟩⟩ := of_step_S hstep
      all_goals dsimp only at hnumber hc
      all_goals subst hc
      all_goals rw [Parse.eq_of_state hstate] at hrest
      · cases ts with
        | nil => exact absurd rfl (hclosed.more (by decide))
        | cons u ts =>
          obtain ⟨ds', c⟩ := u
          rw [List.length_cons] at hn
          obtain ⟨hstep', hrest'⟩ := of_run_cons hrest
          obtain ⟨hnumber', ⟨hc, hport, hstate'⟩ | ⟨hc, hstate'⟩⟩ := of_step_PS hstep'
          all_goals dsimp only at hnumber' hc
          all_goals subst hc
          all_goals rw [Parse.eq_of_state hstate'] at hrest'
          · obtain ⟨es, hes, hvalid⟩ := ih (by omega) hclosed.tail.tail _ hrest'
            exact ⟨_, .slotPort hnumber hnumber' hes, List.forall_mem_cons.mpr ⟨⟨hslot, hport⟩, hvalid⟩⟩
          · obtain ⟨b, ts', p', rfl, hb, hclosed', hrun⟩ :=
              of_run_PE (hclosed.tail.more (by decide)) hclosed.tail.tail hrest'
            rw [List.length_cons] at hn
            obtain ⟨es, hes, hvalid⟩ := ih (by omega) hclosed' _ hrun
            exact ⟨_, .slotRange hnumber hnumber' hb hes, List.forall_mem_cons.mpr ⟨hslot, hvalid⟩⟩
      · obtain ⟨es, hes, hvalid⟩ := ih (by omega) hclosed.tail _ hrest
        exact ⟨_, .port hnumber hes, List.forall_mem_cons.mpr ⟨hport, hvalid⟩⟩
      · obtain ⟨b, ts', p', rfl, hb, hclosed', hrun⟩ := of_run_PE (hclosed.more (by decide)) hclosed.tail hrest
        rw [List.length_cons] at hn
        obtain ⟨es, hes, hvalid⟩ := ih (by omega) hclosed' _ hrun
        exact ⟨_, .range hnumber hb hes, List.forall_mem_cons.mpr ⟨trivial, hvalid⟩⟩

/-! ## The last element -/

theorem store_last (p : slot_port) (e : Element) : (e.store p).ulPort = e.last := by
  cases e
  all_goals rfl

theorem stored_last (p : slot_port) (es : List Element) (e : Element) :
    ((es ++ [e]).foldl Element.store p).ulPort = e.last := by
  rw [List.foldl_append]
  exact store_last _ e

/-- Where an element has a slot, the slot that is stored is one that there is. -/
theorem stored_slot (h : Elements ts es) (hvalid : ∀ e ∈ es, e.Valid) (p : slot_port)
    (hslot : p.ulSlot < MAXSlotNum ∨ ∃ ds, (ds, slash) ∈ ts) : (es.foldl Element.store p).ulSlot < MAXSlotNum := by
  have hcomma : slash ≠ comma := by decide
  have hdash : slash ≠ dash := by decide
  induction h generalizing p with
  | nil => simpa using hslot
  | port hn _ ih =>
    refine ih (List.forall_mem_cons.mp hvalid).2 _ (hslot.imp id ?_)
    rintro ⟨ds, hmem⟩
    simp only [List.mem_cons, Prod.mk.injEq, hcomma, and_false, false_or] at hmem
    exact ⟨ds, hmem⟩
  | slotPort hs hn _ ih =>
    obtain ⟨hfirst, hrest⟩ := List.forall_mem_cons.mp hvalid
    exact ih hrest _ (Or.inl hfirst.1)
  | range ha hb _ ih =>
    refine ih (List.forall_mem_cons.mp hvalid).2 _ (hslot.imp id ?_)
    rintro ⟨ds, hmem⟩
    simp only [List.mem_cons, Prod.mk.injEq, hcomma, hdash, and_false, false_or] at hmem
    exact ⟨ds, hmem⟩
  | slotRange hs ha hb _ ih =>
    obtain ⟨hfirst, hrest⟩ := List.forall_mem_cons.mp hvalid
    exact ih hrest _ (Or.inl hfirst)

/-! ## The argument -/

variable {argv : Argv}

theorem parsed_eq (argv : Argv) (p : slot_port) :
    ((BEGIN_PARSE_PORT_EAND_SLOT true argv p).p, (BEGIN_PARSE_PORT_EAND_SLOT true argv p).ok) =
      ((run lexis separators ⟨.STATE_S, p⟩ (tokens lexis [] (list argv))).1.p,
        (run lexis separators ⟨.STATE_S, p⟩ (tokens lexis [] (list argv))).2) := by
  rw [list, ← scan_fresh argv.1 (by decide) (by decide) (by decide)]
  rfl

theorem list_closed (argv : Argv) : Closed (tokens lexis [] (list argv)) ∧ tokens lexis [] (list argv) ≠ [] := by
  have hdigit : ¬ lexis.digit comma = true := by decide
  have hspace : ¬ lexis.space comma = true := by decide
  obtain ⟨ts, ds, heq⟩ := tokens_last argv.1 [] hdigit hspace
  rw [list, heq]
  refine ⟨fun t ht => ?_, List.append_ne_nil_of_right_ne_nil _ (List.cons_ne_nil _ _)⟩
  rw [List.getLast?_append, List.getLast?_singleton, Option.some_or] at ht
  rw [← Option.some.inj ht]

theorem ok_of_elements (p : slot_port) (h : Elements (tokens lexis [] (list argv)) es) (hvalid : ∀ e ∈ es, e.Valid) :
    (BEGIN_PARSE_PORT_EAND_SLOT true argv p).ok = true ∧
      (BEGIN_PARSE_PORT_EAND_SLOT true argv p).p = es.foldl Element.store p := by
  have hparsed := parsed_eq argv p
  rw [run_elements h hvalid, Prod.mk.injEq] at hparsed
  exact ⟨hparsed.2, hparsed.1⟩

/-- The elements of an argument that is taken, and what they store. -/
theorem elements_of_ok {mal : Bool} {p : slot_port} (h : (BEGIN_PARSE_PORT_EAND_SLOT mal argv p).ok = true) :
    mal = true ∧ ∃ es e, Elements (tokens lexis [] (list argv)) (es ++ [e]) ∧ (∀ e' ∈ es ++ [e], e'.Valid) ∧
      (BEGIN_PARSE_PORT_EAND_SLOT mal argv p).p = (es ++ [e]).foldl Element.store p := by
  cases mal with
  | false => cases h
  | true =>
    have hparsed := (Prod.mk.inj (parsed_eq argv p)).2
    obtain ⟨hclosed, hne⟩ := list_closed argv
    rw [h] at hparsed
    obtain ⟨es, hes, hvalid⟩ := elements_of_run _ (le_refl _) hclosed p hparsed.symm
    rcases List.eq_nil_or_concat es with rfl | ⟨es, e, rfl⟩
    · generalize tokens lexis [] (list argv) = ts at hes hne
      cases hes
      exact absurd rfl hne
    · rw [List.concat_eq_append] at hes hvalid
      exact ⟨rfl, es, e, hes, hvalid, (ok_of_elements p hes hvalid).2⟩

theorem written_in_bounds (mal : Bool) (argv : Argv) (p : slot_port) :
    ∀ k ∈ (BEGIN_PARSE_PORT_EAND_SLOT mal argv p).written, k < 12 := by
  intro k hk
  cases mal with
  | false => cases hk
  | true => exact Nat.lt_succ_of_lt (fresh_written (list argv) (by decide) _ k hk)

theorem listWritten_in_bounds (n : Nat) : ∀ k ∈ listWritten n, k < n + 2 := by
  intro k hk
  simp only [listWritten, List.mem_append, List.mem_range, List.mem_cons, List.not_mem_nil, or_false] at hk
  omega

/-- A slash of the argument is behind a number of it. -/
theorem slash_mem (h : slash ∈ argv.1) : ∃ ds, (ds, slash) ∈ tokens lexis [] (list argv) :=
  mem_tokens (list argv) [] (by decide) (by decide) (List.mem_append_left _ h)

/-- The scanner takes only ports that there are just when the last element of the argument, if it is
a list of valid ones, ends with one. -/
theorem only_usable_ports_are_taken_iff_the_last_is (mal : Bool) (argv : Argv) (my_onu : slot_port) :
    TakesUsable mal argv my_onu ↔ (mal = true → EndsUsable argv) := by
  constructor
  · rintro htakes rfl es e helements hvalid
    obtain ⟨hok, hp⟩ := ok_of_elements my_onu helements hvalid
    have hport := htakes.port hok
    rw [hp, stored_last] at hport
    exact hport
  · intro hends
    refine ⟨written_in_bounds mal argv my_onu, listWritten_in_bounds _, fun hok => ?_, fun hok hslash => ?_⟩
    · obtain ⟨hmal, es, e, helements, hvalid, hp⟩ := elements_of_ok hok
      rw [hp, stored_last]
      exact hends hmal es e helements hvalid
    · obtain ⟨-, es, e, helements, hvalid, hp⟩ := elements_of_ok hok
      rw [hp]
      exact stored_slot helements hvalid my_onu (Or.inr (slash_mem hslash))

def slotZero : Argv := ⟨[0x31, 0x2f, 0x30], by decide⟩

/-- Slot 1 and port 0 are taken. -/
theorem a_port_0_of_a_slot_is_taken : ¬ TakesUsable true slotZero ⟨0, 0⟩ := by
  intro h
  exact absurd (h.port (by decide)).1 (by decide)

end gwdonu.port_slots
