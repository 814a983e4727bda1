-- The completions of a line against its execution: which commands the words of a line go down
-- to when a name is to be completed, and when the line is run.
import Gwdonu.CliAbbreviations

namespace gwdonu.cli_parser

/-! ## The words of a line -/

def MAX_WORDS_NUM : Nat := 32
def MAX_WORDS_LEN : Nat := 192

def isspace (c : Char) : Prop := c = ' ' ∨ ('\t' ≤ c ∧ c ≤ '\r')

instance (c : Char) : Decidable (isspace c) := inferInstanceAs (Decidable (_ ∨ _))

/-- Where the loop is: the words so far, the characters from `word_start` on, and the quote. -/
structure Parsed where
  words : List (List Char)
  word_start : Option (List Char)
  inquote : Option Char

/-- A word ends. `none` when it is beyond the limits, and the line has no words. -/
def Parsed.store (s : Parsed) : Option (List (List Char)) :=
  match s.word_start with
  | none => some s.words
  | some word =>
    if MAX_WORDS_LEN ≤ word.length ∨ MAX_WORDS_NUM ≤ s.words.length then none else some (s.words ++ [word])

/-- The loop. Behind a word it stops at the blank once more, and behind a quote it goes on. -/
def parse : List Char → Parsed → Option (List (List Char))
  | [], s => if MAX_WORDS_NUM - 1 ≤ s.words.length then some s.words else s.store
  | c :: p, s =>
    if MAX_WORDS_NUM - 1 ≤ s.words.length then some s.words
    else if s.inquote = some c ∨ (s.word_start ≠ none ∧ s.inquote = none ∧ isspace c) then
      match s.store with
      | none => none
      | some words => parse p ⟨words, none, none⟩
    else if c = '"' ∨ c = '\'' then parse p ⟨s.words, some [], some c⟩
    else
      match s.word_start with
      | some word => parse p { s with word_start := some (word ++ [c]) }
      | none =>
        if c = '|' then parse p { s with words := s.words ++ [['|']] }
        else if ¬ isspace c then parse p { s with word_start := some [c] }
        else parse p s

/-- The first word starts at the first character that is not blank. -/
def gw_cli_parse_line (line : List Char) : Option (List (List Char)) :=
  let p := line.dropWhile fun c => isspace c
  parse p ⟨[], if p = [] then none else some [], none⟩

/-! ## The completions -/

/-- A command with its children. -/
abbrev Kid := Fields × cli_command

/-- The completions of a line, and the commands that the loop goes down from on the way. -/
structure Completed where
  descended : List Kid
  completions : List Kid
  deriving DecidableEq

/-- The commands that are there for the privilege and in the mode. -/
def Visible (privilege mode : Int) (c : Fields) : Prop :=
  ¬ privilege < c.entry.privilege ∧ (c.entry.mode = mode ∨ c.entry.mode = MODE_ANY)

instance (privilege mode : Int) (c : Fields) : Decidable (Visible privilege mode c) :=
  inferInstanceAs (Decidable (_ ∧ _))

/-- The loop of `gw_cli_get_completions`, with the words in front of the last one, and the last
one, which is nothing behind a blank. -/
def complete (privilege mode : Int) : cli_command → List (List Char) → Option (List Char) → Nat → Completed
  | .NULL, _, _, _ => ⟨[], []⟩
  | .record c children next, front, last, room =>
    if room = 0 then ⟨[], []⟩
    else if privilege < c.entry.privilege then complete privilege mode next front last room
    else if c.entry.mode ≠ mode ∧ c.entry.mode ≠ MODE_ANY then complete privilege mode next front last room
    else
      match front with
      | word :: rest =>
        if ¬ strncasecmp c.entry.command word word.length then complete privilege mode next front last room
        else if word.length < c.unique_len then complete privilege mode next front last room
        else
          let below := complete privilege mode children rest last room
          ⟨if children = .NULL then [] else (c, children) :: below.descended, below.completions⟩
      | [] =>
        if ∃ word ∈ last, ¬ strncasecmp c.entry.command word word.length then
          complete privilege mode next [] last room
        else ⟨[], (c, children) :: (complete privilege mode next [] last (room - 1)).completions⟩

/-- The words in front of the last one, and the last one. `none` when there are none. -/
def completion_words (command : List Char) : Option (List (List Char) × Option (List Char)) :=
  (gw_cli_parse_line command).bind fun words =>
    let command := command.dropWhile fun c => isspace c
    if command = [] ∨ command.getLast? = some ' ' then some (words, none)
    else words.getLast?.map fun last => (words.dropLast, some last)

/-- Of a line within the limits of the parser. -/
def gw_cli_get_completions (privilege mode : Int) (commands : cli_command) (command : List Char)
    (max_completions : Nat) : Completed :=
  match completion_words command with
  | none => ⟨[], []⟩
  | some (front, last) => complete privilege mode commands front last max_completions

/-! ## The look-up of a word -/

section
variable (privilege mode : Int)

/-- The tests of `gw_cli_find_command`, in this mode. -/
def Takes (word : List Char) (k : Kid) : Prop := Visible privilege mode k.1 ∧ Passes k.1 word

instance (word : List Char) (k : Kid) : Decidable (Takes privilege mode word k) :=
  inferInstanceAs (Decidable (_ ∧ _))

/-- The command that the word is found to be, in this mode. A word that asks for help is none. -/
def find_takes (t : cli_command) (word : List Char) : Option Kid :=
  if word.getLast? = some '?' then none else (kids t).find? fun k => Takes privilege mode word k

/-- The command that the look-up goes down from for the word, if there are words behind it. -/
def find_descends (t : cli_command) (word : List Char) : Option Kid :=
  (find_takes privilege mode t word).filter fun k => k.2 ≠ .NULL

/-- The commands that the look-up goes down from. -/
def descents : cli_command → List (List Char) → List Kid
  | _, [] => []
  | t, word :: rest =>
    match find_descends privilege mode t word with
    | none => []
    | some k => k :: descents k.2 rest

/-- The list that the look-up comes to. -/
def reached : cli_command → List (List Char) → Option cli_command
  | t, [] => some t
  | t, word :: rest => (find_descends privilege mode t word).bind fun k => reached k.2 rest

/-- The command that a word is found to be behind other words. -/
def accepts (t : cli_command) (front : List (List Char)) (word : List Char) : Option Kid :=
  (reached privilege mode t front).bind fun t => find_takes privilege mode t word

/-! ## The law -/

/-- Completion goes down the same way as the look-up, and what it offers is found to be itself. -/
structure Agrees (t : cli_command) (command : List Char) (front : List (List Char)) : Prop where
  descended : (gw_cli_get_completions privilege mode t command MAX_WORDS_NUM).descended =
    descents privilege mode t front
  accepted : ∀ k ∈ (gw_cli_get_completions privilege mode t command MAX_WORDS_NUM).completions,
    accepts privilege mode t front k.1.entry.command = some k

/-- The tests of `gw_cli_get_completions` for a word that is not the last one. -/
def Fits (word : List Char) (k : Kid) : Prop :=
  Visible privilege mode k.1 ∧ strncasecmp k.1.entry.command word word.length ∧ k.1.unique_len ≤ word.length

instance (word : List Char) (k : Kid) : Decidable (Fits privilege mode word k) :=
  inferInstanceAs (Decidable (_ ∧ _ ∧ _))

/-- The tests for the last word. -/
def Offers (last : Option (List Char)) (k : Kid) : Prop :=
  Visible privilege mode k.1 ∧ ¬ ∃ word ∈ last, ¬ strncasecmp k.1.entry.command word word.length

instance (last : Option (List Char)) (k : Kid) : Decidable (Offers privilege mode last k) :=
  inferInstanceAs (Decidable (_ ∧ _))

/-- The first command of the list of this kind. -/
def First (P : Kid → Prop) (t : cli_command) (before : List Kid) (k : Kid) : Prop :=
  (∃ behind, kids t = before ++ k :: behind) ∧ P k ∧ ∀ j ∈ before, ¬ P j

/-- The word is as long as it has to be, or names no list of commands: it is not the whole name
of a command with children that needs more characters, and it does not lead to a command behind
one of this name, or ask for help. -/
structure Told (t : cli_command) (word : List Char) : Prop where
  whole : ∀ before k, First (Takes privilege mode word) t before k → word.getLast? ≠ some '?' → k.2 ≠ .NULL →
    k.1.unique_len ≤ word.length
  behind : ∀ before k, First (Fits privilege mode word) t before k → k.2 ≠ .NULL →
    word.getLast? ≠ some '?' ∧ ∀ j ∈ before, Visible privilege mode j.1 → ¬ SameName j.1.entry.command word

/-- Every word in front is told. -/
def ToldAll : cli_command → List (List Char) → Prop
  | _, [] => True
  | t, word :: rest =>
    Told privilege mode t word ∧ ∀ k, find_descends privilege mode t word = some k → ToldAll k.2 rest

/-- The name asks for no help, and no command in front passes for it. -/
def Own (t : cli_command) (k : Kid) : Prop :=
  k.1.entry.command.getLast? ≠ some '?' ∧ ∀ before behind, kids t = before ++ k :: behind → k ∉ before →
    ∀ j ∈ before, Visible privilege mode j.1 → ¬ Passes j.1 k.1.entry.command

/-- Every word in front is told, and what can stand for the last one has its name for itself. -/
structure Clear (t : cli_command) (front : List (List Char)) (last : Option (List Char)) : Prop where
  told : ToldAll privilege mode t front
  own : ∀ t', reached privilege mode t front = some t' →
    ∀ k ∈ ((kids t').filter fun k => Offers privilege mode last k).take MAX_WORDS_NUM, Own privilege mode t' k

end

section
variable {privilege mode : Int} {t : cli_command} {word : List Char} {front rest : List (List Char)}
  {last : Option (List Char)} {room : Nat} {k : Kid} {before : List Kid} {P : Kid → Prop}

/-! ## One word -/

theorem find_iff_first [DecidablePred P] : (kids t).find? (fun k => P k) = some k ↔ ∃ before, First P t before k := by
  rw [List.find?_eq_some_iff_append]
  simp only [decide_eq_true_eq, Bool.not_eq_true', decide_eq_false_iff_not, First]
  constructor
  · rintro ⟨hk, before, behind, heq, hbefore⟩
    exact ⟨before, ⟨behind, heq⟩, hk, hbefore⟩
  · rintro ⟨before, ⟨behind, heq⟩, hk, hbefore⟩
    exact ⟨hk, before, behind, heq, hbefore⟩

theorem fits_takes (h : Fits privilege mode word k) : Takes privilege mode word k :=
  ⟨h.1, passes_iff.mpr ⟨starts_iff.mp h.2.1, .inl h.2.2⟩⟩

theorem takes_fits (h : Takes privilege mode word k) (hlen : k.1.unique_len ≤ word.length) :
    Fits privilege mode word k := ⟨h.1, h.2.2, hlen⟩

/-- A command that is found but does not fit has the word as its whole name. -/
theorem takes_whole (h : Takes privilege mode word k) (hfits : ¬ Fits privilege mode word k) :
    SameName k.1.entry.command word := by
  rcases (passes_iff.mp h.2).2 with hlen | hsame
  · exact absurd (takes_fits h hlen) hfits
  · exact hsame

theorem same_takes (hvisible : Visible privilege mode k.1) (hsame : SameName k.1.entry.command word) :
    Takes privilege mode word k :=
  ⟨hvisible, passes_iff.mpr ⟨hsame ▸ List.prefix_rfl, .inr hsame⟩⟩

/-- The command that the completion goes down from for a word. -/
def fits_descends (privilege mode : Int) (t : cli_command) (word : List Char) : Option Kid :=
  ((kids t).find? fun k => Fits privilege mode word k).filter fun k => k.2 ≠ .NULL

theorem fits_descends_iff : fits_descends privilege mode t word = some k ↔
    (∃ before, First (Fits privilege mode word) t before k) ∧ k.2 ≠ .NULL := by
  rw [fits_descends, Option.filter_eq_some_iff, find_iff_first, decide_eq_true_eq]

theorem find_descends_iff : find_descends privilege mode t word = some k ↔
    word.getLast? ≠ some '?' ∧ (∃ before, First (Takes privilege mode word) t before k) ∧ k.2 ≠ .NULL := by
  rw [find_descends, Option.filter_eq_some_iff, decide_eq_true_eq, find_takes]
  split_ifs with hhelp
  · simp [hhelp]
  · rw [find_iff_first]
    simp [hhelp]

/-- A command that is the first of two kinds has the same commands in front of it. -/
theorem first_same {Q : Kid → Prop} {before' : List Kid} (h : First P t before k) (h' : First Q t before' k) :
    before' = before := by
  obtain ⟨⟨behind, heq⟩, hk, hbefore⟩ := h
  obtain ⟨⟨behind', heq'⟩, hk', hbefore'⟩ := h'
  rw [heq] at heq'
  rcases List.append_eq_append_iff.mp heq' with ⟨between, hfront, hback⟩ | ⟨between, hfront, hback⟩
  · cases between with
    | nil => rw [hfront, List.append_nil]
    | cons x between =>
      obtain ⟨rfl, -⟩ := List.cons.inj hback
      rw [hfront] at hbefore'
      exact absurd hk' (hbefore' k (List.mem_append_right _ List.mem_cons_self))
  · cases between with
    | nil => rw [hfront, List.append_nil]
    | cons x between =>
      obtain ⟨rfl, -⟩ := List.cons.inj hback
      rw [hfront] at hbefore
      exact absurd hk (hbefore k (List.mem_append_right _ List.mem_cons_self))

/-- A word is told exactly when both go down from the same command. -/
theorem told_iff : Told privilege mode t word ↔
    fits_descends privilege mode t word = find_descends privilege mode t word := by
  constructor
  · intro h
    refine Option.ext fun k => ?_
    rw [fits_descends_iff, find_descends_iff]
    constructor
    · rintro ⟨⟨before, hfirst⟩, hchildren⟩
      obtain ⟨hhelp, hsame⟩ := h.behind before k hfirst hchildren
      refine ⟨hhelp, ⟨before, hfirst.1, fits_takes hfirst.2.1, fun j hj htakes => ?_⟩, hchildren⟩
      exact hsame j hj htakes.1 (takes_whole htakes (hfirst.2.2 j hj))
    · rintro ⟨hhelp, ⟨before, hfirst⟩, hchildren⟩
      have hlen := h.whole before k hfirst hhelp hchildren
      exact ⟨⟨before, hfirst.1, takes_fits hfirst.2.1 hlen, fun j hj hfits => hfirst.2.2 j hj (fits_takes hfits)⟩,
        hchildren⟩
  · intro h
    constructor
    · intro before k hfirst hhelp hchildren
      have hfind : fits_descends privilege mode t word = some k :=
        h.trans (find_descends_iff.mpr ⟨hhelp, ⟨before, hfirst⟩, hchildren⟩)
      obtain ⟨⟨_, hfits⟩, -⟩ := fits_descends_iff.mp hfind
      exact hfits.2.1.2.2
    · intro before k hfirst hchildren
      have hfind : find_descends privilege mode t word = some k :=
        h.symm.trans (fits_descends_iff.mpr ⟨⟨before, hfirst⟩, hchildren⟩)
      obtain ⟨hhelp, ⟨before', htakes⟩, -⟩ := find_descends_iff.mp hfind
      obtain rfl := first_same hfirst htakes
      exact ⟨hhelp, fun j hj hvisible hsame => htakes.2.2 j hj (same_takes hvisible hsame)⟩

/-! ## The look-up -/

variable {answer : List Call → Int} {name : List (List Char)}

/-- What is found is the command that the line runs. -/
theorem search_first {again : Option Ran} (h : (kids t).find? (fun k => Takes privilege mode word k) = some k) :
    search answer privilege t name mode word rest again = run answer privilege k name rest mode := by
  induction t generalizing again with
  | NULL => exact nomatch h
  | record c children next _ ih =>
    rw [search]
    dsimp only
    rw [kids] at h
    by_cases htakes : Takes privilege mode word (c, children)
    · rw [List.find?_cons_of_pos (by simpa using htakes)] at h
      obtain rfl := Option.some.inj h
      rw [if_neg (fun hno => hno.elim htakes.1.1 (not_not_intro htakes.2)), if_pos htakes.1.2]
      rfl
    · rw [List.find?_cons_of_neg (by simpa using htakes)] at h
      split_ifs with hno hmode
      · exact ih h
      · exact absurd ⟨⟨fun hlt => hno (.inl hlt), hmode⟩, not_not.mp fun hpass => hno (.inr hpass)⟩ htakes
      · exact ih h
      · exact ih h

theorem find_run (h : find_takes privilege mode t word = some k) :
    gw_cli_find_command answer privilege t name mode (word :: rest) = run answer privilege k name rest mode := by
  unfold find_takes at h
  unfold gw_cli_find_command enter
  dsimp only
  split_ifs at h ⊢ with hhelp
  exact search_first h

/-- A word that is found behind others calls its command. -/
theorem accepted_runs {callback : Nat} (h : accepts privilege mode t front word = some k)
    (hcallback : k.1.entry.callback = some callback) (hanswer : ∀ calls, answer calls ≠ CLI_ERROR_ARG) :
    gw_cli_find_command answer privilege t name mode (front ++ [word]) =
      Ran.call answer ⟨[], mode, CLI_OK⟩ callback
        (name ++ (descents privilege mode t front).map (·.1.entry.command) ++ [k.1.entry.command]) [] := by
  induction front generalizing t name with
  | nil =>
    rw [List.nil_append, find_run h, run, found, if_pos (.inr rfl), hcallback]
    simp [descents]
  | cons head front ih =>
    unfold accepts reached at h
    cases hfind : find_descends privilege mode t head with
    | none =>
      rw [hfind] at h
      exact nomatch h
    | some k' =>
      rw [hfind] at h
      obtain ⟨htakes, hchildren⟩ := Option.filter_eq_some_iff.mp hfind
      have hdown : ¬ (k'.2 = .NULL ∨ front ++ [word] = []) := by simpa using hchildren
      have hbelow := @ih k'.2 (name ++ [k'.1.entry.command]) h
      have hrc (name : List (List Char)) : (Ran.call answer ⟨[], mode, CLI_OK⟩ callback name []).rc ≠ CLI_ERROR_ARG :=
        hanswer _
      rw [List.cons_append, find_run htakes, run, found, if_neg hdown, hbelow, if_neg (hrc _), descents, hfind]
      simp

/-! ## The loop -/

theorem visible_iff {c : Fields} : Visible privilege mode c ↔
    ¬ privilege < c.entry.privilege ∧ ¬ (c.entry.mode ≠ mode ∧ c.entry.mode ≠ MODE_ANY) := by
  rw [Visible, not_and_or, not_ne_iff, not_ne_iff]

theorem complete_word (hroom : 0 < room) :
    complete privilege mode t (word :: rest) last room =
      match fits_descends privilege mode t word with
      | none => ⟨[], []⟩
      | some k =>
        let below := complete privilege mode k.2 rest last room
        ⟨k :: below.descended, below.completions⟩ := by
  induction t with
  | NULL => rfl
  | record c children next _ ih =>
    rw [complete, if_neg (Nat.ne_of_gt hroom)]
    dsimp only
    unfold fits_descends
    rw [kids]
    by_cases hfits : Fits privilege mode word (c, children)
    · rw [List.find?_cons_of_pos (by simpa using hfits)]
      obtain ⟨hvisible, hstart, hlen⟩ := hfits
      obtain ⟨hprivilege, hmode⟩ := visible_iff.mp hvisible
      rw [if_neg hprivilege, if_neg hmode, if_neg (not_not_intro hstart), if_neg (Nat.not_lt.mpr hlen)]
      by_cases hchildren : children = .NULL
      · rw [if_pos hchildren, Option.filter_some, if_neg (by simpa using hchildren), hchildren]
        rfl
      · rw [if_neg hchildren, Option.filter_some, if_pos (by simpa using hchildren)]
    · rw [List.find?_cons_of_neg (by simpa using hfits)]
      change _ = match fits_descends privilege mode next word with | none => _ | some k => _
      rw [← ih]
      split_ifs with hprivilege hmode hstart hlen
      · rfl
      · rfl
      · rfl
      · exact absurd ⟨visible_iff.mpr ⟨hprivilege, hmode⟩, hstart, Nat.not_lt.mp hlen⟩ hfits
      · exact absurd ⟨visible_iff.mpr ⟨hprivilege, hmode⟩, hstart, Nat.not_lt.mp hlen⟩ hfits
      · rfl

theorem complete_last : complete privilege mode t [] last room =
    ⟨[], ((kids t).filter fun k => Offers privilege mode last k).take room⟩ := by
  induction t generalizing room with
  | NULL => simp [complete, kids]
  | record c children next _ ih =>
    rw [complete]
    by_cases hroom : room = 0
    · rw [if_pos hroom, hroom, List.take_zero]
    rw [if_neg hroom, kids]
    by_cases hoffers : Offers privilege mode last (c, children)
    · rw [List.filter_cons_of_pos (by simpa using hoffers)]
      obtain ⟨hvisible, hstart⟩ := hoffers
      obtain ⟨hprivilege, hmode⟩ := visible_iff.mp hvisible
      obtain ⟨room, rfl⟩ := Nat.exists_eq_succ_of_ne_zero hroom
      rw [if_neg hprivilege, if_neg hmode, if_neg hstart, ih, List.take_succ_cons]
      rfl
    · rw [List.filter_cons_of_neg (by simpa using hoffers), ← ih]
      split_ifs with hprivilege hmode hstart
      · rfl
      · rfl
      · rfl
      · exact absurd ⟨visible_iff.mpr ⟨hprivilege, hmode⟩, hstart⟩ hoffers

/-! ## The line -/

theorem descents_cons : descents privilege mode t (word :: rest) =
    match find_descends privilege mode t word with
    | none => []
    | some k => k :: descents privilege mode k.2 rest := rfl

/-- Completion goes down the same way exactly when every word in front is told. -/
theorem told_all_iff (hroom : 0 < room) : ToldAll privilege mode t front ↔
    (complete privilege mode t front last room).descended = descents privilege mode t front := by
  induction front generalizing t with
  | nil =>
    rw [complete_last]
    exact iff_of_true trivial rfl
  | cons word rest ih =>
    rw [ToldAll, told_iff, complete_word hroom, descents_cons]
    cases hfind : find_descends privilege mode t word with
    | none =>
      cases hfits : fits_descends privilege mode t word with
      | none => exact iff_of_true ⟨rfl, nofun⟩ rfl
      | some k => exact iff_of_false (fun h => nomatch h.1) nofun
    | some k =>
      have hrest : (∀ k', some k = some k' → ToldAll privilege mode k'.2 rest) ↔ ToldAll privilege mode k.2 rest :=
        ⟨fun h => h k rfl, fun h k' hk => Option.some.inj hk ▸ h⟩
      rw [hrest]
      cases hfits : fits_descends privilege mode t word with
      | none => exact iff_of_false (fun h => nomatch h.1) nofun
      | some k' =>
        dsimp only
        rw [List.cons.injEq, Option.some.injEq]
        constructor
        · rintro ⟨rfl, hall⟩
          exact ⟨rfl, ih.mp hall⟩
        · rintro ⟨rfl, hall⟩
          exact ⟨rfl, ih.mpr hall⟩

/-- What is offered behind words that are told. -/
theorem complete_reached (hroom : 0 < room) (h : ToldAll privilege mode t front) :
    (complete privilege mode t front last room).completions =
      match reached privilege mode t front with
      | none => []
      | some t' => ((kids t').filter fun k => Offers privilege mode last k).take room := by
  induction front generalizing t with
  | nil =>
    rw [complete_last]
    rfl
  | cons word rest ih =>
    rw [complete_word hroom, reached, told_iff.mp h.1]
    cases hfind : find_descends privilege mode t word with
    | none => rfl
    | some k => exact ih (h.2 k hfind)

/-- A name is found to be its own command exactly when nothing in front takes it. -/
theorem own_iff (hk : k ∈ kids t) (hvisible : Visible privilege mode k.1) :
    find_takes privilege mode t k.1.entry.command = some k ↔ Own privilege mode t k := by
  have htakes : Takes privilege mode k.1.entry.command k := same_takes hvisible rfl
  unfold find_takes
  by_cases hhelp : k.1.entry.command.getLast? = some '?'
  · rw [if_pos hhelp]
    exact iff_of_false nofun fun h => h.1 hhelp
  rw [if_neg hhelp, find_iff_first]
  constructor
  · rintro ⟨before, hfirst⟩
    refine ⟨hhelp, fun before' behind heq hnot j hj hj' hpass => ?_⟩
    have hsame : before' = before := by
      have hother : First (· = k) t before' k := ⟨⟨behind, heq⟩, rfl, fun j hj hjk => hnot (hjk ▸ hj)⟩
      exact first_same hfirst hother
    exact hfirst.2.2 j (hsame ▸ hj) ⟨hj', hpass⟩
  · rintro ⟨-, hown⟩
    obtain ⟨before, behind, heq, hnot⟩ := List.eq_append_cons_of_mem hk
    exact ⟨before, ⟨behind, heq⟩, htakes, fun j hj hj' => hown before behind heq hnot j hj hj'.1 hj'.2⟩

/-- Completion agrees with the look-up on the lines whose words are clear. -/
theorem completion_agrees_iff_the_words_are_clear (privilege mode : Int) (t : cli_command) (command : List Char) :
    (∀ front last, completion_words command = some (front, last) → Agrees privilege mode t command front) ↔
      ∀ front last, completion_words command = some (front, last) → Clear privilege mode t front last := by
  refine forall_congr' fun front => forall_congr' fun last => imp_congr_right fun hwords => ?_
  have hroom : 0 < MAX_WORDS_NUM := by decide
  have hcompletions : gw_cli_get_completions privilege mode t command MAX_WORDS_NUM =
      complete privilege mode t front last MAX_WORDS_NUM := by
    rw [gw_cli_get_completions, hwords]
  have hoffered {t' : cli_command} {k : Kid}
      (hk : k ∈ ((kids t').filter fun k => Offers privilege mode last k).take MAX_WORDS_NUM) :
      k ∈ kids t' ∧ Visible privilege mode k.1 := by
    obtain ⟨hmem, hoffers⟩ := List.mem_filter.mp (List.mem_of_mem_take hk)
    exact ⟨hmem, (of_decide_eq_true hoffers).1⟩
  constructor
  · intro h
    have htold : ToldAll privilege mode t front := (told_all_iff hroom).mpr (hcompletions ▸ h.descended)
    refine ⟨htold, fun t' ht' k hk => ?_⟩
    have hfound := h.accepted k (by rw [hcompletions, complete_reached hroom htold, ht']; exact hk)
    rw [accepts, ht'] at hfound
    exact (own_iff (hoffered hk).1 (hoffered hk).2).mp hfound
  · intro h
    refine ⟨by rw [hcompletions]; exact (told_all_iff hroom).mp h.told, fun k hk => ?_⟩
    rw [hcompletions, complete_reached hroom h.told] at hk
    unfold accepts
    cases hreached : reached privilege mode t front with
    | none =>
      rw [hreached] at hk
      exact absurd hk List.not_mem_nil
    | some t' =>
      rw [hreached] at hk
      exact (own_iff (hoffered hk).1 (hoffered hk).2).mpr (h.own t' hreached k hk)

/-- In a list where a word passes for one command only, a name that asks for no help is its own. -/
theorem unambiguous_own (h : Unambiguous (level t))
    (hd : (kids t).Pairwise fun j k => ¬ SameName j.1.entry.command k.1.entry.command)
    (hhelp : k.1.entry.command.getLast? ≠ some '?') : Own privilege mode t k := by
  refine ⟨hhelp, fun before behind heq _ j hj _ hpass => ?_⟩
  have hone := h.one
  rw [level_eq, List.pairwise_map, heq] at hone
  rw [heq] at hd
  have hk : k.1 ∈ level t := kid_level (heq ▸ List.mem_append_right _ List.mem_cons_self)
  have hsame := (List.pairwise_append.mp hone).2.2 j hj k List.mem_cons_self _ hpass (h.own k.1 hk)
  exact (List.pairwise_append.mp hd).2.2 j hj k List.mem_cons_self hsame

theorem reached_every {Q : List Fields → Prop} {t' : cli_command} (h : Every Q t)
    (hreached : reached privilege mode t front = some t') : Every Q t' := by
  induction front generalizing t with
  | nil => exact Option.some.inj hreached ▸ h
  | cons word rest ih =>
    rw [reached, Option.bind_eq_some_iff] at hreached
    obtain ⟨k, hfind, hreached⟩ := hreached
    obtain ⟨-, ⟨before, ⟨behind, heq⟩, -⟩, -⟩ := find_descends_iff.mp hfind
    have hk : k ∈ kids t := heq ▸ List.mem_append_right _ List.mem_cons_self
    exact ih (below_kid h.2 hk) hreached

/-- Where no two siblings have a name, and a word passes for one of them only, the words in front decide. -/
theorem clear_iff_told (h : Every Unambiguous t) (hd : Distinct t)
    (hhelp : Every (fun l => ∀ c ∈ l, c.entry.command.getLast? ≠ some '?') t) :
    Clear privilege mode t front last ↔ ToldAll privilege mode t front := by
  refine ⟨Clear.told, fun htold => ⟨htold, fun t' ht' k hk => ?_⟩⟩
  have hmem : k ∈ kids t' := (List.mem_filter.mp (List.mem_of_mem_take hk)).1
  exact unambiguous_own (reached_every h ht').1 (distinct_kids (reached_every hd ht'))
    ((reached_every hhelp ht').1 k.1 (kid_level hmem))

end

/-- `mac` with a child, beside `mac-address`. -/
def mac_tree : cli_command :=
  (register_all Commands.init
    [named none ['m', 'a', 'c'], named none ['m', 'a', 'c', '-', 'a', 'd', 'd', 'r', 'e', 's', 's'],
      named (some 0) ['a', 'g', 'e']]).cmd_root

/-- Behind `mac` and a blank there is no completion, but the look-up goes down from `mac`. -/
theorem a_name_that_starts_another_is_not_completed :
    ¬ ∀ front last, completion_words ['m', 'a', 'c', ' '] = some (front, last) →
      Agrees 0 0 mac_tree ['m', 'a', 'c', ' '] front := by
  intro h
  have hdescended := (h [['m', 'a', 'c']] none (by decide)).descended
  exact absurd hdescended (by decide)

end gwdonu.cli_parser
