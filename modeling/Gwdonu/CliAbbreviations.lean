-- The abbreviations of the commands: which registrations keep them unambiguous, and that
-- a line then runs the same command in whatever order siblings are registered.
import Mathlib.Data.List.Nodup
import Mathlib.Data.List.Pairwise
import Gwdonu.CliCommands

namespace gwdonu.cli_parser

/-! ## The law -/

/-- The commands of a list, one sibling behind the other. -/
def level : cli_command → List Fields
  | .NULL => []
  | .record c _ next => c :: level next

/-- Of the lists of children below the commands of a list. -/
def Below (Q : List Fields → Prop) : cli_command → Prop
  | .NULL => True
  | .record _ children next => (Q (level children) ∧ Below Q children) ∧ Below Q next

/-- Of every list of siblings. -/
def Every (Q : List Fields → Prop) (t : cli_command) : Prop := Q (level t) ∧ Below Q t

def SameName (x y : List Char) : Prop := lower x = lower y

instance (x y : List Char) : Decidable (SameName x y) := inferInstanceAs (Decidable (_ = _))

/-- A word passes for one sibling only, but for those of the same name, and a name passes for its own command. -/
structure Unambiguous (l : List Fields) : Prop where
  one : l.Pairwise fun x y => ∀ word, Passes x word → Passes y word → SameName x.entry.command y.entry.command
  own : ∀ x ∈ l, Passes x x.entry.command

/-- No two siblings of the same name. -/
def Distinct (t : cli_command) : Prop :=
  Every (fun l => l.Pairwise fun x y => ¬ SameName x.entry.command y.entry.command) t

/-- The commands, each with those above it. -/
def paths : cli_command → List (List Entry)
  | .NULL => []
  | .record c children next => [c.entry] :: (paths children).map (c.entry :: ·) ++ paths next

/-- The same commands under the same ones, in any order. -/
def Reordered (t t' : cli_command) : Prop := ∀ p, p ∈ paths t ↔ p ∈ paths t'

/-! ## The condition -/

/-- The record and its name. -/
abbrev Named := Nat × List Char

def Fields.named (c : Fields) : Named := (c.index, c.entry.command)

/-- What a command of `counted` has in common with a sibling but for upper and lower case, it has in
common exactly with another command of `counted`. -/
def Covered (siblings counted : List Named) : Prop :=
  ∀ x ∈ counted, ∀ y ∈ siblings, y.1 = x.1 ∨ SameName x.2 y.2 ∨ matched (lower x.2) (lower y.2) ≤ 1 ∨
    ∃ z ∈ counted, z.1 ≠ x.1 ∧ matched (lower x.2) (lower y.2) ≤ matched x.2 z.2

def Self (l : List Fields) : Prop := Covered (l.map Fields.named) (l.map Fields.named)

/-- `front` are the siblings in front, which are not counted again when `parent` is among `t`. -/
def CarefulUnder (parent : Nat) (c : cli_command) : List Fields → cli_command → Prop
  | _, .NULL => True
  | front, .record p children next =>
    if p.index = parent then
      Covered ((front ++ p :: level next).map Fields.named) ((p :: level next).map Fields.named) ∧
        Below Self (.record p (append c children) next)
    else CarefulUnder parent c [] children ∧ CarefulUnder parent c (front ++ [p]) next

/-- In each list of siblings that the registration counts again, what is in common is covered. -/
def Careful (s : Commands) (r : Registration) : Prop :=
  match r.command with
  | none => True
  | some command =>
    let c := r.record command s.used
    match r.parent with
    | some parent => CarefulUnder parent c [] s.cmd_root
    | none => Every Self (append c s.cmd_root)

def CarefulRun : Commands → List Registration → Prop
  | _, [] => True
  | s, r :: rs => Careful s r ∧ CarefulRun (gw_cli_register_command s r).1 rs

instance (siblings counted : List Named) : Decidable (Covered siblings counted) :=
  inferInstanceAs (Decidable (∀ x ∈ counted, ∀ y ∈ siblings, y.1 = x.1 ∨ SameName x.2 y.2 ∨
    matched (lower x.2) (lower y.2) ≤ 1 ∨
      ∃ z ∈ counted, z.1 ≠ x.1 ∧ matched (lower x.2) (lower y.2) ≤ matched x.2 z.2))

instance : DecidablePred Self := fun l =>
  inferInstanceAs (Decidable (Covered (l.map Fields.named) (l.map Fields.named)))

instance decidableBelow (Q : List Fields → Prop) [DecidablePred Q] : DecidablePred (Below Q)
  | .NULL => .isTrue trivial
  | .record _ children next =>
    have := decidableBelow Q children
    have := decidableBelow Q next
    inferInstanceAs (Decidable ((Q (level children) ∧ Below Q children) ∧ Below Q next))

instance (Q : List Fields → Prop) [DecidablePred Q] : DecidablePred (Every Q) := fun t =>
  inferInstanceAs (Decidable (Q (level t) ∧ Below Q t))

instance decidableCarefulUnder (parent : Nat) (c : cli_command) :
    ∀ front t, Decidable (CarefulUnder parent c front t)
  | _, .NULL => .isTrue trivial
  | front, .record p children next =>
    have := decidableCarefulUnder parent c [] children
    have := decidableCarefulUnder parent c (front ++ [p]) next
    inferInstanceAs (Decidable (if p.index = parent then _ ∧ _ else _ ∧ _))

instance (s : Commands) : DecidablePred (Careful s)
  | ⟨_, none, _, _, _⟩ => .isTrue trivial
  | ⟨some _, some _, _, _, _⟩ => inferInstanceAs (Decidable (CarefulUnder _ _ _ _))
  | ⟨none, some _, _, _, _⟩ => inferInstanceAs (Decidable (Every _ _))

instance decidableCarefulRun : ∀ s rs, Decidable (CarefulRun s rs)
  | _, [] => .isTrue trivial
  | s, r :: rs =>
    have := decidableCarefulRun (gw_cli_register_command s r).1 rs
    inferInstanceAs (Decidable (Careful s r ∧ CarefulRun (gw_cli_register_command s r).1 rs))

/-! ## Names -/

section
variable {a b word : List Char} {n : Nat}

theorem matched_pos (a b : List Char) : 1 ≤ matched a b := by
  induction a generalizing b with
  | nil => exact Nat.le_refl 1
  | cons x a ih =>
    cases b with
    | nil => exact Nat.le_refl 1
    | cons y b =>
      rw [matched]
      split
      · exact Nat.le_add_left 1 _
      · exact Nat.le_refl 1

theorem matched_lower (a b : List Char) : matched a b ≤ matched (lower a) (lower b) := by
  induction a generalizing b with
  | nil => exact Nat.le_refl 1
  | cons x a ih =>
    cases b with
    | nil => exact Nat.le_refl 1
    | cons y b =>
      change matched (x :: a) (y :: b) ≤ matched (x.toLower :: lower a) (y.toLower :: lower b)
      rw [matched, matched]
      by_cases hxy : x = y
      · rw [if_pos hxy, if_pos (congrArg Char.toLower hxy)]
        exact Nat.add_le_add_right (ih b) 1
      · rw [if_neg hxy]
        split
        · exact Nat.le_add_left 1 _
        · exact Nat.le_refl 1

theorem length_lt_matched (ha : word <+: a) (hb : word <+: b) : word.length < matched a b := by
  induction word generalizing a b with
  | nil => exact matched_pos a b
  | cons w word ih =>
    obtain ⟨a, rfl⟩ := ha
    obtain ⟨b, rfl⟩ := hb
    rw [List.cons_append, List.cons_append, matched, if_pos rfl]
    exact Nat.succ_lt_succ (ih ⟨a, rfl⟩ ⟨b, rfl⟩)

/-- A whole word is compared exactly when it starts the name. -/
theorem starts_iff {name : List Char} : strncasecmp name word word.length ↔ lower word <+: lower name := by
  have hlength : (lower word).length = word.length := List.length_map _
  rw [strncasecmp, List.prefix_iff_eq_take, hlength, eq_comm, List.take_of_length_le (Nat.le_of_eq hlength)]

/-- A word passes exactly when it starts the name, and has the length that is unique or is the name. -/
theorem passes_iff {c : Fields} : Passes c word ↔
    lower word <+: lower c.entry.command ∧ (c.unique_len ≤ word.length ∨ SameName c.entry.command word) := by
  have hlength : ∀ name : List Char, (lower name).length = name.length := fun name => List.length_map _
  rw [Passes, starts_iff, and_comm]
  apply and_congr_right
  rintro ⟨behind, heq⟩
  unfold strncasecmp SameName
  rw [← heq]
  constructor
  · intro h
    by_cases hlen : c.unique_len ≤ word.length
    · exact Or.inl hlen
    · -- all of the word is compared, and the end of the name
      rw [← hlength word] at hlen
      have hbehind : behind.length = 0 := by
        have hboth := congrArg List.length h
        rw [List.length_take, List.length_take, List.length_append] at hboth
        omega
      rw [List.eq_nil_of_length_eq_zero hbehind, List.append_nil]
      exact Or.inr rfl
  · rintro (hlen | hsame)
    · exact List.take_append_of_le_length ((hlength word).symm ▸ hlen)
    · rw [hsame]

end

/-! ## The lengths that are counted -/

/-- The length of a command is one more than what a sibling has in common with it, and not more than
what one has in common exactly. -/
structure Right (siblings : List Named) (x : Fields) : Prop where
  least : 1 ≤ x.unique_len
  told : ∀ y ∈ siblings, y.1 = x.index ∨ SameName x.entry.command y.2 ∨
    matched (lower x.entry.command) (lower y.2) ≤ x.unique_len
  most : x.unique_len ≤ 1 ∨ ∃ y ∈ siblings, y.1 ≠ x.index ∧ x.unique_len ≤ matched x.entry.command y.2

/-- The records of a list are different ones of the first `n`. -/
structure Numbered (n : Nat) (siblings : List Named) : Prop where
  fresh : ∀ y ∈ siblings, y.1 < n
  nodup : (siblings.map Prod.fst).Nodup

structure Kept (n : Nat) (l : List Fields) : Prop where
  numbered : Numbered n (l.map Fields.named)
  right : ∀ x ∈ l, Right (l.map Fields.named) x

section
variable {Q Q' : List Fields → Prop} {t children next commands c' : cli_command} {c x : Fields} {n len : Nat}
  {l front : List Fields} {e : Entry}

theorem below_mono (hQ : ∀ l, Q l → Q' l) (h : Below Q t) : Below Q' t := by
  induction t with
  | NULL => trivial
  | record c children next ihc ihn => exact ⟨⟨hQ _ h.1.1, ihc h.1.2⟩, ihn h.2⟩

theorem below_and (h : Below Q t) (h' : Below Q' t) : Below (fun l => Q l ∧ Q' l) t := by
  induction t with
  | NULL => trivial
  | record c children next ihc ihn => exact ⟨⟨⟨h.1.1, h'.1.1⟩, ihc h.1.2 h'.1.2⟩, ihn h.2 h'.2⟩

theorem longest_cons (c p : Fields) (children next : cli_command) (len : Nat) :
    longest c (.record p children next) len =
      longest c next (if c.index = p.index then len else max len (matched c.entry.command p.entry.command)) := by
  have hmax : ∀ m : Nat, (if len < m then m else len) = max len m := by
    intro m
    rw [Nat.max_def]
    split_ifs
    all_goals omega
  rw [longest]
  dsimp only
  rw [hmax]
  split
  · rfl
  · rfl

theorem len_le_longest (c : Fields) (commands : cli_command) (len : Nat) : len ≤ longest c commands len := by
  induction commands generalizing len with
  | NULL => exact Nat.le_refl len
  | record p children next _ ih =>
    rw [longest_cons]
    refine Nat.le_trans ?_ (ih _)
    split
    · exact Nat.le_refl len
    · exact Nat.le_max_left _ _

theorem matched_le_longest {p : Fields} (hp : p ∈ level commands) (hne : c.index ≠ p.index) :
    matched c.entry.command p.entry.command ≤ longest c commands len := by
  induction commands generalizing len with
  | NULL => exact absurd hp List.not_mem_nil
  | record p' children next _ ih =>
    rw [longest_cons]
    rcases List.mem_cons.mp hp with rfl | hp
    · rw [if_neg hne]
      exact Nat.le_trans (Nat.le_max_right _ _) (len_le_longest c next _)
    · exact ih hp

theorem longest_eq (c : Fields) (commands : cli_command) (len : Nat) :
    longest c commands len = len ∨
      ∃ p ∈ level commands, c.index ≠ p.index ∧ longest c commands len = matched c.entry.command p.entry.command := by
  induction commands generalizing len with
  | NULL => exact Or.inl rfl
  | record p children next _ ih =>
    rw [longest_cons]
    rcases ih (if c.index = p.index then len else max len (matched c.entry.command p.entry.command)) with
      heq | ⟨p', hp', hne, heq⟩
    · rw [heq]
      by_cases hindex : c.index = p.index
      · exact Or.inl (if_pos hindex)
      · rw [if_neg hindex]
        rcases Nat.le_total len (matched c.entry.command p.entry.command) with hle | hle
        · exact Or.inr ⟨p, List.mem_cons_self, hindex, Nat.max_eq_right hle⟩
        · exact Or.inl (Nat.max_eq_left hle)
    · exact Or.inr ⟨p', List.mem_cons_of_mem _ hp', hne, heq⟩

/-- The length is counted among the commands of a list. -/
def recount (commands : cli_command) (x : Fields) : Fields := { x with unique_len := longest x commands 1 }

theorem level_build (commands t : cli_command) : level (build commands t) = (level t).map (recount commands) := by
  induction t generalizing commands with
  | NULL => rfl
  | record c children next _ ih =>
    rw [build, level, level, List.map_cons, ih]
    rfl

theorem named_recount (commands : cli_command) (l : List Fields) :
    (l.map (recount commands)).map Fields.named = l.map Fields.named := by
  rw [List.map_map]
  rfl

/-- A command that is counted gets the right length when what it has in common is covered. -/
theorem recount_right {siblings : List Named} (hsub : ∀ y ∈ (level commands).map Fields.named, y ∈ siblings)
    (hcovered : Covered siblings ((level commands).map Fields.named)) (hx : x ∈ level commands) :
    Right siblings (recount commands x) := by
  refine ⟨len_le_longest x commands 1, ?_, ?_⟩
  · intro y hy
    rcases hcovered x.named (List.mem_map_of_mem hx) y hy with hsame | hname | hone | ⟨z, hz, hne, hle⟩
    · exact Or.inl hsame
    · exact Or.inr (Or.inl hname)
    · exact Or.inr (Or.inr (Nat.le_trans hone (len_le_longest x commands 1)))
    · obtain ⟨p, hp, rfl⟩ := List.mem_map.mp hz
      exact Or.inr (Or.inr (Nat.le_trans hle (matched_le_longest hp (Ne.symm hne))))
  · rcases longest_eq x commands 1 with heq | ⟨p, hp, hne, heq⟩
    · exact Or.inl (Nat.le_of_eq heq)
    · exact Or.inr ⟨p.named, hsub _ (List.mem_map_of_mem hp), Ne.symm hne, Nat.le_of_eq heq⟩

/-- The siblings in front keep their lengths, and those from the parent on are counted. -/
theorem kept_recount (hnum : Numbered n ((front ++ level commands).map Fields.named))
    (hfront : ∀ x ∈ front, Right ((front ++ level commands).map Fields.named) x)
    (hcovered : Covered ((front ++ level commands).map Fields.named) ((level commands).map Fields.named)) :
    Kept n (front ++ (level commands).map (recount commands)) := by
  have hnamed : (front ++ (level commands).map (recount commands)).map Fields.named =
      (front ++ level commands).map Fields.named := by
    rw [List.map_append, named_recount, List.map_append]
  refine ⟨hnamed ▸ hnum, ?_⟩
  rw [hnamed]
  intro x hx
  rcases List.mem_append.mp hx with hx | hx
  · exact hfront x hx
  · obtain ⟨x', hx', rfl⟩ := List.mem_map.mp hx
    refine recount_right (fun y hy => ?_) hcovered hx'
    rw [List.map_append]
    exact List.mem_append_right _ hy

/-- A list of siblings that can be counted: its records are different, and what is in common is covered. -/
def Ready (n : Nat) (l : List Fields) : Prop := Numbered n (l.map Fields.named) ∧ Self l

theorem kept_whole (h : Ready n (level commands)) : Kept n (level (build commands commands)) := by
  rw [level_build]
  change Kept n ([] ++ (level commands).map (recount commands))
  exact kept_recount h.1 nofun h.2

theorem below_build (h : Below (Ready n) t) : Below (Kept n) (build commands t) := by
  induction t generalizing commands with
  | NULL => trivial
  | record c children next ihc ihn => exact ⟨⟨kept_whole h.1.1, ihc h.1.2⟩, ihn h.2⟩

theorem level_append (c commands : cli_command) : level (append c commands) = level commands ++ level c := by
  induction commands with
  | NULL => rfl
  | record p children next _ ih =>
    rw [append, level, level, ih]
    rfl

theorem below_append (hc : Below Q c') (h : Below Q commands) : Below Q (append c' commands) := by
  induction commands with
  | NULL => exact hc
  | record p children next _ ih => exact ⟨h.1, ih h.2⟩

/-! ## A registration -/

theorem numbered_mono {siblings : List Named} (h : Numbered n siblings) : Numbered (n + 1) siblings :=
  ⟨fun y hy => Nat.lt_succ_of_lt (h.fresh y hy), h.nodup⟩

theorem kept_mono (h : Kept n l) : Kept (n + 1) l := ⟨numbered_mono h.numbered, h.right⟩

theorem numbered_append (h : Numbered n (l.map Fields.named)) (hc : c.index = n) :
    Numbered (n + 1) ((l ++ [c]).map Fields.named) := by
  rw [List.map_append]
  constructor
  · intro y hy
    rcases List.mem_append.mp hy with hy | hy
    · exact Nat.lt_succ_of_lt (h.fresh y hy)
    · rw [List.mem_singleton.mp hy]
      exact Nat.lt_succ_of_le (Nat.le_of_eq hc)
  · rw [List.map_append, List.nodup_append]
    refine ⟨h.nodup, by simp, ?_⟩
    rintro _ hold _ hnew rfl
    obtain ⟨y, hy, hindex⟩ := List.mem_map.mp hold
    have hlt : y.1 < n := h.fresh y hy
    rw [hindex, List.mem_singleton.mp hnew] at hlt
    exact Nat.lt_irrefl n (hc ▸ hlt)

/-- The children of a record that get a new one at their end. -/
theorem ready_append (hnum : Every (fun l => Numbered n (l.map Fields.named)) children) (hc : c.index = n) :
    Every (fun l => Numbered (n + 1) (l.map Fields.named)) (append (.record c .NULL .NULL) children) := by
  constructor
  · rw [level_append]
    exact numbered_append hnum.1 hc
  · refine below_append ⟨⟨⟨nofun, List.nodup_nil⟩, trivial⟩, trivial⟩ ?_
    exact below_mono (fun _ => numbered_mono) hnum.2

theorem put_under_kept {parent : Nat} (hc : c.index = n) (h : Kept n (front ++ level t)) (hbelow : Below (Kept n) t)
    (hcareful : CarefulUnder parent (.record c .NULL .NULL) front t) :
    Kept (n + 1) (front ++ level (put_under parent (.record c .NULL .NULL) t)) ∧
      Below (Kept (n + 1)) (put_under parent (.record c .NULL .NULL) t) := by
  induction t generalizing front with
  | NULL => exact ⟨kept_mono h, trivial⟩
  | record p children next ihc ihn =>
    rw [put_under]
    rw [CarefulUnder] at hcareful
    by_cases hp : p.index = parent
    · rw [if_pos hp] at hcareful ⊢
      obtain ⟨hcovered, hself⟩ := hcareful
      rw [gw_cli_build_shortest, level_build]
      constructor
      · exact kept_recount (numbered_mono h.numbered)
          (fun x hx => h.right x (List.mem_append_left _ hx)) hcovered
      · obtain ⟨hchildren, hnext⟩ := below_mono (fun _ (h : Kept n _) => h.numbered) hbelow
        obtain ⟨hlevel, hdown⟩ := ready_append hchildren hc
        exact below_build (below_and ⟨⟨hlevel, hdown⟩, below_mono (fun _ => numbered_mono) hnext⟩ hself)
    · rw [if_neg hp] at hcareful ⊢
      obtain ⟨hchildren, hnext⟩ := hcareful
      have hbelow' := @ihc [] hbelow.1.1 hbelow.1.2 hchildren
      rw [level, List.append_cons] at h ⊢
      obtain ⟨hsame, hbehind⟩ := ihn h hbelow.2 hnext
      exact ⟨hsame, hbelow', hbehind⟩

/-- What one registration keeps. -/
theorem register_kept {s : Commands} {r : Registration} (h : Every (Kept s.used) s.cmd_root) (hcareful : Careful s r) :
    Every (Kept (gw_cli_register_command s r).1.used) (gw_cli_register_command s r).1.cmd_root := by
  unfold Careful at hcareful
  unfold gw_cli_register_command
  cases hcommand : r.command with
  | none => exact h
  | some command =>
    rw [hcommand] at hcareful
    dsimp only at hcareful ⊢
    by_cases hfull : s.used = GW_MAX_CLI_COMMAND
    · rw [if_pos hfull]
      exact h
    · rw [if_neg hfull]
      dsimp only
      cases hparent : r.parent with
      | none =>
        rw [hparent] at hcareful
        obtain ⟨hlevel, hdown⟩ : Every (fun l => Numbered (s.used + 1) (l.map Fields.named))
            (append (r.record command s.used) s.cmd_root) :=
          ready_append ⟨h.1.numbered, below_mono (fun _ h => h.numbered) h.2⟩ rfl
        exact ⟨kept_whole ⟨hlevel, hcareful.1⟩, below_build (below_and hdown hcareful.2)⟩
      | some parent =>
        rw [hparent] at hcareful
        exact put_under_kept rfl h.1 h.2 hcareful

/-- What a whole run keeps. -/
theorem run_kept {s : Commands} {rs : List Registration} (h : Every (Kept s.used) s.cmd_root)
    (hcareful : CarefulRun s rs) : Every (Kept (register_all s rs).used) (register_all s rs).cmd_root := by
  induction rs generalizing s with
  | nil => exact h
  | cons r rs ih => exact ih (register_kept h hcareful.1) hcareful.2

/-! ## Which commands pass -/

variable {t' : cli_command} {n' : Nat} {x' y : Fields} {l' : List Fields} {word : List Char}

theorem distinct_eq {α : Type} {f : α → List Char} {l : List α} (h : l.Pairwise fun x y => ¬ SameName (f x) (f y))
    {x y : α} (hx : x ∈ l) (hy : y ∈ l) (hsame : SameName (f x) (f y)) : x = y := by
  have hsymm : Std.Symm fun x y => ¬ SameName (f x) (f y) := ⟨fun _ _ h h' => h h'.symm⟩
  by_contra hne
  exact h.forall hx hy hne hsame

theorem kept_eq (h : Kept n l) (hx : x ∈ l) (hy : y ∈ l) (hindex : y.index = x.index) : y = x := by
  have hnodup := h.numbered.nodup
  rw [List.map_map] at hnodup
  exact List.inj_on_of_nodup_map hnodup hy hx hindex

/-- A word that passes, and that a sibling of another name starts with too, is the name of the command. -/
theorem passes_name (h : Kept n l) (hx : x ∈ l) (hy : y ∈ l) (hne : y.index ≠ x.index) (hpass : Passes x word)
    (hstart : lower word <+: lower y.entry.command) :
    SameName x.entry.command y.entry.command ∨ SameName x.entry.command word := by
  rw [passes_iff] at hpass
  obtain ⟨hown, hlen | hsame⟩ := hpass
  · rcases (h.right x hx).told y.named (List.mem_map_of_mem hy) with hindex | hsame | hle
    · exact absurd hindex hne
    · exact Or.inl hsame
    · have hlt := length_lt_matched hown hstart
      rw [lower, List.length_map] at hlt
      exact absurd (Nat.le_trans hle hlen) (Nat.not_le.mpr hlt)
  · exact Or.inr hsame

theorem kept_unambiguous (h : Kept n l) : Unambiguous l := by
  constructor
  · have hnodup : (l.map Fields.index).Nodup := by
      have hnodup := h.numbered.nodup
      rwa [List.map_map] at hnodup
    refine (List.pairwise_map.mp hnodup).imp_of_mem ?_
    intro x y hx hy hne word hpx hpy
    rcases passes_name h hx hy (Ne.symm hne) hpx (passes_iff.mp hpy).1 with hsame | hsame
    · exact hsame
    · rcases passes_name h hy hx hne hpy (passes_iff.mp hpx).1 with hsame' | hsame'
      · exact hsame'.symm
      · exact hsame.trans hsame'.symm
  · exact fun x _ => passes_iff.mpr ⟨List.prefix_rfl, Or.inr rfl⟩

/-- A word passes for a command in whatever order its siblings are. -/
theorem passes_reordered (h : Kept n l) (h' : Kept n' l')
    (hd : l'.Pairwise fun x y => ¬ SameName x.entry.command y.entry.command)
    (hback : ∀ y' ∈ l', ∃ y ∈ l, y.entry = y'.entry) (hx : x ∈ l) (hx' : x' ∈ l') (hentry : x'.entry = x.entry)
    (hpass : Passes x word) : Passes x' word := by
  rw [passes_iff] at hpass ⊢
  rw [hentry]
  refine ⟨hpass.1, ?_⟩
  rcases hpass.2 with hlen | hsame
  · refine Or.inl (Nat.le_trans ?_ hlen)
    rcases (h'.right x' hx').most with hone | ⟨z, hz, hne, hle⟩
    · exact Nat.le_trans hone (h.right x hx).least
    · obtain ⟨y', hy', rfl⟩ := List.mem_map.mp hz
      obtain ⟨y, hy, hyentry⟩ := hback y' hy'
      have hother : ¬ SameName x.entry.command y.entry.command := by
        rw [hyentry, ← hentry]
        exact fun hsame => hne (congrArg Fields.index (distinct_eq hd hx' hy' hsame)).symm
      rcases (h.right x hx).told y.named (List.mem_map_of_mem hy) with hindex | hsame | htold
      · rw [kept_eq h hx hy hindex] at hother
        exact absurd rfl hother
      · exact absurd hsame hother
      · change x'.unique_len ≤ matched x'.entry.command y'.entry.command at hle
        rw [hentry, ← hyentry] at hle
        exact Nat.le_trans (Nat.le_trans hle (matched_lower _ _)) htold
  · exact Or.inr hsame

/-! ## The look-up of a line -/

/-- The commands of a list, each with its children. -/
def kids : cli_command → List (Fields × cli_command)
  | .NULL => []
  | .record c children next => (c, children) :: kids next

theorem level_eq (t : cli_command) : level t = (kids t).map Prod.fst := by
  induction t with
  | NULL => rfl
  | record c children next _ ih => rw [level, kids, List.map_cons, ih]

theorem kid_level {k : Fields × cli_command} (hk : k ∈ kids t) : k.1 ∈ level t := by
  rw [level_eq]
  exact List.mem_map_of_mem hk

theorem below_kid (h : Below Q t) {k : Fields × cli_command} (hk : k ∈ kids t) : Every Q k.2 := by
  induction t with
  | NULL => exact absurd hk List.not_mem_nil
  | record c children next _ ih =>
    rcases List.mem_cons.mp hk with rfl | hk
    · exact h.1
    · exact ih h.2 hk

theorem mem_paths {p : List Entry} : p ∈ paths t ↔
    ∃ k ∈ kids t, ∃ q, p = k.1.entry :: q ∧ (q = [] ∨ q ∈ paths k.2) := by
  induction t with
  | NULL => simp [paths, kids]
  | record c children next _ ih =>
    rw [paths, kids]
    simp only [List.cons_append, List.mem_cons, List.mem_append, List.mem_map, ih]
    constructor
    · rintro (rfl | ⟨q, hq, rfl⟩ | ⟨k, hk, hp⟩)
      · exact ⟨_, Or.inl rfl, [], rfl, Or.inl rfl⟩
      · exact ⟨_, Or.inl rfl, q, rfl, Or.inr hq⟩
      · exact ⟨k, Or.inr hk, hp⟩
    · rintro ⟨k, rfl | hk, q, rfl, hq⟩
      · rcases hq with rfl | hq
        · exact Or.inl rfl
        · exact Or.inr (Or.inl ⟨q, hq, rfl⟩)
      · exact Or.inr (Or.inr ⟨k, hk, q, rfl, hq⟩)

theorem reordered_symm (h : Reordered t t') : Reordered t' t := fun p => (h p).symm

theorem counterpart (h : Reordered t t') {k : Fields × cli_command} (hk : k ∈ kids t) :
    ∃ k' ∈ kids t', k'.1.entry = k.1.entry := by
  obtain ⟨k', hk', q, heq, -⟩ := mem_paths.mp ((h [k.1.entry]).mp (mem_paths.mpr ⟨k, hk, [], rfl, Or.inl rfl⟩))
  exact ⟨k', hk', (List.cons.inj heq).1.symm⟩

theorem distinct_kids (hd : Distinct t) :
    (kids t).Pairwise fun k k' => ¬ SameName k.1.entry.command k'.1.entry.command := by
  have hlevel := hd.1
  rw [level_eq] at hlevel
  exact List.pairwise_map.mp hlevel

theorem paths_kid (h : Reordered t t') (hd' : Distinct t') {k k' : Fields × cli_command} (hk : k ∈ kids t)
    (hk' : k' ∈ kids t') (hentry : k'.1.entry = k.1.entry) {q : List Entry} (hq : q ∈ paths k.2) : q ∈ paths k'.2 := by
  obtain ⟨k'', hk'', q', heq, hq'⟩ :=
    mem_paths.mp ((h (k.1.entry :: q)).mp (mem_paths.mpr ⟨k, hk, q, rfl, Or.inr hq⟩))
  obtain ⟨hentry', rfl⟩ := List.cons.inj heq
  have hsame : SameName k''.1.entry.command k'.1.entry.command := by
    rw [← hentry', hentry]
    rfl
  rw [distinct_eq (distinct_kids hd') hk'' hk' hsame] at hq'
  rcases hq' with rfl | hq'
  · obtain ⟨_, _, _, hnil, _⟩ := mem_paths.mp hq
    exact absurd hnil nofun
  · exact hq'

theorem reordered_kid (h : Reordered t t') (hd : Distinct t) (hd' : Distinct t') {k k' : Fields × cli_command}
    (hk : k ∈ kids t) (hk' : k' ∈ kids t') (hentry : k'.1.entry = k.1.entry) : Reordered k.2 k'.2 := fun _ =>
  ⟨paths_kid h hd' hk hk' hentry, paths_kid (reordered_symm h) hd hk' hk hentry.symm⟩

theorem null_reordered (h : Reordered t t') (ht : t = .NULL) : t' = .NULL := by
  rw [ht] at h
  cases t' with
  | NULL => rfl
  | record c children next => exact absurd ((h [c.entry]).mpr List.mem_cons_self) List.not_mem_nil

variable {answer : List Call → Int} {privilege mode : Int} {name rest words : List (List Char)} {again : Option Ran}
  {k : Fields × cli_command}

/-- The loop takes the command up. -/
def Hit (privilege : Int) (word : List Char) (k : Fields × cli_command) : Prop :=
  ¬ (privilege < k.1.entry.privilege ∨ ¬ Passes k.1 word)

/-- What a command does in a mode. -/
def run (answer : List Call → Int) (privilege : Int) (k : Fields × cli_command) (name rest : List (List Char))
    (mode : Int) : Ran :=
  found answer k.1 k.2 (name ++ [k.1.entry.command]) rest mode
    (gw_cli_find_command answer privilege k.2 (name ++ [k.1.entry.command]) mode rest)

/-- What a line does when one command only is taken up. -/
def visit (answer : List Call → Int) (privilege : Int) (k : Fields × cli_command) (name rest : List (List Char))
    (mode : Int) : Ran :=
  if k.1.entry.mode = mode ∨ k.1.entry.mode = MODE_ANY then run answer privilege k name rest mode
  else if MODE_CONFIG < mode ∧ k.1.entry.mode = MODE_CONFIG then run answer privilege k name rest MODE_CONFIG
  else ⟨[], mode, CLI_ERROR_ARG⟩

theorem search_none (h : ∀ k ∈ kids t, ¬ Hit privilege word k) :
    search answer privilege t name mode word rest again = again.getD ⟨[], mode, CLI_ERROR_ARG⟩ := by
  induction t with
  | NULL => rfl
  | record c children next _ ih =>
    rw [search]
    dsimp only
    rw [if_pos (not_not.mp (h _ List.mem_cons_self))]
    exact ih fun k hk => h k (List.mem_cons_of_mem _ hk)

theorem search_one (hk : k ∈ kids t) (hit : Hit privilege word k)
    (hone : (kids t).Pairwise fun k k' => ¬ (Hit privilege word k ∧ Hit privilege word k')) :
    search answer privilege t name mode word rest none = visit answer privilege k name rest mode := by
  induction t with
  | NULL => exact absurd hk List.not_mem_nil
  | record c children next _ ih =>
    obtain ⟨hhead, hone⟩ := List.pairwise_cons.mp hone
    rw [search]
    dsimp only
    rcases List.mem_cons.mp hk with rfl | hk
    · have hno : ∀ k ∈ kids next, ¬ Hit privilege word k := fun k hk hk' => hhead k hk ⟨hit, hk'⟩
      rw [if_neg hit, search_none hno, search_none hno]
      rfl
    · rw [if_pos (not_not.mp fun hit' => hhead k hk ⟨hit', hit⟩)]
      exact ih hk hone

theorem hit_once (h : Kept n (level t)) (hd : Distinct t) :
    (kids t).Pairwise fun k k' => ¬ (Hit privilege word k ∧ Hit privilege word k') := by
  have hone := (kept_unambiguous h).one
  rw [level_eq, List.pairwise_map] at hone
  refine hone.imp₂ ?_ (distinct_kids hd)
  rintro k k' hpass hne ⟨hit, hit'⟩
  exact hne (hpass word (not_not.mp fun hno => hit (Or.inr hno)) (not_not.mp fun hno => hit' (Or.inr hno)))

theorem hit_reordered (h : Reordered t t') (ht : Kept n (level t)) (ht' : Kept n' (level t')) (hd' : Distinct t')
    {k k' : Fields × cli_command} (hk : k ∈ kids t) (hk' : k' ∈ kids t') (hentry : k'.1.entry = k.1.entry)
    (hit : Hit privilege word k) : Hit privilege word k' := by
  have hback : ∀ y' ∈ level t', ∃ y ∈ level t, y.entry = y'.entry := by
    intro y' hy'
    rw [level_eq] at hy'
    obtain ⟨z', hz', rfl⟩ := List.mem_map.mp hy'
    obtain ⟨z, hz, heq⟩ := counterpart (reordered_symm h) hz'
    exact ⟨z.1, kid_level hz, heq⟩
  rintro (hpriv | hno)
  · rw [hentry] at hpriv
    exact hit (Or.inl hpriv)
  · refine hno (passes_reordered ht ht' hd'.1 hback (kid_level hk) (kid_level hk') hentry ?_)
    exact not_not.mp fun hno => hit (Or.inr hno)

/-- A line does the same in whatever order siblings are registered. -/
theorem find_reordered (h : Reordered t t') (ht : Every (Kept n) t) (ht' : Every (Kept n') t') (hd : Distinct t)
    (hd' : Distinct t') : gw_cli_find_command answer privilege t name mode words =
      gw_cli_find_command answer privilege t' name mode words := by
  induction words generalizing t t' name mode with
  | nil => rfl
  | cons word rest ih =>
    unfold gw_cli_find_command enter
    dsimp only
    congr 1
    by_cases hhit : ∃ k ∈ kids t, Hit privilege word k
    · obtain ⟨k, hk, hit⟩ := hhit
      obtain ⟨k', hk', hentry⟩ := counterpart h hk
      have hkid := reordered_kid h hd hd' hk hk' hentry
      have hrun : ∀ mode, run answer privilege k name rest mode = run answer privilege k' name rest mode := by
        intro mode
        have hnull : k'.2 = .NULL ↔ k.2 = .NULL := ⟨null_reordered (reordered_symm hkid), null_reordered hkid⟩
        unfold run found
        rw [hentry, ih hkid (below_kid ht.2 hk) (below_kid ht'.2 hk') (below_kid hd.2 hk) (below_kid hd'.2 hk')]
        simp only [hnull]
      rw [search_one hk hit (hit_once ht.1 hd),
        search_one hk' (hit_reordered h ht.1 ht'.1 hd' hk hk' hentry hit) (hit_once ht'.1 hd')]
      unfold visit
      rw [hentry, hrun, hrun]
    · have hno : ∀ k ∈ kids t, ¬ Hit privilege word k := fun k hk hit => hhit ⟨k, hk, hit⟩
      have hno' : ∀ k' ∈ kids t', ¬ Hit privilege word k' := by
        intro k' hk' hit
        obtain ⟨k, hk, hentry⟩ := counterpart (reordered_symm h) hk'
        exact hno k hk (hit_reordered (reordered_symm h) ht'.1 ht.1 hd hk' hk hentry hit)
      rw [search_none hno, search_none hno']

theorem careful_kept {rs : List Registration} (h : CarefulRun Commands.init rs) :
    Every (Kept (register_all Commands.init rs).used) (register_all Commands.init rs).cmd_root :=
  run_kept ⟨⟨⟨nofun, List.nodup_nil⟩, nofun⟩, trivial⟩ h

theorem every_unambiguous (h : Every (Kept n) t) : Every Unambiguous t :=
  ⟨kept_unambiguous h.1, below_mono (fun _ => kept_unambiguous) h.2⟩

end

/-- In every run of registrations that cover what names have in common, a word passes for one sibling only
and a name for its own command, and a line does the same as in any other such run that
registers the same commands. -/
theorem abbreviations_are_unambiguous_while_names_are_covered (rs : List Registration)
    (h : CarefulRun Commands.init rs) :
    Every Unambiguous (register_all Commands.init rs).cmd_root ∧
      ∀ rs', CarefulRun Commands.init rs' →
        Reordered (register_all Commands.init rs).cmd_root (register_all Commands.init rs').cmd_root →
        Distinct (register_all Commands.init rs).cmd_root → Distinct (register_all Commands.init rs').cmd_root →
        ∀ answer privilege name mode words,
          gw_cli_find_command answer privilege (register_all Commands.init rs).cmd_root name mode words =
            gw_cli_find_command answer privilege (register_all Commands.init rs').cmd_root name mode words :=
  ⟨every_unambiguous (careful_kept h), fun _ h' hsame hd hd' _ _ _ _ _ =>
    find_reordered hsame (careful_kept h) (careful_kept h') hd hd'⟩

def named (parent : Option Nat) (command : List Char) : Registration := ⟨parent, some command, some 0, 0, MODE_ANY⟩

/-- `mac` and `memory` under `show`, in both orders. -/
theorem mac_and_memory_are_told_apart :
    let mac_memory := register_all Commands.init
      [named none ['s', 'h', 'o', 'w'], named (some 0) ['m', 'a', 'c'], named (some 0) ['m', 'e', 'm', 'o', 'r', 'y']]
    let memory_mac := register_all Commands.init
      [named none ['s', 'h', 'o', 'w'], named (some 0) ['m', 'e', 'm', 'o', 'r', 'y'], named (some 0) ['m', 'a', 'c']]
    Every Unambiguous mac_memory.cmd_root ∧ ∀ answer,
      gw_cli_find_command answer 0 mac_memory.cmd_root [] 0 [['s', 'h'], ['m', 'e']] =
        gw_cli_find_command answer 0 memory_mac.cmd_root [] 0 [['s', 'h'], ['m', 'e']] := by
  obtain ⟨hone, horder⟩ := abbreviations_are_unambiguous_while_names_are_covered
    [named none ['s', 'h', 'o', 'w'], named (some 0) ['m', 'a', 'c'], named (some 0) ['m', 'e', 'm', 'o', 'r', 'y']]
    (by decide)
  have horder' := horder
    [named none ['s', 'h', 'o', 'w'], named (some 0) ['m', 'e', 'm', 'o', 'r', 'y'], named (some 0) ['m', 'a', 'c']]
    (by decide) (fun _ => List.Perm.mem_iff (by decide)) (by unfold Distinct; decide) (by unfold Distinct; decide)
  exact ⟨hone, fun answer => horder' answer 0 [] 0 _⟩

/-- `Onu` and `oam` are compared as they are written, and looked up as `o`. A child under `abc`
counts its length again without `ab` in front. -/
theorem a_word_passes_for_two_siblings :
    ¬ Every Unambiguous (register_all Commands.init [named none ['O', 'n', 'u'], named none ['o', 'a', 'm']]).cmd_root ∧
      ¬ Every Unambiguous (register_all Commands.init
        [named none ['a', 'b'], named none ['a', 'b', 'c'], named (some 1) ['x']]).cmd_root := by
  constructor
  · intro h
    have hone := List.rel_of_pairwise_cons h.1.one List.mem_cons_self ['o'] (by decide) (by decide)
    exact absurd hone (by decide)
  · intro h
    have hone := List.rel_of_pairwise_cons h.1.one List.mem_cons_self ['a', 'b'] (by decide) (by decide)
    exact absurd hone (by decide)

end gwdonu.cli_parser
