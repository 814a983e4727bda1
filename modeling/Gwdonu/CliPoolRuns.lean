-- The removal of a command from the table, and whole runs of calls: after any of them the table holds
-- the tree of the commands.
import Gwdonu.CliPoolCalls

namespace gwdonu.cli_pool

open Function gwdonu.cli_parser forests runs

variable {s s' : Pool} {t : cli_command} {up head p : Option Nat} {n : Nat} {command : List Char}

/-! ## The removal -/

/-- The records are free. -/
def Pool.clear (s : Pool) (l : List Nat) : Pool :=
  { s with gw_cli_command := fun i => if i ∈ l then zero else s.gw_cli_command i }

theorem clear_mem {l : List Nat} {i : Nat} (hi : i ∈ l) : (s.clear l).gw_cli_command i = zero := if_pos hi

theorem clear_other {l : List Nat} {i : Nat} (hi : i ∉ l) : (s.clear l).gw_cli_command i = s.gw_cli_command i :=
  if_neg hi

theorem clear_set (s : Pool) (l r : List Nat) (c : Nat) :
    ((s.clear l).set c zero).clear r = s.clear (c :: (l ++ r)) := by
  unfold Pool.clear Pool.set
  congr 1
  funext i
  simp only [update_apply, List.mem_cons, List.mem_append]
  grind

theorem clear_last (s : Pool) (l : List Nat) (c : Nat) : (s.clear l).set c zero = s.clear (c :: l) := by
  have h := clear_set s l [] c
  rw [List.append_nil] at h
  rw [← h]
  unfold Pool.clear
  simp

/-- The loop frees the records of the commands from `head` on, and of those below them. -/
theorem freeList_eq (h : Holds (s.links counted) up head (shape fields t)) (hnodup : (indices t).Nodup)
    (hn : (indices t).length < n) : Pool.freeList n head s = some (s.clear (indices t)) := by
  induction t generalizing s up head n with
  | NULL =>
    obtain ⟨n, rfl⟩ := Nat.exists_eq_succ_of_ne_zero (Nat.ne_of_gt hn)
    obtain rfl : head = none := h
    show some s = some (s.clear [])
    unfold Pool.clear
    simp
  | record c children next ihchildren ihnext =>
    obtain ⟨rfl, -, hchildren, hnext⟩ := h
    obtain ⟨n, rfl⟩ := Nat.exists_eq_succ_of_ne_zero (Nat.ne_of_gt (Nat.lt_of_le_of_lt (Nat.zero_le _) hn))
    obtain ⟨-, hnotnext, hnodupchildren, hnodupnext, hapart⟩ := nodup_record hnodup
    rw [indices, List.length_cons, List.length_append] at hn
    have hfreed := ihchildren hchildren hnodupchildren (n := n) (by omega)
    have hrest : Holds (((s.clear (indices children)).set c.index zero).links counted) up
        (s.gw_cli_command c.index).next (shape fields next) := by
      refine hnext.congr fun i hi => same_links counted ?_
      rw [nodes_shape] at hi
      have hne : i ≠ c.index := fun heq => hnotnext (heq ▸ hi)
      rw [set_other _ hne, clear_other fun hi' => hapart i hi' hi]
    rw [Pool.freeList]
    rw [show (s.gw_cli_command c.index).children = (s.links counted).child c.index from rfl, hfreed]
    dsimp only [Option.bind_eq_bind, Option.bind_some]
    rw [ihnext hrest hnodupnext (by omega), clear_set, indices]

/-- What names the list that the loop is at: the record in front of it, or the root. -/
def Pool.slot (s : Pool) : Option Nat → Option Nat
  | none => s.cmd_root
  | some p => (s.gw_cli_command p).next

theorem indices_remove (command : List Char) (t : cli_command) : (indices (remove command t)).Sublist (indices t) := by
  induction t with
  | NULL => exact List.Sublist.refl _
  | record c children next _ ih =>
    rw [remove]
    split
    · exact (List.sublist_append_right _ _).cons _
    · exact (ih.append_left _).cons_cons _

/-- What the loop has done from a list on, behind `p`. -/
structure Removed (s s' : Pool) (p : Option Nat) (t t' : cli_command) : Prop where
  holds : Holds (s'.links counted) none (s'.slot p) (shape fields t')
  front : ∀ q ∈ p, s'.gw_cli_command q = { s.gw_cli_command q with next := (s'.gw_cli_command q).next }
  root : p ≠ none → s'.cmd_root = s.cmd_root
  other : ∀ i, i ∉ indices t → i ∉ p → s'.gw_cli_command i = s.gw_cli_command i
  freed : ∀ i ∈ indices t, i ∉ indices t' → s'.gw_cli_command i = zero
  usage : ∀ i ∈ indices t', (s'.gw_cli_command i).usage = (s.gw_cli_command i).usage

/-- The record in front, or the root, comes to name another list. -/
def Pool.relink (s : Pool) (p next : Option Nat) : Pool :=
  match p with
  | some p => s.set p { s.gw_cli_command p with next }
  | none => { s with cmd_root := next }

theorem relink_other {next : Option Nat} {i : Nat} (hi : i ∉ p) :
    (s.relink p next).gw_cli_command i = s.gw_cli_command i := by
  cases p with
  | none => rfl
  | some q => exact set_other _ fun heq => hi (heq ▸ rfl)

theorem unregisterLoop_found {c : Nat} (hname : (s.gw_cli_command c).entry.command = command) :
    s.unregisterLoop command (n + 1) (some c) p =
      (s.relink p (s.gw_cli_command c).next).gw_cli_free_command c := by
  rw [Pool.unregisterLoop, if_pos hname]
  cases p with
  | none => rfl
  | some q => rfl

theorem slot_relink (s : Pool) (p next : Option Nat) : (s.relink p next).slot p = next := by
  cases p with
  | none => rfl
  | some q => exact congrArg Record.next (set_self s q _)

/-- The record has been taken out, and it and those below it are free. -/
theorem removed_found {c : Fields} {children next : cli_command}
    (h : Holds (s.links counted) none head (shape fields (.record c children next)))
    (hp : ∀ q ∈ p, q ∉ indices (.record c children next)) (hnodup : (indices (.record c children next)).Nodup)
    (hfuel : (indices children).length < fuel) :
    ∃ s', (s.relink p (s.gw_cli_command c.index).next).gw_cli_free_command c.index = some s' ∧
      Removed s s' p (.record c children next) next := by
  obtain ⟨-, -, hchildren, hnext⟩ := h
  obtain ⟨-, hnotnext, hnodupchildren, -, hapart⟩ := nodup_record hnodup
  generalize hs₁ : s.relink p (s.gw_cli_command c.index).next = s₁
  have hin {i : Nat} (hi : i ∈ indices (.record c children next)) : i ∉ p := fun hip => hp i hip hi
  have hrelink {i : Nat} (hi : i ∉ p) : s₁.gw_cli_command i = s.gw_cli_command i := hs₁ ▸ relink_other hi
  have hkids : Holds (s₁.links counted) (some c.index) (s₁.gw_cli_command c.index).children
      (shape fields children) := by
    rw [hrelink (hin List.mem_cons_self)]
    refine hchildren.congr fun i hi => same_links counted (hrelink (hin ?_))
    rw [nodes_shape] at hi
    exact List.mem_cons_of_mem _ (List.mem_append_left _ hi)
  have hkeep {i : Nat} (hi : i ∉ c.index :: indices children) :
      (s₁.clear (c.index :: indices children)).gw_cli_command i = s₁.gw_cli_command i := clear_other hi
  have hbehind {i : Nat} (hi : i ∈ indices next) : i ∉ c.index :: indices children ∧ i ∉ p := by
    refine ⟨fun hi' => ?_, hin (List.mem_cons_of_mem _ (List.mem_append_right _ hi))⟩
    rcases List.mem_cons.mp hi' with rfl | hi'
    · exact hnotnext hi
    · exact hapart i hi' hi
  have hfront {q : Nat} (hq : q ∈ p) : q ∉ c.index :: indices children := by
    refine fun hq' => hp q hq ?_
    rw [indices, ← List.cons_append]
    exact List.mem_append_left _ hq'
  have hsplit (i : Nat) :
      i ∈ indices (.record c children next) ↔ i ∈ c.index :: indices children ∨ i ∈ indices next := by
    rw [indices, ← List.cons_append, List.mem_append]
  refine ⟨s₁.clear (c.index :: indices children), ?_, ?_, ?_, ?_, ?_, ?_, ?_⟩
  · rw [Pool.gw_cli_free_command, freeList_eq hkids hnodupchildren hfuel]
    dsimp only [Option.bind_eq_bind, Option.bind_some]
    rw [clear_last]
  · have hhead : (s₁.clear (c.index :: indices children)).slot p = (s.gw_cli_command c.index).next := by
      rw [← slot_relink s p (s.gw_cli_command c.index).next, hs₁]
      cases p with
      | none => rfl
      | some q => exact congrArg Record.next (hkeep (hfront rfl))
    rw [hhead]
    refine hnext.congr fun i hi => same_links counted ?_
    rw [nodes_shape] at hi
    rw [hkeep (hbehind hi).1, hrelink (hbehind hi).2]
  · intro q hq
    rw [hkeep (hfront hq), ← hs₁]
    obtain rfl := Option.mem_def.mp hq
    rw [Pool.relink, set_self]
  · intro hne
    rw [← hs₁]
    cases p with
    | none => exact absurd rfl hne
    | some q => rfl
  · intro i hi hip
    rw [hsplit, not_or] at hi
    rw [hkeep hi.1, hrelink hip]
  · exact fun i hi hi' => clear_mem (((hsplit i).mp hi).resolve_right hi')
  · intro i hi
    rw [hkeep (hbehind hi).1, hrelink (hbehind hi).2]

/-- The loop has gone past a record. -/
theorem Removed.past {c : Fields} {children next next' : cli_command}
    (h : Holds (s.links counted) none head (shape fields (.record c children next))) (hslot : s.slot p = head)
    (hp : ∀ q ∈ p, q ∉ indices (.record c children next)) (hnodup : (indices (.record c children next)).Nodup)
    (hremoved : Removed s s' (some c.index) next next') :
    Removed s s' p (.record c children next) (.record c children next') := by
  obtain ⟨rfl, hown, hchildren, -⟩ := h
  obtain ⟨hnotchildren, hnotnext, -, -, hapart⟩ := nodup_record hnodup
  have hc := hremoved.front c.index rfl
  have hout {i : Nat} (hi : i ∉ indices next) (hne : i ≠ c.index) : s'.gw_cli_command i = s.gw_cli_command i :=
    hremoved.other i hi fun heq => hne (Option.mem_some_iff.mp heq).symm
  have hkids {i : Nat} (hi : i ∈ indices children) : s'.gw_cli_command i = s.gw_cli_command i :=
    hout (hapart i hi) fun heq => hnotchildren (heq ▸ hi)
  have hfront {q : Nat} (hq : q ∈ p) : s'.gw_cli_command q = s.gw_cli_command q := by
    have hnot := hp q hq
    rw [indices, List.mem_cons, List.mem_append, not_or, not_or] at hnot
    exact hout hnot.2.2 hnot.1
  refine ⟨?_, ?_, ?_, ?_, ?_, ?_⟩
  · have hhead : s'.slot p = some c.index := by
      rw [← hslot]
      cases p with
      | none => exact hremoved.root (Option.some_ne_none _)
      | some q => exact congrArg Record.next (hfront rfl)
    refine ⟨hhead, ⟨?_, ?_⟩, ?_, hremoved.holds⟩
    · exact ((congrArg Record.parent hc).trans rfl).trans hown.1
    · exact ((congrArg counted hc).trans rfl).trans hown.2
    · rw [show (s'.links counted).child c.index = (s.links counted).child c.index from
        (congrArg Record.children hc).trans rfl]
      refine hchildren.congr fun i hi => same_links counted (hkids ?_)
      rw [nodes_shape] at hi
      exact hi
  · intro q hq
    rw [hfront hq]
  · intro _
    exact hremoved.root (Option.some_ne_none _)
  · intro i hi hip
    rw [indices, List.mem_cons, List.mem_append, not_or, not_or] at hi
    exact hout hi.2.2 hi.1
  · intro i hi hi'
    rw [indices, List.mem_cons, List.mem_append, not_or, not_or] at hi'
    rcases List.mem_cons.mp hi with heq | hi
    · exact absurd heq hi'.1
    · exact hremoved.freed i ((List.mem_append.mp hi).resolve_left hi'.2.1) hi'.2.2
  · intro i hi
    rcases List.mem_cons.mp hi with rfl | hi
    · exact (congrArg Record.usage hc).trans rfl
    · rcases List.mem_append.mp hi with hi | hi
      · rw [hkids hi]
      · exact hremoved.usage i hi

/-- The loop does to the list from `head` on what the removal does to the tree. -/
theorem unregisterLoop_eq (h : Holds (s.links counted) none head (shape fields t)) (hslot : s.slot p = head)
    (hp : ∀ q ∈ p, q ∉ indices t) (hnodup : (indices t).Nodup) (hn : (indices t).length < n) (hfuel : n ≤ fuel) :
    ∃ s', s.unregisterLoop command n head p = some s' ∧ Removed s s' p t (remove command t) := by
  induction t generalizing head p n with
  | NULL =>
    obtain ⟨n, rfl⟩ := Nat.exists_eq_succ_of_ne_zero (Nat.ne_of_gt hn)
    obtain rfl : head = none := h
    exact ⟨s, rfl, hslot, fun _ _ => rfl, fun _ => rfl, fun _ _ _ => rfl, nofun, nofun⟩
  | record c children next _ ih =>
    obtain ⟨n, rfl⟩ := Nat.exists_eq_succ_of_ne_zero (Nat.ne_of_gt (Nat.lt_of_le_of_lt (Nat.zero_le _) hn))
    obtain ⟨-, hnotnext, -, hnodupnext, -⟩ := nodup_record hnodup
    rw [indices, List.length_cons, List.length_append] at hn
    have hentry : (s.gw_cli_command c.index).entry = c.entry := congrArg Prod.fst h.2.1.2
    rw [remove, show head = some c.index from h.1]
    by_cases hname : c.entry.command = command
    · rw [if_pos hname, unregisterLoop_found (hentry ▸ hname)]
      exact removed_found h hp hnodup (by omega)
    · rw [if_neg hname, Pool.unregisterLoop, hentry, if_neg hname]
      obtain ⟨s', hloop, hremoved⟩ := ih (p := some c.index) h.2.2.2 rfl
        (fun q hq => Option.mem_some_iff.mp hq ▸ hnotnext) hnodupnext (n := n) (by omega) (by omega)
      exact ⟨s', hloop, hremoved.past h hslot hp hnodup⟩

/-- A removal frees the records of the first command of the name, and does to the table what it does
to the tree. -/
theorem unregister_eq (h : s.Represents t) (command : Option (List Char)) :
    ∃ s', s.gw_cli_unregister_command command = some (s', (unregister t command).2) ∧
      s'.Represents (unregister t command).1 := by
  unfold Pool.gw_cli_unregister_command unregister
  cases command with
  | none => exact ⟨s, rfl, h⟩
  | some command =>
    have hlen := length_lt_fuel h.distinct h.within
    obtain ⟨s', hloop, hremoved⟩ : ∃ s', s.unregisterLoop command fuel s.cmd_root none = some s' ∧
        Removed s s' none t (remove command t) :=
      unregisterLoop_eq h.holds rfl nofun h.distinct hlen (Nat.le_refl fuel)
    have hsublist := indices_remove command t
    dsimp only
    rw [hloop]
    refine ⟨s', rfl, hremoved.holds, hsublist.nodup h.distinct, ?_, ?_, ?_⟩
    · exact fun i hi => h.within i (hsublist.subset hi)
    · exact fun i hi => (hremoved.usage i hi).trans (h.busy i (hsublist.subset hi))
    · intro i hi
      by_cases hin : i ∈ indices t
      · exact hremoved.freed i hin hi
      · rw [hremoved.other i hin nofun]
        exact h.free i hin

/-! ## Runs -/

theorem represents_init : Pool.init.Represents .NULL :=
  ⟨rfl, List.nodup_nil, nofun, nofun, fun _ _ => rfl⟩

theorem call_eq (h : s.Represents t) {c : PoolCall} (hlive : ParentLives t c) :
    ∃ s', s.call c = some (s', (call t c).2) ∧ s'.Represents (call t c).1 := by
  cases c with
  | register r =>
    obtain ⟨s', hcall, hrepresents⟩ := register_eq h hlive
    refine ⟨s', ?_, hrepresents⟩
    rw [Pool.call, hcall]
    rfl
  | unregister command =>
    obtain ⟨s', hcall, hrepresents⟩ := unregister_eq h command
    refine ⟨s', ?_, hrepresents⟩
    rw [Pool.call, hcall]
    rfl

theorem calls_eq (h : s.Represents t) {cs : List PoolCall}
    (hlive : Along (fun t c => (call t c).1) ParentLives t cs) :
    ∃ s', s.calls cs = some (s', (calls t cs).2) ∧ s'.Represents (calls t cs).1 := by
  induction cs generalizing s t with
  | nil => exact ⟨s, rfl, h⟩
  | cons c cs ih =>
    obtain ⟨hc, hcs⟩ := hlive
    obtain ⟨s1, hcall, h1⟩ := call_eq h hc
    obtain ⟨s2, hcalls, h2⟩ := ih h1 hcs
    refine ⟨s2, ?_, h2⟩
    rw [Pool.calls, hcall]
    dsimp only [Option.bind_eq_bind, Option.bind_some]
    rw [hcalls]
    rfl

/-- Every run of registrations under parents that are there and of removals ends, gives the answers of
the tree, and leaves the tree in the table: its records are used, linked and counted as it says, and
all the others are free. -/
theorem the_table_holds_the_tree {cs : List PoolCall}
    (hlive : Along (fun t c => (call t c).1) ParentLives .NULL cs) :
    ∃ s, Pool.init.calls cs = some (s, (calls .NULL cs).2) ∧ s.Represents (calls .NULL cs).1 :=
  calls_eq represents_init hlive

/-- "save" and "show" of the root, with "config" below the second, are registered, "show" goes with what
is below it, and the next registration takes its record again. -/
theorem the_table_holds_show_and_save :
    let name (parent : Option Nat) (word : String) : PoolCall :=
      .register ⟨parent, some word.toList, some 1, 0, MODE_ANY⟩
    let cs := [name none "save", name none "show", name (some 1) "config", .unregister (some "show".toList),
      name (some 0) "all"]
    (calls .NULL cs).2 =
        [.registered (some 0), .registered (some 1), .registered (some 2), .unregistered CLI_OK, .registered (some 1)] ∧
      ∃ s, Pool.init.calls cs = some (s, (calls .NULL cs).2) ∧ s.Represents (calls .NULL cs).1 :=
  ⟨by decide +kernel, the_table_holds_the_tree (by decide +kernel)⟩

end gwdonu.cli_pool
