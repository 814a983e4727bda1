-- What the calls do to the table: each walk visits the records of the tree, so that a registration
-- and a removal make of the table what they make of the tree.
import Gwdonu.CliPool
import Mathlib.Data.List.Perm.Subperm
import Mathlib.Tactic.Common

namespace gwdonu.cli_pool

open Function gwdonu.cli_parser forests runs

variable {β : Type} {s s' : Pool} {t T : cli_command} {up head : Option Nat} {i p n : Nat} {c : Fields}
  {children next : cli_command} {f : Record → β} {g : Fields → β}

/-! ## The tree as a forest -/

@[simp] theorem nodes_shape (g : Fields → β) (t : cli_command) : (shape g t).nodes = indices t := by
  induction t with
  | NULL => rfl
  | record c children next ihchildren ihnext => rw [shape, Forest.nodes_node, ihchildren, ihnext, indices]

theorem shape_append (g : Fields → β) (c t : cli_command) : shape g (append c t) = (shape g t).append (shape g c) := by
  induction t with
  | NULL => rfl
  | record p children next _ ihnext => rw [append, shape, ihnext, shape, Forest.append]

theorem indices_append (c t : cli_command) : indices (append c t) = indices t ++ indices c := by
  rw [← nodes_shape id, shape_append, Forest.nodes_append, nodes_shape, nodes_shape]

/-- The counting changes no name. -/
theorem shape_build (T t : cli_command) : shape Fields.entry (build T t) = shape Fields.entry t := by
  induction t generalizing T with
  | NULL => rfl
  | record c children next ihchildren ihnext => rw [build, shape, shape, ihchildren, ihnext]

@[simp] theorem indices_build (T t : cli_command) : indices (build T t) = indices t := by
  rw [← nodes_shape Fields.entry, shape_build, nodes_shape]

/-- The commands from a record on. -/
def sub (p : Nat) : cli_command → cli_command
  | .NULL => .NULL
  | .record c children next =>
    if c.index = p then .record c children next else if p ∈ indices children then sub p children else sub p next

theorem shape_sub (g : Fields → β) (p : Nat) (t : cli_command) : shape g (sub p t) = (shape g t).sub p := by
  induction t with
  | NULL => rfl
  | record c children next ihchildren ihnext =>
    rw [sub, shape, Forest.sub, nodes_shape]
    split
    · rfl
    · split
      · exact ihchildren
      · exact ihnext

theorem sub_eq (hp : p ∈ indices t) : ∃ c children next, sub p t = .record c children next ∧ c.index = p := by
  induction t with
  | NULL => cases hp
  | record c children next ihchildren ihnext =>
    rw [sub]
    split
    · exact ⟨c, children, next, rfl, ‹_›⟩
    · split
      · exact ihchildren ‹_›
      · refine ihnext ((List.mem_append.mp (List.mem_of_ne_of_mem ?_ hp)).resolve_left ‹_›)
        exact Ne.symm ‹_›

theorem put_under_of_not_mem (x : cli_command) (hp : p ∉ indices t) : put_under p x t = t := by
  induction t with
  | NULL => rfl
  | record c children next ihchildren ihnext =>
    rw [indices, List.mem_cons, List.mem_append, not_or, not_or] at hp
    rw [put_under, if_neg (Ne.symm hp.1), ihchildren hp.2.1, ihnext hp.2.2]

theorem nodup_record (h : (indices (.record c children next)).Nodup) : c.index ∉ indices children ∧
    c.index ∉ indices next ∧ (indices children).Nodup ∧ (indices next).Nodup ∧
      ∀ i ∈ indices children, i ∉ indices next := by
  rw [← nodes_shape id] at h
  have h' := Forest.nodup_node h
  rw [nodes_shape, nodes_shape] at h'
  exact h'

/-- The record is put to the children of the parent, and the commands from there on are counted. -/
theorem shape_put_under (g : Fields → β) (x : cli_command) (hnodup : (indices t).Nodup) (hp : p ∈ indices t)
    (hsub : sub p t = .record c children next) :
    shape g (put_under p x t) =
      (shape g t).put p (shape g (gw_cli_build_shortest (.record c (append x children) next))) := by
  induction t with
  | NULL => cases hp
  | record d kids rest ihkids ihrest =>
    obtain ⟨-, -, hnodupkids, hnoduprest, hapart⟩ := nodup_record hnodup
    rw [sub] at hsub
    rw [put_under, shape, Forest.put]
    split at hsub
    · obtain ⟨rfl, rfl, rfl⟩ := cli_command.record.inj hsub
      rw [if_pos ‹_›, if_pos ‹_›]
    · rw [if_neg ‹_›, if_neg ‹_›, shape]
      split at hsub
      · have hin : p ∈ indices kids := ‹_›
        rw [ihkids hnodupkids hin hsub, put_under_of_not_mem x (hapart p hin),
          Forest.put_of_not_mem (t := shape g rest) (by rw [nodes_shape]; exact hapart p hin)]
      · have hout : p ∉ indices kids := ‹_›
        have hin : p ∈ indices rest :=
          (List.mem_append.mp (List.mem_of_ne_of_mem (Ne.symm ‹_›) hp)).resolve_left hout
        rw [ihrest hnoduprest hin hsub, put_under_of_not_mem x hout,
          Forest.put_of_not_mem (t := shape g kids) (by rw [nodes_shape]; exact hout)]

theorem indices_put_under (x : cli_command) (hnodup : (indices t).Nodup) (hp : p ∈ indices t) :
    (indices (put_under p x t)).Perm (indices x ++ indices t) := by
  induction t with
  | NULL => cases hp
  | record d kids rest ihkids ihrest =>
    obtain ⟨-, -, hnodupkids, hnoduprest, hapart⟩ := nodup_record hnodup
    rw [put_under]
    split
    · rw [gw_cli_build_shortest, indices_build, indices, indices, indices_append]
      grind [List.perm_append_comm]
    · by_cases hin : p ∈ indices kids
      · rw [put_under_of_not_mem x (hapart p hin), indices, indices]
        have := ihkids hnodupkids hin
        grind [List.perm_append_comm]
      · have hin' : p ∈ indices rest := (List.mem_append.mp (List.mem_of_ne_of_mem (Ne.symm ‹_›) hp)).resolve_left hin
        rw [put_under_of_not_mem x hin, indices, indices]
        have := ihrest hnoduprest hin'
        grind [List.perm_append_comm]

/-! ## The walks -/

theorem last_eq {L : Forest Nat β} (h : Holds (s.links f) up head L) (hn : L.nodes.length < n) :
    s.last n head = some L.level.getLast? := by
  induction L generalizing head n with
  | nil =>
    obtain ⟨n, rfl⟩ := Nat.exists_eq_succ_of_ne_zero (Nat.ne_of_gt hn)
    obtain rfl : head = none := h
    rfl
  | node a b below behind _ ih =>
    obtain ⟨rfl, -, -, hbehind⟩ := h
    obtain ⟨n, rfl⟩ := Nat.exists_eq_succ_of_ne_zero (Nat.ne_of_gt (Nat.lt_of_le_of_lt (Nat.zero_le _) hn))
    rw [Forest.nodes_node, List.length_cons, List.length_append] at hn
    rw [Pool.last]
    cases behind with
    | nil =>
      rw [show (s.gw_cli_command a).next = none from hbehind]
      rfl
    | node a' b' below' behind =>
      have hnext : (s.gw_cli_command a).next = some a' := hbehind.1
      have hrest := ih hbehind (n := n) (by omega)
      rw [show (s.links f).next a = some a' from hnext] at hrest
      rw [hnext]
      dsimp only
      rw [hrest, Forest.level, Forest.level, Forest.level, List.getLast?_cons_cons]

theorem longest_eq (hc : (s.gw_cli_command c.index).entry = c.entry)
    (h : Holds (s.links Record.entry) up head (shape Fields.entry t)) (hn : (indices t).length < n) (unique_len : Nat) :
    s.longest c.index n head unique_len = some (gwdonu.cli_parser.longest c t unique_len) := by
  induction t generalizing head n unique_len with
  | NULL =>
    obtain ⟨n, rfl⟩ := Nat.exists_eq_succ_of_ne_zero (Nat.ne_of_gt hn)
    obtain rfl : head = none := h
    rfl
  | record p children next _ ih =>
    obtain ⟨rfl, ⟨-, hentry⟩, -, hnext⟩ := h
    obtain ⟨n, rfl⟩ := Nat.exists_eq_succ_of_ne_zero (Nat.ne_of_gt (Nat.lt_of_le_of_lt (Nat.zero_le _) hn))
    have hentry' : (s.gw_cli_command p.index).entry = p.entry := hentry
    rw [indices, List.length_cons, List.length_append] at hn
    rw [Pool.longest, gwdonu.cli_parser.longest, hc, hentry']
    dsimp only
    split
    · exact ih hnext (by omega) _
    · exact ih hnext (by omega) _

/-! ## The counting -/

@[simp] theorem set_self (s : Pool) (i : Nat) (c : Record) : (s.set i c).gw_cli_command i = c := update_self _ _ _

theorem set_other (c : Record) {j : Nat} (hj : j ≠ i) : (s.set i c).gw_cli_command j = s.gw_cli_command j :=
  update_of_ne hj _ _

/-- Only the lengths are others. -/
structure Recounted (s s' : Pool) : Prop where
  root : s'.cmd_root = s.cmd_root
  same : ∀ i, s'.gw_cli_command i = { s.gw_cli_command i with unique_len := (s'.gw_cli_command i).unique_len }

theorem Recounted.trans {s'' : Pool} (h : Recounted s s') (h' : Recounted s' s'') : Recounted s s'' where
  root := h'.root.trans h.root
  same i := by rw [h'.same i, h.same i]

theorem Recounted.links (h : Recounted s s') (i : Nat) : Same (s.links Record.entry) (s'.links Record.entry) i where
  next := (congrArg Record.next (h.same i)).trans rfl
  child := (congrArg Record.children (h.same i)).trans rfl
  parent := (congrArg Record.parent (h.same i)).trans rfl
  data := (congrArg Record.entry (h.same i)).trans rfl

theorem recounted_set (s : Pool) (i unique_len : Nat) :
    Recounted s (s.set i { s.gw_cli_command i with unique_len }) where
  root := rfl
  same j := by
    by_cases hj : j = i
    · subst hj
      rw [set_self]
    · rw [set_other _ hj]

theorem links_set (f : Record → β) (s : Pool) (i : Nat) (c : Record) :
    ((s.set i c).links f).next i = c.next ∧ ((s.set i c).links f).child i = c.children ∧
      ((s.set i c).links f).parent i = c.parent ∧ ((s.set i c).links f).data i = f c := by
  have hcell := set_self s i c
  exact ⟨congrArg Record.next hcell, congrArg Record.children hcell, congrArg Record.parent hcell, congrArg f hcell⟩

/-- The cells of two tables that are the same ones. -/
theorem same_links (f : Record → β) (h : s'.gw_cli_command i = s.gw_cli_command i) :
    Same (s.links f) (s'.links f) i where
  next := congrArg Record.next h
  child := congrArg Record.children h
  parent := congrArg Record.parent h
  data := congrArg f h

/-- A record with its length. -/
def counted (c : Record) : Entry × Nat := (c.entry, c.unique_len)

def fields (c : Fields) : Entry × Nat := (c.entry, c.unique_len)

/-- The loop gives each of the records from `head` on the length that it has in the tree. -/
theorem build_eq {upT headT : Option Nat} (hT : Holds (s.links Record.entry) upT headT (shape Fields.entry T))
    (hfuelT : (indices T).length < fuel) (h : Holds (s.links Record.entry) up head (shape Fields.entry t))
    (hnodup : (indices t).Nodup) (hn : (indices t).length < n) (hfuel : n ≤ fuel) :
    ∃ s', Pool.build headT n head s = some s' ∧ Recounted s s' ∧
      (∀ i, i ∉ indices t → s'.gw_cli_command i = s.gw_cli_command i) ∧
      Holds (s'.links counted) up head (shape fields (build T t)) := by
  induction t generalizing T s up upT head headT n with
  | NULL =>
    obtain ⟨n, rfl⟩ := Nat.exists_eq_succ_of_ne_zero (Nat.ne_of_gt hn)
    obtain rfl : head = none := h
    exact ⟨s, rfl, ⟨rfl, fun _ => rfl⟩, fun _ _ => rfl, rfl⟩
  | record c children next ihchildren ihnext =>
    obtain ⟨rfl, ⟨hup, hentry⟩, hchildren, hnext⟩ := h
    obtain ⟨n, rfl⟩ := Nat.exists_eq_succ_of_ne_zero (Nat.ne_of_gt (Nat.lt_of_le_of_lt (Nat.zero_le _) hn))
    obtain ⟨hnotchildren, hnotnext, hnodupchildren, hnodupnext, hapart⟩ := nodup_record hnodup
    rw [indices, List.length_cons, List.length_append] at hn
    have hlen := longest_eq hentry hT hfuelT 1
    have hset := recounted_set s c.index (gwdonu.cli_parser.longest c T 1)
    rw [Pool.build, hlen]
    dsimp only [Option.bind_eq_bind, Option.bind_some]
    generalize hs1 :
      s.set c.index { s.gw_cli_command c.index with unique_len := gwdonu.cli_parser.longest c T 1 } = s1 at *
    have hlen1 : (s1.gw_cli_command c.index).unique_len = gwdonu.cli_parser.longest c T 1 := by
      rw [← hs1, set_self]
    have hother1 (i : Nat) (hi : i ≠ c.index) : s1.gw_cli_command i = s.gw_cli_command i := by
      rw [← hs1, set_other _ hi]
    have hchildren1 := hchildren.congr fun i _ => hset.links i
    rw [show (s.links Record.entry).child c.index = (s1.gw_cli_command c.index).children from
      (hset.links c.index).child.symm] at hchildren1
    obtain ⟨s2, hbuild2, hsame2, hother2, hcounted2⟩ :=
      ihchildren hchildren1 (by omega) hchildren1 hnodupchildren (n := n) (by omega) (by omega)
    have hsame12 := hset.trans hsame2
    have hnext2 := hnext.congr fun i _ => hsame12.links i
    rw [show (s.links Record.entry).next c.index = (s2.gw_cli_command c.index).next from
      (hsame12.links c.index).next.symm] at hnext2
    obtain ⟨s3, hbuild3, hsame3, hother3, hcounted3⟩ :=
      ihnext (hT.congr fun i _ => hsame12.links i) hfuelT hnext2 hnodupnext (n := n) (by omega) (by omega)
    have hsame13 := hsame12.trans hsame3
    have hc3 : s3.gw_cli_command c.index = s1.gw_cli_command c.index :=
      (hother3 c.index hnotnext).trans (hother2 c.index hnotchildren)
    rw [hbuild2]
    dsimp only [Option.bind_some]
    rw [hbuild3]
    refine ⟨s3, rfl, hsame13, fun i hi => ?_, rfl, ⟨?_, ?_⟩, ?_, ?_⟩
    · rw [indices, List.mem_cons, List.mem_append, not_or, not_or] at hi
      rw [hother3 i hi.2.2, hother2 i hi.2.1, hother1 i hi.1]
    · exact (hsame13.links c.index).parent.trans hup
    · show (_, _) = (_, _)
      rw [show (s3.gw_cli_command c.index).entry = c.entry from (hsame13.links c.index).data.trans hentry, hc3, hlen1]
    · have hchild : (s3.links counted).child c.index = (s1.gw_cli_command c.index).children :=
        congrArg Record.children hc3
      rw [hchild]
      refine hcounted2.congr fun i hi => same_links counted (hother3 i ?_)
      rw [nodes_shape, indices_build] at hi
      exact hapart i hi
    · have hbehind : (s3.links counted).next c.index = (s2.gw_cli_command c.index).next :=
        congrArg Record.next (hother3 c.index hnotnext)
      rw [hbehind]
      exact hcounted3

/-! ## The registration -/

/-- Some records of the list name others, and no other record changes. -/
structure Relinked (s s' : Pool) (l : List Nat) : Prop where
  same : ∀ i, i ∉ l → s'.gw_cli_command i = s.gw_cli_command i
  usage : ∀ i, (s'.gw_cli_command i).usage = (s.gw_cli_command i).usage

theorem relinked_set {l : List Nat} (c : Record) (hi : i ∈ l) (hc : c.usage = (s.gw_cli_command i).usage) :
    Relinked s (s.set i c) l where
  same j hj := set_other c fun heq => hj (heq ▸ hi)
  usage j := by
    by_cases hj : j = i
    · subst hj
      rw [set_self, hc]
    · rw [set_other c hj]

theorem Relinked.mono {l l' : List Nat} (h : Relinked s s' l) (hsub : l ⊆ l') : Relinked s s' l' :=
  ⟨fun i hi => h.same i fun hi' => hi (hsub hi'), h.usage⟩

/-- A new record behind the last one of a list that has some. -/
theorem chain_eq {first x : Nat} {e : Entry} (h : Holds (s.links Record.entry) up (some first) (shape Fields.entry t))
    (hnodup : (indices t).Nodup) (hfuel : (indices t).length < fuel) (hx : x ∉ indices t)
    (hleaf : Holds (s.links Record.entry) up (some x) (Forest.leaf x e)) :
    ∃ s', s.chain first x = some s' ∧ Relinked s s' (indices t) ∧ s'.cmd_root = s.cmd_root ∧
      Holds (s'.links Record.entry) up (some first) ((shape Fields.entry t).append (Forest.leaf x e)) := by
  rw [← nodes_shape Fields.entry] at hnodup hfuel hx ⊢
  generalize shape Fields.entry t = L at *
  obtain ⟨z, hz⟩ : ∃ z, L.level.getLast? = some z := by
    cases L with
    | nil => cases (h : some first = none)
    | node a b below behind => exact ⟨_, List.getLast?_eq_some_getLast (List.cons_ne_nil _ _)⟩
  have hin := Forest.level_subset _ (List.mem_of_getLast? hz)
  have hxz : x ≠ z := fun heq => hx (heq ▸ hin)
  refine ⟨s.set z { s.gw_cli_command z with next := some x }, ?_, relinked_set _ hin rfl, rfl, ?_⟩
  · rw [Pool.chain, last_eq h hfuel, hz]
    rfl
  · refine h.append hnodup hz ?_ (hleaf.congr fun a ha => ?_) ?_ fun a _ ha => same_links _ (set_other _ ha)
    · exact (links_set _ s z _).1
    · rw [Forest.nodes_leaf, List.mem_singleton] at ha
      exact same_links _ (set_other _ (ha ▸ hxz))
    · exact (links_set _ s z _).2

/-- A new command of the root. -/
theorem attach_root {x : Fields} (h : Holds (s.links Record.entry) none s.cmd_root (shape Fields.entry t))
    (hnodup : (indices t).Nodup) (hfuel : (indices t).length < fuel) (hx : x.index ∉ indices t)
    (hleaf : Holds (s.links Record.entry) none (some x.index) (Forest.leaf x.index x.entry)) :
    ∃ s', s.attach none x.index = some s' ∧ Relinked s s' (indices t) ∧
      Holds (s'.links Record.entry) none s'.cmd_root (shape Fields.entry (append (.record x .NULL .NULL) t)) := by
  rw [shape_append, Pool.attach]
  cases hroot : s.cmd_root with
  | none =>
    rw [hroot] at h
    have hnil := h.nil_iff.mp rfl
    refine ⟨{ s with cmd_root := some x.index }, rfl, ⟨fun _ _ => rfl, fun _ => rfl⟩, ?_⟩
    rw [hnil]
    exact hleaf
  | some first =>
    rw [hroot] at h
    obtain ⟨s', hchain, hrelinked, hsame, hholds⟩ := chain_eq h hnodup hfuel hx hleaf
    refine ⟨s', hchain, hrelinked, ?_⟩
    rw [hsame, hroot]
    exact hholds

/-- A new child. -/
theorem attach_below {x : Fields}
    (h : Holds (s.links Record.entry) up (some c.index) (shape Fields.entry (.record c children next)))
    (hnodup : (indices (.record c children next)).Nodup) (hfuel : (indices children).length < fuel)
    (hx : x.index ∉ indices (.record c children next))
    (hleaf : Holds (s.links Record.entry) (some c.index) (some x.index) (Forest.leaf x.index x.entry)) :
    ∃ s', s.attach (some c.index) x.index = some s' ∧ Relinked s s' (indices (.record c children next)) ∧
      s'.cmd_root = s.cmd_root ∧ Holds (s'.links Record.entry) up (some c.index)
        (shape Fields.entry (.record c (append (.record x .NULL .NULL) children) next)) := by
  obtain ⟨-, hown, hchildren, hnext⟩ := h
  obtain ⟨hnotchildren, hnotnext, hnodupchildren, -, hapart⟩ := nodup_record hnodup
  rw [indices, List.mem_cons, List.mem_append, not_or, not_or] at hx
  rw [shape, shape_append, Pool.attach]
  dsimp only
  cases hchild : (s.gw_cli_command c.index).children with
  | none =>
    have hnil := (hchildren.nil_iff).mp hchild
    have hset := links_set Record.entry s c.index { s.gw_cli_command c.index with children := some x.index }
    refine ⟨_, rfl, relinked_set _ List.mem_cons_self rfl, rfl, rfl, ?_, ?_, ?_⟩
    · exact ⟨hset.2.2.1.trans hown.1, hset.2.2.2.trans hown.2⟩
    · rw [hset.2.1, hnil]
      refine hleaf.congr fun a ha => same_links _ (set_other _ ?_)
      rw [Forest.nodes_leaf, List.mem_singleton] at ha
      exact ha ▸ hx.1
    · rw [hset.1]
      refine hnext.congr fun a ha => same_links _ (set_other _ fun heq => hnotnext ?_)
      rw [nodes_shape] at ha
      exact heq ▸ ha
  | some first =>
    rw [show (s.links Record.entry).child c.index = some first from hchild] at hchildren
    obtain ⟨s', hchain, hrelinked, hsame, hholds⟩ := chain_eq hchildren hnodupchildren hfuel hx.2.1 hleaf
    have hcell := hrelinked.same c.index hnotchildren
    refine ⟨s', hchain, hrelinked.mono ?_, hsame, rfl, ?_, ?_, ?_⟩
    · exact fun i hi => List.mem_cons_of_mem _ (List.mem_append_left _ hi)
    · exact (same_links Record.entry hcell).node hown
    · rw [(same_links Record.entry hcell).child, show (s.links Record.entry).child c.index = some first from hchild]
      exact hholds
    · rw [(same_links Record.entry hcell).next]
      refine hnext.congr fun a ha => same_links _ (hrelinked.same a ?_)
      rw [nodes_shape] at ha
      exact fun ha' => hapart a ha' ha

/-- A record without its length. -/
theorem holds_entry (h : Holds (s.links counted) up head (shape fields t)) :
    Holds (s.links Record.entry) up head (shape Fields.entry t) := by
  induction t generalizing up head with
  | NULL => exact h
  | record c children next ihchildren ihnext =>
    obtain ⟨hhead, hown, hchildren, hnext⟩ := h
    exact ⟨hhead, ⟨hown.1, congrArg Prod.fst hown.2⟩, ihchildren hchildren, ihnext hnext⟩

theorem length_lt_fuel (hdistinct : (indices t).Nodup) (hwithin : ∀ i ∈ indices t, i < GW_MAX_CLI_COMMAND) :
    (indices t).length < fuel := by
  have hle := (hdistinct.subperm fun i hi => List.mem_range.mpr (hwithin i hi)).length_le
  rw [List.length_range] at hle
  exact Nat.lt_succ_of_le hle

theorem Pool.Represents.usage_iff (h : s.Represents t) (i : Nat) :
    (s.gw_cli_command i).usage = true ↔ i ∈ indices t := by
  refine ⟨fun husage => ?_, h.busy i⟩
  by_contra hi
  rw [h.free i hi] at husage
  cases husage

theorem Pool.Represents.firstFree_eq (h : s.Represents t) : s.firstFree = free_index t := by
  unfold Pool.firstFree free_index
  congr 1
  funext i
  simp only [h.usage_iff]

/-- What the list is when the record has been put there and counted. -/
theorem Pool.Represents.grown {x : Nat} {s₁ s₂ s₃ : Pool} {l : List Nat} {t' : cli_command} (h : s.Represents t)
    (hx : x ∉ indices t) (hlt : x < GW_MAX_CLI_COMMAND) (husage : (s₁.gw_cli_command x).usage = true)
    (hset : ∀ i, i ≠ x → s₁.gw_cli_command i = s.gw_cli_command i) (hrelinked : Relinked s₁ s₂ l) (hl : l ⊆ indices t)
    (hrecounted : Recounted s₂ s₃) (hother : ∀ i, i ≠ x → i ∉ l → s₃.gw_cli_command i = s₂.gw_cli_command i)
    (hindices : (indices t').Perm (x :: indices t))
    (hholds : Holds (s₃.links counted) none s₃.cmd_root (shape fields t')) : s₃.Represents t' := by
  refine ⟨hholds, ?_, ?_, ?_, ?_⟩
  · exact hindices.nodup_iff.mpr (List.nodup_cons.mpr ⟨hx, h.distinct⟩)
  · intro i hi
    rcases List.mem_cons.mp (hindices.mem_iff.mp hi) with rfl | hi
    · exact hlt
    · exact h.within i hi
  · intro i hi
    rw [hrecounted.same i]
    refine (hrelinked.usage i).trans ?_
    rcases List.mem_cons.mp (hindices.mem_iff.mp hi) with rfl | hi
    · exact husage
    · rw [hset i fun heq => hx (heq ▸ hi)]
      exact h.busy i hi
  · intro i hi
    rw [hindices.mem_iff, List.mem_cons, not_or] at hi
    have hnot : i ∉ l := fun hin => hi.2 (hl hin)
    rw [hother i hi.1 hnot, hrelinked.same i hnot, hset i hi.1]
    exact h.free i hi.2

/-- A record that the tree does not use has been filled. -/
structure Filled (s s₁ : Pool) (parent : Option Nat) (x : Nat) (e : Entry) : Prop where
  root : s₁.cmd_root = s.cmd_root
  other : ∀ i, i ≠ x → s₁.gw_cli_command i = s.gw_cli_command i
  usage : (s₁.gw_cli_command x).usage = true
  leaf : Holds (s₁.links Record.entry) parent (some x) (Forest.leaf x e)

theorem Pool.Represents.filled {x : Nat} (h : s.Represents t) (hx : x ∉ indices t) (parent : Option Nat) (e : Entry) :
    Filled s (s.set x { s.gw_cli_command x with usage := true, entry := e, next := none, parent }) parent x e := by
  have hself := set_self s x { s.gw_cli_command x with usage := true, entry := e, next := none, parent }
  refine ⟨rfl, fun i hi => set_other _ hi, congrArg Record.usage hself, ?_⟩
  refine ⟨rfl, ⟨congrArg Record.parent hself, congrArg Record.entry hself⟩, ?_, congrArg Record.next hself⟩
  refine (congrArg Record.children hself).trans ?_
  rw [h.free x hx]
  rfl

/-- The commands from a record on are as before when a record outside of them is filled. -/
theorem Filled.holds {x : Nat} {s₁ : Pool} {parent : Option Nat} {e : Entry} (hfilled : Filled s s₁ parent x e)
    (h : Holds (s.links counted) up head (shape fields t)) (hx : x ∉ indices t) :
    Holds (s₁.links Record.entry) up head (shape Fields.entry t) := by
  refine (holds_entry h).congr fun i hi => same_links Record.entry (hfilled.other i fun heq => hx ?_)
  rw [nodes_shape] at hi
  exact heq ▸ hi

theorem nodup_grown {x : Nat} {l l' : List Nat} (hperm : l.Perm (x :: l')) (hx : x ∉ l') (hnodup : l'.Nodup) :
    l.Nodup :=
  hperm.nodup_iff.mpr (List.nodup_cons.mpr ⟨hx, hnodup⟩)

theorem Pool.Represents.length_grown {x : Nat} {t' : cli_command} (h : s.Represents t) (hx : x ∉ indices t)
    (hlt : x < GW_MAX_CLI_COMMAND) (hperm : (indices t').Perm (x :: indices t)) : (indices t').length < fuel := by
  refine length_lt_fuel (nodup_grown hperm hx h.distinct) fun i hi => ?_
  rcases List.mem_cons.mp (hperm.mem_iff.mp hi) with rfl | hi
  · exact hlt
  · exact h.within i hi

/-- What is counted is the new record and the list that it is put into. -/
theorem other_grown {x : Nat} {l l' : List Nat} (hperm : l.Perm (x :: l'))
    (hother : ∀ i, i ∉ l → s'.gw_cli_command i = s.gw_cli_command i) (i : Nat) (hi : i ≠ x) (hi' : i ∉ l') :
    s'.gw_cli_command i = s.gw_cli_command i := by
  refine hother i fun hin => ?_
  rcases List.mem_cons.mp (hperm.mem_iff.mp hin) with heq | hin
  · exact hi heq
  · exact hi' hin

/-- The filled record becomes a command of the root. -/
theorem register_root {s₁ : Pool} {x : Nat} {e : Entry} (h : s.Represents t) (hx : x ∉ indices t)
    (hlt : x < GW_MAX_CLI_COMMAND) (hfilled : Filled s s₁ none x e) :
    ∃ s₂ s₃, s₁.attach none x = some s₂ ∧ s₂.gw_cli_build_shortest s₂.cmd_root = some s₃ ∧
      s₃.Represents (gw_cli_build_shortest (append (.record ⟨x, e, 0⟩ .NULL .NULL) t)) := by
  have hs₁ := hfilled.holds h.holds hx
  rw [← hfilled.root] at hs₁
  obtain ⟨s₂, hattach, hrelinked, hholds⟩ := attach_root (x := ⟨x, e, 0⟩) hs₁ h.distinct
    (length_lt_fuel h.distinct h.within) hx hfilled.leaf
  have hindices : (indices (append (.record ⟨x, e, 0⟩ .NULL .NULL) t)).Perm (x :: indices t) := by
    rw [indices_append]
    exact List.perm_append_comm
  have hlen := h.length_grown hx hlt hindices
  obtain ⟨s₃, hbuild, hrecounted, hother, hcounted⟩ :=
    build_eq hholds hlen hholds (nodup_grown hindices hx h.distinct) hlen (Nat.le_refl fuel)
  refine ⟨s₂, s₃, hattach, hbuild, ?_⟩
  refine h.grown hx hlt hfilled.usage hfilled.other hrelinked (List.Subset.refl _) hrecounted
    (other_grown hindices hother) ?_ ?_
  · rw [gw_cli_build_shortest, indices_build]
    exact hindices
  · rw [hrecounted.root]
    exact hcounted

/-- The filled record becomes a child of a record that is there. -/
theorem register_below {s₁ : Pool} {x parent : Nat} {e : Entry} (h : s.Represents t) (hx : x ∉ indices t)
    (hlt : x < GW_MAX_CLI_COMMAND) (hfilled : Filled s s₁ (some parent) x e) (hin : parent ∈ indices t) :
    ∃ s₂ s₃, s₁.attach (some parent) x = some s₂ ∧ s₂.gw_cli_build_shortest (some parent) = some s₃ ∧
      s₃.Represents (put_under parent (.record ⟨x, e, 0⟩ .NULL .NULL) t) := by
  obtain ⟨c, children, next, hsub, rfl⟩ := sub_eq hin
  obtain ⟨hsublist, up, hholds, hput⟩ := h.holds.focus (p := c.index) (by
    rw [nodes_shape]
    exact h.distinct) (by
    rw [nodes_shape]
    exact hin)
  rw [← shape_sub, nodes_shape, nodes_shape, hsub] at hsublist
  rw [← shape_sub, hsub] at hholds
  have hsubset := hsublist.subset
  have hnodup := hsublist.nodup h.distinct
  have hx' : x ∉ indices (.record c children next) := fun hin => hx (hsubset hin)
  have hle := hsublist.length_le
  have hlenchildren : (indices children).length < fuel := by
    refine Nat.lt_of_le_of_lt ?_ (length_lt_fuel h.distinct h.within)
    rw [indices, List.length_cons, List.length_append] at hle
    omega
  obtain ⟨s₂, hattach, hrelinked, hroot, hholds₂⟩ := attach_below (x := ⟨x, e, 0⟩) (hfilled.holds hholds hx')
    hnodup hlenchildren hx' hfilled.leaf
  have hput' := indices_put_under (.record ⟨x, e, 0⟩ .NULL .NULL) h.distinct hin
  have hindices : (indices (.record c (append (.record ⟨x, e, 0⟩ .NULL .NULL) children) next)).Perm
      (x :: indices (.record c children next)) := by
    rw [indices, indices, indices_append]
    show (c.index :: ((indices children ++ [x]) ++ indices next)).Perm _
    rw [List.append_assoc]
    exact (List.Perm.cons _ List.perm_middle).trans (List.Perm.swap _ _ _)
  have hlen : (indices (.record c (append (.record ⟨x, e, 0⟩ .NULL .NULL) children) next)).length < fuel := by
    have hall := h.length_grown hx hlt hput'
    rw [hput'.length_eq, List.length_append] at hall
    rw [hindices.length_eq, List.length_cons]
    have hone : (indices (.record ⟨x, e, 0⟩ .NULL .NULL)).length = 1 := rfl
    omega
  obtain ⟨s₃, hbuild, hrecounted, hother, hcounted⟩ :=
    build_eq hholds₂ hlen hholds₂ (nodup_grown hindices hx' hnodup) hlen (Nat.le_refl fuel)
  have hother' := other_grown hindices hother
  refine ⟨s₂, s₃, hattach, hbuild, ?_⟩
  refine h.grown hx hlt hfilled.usage hfilled.other hrelinked hsubset hrecounted hother' hput' ?_
  rw [shape_put_under fields _ h.distinct hin hsub, hrecounted.root, hroot, hfilled.root]
  refine hput _ _ hcounted fun i hi hi' => same_links counted ?_
  rw [nodes_shape] at hi
  rw [← shape_sub, hsub, nodes_shape] at hi'
  have hne : i ≠ x := fun heq => hx (heq ▸ hi)
  rw [hother' i hne hi', hrelinked.same i hi', hfilled.other i hne]

/-- A registration takes the first free record, and does to the table what it does to the tree. -/
theorem register_eq (h : s.Represents t) {r : Registration} (hlive : ∀ parent ∈ r.parent, parent ∈ indices t) :
    ∃ s', s.gw_cli_register_command r = some (s', (register t r).2) ∧ s'.Represents (register t r).1 := by
  unfold Pool.gw_cli_register_command register
  cases hcommand : r.command with
  | none => exact ⟨s, rfl, h⟩
  | some command =>
    dsimp only
    rw [h.firstFree_eq]
    cases hfree : free_index t with
    | none => exact ⟨s, rfl, h⟩
    | some x =>
      have hlt : x < GW_MAX_CLI_COMMAND := List.mem_range.mp (List.mem_of_find?_eq_some hfree)
      have hx : x ∉ indices t := by simpa using List.find?_some hfree
      have hfilled := h.filled hx r.parent ⟨command, r.callback, r.privilege, r.mode⟩
      dsimp only
      cases hparent : r.parent with
      | none =>
        rw [hparent] at hfilled
        obtain ⟨s₂, s₃, hattach, hbuild, hrepresents⟩ := register_root h hx hlt hfilled
        refine ⟨s₃, ?_, hrepresents⟩
        rw [hattach]
        dsimp only [Option.bind_eq_bind, Option.bind_some]
        rw [Option.none_or, hbuild]
        rfl
      | some parent =>
        rw [hparent] at hfilled
        obtain ⟨s₂, s₃, hattach, hbuild, hrepresents⟩ :=
          register_below h hx hlt hfilled (hlive parent (by rw [hparent]; rfl))
        refine ⟨s₃, ?_, hrepresents⟩
        rw [hattach]
        dsimp only [Option.bind_eq_bind, Option.bind_some]
        rw [Option.some_or, hbuild]
        rfl

end gwdonu.cli_pool
