-- Forests in memory: cells with a content that name the cell above them, the first one below
-- them and the one behind them.
import Mathlib.Data.List.Basic
import Mathlib.Data.List.Nodup

namespace forests

variable {ι β : Type*}

/-! ## Forests -/

/-- The first tree with what is below its root, and the trees behind it. -/
inductive Forest (ι β : Type*) where
  | nil
  | node (a : ι) (b : β) (below behind : Forest ι β)

namespace Forest

def nodes : Forest ι β → List ι
  | nil => []
  | node a _ below behind => a :: (below.nodes ++ behind.nodes)

/-- The roots. -/
def level : Forest ι β → List ι
  | nil => []
  | node a _ _ behind => a :: behind.level

def append : Forest ι β → Forest ι β → Forest ι β
  | nil, x => x
  | node a b below behind, x => node a b below (behind.append x)

def leaf (a : ι) (b : β) : Forest ι β := node a b nil nil

section
variable [DecidableEq ι]

/-- The trees from `p` on. -/
def sub (p : ι) : Forest ι β → Forest ι β
  | nil => nil
  | node a b below behind =>
    if a = p then node a b below behind else if p ∈ below.nodes then below.sub p else behind.sub p

/-- The trees from `p` on become others. -/
def put : Forest ι β → ι → Forest ι β → Forest ι β
  | nil, _, _ => nil
  | node a b below behind, p, new => if a = p then new else node a b (below.put p new) (behind.put p new)

end

variable {t x new : Forest ι β} {a p : ι} {b : β} {below behind : Forest ι β}

@[simp] theorem nodes_nil : (nil : Forest ι β).nodes = [] := rfl

@[simp] theorem nodes_node : (node a b below behind).nodes = a :: (below.nodes ++ behind.nodes) := rfl

@[simp] theorem nodes_leaf : (leaf a b).nodes = [a] := rfl

theorem mem_below {c : ι} (hc : c ∈ below.nodes) : c ∈ (node a b below behind).nodes :=
  List.mem_cons_of_mem a (List.mem_append_left _ hc)

theorem mem_behind {c : ι} (hc : c ∈ behind.nodes) : c ∈ (node a b below behind).nodes :=
  List.mem_cons_of_mem a (List.mem_append_right _ hc)

theorem level_subset (t : Forest ι β) : t.level ⊆ t.nodes := by
  induction t with
  | nil => exact fun _ h => h
  | node a b below behind _ ih =>
    intro c hc
    rcases List.mem_cons.mp hc with rfl | hc
    · exact List.mem_cons_self
    · exact mem_behind (ih hc)

theorem nodes_append (t x : Forest ι β) : (t.append x).nodes = t.nodes ++ x.nodes := by
  induction t with
  | nil => rfl
  | node a b below behind _ ih =>
    rw [append, nodes_node, ih, nodes_node, List.cons_append, List.append_assoc]

/-- The parts of a forest whose nodes are apart. -/
theorem nodup_node (h : (node a b below behind).nodes.Nodup) : a ∉ below.nodes ∧ a ∉ behind.nodes ∧
    below.nodes.Nodup ∧ behind.nodes.Nodup ∧ ∀ c ∈ below.nodes, c ∉ behind.nodes := by
  obtain ⟨hnot, hrest⟩ := List.nodup_cons.mp h
  obtain ⟨hbelow, hbehind, hapart⟩ := List.nodup_append.mp hrest
  rw [List.mem_append, not_or] at hnot
  exact ⟨hnot.1, hnot.2, hbelow, hbehind, fun c hc hc' => hapart c hc c hc' rfl⟩

theorem put_of_not_mem [DecidableEq ι] (hp : p ∉ t.nodes) : t.put p new = t := by
  induction t with
  | nil => rfl
  | node a b below behind ihbelow ihbehind =>
    rw [nodes_node, List.mem_cons, List.mem_append, not_or, not_or] at hp
    rw [put, if_neg (Ne.symm hp.1), ihbelow hp.2.1, ihbehind hp.2.2]

end Forest

open Forest

/-! ## Forests in memory -/

structure Links (ι β : Type*) where
  next : ι → Option ι
  child : ι → Option ι
  parent : ι → Option ι
  data : ι → β

/-- The forest is there from the cell `head` on, below the cell `up`. -/
def Holds (L : Links ι β) : Option ι → Option ι → Forest ι β → Prop
  | _, head, nil => head = none
  | up, head, node a b below behind =>
    head = some a ∧ (L.parent a = up ∧ L.data a = b) ∧ Holds L (some a) (L.child a) below ∧
      Holds L up (L.next a) behind

variable {L L' : Links ι β} {up head : Option ι} {t : Forest ι β} {a p x z : ι} {b : β} {below behind : Forest ι β}

@[simp] theorem holds_nil : Holds L up head nil ↔ head = none := Iff.rfl

@[simp] theorem holds_node : Holds L up head (node a b below behind) ↔
    head = some a ∧ (L.parent a = up ∧ L.data a = b) ∧ Holds L (some a) (L.child a) below ∧
      Holds L up (L.next a) behind := Iff.rfl

/-- The cell names the same ones and has the same content. -/
structure Same (L L' : Links ι β) (a : ι) : Prop where
  next : L'.next a = L.next a
  child : L'.child a = L.child a
  parent : L'.parent a = L.parent a
  data : L'.data a = L.data a

theorem Same.node (h : Same L L' a) (hown : L.parent a = up ∧ L.data a = b) : L'.parent a = up ∧ L'.data a = b :=
  ⟨h.parent.trans hown.1, h.data.trans hown.2⟩

theorem Holds.congr (h : Holds L up head t) (hsame : ∀ a ∈ t.nodes, Same L L' a) : Holds L' up head t := by
  induction t generalizing up head with
  | nil => exact h
  | node a b below behind ihbelow ihbehind =>
    obtain ⟨hhead, hown, hbelow, hbehind⟩ := h
    have ha := hsame a List.mem_cons_self
    refine ⟨hhead, ha.node hown, ?_, ?_⟩
    · rw [ha.child]
      exact ihbelow hbelow fun c hc => hsame c (mem_below hc)
    · rw [ha.next]
      exact ihbehind hbehind fun c hc => hsame c (mem_behind hc)

theorem Holds.head_eq (h : Holds L up head t) : head = t.level.head? := by
  cases t with
  | nil => exact h
  | node a b below behind => exact h.1

theorem Holds.nil_iff (h : Holds L up head t) : head = none ↔ t = nil := by
  cases t with
  | nil => exact iff_of_true h rfl
  | node a b below behind => simp [h.1]

/-- A new cell behind the last root. -/
theorem Holds.append (h : Holds L up head t) (hnodup : t.nodes.Nodup) (hz : t.level.getLast? = some z)
    (hlink : L'.next z = some x) (hleaf : Holds L' up (some x) (leaf x b))
    (hself : L'.child z = L.child z ∧ L'.parent z = L.parent z ∧ L'.data z = L.data z)
    (hsame : ∀ a ∈ t.nodes, a ≠ z → Same L L' a) : Holds L' up head (t.append (leaf x b)) := by
  induction t generalizing head with
  | nil => cases hz
  | node a c below behind _ ih =>
    obtain ⟨hhead, hown, hbelow, hbehind⟩ := h
    obtain ⟨hnotbelow, hnotbehind, -, hnodup', hapart⟩ := nodup_node hnodup
    have hbelow' (hz : z ∉ below.nodes) : Holds L' (some a) (L.child a) below :=
      hbelow.congr fun c hc => hsame c (mem_below hc) fun heq => hz (heq ▸ hc)
    rw [Forest.append]
    cases behind with
    | nil =>
      obtain rfl : a = z := Option.some.inj hz
      refine ⟨hhead, ⟨hself.2.1.trans hown.1, hself.2.2.trans hown.2⟩, ?_, ?_⟩
      · rw [hself.1]
        exact hbelow' hnotbelow
      · rw [hlink]
        exact hleaf
    | node a' c' below' behind =>
      have hz' : (node a' c' below' behind).level.getLast? = some z := by
        rw [← hz, level, level, level, List.getLast?_cons_cons]
      have hmem := level_subset _ (List.mem_of_getLast? hz')
      have ha := hsame a List.mem_cons_self fun heq => hnotbehind (heq ▸ hmem)
      refine ⟨hhead, ha.node hown, ?_, ?_⟩
      · rw [ha.child]
        exact hbelow' fun hz => hapart z hz hmem
      · rw [ha.next]
        exact ih hbehind hnodup' hz' fun c hc => hsame c (mem_behind hc)

/-- The trees from a node on are in memory, and when they become others, with all the other
cells as they are, the whole forest has them in their place. -/
theorem Holds.focus [DecidableEq ι] (h : Holds L up head t) (hnodup : t.nodes.Nodup) (hp : p ∈ t.nodes) :
    (t.sub p).nodes.Sublist t.nodes ∧ ∃ up', Holds L up' (some p) (t.sub p) ∧
      ∀ (L' : Links ι β) (new : Forest ι β), Holds L' up' (some p) new →
        (∀ a ∈ t.nodes, a ∉ (t.sub p).nodes → Same L L' a) → Holds L' up head (t.put p new) := by
  induction t generalizing up head with
  | nil => cases hp
  | node a b below behind ihbelow ihbehind =>
    obtain ⟨hhead, hown, hbelow, hbehind⟩ := h
    obtain ⟨hnotbelow, hnotbehind, hnodupbelow, hnodupbehind, hapart⟩ := nodup_node hnodup
    by_cases hpa : a = p
    · subst hpa
      rw [sub, if_pos rfl]
      refine ⟨List.Sublist.refl _, up, ⟨rfl, hown, hbelow, hbehind⟩, fun L' new hnew _ => ?_⟩
      rw [put, if_pos rfl, hhead]
      exact hnew
    · by_cases hin : p ∈ below.nodes
      · obtain ⟨hsublist, up', hsub, hreplace⟩ := ihbelow hbelow hnodupbelow hin
        rw [sub, if_neg hpa, if_pos hin]
        refine ⟨(hsublist.trans (List.sublist_append_left _ _)).cons a, up', hsub, fun L' new hnew hsame => ?_⟩
        have ha := hsame a List.mem_cons_self fun ha => hnotbelow (hsublist.subset ha)
        rw [put, if_neg hpa, put_of_not_mem (hapart p hin)]
        refine ⟨hhead, ha.node hown, ?_, ?_⟩
        · rw [ha.child]
          exact hreplace L' new hnew fun c hc => hsame c (mem_below hc)
        · rw [ha.next]
          exact hbehind.congr fun c hc => hsame c (mem_behind hc) fun hc' => hapart c (hsublist.subset hc') hc
      · have hin' : p ∈ behind.nodes :=
          (List.mem_append.mp (List.mem_of_ne_of_mem (Ne.symm hpa) hp)).resolve_left hin
        obtain ⟨hsublist, up', hsub, hreplace⟩ := ihbehind hbehind hnodupbehind hin'
        rw [sub, if_neg hpa, if_neg hin]
        refine ⟨(hsublist.trans (List.sublist_append_right _ _)).cons a, up', hsub, fun L' new hnew hsame => ?_⟩
        have ha := hsame a List.mem_cons_self fun ha => hnotbehind (hsublist.subset ha)
        rw [put, if_neg hpa, put_of_not_mem hin]
        refine ⟨hhead, ha.node hown, ?_, ?_⟩
        · rw [ha.child]
          exact hbelow.congr fun c hc => hsame c (mem_below hc) fun hc' => hapart c hc (hsublist.subset hc')
        · rw [ha.next]
          exact hreplace L' new hnew fun c hc => hsame c (mem_behind hc)

end forests
