-- What creating and deleting a PTY device does to the others, and when that is
-- what it should do.
import Gwdonu.PtyDevices

namespace gwdonu.pty

open Function runs chain Table

section
variable {t t' : Table} {l pre post : List Nat} {a b p : Nat} {n : Int} {dev : Pty}

/-! ## A device goes -/

theorem unlink_eq {x : Pty} (hp : t.cell p = some x) (ha : t.cell a = some dev)
    (hseg : Seg (t.relink p x dev.next).next t.head_pty l none) (hfuel : l.length < t.fuel) (hmem : p ∈ l) :
    ∃ t', Emptied x (t.relink p x dev.next) t' ∧ t.unlink p a = some (t'.drop a) := by
  have hx : (t.relink p x dev.next).cell p = some { x with next := dev.next } := update_self ..
  obtain ⟨t₁, y, t₂, ht₁, hy, ht₂, hempty⟩ :=
    close_both (t := t.relink p x dev.next) hseg hfuel hmem hx
  refine ⟨t₂, ⟨hempty.same, hempty.fds, hempty.cell⟩, ?_⟩
  unfold Table.unlink
  simp only [ha, hp, hx, Option.bind_eq_bind, Option.bind_some]
  rw [ht₁, Option.bind_some, hy, Option.bind_some, ht₂, Option.bind_some]

/-- The first device is freed, and is still named by the head. -/
theorem unlink_head (h : t.Counted (a :: post)) :
    ∃ t', t.unlink a a = some t' ∧ ¬ t'.Intact := by
  have hhead : t.head_pty = some a := h.lists.seg.1
  obtain ⟨dev, hdev⟩ : ∃ dev, t.cell a = some dev :=
    Option.isSome_iff_exists.mp ((h.lists.live a).mp List.mem_cons_self)
  have hrelink : t.relink a dev dev.next = t := by
    unfold Table.relink
    rw [show ({ dev with next := dev.next } : Pty) = dev from rfl, ← hdev, update_eq_self]
  have hseg : Seg (t.relink a dev dev.next).next t.head_pty (a :: post) none := by
    rw [hrelink]
    exact h.lists.seg
  obtain ⟨t', hempty, hunlink⟩ := unlink_eq hdev hdev hseg h.enough List.mem_cons_self
  refine ⟨t'.drop a, hunlink, ?_⟩
  rintro ⟨⟨l, hl, -⟩, -⟩
  have hhead' : (t'.drop a).head_pty = some a := by
    rw [← hhead]
    exact hempty.same.head_pty
  have hmem : a ∈ l := by
    have hfirst := hl.seg.head_eq
    rw [hhead'] at hfirst
    exact List.mem_of_mem_head? hfirst.symm
  have hlive := (hl.live a).mp hmem
  simp [Table.drop] at hlive

/-- The devices keep their numbers. -/
theorem emptied_num {x y : Pty} {next : Option Nat} (hx : t.cell p = some x)
    (h : Emptied y (t.relink p x next) t') (b : Nat) :
    (t'.cell b).map Pty.pty_num = (t.cell b).map Pty.pty_num := by
  have hcore := congrArg (Option.map fun core => core.2.1) (h.same.core b)
  simp only [Option.map_map, Function.comp_def, Pty.core] at hcore
  refine hcore.trans ?_
  unfold Table.relink
  by_cases hb : b = p
  · simp [hb, hx]
  · simp [hb]

theorem at_num (h : (t'.cell b).map Pty.pty_num = (t.cell b).map Pty.pty_num) :
    t'.At n b ↔ t.At n b := by
  have hat (u : Table) : u.At n b ↔ (u.cell b).map Pty.pty_num = some n := Option.map_eq_some_iff.symm
  rw [hat, hat, h]

theorem drop_cell (t : Table) (a b : Nat) :
    (t.drop a).cell b = if b = a then none else t.cell b := update_apply ..

theorem drop_at : (t.drop a).At n b ↔ b ≠ a ∧ t.At n b := by
  unfold Table.At
  rw [drop_cell]
  by_cases hb : b = a
  · simp [hb]
  · simp [hb]

/-- Devices with the numbers of the old ones have distinct numbers. -/
theorem distinct_of_at (h : t.Distinct) (hat : ∀ b n, t'.At n b → t.At n b) : t'.Distinct := by
  intro a b x y hx hy hab
  obtain ⟨u, hu, hux⟩ := hat a x.pty_num ⟨x, hx, rfl⟩
  obtain ⟨v, hv, hvy⟩ := hat b y.pty_num ⟨y, hy, rfl⟩
  rw [← hux, ← hvy]
  exact h a b u v hu hv hab

/-- A device behind another one goes, and the descriptors of that one are closed. -/
theorem unlink_after {x : Pty} (h : t.Counted (pre ++ p :: a :: post)) (hx : t.cell p = some x)
    (ha : t.cell a = some dev) :
    ∃ t', Emptied x (t.relink p x dev.next) t' ∧ t.unlink p a = some (t'.drop a) ∧
      (t'.drop a).Counted (pre ++ p :: post) := by
  have hsplit : (pre ++ p :: a :: post).Perm (a :: (pre ++ p :: post)) := by
    rw [show pre ++ p :: a :: post = (pre ++ [p]) ++ a :: post by simp,
      show pre ++ p :: post = (pre ++ [p]) ++ post by simp]
    exact List.perm_middle
  have hnodup := hsplit.nodup_iff.mp h.lists.seg.nodup
  have hnot : a ∉ pre ++ p :: post := (List.nodup_cons.mp hnodup).1
  have hpa : p ≠ a := fun heq => hnot (heq ▸ by simp)
  have hapart : ∀ b ∈ pre ++ post, b ≠ p := by
    have hp := (List.perm_middle.nodup_iff.mp (List.nodup_cons.mp hnodup).2 :
      (p :: (pre ++ post)).Nodup)
    exact fun b hb heq => (List.nodup_cons.mp hp).1 (heq ▸ hb)
  have hspans : Spans t.next t.head_pty _ (pre ++ p :: a :: post) := ⟨h.lists.seg, rfl⟩
  have hseg : Seg (t.relink p x dev.next).next t.head_pty (pre ++ p :: post) none := by
    refine (hspans.remove (next_cell ha) ?_ ?_).seg
    · simp [Table.next, Table.relink]
    · intro b hb
      simp [Table.next, Table.relink, update_of_ne (hapart b hb)]
  have hfuel : (pre ++ p :: post).length < t.fuel := by
    have := h.enough
    simp at this ⊢
    omega
  obtain ⟨t', hempty, hunlink⟩ := unlink_eq hx ha hseg hfuel (by simp)
  have hnum := emptied_num hx hempty
  have hat (b : Nat) (n : Int) (hb : (t'.drop a).At n b) : t.At n b :=
    (at_num (hnum b)).mp (drop_at.mp hb).2
  refine ⟨t', hempty, hunlink, ⟨?_, ?_⟩, ?_, distinct_of_at h.distinct hat, ?_, ?_, ?_⟩
  · change Seg _ t'.head_pty _ none
    rw [hempty.same.head_pty]
    refine hseg.congr fun b hb => ?_
    rw [← hempty.same.next]
    have hba : b ≠ a := fun heq => hnot (heq ▸ hb)
    simp [Table.next, drop_cell, hba]
  · intro b
    rw [drop_cell]
    by_cases hba : b = a
    · simp [hba, hnot]
    · have hmem := (h.lists.live b).symm.trans hsplit.mem_iff
      rw [← Option.isSome_map (f := Pty.pty_num), ← hnum b, Option.isSome_map, List.mem_cons,
        or_iff_right hba] at hmem
      rw [if_neg hba, hmem]
  · have := h.length
    simp at this ⊢
    omega
  · exact fun b n hb => h.number b n (hat b n hb)
  · have hcount := h.count
    have hsame : t'.pty_maxnum = t.pty_maxnum := hempty.same.pty_maxnum
    simp at hcount
    change t'.pty_maxnum - 1 = _
    simp
    omega
  · intro b hb
    change b < t'.brk
    rw [hempty.same.brk]
    exact h.fresh b (hsplit.mem_iff.mpr (List.mem_cons_of_mem a hb))

theorem unlink_fds {x : Pty} {next : Option Nat} (h : Emptied x (t.relink p x next) t') (hx : t.cell p = some x)
    (fd : Int) : (t.Closes p fd → (t'.drop a).fds fd = none) ∧
      (¬ t.Closes p fd → (t'.drop a).fds fd = t.fds fd) := by
  have hfds : (t'.drop a).fds fd =
      if 0 < fd ∧ (fd = x.fd_master ∨ fd = x.fd_slave) then none else t.fds fd := h.fds fd
  constructor
  · rintro ⟨hpos, -, y, hy, hfd⟩
    obtain rfl := Option.some.inj (hy.symm.trans hx)
    rw [hfds, if_pos ⟨hpos, hfd⟩]
  · intro hnot
    rw [hfds]
    split
    · rename_i hclose
      by_contra hopen
      exact hnot ⟨hclose.1, Ne.symm hopen, x, hx, hclose.2⟩
    · rfl

theorem relink_cell {x : Pty} (hx : t.cell p = some x) (next : Option Nat) (hb : t.cell b = some dev) :
    ∃ dev', (t.relink p x next).cell b = some dev' ∧ dev'.name = dev.name ∧
      dev'.pty_num = dev.pty_num ∧ ∀ i, dev'.fd i = dev.fd i := by
  unfold Table.relink
  by_cases hbp : b = p
  · subst hbp
    obtain rfl := Option.some.inj (hb.symm.trans hx)
    exact ⟨_, update_self .., rfl, rfl, fun i => by cases i <;> rfl⟩
  · exact ⟨dev, by simp [hbp, hb], rfl, rfl, fun _ => rfl⟩

/-- The device goes as it should, when the one in front of it has its descriptors. -/
theorem removed_iff {x : Pty} {next : Option Nat} (h : t.Counted l) (ha : t.At n a) (hx : t.cell p = some x)
    (hempty : Emptied x (t.relink p x next) t') :
    t.Removed (t'.drop a) n ↔ ∀ fd, t.Closes p fd ↔ t.Owns a fd := by
  constructor
  · intro hremoved fd
    obtain ⟨hclosed, hopen⟩ := unlink_fds (a := a) hempty hx fd
    constructor
    · intro hcloses
      by_contra hnot
      have hsame := hremoved.others_open fd fun b hb => at_unique h ha hb ▸ hnot
      exact hcloses.2.1 (hsame.symm.trans (hclosed hcloses))
    · intro howns
      by_contra hnot
      have hnone := hremoved.closed a fd ha howns
      obtain ⟨port, hport⟩ := howns
      rw [hopen hnot, hport] at hnone
      cases hnone
  · intro hsame
    refine ⟨?_, ?_, ?_, ?_, ?_⟩
    · intro b hb
      rw [drop_cell, if_pos (at_unique h hb ha)]
    · intro b dev hdev hne
      have hba : b ≠ a := by
        rintro rfl
        obtain ⟨x, hx, hxn⟩ := ha
        obtain rfl := Option.some.inj (hdev.symm.trans hx)
        exact hne hxn
      obtain ⟨dev₁, hdev₁, hname₁, hnum₁, hfd₁⟩ := relink_cell hx next hdev
      obtain ⟨dev', hdev', hcore, hfd⟩ := hempty.cell b dev₁ hdev₁
      refine ⟨dev', ?_, ?_, ?_, ?_⟩
      · rw [drop_cell, if_neg hba, hdev']
      · exact (congrArg Prod.fst hcore).trans hname₁
      · exact (congrArg (fun core => core.2.1) hcore).trans hnum₁
      · intro side howns
        rcases hfd side with hsame' | ⟨hpos, hclosed⟩
        · exact hsame'.trans (hfd₁ side)
        · -- a descriptor of this device is none of the other one
          rw [hfd₁ side] at hpos hclosed
          obtain ⟨port, hport⟩ := howns
          have hcloses : t.Closes p (dev.fd side) := ⟨hpos, by simp [hport], x, hx, hclosed⟩
          obtain ⟨port', hport'⟩ := (hsame _).mp hcloses
          rw [hport] at hport'
          cases hport'
          exact absurd rfl hba
    · intro b hb
      have hnum := emptied_num hx hempty b
      rw [hb, Option.map_none, Option.map_eq_none_iff] at hnum
      rw [drop_cell, hnum, ite_self]
    · intro b fd hb howns
      obtain rfl := at_unique h ha hb
      exact (unlink_fds hempty hx fd).1 ((hsame fd).mpr howns)
    · intro fd hnot
      exact (unlink_fds hempty hx fd).2 fun hcloses => hnot a ha ((hsame fd).mp hcloses)

/-- What `DeletePty` comes to: there is no such device, or it is the first one, or
it stands behind another one. -/
theorem delete_cases (h : t.Counted l) (n : Int) :
    (t.DeletePty n = some t ∧ ∀ a, ¬ t.At n a) ∨
    (∃ a t', t.At n a ∧ t.head_pty = some a ∧ t.DeletePty n = some t' ∧ ¬ t'.Intact) ∨
    ∃ (p a : Nat) (x dev : Pty) (t' : Table) (r : List Nat), t.At n a ∧ t.head_pty ≠ some a ∧ t.cell p = some x ∧
      x.next = some a ∧ Emptied x (t.relink p x dev.next) t' ∧ t.DeletePty n = some (t'.drop a) ∧
      (t'.drop a).Counted r := by
  have hnegative (hn : n < 0) (a : Nat) : ¬ t.At n a := fun ha => by
    have := h.number a n ha
    omega
  unfold Table.DeletePty
  split
  · rename_i hhead
    refine .inl ⟨rfl, fun a ha => ?_⟩
    have hmem := at_mem h ha
    have hfirst := h.lists.seg.head_eq
    rw [hhead] at hfirst
    rw [List.head?_eq_none_iff.mp hfirst.symm] at hmem
    cases hmem
  · rename_i head hhead
    by_cases hn : n < 0
    · rw [if_pos hn]
      exact .inl ⟨rfl, hnegative hn⟩
    · rw [if_neg hn]
      rcases find_eq h hhead n with ⟨hfind, hnone⟩ | ⟨pre, a, post, rfl, ha, hfind⟩
      · rw [hfind]
        exact .inl ⟨rfl, hnone⟩
      · rw [hfind]
        right
        rcases pre.eq_nil_or_concat with rfl | ⟨pre, p, rfl⟩
        · left
          have hfirst : t.head_pty = some a := h.lists.seg.1
          obtain rfl := Option.some.inj (hhead.symm.trans hfirst)
          obtain ⟨t', hunlink, hnot⟩ := unlink_head h
          exact ⟨head, t', ha, hhead, hunlink, hnot⟩
        · right
          obtain ⟨dev, hdev, hnum⟩ := ha
          have hsplit : pre.concat p ++ a :: post = pre ++ p :: a :: post := by simp
          rw [hsplit] at h
          obtain ⟨m, hpre, rfl, k, hk, rfl, hrest⟩ := seg_append.mp h.lists.seg
          obtain ⟨x, hx, hxnext⟩ := cell_of_next hk
          obtain ⟨t', hempty, hunlink, hcounted⟩ := unlink_after h hx hdev
          refine ⟨p, a, x, dev, t', _, ⟨dev, hdev, hnum⟩, ?_, hx, hxnext, hempty, ?_, hcounted⟩
          · intro hfirst
            have hnodup := h.lists.seg.nodup
            rw [h.lists.seg.head_eq] at hfirst
            cases pre with
            | nil =>
              obtain rfl := Option.some.inj hfirst
              simp at hnodup
            | cons b pre =>
              obtain rfl := Option.some.inj hfirst
              simp at hnodup
          · rw [List.concat_eq_append, List.getLast?_concat]
            exact hunlink

theorem delete_right (h : t.Counted l) (n : Int) : t.Right (.delete n) ↔ t.Sound (.delete n) := by
  rcases delete_cases h n with ⟨hcall, hnone⟩ | ⟨a, t', ha, hhead, hcall, hnot⟩ |
    ⟨p, a, x, dev, t', r, ha, hhead, hx, hxnext, hempty, hcall, hcounted⟩
  · constructor
    · exact fun _ a ha => absurd ha (hnone a)
    · intro _
      refine ⟨t, hcall, h.intact, ?_, ?_, ?_, ?_, ?_⟩
      · exact fun a ha => absurd ha (hnone a)
      · exact fun a dev hdev _ => ⟨dev, hdev, rfl, rfl, fun _ _ => rfl⟩
      · exact fun _ h => h
      · exact fun a _ ha => absurd ha (hnone a)
      · exact fun _ _ => rfl
  · constructor
    · rintro ⟨u, hu, hintact, -⟩
      obtain rfl := Option.some.inj (hu.symm.trans hcall)
      exact absurd hintact hnot
    · exact fun hsound => absurd hhead (hsound a ha).1
  · have hnext : t.next p = some (some a) := by rw [next_cell hx, hxnext]
    have hmem {q : Nat} (hq : t.next q = some (some a)) : q ∈ l := by
      obtain ⟨y, hy, -⟩ := cell_of_next hq
      rw [h.lists.live, hy]
      rfl
    have hremoved := removed_iff h ha hx hempty
    constructor
    · rintro ⟨u, hu, -, hu'⟩
      obtain rfl := Option.some.inj (hu.symm.trans hcall)
      intro b hb
      obtain rfl := at_unique h ha hb
      refine ⟨hhead, fun q hq => ?_⟩
      rw [h.lists.seg.before_unique (hmem hq) (hmem hnext) hq hnext]
      exact hremoved.mp hu'
    · intro hsound
      exact ⟨_, hcall, hcounted.intact, hremoved.mpr ((hsound a ha).2 p hnext)⟩

theorem delete_counted (h : t.Counted l) (n : Int) (hsound : t.Sound (.delete n)) :
    ∃ t' r, t.DeletePty n = some t' ∧ t'.Counted r := by
  rcases delete_cases h n with ⟨hcall, -⟩ | ⟨a, t', ha, hhead, -⟩ |
    ⟨p, a, x, dev, t', r, -, -, -, -, -, hcall, hcounted⟩
  · exact ⟨t, l, hcall, h⟩
  · exact absurd hhead (hsound a ha).1
  · exact ⟨_, r, hcall, hcounted⟩

/-! ## A new device -/

/-- A device behind the others, with the next number. -/
structure Grown (t t' : Table) (l : List Nat) : Prop where
  lists : t'.Lists (l ++ [t.brk])
  num : ∀ b, (t'.cell b).map Pty.pty_num =
    if b = t.brk then some t.pty_maxnum else (t.cell b).map Pty.pty_num
  pty_maxnum : t'.pty_maxnum = t.pty_maxnum + 1
  brk : t'.brk = t.brk + 1
  fds : t'.fds = t.fds

theorem brk_free (h : t.Counted l) : t.cell t.brk = none := by
  by_contra hsome
  have hmem := (h.lists.live t.brk).mpr (Option.isSome_iff_ne_none.mpr hsome)
  exact Nat.lt_irrefl _ (h.fresh t.brk hmem)

theorem malloc_fails (h : t.Counted l) (name : List UInt8) : t.CreatePty name none = some (t, -1) := by
  unfold Table.CreatePty
  split
  · rfl
  · rename_i head hhead
    split
    · rfl
    · have hseg := h.lists.seg
      rcases l.eq_nil_or_concat with rfl | ⟨q, p, rfl⟩
      · cases hhead.symm.trans hseg
      · rw [hhead, List.concat_eq_append] at hseg
        have hfuel : q.length < t.fuel := by
          have := h.enough
          simp at this
          omega
        rw [last_eq hseg hfuel]
        rfl

theorem create_grown (h : t.Counted l) (name : List UInt8) (block : Block) :
    ∃ t', t.CreatePty name (some block) = some (t', t.pty_maxnum) ∧ Grown t t' l := by
  have hfree := brk_free h
  have hseg := h.lists.seg
  unfold Table.CreatePty
  split
  · rename_i hhead
    rw [hhead] at hseg
    obtain rfl : l = [] := by
      cases l with
      | nil => rfl
      | cons a l => cases hseg.1
    refine ⟨_, rfl, ⟨⟨rfl, none, ?_, rfl⟩, fun b => ?_⟩, fun b => ?_, rfl, rfl, rfl⟩
    · simp [Table.next, Table.alloc]
    · have hlive := h.lists.live b
      by_cases hb : b = t.brk
      · simp [Table.alloc, hb]
      · simpa [Table.alloc, hb] using hlive
    · by_cases hb : b = t.brk
      · simp [Table.alloc, hb]
      · simp [Table.alloc, hb]
  · rename_i head hhead
    have hcount := h.count
    have hlength := h.length
    rw [if_neg (by omega)]
    rcases l.eq_nil_or_concat with rfl | ⟨q, p, rfl⟩
    · cases hhead.symm.trans hseg
    · rw [List.concat_eq_append] at *
      have hfuel : q.length < t.fuel := by
        have := h.enough
        simp at this
        omega
      have hlast : t.last t.fuel head = some p := last_eq (hhead ▸ hseg) hfuel
      have hp : p ∈ q ++ [p] := by simp
      have hpb : p ≠ t.brk := Nat.ne_of_lt (h.fresh p hp)
      obtain ⟨dev, hdev⟩ := Option.isSome_iff_exists.mp ((h.lists.live p).mp hp)
      rw [hlast]
      simp only [Option.bind_eq_bind, Option.bind_some, Table.alloc, update_of_ne hpb, hdev]
      refine ⟨_, rfl, ⟨?_, fun b => ?_⟩, fun b => ?_, rfl, rfl, rfl⟩
      · have hspans : Spans t.next t.head_pty (some p) (q ++ [p]) := ⟨hseg, by simp⟩
        refine (hspans.append rfl ?_ ?_ ?_).seg
        · simp [Table.next]
        · simp [Table.next, update_of_ne (Ne.symm hpb)]
        · intro b hb hbp
          simp [Table.next, update_of_ne hbp, update_of_ne (Nat.ne_of_lt (h.fresh b hb))]
      · rw [List.mem_append, h.lists.live b, List.mem_singleton]
        by_cases hbp : b = p
        · simp [hbp, hdev]
        · by_cases hb : b = t.brk
          · simp [hb, update_of_ne (Ne.symm hpb)]
          · simp [hb, hbp]
      · by_cases hbp : b = p
        · simp [hbp, hpb, hdev]
        · by_cases hb : b = t.brk
          · simp [hb, update_of_ne (Ne.symm hpb)]
          · simp [hb, hbp]

theorem Grown.at_new (h : Grown t t' l) : t'.At n t.brk ↔ n = t.pty_maxnum := by
  have hat : t'.At n t.brk ↔ (t'.cell t.brk).map Pty.pty_num = some n := Option.map_eq_some_iff.symm
  rw [hat, h.num, if_pos rfl, Option.some.injEq, eq_comm]

theorem Grown.at_old (h : Grown t t' l) (hb : b ≠ t.brk) : t'.At n b ↔ t.At n b :=
  at_num ((h.num b).trans (if_neg hb))

theorem Grown.counted (h : Grown t t' l) (hc : t.Counted l) (hlength : t.pty_maxnum ≤ 7)
    (hnew : ∀ a, ¬ t.At t.pty_maxnum a) : t'.Counted (l ++ [t.brk]) := by
  have hcount := hc.count
  refine ⟨h.lists, ?_, ?_, ?_, ?_, ?_⟩
  · simp
    omega
  · intro a b x y hx hy hab
    have ha : t'.At x.pty_num a := ⟨x, hx, rfl⟩
    have hb : t'.At y.pty_num b := ⟨y, hy, rfl⟩
    have hnum : x.pty_num ≠ y.pty_num := by
      intro heq
      rw [heq] at ha
      by_cases hanew : a = t.brk
      · subst hanew
        rw [h.at_new] at ha
        rw [h.at_old (Ne.symm hab), ha] at hb
        exact hnew b hb
      · rw [h.at_old hanew] at ha
        by_cases hbnew : b = t.brk
        · subst hbnew
          rw [h.at_new] at hb
          rw [hb] at ha
          exact hnew a ha
        · exact hab (at_unique hc ha ((h.at_old hbnew).mp hb))
    exact ⟨hnum, sin_port_distinct hnum⟩
  · intro a m ha
    by_cases hanew : a = t.brk
    · subst hanew
      have hm := h.at_new.mp ha
      omega
    · exact hc.number a m ((h.at_old hanew).mp ha)
  · rw [h.pty_maxnum, hcount]
    simp
  · intro a ha
    rw [h.brk]
    rcases List.mem_append.mp ha with ha | ha
    · exact Nat.lt_succ_of_lt (hc.fresh a ha)
    · rw [List.mem_singleton.mp ha]
      exact Nat.lt_succ_self _

theorem create_right (h : t.Counted l) (name : List UInt8) (malloc : Option Block) :
    t.Right (.create name malloc) ↔ t.Sound (.create name malloc) := by
  cases malloc with
  | none =>
    have hcall := malloc_fails h name
    refine iff_of_true ⟨t, ?_, h.intact, -1, hcall, .inl ⟨rfl, rfl⟩, rfl⟩ trivial
    simp [Table.call, hcall]
  | some block =>
    obtain ⟨t', hcall, hgrown⟩ := create_grown h name block
    have hstep : t.call (.create name (some block)) = some t' := by simp [Table.call, hcall]
    constructor
    · rintro ⟨u, hu, ⟨⟨r, hr, hlength⟩, hdistinct⟩, -⟩
      obtain rfl := Option.some.inj (hu.symm.trans hstep)
      obtain rfl := hr.seg.unique hgrown.lists.seg
      have hcount := h.count
      simp at hlength
      refine ⟨by omega, fun a ha => ?_⟩
      have hne : a ≠ t.brk := by
        rintro rfl
        obtain ⟨x, hx, -⟩ := ha
        rw [brk_free h] at hx
        cases hx
      obtain ⟨x, hx, hxn⟩ := (hgrown.at_old hne).mpr ha
      obtain ⟨y, hy, hyn⟩ := hgrown.at_new.mpr rfl
      exact (hdistinct a t.brk x y hx hy hne).1 (hxn.trans hyn.symm)
    · rintro ⟨hlength, hnew⟩
      have hcounted := hgrown.counted h hlength hnew
      refine ⟨t', hstep, hcounted.intact, t.pty_maxnum, hcall, .inr ⟨t.brk, brk_free h, ?_, ?_⟩, hgrown.fds⟩
      · exact hgrown.at_new.mpr rfl
      · intro b hb
        rw [hgrown.num, if_neg hb]

/-! ## Every run -/

theorem open_same (h : t.Counted l) (side : End) (n socket : Int) (bind : Bool) :
    ∃ t', t.call (.open_end side n socket bind) = some t' ∧ Same t t' := by
  obtain ⟨t', r, hopen, hsame⟩ := openDev_same h side n socket bind
  refine ⟨t', ?_, hsame⟩
  unfold Table.call
  cases side with
  | master => exact congrArg (Option.map Prod.fst) hopen
  | slave => exact congrArg (Option.map Prod.fst) hopen

theorem close_same (h : t.Counted l) (side : End) (fd : Int) :
    ∃ t', t.call (.close_end side fd) = some t' ∧ Same t t' := by
  obtain ⟨t', hclose, hclosed⟩ := closeDev_eq h.lists.seg h.enough side fd
  refine ⟨t', ?_, hclosed.same⟩
  unfold Table.call
  cases side with
  | master => exact hclose
  | slave => exact hclose

/-- A call does what it should exactly when it meets the condition. -/
theorem call_right (h : t.Counted l) (e : Event) : t.Right e ↔ t.Sound e := by
  cases e with
  | create name malloc => exact create_right h name malloc
  | delete n => exact delete_right h n
  | open_end side n socket bind =>
    obtain ⟨t', hcall, hsame⟩ := open_same h side n socket bind
    exact iff_of_true ⟨t', hcall, (hsame.counted h).intact, trivial⟩ trivial
  | close_end side fd =>
    obtain ⟨t', hcall, hsame⟩ := close_same h side fd
    exact iff_of_true ⟨t', hcall, (hsame.counted h).intact, trivial⟩ trivial

theorem call_counted (h : t.Counted l) {e : Event} (hsound : t.Sound e) :
    ∃ t' r, t.call e = some t' ∧ t'.Counted r := by
  cases e with
  | create name malloc =>
    cases malloc with
    | none => exact ⟨t, l, by simp [Table.call, malloc_fails h name], h⟩
    | some block =>
      obtain ⟨t', hcall, hgrown⟩ := create_grown h name block
      exact ⟨t', _, by simp [Table.call, hcall], hgrown.counted h hsound.1 hsound.2⟩
  | delete n => exact delete_counted h n hsound
  | open_end side n socket bind =>
    obtain ⟨t', hcall, hsame⟩ := open_same h side n socket bind
    exact ⟨t', l, hcall, hsame.counted h⟩
  | close_end side fd =>
    obtain ⟨t', hcall, hsame⟩ := close_same h side fd
    exact ⟨t', l, hcall, hsame.counted h⟩

/-- Every call of a run does what it should exactly when every call meets the condition. -/
theorem the_device_table_is_kept (fds : Int → Option Descriptor) (es : List Event) :
    Along step (fun s e => ∃ t, s = some t ∧ t.Right e) (some (.init fds)) es ↔
      Along step (fun s e => ∀ t, s = some t → t.Sound e) (some (.init fds)) es := by
  have hinit : ∃ t l, some (Table.init fds) = some t ∧ t.Counted l :=
    ⟨_, [], rfl, init_counted fds⟩
  refine along_iff_along (I := fun s => ∃ t l, s = some t ∧ t.Counted l) ?_ ?_ hinit es
  · rintro s e ⟨t, l, rfl, h⟩ hsound
    obtain ⟨t', r, hcall, hcounted⟩ := call_counted h (hsound t rfl)
    exact ⟨t', r, hcall, hcounted⟩
  · rintro s e ⟨t, l, rfl, h⟩
    have hcall := call_right h e
    constructor
    · rintro ⟨u, hu, hright⟩ v hv
      obtain rfl := Option.some.inj hu
      obtain rfl := Option.some.inj hv
      exact hcall.mp hright
    · intro hsound
      exact ⟨t, rfl, hcall.mpr (hsound t rfl)⟩

/-- The first device is deleted; nine are created; one is created after another one
than the last was deleted; a device with open ends is deleted behind another one. -/
theorem a_delete_leaves_the_head :
    let create : Event := .create [] (some ⟨0, 0⟩)
    let table (es : List Event) : Option Table := run step (some (.init fun _ => none)) es
    let numbers (t : Table) : List Int := ((List.range t.brk).filterMap t.cell).map Pty.pty_num
    let opened : List Event := [create, create, .open_end .master 0 5 true, .open_end .slave 0 6 true,
      .open_end .master 1 7 true, .open_end .slave 1 8 true]
    ¬ Along step (fun s e => ∃ t, s = some t ∧ t.Right e) (some (.init fun _ => none))
      [create, .delete 0] ∧
    (table [create, .delete 0]).map (fun t => (t.head_pty, t.cell 0)) = some (some 0, none) ∧
    (table (List.replicate 9 create)).map numbers = some [0, 1, 2, 3, 4, 5, 6, 7, 8] ∧
    (table [create, create, create, .delete 1, create]).map numbers = some [0, 2, 2] ∧
    (table (opened ++ [.delete 1])).map (fun t => [t.fds 5, t.fds 6, t.fds 7, t.fds 8]) =
      some [none, none, some (.socket 1 7002), some (.socket 1 7003)] := by
  intro create table numbers opened
  have hdangling : (table [create, .delete 0]).map (fun t => (t.head_pty, t.cell 0)) =
      some (some 0, none) := by decide
  refine ⟨?_, hdangling, by decide, by decide, by decide⟩
  rintro ⟨-, ⟨u, hu, t', hcall, ⟨⟨l, hl, -⟩, -⟩, -⟩, -⟩
  have hrun : table [create, .delete 0] = some t' := by
    change step (step (some (.init fun _ => none)) create) (.delete 0) = some t'
    rw [hu]
    exact hcall
  rw [hrun] at hdangling
  obtain ⟨hhead, hcell⟩ := Prod.mk.inj (Option.some.inj hdangling)
  have hfirst := hl.seg.head_eq
  rw [hhead] at hfirst
  have hlive := (hl.live 0).mp (List.mem_of_mem_head? hfirst.symm)
  rw [hcell] at hlive
  cases hlive

end

end gwdonu.pty
