-- Writes to fields in a file of registers: two that have no bit in common can be made in
-- either order, and none of them shows in a field that it has no bit of.
import Gwdonu.Lib.Fields
import Gwdonu.Lib.Runs

namespace writes

open Function runs

variable {w : Nat}

/-! ## One write -/

/-- So many bits of a register, from an offset on. -/
structure Place where
  addr : Nat
  off : Nat
  len : Nat
  deriving DecidableEq

structure Write (w : Nat) where
  place : Place
  data : BitVec w
  deriving DecidableEq

abbrev Regs (w : Nat) := Nat → BitVec w

def read (r : Regs w) (p : Place) : BitVec w := fields.get (r p.addr) p.off p.len

def write (r : Regs w) (x : Write w) : Regs w :=
  update r x.place.addr (fields.put (r x.place.addr) x.data x.place.off x.place.len)

/-- No bit is in both. -/
def Place.Apart (p q : Place) : Prop := p.addr = q.addr → p.off + p.len ≤ q.off ∨ q.off + q.len ≤ p.off

instance (p q : Place) : Decidable (p.Apart q) := inferInstanceAs (Decidable (_ → _))

section
variable {r : Regs w} {x y : Write w} {p q : Place} {a i : Nat} {l l' : List (Write w)}

theorem Place.Apart.symm (h : p.Apart q) : q.Apart p := fun haddr => (h haddr.symm).symm

theorem write_bit : (write r x a).getLsbD i =
    if a = x.place.addr ∧ i < w ∧ x.place.off ≤ i ∧ i < x.place.off + x.place.len then
      x.data.getLsbD (i - x.place.off)
    else (r a).getLsbD i := by
  unfold write
  by_cases ha : a = x.place.addr
  · subst ha
    rw [update_self, fields.getLsbD_put]
    simp
  · rw [update_of_ne ha, if_neg fun h => ha h.1]

/-- Two files of registers are the same when all their bits are. -/
theorem regs_ext {r t : Regs w} (h : ∀ a i, i < w → (r a).getLsbD i = (t a).getLsbD i) : r = t := by
  funext a
  apply BitVec.eq_of_getLsbD_eq
  exact h a

theorem write_comm (h : x.place.Apart y.place) : write (write r x) y = write (write r y) x := by
  apply regs_ext
  intro a i _
  simp only [write_bit]
  split_ifs with hy hx
  · have hapart := h (hx.1.symm.trans hy.1)
    omega
  · rfl
  · rfl
  · rfl

theorem read_bit : (read r p).getLsbD i = (decide (i < p.len) && (r p.addr).getLsbD (p.off + i)) :=
  fields.getLsbD_get ..

/-- What is there already is written again. -/
theorem write_eq_self {d : BitVec w} (h : read r p = d) : write r ⟨p, d⟩ = r := by
  apply regs_ext
  intro a i hi
  rw [write_bit]
  split_ifs with hin
  · obtain ⟨rfl, -, hlo, hhi⟩ := hin
    dsimp only at hlo hhi ⊢
    have hback : p.off + (i - p.off) = i := by omega
    rw [← h, read_bit, hback, decide_eq_true (by omega), Bool.true_and]
  · rfl

theorem read_write (h : x.place.Apart p) : read (write r x) p = read r p := by
  apply BitVec.eq_of_getLsbD_eq
  intro i _
  rw [read_bit, read_bit, write_bit]
  by_cases hlen : i < p.len
  · rw [if_neg]
    rintro ⟨haddr, -, hlo, hhi⟩
    have hapart := h haddr.symm
    omega
  · simp [hlen]

theorem read_write_self (hfit : p.off + p.len ≤ w) {d : BitVec w} (hd : d.toNat < 2 ^ p.len) :
    read (write r ⟨p, d⟩) p = d := by
  rw [read, write, update_self]
  exact fields.get_put _ _ hfit hd

/-! ## Lists of writes -/

/-- No write of the one list has a bit in common with one of the other. -/
def Separate (l l' : List (Write w)) : Prop := ∀ x ∈ l, ∀ y ∈ l', x.place.Apart y.place

theorem Separate.symm (h : Separate l l') : Separate l' l := fun y hy x hx => (h x hx y hy).symm

theorem separate_cons : Separate (x :: l) l' ↔ (∀ y ∈ l', x.place.Apart y.place) ∧ Separate l l' :=
  List.forall_mem_cons

theorem writes_write (h : ∀ y ∈ l, x.place.Apart y.place) : run write (write r x) l = write (run write r l) x := by
  induction l generalizing r with
  | nil => rfl
  | cons y l ih =>
    obtain ⟨hy, hl⟩ := List.forall_mem_cons.mp h
    rw [run_cons, run_cons, write_comm hy, ih hl]

theorem writes_comm (h : Separate l l') : run write (run write r l) l' = run write (run write r l') l := by
  induction l generalizing r with
  | nil => rfl
  | cons x l ih =>
    obtain ⟨hx, hl⟩ := separate_cons.mp h
    rw [run_cons, run_cons, ih hl, writes_write hx]

theorem read_writes (h : ∀ x ∈ l, x.place.Apart p) : read (run write r l) p = read r p := by
  induction l generalizing r with
  | nil => rfl
  | cons x l ih =>
    obtain ⟨hx, hl⟩ := List.forall_mem_cons.mp h
    rw [run_cons, ih hl, read_write hx]

/-- What a field shows behind a write depends on what it showed before, and on nothing else. -/
theorem read_write_congr {t : Regs w} (h : read r p = read t p) : read (write r x) p = read (write t x) p := by
  apply BitVec.eq_of_getLsbD_eq
  intro i _
  have hbit := congrArg (BitVec.getLsbD · i) h
  simp only [read_bit] at hbit
  rw [read_bit, read_bit, write_bit, write_bit]
  split_ifs
  · rfl
  · exact hbit

theorem read_writes_congr {t : Regs w} (h : read r p = read t p) :
    read (run write r l) p = read (run write t l) p := by
  induction l generalizing r t with
  | nil => exact h
  | cons x l ih => exact ih (read_write_congr h)

/-- Of a list of writes, those that are apart from a field do not count for it. -/
theorem read_writes_filter {c : Write w → Bool} (h : ∀ x ∈ l, c x = false → x.place.Apart p) :
    read (run write r l) p = read (run write r (l.filter c)) p := by
  induction l generalizing r with
  | nil => rfl
  | cons x l ih =>
    obtain ⟨hx, hl⟩ := List.forall_mem_cons.mp h
    cases hc : c x with
    | true =>
      rw [List.filter_cons_of_pos hc, run_cons, run_cons]
      exact ih hl
    | false =>
      rw [List.filter_cons_of_neg (by simp [hc]), run_cons, ← ih hl]
      exact read_writes_congr (read_write (hx hc))

def Write.Covers (x : Write w) (a i : Nat) : Prop :=
  a = x.place.addr ∧ i < w ∧ x.place.off ≤ i ∧ i < x.place.off + x.place.len

/-- A bit that no write covers stays as it is. -/
theorem writes_outside (h : ∀ x ∈ l, ¬ x.Covers a i) : (run write r l a).getLsbD i = (r a).getLsbD i := by
  induction l generalizing r with
  | nil => rfl
  | cons x l ih =>
    obtain ⟨hx, hl⟩ := List.forall_mem_cons.mp h
    rw [run_cons, ih hl, write_bit]
    exact if_neg hx

/-- All that counts of the registers are the bits that no write covers. -/
theorem writes_agree {t : Regs w}
    (h : ∀ a i, i < w → (r a).getLsbD i = (t a).getLsbD i ∨ ∃ x ∈ l, x.Covers a i) :
    run write r l = run write t l := by
  induction l generalizing r t with
  | nil =>
    apply regs_ext
    intro a i hi
    rcases h a i hi with hsame | ⟨x, hx, -⟩
    · exact hsame
    · cases hx
  | cons x l ih =>
    refine ih fun a i hi => ?_
    by_cases hx : x.Covers a i
    · left
      rw [write_bit, write_bit]
      exact (if_pos hx).trans (if_pos hx).symm
    · rcases h a i hi with hsame | ⟨y, hy, hcovers⟩
      · left
        rw [write_bit, write_bit]
        exact (if_neg hx).trans (hsame.trans (if_neg hx).symm)
      · rcases List.mem_cons.mp hy with rfl | hy
        · exact absurd hcovers hx
        · exact .inr ⟨y, hy, hcovers⟩

/-- A list of writes that is made again changes nothing. -/
theorem writes_again (r : Regs w) (l : List (Write w)) : run write (run write r l) l = run write r l := by
  refine writes_agree fun a i _ => ?_
  by_cases h : ∃ x ∈ l, x.Covers a i
  · exact .inr h
  · exact .inl (writes_outside fun x hx hcovers => h ⟨x, hx, hcovers⟩)

/-- The order does not count when any two of the writes are the same or apart. -/
theorem writes_perm (h : l.Perm l') (hapart : ∀ x ∈ l, ∀ y ∈ l, x = y ∨ x.place.Apart y.place) :
    run write r l = run write r l' := by
  refine h.foldl_eq' (fun x hx y hy r => ?_) r
  rcases hapart x hx y hy with rfl | hxy
  · rfl
  · exact write_comm hxy

end

end writes
