-- The table of PTY devices: a list in memory, a counter that is the number of the
-- next device as well, and the descriptors of the sockets.
import Gwdonu.Lib.Chain
import Gwdonu.Lib.Runs
import Mathlib.Data.List.Nodup
import Mathlib.Data.List.Perm.Subperm
import Mathlib.Data.List.Range

namespace gwdonu.pty

open Function runs chain

/-! ## The program -/

def NAME_LEN : Nat := 8

/-- The two ends of a device, each with a socket. -/
inductive End where
  | master
  | slave
  deriving DecidableEq

structure Pty where
  name : List UInt8
  pty_num : Int
  fd_master : Int
  fd_slave : Int
  next : Option Nat
  deriving DecidableEq

def Pty.fd (dev : Pty) : End → Int
  | .master => dev.fd_master
  | .slave => dev.fd_slave

def Pty.setFd (dev : Pty) (fd : Int) : End → Pty
  | .master => { dev with fd_master := fd }
  | .slave => { dev with fd_slave := fd }

/-- The port that `OpenMasterDev` or `OpenSlaveDev` binds. -/
def sin_port (pty_num : Int) : End → Int
  | .master => 7000 + 2 * pty_num
  | .slave => 7000 + 2 * pty_num + 1

/-- Who opened a descriptor of the process: a device for one of its ends, or another part. -/
inductive Descriptor where
  | socket (dev : Nat) (port : Int)
  | other
  deriving DecidableEq

/-- The devices that are allocated, by their addresses, none of which is given twice. -/
structure Table where
  cell : Nat → Option Pty
  brk : Nat
  head_pty : Option Nat
  pty_maxnum : Int
  fds : Int → Option Descriptor

def Table.init (fds : Int → Option Descriptor) : Table := ⟨fun _ => none, 0, none, 0, fds⟩

/-- What is in a block that `malloc` gives. -/
structure Block where
  fd_master : Int
  fd_slave : Int

namespace Table

variable (t : Table)

/-- What a device names, if it is allocated. -/
def next (p : Nat) : Option (Option Nat) := (t.cell p).map Pty.next

/-- A walk that takes more turns than there are devices does not end. -/
def fuel : Nat := t.brk + 1

/-- `while(NULL != p1->next) p1 = p1->next`. `none` when it reads a device that is
not allocated, or does not end. -/
def last : Nat → Nat → Option Nat
  | 0, _ => none
  | fuel + 1, p1 => do
    let dev ← t.cell p1
    match dev.next with
    | none => some p1
    | some next => last fuel next

/-- A new device with the next number. -/
def alloc (name : List UInt8) (block : Block) : Table :=
  { t with
    cell := update t.cell t.brk
      (some ⟨name.take (NAME_LEN - 1), t.pty_maxnum, block.fd_master, block.fd_slave, none⟩)
    brk := t.brk + 1
    pty_maxnum := t.pty_maxnum + 1 }

/-- The number that is returned is the one of the new device, or -1. -/
def CreatePty (name : List UInt8) (malloc : Option Block) : Option (Table × Int) :=
  match t.head_pty with
  | none =>
    match malloc with
    | none => some (t, -1)
    | some block => some ({ t.alloc name block with head_pty := some t.brk }, t.pty_maxnum)
  | some head =>
    if t.pty_maxnum > 8 then some (t, -1)
    else do
      let p1 ← t.last t.fuel head
      match malloc with
      | none => some (t, -1)
      | some block => do
        let m := t.alloc name block
        let dev ← m.cell p1
        some ({ m with cell := update m.cell p1 (some { dev with next := some t.brk }) },
          t.pty_maxnum)

/-- The `while` that looks for a number, with the device before the one it is at. -/
def find (pty_num : Int) : Nat → Nat → Nat → Option (Option (Nat × Nat))
  | 0, _, _ => none
  | fuel + 1, p, pty_dev => do
    let dev ← t.cell pty_dev
    if dev.pty_num = pty_num then some (some (p, pty_dev))
    else
      match dev.next with
      | none => some none
      | some next => find pty_num fuel pty_dev next

/-- `OpenMasterDev` and `OpenSlaveDev`: what `socket` returns, no descriptor that is
open, and whether `bind` succeeds. -/
def openDev (side : End) (pty_num : Int) (socket : Int) (bind : Bool) : Option (Table × Int) :=
  match t.head_pty with
  | none => some (t, -1)
  | some head =>
    if pty_num < 0 then some (t, -1)
    else do
      match ← t.find pty_num t.fuel head head with
      | none => some (t, -1)
      | some (_, p) => do
        let dev ← t.cell p
        if socket < 0 ∨ t.fds socket ≠ none then
          some ({ t with cell := update t.cell p (some (dev.setFd (-1) side)) }, -1)
        else
          let t := { t with cell := update t.cell p (some (dev.setFd socket side)) }
          -- a socket without a port is closed again, but stays in the device
          if bind then
            some ({ t with
              fds := update t.fds socket (some (.socket p (sin_port dev.pty_num side))) }, socket)
          else some (t, -1)

def OpenMasterDev : Int → Int → Bool → Option (Table × Int) := t.openDev .master
def OpenSlaveDev : Int → Int → Bool → Option (Table × Int) := t.openDev .slave

/-- The `while` of `CloseMasterDev` and of `CloseSlaveDev`. -/
def closeLoop (side : End) (fd : Int) : Table → Nat → Option Nat → Option Table
  | _, 0, _ => none
  | t, _ + 1, none => some t
  | t, fuel + 1, some p => do
    let dev ← t.cell p
    let t :=
      if dev.fd side = fd then
        { t with cell := update t.cell p (some (dev.setFd 0 side)), fds := update t.fds fd none }
      else t
    closeLoop side fd t fuel dev.next

def closeDev (side : End) (fd : Int) : Option Table :=
  if fd ≤ 0 then some t else closeLoop side fd t t.fuel t.head_pty

def CloseMasterDev : Int → Option Table := t.closeDev .master
def CloseSlaveDev : Int → Option Table := t.closeDev .slave

/-- `p->next = next`. -/
def relink (p : Nat) (dev : Pty) (next : Option Nat) : Table :=
  { t with cell := update t.cell p (some { dev with next }) }

/-- `pty_maxnum--; free(pty_dev)`. -/
def drop (pty_dev : Nat) : Table :=
  { t with pty_maxnum := t.pty_maxnum - 1, cell := update t.cell pty_dev none }

/-- What `DeletePty` does with the device that it finds, and with the one before it. -/
def unlink (p pty_dev : Nat) : Option Table := do
  let dev ← t.cell pty_dev
  let pre ← t.cell p
  let t := t.relink p pre dev.next
  let pre ← t.cell p
  let t ← t.CloseMasterDev pre.fd_master
  let pre ← t.cell p
  let t ← t.CloseSlaveDev pre.fd_slave
  some (t.drop pty_dev)

def DeletePty (pty_num : Int) : Option Table :=
  match t.head_pty with
  | none => some t
  | some head =>
    if pty_num < 0 then some t
    else do
      match ← t.find pty_num t.fuel head head with
      | none => some t
      | some (p, pty_dev) => t.unlink p pty_dev

end Table

inductive Event where
  | create (name : List UInt8) (malloc : Option Block)
  | open_end (side : End) (pty_num socket : Int) (bind : Bool)
  | close_end (side : End) (fd : Int)
  | delete (pty_num : Int)

def Table.call (t : Table) : Event → Option Table
  | .create name malloc => (t.CreatePty name malloc).map Prod.fst
  | .open_end .master pty_num socket bind => (t.OpenMasterDev pty_num socket bind).map Prod.fst
  | .open_end .slave pty_num socket bind => (t.OpenSlaveDev pty_num socket bind).map Prod.fst
  | .close_end .master fd => t.CloseMasterDev fd
  | .close_end .slave fd => t.CloseSlaveDev fd
  | .delete pty_num => t.DeletePty pty_num

/-- `none` once memory was read that is not allocated. -/
def step (t : Option Table) (e : Event) : Option Table := t.bind (·.call e)

/-! ## The table as it should be -/

namespace Table

/-- The device has the number. -/
def At (t : Table) (pty_num : Int) (a : Nat) : Prop := ∃ dev, t.cell a = some dev ∧ dev.pty_num = pty_num

/-- The descriptor is open, and for an end of the device. -/
def Owns (t : Table) (a : Nat) (fd : Int) : Prop := ∃ port, t.fds fd = some (.socket a port)

/-- The list holds the devices that are allocated. -/
structure Lists (t : Table) (l : List Nat) : Prop where
  seg : Seg t.next t.head_pty l none
  live : ∀ a, a ∈ l ↔ (t.cell a).isSome

/-- No number is used twice, and so no port. -/
def Distinct (t : Table) : Prop :=
  ∀ a b x y, t.cell a = some x → t.cell b = some y → a ≠ b →
    x.pty_num ≠ y.pty_num ∧ ∀ i j, sin_port x.pty_num i ≠ sin_port y.pty_num j

structure Intact (t : Table) : Prop where
  list : ∃ l, t.Lists l ∧ l.length ≤ 8
  distinct : t.Distinct

/-- One device more, with the number that is returned, or none. -/
structure Created (t t' : Table) (pty_num : Int) : Prop where
  device : pty_num = -1 ∧ t'.cell = t.cell ∨
    ∃ a, t.cell a = none ∧ t'.At pty_num a ∧
      ∀ b, b ≠ a → (t'.cell b).map Pty.pty_num = (t.cell b).map Pty.pty_num
  fds : t'.fds = t.fds

/-- The device with the number is gone with its descriptors, and no other. -/
structure Removed (t t' : Table) (pty_num : Int) : Prop where
  gone : ∀ a, t.At pty_num a → t'.cell a = none
  kept : ∀ a dev, t.cell a = some dev → dev.pty_num ≠ pty_num → ∃ dev', t'.cell a = some dev' ∧
    dev'.name = dev.name ∧ dev'.pty_num = dev.pty_num ∧
    ∀ side, t.Owns a (dev.fd side) → dev'.fd side = dev.fd side
  none_new : ∀ a, t.cell a = none → t'.cell a = none
  closed : ∀ a fd, t.At pty_num a → t.Owns a fd → t'.fds fd = none
  others_open : ∀ fd, (∀ a, t.At pty_num a → ¬ t.Owns a fd) → t'.fds fd = t.fds fd

/-- A call that does what it should, in a table that stays as it should be. -/
def Right (t : Table) (e : Event) : Prop :=
  ∃ t', t.call e = some t' ∧ t'.Intact ∧
    match e with
    | .create name malloc => ∃ r, t.CreatePty name malloc = some (t', r) ∧ t.Created t' r
    | .delete pty_num => t.Removed t' pty_num
    | _ => True

/-- The descriptors that `DeletePty` closes: those that the device in front of the
one that goes has. -/
def Closes (t : Table) (p : Nat) (fd : Int) : Prop :=
  0 < fd ∧ t.fds fd ≠ none ∧ ∃ pre, t.cell p = some pre ∧ (fd = pre.fd_master ∨ fd = pre.fd_slave)

/-- The condition of a call: the number of a new device is not used, and a device
that goes has another one in front of it, which has the same descriptors. -/
def Sound (t : Table) : Event → Prop
  | .create _ (some _) => t.pty_maxnum ≤ 7 ∧ ∀ a, ¬ t.At t.pty_maxnum a
  | .delete pty_num => ∀ a, t.At pty_num a →
    t.head_pty ≠ some a ∧ ∀ p, t.next p = some (some a) → ∀ fd, t.Closes p fd ↔ t.Owns a fd
  | _ => True

/-- What the calls keep. -/
structure Counted (t : Table) (l : List Nat) : Prop where
  lists : t.Lists l
  length : l.length ≤ 8
  distinct : t.Distinct
  number : ∀ a pty_num, t.At pty_num a → 0 ≤ pty_num
  count : t.pty_maxnum = l.length
  fresh : ∀ a ∈ l, a < t.brk

end Table

section
variable {t t' : Table} {l pre post : List Nat} {a b p : Nat} {n fd : Int} {side : End} {dev : Pty}
  {fuel : Nat}

open Table

theorem sin_port_distinct {m : Int} (h : n ≠ m) (i j : End) : sin_port n i ≠ sin_port m j := by
  unfold sin_port
  cases i <;> cases j <;> dsimp only <;> omega

theorem Table.Counted.intact (h : t.Counted l) : t.Intact := ⟨⟨l, h.lists, h.length⟩, h.distinct⟩

theorem init_counted (fds : Int → Option Descriptor) : (Table.init fds).Counted [] := by
  refine ⟨⟨rfl, ?_⟩, by decide, ?_, ?_, rfl, ?_⟩
  · simp [Table.init]
  · rintro a b x y hx
    cases hx
  · rintro a n ⟨dev, hdev, -⟩
    cases hdev
  · simp

/-- The walks have turns enough. -/
theorem Table.Counted.enough (h : t.Counted l) : l.length < t.fuel := by
  have hsub : l ⊆ List.range t.brk := fun a ha => List.mem_range.mpr (h.fresh a ha)
  have hlength := (h.lists.seg.nodup.subperm hsub).length_le
  rw [List.length_range] at hlength
  exact Nat.lt_succ_of_le hlength

theorem next_cell (h : t.cell a = some dev) : t.next a = some dev.next := by
  simp [Table.next, h]

theorem cell_of_next {m : Option Nat} (h : t.next a = some m) : ∃ dev, t.cell a = some dev ∧ dev.next = m :=
  Option.map_eq_some_iff.mp h

/-! ## What keeps the list -/

/-- All but the descriptors of a device. -/
def Pty.core (dev : Pty) : List UInt8 × Int × Option Nat := (dev.name, dev.pty_num, dev.next)

@[simp] theorem setFd_core (dev : Pty) (fd : Int) (side : End) : (dev.setFd fd side).core = dev.core := by
  cases side <;> rfl

/-- The tables differ in descriptors only. -/
structure Same (t t' : Table) : Prop where
  core : ∀ a, (t'.cell a).map Pty.core = (t.cell a).map Pty.core
  brk : t'.brk = t.brk
  head_pty : t'.head_pty = t.head_pty
  pty_maxnum : t'.pty_maxnum = t.pty_maxnum

theorem Same.refl (t : Table) : Same t t := ⟨fun _ => rfl, rfl, rfl, rfl⟩

theorem Same.trans {u : Table} (h : Same t t') (h' : Same t' u) : Same t u :=
  ⟨fun a => (h'.core a).trans (h.core a), h'.brk.trans h.brk, h'.head_pty.trans h.head_pty,
    h'.pty_maxnum.trans h.pty_maxnum⟩

theorem Same.symm (h : Same t t') : Same t' t :=
  ⟨fun a => (h.core a).symm, h.brk.symm, h.head_pty.symm, h.pty_maxnum.symm⟩

/-- The descriptors of one device, and the open ones, are changed. -/
theorem same_write (h : t.cell a = some dev) (fd : Int) (fds : Int → Option Descriptor) :
    Same t { t with cell := update t.cell a (some (dev.setFd fd side)), fds := fds } := by
  refine ⟨fun b => ?_, rfl, rfl, rfl⟩
  by_cases hb : b = a
  · simp [hb, h]
  · simp [hb]

theorem Same.cell (h : Same t t') (ha : t.cell a = some dev) :
    ∃ dev', t'.cell a = some dev' ∧ dev'.core = dev.core := by
  have hcore := h.core a
  rw [ha, Option.map_some] at hcore
  exact Option.map_eq_some_iff.mp hcore

theorem Same.next (h : Same t t') : t'.next = t.next := by
  funext a
  have hcore := congrArg (Option.map fun core => core.2.2) (h.core a)
  simpa [Table.next, Option.map_map, Function.comp_def, Pty.core] using hcore

theorem Same.at_iff (h : Same t t') : t'.At n a ↔ t.At n a := by
  have himp {u u' : Table} (h : Same u u') : u.At n a → u'.At n a := by
    rintro ⟨dev, hdev, rfl⟩
    obtain ⟨dev', hdev', hcore⟩ := h.cell hdev
    exact ⟨dev', hdev', congrArg (fun core => core.2.1) hcore⟩
  exact ⟨himp h.symm, himp h⟩

theorem Same.lists (h : Same t t') (hl : t.Lists l) : t'.Lists l := by
  refine ⟨?_, fun a => ?_⟩
  · rw [h.next, h.head_pty]
    exact hl.seg
  · rw [hl.live, ← Option.isSome_map (f := Pty.core), ← h.core, Option.isSome_map]

theorem Same.distinct (h : Same t t') (hd : t.Distinct) : t'.Distinct := by
  intro a b x y hx hy hab
  obtain ⟨u, hu, hux⟩ := h.symm.cell hx
  obtain ⟨v, hv, hvy⟩ := h.symm.cell hy
  have hxnum : u.pty_num = x.pty_num := congrArg (fun core => core.2.1) hux
  have hynum : v.pty_num = y.pty_num := congrArg (fun core => core.2.1) hvy
  rw [← hxnum, ← hynum]
  exact hd a b u v hu hv hab

theorem Same.counted (h : Same t t') (hc : t.Counted l) : t'.Counted l := by
  refine ⟨h.lists hc.lists, hc.length, h.distinct hc.distinct, ?_, ?_, ?_⟩
  · exact fun a n hn => hc.number a n (h.at_iff.mp hn)
  · rw [h.pty_maxnum, hc.count]
  · rw [h.brk]
    exact hc.fresh

/-! ## The walks -/

theorem last_eq (hseg : Seg t.next (some p) (l ++ [a]) none) (hfuel : l.length < fuel) :
    t.last fuel p = some a := by
  induction l generalizing p fuel with
  | nil =>
    obtain ⟨hp, n, hn, hend⟩ := hseg
    cases hp
    obtain ⟨dev, hdev, rfl⟩ := cell_of_next hn
    cases fuel with
    | zero => cases hfuel
    | succ fuel =>
      unfold Table.last
      rw [seg_nil] at hend
      simp [hdev, hend]
  | cons b l ih =>
    obtain ⟨hp, n, hn, hrest⟩ := hseg
    cases hp
    obtain ⟨dev, hdev, rfl⟩ := cell_of_next hn
    cases fuel with
    | zero => cases hfuel
    | succ fuel =>
      obtain ⟨q, hq⟩ : ∃ q, dev.next = some q := by
        cases l with
        | nil => exact ⟨a, hrest.1⟩
        | cons c l => exact ⟨c, hrest.1⟩
      rw [hq] at hrest
      unfold Table.last
      simp [hdev, hq, ih hrest (Nat.lt_of_succ_lt_succ hfuel)]

/-- A number that no device of the list has. -/
theorem find_none (hseg : Seg t.next (some a) l none) (hnot : ∀ b ∈ l, ¬ t.At n b)
    (hfuel : l.length < fuel) : t.find n fuel p a = some none := by
  induction l generalizing p a fuel with
  | nil => cases hseg
  | cons b l ih =>
    obtain ⟨hb, m, hm, hrest⟩ := hseg
    cases hb
    obtain ⟨dev, hdev, rfl⟩ := cell_of_next hm
    cases fuel with
    | zero => cases hfuel
    | succ fuel =>
      have hne : dev.pty_num ≠ n := fun hn => hnot b List.mem_cons_self ⟨dev, hdev, hn⟩
      unfold Table.find
      cases hnext : dev.next with
      | none => simp [hdev, hne, hnext]
      | some q =>
        rw [hnext] at hrest
        simp [hdev, hne, hnext,
          ih hrest (fun c hc => hnot c (List.mem_cons_of_mem b hc)) (Nat.lt_of_succ_lt_succ hfuel)]

/-- The device with the number, and the last one before it. -/
theorem find_some {c : Nat} (hseg : Seg t.next (some c) (pre ++ a :: post) none) (ha : t.At n a)
    (hnot : ∀ b ∈ pre, ¬ t.At n b) (hfuel : pre.length < fuel) :
    t.find n fuel p c = some (some (pre.getLast?.getD p, a)) := by
  induction pre generalizing p c fuel with
  | nil =>
    obtain ⟨hc, -⟩ := hseg
    cases hc
    obtain ⟨dev, hdev, hn⟩ := ha
    cases fuel with
    | zero => cases hfuel
    | succ fuel =>
      unfold Table.find
      simp [hdev, hn]
  | cons b pre ih =>
    obtain ⟨hc, m, hm, hrest⟩ := hseg
    cases hc
    obtain ⟨dev, hdev, rfl⟩ := cell_of_next hm
    cases fuel with
    | zero => cases hfuel
    | succ fuel =>
      have hne : dev.pty_num ≠ n := fun hn => hnot b List.mem_cons_self ⟨dev, hdev, hn⟩
      obtain ⟨q, hq⟩ : ∃ q, dev.next = some q := by
        cases pre with
        | nil => exact ⟨a, hrest.1⟩
        | cons x pre => exact ⟨x, hrest.1⟩
      rw [hq] at hrest
      unfold Table.find
      simp only [hdev, Option.bind_eq_bind, Option.bind_some, hne, if_false, hq]
      rw [ih hrest (fun x hx => hnot x (List.mem_cons_of_mem b hx)) (Nat.lt_of_succ_lt_succ hfuel),
        List.getLast?_cons]
      cases pre.getLast? with
      | none => rfl
      | some x => rfl

/-! ## The descriptors -/

/-- What closing a descriptor does: it is open or not, and no other one changes. -/
structure Closed (side : End) (fd : Int) (t t' : Table) : Prop where
  same : Same t t'
  fds : t'.fds = t.fds ∨ t'.fds = update t.fds fd none
  cell : ∀ a dev, t.cell a = some dev → ∃ dev', t'.cell a = some dev' ∧ dev'.core = dev.core ∧
    ∀ i, dev'.fd i = dev.fd i ∨ dev.fd i = fd ∧ i = side ∧ 0 < fd

theorem Closed.refl (side : End) (fd : Int) (t : Table) : Closed side fd t t :=
  ⟨.refl t, .inl rfl, fun _ dev hdev => ⟨dev, hdev, rfl, fun _ => .inl rfl⟩⟩

theorem Closed.trans {u : Table} (h : Closed side fd t t') (h' : Closed side fd t' u) :
    Closed side fd t u := by
  refine ⟨h.same.trans h'.same, ?_, ?_⟩
  · rcases h'.fds with hu | hu
    · rw [hu]
      exact h.fds
    · rw [hu]
      rcases h.fds with ht | ht
      · exact .inr (by rw [ht])
      · exact .inr (by rw [ht, update_idem])
  · intro a dev hdev
    obtain ⟨dev', hdev', hcore', hfd'⟩ := h.cell a dev hdev
    obtain ⟨dev'', hdev'', hcore'', hfd''⟩ := h'.cell a dev' hdev'
    refine ⟨dev'', hdev'', hcore''.trans hcore', fun i => ?_⟩
    rcases hfd' i with hi | hi
    · rw [← hi]
      exact hfd'' i
    · exact .inr hi

/-- One turn: the device gives up the descriptor. -/
theorem clear_closed (h : t.cell a = some dev) (hfd : dev.fd side = fd) (hpos : 0 < fd) : Closed side fd t
    { t with cell := update t.cell a (some (dev.setFd 0 side)), fds := update t.fds fd none } := by
  refine ⟨same_write h 0 _, .inr rfl, ?_⟩
  intro b x hx
  dsimp only
  by_cases hb : b = a
  · subst hb
    obtain rfl : x = dev := Option.some.inj (hx.symm.trans h)
    refine ⟨x.setFd 0 side, update_self .., setFd_core x 0 side, fun i => ?_⟩
    by_cases hi : i = side
    · exact .inr ⟨hi ▸ hfd, hi, hpos⟩
    · left
      cases i <;> cases side <;> first | rfl | exact absurd rfl hi
  · exact ⟨x, by rw [update_of_ne hb, hx], rfl, fun _ => .inl rfl⟩

/-- The loop over the devices that are left. -/
theorem closeLoop_eq {q : Option Nat} (hseg : Seg t.next q l none) (hfuel : l.length < fuel) (hpos : 0 < fd) :
    ∃ t', closeLoop side fd t fuel q = some t' ∧ Closed side fd t t' ∧
      (∀ a dev, a ∈ l → t.cell a = some dev → dev.fd side = fd → t'.fds = update t.fds fd none) := by
  induction l generalizing t q fuel with
  | nil =>
    obtain rfl : q = none := hseg
    cases fuel with
    | zero => cases hfuel
    | succ fuel => exact ⟨t, rfl, .refl side fd t, by simp⟩
  | cons b l ih =>
    obtain ⟨rfl, m, hm, hrest⟩ := hseg
    obtain ⟨dev, hdev, rfl⟩ := cell_of_next hm
    cases fuel with
    | zero => cases hfuel
    | succ fuel =>
      have hlt := Nat.lt_of_succ_lt_succ hfuel
      unfold closeLoop
      simp only [hdev, Option.bind_eq_bind, Option.bind_some]
      by_cases hfd : dev.fd side = fd
      · have hclear := clear_closed hdev hfd hpos
        rw [if_pos hfd]
        rw [← hclear.same.next] at hrest
        obtain ⟨t', ht', hclosed, -⟩ := ih hrest hlt
        refine ⟨t', ht', hclear.trans hclosed, fun _ _ _ _ _ => ?_⟩
        rcases hclosed.fds with heq | heq
        · rw [heq]
        · rw [heq]
          exact update_idem ..
      · rw [if_neg hfd]
        obtain ⟨t', ht', hclosed, hall⟩ := ih hrest hlt
        refine ⟨t', ht', hclosed, ?_⟩
        intro a x ha hx hxfd
        rcases List.mem_cons.mp ha with rfl | ha
        · obtain rfl := Option.some.inj (hx.symm.trans hdev)
          exact absurd hxfd hfd
        · exact hall a x ha hx hxfd

/-- A close of a descriptor, in a table whose list is intact. -/
theorem closeDev_eq (hseg : Seg t.next t.head_pty l none) (hfuel : l.length < t.fuel) (side : End) (fd : Int) :
    ∃ t', t.closeDev side fd = some t' ∧ Closed side fd t t' := by
  unfold Table.closeDev
  split
  · exact ⟨t, rfl, .refl side fd t⟩
  · rename_i hpos
    obtain ⟨t', ht', hclosed, -⟩ := closeLoop_eq hseg hfuel (Int.not_le.mp hpos)
    exact ⟨t', ht', hclosed⟩

/-- The descriptor of a device of the list is closed. -/
theorem closeDev_own (hseg : Seg t.next t.head_pty l none) (hfuel : l.length < t.fuel) (ha : a ∈ l)
    (hdev : t.cell a = some dev) (side : End) :
    ∃ t', t.closeDev side (dev.fd side) = some t' ∧ Closed side (dev.fd side) t t' ∧
      ∀ f, t'.fds f = if 0 < f ∧ f = dev.fd side then none else t.fds f := by
  unfold Table.closeDev
  split
  · rename_i hle
    refine ⟨t, rfl, .refl _ _ t, fun f => ?_⟩
    rw [if_neg]
    rintro ⟨hpos, rfl⟩
    omega
  · rename_i hpos
    obtain ⟨t', ht', hclosed, hall⟩ := closeLoop_eq hseg hfuel (Int.not_le.mp hpos)
    refine ⟨t', ht', hclosed, fun f => ?_⟩
    rw [hall a dev ha hdev rfl]
    by_cases hf : f = dev.fd side
    · rw [if_pos ⟨by omega, hf⟩, hf, update_self]
    · rw [if_neg fun h => hf h.2, update_of_ne hf]

theorem fd_master_eq (dev : Pty) : dev.fd_master = dev.fd .master := rfl

theorem fd_slave_eq (dev : Pty) : dev.fd_slave = dev.fd .slave := rfl

/-- What is left when both descriptors of a device were closed. -/
structure Emptied (x : Pty) (t t' : Table) : Prop where
  same : Same t t'
  fds : ∀ f, t'.fds f = if 0 < f ∧ (f = x.fd_master ∨ f = x.fd_slave) then none else t.fds f
  cell : ∀ a dev, t.cell a = some dev → ∃ dev', t'.cell a = some dev' ∧ dev'.core = dev.core ∧
    ∀ i, dev'.fd i = dev.fd i ∨ 0 < dev.fd i ∧ (dev.fd i = x.fd_master ∨ dev.fd i = x.fd_slave)

theorem close_both (hseg : Seg t.next t.head_pty l none) (hfuel : l.length < t.fuel) (hp : p ∈ l)
    {x : Pty} (hx : t.cell p = some x) :
    ∃ t₁ y t₂, t.CloseMasterDev x.fd_master = some t₁ ∧ t₁.cell p = some y ∧
      t₁.CloseSlaveDev y.fd_slave = some t₂ ∧ Emptied x t t₂ := by
  obtain ⟨t₁, ht₁, hmaster, hfds₁⟩ := closeDev_own hseg hfuel hp hx .master
  obtain ⟨y, hy, -, hyfd⟩ := hmaster.cell p x hx
  have hslave : y.fd_slave = x.fd_slave := (hyfd .slave).resolve_right fun h => nomatch h.2
  have hseg₁ : Seg t₁.next t₁.head_pty l none := by
    rw [hmaster.same.next, hmaster.same.head_pty]
    exact hseg
  have hfuel₁ : l.length < t₁.fuel := by
    unfold Table.fuel
    rw [hmaster.same.brk]
    exact hfuel
  obtain ⟨t₂, ht₂, hclosed, hfds₂⟩ := closeDev_own hseg₁ hfuel₁ hp hy .slave
  refine ⟨t₁, y, t₂, ht₁, hy, ht₂, hmaster.same.trans hclosed.same, fun f => ?_, ?_⟩
  · rw [hfds₂, hfds₁, ← fd_slave_eq, ← fd_master_eq, hslave]
    split_ifs <;> first | rfl | (exfalso; tauto)
  · intro a dev hdev
    obtain ⟨dev', hdev', hcore', hfd'⟩ := hmaster.cell a dev hdev
    obtain ⟨dev'', hdev'', hcore'', hfd''⟩ := hclosed.cell a dev' hdev'
    refine ⟨dev'', hdev'', hcore''.trans hcore', fun i => ?_⟩
    rcases hfd' i with hi | ⟨hi, -, hpos⟩
    · rcases hfd'' i with hi' | ⟨hi', -, hpos⟩
      · exact .inl (hi'.trans hi)
      · have heq := hi.symm.trans hi'
        exact .inr ⟨heq ▸ hpos, .inr (heq.trans hslave)⟩
    · exact .inr ⟨hi ▸ hpos, .inl hi⟩

/-! ## Looking for a device -/

theorem at_unique (h : t.Counted l) (ha : t.At n a) (hb : t.At n b) : a = b := by
  obtain ⟨x, hx, hxn⟩ := ha
  obtain ⟨y, hy, hyn⟩ := hb
  by_contra hne
  exact (h.distinct a b x y hx hy hne).1 (hxn.trans hyn.symm)

theorem at_mem (h : t.Counted l) (ha : t.At n a) : a ∈ l := by
  obtain ⟨x, hx, -⟩ := ha
  rw [h.lists.live, hx]
  rfl

/-- The walk from the head finds the device with the number, if there is one. -/
theorem find_eq (h : t.Counted l) {head : Nat} (hhead : t.head_pty = some head) (n : Int) :
    (t.find n t.fuel head head = some none ∧ ∀ a, ¬ t.At n a) ∨
    ∃ pre a post, l = pre ++ a :: post ∧ t.At n a ∧
      t.find n t.fuel head head = some (some (pre.getLast?.getD head, a)) := by
  have hseg := h.lists.seg
  rw [hhead] at hseg
  by_cases hex : ∃ a, t.At n a
  · obtain ⟨a, ha⟩ := hex
    obtain ⟨pre, post, rfl⟩ := List.append_of_mem (at_mem h ha)
    refine .inr ⟨pre, a, post, rfl, ha, find_some hseg ha ?_ ?_⟩
    · intro b hb hbn
      obtain rfl := at_unique h ha hbn
      have hnodup := h.lists.seg.nodup
      exact (List.nodup_append.mp hnodup).2.2 a hb a List.mem_cons_self rfl
    · have := h.enough
      rw [List.length_append] at this
      omega
  · have hnone (a : Nat) : ¬ t.At n a := fun ha => hex ⟨a, ha⟩
    exact .inl ⟨find_none hseg (fun b _ => hnone b) h.enough, hnone⟩

/-- Opening an end changes descriptors only. -/
theorem openDev_same (h : t.Counted l) (side : End) (n socket : Int) (bind : Bool) :
    ∃ t' r, t.openDev side n socket bind = some (t', r) ∧ Same t t' := by
  unfold Table.openDev
  split
  · exact ⟨t, -1, rfl, .refl t⟩
  · rename_i head hhead
    by_cases hn : n < 0
    · rw [if_pos hn]
      exact ⟨t, -1, rfl, .refl t⟩
    · rw [if_neg hn]
      rcases find_eq h hhead n with ⟨hfind, -⟩ | ⟨pre, a, post, -, ⟨dev, hdev, -⟩, hfind⟩
      · rw [hfind]
        exact ⟨t, -1, rfl, .refl t⟩
      · rw [hfind]
        simp only [Option.bind_eq_bind, Option.bind_some, hdev]
        by_cases hsocket : socket < 0 ∨ t.fds socket ≠ none
        · rw [if_pos hsocket]
          exact ⟨_, _, rfl, same_write hdev _ _⟩
        · rw [if_neg hsocket]
          cases bind with
          | false => exact ⟨_, _, rfl, same_write hdev _ _⟩
          | true => exact ⟨_, _, rfl, same_write hdev _ _⟩

end

end gwdonu.pty
