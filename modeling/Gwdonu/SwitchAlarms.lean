-- The alarms about the switches wait in a doubly linked list until the ONU can send them:
-- they are pushed at its top and sent from its bottom.
import Gwdonu.Lib.Linked
import Gwdonu.Lib.Runs
import Gwdonu.Rcp

namespace gwdonu.switch_alarms

open Function linked runs
open rcp (RCP_RET MAX_RRCP_SWITCH_TO_MANAGE)

/-! ## The program -/

def ONU_SWITCH_STATUS_CHANGE_ALARM : UInt8 := 80
def ONU_SWITCH_STATUS_CHANGE_ALARM_LEN : UInt16 := 14

structure ALARM_FIFO_ENTRY where
  MsgBody : Option (List UInt8)
  MsgLen : UInt16
  pNext : Option Nat
  pPrevious : Option Nat
  deriving DecidableEq

structure ALARM_FIFO where
  top : Option Nat
  bottom : Option Nat
  occupancy : UInt16
  lengthLimitMax : UInt16
  deriving DecidableEq

/-- The entries by their address. The last two fields are not the program's: the messages
that were accepted, and those that were handed to `CommOnuMsgSend`, with its success. -/
structure State where
  heap : Nat → Option ALARM_FIFO_ENTRY
  gpstAlmFifo : Option ALARM_FIFO
  accepted : List (List UInt8)
  handed : List (List UInt8 × Bool)

/-- What `RCP_Init` makes of the list, if it can allocate it. -/
def RCP_Init (mal : Bool) : State where
  heap _ := none
  gpstAlmFifo := if mal then some ⟨none, none, 0, (MAX_RRCP_SWITCH_TO_MANAGE * 2).toUInt16⟩ else none
  accepted := []
  handed := []

/-- `malloc` gives any address that is not in use, or none. -/
def State.malloc (s : State) (mal : Option Nat) : Option Nat := mal.filter fun p => (s.heap p).isNone

abbrev Heap := Nat → Option ALARM_FIFO_ENTRY

/-- Writes to the entry at `p`, if it is one. -/
def write (heap : Heap) (p : Option Nat) (f : ALARM_FIFO_ENTRY → ALARM_FIFO_ENTRY) : Heap :=
  match p with
  | none => heap
  | some p => update heap p ((heap p).map f)

def alarm (onuPort : UInt8) (switchMac : Vector UInt8 6) (msgType reason : UInt8) : List UInt8 :=
  [ONU_SWITCH_STATUS_CHANGE_ALARM, 0, 0, 1, onuPort, msgType] ++ switchMac.toList ++ [reason, 0]

/-- `mal` and `body` are what the two `malloc`s give. -/
def State.pushOneSwitchStatusChgMsg (s : State) (mal : Option Nat) (body : Bool) (onuPort : UInt8)
    (switchMac : Vector UInt8 6) (msgType reason : UInt8) : State × RCP_RET :=
  match s.gpstAlmFifo with
  | none => (s, .RCP_NOT_INITIALIZED)
  | some fifo =>
    if fifo.lengthLimitMax ≤ fifo.occupancy then (s, .RCP_NO_RESOURCE)
    else
      match s.malloc mal with
      | none => (s, .RCP_NO_MEM)
      | some pMsg =>
        -- the entry is freed again
        if body = false then (s, .RCP_NO_MEM)
        else
          let MsgBody := alarm onuPort switchMac msgType reason
          let heap := update s.heap pMsg
            (some ⟨some MsgBody, ONU_SWITCH_STATUS_CHANGE_ALARM_LEN, fifo.top, none⟩)
          ({ s with
              heap := write heap fifo.top fun e => { e with pPrevious := some pMsg }
              gpstAlmFifo := some { fifo with
                top := some pMsg
                bottom := if fifo.top = none then some pMsg else fifo.bottom
                occupancy := fifo.occupancy + 1 }
              accepted := s.accepted ++ [MsgBody] }, .RCP_OK)

/-- The bytes that are handed over. -/
def ALARM_FIFO_ENTRY.message (e : ALARM_FIFO_ENTRY) : List UInt8 := (e.MsgBody.getD []).take e.MsgLen.toNat

def State.edit (s : State) (f : ALARM_FIFO → ALARM_FIFO) : State :=
  { s with gpstAlmFifo := s.gpstAlmFifo.map f }

/-- The loop of `popAllSwitchStatusChgMsg`, from its message `i` on; `sends` says which
messages are sent. `none` when it is not at its end after `n` more, or reads what was freed. -/
def State.popLoop (sends : Nat → Bool) : Nat → Nat → State → Option Nat → Option (State × RCP_RET)
  | _, _, s, none => some (s.edit fun fifo => { fifo with top := none }, .RCP_OK)
  | 0, _, _, some _ => none
  | n + 1, i, s, some pMsg =>
    match s.heap pMsg with
    | none => none
    | some e =>
      let s := { s with handed := s.handed ++ [(e.message, sends i)] }
      if sends i = false then some (s, .RCP_FAIL)
      else
        let s := { s with heap := update (write s.heap e.pPrevious fun e => { e with pNext := none }) pMsg none }
        State.popLoop sends n (i + 1)
          (s.edit fun fifo => { fifo with bottom := e.pPrevious, occupancy := fifo.occupancy - 1 })
          e.pPrevious

/-- As many entries as there are addresses. -/
def allEntries : Nat := 2 ^ 32

def State.popAllSwitchStatusChgMsg (s : State) (sends : Nat → Bool) : Option (State × RCP_RET) :=
  match s.gpstAlmFifo with
  | none => some (s, .RCP_NOT_INITIALIZED)
  | some fifo =>
    if fifo.occupancy = 0 then some (s, .RCP_NO_MORE)
    else
      match fifo.bottom with
      | none => some (s, .RCP_NOT_FOUND)
      | some pMsg =>
        if (s.heap pMsg).any (·.MsgBody = none) then some (s, .RCP_NOT_FOUND)
        else State.popLoop sends allEntries 0 s fifo.bottom

inductive Event where
  | push (mal : Option Nat) (body : Bool) (onuPort : UInt8) (switchMac : Vector UInt8 6)
    (msgType reason : UInt8)
  | pop (sends : Nat → Bool)

def State.call (s : State) : Event → Option (State × RCP_RET)
  | .push mal body onuPort switchMac msgType reason =>
    some (s.pushOneSwitchStatusChgMsg mal body onuPort switchMac msgType reason)
  | .pop sends => s.popAllSwitchStatusChgMsg sends

/-- A call that does not end leaves nothing to go on from. -/
def State.step (s : State) (e : Event) : State := ((s.call e).map Prod.fst).getD s

/-! ## The law -/

def nextOf (s : State) : Option Nat → Option Nat
  | none => s.gpstAlmFifo.bind ALARM_FIFO.top
  | some a => (s.heap a).bind ALARM_FIFO_ENTRY.pNext

def prevOf (s : State) : Option Nat → Option Nat
  | none => s.gpstAlmFifo.bind ALARM_FIFO.bottom
  | some a => (s.heap a).bind ALARM_FIFO_ENTRY.pPrevious

def State.message (s : State) (a : Nat) : List UInt8 := (s.heap a).elim [] ALARM_FIFO_ENTRY.message

/-- The messages that were sent. -/
def State.sent (s : State) : List (List UInt8) := (s.handed.filter (·.2)).map (·.1)

/-- The messages that were accepted and not sent, the oldest first. -/
def State.waiting (s : State) : List (List UInt8) := s.accepted.drop s.sent.length

/-- From the top on each entry names the next one and the one before it. The entries are
what is allocated, and hold the messages that wait. -/
structure WellFormed (s : State) (fifo : ALARM_FIFO) (l : List Nat) : Prop where
  ring : Ring (nextOf s) (prevOf s) l
  nodup : l.Nodup
  live : ∀ a, (s.heap a).isSome = true ↔ a ∈ l
  count : fifo.occupancy.toNat = l.length
  bound : l.length ≤ fifo.lengthLimitMax.toNat
  messages : l.reverse.map s.message = s.waiting

/-- What is handed over is the message that is next: as many were sent before it as were
accepted before it. -/
def InOrder (s : State) : Prop :=
  ∀ (i : Nat) (m : List UInt8) (ok : Bool), s.handed[i]? = some (m, ok) →
    s.accepted[(s.handed.take i).countP (·.2)]? = some m

/-- The first messages that were accepted are those that were sent, each once. -/
structure Law (s : State) : Prop where
  list : ∀ fifo, s.gpstAlmFifo = some fifo → ∃ l, WellFormed s fifo l
  sent : s.sent <+: s.accepted
  order : InOrder s

/-- What a call does to the messages that wait. -/
def Moves (s t : State) (ret : RCP_RET) : Event → Prop
  | .push _ _ onuPort switchMac msgType reason =>
    if ret = .RCP_OK then
      t.waiting = s.waiting ++ [alarm onuPort switchMac msgType reason] ∧ t.handed = s.handed
    else t = s
  | .pop _ =>
    match ret with
    | .RCP_OK => t.waiting = [] ∧ t.handed = s.handed ++ s.waiting.map (·, true)
    | .RCP_FAIL => ∃ done m younger, s.waiting = done ++ m :: younger ∧ t.waiting = m :: younger ∧
        t.handed = s.handed ++ done.map (·, true) ++ [(m, false)]
    | .RCP_NOT_INITIALIZED => t = s ∧ s.gpstAlmFifo = none
    | .RCP_NO_MORE => t = s ∧ s.waiting = []
    | _ => False

/-- The call ends, and keeps the law. -/
def Keeps (s : State) (e : Event) : Prop :=
  ∃ t ret, s.call e = some (t, ret) ∧ Law t ∧ Moves s t ret e

/-! ## What is handed over -/

section
variable {s t : State} {m : List UInt8}

theorem sent_length (s : State) : s.sent.length = s.handed.countP (·.2) := by
  rw [State.sent, List.length_map, List.countP_eq_length_filter]

theorem sent_hand (s : State) (m : List UInt8) (ok : Bool) :
    State.sent { s with handed := s.handed ++ [(m, ok)] } = s.sent ++ if ok then [m] else [] := by
  cases ok <;> simp [State.sent]

/-- The message that is next is handed over. -/
theorem InOrder.hand (h : InOrder s) (hnext : s.accepted[s.sent.length]? = some m) (ok : Bool) :
    InOrder { s with handed := s.handed ++ [(m, ok)] } := by
  intro i m' ok' hi
  dsimp only at hi ⊢
  rcases Nat.lt_trichotomy i s.handed.length with hlt | rfl | hgt
  · rw [List.getElem?_append_left hlt] at hi
    rw [List.take_append_of_le_length hlt.le]
    exact h i m' ok' hi
  · simp only [List.getElem?_concat_length, Option.some.injEq, Prod.mk.injEq] at hi
    obtain ⟨rfl, rfl⟩ := hi
    rw [List.take_left, ← sent_length]
    exact hnext
  · rw [List.getElem?_eq_none (by simp; omega)] at hi
    cases hi

/-- More is accepted. -/
theorem InOrder.accept (h : InOrder s) (hhanded : t.handed = s.handed) (haccepted : s.accepted <+: t.accepted) :
    InOrder t := by
  intro i m ok hi
  rw [hhanded] at hi ⊢
  obtain ⟨more, hmore⟩ := haccepted
  have hm := h i m ok hi
  rw [← hmore, List.getElem?_append_left (List.getElem?_eq_some_iff.mp hm).1]
  exact hm

end

/-! ## The list -/

/-- What holds in the loop. The entries are `w`, the oldest first; while the loop runs, the
top may name an entry that was freed. -/
structure Holds (s : State) (fifo : ALARM_FIFO) (w : List Nat) : Prop where
  pointer : s.gpstAlmFifo = some fifo
  ring : Ring (update (nextOf s) none w.getLast?) (prevOf s) w.reverse
  nodup : w.Nodup
  live : ∀ a, (s.heap a).isSome = true ↔ a ∈ w
  body : ∀ a e, s.heap a = some e → e.MsgBody ≠ none
  count : fifo.occupancy.toNat = w.length
  bound : w.length ≤ fifo.lengthLimitMax.toNat
  books : s.accepted = s.sent ++ w.map s.message
  order : InOrder s

section
variable {s t : State} {fifo : ALARM_FIFO} {w : List Nat} {x : Nat}

theorem Holds.waiting (h : Holds s fifo w) : s.waiting = w.map s.message := by
  rw [State.waiting, h.books, List.drop_left]

theorem Holds.law (h : Holds s fifo w) (htop : fifo.top = w.getLast?) : Law s := by
  refine ⟨?_, ⟨_, h.books.symm⟩, h.order⟩
  intro fifo' hfifo
  obtain rfl := Option.some.inj (h.pointer.symm.trans hfifo)
  have hnext : nextOf s none = w.getLast? := by rw [← htop, nextOf, h.pointer, Option.bind_some]
  have hring := h.ring
  rw [← hnext, update_eq_self] at hring
  refine ⟨w.reverse, hring, List.nodup_reverse.mpr h.nodup, ?_, ?_, ?_, ?_⟩
  · intro a
    rw [List.mem_reverse]
    exact h.live a
  · rw [List.length_reverse]
    exact h.count
  · rw [List.length_reverse]
    exact h.bound
  · rw [List.reverse_reverse]
    exact h.waiting.symm

/-- The bottom is the oldest entry. -/
theorem Holds.bottom (h : Holds s fifo w) : fifo.bottom = w.head? := by
  have hheader := h.ring.header.2
  rw [List.getLast?_reverse, prevOf, h.pointer, Option.bind_some] at hheader
  exact hheader

theorem Holds.first (h : Holds s fifo (x :: w)) :
    ∃ e, s.heap x = some e ∧ e.pPrevious = w.head? ∧ e.message = s.message x := by
  obtain ⟨e, he⟩ := Option.isSome_iff_exists.mp ((h.live x).mpr List.mem_cons_self)
  refine ⟨e, he, ?_, ?_⟩
  · have hring := h.ring
    rw [List.reverse_cons] at hring
    have hprev := hring.neighbours.2
    rw [List.getLast?_reverse, prevOf, he, Option.bind_some] at hprev
    exact hprev
  · rw [State.message, he]
    rfl

/-- The message of the oldest entry is handed over. -/
theorem Holds.hand (h : Holds s fifo (x :: w)) (ok : Bool) :
    InOrder { s with handed := s.handed ++ [(s.message x, ok)] } := by
  refine h.order.hand ?_ ok
  rw [h.books, List.getElem?_append_right le_rfl]
  simp

/-! ## The loop -/

/-- What is left when an entry was sent. -/
def State.drop (s : State) (x : Nat) (e : ALARM_FIFO_ENTRY) : State :=
  { s with
    heap := update (write s.heap e.pPrevious fun e => { e with pNext := none }) x none
    handed := s.handed ++ [(e.message, true)] }.edit fun fifo =>
      { fifo with bottom := e.pPrevious, occupancy := fifo.occupancy - 1 }

variable {e : ALARM_FIFO_ENTRY}

theorem popLoop_next (sends : Nat → Bool) (n i : Nat) (he : s.heap x = some e) :
    State.popLoop sends (n + 1) i s (some x) =
      if sends i = false then some ({ s with handed := s.handed ++ [(e.message, sends i)] }, .RCP_FAIL)
      else State.popLoop sends n (i + 1) (s.drop x e) e.pPrevious := by
  rw [State.popLoop, he]
  dsimp only
  split_ifs with hsends
  · rfl
  · rw [Bool.not_eq_false] at hsends
    rw [State.drop, hsends]

theorem write_apply (heap : Heap) (p : Option Nat) (f : ALARM_FIFO_ENTRY → ALARM_FIFO_ENTRY) (a : Nat) :
    write heap p f a = if some a = p then (heap a).map f else heap a := by
  cases p with
  | none => rfl
  | some q =>
    by_cases haq : a = q
    · subst haq
      rw [if_pos rfl]
      exact update_self ..
    · rw [if_neg fun h => haq (Option.some.inj h)]
      exact update_of_ne haq _ _

theorem drop_heap (a : Nat) (ha : a ≠ x) :
    (s.drop x e).heap a =
      if some a = e.pPrevious then (s.heap a).map fun e => { e with pNext := none } else s.heap a := by
  change update (write s.heap e.pPrevious fun e => { e with pNext := none }) x none a = _
  rw [update_of_ne ha, write_apply]

theorem drop_self : (s.drop x e).heap x = none := update_self ..

theorem drop_message (a : Nat) (ha : a ≠ x) : (s.drop x e).message a = s.message a := by
  rw [State.message, State.message, drop_heap a ha]
  split_ifs
  · cases s.heap a <;> rfl
  · rfl

theorem drop_prev (a : Nat) (ha : a ≠ x) : prevOf (s.drop x e) (some a) = prevOf s (some a) := by
  change ((s.drop x e).heap a).bind _ = (s.heap a).bind _
  rw [drop_heap a ha]
  split_ifs
  · cases s.heap a <;> rfl
  · rfl

theorem drop_next (a : Nat) (ha : a ≠ x) :
    nextOf (s.drop x e) (some a) = update (nextOf s) e.pPrevious none (some a) := by
  change ((s.drop x e).heap a).bind _ = _
  rw [drop_heap a ha]
  by_cases hprev : some a = e.pPrevious
  · rw [if_pos hprev, ← hprev, update_self]
    cases s.heap a <;> rfl
  · rw [if_neg hprev, update_of_ne hprev]
    rfl

theorem Holds.drop_ring (h : Holds s fifo (x :: w)) (he : s.heap x = some e) :
    Ring (update (nextOf (s.drop x e)) none w.getLast?) (prevOf (s.drop x e)) w.reverse := by
  obtain ⟨e', he', hprevious, -⟩ := h.first
  obtain rfl := Option.some.inj (he.symm.trans he')
  have hring := h.ring
  have hnodup := List.nodup_reverse.mpr h.nodup
  rw [List.reverse_cons] at hring hnodup
  have hremoved := hring.remove hnodup
  rw [List.append_nil, List.getLast?_reverse, List.head?_nil, ← hprevious] at hremoved
  have hx : ∀ a ∈ w.reverse, a ≠ x := by
    rintro a ha rfl
    exact (List.nodup_cons.mp h.nodup).1 (List.mem_reverse.mp ha)
  refine hremoved.congr ?_ ?_ ?_
  · rw [update_self, hprevious]
    cases w with
    | nil => rfl
    | cons b w =>
      rw [List.head?_cons, update_of_ne (Option.some_ne_none b).symm, update_self, List.getLast?_cons_cons]
  · rw [update_self]
    change (s.gpstAlmFifo.map _).bind ALARM_FIFO.bottom = e.pPrevious
    rw [h.pointer]
    rfl
  · intro a ha
    have hne : some a ≠ none := Option.some_ne_none a
    rw [update_of_ne hne, update_of_ne hne, drop_next a (hx a ha), drop_prev a (hx a ha)]
    refine ⟨?_, rfl⟩
    by_cases hprev : some a = e.pPrevious
    · rw [← hprev, update_self, update_self]
    · rw [update_of_ne hprev, update_of_ne hprev, update_of_ne hne]

/-- The oldest entry is sent. -/
theorem Holds.drop (h : Holds s fifo (x :: w)) (he : s.heap x = some e) :
    Holds (s.drop x e) { fifo with bottom := e.pPrevious, occupancy := fifo.occupancy - 1 } w := by
  obtain ⟨hxw, hnodup⟩ := List.nodup_cons.mp h.nodup
  have hmessage : e.message = s.message x := by rw [State.message, he, Option.elim_some]
  have hlength := h.count
  rw [List.length_cons] at hlength
  refine ⟨?_, h.drop_ring he, hnodup, ?_, ?_, ?_, ?_, ?_, ?_⟩
  · change s.gpstAlmFifo.map _ = _
    rw [h.pointer]
    rfl
  · intro a
    by_cases ha : a = x
    · subst ha
      rw [drop_self]
      exact iff_of_false nofun hxw
    · have hlive := h.live a
      rw [List.mem_cons, or_iff_right ha] at hlive
      rw [← hlive, drop_heap a ha]
      split_ifs <;> simp
  · intro a e' he'
    by_cases ha : a = x
    · subst ha
      rw [drop_self] at he'
      cases he'
    · rw [drop_heap a ha] at he'
      split_ifs at he'
      · obtain ⟨e₀, he₀, rfl⟩ := Option.map_eq_some_iff.mp he'
        exact h.body a e₀ he₀
      · exact h.body a e' he'
  · rw [UInt16.toNat_sub_of_le _ _ ?_]
    · change fifo.occupancy.toNat - 1 = _
      omega
    · rw [UInt16.le_iff_toNat_le]
      change 1 ≤ _
      omega
  · exact (Nat.le_succ _).trans h.bound
  · change s.accepted = State.sent { s with handed := s.handed ++ [(e.message, true)] } ++ _
    rw [sent_hand, h.books, List.map_cons, hmessage]
    have hsame : w.map (s.drop x e).message = w.map s.message := by
      apply List.map_congr_left
      intro a ha
      exact drop_message a (by rintro rfl; exact hxw ha)
    rw [hsame]
    simp
  · have hhand := h.hand true
    rw [← hmessage] at hhand
    exact hhand

theorem Holds.drop_waiting (h : Holds s fifo (x :: w)) (he : s.heap x = some e) :
    s.waiting = e.message :: (s.drop x e).waiting := by
  have hmessage : e.message = s.message x := by rw [State.message, he, Option.elim_some]
  rw [h.waiting, (h.drop he).waiting, List.map_cons, hmessage]
  congr 1
  apply List.map_congr_left
  intro a ha
  refine (drop_message a ?_).symm
  rintro rfl
  exact (List.nodup_cons.mp h.nodup).1 ha

/-- The loop went on: one more message was sent before it. -/
theorem Moves.after {sends : Nat → Bool} {u : State} {ret : RCP_RET} {m : List UInt8}
    (h : Moves u t ret (.pop sends)) (hret : ret = .RCP_OK ∨ ret = .RCP_FAIL)
    (hwaiting : s.waiting = m :: u.waiting) (hhanded : u.handed = s.handed ++ [(m, true)]) :
    Moves s t ret (.pop sends) := by
  rcases hret with rfl | rfl
  · obtain ⟨hempty, hall⟩ := h
    refine ⟨hempty, ?_⟩
    rw [hall, hhanded, hwaiting]
    simp
  · obtain ⟨done, m', younger, hu, ht, hall⟩ := h
    refine ⟨m :: done, m', younger, ?_, ht, ?_⟩
    · rw [hwaiting, hu, List.cons_append]
    · rw [hall, hhanded]
      simp

/-- The loop is through, and the top is `NULL`. -/
theorem Holds.close (h : Holds s fifo []) :
    Holds (s.edit fun fifo => { fifo with top := none }) { fifo with top := none } [] := by
  have hpointer : (s.edit fun fifo => { fifo with top := none }).gpstAlmFifo = some { fifo with top := none } := by
    rw [State.edit, h.pointer, Option.map_some]
  refine ⟨hpointer, ?_, h.nodup, h.live, h.body, h.count, h.bound, h.books, h.order⟩
  refine ring_nil.mpr ⟨update_self .., ?_⟩
  rw [prevOf, hpointer]
  exact h.bottom

/-- The oldest message was not sent. -/
theorem Holds.refuse (h : Holds s fifo (x :: w)) (he : s.heap x = some e) :
    Holds { s with handed := s.handed ++ [(e.message, false)] } fifo (x :: w) := by
  have hmessage : e.message = s.message x := by rw [State.message, he, Option.elim_some]
  refine ⟨h.pointer, h.ring, h.nodup, h.live, h.body, h.count, h.bound, ?_, hmessage ▸ h.hand false⟩
  rw [sent_hand, if_neg Bool.false_ne_true, List.append_nil]
  exact h.books

/-- The loop ends with the first message that is not sent, or with the list. -/
theorem popLoop_spec (sends : Nat → Bool) {n : Nat} (hn : w.length ≤ n) (i : Nat) (h : Holds s fifo w) :
    ∃ t ret fifo' rest, State.popLoop sends n i s w.head? = some (t, ret) ∧ (ret = .RCP_OK ∨ ret = .RCP_FAIL) ∧
      Moves s t ret (.pop sends) ∧ Holds t fifo' rest ∧ rest <:+ w ∧
      fifo'.top = if rest = [] then none else fifo.top := by
  induction w generalizing s fifo n i with
  | nil =>
    refine ⟨_, _, { fifo with top := none }, [], by rw [List.head?_nil, State.popLoop], .inl rfl, ?_, ?_,
      List.nil_suffix, rfl⟩
    · have hempty : s.waiting = [] := h.waiting
      refine ⟨hempty, ?_⟩
      rw [hempty, List.map_nil, List.append_nil]
      rfl
    · exact h.close
  | cons x w ih =>
    obtain ⟨e, he, hprevious, hmessage⟩ := h.first
    obtain ⟨n, rfl⟩ : ∃ k, n = k + 1 := ⟨n - 1, by rw [List.length_cons] at hn; omega⟩
    rw [List.head?_cons, popLoop_next sends n i he]
    by_cases hsends : sends i = false
    · rw [if_pos hsends, hsends]
      refine ⟨_, _, fifo, x :: w, rfl, .inr rfl, ?_, ?_, List.suffix_rfl, by rw [if_neg (List.cons_ne_nil x w)]⟩
      · refine ⟨[], e.message, (s.drop x e).waiting, h.drop_waiting he, ?_, by simp⟩
        rw [(h.refuse he).waiting, ← h.drop_waiting he, h.waiting]
        rfl
      · exact h.refuse he
    · rw [if_neg hsends, hprevious]
      have hlength : w.length ≤ n := by
        rw [List.length_cons] at hn
        omega
      obtain ⟨t, ret, fifo', rest, hloop, hret, hmoves, hholds, hsuffix, htop⟩ := ih hlength (i + 1) (h.drop he)
      exact ⟨t, ret, fifo', rest, hloop, hret, hmoves.after hret (h.drop_waiting he) rfl, hholds,
        hsuffix.trans (List.suffix_cons x w), htop⟩

/-! ## The calls -/

/-- The list was not created, or holds the messages that wait. -/
def Sound (s : State) : Prop :=
  s.gpstAlmFifo = none ∧ s.accepted = [] ∧ s.handed = [] ∨
    ∃ fifo w, Holds s fifo w ∧ fifo.top = w.getLast?

theorem Sound.law (h : Sound s) : Law s := by
  rcases h with ⟨hnone, -, hhanded⟩ | ⟨fifo, w, hholds, htop⟩
  · refine ⟨?_, ?_, ?_⟩
    · intro fifo hfifo
      rw [hnone] at hfifo
      cases hfifo
    · rw [State.sent, hhanded]
      exact List.nil_prefix
    · intro i m ok hi
      rw [hhanded] at hi
      cases hi
  · exact hholds.law htop

theorem pop_sound (h : Sound s) (sends : Nat → Bool) :
    ∃ t ret, s.popAllSwitchStatusChgMsg sends = some (t, ret) ∧ Sound t ∧ Moves s t ret (.pop sends) := by
  rcases id h with ⟨hnone, haccepted, hhanded⟩ | ⟨fifo, w, hholds, htop⟩
  · exact ⟨s, .RCP_NOT_INITIALIZED, by rw [State.popAllSwitchStatusChgMsg, hnone], h, rfl, hnone⟩
  · unfold State.popAllSwitchStatusChgMsg
    rw [hholds.pointer]
    dsimp only
    split_ifs with hzero
    · refine ⟨s, .RCP_NO_MORE, rfl, h, rfl, ?_⟩
      have hlength := hholds.count
      rw [hzero] at hlength
      rw [hholds.waiting, List.length_eq_zero_iff.mp hlength.symm, List.map_nil]
    · obtain ⟨x, w, rfl⟩ : ∃ x l, w = x :: l := by
        cases w with
        | nil => exact absurd (UInt16.toNat_inj.mp hholds.count) hzero
        | cons x l => exact ⟨x, l, rfl⟩
      obtain ⟨e, he, -, -⟩ := hholds.first
      have hlong : (x :: w).length ≤ allEntries := by
        rw [← hholds.count]
        exact fifo.occupancy.toNat_lt.le.trans (by decide)
      obtain ⟨t, ret, fifo', rest, hloop, hret, hmoves, hrest, hsuffix, htop'⟩ :=
        popLoop_spec sends hlong 0 hholds
      have hbottom : fifo.bottom = some x := hholds.bottom
      have hbody : (s.heap x).any (·.MsgBody = none) = false := by
        rw [he, Option.any_some]
        exact decide_eq_false (hholds.body x e he)
      rw [hbottom]
      dsimp only
      rw [hbody, if_neg Bool.false_ne_true]
      refine ⟨t, ret, hloop, .inr ⟨fifo', rest, hrest, ?_⟩, hmoves⟩
      rw [htop', htop]
      obtain ⟨done, hdone⟩ := hsuffix
      split_ifs with hempty
      · rw [hempty, List.getLast?_nil]
      · rw [← hdone, List.getLast?_append_of_ne_nil _ hempty]

/-- A new entry comes to the top. -/
def State.raise (s : State) (fifo : ALARM_FIFO) (p : Nat) (MsgBody : List UInt8) : State :=
  { s with
    heap := write (update s.heap p (some ⟨some MsgBody, ONU_SWITCH_STATUS_CHANGE_ALARM_LEN, fifo.top, none⟩))
      fifo.top fun e => { e with pPrevious := some p }
    gpstAlmFifo := some { fifo with
      top := some p
      bottom := if fifo.top = none then some p else fifo.bottom
      occupancy := fifo.occupancy + 1 }
    accepted := s.accepted ++ [MsgBody] }

section
variable {p : Nat} {MsgBody : List UInt8}

theorem raise_self (hp : fifo.top ≠ some p) : (s.raise fifo p MsgBody).heap p =
    some ⟨some MsgBody, ONU_SWITCH_STATUS_CHANGE_ALARM_LEN, fifo.top, none⟩ := by
  change write _ _ _ p = _
  rw [write_apply, if_neg hp.symm, update_self]

theorem raise_other (a : Nat) (ha : a ≠ p) : (s.raise fifo p MsgBody).heap a =
    if some a = fifo.top then (s.heap a).map fun e => { e with pPrevious := some p } else s.heap a := by
  change write _ _ _ a = _
  rw [write_apply, update_of_ne ha]

theorem raise_message (a : Nat) (ha : a ≠ p) : (s.raise fifo p MsgBody).message a = s.message a := by
  rw [State.message, State.message, raise_other a ha]
  split_ifs
  · cases s.heap a <;> rfl
  · rfl

theorem Holds.raise_ring (h : Holds s fifo w) (htop : fifo.top = w.getLast?) (hp : p ∉ w) :
    Ring (update (nextOf (s.raise fifo p MsgBody)) none (w ++ [p]).getLast?)
      (prevOf (s.raise fifo p MsgBody)) (w ++ [p]).reverse := by
  have hhead : w.reverse.head? = fifo.top := by rw [List.head?_reverse, htop]
  have hne : fifo.top ≠ some p := by
    rw [htop]
    exact fun heq => hp (List.mem_of_getLast? heq)
  have hinserted := Ring.insert (l := []) (r := w.reverse) (x := p) h.ring
    (List.nodup_cons.mpr ⟨by rwa [List.mem_reverse], List.nodup_reverse.mpr h.nodup⟩)
  rw [List.getLast?_nil, List.nil_append, hhead] at hinserted
  rw [List.reverse_append, List.reverse_singleton, List.singleton_append, List.getLast?_concat]
  have hnone : ∀ a : Nat, some a ≠ none := Option.some_ne_none
  refine hinserted.congr ?_ ?_ ?_
  · rw [update_self, update_of_ne (hnone p).symm, update_self]
  · rw [update_of_ne (hnone p).symm]
    change (if fifo.top = none then some p else fifo.bottom) = _
    by_cases hempty : fifo.top = none
    · rw [if_pos hempty, hempty, update_self]
    · rw [if_neg hempty, update_of_ne (Ne.symm hempty), prevOf, h.pointer]
      rfl
  · intro a ha
    rw [update_of_ne (hnone a)]
    by_cases hap : a = p
    · subst hap
      rw [update_self, update_self, nextOf, prevOf, raise_self hne]
      exact ⟨rfl, rfl⟩
    · have hap' : some a ≠ some p := fun heq => hap (Option.some.inj heq)
      rw [update_of_ne hap', update_of_ne (hnone a), update_of_ne (hnone a), update_of_ne hap', nextOf, prevOf,
        raise_other a hap]
      by_cases hfirst : some a = fifo.top
      · have hlive : a ∈ w := List.mem_of_getLast? (hfirst.trans htop).symm
        obtain ⟨e, he⟩ := Option.isSome_iff_exists.mp ((h.live a).mpr hlive)
        rw [if_pos hfirst, ← hfirst, update_self, nextOf, he]
        exact ⟨rfl, rfl⟩
      · rw [if_neg hfirst, update_of_ne hfirst]
        exact ⟨rfl, rfl⟩

theorem Holds.raise_live (h : Holds s fifo w) (hne : fifo.top ≠ some p) (a : Nat) :
    ((s.raise fifo p MsgBody).heap a).isSome = true ↔ a ∈ w ++ [p] := by
  rw [List.mem_append, List.mem_singleton]
  by_cases ha : a = p
  · subst ha
    rw [raise_self hne]
    exact iff_of_true rfl (.inr rfl)
  · rw [or_iff_left ha, ← h.live a, raise_other a ha]
    split_ifs <;> simp

/-- The message is the youngest. -/
theorem Holds.raise (h : Holds s fifo w) (htop : fifo.top = w.getLast?) (hfree : s.heap p = none)
    (hroom : fifo.occupancy < fifo.lengthLimitMax) (hlength : MsgBody.length = 14) :
    ∃ fifo', Holds (s.raise fifo p MsgBody) fifo' (w ++ [p]) ∧ fifo'.top = some p := by
  have hp : p ∉ w := by
    rw [← h.live p, hfree]
    nofun
  have hne : fifo.top ≠ some p := by
    rw [htop]
    exact fun heq => hp (List.mem_of_getLast? heq)
  have hcount := h.count
  rw [UInt16.lt_iff_toNat_lt] at hroom
  have hmessage : (s.raise fifo p MsgBody).message p = MsgBody := by
    rw [State.message, raise_self hne]
    exact List.take_of_length_le hlength.le
  refine ⟨_, ⟨rfl, h.raise_ring htop hp, ?_, h.raise_live hne, ?_, ?_, ?_, ?_, ?_⟩, rfl⟩
  · exact h.nodup.append (List.nodup_singleton p) (List.disjoint_singleton.mpr hp)
  · intro a e he
    by_cases ha : a = p
    · subst ha
      rw [raise_self hne] at he
      rw [← Option.some.inj he]
      nofun
    · rw [raise_other a ha] at he
      split_ifs at he
      · obtain ⟨e₀, he₀, rfl⟩ := Option.map_eq_some_iff.mp he
        exact h.body a e₀ he₀
      · exact h.body a e he
  · change (fifo.occupancy + 1).toNat = _
    rw [UInt16.toNat_add, List.length_append, List.length_singleton, ← hcount]
    refine Nat.mod_eq_of_lt ?_
    have := fifo.lengthLimitMax.toNat_lt
    change _ + 1 < _
    omega
  · rw [List.length_append, List.length_singleton]
    change _ ≤ fifo.lengthLimitMax.toNat
    omega
  · have hsame : w.map (s.raise fifo p MsgBody).message = w.map s.message := by
      apply List.map_congr_left
      intro a ha
      exact raise_message a (by rintro rfl; exact hp ha)
    rw [List.map_append, hsame, List.map_singleton, hmessage]
    change s.accepted ++ [MsgBody] = s.sent ++ _
    rw [h.books, List.append_assoc]
  · exact h.order.accept rfl ⟨[MsgBody], rfl⟩

end

theorem push_sound (h : Sound s) (mal : Option Nat) (body : Bool) (onuPort : UInt8)
    (switchMac : Vector UInt8 6) (msgType reason : UInt8) :
    ∃ t ret, s.pushOneSwitchStatusChgMsg mal body onuPort switchMac msgType reason = (t, ret) ∧
      Sound t ∧ Moves s t ret (.push mal body onuPort switchMac msgType reason) := by
  have hrefused : ∀ ret, ret ≠ RCP_RET.RCP_OK → ∃ t r, (s, ret) = (t, r) ∧
      Sound t ∧ Moves s t r (.push mal body onuPort switchMac msgType reason) := by
    intro ret hret
    refine ⟨s, ret, rfl, h, ?_⟩
    rw [Moves, if_neg hret]
  unfold State.pushOneSwitchStatusChgMsg
  cases hpointer : s.gpstAlmFifo with
  | none => exact hrefused _ nofun
  | some fifo =>
    dsimp only
    by_cases hfull : fifo.lengthLimitMax ≤ fifo.occupancy
    · rw [if_pos hfull]
      exact hrefused _ nofun
    rw [if_neg hfull]
    cases hmal : s.malloc mal with
    | none => exact hrefused _ nofun
    | some p =>
      dsimp only
      by_cases hbody : body = false
      · rw [if_pos hbody]
        exact hrefused _ nofun
      rw [if_neg hbody]
      rcases h with ⟨hnone, -⟩ | ⟨fifo', w, hholds, htop⟩
      · rw [hnone] at hpointer
        cases hpointer
      obtain rfl := Option.some.inj (hholds.pointer.symm.trans hpointer)
      have hfree : s.heap p = none := by simpa using (Option.filter_eq_some_iff.mp hmal).2
      have hlength : (alarm onuPort switchMac msgType reason).length = 14 := by simp [alarm]
      obtain ⟨fifo', hraised, htop'⟩ := hholds.raise htop hfree (UInt16.not_le.mp hfull) hlength
      refine ⟨_, _, rfl, .inr ⟨fifo', w ++ [p], hraised, by rw [htop', List.getLast?_concat]⟩, ?_⟩
      rw [Moves, if_pos rfl]
      refine ⟨?_, rfl⟩
      change (s.accepted ++ [_]).drop s.sent.length = _
      rw [State.waiting, List.drop_append_of_le_length]
      rw [hholds.books, List.length_append]
      exact Nat.le_add_right _ _

theorem init_sound (mal : Bool) : Sound (RCP_Init mal) := by
  cases mal with
  | false => exact .inl ⟨rfl, rfl, rfl⟩
  | true =>
    refine .inr ⟨_, [], ⟨rfl, ring_nil.mpr ⟨rfl, rfl⟩, List.nodup_nil, ?_, ?_, rfl, Nat.zero_le _, rfl, ?_⟩, rfl⟩
    · exact fun a => iff_of_false nofun nofun
    · nofun
    · nofun

/-- The alarms are handed over in the order of their pushes, each is sent once at most, and a
pop that fails keeps the message that it failed on and all younger ones. -/
theorem alarms_are_sent_in_order (mal : Bool) (es : List Event) :
    Along State.step Keeps (RCP_Init mal) es := by
  have hstep (s : State) (e : Event) (h : Sound s) :
      ∃ t ret, s.call e = some (t, ret) ∧ Sound t ∧ Moves s t ret e := by
    cases e with
    | push mal body onuPort switchMac msgType reason =>
      obtain ⟨t, ret, hpush, hsound⟩ := push_sound h mal body onuPort switchMac msgType reason
      exact ⟨t, ret, congrArg some hpush, hsound⟩
    | pop sends => exact pop_sound h sends
  refine along_imp (I := Sound) (P := fun _ _ => True) ?_ ?_ (init_sound mal) (along_true _ _)
  · intro s e h _
    obtain ⟨t, ret, hcall, ht, -⟩ := hstep s e h
    rw [State.step, hcall]
    exact ht
  · intro s e h _
    obtain ⟨t, ret, hcall, ht, hmoves⟩ := hstep s e h
    exact ⟨t, ret, hcall, ht.law, hmoves⟩

end

end gwdonu.switch_alarms
