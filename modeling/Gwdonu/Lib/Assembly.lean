-- Reassembly of messages from fragments that carry an offset, over any keys,
-- tags and bytes: an in-order stream of fragments delivers its message once,
-- whatever copies and strays come in between.
import Gwdonu.Lib.Runs
import Mathlib.Data.List.Sublists
import Mathlib.Logic.Function.Basic

namespace assembly

open runs

/-! ## The machine -/

/-- A fragment: which message it belongs to, how long that message is, and
where its bytes lie in it. -/
structure Fragment (κ τ β : Type*) where
  key : κ
  tag : τ
  whole : Nat
  offset : Nat
  data : List β
  deriving DecidableEq

/-- A message with the bytes received so far. -/
structure Partial (τ β : Type*) where
  tag : τ
  whole : Nat
  data : List β

variable {κ τ β : Type*}

/-- The messages in progress, by key. -/
abbrev Table (κ τ β : Type*) := κ → Option (Partial τ β)

/-- What a fragment makes of its message: the message it opens or extends, or
`none` when it is dropped. Only a first fragment opens a message, and only the
next bytes extend one. -/
def accept (s : Table κ τ β) (f : Fragment κ τ β) : Option (Partial τ β) :=
  match s f.key with
  | none => if f.offset = 0 then some ⟨f.tag, f.whole, f.data⟩ else none
  | some p =>
    if f.offset ≠ 0 ∧ f.offset = p.data.length ∧ p.data.length + f.data.length ≤ p.whole then
      some { p with data := p.data ++ f.data }
    else none

/-- The message that a fragment completes. -/
def delivers (s : Table κ τ β) (f : Fragment κ τ β) : Option (Partial τ β) :=
  (accept s f).filter (fun p => p.data.length = p.whole)

/-! ## A message cut into fragments -/

/-- A message and the pieces that it is sent in. -/
structure Message (κ τ β : Type*) where
  key : κ
  tag : τ
  chunks : List (List β)

namespace Message

/-- The bytes of the first `k` pieces. -/
def upto (M : Message κ τ β) (k : Nat) : List β := (M.chunks.take k).flatten

def payload (M : Message κ τ β) : List β := M.chunks.flatten

/-- The fragment that carries piece `k`. -/
def fragment (M : Message κ τ β) (k : Nat) : Fragment κ τ β :=
  ⟨M.key, M.tag, M.payload.length, (M.upto k).length, M.chunks[k]?.getD []⟩

/-- The fragments from piece `k` on, in order. -/
def stream (M : Message κ τ β) (k : Nat) : List (Fragment κ τ β) :=
  (List.range' k (M.chunks.length - k)).map M.fragment

@[simp] theorem fragment_key (M : Message κ τ β) (k : Nat) : (M.fragment k).key = M.key := rfl

/-- What is held of the message after its first `k` pieces. -/
def held (M : Message κ τ β) (k : Nat) : Option (Partial τ β) :=
  if k = 0 then none else some ⟨M.tag, M.payload.length, M.upto k⟩

/-- A message in at least one piece, and no piece empty. -/
structure Proper (M : Message κ τ β) : Prop where
  some_chunk : 0 < M.chunks.length
  nonempty : ∀ c ∈ M.chunks, c ≠ []

@[simp] theorem upto_zero (M : Message κ τ β) : M.upto 0 = [] := rfl

theorem upto_length (M : Message κ τ β) : M.upto M.chunks.length = M.payload := by
  simp [upto, payload]

theorem upto_succ (M : Message κ τ β) (k : Nat) :
    M.upto (k + 1) = M.upto k ++ M.chunks[k]?.getD [] := by
  unfold upto
  rw [List.take_add_one, List.flatten_append]
  cases M.chunks[k]? <;> simp

theorem upto_mono (M : Message κ τ β) {j k : Nat} (h : j ≤ k) :
    (M.upto j).length ≤ (M.upto k).length := by
  induction k, h using Nat.le_induction with
  | base => exact Nat.le_refl _
  | succ k _ ih => rw [upto_succ, List.length_append]; omega

theorem upto_le_payload (M : Message κ τ β) (k : Nat) : (M.upto k).length ≤ M.payload.length := by
  rcases Nat.le_total k M.chunks.length with h | h
  · exact M.upto_length ▸ M.upto_mono h
  · simp [upto, payload, List.take_of_length_le h]

theorem chunk_pos {M : Message κ τ β} (hM : M.Proper) {k : Nat} (h : k < M.chunks.length) :
    0 < (M.chunks[k]?.getD []).length := by
  rw [List.getElem?_eq_getElem h]
  exact List.length_pos_iff.mpr (hM.nonempty _ (List.getElem_mem h))

/-- Each piece moves the end of the received bytes, so an offset names its piece. -/
theorem upto_lt {M : Message κ τ β} (hM : M.Proper) {j k : Nat} (hj : j < k)
    (hk : j < M.chunks.length) : (M.upto j).length < (M.upto k).length := by
  have h1 : (M.upto (j + 1)).length ≤ (M.upto k).length := M.upto_mono hj
  rw [upto_succ, List.length_append] at h1
  have := chunk_pos hM hk
  omega

theorem stream_cons (M : Message κ τ β) {k : Nat} (h : k < M.chunks.length) :
    M.stream k = M.fragment k :: M.stream (k + 1) := by
  unfold stream
  obtain ⟨d, hd⟩ : ∃ d, M.chunks.length - k = d + 1 := ⟨M.chunks.length - k - 1, by omega⟩
  rw [hd, List.range'_succ, List.map_cons]
  congr 3
  omega

theorem stream_end (M : Message κ τ β) {k : Nat} (h : M.chunks.length ≤ k) : M.stream k = [] := by
  simp [stream, Nat.sub_eq_zero_of_le h]

/-- The fragments of some pieces, the first of them at byte `off`. -/
def fragmentsFrom (M : Message κ τ β) : Nat → List (List β) → List (Fragment κ τ β)
  | _, [] => []
  | off, c :: cs => ⟨M.key, M.tag, M.payload.length, off, c⟩ :: fragmentsFrom M (off + c.length) cs

/-- The stream goes through the pieces, and each offset is the end of the piece before. -/
theorem stream_eq (M : Message κ τ β) (k : Nat) :
    M.stream k = M.fragmentsFrom (M.upto k).length (M.chunks.drop k) := by
  generalize hd : M.chunks.length - k = d
  induction d generalizing k with
  | zero =>
    rw [stream_end M (by omega), List.drop_eq_nil_of_le (by omega)]
    rfl
  | succ d ih =>
    have hk : k < M.chunks.length := by omega
    have hget : M.chunks[k]?.getD [] = M.chunks[k] := by simp [hk]
    rw [stream_cons M hk, ih (k + 1) (by omega), List.drop_eq_getElem_cons hk, fragmentsFrom,
      upto_succ, List.length_append, fragment, hget]

/-- Past the first piece, some bytes are in. -/
theorem first_or_pos {M : Message κ τ β} (hM : M.Proper) (k : Nat) :
    k = 0 ∨ 0 < (M.upto k).length := by
  rcases Nat.eq_zero_or_pos k with h | h
  · exact Or.inl h
  · exact Or.inr (Nat.lt_of_le_of_lt (Nat.zero_le _) (upto_lt hM h hM.some_chunk))

/-! ## One fragment of a message -/

/-- The next piece is taken. -/
theorem accept_next {M : Message κ τ β} {s : Table κ τ β} {k : Nat} (hs : s M.key = M.held k)
    (hfirst : k = 0 ∨ 0 < (M.upto k).length) :
    accept s (M.fragment k) = some ⟨M.tag, M.payload.length, M.upto (k + 1)⟩ := by
  have hk : s (M.fragment k).key = M.held k := hs
  unfold accept
  rw [hk]
  rcases Nat.eq_zero_or_pos k with rfl | hpos
  · simp [held, fragment, upto_succ]
  · have hle : (M.upto (k + 1)).length ≤ M.payload.length := M.upto_le_payload _
    rw [upto_succ, List.length_append] at hle
    have hne : (M.upto k).length ≠ 0 := by omega
    simp [held, fragment, upto_succ, Nat.pos_iff_ne_zero.mp hpos, hle]
    exact List.ne_nil_of_length_pos (by omega)

/-- Any piece but the next one is dropped. -/
theorem accept_other {M : Message κ τ β} (hM : M.Proper) {s : Table κ τ β} {j k : Nat}
    (hs : s M.key = M.held k) (hj : j < M.chunks.length) (hjk : j ≠ k) :
    accept s (M.fragment j) = none := by
  have hk : s (M.fragment j).key = M.held k := hs
  unfold accept
  rw [hk]
  rcases Nat.eq_zero_or_pos k with rfl | hpos
  · have : (M.upto 0).length < (M.upto j).length := upto_lt hM (by omega) hM.some_chunk
    have hne : (M.upto j).length ≠ 0 := by omega
    simp [held, fragment, List.length_eq_zero_iff.not.mp hne]
  · have hne : (M.upto j).length ≠ (M.upto k).length := by
      rcases Nat.lt_or_gt_of_ne hjk with h | h
      · exact Nat.ne_of_lt (upto_lt hM h hj)
      · rcases Nat.lt_or_ge k M.chunks.length with hk' | hk'
        · exact (Nat.ne_of_lt (upto_lt hM h hk')).symm
        · omega
    simp [held, fragment, Nat.pos_iff_ne_zero.mp hpos, hne]

/-- The message of piece `k` is complete with its last piece, and not before. -/
theorem complete_iff {M : Message κ τ β} (hM : M.Proper) {k : Nat} (hk : k < M.chunks.length) :
    (M.upto (k + 1)).length = M.payload.length ↔ k + 1 = M.chunks.length := by
  rw [← M.upto_length]
  refine ⟨?_, ?_⟩
  · intro h
    by_contra hne
    exact absurd h (Nat.ne_of_lt (upto_lt hM (by omega) (by omega)))
  · intro h
    rw [h]

/-- The next piece delivers the message when it is the last one. -/
theorem delivers_next {M : Message κ τ β} (hM : M.Proper) {s : Table κ τ β} {k : Nat}
    (hk : k < M.chunks.length)
    (hacc : accept s (M.fragment k) = some ⟨M.tag, M.payload.length, M.upto (k + 1)⟩) :
    delivers s (M.fragment k) =
      if k + 1 = M.chunks.length then some ⟨M.tag, M.payload.length, M.payload⟩ else none := by
  unfold delivers
  rw [hacc]
  split
  · rename_i hlast
    simp [hlast, upto_length]
  · rename_i hpart
    simp [(complete_iff hM hk).not.mpr hpart]

end Message

/-! ## Strays -/

/-- A fragment of another place of the message than the next one. -/
def Stray (s : Table κ τ β) (f : Fragment κ τ β) : Prop :=
  f.offset ≠ 0 ∧ ∀ p, s f.key = some p → f.offset ≠ p.data.length

theorem accept_stray {s : Table κ τ β} {f : Fragment κ τ β} (h : Stray s f) :
    accept s f = none := by
  unfold accept
  rcases hs : s f.key with _ | p
  · simp [h.1]
  · simp [h.2 p hs]

/-! ## Steps and runs -/

variable [DecidableEq κ]

def step (s : Table κ τ β) (f : Fragment κ τ β) : Table κ τ β :=
  match accept s f with
  | none => s
  | some p => Function.update s f.key (some p)

/-- The messages that a run delivers, in order, each with its key. -/
def deliveries : Table κ τ β → List (Fragment κ τ β) → List (κ × Partial τ β)
  | _, [] => []
  | s, f :: fs => ((delivers s f).map (fun p => (f.key, p))).toList ++ deliveries (step s f) fs

theorem step_other (s : Table κ τ β) (f : Fragment κ τ β) (k : κ) (h : k ≠ f.key) :
    step s f k = s k := by
  unfold step
  cases accept s f <;> simp [h]

theorem step_self (s : Table κ τ β) (f : Fragment κ τ β) :
    step s f f.key = (accept s f).or (s f.key) := by
  unfold step
  cases accept s f <;> simp

/-! ## A stream on its own -/

omit [DecidableEq κ] in
theorem stream_take (M : Message κ τ β) {k : Nat} (h : k < M.chunks.length) :
    (M.stream 0).take (k + 1) = (M.stream 0).take k ++ [M.fragment k] := by
  unfold Message.stream
  rw [List.take_add_one]
  simp [h]

/-- The pieces before piece `k` leave the message with `k` pieces in. -/
theorem stream_held {M : Message κ τ β} (hM : M.Proper ∨ M.chunks.length = 1) {s : Table κ τ β}
    (hs : s M.key = none) {k : Nat} (hk : k < M.chunks.length) :
    run step s ((M.stream 0).take k) M.key = M.held k := by
  induction k with
  | zero => simpa [Message.held] using hs
  | succ k ih =>
    have hproper : M.Proper := hM.resolve_right (by omega)
    have hacc := Message.accept_next (ih (by omega)) (Message.first_or_pos hproper k)
    rw [stream_take M (by omega), run_append, run_cons, run_nil, ← M.fragment_key k, step_self,
      hacc]
    simp [Message.held]

/-- In order, the last piece delivers the message, and no other piece does. -/
theorem stream_delivers {M : Message κ τ β} (hM : M.Proper ∨ M.chunks.length = 1)
    {s : Table κ τ β} (hs : s M.key = none) {k : Nat} (hk : k < M.chunks.length) :
    delivers (run step s ((M.stream 0).take k)) (M.fragment k) =
      if k + 1 = M.chunks.length then some ⟨M.tag, M.payload.length, M.payload⟩ else none := by
  have hheld := stream_held hM hs hk
  rcases hM with hproper | hone
  · exact Message.delivers_next hproper hk
      (Message.accept_next hheld (Message.first_or_pos hproper k))
  · obtain rfl : k = 0 := by omega
    have hacc := Message.accept_next hheld (Or.inl rfl)
    rw [delivers, hacc, show (0 : Nat) + 1 = M.chunks.length by omega, M.upto_length]
    simp

theorem deliveries_append (s : Table κ τ β) (fs gs : List (Fragment κ τ β)) :
    deliveries s (fs ++ gs) = deliveries s fs ++ deliveries (run step s fs) gs := by
  induction fs generalizing s with
  | nil => rfl
  | cons f fs ih => simp only [List.cons_append, deliveries, ih, run_cons, List.append_assoc]

/-- Nothing is delivered before the last piece. -/
theorem stream_silent {M : Message κ τ β} (hM : M.Proper ∨ M.chunks.length = 1)
    {s : Table κ τ β} (hs : s M.key = none) {k : Nat} (hk : k < M.chunks.length) :
    deliveries s ((M.stream 0).take k) = [] := by
  induction k with
  | zero => rfl
  | succ k ih =>
    have hdel := stream_delivers hM hs (k := k) (by omega)
    rw [if_neg (by omega)] at hdel
    rw [stream_take M (by omega), deliveries_append, ih (by omega)]
    simp [deliveries, hdel]

/-! ## What a message is made of -/

/-- The fragments that made a message: the first one opened it, and all carry
its key. -/
structure MadeOf (fs : List (Fragment κ τ β)) (k : κ) (p : Partial τ β) : Prop where
  opened : ∃ f rest, fs = f :: rest ∧ f.offset = 0 ∧ f.tag = p.tag ∧ f.whole = p.whole ∧
    ∀ g ∈ rest, g.offset ≠ 0
  keys : ∀ f ∈ fs, f.key = k
  data : p.data = fs.flatMap (·.data)

omit [DecidableEq κ] in
theorem accept_some {s : Table κ τ β} {f : Fragment κ τ β} {p : Partial τ β}
    (h : accept s f = some p) :
    (s f.key = none ∧ f.offset = 0 ∧ p = ⟨f.tag, f.whole, f.data⟩) ∨
      ∃ q, s f.key = some q ∧ f.offset ≠ 0 ∧ f.offset = q.data.length ∧
        q.data.length + f.data.length ≤ q.whole ∧ p = { q with data := q.data ++ f.data } := by
  unfold accept at h
  cases hs : s f.key with
  | none =>
    rw [hs] at h
    dsimp only at h
    split at h
    · rename_i h0
      exact Or.inl ⟨rfl, h0, (Option.some.inj h).symm⟩
    · simp at h
  | some q =>
    rw [hs] at h
    dsimp only at h
    split at h
    · rename_i hq
      exact Or.inr ⟨q, rfl, hq.1, hq.2.1, hq.2.2, (Option.some.inj h).symm⟩
    · simp at h

omit [DecidableEq κ] in
/-- A message that takes a fragment is made of that fragment too. -/
theorem made_accept {s : Table κ τ β} {f : Fragment κ τ β} {p : Partial τ β}
    (h : accept s f = some p) :
    MadeOf [f] f.key p ∨
      ∃ q, s f.key = some q ∧ ∀ fs, MadeOf fs f.key q → MadeOf (fs ++ [f]) f.key p := by
  rcases accept_some h with ⟨-, h0, rfl⟩ | ⟨q, hq, hne, -, -, rfl⟩
  · exact Or.inl ⟨⟨f, [], rfl, h0, rfl, rfl, by simp⟩, by simp, by simp⟩
  · refine Or.inr ⟨q, hq, ?_⟩
    rintro fs ⟨⟨g, rest, rfl, h0, htag, hwhole, hrest⟩, hkeys, hdata⟩
    refine ⟨⟨g, rest ++ [f], rfl, h0, htag, hwhole, ?_⟩, ?_, ?_⟩
    · intro x hx
      rcases List.mem_append.mp hx with hx | hx
      · exact hrest x hx
      · exact List.mem_singleton.mp hx ▸ hne
    · intro x hx
      rcases List.mem_append.mp hx with hx | hx
      · exact hkeys x hx
      · rw [List.mem_singleton.mp hx]
    · simp [hdata]

/-! ## Streams with copies and strays in between -/

/-- What may come while messages of `Ms` are under way: a piece of one of
them, first time or again, or a stray. -/
def Expected (Ms : List (Message κ τ β)) (s : Table κ τ β) (f : Fragment κ τ β) : Prop :=
  (∃ M ∈ Ms, ∃ k < M.chunks.length, f = M.fragment k) ∨ Stray s f

/-- How one event moves a message that has `k` pieces in: the next piece adds
itself, and anything else leaves the message as it is. -/
theorem held_step {Ms : List (Message κ τ β)} {M : Message κ τ β} (hM : M.Proper)
    (hkeys : ∀ N ∈ Ms, N.key = M.key → N = M) {s : Table κ τ β} {f : Fragment κ τ β} {k : Nat}
    (hs : s M.key = M.held k) (hf : Expected Ms s f) :
    (f = M.fragment k ∧ k < M.chunks.length ∧ step s f M.key = M.held (k + 1) ∧
      accept s f = some ⟨M.tag, M.payload.length, M.upto (k + 1)⟩) ∨
    ((f = M.fragment k → M.chunks.length ≤ k) ∧ step s f M.key = M.held k ∧
      (f.key = M.key → accept s f = none)) := by
  by_cases hkey : f.key = M.key
  · -- a fragment that is dropped leaves its own message as it is
    have hdrop : accept s f = none → step s f M.key = M.held k := by
      intro hacc
      rw [← hkey, step_self, hacc, hkey, hs]
      rfl
    rcases hf with ⟨N, hN, j, hj, rfl⟩ | hstray
    · obtain rfl := hkeys N hN hkey
      by_cases hjk : j = k
      · subst hjk
        have hacc := Message.accept_next hs (Message.first_or_pos hM j)
        refine Or.inl ⟨rfl, hj, ?_, hacc⟩
        rw [← hkey, step_self, hacc]
        simp [Message.held]
      · have hacc := Message.accept_other hM hs hj hjk
        refine Or.inr ⟨fun he => ?_, hdrop hacc, fun _ => hacc⟩
        have hoff : (N.upto j).length = (N.upto k).length := congrArg Fragment.offset he
        by_contra hlt
        rcases Nat.lt_or_gt_of_ne hjk with h | h
        · exact absurd hoff (Nat.ne_of_lt (Message.upto_lt hM h hj))
        · exact absurd hoff.symm (Nat.ne_of_lt (Message.upto_lt hM h (by omega)))
    · have hacc := accept_stray hstray
      refine Or.inr ⟨?_, hdrop hacc, fun _ => hacc⟩
      rintro rfl
      exact absurd hacc (by rw [Message.accept_next hs (Message.first_or_pos hM k)]; simp)
  · refine Or.inr ⟨fun he => absurd (congrArg Fragment.key he) hkey, ?_, fun h => absurd h hkey⟩
    rw [step_other _ _ _ (Ne.symm hkey), hs]

/-- A message with `k` pieces in, whose other pieces all come in order among
the events of a run, is delivered once in that run, and whole. -/
theorem delivered_once {Ms : List (Message κ τ β)} {M : Message κ τ β} (hM : M.Proper)
    (hkeys : ∀ N ∈ Ms, N.key = M.key → N = M) {s : Table κ τ β} {fs : List (Fragment κ τ β)}
    {k : Nat} (hs : s M.key = M.held k) (hk : k ≤ M.chunks.length)
    (hf : Along step (Expected Ms) s fs) (hin : (M.stream k).Sublist fs) :
    (deliveries s fs).filter (fun d => d.1 = M.key) =
        (if k < M.chunks.length then [(M.key, ⟨M.tag, M.payload.length, M.payload⟩)] else []) ∧
      run step s fs M.key = M.held M.chunks.length := by
  induction fs generalizing s k with
  | nil =>
    have hend : M.chunks.length ≤ k := by
      by_contra hlt
      rw [M.stream_cons (by omega)] at hin
      exact absurd hin (by simp)
    obtain rfl := Nat.le_antisymm hk hend
    simp [deliveries, hs]
  | cons f fs ih =>
    obtain ⟨hfe, hrest⟩ := hf
    simp only [deliveries, List.filter_append, run_cons]
    rcases held_step hM hkeys hs hfe with ⟨rfl, hlt, hnext, hacc⟩ | ⟨hother, hsame, hacc⟩
    · have hin' : (M.stream (k + 1)).Sublist fs := by
        rw [M.stream_cons hlt] at hin
        exact List.cons_sublist_cons.mp hin
      obtain ⟨hdel, hrun⟩ := ih hnext hlt hrest hin'
      refine ⟨?_, hrun⟩
      rw [hdel, Message.delivers_next hM hlt hacc]
      by_cases hlast : k + 1 = M.chunks.length
      · simp [hlast, hlt]
      · have hlt' : k + 1 < M.chunks.length := by omega
        simp [hlast, hlt, hlt']
    · have hin' : (M.stream k).Sublist fs := by
        rcases Nat.lt_or_ge k M.chunks.length with hlt | hge
        · rw [M.stream_cons hlt] at hin ⊢
          rcases List.sublist_cons_iff.mp hin with h | ⟨r, hr, -⟩
          · exact h
          · exact absurd (hother (List.cons.inj hr).1.symm) (by omega)
        · simp [M.stream_end hge]
      obtain ⟨hdel, hrun⟩ := ih hsame hk hrest hin'
      refine ⟨?_, hrun⟩
      rw [hdel]
      by_cases hkey : f.key = M.key
      · simp [delivers, hacc hkey]
      · cases hd : delivers s f <;> simp [hkey]

end assembly
