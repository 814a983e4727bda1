-- The law of sessions: fragments find their message by serial and offset, and
-- the opcode and the session of a message are those of its first fragment.
import Gwdonu.OamAssembly

namespace gwdonu.oam

open assembly runs

section
variable (ntohs : UInt16 → UInt16)

/-- The frames among the events, in order. -/
def framesOf (es : List OamEvent) : List Mem :=
  es.filterMap fun
    | .receive _ m => some m
    | _ => none

/-- The frames that made a message. -/
structure MadeFrom (ms : List Mem) (p : GWTT_OAM_MESSAGE_NODE) : Prop where
  accepted : ∀ m ∈ ms, Accepted m ∧ serialOf m = p.SendSerNo
  opened : ∃ m rest, ms = m :: rest ∧ offsetOf ntohs m = 0 ∧
    (GWTT_OAM_HEADER.load m).opCode = p.GwOpcode ∧
    (GWTT_OAM_HEADER.load m).sessionId = p.SessionID ∧ wholeOf ntohs m = p.WholePktLen ∧
    ∀ x ∈ rest, offsetOf ntohs x ≠ 0
  bytes : p.payload = ms.flatMap (dataOf ntohs)

/-! ## Where the bytes of a table come from -/

/-- A message in the table is made of frames that came in. -/
def MadeIn (ms : List Mem) (key : UInt32) (q : Partial Tag UInt8) : Prop :=
  ∃ used : List Mem, used.Sublist ms ∧ (∀ m ∈ used, Accepted m) ∧
    MadeOf (used.map (fragmentOf ntohs)) key q

/-- The list stands for a table of messages that are made of these frames. -/
def Sourced (st : Oam) (ms : List Mem) : Prop :=
  ∃ s, Refines st s ∧ ∀ key q, s key = some q → MadeIn ntohs ms key q

theorem madeIn_mono {ms ms' : List Mem} (h : ms.Sublist ms') {key : UInt32} {q : Partial Tag UInt8}
    (hq : MadeIn ntohs ms key q) : MadeIn ntohs ms' key q := by
  obtain ⟨used, hsub, hacc, hmade⟩ := hq
  exact ⟨used, hsub.trans h, hacc, hmade⟩

/-- A message that takes the fragment of a frame is made of that frame too. -/
theorem madeIn_accept {s : Table UInt32 Tag UInt8} {ms : List Mem}
    (hs : ∀ key q, s key = some q → MadeIn ntohs ms key q) {m : Mem} (hm : Accepted m)
    {q : Partial Tag UInt8} (hacc : accept s (fragmentOf ntohs m) = some q) :
    MadeIn ntohs (ms ++ [m]) (serialOf m) q := by
  rcases made_accept hacc with hnew | ⟨r, hr, hext⟩
  · exact ⟨[m], List.sublist_append_right _ _, by simpa using hm, hnew⟩
  · obtain ⟨used, hsub, hused, hmade⟩ := hs _ r hr
    refine ⟨used ++ [m], hsub.append (List.Sublist.refl _), ?_, ?_⟩
    · intro x hx
      rcases List.mem_append.mp hx with hx | hx
      · exact hused x hx
      · exact List.mem_singleton.mp hx ▸ hm
    · rw [List.map_append]
      exact hext _ hmade

/-- Nodes that go take their messages with them, and leave the others. -/
theorem sourced_drop {st st' : Oam} {ms : List Mem} (h : Sourced ntohs st ms)
    (hdrop : ∀ key, GwOamMessageListGetNode st' key = none ∨
      GwOamMessageListGetNode st' key = GwOamMessageListGetNode st key) :
    Sourced ntohs st' ms := by
  obtain ⟨s, hr, hs⟩ := h
  refine ⟨fun key => if GwOamMessageListGetNode st' key = none then none else s key, ?_, ?_⟩
  · intro key
    dsimp only
    split
    · rename_i hnone
      rw [hnone]
      exact .none
    · rename_i hsome
      rw [(hdrop key).resolve_left hsome]
      exact hr key
  · intro key q hq
    dsimp only at hq
    split at hq
    · simp at hq
    · exact hs key q hq

theorem getNode_free_or {st : Oam} (h : st.Wf) {a : Nat} (ha : a < st.next) (key : UInt32) :
    GwOamMessageListGetNode (GwOamMessageListNodeFree st a) key = none ∨
      GwOamMessageListGetNode (GwOamMessageListNodeFree st a) key =
        GwOamMessageListGetNode st key := by
  cases hp : GwOamMessageListGetNode (GwOamMessageListNodeFree st a) key with
  | none => exact Or.inl rfl
  | some p =>
    have hmem := (getNode_iff (wf_free h ha)).mp hp
    exact Or.inr ((getNode_iff h).mpr ⟨((mem_rem h).mp hmem.1).1, hmem.2⟩).symm

theorem sourced_event {st : Oam} (h : st.Wf) {ms : List Mem} (hs : Sourced ntohs st ms)
    (e : OamEvent) : Sourced ntohs (st.event ntohs e) (ms ++ framesOf [e]) := by
  cases e with
  | receive mal m =>
    change Sourced ntohs (CommOnuMsgReveive ntohs mal st m).state (ms ++ [m])
    obtain ⟨s, hr, hmade⟩ := hs
    have hsub : ms.Sublist (ms ++ [m]) := List.sublist_append_left _ _
    by_cases hseen : Seen ntohs mal m
    · refine ⟨_, (receive_seen ntohs h hr hseen).1, ?_⟩
      intro key q hq
      by_cases hkey : key = (fragmentOf ntohs m).key
      · subst hkey
        rw [step_self] at hq
        cases hacc : accept s (fragmentOf ntohs m) with
        | none =>
          rw [hacc] at hq
          exact madeIn_mono ntohs hsub (hmade _ q hq)
        | some r =>
          rw [hacc] at hq
          obtain rfl : r = q := Option.some.inj hq
          exact madeIn_accept ntohs hmade hseen.1 hacc
      · rw [step_other _ _ _ hkey] at hq
        exact madeIn_mono ntohs hsub (hmade key q hq)
    · rw [(receive_unseen ntohs hseen _).1]
      exact ⟨s, hr, fun key q hq => madeIn_mono ntohs hsub (hmade key q hq)⟩
  | timeout data junk =>
    simp only [framesOf, List.filterMap_cons, List.filterMap_nil, List.append_nil]
    change Sourced ntohs (OamMessageRecevTimeOut st data junk) ms
    unfold OamMessageRecevTimeOut
    dsimp only
    split
    · exact hs
    · rename_i p hp
      exact sourced_drop ntohs hs (getNode_free_or h (h.fresh p (getNode_mem hp).1))
  | free a =>
    simp only [framesOf, List.filterMap_cons, List.filterMap_nil, List.append_nil]
    change Sourced ntohs (if a < st.next then GwOamMessageListNodeFree st a else st) ms
    split
    · rename_i ha
      exact sourced_drop ntohs hs (getNode_free_or h ha)
    · exact hs

theorem sourced_run (es : List OamEvent) :
    Sourced ntohs (run (Oam.event ntohs) Oam.init es) (framesOf es) := by
  induction es using List.reverseRecOn with
  | nil => exact ⟨fun _ => none, fun _ => .none, nofun⟩
  | append_singleton es e ih =>
    have hframes : framesOf (es ++ [e]) = framesOf es ++ framesOf [e] := List.filterMap_append
    rw [run_append, hframes]
    exact sourced_event ntohs (wf_run ntohs es) ih e

/-! ## The law -/

/-- Whatever came before, a delivered message is the payload of frames with its
serial number, in order, the first of them with its opcode and its session. -/
theorem a_message_is_made_of_frames_of_its_serial (es : List OamEvent) (mal : Malloc) (m : Mem)
    (p : GWTT_OAM_MESSAGE_NODE)
    (hp : (CommOnuMsgReveive ntohs mal (run (Oam.event ntohs) Oam.init es) m).delivered = some p) :
    ∃ ms, ms.Sublist (framesOf es ++ [m]) ∧ MadeFrom ntohs ms p := by
  obtain ⟨s, hr, hmade⟩ := sourced_run ntohs es
  by_cases hseen : Seen ntohs mal m
  · have hdel := (receive_seen ntohs (wf_run ntohs es) hr hseen).2
    rw [hp] at hdel
    cases hd : delivers s (fragmentOf ntohs m) with
    | none => rw [hd] at hdel; cases hdel
    | some q =>
      rw [hd] at hdel
      cases hdel with
      | some hpq =>
        have hacc : accept s (fragmentOf ntohs m) = some q := (Option.filter_eq_some_iff.mp hd).1
        obtain ⟨used, hsub, hused, hof⟩ := madeIn_accept ntohs hmade hseen.1 hacc
        refine ⟨used, hsub, ?_, ?_, ?_⟩
        · intro x hx
          exact ⟨hused x hx, (hof.keys _ (List.mem_map_of_mem hx)).trans hpq.serial.symm⟩
        · obtain ⟨f, rest, hf, hoff, htag, hwhole, hrest⟩ := hof.opened
          obtain ⟨x, xs, rfl, rfl, rfl⟩ := List.map_eq_cons_iff.mp hf
          have htag' := htag.trans hpq.abstracts.tag
          refine ⟨x, xs, rfl, hoff, congrArg Prod.fst htag', congrArg Prod.snd htag',
            hwhole.trans hpq.abstracts.whole, ?_⟩
          exact fun y hy => hrest _ (List.mem_map_of_mem hy)
        · rw [hpq.abstracts.bytes (Nat.le_of_eq hpq.whole), hof.data, List.flatMap_map]
          rfl
  · rw [(receive_unseen ntohs hseen _).2] at hp
    simp at hp

/-- Every byte of the message is a byte of a frame with its session and its opcode. -/
def Isolated (ms : List Mem) (p : GWTT_OAM_MESSAGE_NODE) : Prop :=
  ∀ b ∈ p.payload, ∃ m ∈ ms, (GWTT_OAM_HEADER.load m).sessionId = p.SessionID ∧
    (GWTT_OAM_HEADER.load m).opCode = p.GwOpcode ∧ b ∈ dataOf ntohs m

instance (ms : List Mem) (p : GWTT_OAM_MESSAGE_NODE) : Decidable (Isolated ntohs ms p) :=
  inferInstanceAs (Decidable (∀ b ∈ p.payload, ∃ m ∈ ms, _))

end

/-! ## Two senders with one serial -/

/-- The first half of a message of session 0. -/
def firstHalf : Mem := oamFrame CLI_REQ_TRANSMIT 9 4 0 (Vector.replicate 8 0) [0x65, 0x78]

/-- The second half of a message of session 1, with another opcode. -/
def otherHalf : Mem := oamFrame EQU_DEVICE_INFO_REQ 9 4 2 (Vector.replicate 8 1) [0x69, 0x74]

/-- What the receiver makes of the two. -/
def crossedNode : GWTT_OAM_MESSAGE_NODE where
  addr := 1
  GwOpcode := CLI_REQ_TRANSMIT
  SendSerNo := 9
  WholePktLen := 4
  RevPktLen := 4
  SessionID := Vector.replicate 8 0
  TimerID := 2
  pPayLoad := some [0x65, 0x78, 0x69, 0x74, 0]

theorem the_crossed_message_has_frames_of_its_serial :
    ∃ ms, ms.Sublist (framesOf [.receive plenty firstHalf] ++ [otherHalf]) ∧
      MadeFrom gwd_htons ms crossedNode :=
  a_message_is_made_of_frames_of_its_serial gwd_htons [.receive plenty firstHalf] plenty otherHalf
    crossedNode (by decide +kernel)

theorem a_message_can_hold_bytes_of_another_session :
    ¬ ∀ p, (CommOnuMsgReveive gwd_htons plenty
        (run (Oam.event gwd_htons) Oam.init [.receive plenty firstHalf]) otherHalf).delivered =
          some p → Isolated gwd_htons (framesOf [.receive plenty firstHalf] ++ [otherHalf]) p := by
  intro h
  exact absurd (h crossedNode (by decide +kernel)) (by decide +kernel)

end gwdonu.oam
