-- The laws of the copies that reassembly makes: which frames write outside the
-- block of a message, and which ones read past the end of the frame.
import Gwdonu.OamHandle

namespace gwdonu.oam

open runs

/-! ## Where the copies go -/

/-- The copy stays in its destination. Nothing may go to `NULL`. -/
def Copy.InBounds (c : Copy) : Prop :=
  match c.size with
  | none => c.len = 0
  | some n => c.dst + c.len ≤ n

instance (c : Copy) : Decidable c.InBounds := by
  unfold Copy.InBounds
  cases c.size <;> infer_instance

/-- No node has more bytes than its message. -/
def Within (st : Oam) : Prop := ∀ p ∈ st.list, p.RevPktLen ≤ p.WholePktLen

instance (st : Oam) : Decidable (Within st) :=
  inferInstanceAs (Decidable (∀ p ∈ st.list, p.RevPktLen ≤ p.WholePktLen))

section
variable (ntohs : UInt16 → UInt16)

/-- The event writes inside the blocks of the messages, and leaves no node
with more bytes than its message. -/
def WritesInside (st : Oam) (e : OamEvent) : Prop :=
  (∀ mal m, e = .receive mal m →
      ∀ c ∈ (CommOnuMsgReveive ntohs mal st m).payloadCopies, c.InBounds) ∧
    Within (st.event ntohs e)

/-- A frame that starts a message announces at least as many bytes as it holds. -/
def OpensInside (st : Oam) (e : OamEvent) : Prop :=
  ∀ mal m, e = .receive mal m → Opens ntohs mal st m → lengthOf ntohs m ≤ wholeOf ntohs m

theorem firstCopy_inside {m : Mem} (h : lengthOf ntohs m ≤ wholeOf ntohs m) :
    (firstCopy ntohs m).InBounds := by
  unfold Copy.InBounds firstCopy
  rw [emptyBlock_length]
  unfold blockLength
  split
  · rename_i hn
    split at hn
    · dsimp only
      omega
    · simp at hn
  · rename_i n hn
    split at hn
    · simp at hn
    · obtain rfl := Option.some.inj hn
      dsimp only
      omega

/-- A later fragment never leaves the block: that path checks the length. -/
theorem nextCopy_inside {st : Oam} (h : st.Wf) {m : Mem} {p : GWTT_OAM_MESSAGE_NODE}
    (he : Extends ntohs st m p) :
    (payloadCopy p (lengthOf ntohs m) p.RevPktLen).InBounds := by
  have hblock := h.block p (getNode_mem he.known).1
  have hroom := he.room
  unfold Copy.InBounds payloadCopy
  dsimp only
  rw [hblock]
  unfold blockLength
  split
  · rename_i hn
    split at hn
    · omega
    · simp at hn
  · rename_i n hn
    split at hn
    · simp at hn
    · obtain rfl := Option.some.inj hn
      omega

theorem within_add {st : Oam} {p : GWTT_OAM_MESSAGE_NODE} :
    Within (GwOamMessageListNodeAdd st p) ↔ p.RevPktLen ≤ p.WholePktLen ∧ Within st := by
  simp [Within, GwOamMessageListNodeAdd]

theorem within_store {st : Oam} (h : Within st) {p : GWTT_OAM_MESSAGE_NODE}
    (hp : p.RevPktLen ≤ p.WholePktLen) : Within (st.store p) := by
  intro q hq
  obtain ⟨r, hr, rfl⟩ := List.mem_map.mp hq
  split
  · exact hp
  · exact h r hr

theorem within_free {st : Oam} (h : Within st) (a : Nat) :
    Within (GwOamMessageListNodeFree st a) :=
  fun p hp => h p (List.eraseP_sublist.subset hp)

theorem within_timeout {st : Oam} (h : Within st) (data : Nat) (junk : UInt32) :
    Within (OamMessageRecevTimeOut st data junk) := by
  unfold OamMessageRecevTimeOut
  dsimp only
  split
  · exact h
  · exact within_free h _

/-- One frame writes inside exactly when it does not open a message with more
bytes than it announces. -/
theorem receive_inside {st : Oam} (hw : st.Wf) (hin : Within st) (mal : Malloc) (m : Mem) :
    ((∀ c ∈ (CommOnuMsgReveive ntohs mal st m).payloadCopies, c.InBounds) ∧
        Within (CommOnuMsgReveive ntohs mal st m).state) ↔
      (Opens ntohs mal st m → lengthOf ntohs m ≤ wholeOf ntohs m) := by
  have hr := receives ntohs mal st m
  generalize CommOnuMsgReveive ntohs mal st m = r at hr
  cases hr with
  | refused ret _ _ hopen _ =>
    exact iff_of_true ⟨by simp [Received.refuse], hin⟩ (fun ho => absurd ho hopen)
  | whole ho hwhole =>
    refine iff_of_true ⟨?_, ?_⟩ (fun _ => Nat.le_of_eq hwhole.symm)
    · simpa using firstCopy_inside ntohs (Nat.le_of_eq hwhole.symm)
    · exact within_add.mpr ⟨Nat.le_of_eq hwhole.symm, hin⟩
  | first st' handle ho hwhole hadd =>
    have hlist : st'.list = st.list := by
      simpa [hadd] using timer_add_list mal { st with next := st.next + 1 } st.next
    refine ⟨?_, ?_⟩
    · rintro ⟨-, h⟩ -
      exact (within_add.mp h).1
    · intro h
      refine ⟨by simpa using firstCopy_inside ntohs (h ho), within_add.mpr ⟨h ho, ?_⟩⟩
      exact fun p hp => hin p (hlist ▸ hp)
  | last p he _ =>
    refine iff_of_true ⟨?_, ?_⟩ (fun ho => absurd ho.offset he.offset)
    · simpa using nextCopy_inside ntohs hw he
    · apply within_store hin
      simpa using he.room
  | middle p he _ =>
    refine iff_of_true ⟨?_, ?_⟩ (fun ho => absurd ho.offset he.offset)
    · simpa using nextCopy_inside ntohs hw he
    · apply within_store (fun q hq => hin q (by simpa using hq))
      simpa using he.room

theorem event_inside {st : Oam} (hw : st.Wf) (hin : Within st) (e : OamEvent) :
    WritesInside ntohs st e ↔ OpensInside ntohs st e := by
  cases e with
  | receive mal m =>
    have h := receive_inside ntohs hw hin mal m
    refine ⟨?_, ?_⟩
    · rintro ⟨hc, hwithin⟩ _ _ he
      cases he
      exact h.mp ⟨hc _ _ rfl, hwithin⟩
    · intro ho
      obtain ⟨hc, hwithin⟩ := h.mpr (ho mal m rfl)
      refine ⟨?_, hwithin⟩
      intro _ _ he
      cases he
      exact hc
  | timeout data junk =>
    exact iff_of_true ⟨nofun, within_timeout hin data junk⟩ nofun
  | free a =>
    refine iff_of_true ⟨nofun, ?_⟩ nofun
    change Within (if a < st.next then GwOamMessageListNodeFree st a else st)
    split
    · exact within_free hin a
    · exact hin

/-- In any run, the copies stay in the blocks of their messages and the nodes
within their messages, exactly as long as each frame that starts a message
announces at least the bytes that it holds. -/
theorem reassembly_writes_inside_when_first_frames_do (es : List OamEvent) :
    Along (Oam.event ntohs) (WritesInside ntohs) Oam.init es ↔
      Along (Oam.event ntohs) (OpensInside ntohs) Oam.init es := by
  refine along_iff_along (I := fun st => st.Wf ∧ Within st) ?_ ?_ ⟨wf_init, nofun⟩ es
  · rintro st e ⟨hw, hin⟩ ho
    exact ⟨wf_event ntohs hw e, ((event_inside ntohs hw hin e).mpr ho).2⟩
  · rintro st e ⟨hw, hin⟩
    exact event_inside ntohs hw hin e

end

/-- Four bytes for a message that is announced as one byte long. -/
def overfullFrame : Mem :=
  oamFrame EQU_DEVICE_INFO_REQ 1 1 0 (Vector.replicate 8 0) [0x61, 0x62, 0x63, 0x64]

theorem an_overfull_first_frame_writes_outside :
    ¬ Along (Oam.event gwd_htons) (WritesInside gwd_htons) Oam.init
      [.receive plenty overfullFrame] := by
  rintro ⟨⟨h, -⟩, -⟩
  exact absurd (h plenty overfullFrame rfl) (by decide +kernel)

/-! ## Which bytes of the frame are read -/

section
variable (ntohs : UInt16 → UInt16)

/-- Every byte of the copy lies before `len`. -/
def Copy.ReadsInside (c : Copy) (len : Nat) : Prop := ∀ k < c.len, c.src + k < len

instance (c : Copy) (len : Nat) : Decidable (c.ReadsInside len) :=
  inferInstanceAs (Decidable (∀ k < c.len, c.src + k < len))

/-- Every copy of the call takes only bytes before `len`. -/
def ReadsInside (r : Received) (len : Nat) : Prop :=
  ∀ c ∈ r.payloadCopies ++ r.sessionCopies, c.ReadsInside len

instance (r : Received) (len : Nat) : Decidable (ReadsInside r len) :=
  inferInstanceAs (Decidable (∀ c ∈ _, Copy.ReadsInside c len))

theorem payload_reads_inside (n d : Nat) (size : Option Nat) {len : Nat}
    (hlen : GWTT_OAM_HEADER.size ≤ len) :
    (Copy.mk GWTT_OAM_HEADER.size n d size).ReadsInside len ↔ GWTT_OAM_HEADER.size + n ≤ len := by
  unfold Copy.ReadsInside
  dsimp only
  refine ⟨?_, ?_⟩
  · intro h
    rcases Nat.eq_zero_or_pos n with rfl | hn
    · exact hlen
    · have := h (n - 1) (by omega)
      omega
  · intro h k hk
    omega

/-- The session id is part of the header. -/
theorem session_reads_inside {len : Nat} (hlen : GWTT_OAM_HEADER.size ≤ len) :
    sessionCopy.ReadsInside len := by
  intro k hk
  simp only [sessionCopy, GWTT_OAM_HEADER.size] at *
  omega

theorem receive_reads_inside (mal : Malloc) (st : Oam) (m : Mem) {len : Nat}
    (hlen : GWTT_OAM_HEADER.size ≤ len) :
    ReadsInside (CommOnuMsgReveive ntohs mal st m) len ↔
      (Stores ntohs mal st m → GWTT_OAM_HEADER.size + lengthOf ntohs m ≤ len) := by
  have hr := receives ntohs mal st m
  generalize CommOnuMsgReveive ntohs mal st m = r at hr
  cases hr with
  | refused ret _ _ hopen hext =>
    apply iff_of_true (by simp [ReadsInside, Received.refuse])
    rintro (ho | ⟨p, he⟩)
    · exact absurd ho hopen
    · exact absurd he (hext p)
  | whole ho _ =>
    simp [ReadsInside, session_reads_inside hlen, firstCopy, payload_reads_inside _ _ _ hlen,
      show Stores ntohs mal st m from Or.inl ho]
  | first st' handle ho _ _ =>
    simp [ReadsInside, session_reads_inside hlen, firstCopy, payload_reads_inside _ _ _ hlen,
      show Stores ntohs mal st m from Or.inl ho]
  | last p he _ =>
    simp [ReadsInside, payloadCopy, payload_reads_inside _ _ _ hlen,
      show Stores ntohs mal st m from Or.inr ⟨p, he⟩]
  | middle p he _ =>
    simp [ReadsInside, payloadCopy, payload_reads_inside _ _ _ hlen,
      show Stores ntohs mal st m from Or.inr ⟨p, he⟩]

/-- A call reads only bytes of the frame exactly when the frame that some
message takes is as long as its header says. -/
theorem a_frame_is_read_inside_when_it_holds_its_payload (mal : HandleMalloc) (st : Onu)
    (port : Nat) (frame : Option Mem) (len : Nat) :
    (∀ r, (Gwd_Oam_Handle ntohs mal st port frame len).received = some r → ReadsInside r len) ↔
      (∀ m, passed port frame len = some m → Stores ntohs mal.toMalloc st.messages m →
        GWTT_OAM_HEADER.size + lengthOf ntohs m ≤ len) := by
  cases hp : passed port frame len with
  | none => simp [handle_stopped ntohs hp]
  | some m =>
    have h := receive_reads_inside ntohs mal.toMalloc st.messages m (passed_len hp)
    simpa [handle_passed ntohs hp] using h

end

/-- A frame of 44 bytes whose header says 100 bytes of payload. -/
def shortFrame : Mem :=
  memory ((GWTT_OAM_HEADER.toBytes
    { std_hdr := Vector.replicate 18 0, oui := GwOUI, opCode := CLI_REQ_TRANSMIT, senderSerNo := 7
      wholePktLen := gwd_htons 100, payloadOffset := 0, payLoadLength := gwd_htons 100
      sessionId := Vector.replicate 8 0 }) ++ [0x73, 0x68, 0x6f, 0x77])

theorem a_short_frame_is_read_past_its_end :
    ¬ ∀ r, (Gwd_Oam_Handle gwd_htons ⟨plenty, true⟩ Onu.init 1 (some shortFrame) 44).received =
      some r → ReadsInside r 44 := by
  intro h
  exact absurd (h _ (congrArg Handled.received (handle_passed gwd_htons rfl _ _)))
    (by decide +kernel)

end gwdonu.oam
