-- What the results of the receiver say of the message list: which frames are put into it
-- under a result that says that nothing was done.
import Gwdonu.OamBounds

namespace gwdonu.oam

/-! ## The law -/

section
variable (ntohs : UInt16 → UInt16)

/-- The frame is put into a message that has not all its bytes yet. -/
def StoresPart (mal : Malloc) (st : Oam) (m : Mem) : Prop :=
  (Opens ntohs mal st m ∧ lengthOf ntohs m < wholeOf ntohs m) ∨
    ∃ p, Extends ntohs st m p ∧ p.RevPktLen + lengthOf ntohs m < p.WholePktLen

/-- Any result but the two that say that the frame is taken leaves the list, its nodes and the
timers; and a part of a message is taken as one. -/
structure Truthful (mal : Malloc) (st : Oam) (m : Mem) : Prop where
  refused : (CommOnuMsgReveive ntohs mal st m).ret ≠ .OAM_MESSAGE_RECEV_OK →
    (CommOnuMsgReveive ntohs mal st m).ret ≠ .OAM_MESSAGE_RECEV_NOT_COMPLETE →
    (CommOnuMsgReveive ntohs mal st m).state.list = st.list ∧
      (CommOnuMsgReveive ntohs mal st m).state.timers = st.timers
  part : StoresPart ntohs mal st m → (CommOnuMsgReveive ntohs mal st m).ret = .OAM_MESSAGE_RECEV_NOT_COMPLETE

/-- The frame starts a message that it does not hold the whole of. -/
def OpensPart (mal : Malloc) (st : Oam) (m : Mem) : Prop :=
  Opens ntohs mal st m ∧ wholeOf ntohs m ≠ lengthOf ntohs m

instance (mal : Malloc) (st : Oam) (m : Mem) : Decidable (OpensPart ntohs mal st m) :=
  inferInstanceAs (Decidable (_ ∧ _))

/-! ## The ways through the receiver -/

variable {ntohs} {mal : Malloc} {st : Oam} {m : Mem} {p q : GWTT_OAM_MESSAGE_NODE}

theorem not_opens_extends (ho : Opens ntohs mal st m) (he : Extends ntohs st m p) : False :=
  he.offset ho.offset

theorem extends_unique (hp : Extends ntohs st m p) (hq : Extends ntohs st m q) : p = q :=
  Option.some.inj (hp.known.symm.trans hq.known)

/-- A frame that is the whole of its message, or the last fragment, stores no part. -/
theorem whole_stores_no_part (ho : Opens ntohs mal st m) (hwhole : wholeOf ntohs m = lengthOf ntohs m) :
    ¬ StoresPart ntohs mal st m := by
  rintro (⟨-, hlt⟩ | ⟨p, he, -⟩)
  · exact absurd hwhole (Nat.ne_of_gt hlt)
  · exact not_opens_extends ho he

theorem last_stores_no_part (he : Extends ntohs st m p) (hlast : p.RevPktLen + lengthOf ntohs m = p.WholePktLen) :
    ¬ StoresPart ntohs mal st m := by
  rintro (⟨ho, -⟩ | ⟨q, hq, hlt⟩)
  · exact not_opens_extends ho he
  · obtain rfl := extends_unique he hq
    exact absurd hlast (Nat.ne_of_lt hlt)

theorem add_list (mal : Malloc) (st : Oam) (data : Nat) : (gw_timer_add mal st data).1.list = st.list := by
  unfold gw_timer_add
  split <;> rfl

end

/-- The results tell the truth of every list and every frame, but for the frame that starts a
message of several: it is put into the list, and the result says that it is not. -/
theorem a_result_is_true_unless_a_part_opens_a_message (ntohs : UInt16 → UInt16) (mal : Malloc) (st : Oam) (m : Mem) :
    Truthful ntohs mal st m ↔ ¬ OpensPart ntohs mal st m := by
  have hr := receives ntohs mal st m
  constructor
  · rintro ⟨hrefused, -⟩ ⟨ho, hpart⟩
    generalize CommOnuMsgReveive ntohs mal st m = r at hr hrefused
    cases hr with
    | refused _ _ _ hno => exact hno ho
    | whole _ hwhole => exact hpart hwhole
    | first st' handle _ _ hadd =>
      obtain ⟨hlist, -⟩ := hrefused nofun nofun
      have hold := add_list mal { st with next := st.next + 1 } st.next
      rw [hadd] at hold
      change firstNode ntohs m st.next handle :: st'.list = st.list at hlist
      rw [hold] at hlist
      exact List.cons_ne_self _ _ hlist
    | last p he => exact not_opens_extends ho he
    | middle p he => exact not_opens_extends ho he
  · intro hno
    suffices h : ∀ r, Receives ntohs mal st m r → (r.ret ≠ .OAM_MESSAGE_RECEV_OK →
        r.ret ≠ .OAM_MESSAGE_RECEV_NOT_COMPLETE → r.state.list = st.list ∧ r.state.timers = st.timers) ∧
        (StoresPart ntohs mal st m → r.ret = .OAM_MESSAGE_RECEV_NOT_COMPLETE) from
      ⟨(h _ hr).1, (h _ hr).2⟩
    intro r hr
    cases hr with
    | refused ret _ _ hopen hext =>
      refine ⟨fun _ _ => ⟨rfl, rfl⟩, ?_⟩
      rintro (⟨ho, -⟩ | ⟨p, he, -⟩)
      · exact absurd ho hopen
      · exact absurd he (hext p)
    | whole ho hwhole =>
      exact ⟨fun hret => absurd rfl hret, fun hpart => absurd hpart (whole_stores_no_part ho hwhole)⟩
    | first st' handle ho hpart => exact absurd ⟨ho, hpart⟩ hno
    | last p he hlast =>
      exact ⟨fun hret => absurd rfl hret, fun hpart => absurd hpart (last_stores_no_part he hlast)⟩
    | middle p he => exact ⟨fun _ hret => absurd rfl hret, fun _ => rfl⟩

/-- The first of two frames: it holds 4 bytes of 8. -/
def openingFrame : Mem :=
  memory ((GWTT_OAM_HEADER.toBytes
    { std_hdr := Vector.replicate 18 0, oui := GwOUI, opCode := CLI_REQ_TRANSMIT, senderSerNo := 7
      wholePktLen := gwd_htons 8, payloadOffset := 0, payLoadLength := gwd_htons 4
      sessionId := Vector.replicate 8 0 }) ++ [0x73, 0x68, 0x6f, 0x77])

/-- It makes a node and a timer, and is called an error. -/
theorem an_opening_frame_is_called_an_error : ¬ Truthful gwd_htons plenty Oam.init openingFrame := by
  intro h
  exact absurd (h.refused (by decide +kernel) (by decide +kernel)).1 (by decide +kernel)

end gwdonu.oam
