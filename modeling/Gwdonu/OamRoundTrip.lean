-- The law of the round trip: the frames of a send, received in order, deliver
-- the payload that was sent, with the last frame and not before.
import Gwdonu.OamSend

namespace gwdonu.oam

open assembly runs

section
variable (ntohs : UInt16 → UInt16)

/-! ## Frames on the other side -/

/-- The receiver has the frame in memory, and memory for the node. -/
def Brings (f : Malloc × Mem) (frame : List UInt8) : Prop :=
  f.1.node = true ∧ f.1.payload = true ∧ Holds f.2 0 frame

/-- A frame of a send carries its piece to the receiver. -/
theorem packs_carries (hntohs : ∀ x, ntohs (gwd_htons x) = x) {avender : GWTT_OAM_HEADER}
    {op : UInt8} {ser : UInt32} {n : UInt16} {sid : Vector UInt8 8} {frame : List UInt8}
    {f : Fragment UInt32 Tag UInt8} {m : Mem} (ha : Announces avender op ser n sid)
    (hop : GwOamRecevOpcodeCheck op = .OAM_MESSAGE_RECEV_OPCODE_OK) (hp : Packs avender frame f)
    (hm : Holds m 0 frame) (hf : f.key = ser ∧ f.tag = (op, sid) ∧ f.whole = n.toNat) :
    Carries ntohs m f := by
  obtain ⟨hoff, hlen, rfl⟩ := hp
  have hload := load_toBytes ((holds_append m 0 _ _).mp hm).1
  refine ⟨?_, ?_⟩
  · unfold Accepted
    rw [hload]
    exact ⟨ha.oui, by rw [ha.opCode]; exact hop⟩
  · rw [fragmentOf_header ntohs hntohs hm ha.wholePktLen rfl rfl hlen]
    have hoff' : (UInt16.ofNat f.offset).toNat = f.offset := by
      simp only [UInt16.toNat_ofNat']
      omega
    obtain ⟨hkey, htag, hwhole⟩ := hf
    simp only [hoff', ha.senderSerNo, ha.opCode, ha.sessionId, ← hkey, ← htag, ← hwhole]

/-- All fragments of a stream carry the key, the tag and the length of their message. -/
theorem mem_stream {κ τ β : Type*} {M : Message κ τ β} {k : Nat} {f : Fragment κ τ β}
    (h : f ∈ M.stream k) : f.key = M.key ∧ f.tag = M.tag ∧ f.whole = M.payload.length := by
  obtain ⟨j, -, rfl⟩ := List.mem_map.mp h
  exact ⟨rfl, rfl, rfl⟩

theorem fragments_eq {fs : List (Malloc × Mem)} {l : List (Fragment UInt32 Tag UInt8)}
    (h : List.Forall₂ (fun f g => (f.1.node = true ∧ f.1.payload = true) ∧ Carries ntohs f.2 g)
      fs l) : fragments ntohs fs = l := by
  induction h with
  | nil => rfl
  | @cons f g fs l hf _ ih =>
    have hseen : Seen ntohs f.1 f.2 := ⟨hf.2.1, fun _ => ⟨hf.1.1, Or.inr hf.1.2⟩⟩
    rw [fragments_cons, if_pos hseen, ih, hf.2.2]

theorem brings_carries (hntohs : ∀ x, ntohs (gwd_htons x) = x) {avender : GWTT_OAM_HEADER}
    {op : UInt8} {ser : UInt32} {n : UInt16} {sid : Vector UInt8 8}
    (ha : Announces avender op ser n sid)
    (hop : GwOamRecevOpcodeCheck op = .OAM_MESSAGE_RECEV_OPCODE_OK) {fs : List (Malloc × Mem)}
    {frames : List (List UInt8)} {l : List (Fragment UInt32 Tag UInt8)}
    (hfs : List.Forall₂ Brings fs frames) (hpacks : List.Forall₂ (Packs avender) frames l)
    (hl : ∀ f ∈ l, f.key = ser ∧ f.tag = (op, sid) ∧ f.whole = n.toNat) :
    List.Forall₂ (fun f g => (f.1.node = true ∧ f.1.payload = true) ∧ Carries ntohs f.2 g) fs l := by
  induction hfs generalizing l with
  | nil =>
    cases hpacks
    exact .nil
  | cons hb _ ih =>
    cases hpacks with
    | cons hp hps =>
      have hf := hl _ List.mem_cons_self
      refine .cons ⟨⟨hb.1, hb.2.1⟩, packs_carries ntohs hntohs ha hop hp hb.2.2 hf⟩ (ih hps ?_)
      exact fun f hf => hl f (List.mem_cons_of_mem _ hf)

/-! ## The calls -/

theorem calls_append (st : Oam) (fs gs : List (Malloc × Mem)) :
    calls ntohs st (fs ++ gs) = calls ntohs st fs ++ calls ntohs (run (Oam.receive ntohs) st fs) gs := by
  induction fs generalizing st with
  | nil => rfl
  | cons f fs ih => simp only [List.cons_append, calls, ih, run_cons]

/-- A call that says OK delivers a message. -/
theorem ok_delivers {mal : Malloc} {st : Oam} {m : Mem}
    (hok : (CommOnuMsgReveive ntohs mal st m).ret = .OAM_MESSAGE_RECEV_OK) :
    (CommOnuMsgReveive ntohs mal st m).delivered ≠ none := by
  have hc := receives ntohs mal st m
  generalize CommOnuMsgReveive ntohs mal st m = r at hc hok
  cases hc with
  | refused ret hne => exact absurd hok hne
  | whole => simp [Received.delivered]
  | first => simp at hok
  | last => simp [Received.delivered]
  | middle => simp at hok

/-- Frames that deliver nothing are answered with something else than OK. -/
theorem silent_calls {st : Oam} {fs : List (Malloc × Mem)} (h : deliveredBy ntohs st fs = []) :
    ∀ r ∈ calls ntohs st fs, r.ret ≠ .OAM_MESSAGE_RECEV_OK := by
  induction fs generalizing st with
  | nil => simp [calls]
  | cons f fs ih =>
    rw [deliveredBy_cons, List.append_eq_nil_iff] at h
    intro r hr
    rcases List.mem_cons.mp hr with rfl | hr
    · intro hok
      exact ok_delivers ntohs hok (by simpa using h.1)
    · exact ih h.2 r hr

/-- The frames of a message, in order and with memory for the node, deliver it
with the last frame. -/
theorem stream_received {M : Message UInt32 Tag UInt8} (hM : M.Proper ∨ M.chunks.length = 1)
    {st : Oam} (h : st.Wf) (hnew : GwOamMessageListGetNode st M.key = none)
    {fs : List (Malloc × Mem)}
    (hfs : List.Forall₂ (fun f g => (f.1.node = true ∧ f.1.payload = true) ∧ Carries ntohs f.2 g)
      fs (M.stream 0)) :
    ∃ rs r p, calls ntohs st fs = rs ++ [r] ∧ (∀ x ∈ rs, x.ret ≠ .OAM_MESSAGE_RECEV_OK) ∧
      r.ret = .OAM_MESSAGE_RECEV_OK ∧ r.ppMessage = some p ∧
      Delivers p (M.key, ⟨M.tag, M.payload.length, M.payload⟩) := by
  obtain ⟨s, hr⟩ := exists_refines h
  have hnone : s M.key = none := (refines_none hr).mp hnew
  obtain ⟨k, hk⟩ : ∃ k, M.chunks.length = k + 1 := by
    rcases hM with hp | hone
    · exact ⟨M.chunks.length - 1, by have := hp.some_chunk; omega⟩
    · exact ⟨0, hone⟩
  -- the last frame apart from the others
  have hstream : M.stream 0 = (M.stream 0).take k ++ [M.fragment k] := by
    rw [← stream_take M (by omega), List.take_of_length_le]
    simp [Message.stream, hk]
  rw [hstream] at hfs
  obtain ⟨pre, last, hpre, hlast, rfl⟩ : ∃ pre last, List.Forall₂ _ pre ((M.stream 0).take k) ∧
      List.Forall₂ _ last [M.fragment k] ∧ fs = pre ++ last :=
    ⟨_, _, List.forall₂_take_append _ _ _ hfs, List.forall₂_drop_append _ _ _ hfs,
      (List.take_append_drop _ _).symm⟩
  obtain ⟨hrun, hdel⟩ := calls_refine ntohs h hr pre
  rw [fragments_eq ntohs hpre] at hrun hdel
  rw [stream_silent hM hnone (by omega)] at hdel
  cases hlast with
  | @cons f _ _ _ hf hnil =>
    cases hnil
    have hw : (run (Oam.receive ntohs) st pre).Wf :=
      run_inv (I := Oam.Wf) (P := fun _ _ => True) (fun _ f h _ => wf_receive ntohs h f.1 f.2) h
        (along_true _ _)
    have hseen : Seen ntohs f.1 f.2 := ⟨hf.2.1, fun _ => ⟨hf.1.1, Or.inr hf.1.2⟩⟩
    have hrel := (receive_seen ntohs hw hrun hseen).2
    rw [hf.2.2, stream_delivers hM hnone (by omega), if_pos hk.symm] at hrel
    have hserial : serialOf f.2 = M.key := congrArg Fragment.key hf.2.2
    rw [hserial] at hrel
    cases hd : (CommOnuMsgReveive ntohs f.1 (run (Oam.receive ntohs) st pre) f.2).delivered with
    | none => rw [hd] at hrel; cases hrel
    | some p =>
      rw [hd] at hrel
      cases hrel with
      | some hp =>
        refine ⟨calls ntohs st pre, _, p, calls_append ntohs st pre [f], ?_, ?_, ?_, hp⟩
        · exact silent_calls ntohs (List.forall₂_nil_right_iff.mp hdel)
        · by_contra hne
          simp [Received.delivered, hne] at hd
        · by_contra hne
          unfold Received.delivered at hd
          split at hd
          · exact hne hd
          · simp at hd

/-! ## The law -/

/-- A payload of any length that fits comes out of the receiver as it went into
the sender: the last frame delivers it, and no frame before. -/
theorem a_payload_sent_in_order_arrives_with_the_last_frame
    (hntohs : ∀ x, ntohs (gwd_htons x) = x) (built : List UInt8) (op : UInt8) (ser : UInt32)
    (data : Mem) {n : UInt16} (sid : Vector UInt8 8)
    (hn : n.toNat ≤ OAM_DATA_LEN - GWTT_OAM_HEADER.size)
    (hsend : GwOamSendOpcodeCheck op = .OAM_MESSAGE_RECEV_OPCODE_OK)
    (hrecv : GwOamRecevOpcodeCheck op = .OAM_MESSAGE_RECEV_OPCODE_OK) {st : Oam} (h : st.Wf)
    (hnew : GwOamMessageListGetNode st ser = none) {fs : List (Malloc × Mem)}
    (hfs : List.Forall₂ Brings fs (CommOnuMsgSend built op ser data n (some sid)).1) :
    (CommOnuMsgSend built op ser data n (some sid)).2 = .GWD_RETURN_OK ∧
      ∃ rs r p, calls ntohs st fs = rs ++ [r] ∧ (∀ x ∈ rs, x.ret ≠ .OAM_MESSAGE_RECEV_OK) ∧
        r.ret = .OAM_MESSAGE_RECEV_OK ∧ r.ppMessage = some p ∧ p.GwOpcode = op ∧
        p.SendSerNo = ser ∧ p.SessionID = sid ∧ p.RevPktLen = n.toNat ∧
        p.WholePktLen = n.toNat ∧ p.payload = bytes data 0 n.toNat := by
  obtain ⟨hret, avender, hann, hpacks⟩ := send_packs built ser data sid hn hsend
  have hpayload := sentMessage_payload op ser data n.toNat sid
  have hcarry := brings_carries ntohs hntohs hann hrecv hfs hpacks (by
    intro f hf
    obtain ⟨hkey, htag, hwhole⟩ := mem_stream hf
    exact ⟨hkey, htag, by simp [hwhole, hpayload]⟩)
  obtain ⟨rs, r, p, hcalls, hrs, hok, hpp, hd⟩ :=
    stream_received ntohs (sentMessage_proper op ser data n.toNat sid) h hnew hcarry
  have htag := hd.abstracts.tag
  have hwhole : p.WholePktLen = n.toNat := by
    simp [← hd.abstracts.whole, hpayload]
  refine ⟨hret, rs, r, p, hcalls, hrs, hok, hpp, (congrArg Prod.fst htag).symm, hd.serial,
    (congrArg Prod.snd htag).symm, hd.whole.trans hwhole, hwhole, ?_⟩
  rw [hd.abstracts.bytes (Nat.le_of_eq hd.whole)]
  exact hpayload

end

/-- A hundred bytes, so two frames. -/
def countingFrames : List (Malloc × Mem) :=
  (CommOnuMsgSend [] FILE_TRANSFER_DATA 1 (fun i => .ofNat i) 100 (some (Vector.replicate 8 0))).1.map
    (fun frame => (plenty, memory frame))

theorem a_hundred_bytes_arrive :
    ∃ rs r p, calls gwd_htons Oam.init countingFrames = rs ++ [r] ∧
      (∀ x ∈ rs, x.ret ≠ .OAM_MESSAGE_RECEV_OK) ∧ r.ppMessage = some p ∧
      p.payload = bytes (fun i => .ofNat i) 0 100 := by
  have hbrings : List.Forall₂ Brings countingFrames (CommOnuMsgSend [] FILE_TRANSFER_DATA 1
      (fun i => .ofNat i) 100 (some (Vector.replicate 8 0))).1 :=
    List.forall₂_map_left_iff.mpr (List.forall₂_same.mpr
      (fun frame _ => ⟨rfl, rfl, holds_memory frame⟩))
  obtain ⟨-, rs, r, p, hcalls, hrs, -, hpp, -, -, -, -, -, hbytes⟩ :=
    a_payload_sent_in_order_arrives_with_the_last_frame gwd_htons gwd_htons_twice []
      FILE_TRANSFER_DATA 1 (fun i => .ofNat i) (n := 100) (Vector.replicate 8 0)
      (by decide) rfl rfl wf_init rfl hbrings
  exact ⟨rs, r, p, hcalls, hrs, hpp, hbytes⟩

end gwdonu.oam
