-- The sender of OAM messages: `CommOnuMsgSend` builds one header, and cuts the
-- payload into the frames that it hands to the port.
import Gwdonu.OamAssembly

namespace gwdonu.oam

open assembly

/-! ## The program -/

def OAM_OVERHEAD_LEN_STD : UInt16 := 22
def OAM_OVERHEAD_LEN_GW : UInt16 := 22
def GWD_OAM_PKT_LENGTH : UInt16 := 128

/-- What the callers see of a send. -/
inductive SendResult where
  | GWD_RETURN_OK
  | GWD_RETURN_ERR
  | OAM_MESSAGE_SEND_ERROR
  deriving DecidableEq

/-- `built` is what the header builder of the platform wrote, and `pHead` starts
as zeros. Its other fields are set later. -/
def GwCommOamHeadBuild (built : List UInt8) (GwOpcode : UInt8) (SendSerNo : UInt32)
    (SendDataSize : UInt16) (pSessionIdfield : Option (Vector UInt8 8)) : Option GWTT_OAM_HEADER :=
  let pHead := GWTT_OAM_HEADER.load (memory built)
  match pSessionIdfield with
  | none => none
  | some sessionId =>
    if GwOamSendOpcodeCheck GwOpcode = .OAM_MESSAGE_RECEV_OPCODE_ERR then none
    else
      -- the vendor id is set byte by byte, to the bytes of `GwOUI`
      some { pHead with
        oui := GwOUI, opCode := GwOpcode, senderSerNo := SendSerNo
        wholePktLen := gwd_htons SendDataSize, sessionId }

/-- `Gwd_OAM_get_length_negotiation` and what it leaves for the payload. -/
def usOAMPayloadLenGW : UInt16 := GWD_OAM_PKT_LENGTH - OAM_OVERHEAD_LEN_STD - OAM_OVERHEAD_LEN_GW

/-- The bytes that go to the port: the header, and `len` bytes of the payload. -/
def packet (avender : GWTT_OAM_HEADER) (pSentData : Mem) (offset len : UInt16) : List UInt8 :=
  { avender with payLoadLength := gwd_htons len, payloadOffset := gwd_htons offset }.toBytes ++
    bytes pSentData offset.toNat len.toNat

/-- The `while` of `CommOnuMsgSend`: the full frames, and how far they got. -/
def sendFull (avender : GWTT_OAM_HEADER) (pSentData : Mem) (SendDataSize DataLenSended : UInt16) :
    List (List UInt8) × UInt16 :=
  if usOAMPayloadLenGW.toNat + DataLenSended.toNat < SendDataSize.toNat then
    let rest := sendFull avender pSentData SendDataSize (DataLenSended + usOAMPayloadLenGW)
    (packet avender pSentData DataLenSended usOAMPayloadLenGW :: rest.1, rest.2)
  else ([], DataLenSended)
termination_by SendDataSize.toNat - DataLenSended.toNat
decreasing_by
  rename_i h
  have hsize := SendDataSize.toNat_lt
  have hchunk : usOAMPayloadLenGW.toNat = 84 := rfl
  simp only [UInt16.toNat_add, hchunk] at h ⊢
  omega

/-- The frames that went to the port, and the result. -/
def CommOnuMsgSend (built : List UInt8) (GwOpcode : UInt8) (SendSerNo : UInt32) (pSentData : Mem)
    (SendDataSize : UInt16) (pSessionIdfield : Option (Vector UInt8 8)) :
    List (List UInt8) × SendResult :=
  if OAM_DATA_LEN - GWTT_OAM_HEADER.size < SendDataSize.toNat then ([], .GWD_RETURN_ERR)
  else
    match GwCommOamHeadBuild built GwOpcode SendSerNo SendDataSize pSessionIdfield with
    | none => ([], .OAM_MESSAGE_SEND_ERROR)
    | some avender =>
      if usOAMPayloadLenGW < SendDataSize then
        let full := sendFull avender pSentData SendDataSize 0
        (full.1 ++ [packet avender pSentData full.2 (SendDataSize - full.2)], .GWD_RETURN_OK)
      else ([packet avender pSentData 0 SendDataSize], .GWD_RETURN_OK)

/-! ## The pieces of a payload -/

/-- The bytes of a payload from `off` on, in the pieces that the sender makes. -/
def pieces (data : Mem) (n off : Nat) : List (List UInt8) :=
  if 84 + off < n then bytes data off 84 :: pieces data n (off + 84) else [bytes data off (n - off)]
termination_by n - off

theorem pieces_flatten (data : Mem) {n off : Nat} (h : off ≤ n) :
    (pieces data n off).flatten = bytes data off (n - off) := by
  induction off using pieces.induct n with
  | case1 off hmore ih =>
    rw [pieces, if_pos hmore, List.flatten_cons, ih (by omega), ← bytes_add]
    congr 1
    omega
  | case2 off hlast =>
    rw [pieces, if_neg hlast]
    simp

theorem pieces_nonempty (data : Mem) {n off : Nat} (h : off < n) :
    ∀ c ∈ pieces data n off, c ≠ [] := by
  induction off using pieces.induct n with
  | case1 off hmore ih =>
    rw [pieces, if_pos hmore]
    intro c hc
    rcases List.mem_cons.mp hc with rfl | hc
    · exact List.ne_nil_of_length_pos (by simp)
    · exact ih (by omega) c hc
  | case2 off hlast =>
    rw [pieces, if_neg hlast]
    intro c hc
    obtain rfl := List.mem_singleton.mp hc
    exact List.ne_nil_of_length_pos (by simp; omega)

/-- The message that a send cuts up. -/
def sentMessage (GwOpcode : UInt8) (SendSerNo : UInt32) (data : Mem) (n : Nat)
    (sessionId : Vector UInt8 8) : Message UInt32 Tag UInt8 :=
  ⟨SendSerNo, (GwOpcode, sessionId), pieces data n 0⟩

theorem sentMessage_payload (op : UInt8) (ser : UInt32) (data : Mem) (n : Nat)
    (sid : Vector UInt8 8) : (sentMessage op ser data n sid).payload = bytes data 0 n :=
  pieces_flatten data (Nat.zero_le n)

theorem sentMessage_proper (op : UInt8) (ser : UInt32) (data : Mem) (n : Nat)
    (sid : Vector UInt8 8) :
    (sentMessage op ser data n sid).Proper ∨ (sentMessage op ser data n sid).chunks.length = 1 := by
  by_cases hn : 84 + 0 < n
  · refine Or.inl ⟨?_, pieces_nonempty data (by omega)⟩
    change 0 < (pieces data n 0).length
    rw [pieces, if_pos hn]
    exact Nat.succ_pos _
  · right
    change (pieces data n 0).length = 1
    rw [pieces, if_neg hn]
    rfl

/-! ## The frames of a send -/

/-- The frame has the header `avender` and the place and bytes of the fragment. -/
def Packs (avender : GWTT_OAM_HEADER) (frame : List UInt8) (f : Fragment UInt32 Tag UInt8) : Prop :=
  f.offset < 65536 ∧ f.data.length < 65536 ∧
    frame = { avender with
      payLoadLength := gwd_htons (.ofNat f.data.length)
      payloadOffset := gwd_htons (.ofNat f.offset) }.toBytes ++ f.data

theorem packet_packs (avender : GWTT_OAM_HEADER) (data : Mem) (offset len : UInt16)
    (key : UInt32) (tag : Tag) (whole : Nat) :
    Packs avender (packet avender data offset len)
      ⟨key, tag, whole, offset.toNat, bytes data offset.toNat len.toNat⟩ := by
  refine ⟨offset.toNat_lt, by simpa using len.toNat_lt, ?_⟩
  simp [packet]

/-- The loop and the frame after it go through the pieces that are left. -/
theorem sendFull_packs (avender : GWTT_OAM_HEADER) (data : Mem) (n : UInt16)
    (M : Message UInt32 Tag UInt8) (off : UInt16) (h : off.toNat ≤ n.toNat) :
    List.Forall₂ (Packs avender)
      ((sendFull avender data n off).1 ++
        [packet avender data (sendFull avender data n off).2 (n - (sendFull avender data n off).2)])
      (M.fragmentsFrom off.toNat (pieces data n.toNat off.toNat)) := by
  induction off using sendFull.induct avender data n with
  | case1 off hmore ih =>
    have hchunk : usOAMPayloadLenGW.toNat = 84 := rfl
    have hsize := n.toNat_lt
    rw [hchunk] at hmore
    have hnext : (off + usOAMPayloadLenGW).toNat = off.toNat + 84 := by
      rw [UInt16.toNat_add, hchunk]
      omega
    have hrest := ih (by omega)
    rw [sendFull, if_pos (by rwa [hchunk]), pieces, if_pos hmore]
    rw [hnext] at hrest
    refine .cons (packet_packs avender data off usOAMPayloadLenGW M.key M.tag M.payload.length) ?_
    simpa using hrest
  | case2 off hlast =>
    have hlen : (n - off).toNat = n.toNat - off.toNat := UInt16.toNat_sub_of_le _ _ (UInt16.le_iff_toNat_le.mpr h)
    have hend : ¬ 84 + off.toNat < n.toNat := hlast
    rw [sendFull, if_neg hlast, pieces, if_neg hend]
    refine .cons ?_ .nil
    rw [← hlen]
    exact packet_packs avender data off (n - off) M.key M.tag M.payload.length

/-- The header of a send, past the part that the platform writes. -/
structure Announces (avender : GWTT_OAM_HEADER) (GwOpcode : UInt8) (SendSerNo : UInt32)
    (n : UInt16) (sessionId : Vector UInt8 8) : Prop where
  oui : avender.oui = GwOUI
  opCode : avender.opCode = GwOpcode
  senderSerNo : avender.senderSerNo = SendSerNo
  wholePktLen : avender.wholePktLen = gwd_htons n
  sessionId : avender.sessionId = sessionId

theorem headBuild_some (built : List UInt8) {op : UInt8} (ser : UInt32) (n : UInt16)
    (sid : Vector UInt8 8) (hop : GwOamSendOpcodeCheck op = .OAM_MESSAGE_RECEV_OPCODE_OK) :
    ∃ avender, GwCommOamHeadBuild built op ser n (some sid) = some avender ∧
      Announces avender op ser n sid := by
  unfold GwCommOamHeadBuild
  simp only [hop, reduceCtorEq, if_false, Option.some.injEq, exists_eq_left']
  exact ⟨rfl, rfl, rfl, rfl, rfl⟩

/-- A send of a payload that fits, with an opcode of the sending side, goes
through, and its frames are the pieces of the payload in order. -/
theorem send_packs (built : List UInt8) {op : UInt8} (ser : UInt32) (data : Mem) {n : UInt16}
    (sid : Vector UInt8 8) (hn : n.toNat ≤ OAM_DATA_LEN - GWTT_OAM_HEADER.size)
    (hop : GwOamSendOpcodeCheck op = .OAM_MESSAGE_RECEV_OPCODE_OK) :
    (CommOnuMsgSend built op ser data n (some sid)).2 = .GWD_RETURN_OK ∧
      ∃ avender, Announces avender op ser n sid ∧
        List.Forall₂ (Packs avender) (CommOnuMsgSend built op ser data n (some sid)).1
          ((sentMessage op ser data n.toNat sid).stream 0) := by
  obtain ⟨avender, hbuild, hannounces⟩ := headBuild_some built ser n sid hop
  have hstream := (sentMessage op ser data n.toNat sid).stream_eq 0
  simp only [Message.upto_zero, List.length_nil, List.drop_zero] at hstream
  have hpacks := sendFull_packs avender data n (sentMessage op ser data n.toNat sid) 0
    (Nat.zero_le _)
  rw [hstream]
  unfold CommOnuMsgSend
  rw [if_neg (Nat.not_lt.mpr hn), hbuild]
  dsimp only
  split
  · exact ⟨rfl, avender, hannounces, hpacks⟩
  · -- a payload of one piece goes the way of a last piece
    rename_i hsmall
    have hloop : ¬ usOAMPayloadLenGW.toNat + (0 : UInt16).toNat < n.toNat := by
      simpa [UInt16.lt_iff_toNat_lt] using hsmall
    rw [sendFull, if_neg hloop] at hpacks
    refine ⟨rfl, avender, hannounces, ?_⟩
    simpa [sentMessage] using hpacks

end gwdonu.oam
