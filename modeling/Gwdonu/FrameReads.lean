-- What the parsers and the handlers of frames read of a frame. A frame has a length, and
-- each parser tests it in its own way.
import Gwdonu.Lib.Reading
import Gwdonu.OamBounds
import Gwdonu.PktMain

namespace gwdonu.frame_reads

open reading oam
open pkt_main (GW_PKT_OAM GW_PKT_LPB GW_PKT_RCP GW_PKT_MAX)

/-! ## The program -/

/-- The macro of `gw_types.h`, with `__BIG_ENDIAN__`. -/
def ntohs (x : UInt16) : UInt16 := x

def EPON_ETHERTYPE_DOT1Q : UInt16 := 0x8100
def ETH_TYPE_LOOP_DETECT : UInt16 := 0x0800
def LOOP_DETECT_CHECK : UInt16 := 0x0080
def ETH_TYPE_RRCP : UInt16 := 0x8899

def byte (m : Mem) (i : Nat) : Reading UInt8 := readAt i 1 (m i)

def short (m : Mem) (i : Nat) : Reading UInt16 := readAt i 2 (load16 m i)

def array (m : Mem) (i n : Nat) : Reading (List UInt8) := readAt i n (bytes m i n)

/-- `gw_oam_parser`. -/
def gw_oam_parse (pkt : Mem) (len : Nat) : Reading Int32 :=
  if len < GWTT_OAM_HEADER.size then pure GW_PKT_MAX
  else do
    let type ← short pkt 12
    let hdr := if type = ntohs 0x8100 then 4 else 0
    let type ← short pkt (hdr + 12)
    if type = ntohs 0x8809 then do
      let oui ← array pkt (hdr + 18) 3
      pure (if oui = GwOUI.toList then GW_PKT_OAM else GW_PKT_MAX)
    else pure GW_PKT_MAX

def gw_loopbackFrameParser (frame : Mem) (len : Nat) : Reading Int32 :=
  if len = 0 then pure GW_PKT_MAX
  else do
    let ether_type ← short frame 12
    let pd := if ntohs ether_type = EPON_ETHERTYPE_DOT1Q then 16 else 12
    let Ethtype ← short frame pd
    if Ethtype = ntohs ETH_TYPE_LOOP_DETECT then do
      let LoopFlag ← short frame (pd + 2)
      pure (if LoopFlag = ntohs LOOP_DETECT_CHECK then GW_PKT_LPB else GW_PKT_MAX)
    else pure GW_PKT_MAX

def gw_rcppktparser (pkt : Mem) (len : Nat) : Reading Int32 :=
  if 18 < len then do
    let type ← short pkt 12
    let eth_type ← short pkt (if ntohs type = 0x8100 then 16 else 12)
    pure (if ntohs eth_type = ETH_TYPE_RRCP then GW_PKT_RCP else GW_PKT_MAX)
  else pure GW_PKT_MAX

/-- `gw_pkt_parser_call` with the three parsers that the program registers. -/
def gw_pkt_parser_call (pkt : Mem) (len : Nat) : Reading Int32 := do
  let ret ← gw_oam_parse pkt len
  if ret ≠ GW_PKT_MAX then pure ret
  else do
    let ret ← gw_loopbackFrameParser pkt len
    if ret ≠ GW_PKT_MAX then pure ret
    else gw_rcppktparser pkt len

/-- The bytes that `memmove(pkt + 12, pkt + 16, n)` leaves. -/
def closeTag (pkt : Mem) (n : Nat) : Mem := fun i => if 12 ≤ i ∧ i < 12 + n then pkt (i + 4) else pkt i

/-- `rlen - n`, as the unsigned word that it is passed as. -/
def minus (rlen n : Nat) : Nat := if n ≤ rlen then rlen - n else 2 ^ 32 - (n - rlen)

/-- What `Gwd_Oam_Handle` reads: the header, when it has tested the length, and what the
receiver copies. -/
def handledReads (h : Handled) : List Extent :=
  match h.received with
  | none => []
  | some r =>
    ⟨0, GWTT_OAM_HEADER.size⟩ :: (r.payloadCopies ++ r.sessionCopies).map fun c => ⟨c.src, c.len⟩

def handleOam (mal : HandleMalloc) (st : Onu) (portid : Nat) (pkt : Mem) (len : Nat) : Reading Handled :=
  let h := Gwd_Oam_Handle ntohs mal st portid (some pkt) len
  ⟨h, handledReads h⟩

def gw_oam_handler (mal : HandleMalloc) (st : Onu) (pkt : Mem) (len portid : Nat) : Reading Handled := do
  let type ← short pkt 12
  if type = ntohs 0x8100 then do
    let n := minus len 16
    let pkt ← readAt 16 n (closeTag pkt n)
    handleOam mal st portid pkt (minus len 4)
  else handleOam mal st portid pkt len

/-- The fields of a loop-detect frame, and the source of the frame. -/
structure LoopData where
  SrcMac : List UInt8
  OltType : UInt8
  OnuType : UInt8
  OnuLocation : List UInt8
  Onumac : List UInt8
  Onuifindex : UInt32
  deriving DecidableEq

/-- Whether the two bytes behind the addresses are those of a tag; the second one is read only
after a match of the first. -/
def tagBytes (packet : Mem) : Reading Bool := do
  let b ← byte packet 12
  if b = 0x81 then do
    let c ← byte packet 13
    pure (c = 0x00)
  else pure false

/-- What the frame says, if it gets as far as the port. -/
def lpbDetectRevPacketHandle (gulLoopIgnorePort : Nat → Bool) (packet : Mem) (port : Nat) :
    Reading (Option LoopData) := do
  let SrcMac ← array packet 6 6
  let tag ← tagBytes packet
  let rev := if tag then 16 else 12
  let LoopFlag ← short packet (rev + 2)
  if ntohs LoopFlag ≠ LOOP_DETECT_CHECK then pure none
  else if gulLoopIgnorePort port then pure none
  else do
    let OltType ← byte packet (rev + 4)
    let OnuType ← byte packet (rev + 5)
    let OnuLocation ← array packet (rev + 6) 4
    let Onumac ← array packet (rev + 10) 6
    let Onuifindex ← readAt (rev + 18) 4 (load32 packet (rev + 18))
    pure (some ⟨SrcMac, OltType, OnuType, OnuLocation, Onumac, Onuifindex⟩)

/-- The VLAN of the frame. -/
def vidOf (frame : Mem) (ether_type : UInt16) : Reading UInt16 :=
  if ntohs ether_type = EPON_ETHERTYPE_DOT1Q then do
    let vlan ← short frame 14
    pure (ntohs vlan &&& 0x0FFF)
  else pure 1

/-- The VLAN of the frame, and what it says. -/
def loopbackFrameRevHandle (gulLoopIgnorePort : Nat → Bool) (portid len : Nat) (frame : Mem) :
    Reading (Option (UInt16 × Option LoopData)) :=
  if len = 0 then pure none
  else do
    let ether_type ← short frame 12
    let vid ← vidOf frame ether_type
    let data ← lpbDetectRevPacketHandle gulLoopIgnorePort frame portid
    pure (some (vid, data))

/-! ## The law -/

section
variable (gulLoopIgnorePort : Nat → Bool) (mal : HandleMalloc) (st : Onu) (portid : Nat) (m : Mem) (len : Nat)

/-- No parser and no handler reads a byte from `len` on. -/
structure StaysInside : Prop where
  oam_parse : (gw_oam_parse m len).Inside len
  loop_parse : (gw_loopbackFrameParser m len).Inside len
  rcp_parse : (gw_rcppktparser m len).Inside len
  oam_handler : (gw_oam_handler mal st m len portid).Inside len
  loop_handler : (gw_pkt_parser_call m len).value = GW_PKT_LPB →
    (loopbackFrameRevHandle gulLoopIgnorePort portid len m).Inside len

/-- The frame has a VLAN tag. -/
def Tagged : Prop := load16 m 12 = 0x8100

instance : Decidable (Tagged m) := inferInstanceAs (Decidable (_ = _))

/-- Where the type of the frame stands. -/
def typeAt : Nat := if Tagged m then 16 else 12

/-- The frame is marked as one of loop detection. -/
def Looped : Prop := load16 m (typeAt m) = ETH_TYPE_LOOP_DETECT ∧ load16 m (typeAt m + 2) = LOOP_DETECT_CHECK

instance : Decidable (Looped m) := inferInstanceAs (Decidable (_ ∧ _))

/-- What `Gwd_Oam_Handle` gets of the frame. -/
def untagged : Mem := if Tagged m then closeTag m (minus len 16) else m

def untaggedLen : Nat := if Tagged m then minus len 4 else len

/-- The frame is long enough for what its bytes say of it. -/
structure LongEnough : Prop where
  type : typeAt m + 2 ≤ len
  flag : load16 m (typeAt m) = ETH_TYPE_LOOP_DETECT → typeAt m + 4 ≤ len
  data : Looped m → gulLoopIgnorePort portid = false → typeAt m + 22 ≤ len
  payload : ∀ m', passed portid (some (untagged m len)) (untaggedLen m len) = some m' →
    Stores ntohs mal.toMalloc st.messages m' → GWTT_OAM_HEADER.size + lengthOf ntohs m' ≤ len

variable {gulLoopIgnorePort : Nat → Bool} {mal : HandleMalloc} {st : Onu} {portid : Nat} {m : Mem} {len : Nat}

/-! ## The parsers -/

theorem short_bind {α : Type} (i : Nat) (f : UInt16 → Reading α) :
    (short m i >>= f).Inside len ↔ i + 2 ≤ len ∧ (f (load16 m i)).Inside len := by
  rw [short, inside_readAt_bind]
  simp

theorem byte_bind {α : Type} (i : Nat) (f : UInt8 → Reading α) :
    (byte m i >>= f).Inside len ↔ i + 1 ≤ len ∧ (f (m i)).Inside len := by
  rw [byte, inside_readAt_bind]
  simp

theorem array_bind {α : Type} (i n : Nat) (f : List UInt8 → Reading α) :
    (array m i n >>= f).Inside len ↔ (n = 0 ∨ i + n ≤ len) ∧ (f (bytes m i n)).Inside len :=
  inside_readAt_bind ..

theorem short_value {α : Type} (i : Nat) (f : UInt16 → Reading α) :
    (short m i >>= f).value = (f (load16 m i)).value := rfl

theorem byte_value {α : Type} (i : Nat) (f : UInt8 → Reading α) : (byte m i >>= f).value = (f (m i)).value := rfl

theorem array_value {α : Type} (i n : Nat) (f : List UInt8 → Reading α) :
    (array m i n >>= f).value = (f (bytes m i n)).value := rfl

theorem typeAt_cases (m : Mem) : (Tagged m ∧ typeAt m = 16) ∨ (¬ Tagged m ∧ typeAt m = 12) := by
  unfold typeAt
  split_ifs with h
  · exact Or.inl ⟨h, rfl⟩
  · exact Or.inr ⟨h, rfl⟩

/-- The OAM parser asks for a whole header first. -/
theorem oam_parser_inside (m : Mem) (len : Nat) : (gw_oam_parse m len).Inside len := by
  unfold gw_oam_parse
  split_ifs with hlen
  · exact inside_pure _
  rw [GWTT_OAM_HEADER.size] at hlen
  rw [short_bind]
  dsimp only
  have hhdr : (if load16 m 12 = ntohs 33024 then 4 else 0) ≤ 4 := by split_ifs <;> omega
  generalize (if load16 m 12 = ntohs 33024 then 4 else 0) = hdr at hhdr
  rw [short_bind]
  refine ⟨by omega, by omega, ?_⟩
  split_ifs
  · rw [array_bind]
    exact ⟨by omega, inside_pure _⟩
  · exact inside_pure _

theorem rcp_parser_inside (m : Mem) (len : Nat) : (gw_rcppktparser m len).Inside len := by
  unfold gw_rcppktparser
  split_ifs with hlen
  · rw [short_bind, short_bind]
    refine ⟨by omega, ?_, inside_pure _⟩
    split_ifs <;> omega
  · exact inside_pure _

/-- The loop-detect parser asks only for a frame that is not empty. -/
theorem loop_parser_inside (m : Mem) (len : Nat) : (gw_loopbackFrameParser m len).Inside len ↔
    len = 0 ∨ (typeAt m + 2 ≤ len ∧ (load16 m (typeAt m) = ETH_TYPE_LOOP_DETECT → typeAt m + 4 ≤ len)) := by
  have hat : (if ntohs (load16 m 12) = EPON_ETHERTYPE_DOT1Q then 16 else 12) = typeAt m := rfl
  unfold gw_loopbackFrameParser
  split_ifs with hlen
  · simp [hlen]
  rw [short_bind, hat]
  dsimp only
  rw [short_bind]
  have htype : 12 ≤ typeAt m := by rcases typeAt_cases m with ⟨-, h⟩ | ⟨-, h⟩ <;> omega
  by_cases hflag : load16 m (typeAt m) = ETH_TYPE_LOOP_DETECT
  · rw [if_pos (show load16 m (typeAt m) = ntohs ETH_TYPE_LOOP_DETECT from hflag), short_bind]
    simp only [inside_pure, hflag, true_implies, and_true]
    omega
  · rw [if_neg (show ¬ load16 m (typeAt m) = ntohs ETH_TYPE_LOOP_DETECT from hflag)]
    simp only [inside_pure, hflag, false_implies, and_true]
    omega

/-! ## Which frames are of loop detection -/

theorem oam_parser_value (m : Mem) (len : Nat) : (gw_oam_parse m len).value = GW_PKT_MAX ∨
    ((gw_oam_parse m len).value = GW_PKT_OAM ∧ load16 m (typeAt m) = 0x8809) := by
  have hat : (if load16 m 12 = ntohs 0x8100 then 4 else 0) + 12 = typeAt m := by
    by_cases htag : load16 m 12 = ntohs 0x8100
    · rw [if_pos htag, typeAt, if_pos (show Tagged m from htag)]
    · rw [if_neg htag, typeAt, if_neg (show ¬ Tagged m from htag)]
  unfold gw_oam_parse
  split_ifs with hlen
  · exact Or.inl rfl
  rw [short_value]
  dsimp only
  rw [hat, short_value]
  by_cases htype : load16 m (typeAt m) = ntohs 0x8809
  · rw [if_pos htype, array_value, value_pure]
    by_cases houi : bytes m ((if load16 m 12 = ntohs 0x8100 then 4 else 0) + 18) 3 = GwOUI.toList
    · rw [if_pos houi]
      exact Or.inr ⟨rfl, htype⟩
    · rw [if_neg houi]
      exact Or.inl rfl
  · rw [if_neg htype]
    exact Or.inl rfl

theorem loop_parser_value (m : Mem) (len : Nat) :
    (gw_loopbackFrameParser m len).value = if len ≠ 0 ∧ Looped m then GW_PKT_LPB else GW_PKT_MAX := by
  unfold gw_loopbackFrameParser
  by_cases hlen : len = 0
  · rw [if_pos hlen, if_neg fun h => h.1 hlen]
    rfl
  have hat : (if ntohs (load16 m 12) = EPON_ETHERTYPE_DOT1Q then 16 else 12) = typeAt m := rfl
  rw [if_neg hlen, short_value, hat]
  dsimp only
  rw [short_value]
  by_cases htype : load16 m (typeAt m) = ntohs ETH_TYPE_LOOP_DETECT
  · rw [if_pos htype, short_value, value_pure]
    by_cases hflag : load16 m (typeAt m + 2) = ntohs LOOP_DETECT_CHECK
    · rw [if_pos hflag, if_pos ⟨hlen, htype, hflag⟩]
    · rw [if_neg hflag, if_neg fun h => hflag h.2.2]
  · rw [if_neg htype, if_neg fun h => htype h.2.1]
    rfl

theorem rcp_parser_value (m : Mem) (len : Nat) : (gw_rcppktparser m len).value ≠ GW_PKT_LPB := by
  unfold gw_rcppktparser
  split_ifs
  · rw [value_bind, value_bind, value_pure]
    split_ifs <;> decide
  · exact (by decide : GW_PKT_MAX ≠ GW_PKT_LPB)

theorem parser_call_loop (m : Mem) (len : Nat) :
    (gw_pkt_parser_call m len).value = GW_PKT_LPB ↔ len ≠ 0 ∧ Looped m := by
  rw [gw_pkt_parser_call, value_bind]
  rcases oam_parser_value m len with hmax | ⟨hoam, htype⟩
  · rw [hmax, if_neg (by simp), value_bind, loop_parser_value]
    by_cases hloop : len ≠ 0 ∧ Looped m
    · rw [if_pos hloop, if_pos (by decide)]
      exact iff_of_true rfl hloop
    · rw [if_neg hloop, if_neg (by simp)]
      exact iff_of_false (rcp_parser_value m len) hloop
  · rw [hoam, if_pos (by decide)]
    refine iff_of_false (by rw [value_pure]; decide) ?_
    rintro ⟨-, hloop, -⟩
    rw [htype] at hloop
    exact absurd hloop (by decide)

/-! ## The handlers -/

theorem tagged_iff (m : Mem) : Tagged m ↔ m 12 = 0x81 ∧ m 13 = 0x00 := by
  have hhigh := (m 12).toNat_lt
  have hlow := (m 13).toNat_lt
  rw [Tagged, load16, ← UInt16.toNat_inj, ← UInt8.toNat_inj, ← UInt8.toNat_inj, UInt16.toNat_ofNat']
  change ((m 12).toNat * 256 + (m 13).toNat) % 2 ^ 16 = 33024 ↔ (m 12).toNat = 129 ∧ (m 13).toNat = 0
  omega

theorem tagBytes_value (m : Mem) : (tagBytes m).value = decide (Tagged m) := by
  rw [tagBytes, byte_value]
  by_cases hfirst : m 12 = 0x81
  · rw [if_pos hfirst, byte_value]
    simp [tagged_iff, hfirst]
  · rw [if_neg hfirst]
    simp [tagged_iff, hfirst]

theorem tagBytes_inside (m : Mem) (h : 14 ≤ len) : (tagBytes m).Inside len := by
  rw [tagBytes, byte_bind]
  refine ⟨by omega, ?_⟩
  split_ifs
  · rw [byte_bind]
    exact ⟨h, inside_pure _⟩
  · exact inside_pure _

theorem rev_inside (gulLoopIgnorePort : Nat → Bool) (portid : Nat) (hm : Looped m) (hlen : typeAt m + 4 ≤ len) :
    (lpbDetectRevPacketHandle gulLoopIgnorePort m portid).Inside len ↔
      (gulLoopIgnorePort portid = false → typeAt m + 22 ≤ len) := by
  have htype : 12 ≤ typeAt m := by rcases typeAt_cases m with ⟨-, h⟩ | ⟨-, h⟩ <;> omega
  have hat : (if decide (Tagged m) = true then 16 else 12) = typeAt m := by
    unfold typeAt
    simp
  have hflag : ¬ ntohs (load16 m (typeAt m + 2)) ≠ LOOP_DETECT_CHECK := not_not_intro hm.2
  rw [lpbDetectRevPacketHandle, array_bind, inside_bind, tagBytes_value]
  dsimp only
  rw [hat, short_bind, if_neg hflag]
  have hhead : (6 = 0 ∨ 6 + 6 ≤ len) ∧ (tagBytes m).Inside len ∧ typeAt m + 2 + 2 ≤ len :=
    ⟨by omega, tagBytes_inside m (by omega), by omega⟩
  cases hport : gulLoopIgnorePort portid with
  | true =>
    rw [if_pos rfl]
    exact iff_of_true ⟨hhead.1, hhead.2.1, hhead.2.2, inside_pure _⟩ nofun
  | false =>
    rw [if_neg Bool.false_ne_true]
    simp only [byte_bind, array_bind, inside_readAt_bind, inside_pure, and_true, true_and, true_implies, hhead,
      OfNat.ofNat_ne_zero, false_or]
    omega

theorem loop_handler_inside (gulLoopIgnorePort : Nat → Bool) (portid : Nat) (hm : Looped m)
    (htype : typeAt m + 4 ≤ len) :
    (loopbackFrameRevHandle gulLoopIgnorePort portid len m).Inside len ↔
      (gulLoopIgnorePort portid = false → typeAt m + 22 ≤ len) := by
  have hlen : ¬ len = 0 := by omega
  have hvid : (vidOf m (load16 m 12)).Inside len := by
    unfold vidOf
    split_ifs with htag
    · rw [short_bind]
      refine ⟨?_, inside_pure _⟩
      rcases typeAt_cases m with ⟨-, h⟩ | ⟨h, -⟩
      · omega
      · exact absurd htag h
    · exact inside_pure _
  have hshort : 12 + 2 ≤ len := by rcases typeAt_cases m with ⟨-, h⟩ | ⟨-, h⟩ <;> omega
  rw [loopbackFrameRevHandle, if_neg hlen, short_bind, inside_bind, inside_bind, ← rev_inside _ _ hm htype]
  simp [hshort, hvid]

theorem extent_inside (c : Copy) (len : Nat) : (Extent.mk c.src c.len).Inside len ↔ c.ReadsInside len := by
  unfold Extent.Inside Copy.ReadsInside
  dsimp only
  constructor
  · rintro (h | h) k hk <;> omega
  · intro h
    rcases Nat.eq_zero_or_pos c.len with hzero | hpos
    · exact Or.inl hzero
    · have hlast := h (c.len - 1) (by omega)
      exact Or.inr (by omega)

/-- What is copied of a frame lies inside just when the payload of a stored frame does. -/
theorem handleOam_inside (mal : HandleMalloc) (st : Onu) (portid : Nat) (m : Mem) (n : Nat)
    (hlen : GWTT_OAM_HEADER.size ≤ n → GWTT_OAM_HEADER.size ≤ len) :
    (handleOam mal st portid m n).Inside len ↔
      ∀ m', passed portid (some m) n = some m' → Stores ntohs mal.toMalloc st.messages m' →
        GWTT_OAM_HEADER.size + lengthOf ntohs m' ≤ len := by
  cases hp : passed portid (some m) n with
  | none =>
    have hnone : handleOam mal st portid m n = ⟨⟨st, none⟩, []⟩ := by
      simp only [handleOam, handle_stopped ntohs hp]
      rfl
    rw [hnone]
    exact iff_of_true nofun nofun
  | some m' =>
    have hsize := hlen (passed_len hp)
    have hreads := receive_reads_inside ntohs mal.toMalloc st.messages m' hsize
    have hcopies : (handleOam mal st portid m n).Inside len ↔
        ReadsInside (CommOnuMsgReveive ntohs mal.toMalloc st.messages m') len := by
      rw [handleOam, handle_passed ntohs hp]
      simp only [Reading.Inside, handledReads, ReadsInside, List.forall_mem_cons, List.forall_mem_map]
      rw [and_iff_right (show (Extent.mk 0 GWTT_OAM_HEADER.size).Inside len from Or.inr (by simpa using hsize))]
      exact forall₂_congr fun c _ => extent_inside c len
    rw [hcopies, hreads]
    simp

theorem oam_handler_inside (mal : HandleMalloc) (st : Onu) (portid : Nat) (htype : typeAt m + 2 ≤ len) :
    (gw_oam_handler mal st m len portid).Inside len ↔
      ∀ m', passed portid (some (untagged m len)) (untaggedLen m len) = some m' →
        Stores ntohs mal.toMalloc st.messages m' → GWTT_OAM_HEADER.size + lengthOf ntohs m' ≤ len := by
  have hshort : 12 + 2 ≤ len := by rcases typeAt_cases m with ⟨-, h⟩ | ⟨-, h⟩ <;> omega
  rw [gw_oam_handler, short_bind]
  by_cases htag : Tagged m
  · rw [if_pos (show load16 m 12 = ntohs 0x8100 from htag), untagged, untaggedLen, if_pos htag, if_pos htag]
    have hat : typeAt m = 16 := by
      unfold typeAt
      exact if_pos htag
    have hmove : minus len 16 = len - 16 := by
      unfold minus
      exact if_pos (by omega)
    have hrest : minus len 4 = len - 4 := by
      unfold minus
      exact if_pos (by omega)
    dsimp only
    rw [inside_readAt_bind, handleOam_inside _ _ _ _ _ (by omega), hmove]
    have hinside : len - 16 = 0 ∨ 16 + (len - 16) ≤ len := by omega
    simp only [hshort, hinside, true_and]
  · rw [if_neg (show ¬ load16 m 12 = ntohs 0x8100 from htag), untagged, untaggedLen, if_neg htag, if_neg htag,
      handleOam_inside _ _ _ _ _ id]
    exact and_iff_right hshort

theorem loop_data_iff (h : typeAt m + 2 ≤ len)
    (hflag : load16 m (typeAt m) = ETH_TYPE_LOOP_DETECT → typeAt m + 4 ≤ len)
    (gulLoopIgnorePort : Nat → Bool) (portid : Nat) :
    ((gw_pkt_parser_call m len).value = GW_PKT_LPB →
        (loopbackFrameRevHandle gulLoopIgnorePort portid len m).Inside len) ↔
      (Looped m → gulLoopIgnorePort portid = false → typeAt m + 22 ≤ len) := by
  rw [parser_call_loop]
  constructor
  · intro hinside hm
    exact (loop_handler_inside _ _ hm (hflag hm.1)).mp (hinside ⟨by omega, hm⟩)
  · rintro hlong ⟨-, hm⟩
    exact (loop_handler_inside _ _ hm (hflag hm.1)).mpr (hlong hm)

end

/-- No byte from `len` on is read just when the frame is long enough for what its bytes say of it. -/
theorem a_frame_is_read_inside_iff_it_is_long_enough (gulLoopIgnorePort : Nat → Bool) (mal : HandleMalloc)
    (st : Onu) (portid : Nat) (m : Mem) (len : Nat) :
    StaysInside gulLoopIgnorePort mal st portid m len ↔ LongEnough gulLoopIgnorePort mal st portid m len := by
  constructor
  · rintro ⟨-, hloop, -, hoam, hdata⟩
    have hshort : 12 + 2 ≤ len := by
      rw [gw_oam_handler, short_bind] at hoam
      exact hoam.1
    obtain ⟨htype, hflag⟩ := ((loop_parser_inside m len).mp hloop).resolve_left (by omega)
    exact ⟨htype, hflag, (loop_data_iff htype hflag _ _).mp hdata, (oam_handler_inside mal st portid htype).mp hoam⟩
  · rintro ⟨htype, hflag, hdata, hpayload⟩
    exact ⟨oam_parser_inside m len, (loop_parser_inside m len).mpr (Or.inr ⟨htype, hflag⟩), rcp_parser_inside m len,
      (oam_handler_inside mal st portid htype).mpr hpayload, (loop_data_iff htype hflag _ _).mpr hdata⟩

/-- A frame of one byte: the loop-detect parser reads its type behind its end. -/
theorem a_short_frame_is_read_behind_its_end :
    ¬ StaysInside (fun _ => false) ⟨plenty, true⟩ Onu.init 1 (memory [0x00]) 1 := by
  rintro ⟨-, hloop, -, -, -⟩
  exact absurd hloop (by decide)

end gwdonu.frame_reads
