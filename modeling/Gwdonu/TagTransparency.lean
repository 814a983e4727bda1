-- A VLAN tag behind the addresses of a frame. The OAM handler takes the tag out, and the RCP
-- handler puts one into a frame that has none; whether a frame comes to the same with a tag.
import Gwdonu.RcpReceive

namespace gwdonu.tag_transparency

open Function reading oam frame_reads rcp_receive
open pkt_main (GW_PKT_OAM GW_PKT_RCP GW_PKT_MAX)
open rcp (RCP_RET MAX_RRCP_SWITCH_TO_MANAGE RCP_PKT_MAX_LENGTH)
open switch_monitor (gwdOui insertTag sourceMac RCP_MAC_SIZE RCP_HELLO_CHIPID_OFFSET REALTEK_RRCP_HELLO_REPLY)
open switch_records (Record Env RCP_HELLO_PAYLOAD_OFFSET)

/-! ## The law -/

/-- The frame `f'` is `f`, of `len` bytes, with a tag behind the addresses. What lies behind
the two frames is their own. -/
structure TagInserted (f f' : Mem) (len : Nat) : Prop where
  addresses : ∀ i < 12, f' i = f i
  tag : Tagged f'
  rest : ∀ i, 12 ≤ i → i < len → f' (i + 4) = f i

/-- The result of a frame, and the lists behind it. -/
structure Left where
  result : Int32
  rcpDevList : Nat → Option Record
  rcpRegList : List (Option RCP_REG)

def left (r : Option (State × Int32)) : Option Left :=
  r.map fun (s, result) => ⟨result, s.records.rcpDevList, s.rcpRegList⟩

/-- For a whole header, and a payload inside the frame. -/
def OamTransparent (f f' : Mem) (len : Nat) : Prop :=
  GWTT_OAM_HEADER.size ≤ len → GWTT_OAM_HEADER.size + lengthOf ntohs f ≤ len →
    (gw_oam_parse f' (len + 4)).value = (gw_oam_parse f len).value ∧
      ∀ mal st portid, (gw_oam_handler mal st f' (len + 4) portid).value = (gw_oam_handler mal st f len portid).value

def RcpTransparent (s : State) (e : Env) (portid : Nat) (f f' : Mem) (len : Nat) : Prop :=
  19 ≤ len → len + 4 < RCP_PKT_MAX_LENGTH - 4 →
    (gw_rcppktparser f' (len + 4)).value = (gw_rcppktparser f len).value ∧
      left (s.RcpFrameRevHandle e portid (len + 4) f').result = left (s.RcpFrameRevHandle e portid len f).result

/-- A tag makes no difference to a frame without one. -/
structure Transparent (s : State) (e : Env) (portid : Nat) (f : Mem) (len : Nat) : Prop where
  oam : ∀ f', TagInserted f f' len → OamTransparent f f' len
  rcp : ∀ f', TagInserted f f' len → RcpTransparent s e portid f f' len

/-- A hello reply with a known chip does not end as one with an unknown chip. -/
def Tells (s : switch_records.State) (e : Env) (portid : Nat) : Prop :=
  0 < s.semAccessRcpDevList → s.rcpDevList portid = none → e.mal = true

/-- The packet, with its tag, has the bytes that decide what becomes of it. One that ends
between the two bytes of the chip is known to fail if the first byte does. -/
structure TagLongEnough (s : State) (e : Env) (portid : Nat) (m : Mem) (len : Nat) : Prop where
  chip : s.Opens portid m REALTEK_RRCP_HELLO_REPLY → Tells s.records e portid →
    31 ≤ len ∧ (len = 31 → ¬ switch_monitor.Rcp_ChipId_AuthCheck m)
  payload : s.Opens portid m REALTEK_RRCP_HELLO_REPLY → Answers s.records e portid m → 36 ≤ len
  regAddress : s.Opens portid m REALTEK_RRCP_GET_REPLY → ∀ r, s.Keyed portid m r → 0 < s.semAccessRcpRegList →
    ∀ high : UInt8, (s.RCP_RegList_Search r.dev (high.toUInt16 <<< 8 ||| (m 22).toUInt16)).isSome → 24 ≤ len
  regValue : s.Opens portid m REALTEK_RRCP_GET_REPLY → ∀ r, s.Keyed portid m r → s.Awaits m r → 28 ≤ len

section
variable {f f' m m' : Mem} {len portid : Nat} {s : State} {e : Env}

/-! ## Frames -/

theorem inserted_update (h : TagInserted f f' len) (hlen : 12 ≤ len) {k : Nat} (hk : len + 4 ≤ k) (b : UInt8) :
    TagInserted f (update f' k b) len where
  addresses i hi := by
    rw [update_of_ne (by omega)]
    exact h.addresses i hi
  tag := by
    rw [tagged_iff, update_of_ne (by omega), update_of_ne (by omega), ← tagged_iff]
    exact h.tag
  rest i hlow hhigh := by
    rw [update_of_ne (by omega)]
    exact h.rest i hlow hhigh

theorem insertTag_behind (f : Mem) {i : Nat} (hi : 16 ≤ i) (h : len + 4 ≤ i) : insertTag f len i = 0 := by
  unfold insertTag
  rw [if_neg (by omega), if_neg (by omega), if_neg (by omega), if_neg (by omega)]

theorem insertTag_inside (f : Mem) {i : Nat} (hi : 12 ≤ i) (h : i < len) : insertTag f len (i + 4) = f i := by
  unfold insertTag
  rw [if_neg (by omega), if_neg (by omega), if_neg (by omega), if_pos (by omega)]
  rfl

/-- The frame in the buffer is one with a tag. -/
theorem inserted_insertTag (f : Mem) (len : Nat) : TagInserted f (insertTag f len) len where
  addresses _ hi := if_pos hi
  tag := (tagged_iff _).mpr ⟨rfl, rfl⟩
  rest _ hlow hhigh := insertTag_inside f hlow hhigh

/-- A frame with a tag is the one in the buffer, but for the tag and what lies behind it. -/
theorem inserted_agrees (h : TagInserted f f' len) {i : Nat} (hi : i < len + 4) (h14 : i ≠ 14) (h15 : i ≠ 15) :
    f' i = insertTag f len i := by
  have htag := (tagged_iff f').mp h.tag
  rcases Nat.lt_or_ge i 12 with hlow | hlow
  · rw [h.addresses i hlow]
    exact (if_pos hlow).symm
  rcases Nat.lt_or_ge i 16 with hmid | hmid
  · obtain rfl | rfl : i = 12 ∨ i = 13 := by omega
    · exact htag.1
    · exact htag.2
  · obtain ⟨k, rfl⟩ := Nat.exists_eq_add_of_le' hmid
    have hk := h.rest (k + 12) (by omega) (by omega)
    have hk' : insertTag f len (k + 12 + 4) = f (k + 12) := insertTag_inside f (by omega) (by omega)
    exact hk.trans hk'.symm

theorem bytes_congr {i n : Nat} (h : ∀ k < n, m (i + k) = m' (i + k)) : bytes m i n = bytes m' i n :=
  List.map_congr_left fun k hk => h k (List.mem_range.mp hk)

theorem load16_congr {i : Nat} (h : m i = m' i) (h' : m (i + 1) = m' (i + 1)) : load16 m i = load16 m' i := by
  rw [load16, load16, h, h']

/-! ## OAM frames -/

theorem load_congr (h : ∀ i < GWTT_OAM_HEADER.size, m i = m' i) : GWTT_OAM_HEADER.load m = GWTT_OAM_HEADER.load m' := by
  have hfield {i n : Nat} (hn : i + n ≤ GWTT_OAM_HEADER.size) : field m i n = field m' i n := by
    have hbytes : bytes m i n = bytes m' i n := bytes_congr fun k hk => h _ (by omega)
    simp only [field, hbytes]
  have hload32 {i : Nat} (hi : i + 4 ≤ GWTT_OAM_HEADER.size) : load32 m i = load32 m' i := by
    rw [load32, load32, h i (by omega), h (i + 1) (by omega), h (i + 2) (by omega), h (i + 3) (by omega)]
  have hload16 {i : Nat} (hi : i + 2 ≤ GWTT_OAM_HEADER.size) : load16 m i = load16 m' i :=
    load16_congr (h i (by omega)) (h (i + 1) (by omega))
  unfold GWTT_OAM_HEADER.load
  rw [hfield (by decide), hfield (by decide), h 21 (by decide), hload32 (by decide), hload16 (by decide),
    hload16 (by decide), hload16 (by decide), hfield (by decide)]

/-- The receiver reads the header and the payload. -/
theorem receive_congr (mal : Malloc) (st : Oam) (hload : GWTT_OAM_HEADER.load m = GWTT_OAM_HEADER.load m')
    (hdata : dataOf ntohs m = dataOf ntohs m') :
    CommOnuMsgReveive ntohs mal st m = CommOnuMsgReveive ntohs mal st m' := by
  unfold dataOf lengthOf at hdata
  unfold CommOnuMsgReveive
  dsimp only
  rw [hdata, hload]

/-- The handler reads no more than the bytes of the frame, when the payload lies inside. -/
theorem handle_congr (mal : HandleMalloc) (st : Onu) (port : Nat) (h : ∀ i < len, m i = m' i)
    (hpayload : GWTT_OAM_HEADER.size + lengthOf ntohs m ≤ len) :
    Gwd_Oam_Handle ntohs mal st port (some m) len = Gwd_Oam_Handle ntohs mal st port (some m') len := by
  have hload : GWTT_OAM_HEADER.load m = GWTT_OAM_HEADER.load m' := load_congr fun i hi => h i (by omega)
  have hlength : lengthOf ntohs m = lengthOf ntohs m' := by rw [lengthOf, lengthOf, hload]
  have hdata : dataOf ntohs m = dataOf ntohs m' := by
    rw [dataOf, dataOf, ← hlength]
    exact bytes_congr fun k hk => h _ (by omega)
  unfold Gwd_Oam_Handle
  dsimp only
  rw [receive_congr mal.toMalloc st.messages hload hdata]

/-- The tag goes, and the frame is what it was. -/
theorem closeTag_agrees (h : TagInserted f f' len) (hlen : 12 ≤ len) {i : Nat} (hi : i < len) :
    closeTag f' (minus (len + 4) 16) i = f i := by
  have hminus : minus (len + 4) 16 = len - 12 := by
    unfold minus
    rw [if_pos (by omega)]
    omega
  unfold closeTag
  rw [hminus]
  split_ifs with hmoved
  · exact h.rest i hmoved.1 hi
  · exact h.addresses i (by omega)

theorem oam_parse_value (m : Mem) (hlen : GWTT_OAM_HEADER.size ≤ len) :
    (gw_oam_parse m len).value =
      if load16 m (typeAt m) = 0x8809 ∧ bytes m (typeAt m + 6) 3 = GwOUI.toList then GW_PKT_OAM else GW_PKT_MAX := by
  have hat : (if load16 m 12 = ntohs 0x8100 then 4 else 0) + 12 = typeAt m := by
    by_cases htag : Tagged m
    · rw [if_pos (show load16 m 12 = ntohs 0x8100 from htag), typeAt, if_pos htag]
    · rw [if_neg (show ¬ load16 m 12 = ntohs 0x8100 from htag), typeAt, if_neg htag]
  have hoff : (if load16 m 12 = ntohs 0x8100 then 4 else 0) + 18 = typeAt m + 6 := by omega
  rw [gw_oam_parse, if_neg (by omega), short_value]
  dsimp only
  rw [hat, hoff, short_value]
  by_cases htype : load16 m (typeAt m) = 0x8809
  · rw [if_pos (show load16 m (typeAt m) = ntohs 0x8809 from htype), array_value, value_pure]
    simp only [htype, true_and]
  · rw [if_neg (show ¬ load16 m (typeAt m) = ntohs 0x8809 from htype), if_neg fun h => htype h.1, value_pure]

theorem oam_transparent (hf : ¬ Tagged f) (h : TagInserted f f' len) : OamTransparent f f' len := by
  intro hlen hpayload
  rw [GWTT_OAM_HEADER.size] at hlen
  constructor
  · rw [oam_parse_value f hlen, oam_parse_value f' (by rw [GWTT_OAM_HEADER.size]; omega), typeAt, typeAt,
      if_pos h.tag, if_neg hf]
    have htype : load16 f' 16 = load16 f 12 := by
      rw [load16, load16, h.rest 12 (by omega) (by omega), h.rest 13 (by omega) (by omega)]
    have houi : bytes f' (16 + 6) 3 = bytes f (12 + 6) 3 := by
      refine List.map_congr_left fun k hk => ?_
      have hk := List.mem_range.mp hk
      rw [← h.rest (12 + 6 + k) (by omega) (by omega)]
      congr 1
      omega
    rw [htype, houi]
  · intro mal st portid
    have hopen : (gw_oam_handler mal st f' (len + 4) portid).value =
        Gwd_Oam_Handle ntohs mal st portid (some (closeTag f' (minus (len + 4) 16))) (minus (len + 4) 4) := by
      rw [gw_oam_handler, short_value, if_pos (show load16 f' 12 = ntohs 0x8100 from h.tag)]
      rfl
    have hshut : (gw_oam_handler mal st f len portid).value = Gwd_Oam_Handle ntohs mal st portid (some f) len := by
      rw [gw_oam_handler, short_value, if_neg (show ¬ load16 f 12 = ntohs 0x8100 from hf)]
      rfl
    have hminus : minus (len + 4) 4 = len := by
      unfold minus
      rw [if_pos (by omega)]
      omega
    rw [hopen, hshut, hminus]
    exact (handle_congr mal st portid (fun i hi => (closeTag_agrees h (by omega) hi).symm) hpayload).symm

/-! ## RCP packets -/

/-- What a packet leaves when it changes nothing. -/
def untouched (s : State) : Left := ⟨0, s.records.rcpDevList, s.rcpRegList⟩

/-- What the handler of a packet leaves. -/
def outcome (s : State) (e : Env) (portid : Nat) (m : Mem) : Option Left :=
  left (returned (s.rrcp_packet_handler e portid m).value)

theorem left_refused (s : State) (ret : Ret) (h : ret ≠ .code .RCP_OK) :
    left (returned (some (s, ret))) = some (untouched s) := by
  unfold returned left untouched
  simp [h]

theorem handler_value (e : Env) (portid : Nat) (h : s.Admits m) :
    (s.rrcp_packet_handler e portid m).value = (s.opcode e portid m).value := by
  unfold State.rrcp_packet_handler
  cases hauth : s.gulGwdRcpAuth with
  | false => rfl
  | true =>
    rw [if_pos rfl, array_value, if_neg (not_not_intro (h hauth))]

theorem hello_outcome (h : s.Opens portid m REALTEK_RRCP_HELLO_REPLY) (e : Env) :
    outcome s e portid m = left (returned ((s.records.RCP_DevList_Update e portid (some m)).map fun r =>
      ({ s with records := r.1 }, .code r.2))) := by
  rw [outcome, handler_value e portid h.admits, State.opcode, short_value,
    if_neg (show ¬ ntohs (load16 m 16) ≠ ETH_TYPE_RRCP from not_not_intro h.type), short_value,
    if_pos (show ntohs (load16 m 18) = REALTEK_RRCP_HELLO_REPLY from h.opcode), value_bind, update_value]
  rfl

theorem reply_outcome (h : s.Opens portid m REALTEK_RRCP_GET_REPLY) (e : Env) :
    outcome s e portid m = left (returned ((s.RCP_RegList_Update portid m).value.map fun r => (r.1, .code r.2))) := by
  have hother : ¬ ntohs (load16 m 18) = REALTEK_RRCP_HELLO_REPLY := fun hello =>
    absurd (hello.symm.trans h.opcode) (by decide)
  rw [outcome, handler_value e portid h.admits, State.opcode, short_value,
    if_neg (show ¬ ntohs (load16 m 16) ≠ ETH_TYPE_RRCP from not_not_intro h.type), short_value, if_neg hother,
    if_pos (show ntohs (load16 m 18) = REALTEK_RRCP_GET_REPLY from h.opcode), value_bind]
  rfl

/-- A packet that comes to none of the two updates changes nothing. -/
theorem idle_outcome (hhello : ¬ s.Opens portid m REALTEK_RRCP_HELLO_REPLY)
    (hreply : ¬ s.Opens portid m REALTEK_RRCP_GET_REPLY) (e : Env) :
    outcome s e portid m = some (untouched s) := by
  by_cases hadmits : s.Admits m
  · rw [outcome, handler_value e portid hadmits, State.opcode, short_value]
    by_cases htype : load16 m 16 = ETH_TYPE_RRCP
    · rw [if_neg (show ¬ ntohs (load16 m 16) ≠ ETH_TYPE_RRCP from not_not_intro htype), short_value]
      split_ifs with hop hop'
      · have hport : MAX_RRCP_SWITCH_TO_MANAGE ≤ portid :=
          Nat.le_of_not_lt fun hport => hhello ⟨hadmits, htype, hop, hport⟩
        rw [RCP_DevList_Update, if_pos hport]
        exact left_refused s _ (by decide)
      · have hport : MAX_RRCP_SWITCH_TO_MANAGE ≤ portid :=
          Nat.le_of_not_lt fun hport => hreply ⟨hadmits, htype, hop', hport⟩
        rw [State.RCP_RegList_Update, if_pos hport]
        exact left_refused s _ (by decide)
      · exact left_refused s _ (by decide)
    · rw [if_pos (show ntohs (load16 m 16) ≠ ETH_TYPE_RRCP from htype)]
      exact left_refused s _ (by decide)
  · have hauth : s.gulGwdRcpAuth = true := by
      by_contra h
      exact hadmits fun h' => absurd h' h
    have houi : bytes m RCP_MAC_SIZE 3 ≠ gwdOui := fun h => hadmits fun _ => h
    rw [outcome, State.rrcp_packet_handler, if_pos hauth, array_value, if_pos houi]
    exact left_refused s _ (by decide)

theorem opens_agree {opcode : UInt16} (h : s.Opens portid m opcode) (hm : ∀ i < 20, i ≠ 14 → i ≠ 15 → m' i = m i) :
    s.Opens portid m' opcode where
  admits hauth := by
    have houi : bytes m' RCP_MAC_SIZE 3 = bytes m RCP_MAC_SIZE 3 :=
      bytes_congr fun k hk => hm _ (by rw [RCP_MAC_SIZE]; omega) (by rw [RCP_MAC_SIZE]; omega)
        (by rw [RCP_MAC_SIZE]; omega)
    rw [houi]
    exact h.admits hauth
  type := by
    rw [load16_congr (hm 16 (by omega) (by omega) (by omega)) (hm 17 (by omega) (by omega) (by omega))]
    exact h.type
  opcode := by
    rw [load16_congr (hm 18 (by omega) (by omega) (by omega)) (hm 19 (by omega) (by omega) (by omega))]
    exact h.opcode
  port := h.port

/-! ## Hello replies -/

/-- The record behind a hello reply. -/
def answered (s : switch_records.State) (e : Env) (portid : Nat) (m : Mem) : Record :=
  ((s.rcpDevList portid).getD (.create s e portid m)).hello s e m

theorem chip_iff (m : Mem) :
    switch_monitor.Rcp_ChipId_AuthCheck m ↔ m 31 = 0 ∧ (m 30 = 0xc ∨ m 30 = 0xd ∨ m 30 = 0xe) := by
  have hlow := (m 30).toNat_lt
  have hhigh := (m 31).toNat_lt
  have hid : ((m 31).toUInt16 <<< 8 ||| (m 30).toUInt16).toNat = (m 31).toNat * 256 + (m 30).toNat := by
    have hshift : ((m 31).toUInt16 <<< 8).toNat = (m 31).toNat <<< 8 := by
      rw [UInt16.toNat_shiftLeft]
      simp only [UInt8.toNat_toUInt16, UInt16.reduceToNat, Nat.shiftLeft_eq, Nat.reduceMod, Nat.reducePow]
      omega
    rw [UInt16.toNat_or, hshift, UInt8.toNat_toUInt16, ← Nat.shiftLeft_add_eq_or_of_lt hlow, Nat.shiftLeft_eq]
  unfold switch_monitor.Rcp_ChipId_AuthCheck
  simp only [← UInt16.toNat_inj, ← UInt8.toNat_inj, RCP_HELLO_CHIPID_OFFSET, hid]
  change _ = 12 ∨ _ = 13 ∨ _ = 14 ↔ _ = 0 ∧ (_ = 12 ∨ _ = 13 ∨ _ = 14)
  omega

theorem hello_unknown (h : s.Opens portid m REALTEK_RRCP_HELLO_REPLY) (e : Env)
    (hchip : ¬ switch_monitor.Rcp_ChipId_AuthCheck m) : outcome s e portid m = some (untouched s) := by
  rw [hello_outcome h, switch_records.State.RCP_DevList_Update, if_neg (Nat.not_le_of_lt h.port)]
  dsimp only
  rw [if_pos hchip]
  exact left_refused s (.code .RCP_UNKOWN) (by decide)

theorem hello_waits (h : s.Opens portid m REALTEK_RRCP_HELLO_REPLY) (e : Env)
    (hchip : switch_monitor.Rcp_ChipId_AuthCheck m) (hsem : s.records.semAccessRcpDevList = 0) :
    outcome s e portid m = none := by
  rw [hello_outcome h, switch_records.State.RCP_DevList_Update, if_neg (Nat.not_le_of_lt h.port)]
  dsimp only
  rw [if_neg (not_not_intro hchip), if_pos hsem]
  rfl

theorem hello_starved (h : s.Opens portid m REALTEK_RRCP_HELLO_REPLY)
    (hchip : switch_monitor.Rcp_ChipId_AuthCheck m) (htells : ¬ Tells s.records e portid) :
    outcome s e portid m = some (untouched s) := by
  obtain ⟨hsem, hrecord, hmal⟩ : 0 < s.records.semAccessRcpDevList ∧ s.records.rcpDevList portid = none ∧
      e.mal = false := by simpa [Tells] using htells
  rw [hello_outcome h, switch_records.State.RCP_DevList_Update, if_neg (Nat.not_le_of_lt h.port)]
  dsimp only
  rw [if_neg (not_not_intro hchip), if_neg (Nat.ne_of_gt hsem), hrecord, hmal]
  rfl

theorem hello_answered (h : s.Opens portid m REALTEK_RRCP_HELLO_REPLY) (ha : Answers s.records e portid m) :
    outcome s e portid m =
      some ⟨1, update s.records.rcpDevList portid (some (answered s.records e portid m)), s.rcpRegList⟩ := by
  rw [hello_outcome h, switch_records.State.RCP_DevList_Update, if_neg (Nat.not_le_of_lt h.port)]
  dsimp only
  rw [if_neg (not_not_intro ha.chip), if_neg (Nat.ne_of_gt ha.sem)]
  unfold answered
  cases hrecord : s.records.rcpDevList portid with
  | some r => rfl
  | none =>
    rw [ha.room hrecord]
    rfl

/-- With a known chip, the call waits or succeeds. -/
theorem hello_tells (h : s.Opens portid m REALTEK_RRCP_HELLO_REPLY)
    (hchip : switch_monitor.Rcp_ChipId_AuthCheck m) (htells : Tells s.records e portid) :
    outcome s e portid m ≠ some (untouched s) := by
  by_cases hsem : s.records.semAccessRcpDevList = 0
  · rw [hello_waits h e hchip hsem]
    exact nofun
  · have hpos := Nat.pos_of_ne_zero hsem
    rw [hello_answered h ⟨hchip, hpos, htells hpos⟩]
    intro heq
    have hresult : (1 : Int32) = 0 := congrArg Left.result (Option.some.inj heq)
    exact absurd hresult (by decide)

theorem answered_vendor (s : switch_records.State) (e : Env) (portid : Nat) (m : Mem) :
    (answered s e portid m).dev.vendorID = (switch_records.payload m).vendorID := by
  unfold answered Record.hello switch_records.RCP_DEV.hello switch_records.RCP_DEV.setKey
    switch_records.RCP_SetAuthenKey
  dsimp only
  split_ifs <;> rfl

theorem answered_congr (s : switch_records.State) (e : Env) (portid : Nat)
    (h : ∀ i < 36, i ≠ 14 → i ≠ 15 → m' i = m i) : answered s e portid m' = answered s e portid m := by
  have harray {n : Nat} (i : Nat) (hi : i + n ≤ 36) (htag : i + n ≤ 14 ∨ 16 ≤ i) :
      (Vector.ofFn fun k : Fin n => m' (i + k)) = Vector.ofFn fun k : Fin n => m (i + k) :=
    congrArg Vector.ofFn (funext fun k => h _ (by omega) (by omega) (by omega))
  have hparent : (Vector.ofFn fun k : Fin 6 => m' k) = Vector.ofFn fun k : Fin 6 => m k :=
    congrArg Vector.ofFn (funext fun k => h _ (by omega) (by omega) (by omega))
  have hcreate : Record.create s e portid m' = Record.create s e portid m := by
    simp only [Record.create, switch_records.RCP_DEV.create, hparent]
  have hsource : sourceMac m' = sourceMac m := harray 6 (by omega) (by omega)
  have hpayload : switch_records.payload m' = switch_records.payload m := by
    simp only [switch_records.payload, RCP_HELLO_PAYLOAD_OFFSET]
    rw [harray 20 (by omega) (by omega), harray (20 + 10) (by omega) (by omega),
      harray (20 + 12) (by omega) (by omega), h (20 + 2) (by omega) (by omega) (by omega)]
  unfold answered
  rw [hcreate]
  simp only [Record.hello, switch_records.RCP_DEV.hello, switch_records.RCP_DEV.setKey, hsource, hpayload]

theorem agrees_head (h : TagInserted f f' len) (hlen : 19 ≤ len) :
    ∀ i < 20, i ≠ 14 → i ≠ 15 → f' i = insertTag f len i :=
  fun _ hi h14 h15 => inserted_agrees h (by omega) h14 h15

/-- The chip is the same in every tagged frame when it lies inside, or is known to be none. -/
theorem chip_transparent (f : Mem) (hlen : 19 ≤ len) :
    (∀ f', TagInserted f f' len →
        (switch_monitor.Rcp_ChipId_AuthCheck f' ↔ switch_monitor.Rcp_ChipId_AuthCheck (insertTag f len))) ↔
      31 ≤ len + 4 ∧ (len + 4 = 31 → ¬ switch_monitor.Rcp_ChipId_AuthCheck (insertTag f len)) := by
  have hm := inserted_insertTag f len
  constructor
  · intro h
    constructor
    · by_contra hshort
      -- a known chip behind the frame
      have hchip := (h _ (inserted_update (inserted_update hm (by omega) (k := 30) (by omega) 0xc) (by omega)
        (k := 31) (by omega) 0)).mp ((chip_iff _).mpr ⟨update_self _ _ _, .inl (by simp)⟩)
      have hzero := ((chip_iff _).mp hchip).2
      rw [insertTag_behind f (by omega) (by omega)] at hzero
      exact absurd hzero (by decide)
    · intro hlast hchip
      have hother := (h _ (inserted_update hm (by omega) (k := 31) (by omega) 1)).mpr hchip
      have hone := ((chip_iff _).mp hother).1
      rw [update_self] at hone
      exact absurd hone (by decide)
  · rintro ⟨hlong, hlast⟩ f' hf'
    have h30 := inserted_agrees hf' (i := 30) (by omega) (by omega) (by omega)
    by_cases hshort : len + 4 = 31
    · refine iff_of_false (fun hchip => hlast hshort ?_) (hlast hshort)
      rw [chip_iff, ← h30]
      exact ⟨insertTag_behind f (by omega) (by omega), ((chip_iff _).mp hchip).2⟩
    · rw [chip_iff, chip_iff, h30, inserted_agrees hf' (i := 31) (by omega) (by omega) (by omega)]

/-- Whether the chip is known shows in what a hello reply leaves. -/
theorem chip_shows (hlen : 19 ≤ len) (h : s.Opens portid (insertTag f len) REALTEK_RRCP_HELLO_REPLY)
    (hall : ∀ f', TagInserted f f' len → outcome s e portid f' = outcome s e portid (insertTag f len))
    (htells : Tells s.records e portid) :
    31 ≤ len + 4 ∧ (len + 4 = 31 → ¬ switch_monitor.Rcp_ChipId_AuthCheck (insertTag f len)) := by
  refine (chip_transparent f hlen).mp fun f' hf' => ?_
  have hopens := opens_agree h (agrees_head hf' hlen)
  by_cases hchip : switch_monitor.Rcp_ChipId_AuthCheck (insertTag f len)
  · refine iff_of_true ?_ hchip
    by_contra hother
    exact hello_tells h hchip htells ((hall f' hf').symm.trans (hello_unknown hopens e hother))
  · refine iff_of_false (fun hother => ?_) hchip
    exact hello_tells hopens hother htells ((hall f' hf').trans (hello_unknown h e hchip))

/-- The last byte of a vendor that lies behind the frame shows in the record. -/
theorem vendor_shows (hlen : 19 ≤ len) (h : s.Opens portid (insertTag f len) REALTEK_RRCP_HELLO_REPLY)
    (hall : ∀ f', TagInserted f f' len → outcome s e portid f' = outcome s e portid (insertTag f len))
    (ha : Answers s.records e portid (insertTag f len)) : 36 ≤ len + 4 := by
  have hchip := chip_shows hlen h hall fun _ => ha.room
  by_contra hshort
  have hf' := inserted_update (inserted_insertTag f len) (by omega) (k := 35) (by omega) 1
  have hsame : switch_monitor.Rcp_ChipId_AuthCheck (update (insertTag f len) 35 1) :=
    ((chip_transparent f hlen).mpr hchip _ hf').mpr ha.chip
  have heq := hall _ hf'
  rw [hello_answered (opens_agree h (agrees_head hf' hlen)) ⟨hsame, ha.sem, ha.room⟩, hello_answered h ha] at heq
  have hrecord := congrFun (congrArg Left.rcpDevList (Option.some.inj heq)) portid
  simp only [update_self] at hrecord
  have hvendor := congrArg (fun r => r.dev.vendorID[3]) (Option.some.inj hrecord)
  simp only [answered_vendor, switch_records.payload, Vector.getElem_ofFn, RCP_HELLO_PAYLOAD_OFFSET, Nat.reduceAdd,
    update_self] at hvendor
  rw [insertTag_behind f (by omega) (by omega)] at hvendor
  exact absurd hvendor (by decide)

/-- A hello reply leaves the same in every tagged frame that has its chip and its payload. -/
theorem hello_decided (hlen : 19 ≤ len) (h : s.Opens portid (insertTag f len) REALTEK_RRCP_HELLO_REPLY)
    (htells : Tells s.records e portid)
    (hchip : 31 ≤ len + 4 ∧ (len + 4 = 31 → ¬ switch_monitor.Rcp_ChipId_AuthCheck (insertTag f len)))
    (hpayload : Answers s.records e portid (insertTag f len) → 36 ≤ len + 4) (hf' : TagInserted f f' len) :
    outcome s e portid f' = outcome s e portid (insertTag f len) := by
  have hopens := opens_agree h (agrees_head hf' hlen)
  have hsame := (chip_transparent f hlen).mpr hchip f' hf'
  by_cases hknown : switch_monitor.Rcp_ChipId_AuthCheck (insertTag f len)
  · by_cases hsem : s.records.semAccessRcpDevList = 0
    · rw [hello_waits hopens e (hsame.mpr hknown) hsem, hello_waits h e hknown hsem]
    · have hpos := Nat.pos_of_ne_zero hsem
      have ha : Answers s.records e portid (insertTag f len) := ⟨hknown, hpos, htells hpos⟩
      have hlong := hpayload ha
      rw [hello_answered h ha, hello_answered hopens ⟨hsame.mpr hknown, hpos, htells hpos⟩,
        answered_congr _ _ _ fun i hi h14 h15 => inserted_agrees hf' (by omega) h14 h15]
  · rw [hello_unknown h e hknown, hello_unknown hopens e fun hother => hknown (hsame.mp hother)]

theorem hello_transparent (hlen : 19 ≤ len) (h : s.Opens portid (insertTag f len) REALTEK_RRCP_HELLO_REPLY) (e : Env) :
    (∀ f', TagInserted f f' len → outcome s e portid f' = outcome s e portid (insertTag f len)) ↔
      (Tells s.records e portid →
          31 ≤ len + 4 ∧ (len + 4 = 31 → ¬ switch_monitor.Rcp_ChipId_AuthCheck (insertTag f len))) ∧
        (Answers s.records e portid (insertTag f len) → 36 ≤ len + 4) := by
  constructor
  · exact fun hall => ⟨chip_shows hlen h hall, vendor_shows hlen h hall⟩
  · rintro ⟨hchips, hpayload⟩ f' hf'
    by_cases htells : Tells s.records e portid
    · exact hello_decided hlen h htells (hchips htells) hpayload hf'
    · have huntouched {m : Mem} (hm : s.Opens portid m REALTEK_RRCP_HELLO_REPLY) :
          outcome s e portid m = some (untouched s) := by
        by_cases hchip : switch_monitor.Rcp_ChipId_AuthCheck m
        · exact hello_starved hm hchip htells
        · exact hello_unknown hm e hchip
      rw [huntouched (opens_agree h (agrees_head hf' hlen)), huntouched h]

/-! ## Get replies -/

theorem keyed_agree {r : Record} (h : s.Keyed portid m r) (hm : ∀ k < 2, m' (20 + k) = m (20 + k)) :
    s.Keyed portid m' r := by
  refine ⟨h.record, h.key.trans ?_⟩
  exact (bytes_congr hm).symm

theorem reply_refused (h : s.Opens portid m REALTEK_RRCP_GET_REPLY) (e : Env) (hkey : ∀ r, ¬ s.Keyed portid m r) :
    outcome s e portid m = some (untouched s) := by
  rw [reply_outcome h, State.RCP_RegList_Update, if_neg (Nat.not_le_of_lt h.port)]
  cases hrecord : s.records.rcpDevList portid with
  | none => exact left_refused s (.code .RCP_NOT_INITIALIZED) (by decide)
  | some r =>
    dsimp only
    rw [array_value, if_pos fun heq => hkey r ⟨hrecord, heq⟩]
    exact left_refused s (.code .RCP_UNKOWN) (by decide)

theorem reply_waits (h : s.Opens portid m REALTEK_RRCP_GET_REPLY) (e : Env) {r : Record} (hr : s.Keyed portid m r)
    (hsem : s.semAccessRcpRegList = 0) : outcome s e portid m = none := by
  rw [reply_outcome h, State.RCP_RegList_Update, if_neg (Nat.not_le_of_lt h.port), hr.record]
  dsimp only
  rw [array_value, if_neg (not_not_intro hr.key), value_bind, if_pos hsem]
  rfl

theorem reply_unknown (h : s.Opens portid m REALTEK_RRCP_GET_REPLY) (e : Env) {r : Record} (hr : s.Keyed portid m r)
    (hsem : 0 < s.semAccessRcpRegList) (hnone : s.RCP_RegList_Search r.dev (GET_RCP_PKT_SHORT m 22) = none) :
    outcome s e portid m = some (untouched s) := by
  rw [reply_outcome h, State.RCP_RegList_Update, if_neg (Nat.not_le_of_lt h.port), hr.record]
  dsimp only
  rw [array_value, if_neg (not_not_intro hr.key), value_bind, if_neg (Nat.ne_of_gt hsem), value_readAt, hnone]
  exact left_refused s (.code .RCP_NO_SUCH) (by decide)

theorem reply_found (h : s.Opens portid m REALTEK_RRCP_GET_REPLY) (e : Env) {r : Record} (hr : s.Keyed portid m r)
    (hsem : 0 < s.semAccessRcpRegList) {i : Nat}
    (hsome : s.RCP_RegList_Search r.dev (GET_RCP_PKT_SHORT m 22) = some i) :
    outcome s e portid m = some ⟨1, s.records.rcpDevList,
      s.rcpRegList.modify i (Option.map (RCP_REG.complete (GET_RCP_PKT_LONG m 24)))⟩ := by
  rw [reply_outcome h, State.RCP_RegList_Update, if_neg (Nat.not_le_of_lt h.port), hr.record]
  dsimp only
  rw [array_value, if_neg (not_not_intro hr.key), value_bind, if_neg (Nat.ne_of_gt hsem), value_readAt, hsome]
  rfl

/-- The search finds an entry that is there. -/
theorem search_entry {dev : switch_records.RCP_DEV} {regAddr : UInt16} {i : Nat}
    (h : s.RCP_RegList_Search dev regAddr = some i) : ∃ reg, s.rcpRegList[i]? = some (some reg) := by
  obtain ⟨hi, hmatch, -⟩ := List.findIdx?_eq_some_iff_getElem.mp h
  cases hslot : s.rcpRegList[i] with
  | none => simp [hslot] at hmatch
  | some reg => exact ⟨reg, by rw [List.getElem?_eq_getElem hi, hslot]⟩

/-- Two values that leave the same list are the same. -/
theorem complete_inj {dev : switch_records.RCP_DEV} {regAddr : UInt16} {i : Nat} {v w : UInt32}
    (h : s.RCP_RegList_Search dev regAddr = some i)
    (heq : s.rcpRegList.modify i (Option.map (RCP_REG.complete v)) =
      s.rcpRegList.modify i (Option.map (RCP_REG.complete w))) : v = w := by
  obtain ⟨reg, hreg⟩ := search_entry h
  have hslot := congrArg (·[i]?) heq
  simp only [List.getElem?_modify_eq, hreg, Option.map_eq_map, Option.map_some, Option.some.injEq] at hslot
  exact congrArg RCP_REG.value hslot

theorem long_high (m : Mem) (i : Nat) :
    (GET_RCP_PKT_LONG m i).toBitVec.getLsbD 24 = (m (i + 3)).toBitVec.getLsbD 0 := by
  simp [GET_RCP_PKT_LONG]

theorem long_congr {i : Nat} (h : ∀ k < 4, m' (i + k) = m (i + k)) : GET_RCP_PKT_LONG m' i = GET_RCP_PKT_LONG m i := by
  rw [GET_RCP_PKT_LONG, GET_RCP_PKT_LONG, h 1 (by omega), h 2 (by omega), h 3 (by omega)]
  rw [show m' i = m i from h 0 (by omega)]

theorem keyed_tag (hlen : 19 ≤ len) (h : TagInserted f f' len) {r : Record} :
    s.Keyed portid (insertTag f len) r ↔ s.Keyed portid f' r := by
  have hkey (k : Nat) (hk : k < 2) : f' (20 + k) = insertTag f len (20 + k) :=
    inserted_agrees h (by omega) (by omega) (by omega)
  exact ⟨fun hr => keyed_agree hr hkey, fun hr => keyed_agree hr fun k hk => (hkey k hk).symm⟩

/-- The last byte of a value that lies behind the frame shows in the register. -/
theorem value_shows (hlen : 19 ≤ len) (h : s.Opens portid (insertTag f len) REALTEK_RRCP_GET_REPLY)
    (hall : ∀ f', TagInserted f f' len → outcome s e portid f' = outcome s e portid (insertTag f len)) {r : Record}
    (hr : s.Keyed portid (insertTag f len) r) (hawaits : s.Awaits (insertTag f len) r) : 28 ≤ len + 4 := by
  by_contra hshort
  obtain ⟨i, hi⟩ := Option.isSome_iff_exists.mp hawaits.2
  have hf' := inserted_update (inserted_insertTag f len) (by omega) (k := 27) (by omega) 1
  have heq := hall _ hf'
  have hsame : GET_RCP_PKT_SHORT (update (insertTag f len) 27 1) 22 = GET_RCP_PKT_SHORT (insertTag f len) 22 := by
    simp [GET_RCP_PKT_SHORT]
  rw [reply_found (opens_agree h (agrees_head hf' hlen)) e ((keyed_tag hlen hf').mp hr) hawaits.1 (hsame ▸ hi),
    reply_found h e hr hawaits.1 hi] at heq
  have hlong := complete_inj hi (congrArg Left.rcpRegList (Option.some.inj heq))
  have hbit := congrArg (fun v => v.toBitVec.getLsbD 24) hlong
  simp only [long_high, Nat.reduceAdd, update_self] at hbit
  rw [insertTag_behind f (by omega) (by omega)] at hbit
  exact absurd hbit (by decide)

/-- A byte of the address that lies behind the frame decides whether there is a register. -/
theorem address_shows (hlen : 19 ≤ len) (h : s.Opens portid (insertTag f len) REALTEK_RRCP_GET_REPLY)
    (hall : ∀ f', TagInserted f f' len → outcome s e portid f' = outcome s e portid (insertTag f len)) {r : Record}
    (hr : s.Keyed portid (insertTag f len) r) (hsem : 0 < s.semAccessRcpRegList) {high : UInt8}
    (hhigh : (s.RCP_RegList_Search r.dev (high.toUInt16 <<< 8 ||| (insertTag f len 22).toUInt16)).isSome) :
    24 ≤ len + 4 := by
  by_contra hshort
  have hf' := inserted_update (inserted_insertTag f len) (by omega) (k := 23) (by omega) high
  obtain ⟨i, hi⟩ := Option.isSome_iff_exists.mp hhigh
  have hfound : s.RCP_RegList_Search r.dev (GET_RCP_PKT_SHORT (update (insertTag f len) 23 high) 22) = some i := by
    rw [← hi]
    simp [GET_RCP_PKT_SHORT]
  have heq := hall _ hf'
  rw [reply_found (opens_agree h (agrees_head hf' hlen)) e ((keyed_tag hlen hf').mp hr) hsem hfound] at heq
  cases hother : s.RCP_RegList_Search r.dev (GET_RCP_PKT_SHORT (insertTag f len) 22) with
  | none =>
    rw [reply_unknown h e hr hsem hother] at heq
    have hresult : (1 : Int32) = 0 := congrArg Left.result (Option.some.inj heq)
    exact absurd hresult (by decide)
  | some k =>
    -- both are found, and the value behind the address tells them apart
    have hlong := value_shows hlen h hall hr ⟨hsem, by rw [hother]; rfl⟩
    omega

/-- A reply leaves the same in every tagged frame that has its address and its value. -/
theorem reply_decided (hlen : 19 ≤ len) (h : s.Opens portid (insertTag f len) REALTEK_RRCP_GET_REPLY) (e : Env)
    {r : Record} (hr : s.Keyed portid (insertTag f len) r) (hsem : 0 < s.semAccessRcpRegList)
    (haddress : ∀ high : UInt8,
      (s.RCP_RegList_Search r.dev (high.toUInt16 <<< 8 ||| (insertTag f len 22).toUInt16)).isSome → 24 ≤ len + 4)
    (hvalue : s.Awaits (insertTag f len) r → 28 ≤ len + 4) (hf' : TagInserted f f' len) :
    outcome s e portid f' = outcome s e portid (insertTag f len) := by
  have hopens := opens_agree h (agrees_head hf' hlen)
  have hkeyed := (keyed_tag hlen hf').mp hr
  have h22 := inserted_agrees hf' (i := 22) (by omega) (by omega) (by omega)
  by_cases hfound : ∃ high : UInt8,
      (s.RCP_RegList_Search r.dev (high.toUInt16 <<< 8 ||| (insertTag f len 22).toUInt16)).isSome
  · obtain ⟨high, hhigh⟩ := hfound
    have h24 := haddress high hhigh
    have hsame : GET_RCP_PKT_SHORT f' 22 = GET_RCP_PKT_SHORT (insertTag f len) 22 := by
      rw [GET_RCP_PKT_SHORT, GET_RCP_PKT_SHORT, h22,
        inserted_agrees hf' (i := 22 + 1) (by omega) (by omega) (by omega)]
    cases hi : s.RCP_RegList_Search r.dev (GET_RCP_PKT_SHORT (insertTag f len) 22) with
    | none => rw [reply_unknown h e hr hsem hi, reply_unknown hopens e hkeyed hsem (hsame ▸ hi)]
    | some i =>
      have h28 := hvalue ⟨hsem, by rw [hi]; rfl⟩
      rw [reply_found h e hr hsem hi, reply_found hopens e hkeyed hsem (hsame ▸ hi),
        long_congr fun k hk => inserted_agrees hf' (by omega) (by omega) (by omega)]
  · have hnone (high : UInt8) :
        s.RCP_RegList_Search r.dev (high.toUInt16 <<< 8 ||| (insertTag f len 22).toUInt16) = none :=
      Option.not_isSome_iff_eq_none.mp fun hhigh => hfound ⟨high, hhigh⟩
    rw [reply_unknown h e hr hsem (hnone _), reply_unknown hopens e hkeyed hsem]
    rw [GET_RCP_PKT_SHORT, h22]
    exact hnone _

theorem reply_transparent (hlen : 19 ≤ len) (h : s.Opens portid (insertTag f len) REALTEK_RRCP_GET_REPLY) (e : Env) :
    (∀ f', TagInserted f f' len → outcome s e portid f' = outcome s e portid (insertTag f len)) ↔
      (∀ r, s.Keyed portid (insertTag f len) r → 0 < s.semAccessRcpRegList → ∀ high : UInt8,
          (s.RCP_RegList_Search r.dev (high.toUInt16 <<< 8 ||| (insertTag f len 22).toUInt16)).isSome →
            24 ≤ len + 4) ∧
        (∀ r, s.Keyed portid (insertTag f len) r → s.Awaits (insertTag f len) r → 28 ≤ len + 4) := by
  constructor
  · intro hall
    exact ⟨fun r hr hsem high hhigh => address_shows hlen h hall hr hsem hhigh,
      fun r hr hawaits => value_shows hlen h hall hr hawaits⟩
  · rintro ⟨haddress, hvalue⟩ f' hf'
    have hopens := opens_agree h (agrees_head hf' hlen)
    by_cases hrecord : ∃ r, s.Keyed portid (insertTag f len) r
    · obtain ⟨r, hr⟩ := hrecord
      by_cases hsem : s.semAccessRcpRegList = 0
      · rw [reply_waits h e hr hsem, reply_waits hopens e ((keyed_tag hlen hf').mp hr) hsem]
      · have hpos := Nat.pos_of_ne_zero hsem
        exact reply_decided hlen h e hr hpos (haddress r hr hpos) (hvalue r hr) hf'
    · rw [reply_refused h e fun r hr => hrecord ⟨r, hr⟩,
        reply_refused hopens e fun r hr => hrecord ⟨r, (keyed_tag hlen hf').mpr hr⟩]

/-! ## Both -/

theorem handler_result (s : State) (e : Env) (portid : Nat) (m : Mem) (hlen : 16 ≤ len)
    (hmax : len < RCP_PKT_MAX_LENGTH - 4) :
    left (s.RcpFrameRevHandle e portid len m).result =
      outcome s e portid (if Tagged m then m else insertTag m len) := by
  unfold State.RcpFrameRevHandle
  rw [if_neg (by omega)]
  dsimp only
  rw [tagBytes_value]
  by_cases htag : Tagged m
  · rw [if_pos (by simp [htag]), if_pos htag]
    rfl
  · rw [if_neg (by simp [htag]), if_neg htag]
    rfl

theorem rcp_parse_value (m : Mem) (hlen : 18 < len) :
    (gw_rcppktparser m len).value =
      if load16 m (typeAt m) = frame_reads.ETH_TYPE_RRCP then GW_PKT_RCP else GW_PKT_MAX := by
  rw [gw_rcppktparser, if_pos hlen]
  rfl

theorem rcp_parse_transparent (hf : ¬ Tagged f) (h : TagInserted f f' len) (hlen : 19 ≤ len) :
    (gw_rcppktparser f' (len + 4)).value = (gw_rcppktparser f len).value := by
  have htype : load16 f' 16 = load16 f 12 := by
    rw [load16, load16, h.rest 12 (by omega) (by omega), h.rest 13 (by omega) (by omega)]
  rw [rcp_parse_value f (by omega), rcp_parse_value f' (by omega), typeAt, typeAt, if_pos h.tag, if_neg hf, htype]

/-- What every frame with the tag leaves is what the one in the buffer does, just when its
bytes decide it. -/
theorem packet_transparent (s : State) (e : Env) (portid : Nat) (f : Mem) (hlen : 19 ≤ len) :
    (∀ f', TagInserted f f' len → outcome s e portid f' = outcome s e portid (insertTag f len)) ↔
      TagLongEnough s e portid (insertTag f len) (len + 4) := by
  by_cases hhello : s.Opens portid (insertTag f len) REALTEK_RRCP_HELLO_REPLY
  · have hreply (h : s.Opens portid (insertTag f len) REALTEK_RRCP_GET_REPLY) : False :=
      absurd (hhello.opcode.symm.trans h.opcode) (by decide)
    rw [hello_transparent hlen hhello]
    exact ⟨fun h => ⟨fun _ => h.1, fun _ => h.2, fun h => (hreply h).elim, fun h => (hreply h).elim⟩,
      fun h => ⟨h.chip hhello, h.payload hhello⟩⟩
  by_cases hreply : s.Opens portid (insertTag f len) REALTEK_RRCP_GET_REPLY
  · rw [reply_transparent hlen hreply]
    exact ⟨fun h => ⟨fun h => absurd h hhello, fun h => absurd h hhello, fun _ => h.1, fun _ => h.2⟩,
      fun h => ⟨h.regAddress hreply, h.regValue hreply⟩⟩
  · refine iff_of_true (fun f' hf' => ?_) ⟨fun h => absurd h hhello, fun h => absurd h hhello,
      fun h => absurd h hreply, fun h => absurd h hreply⟩
    have hback {opcode : UInt16} (h : s.Opens portid f' opcode) : s.Opens portid (insertTag f len) opcode :=
      opens_agree h fun i hi h14 h15 => (agrees_head hf' hlen i hi h14 h15).symm
    rw [idle_outcome hhello hreply, idle_outcome (fun h => hhello (hback h)) fun h => hreply (hback h)]

/-- A tag makes no difference to an OAM frame, and to an RCP frame whose bytes decide what
becomes of it. -/
theorem a_tag_is_transparent_iff_the_frame_decides (s : State) (e : Env) (portid : Nat) (f : Mem) (len : Nat) :
    (¬ Tagged f → Transparent s e portid f len) ↔
      (¬ Tagged f → 19 ≤ len → len + 4 < RCP_PKT_MAX_LENGTH - 4 →
        TagLongEnough s e portid (insertTag f len) (len + 4)) := by
  refine imp_congr_right fun hf => ?_
  have hresult {f' : Mem} (hf' : TagInserted f f' len) (hlen : 19 ≤ len) (hmax : len + 4 < RCP_PKT_MAX_LENGTH - 4) :
      left (s.RcpFrameRevHandle e portid (len + 4) f').result = left (s.RcpFrameRevHandle e portid len f).result ↔
        outcome s e portid f' = outcome s e portid (insertTag f len) := by
    rw [handler_result s e portid f' (by omega) hmax, handler_result s e portid f (by omega) (by omega),
      if_pos hf'.tag, if_neg hf]
  constructor
  · intro h hlen hmax
    rw [← packet_transparent s e portid f hlen]
    exact fun f' hf' => (hresult hf' hlen hmax).mp (h.rcp f' hf' hlen hmax).2
  · intro h
    refine ⟨fun f' hf' => oam_transparent hf hf', fun f' hf' hlen hmax => ?_⟩
    have hall := (packet_transparent s e portid f hlen).mpr (h hlen hmax)
    exact ⟨rcp_parse_transparent hf hf' hlen, (hresult hf' hlen hmax).mpr (hall f' hf')⟩
end

/-- A hello reply that ends behind its opcode. -/
def cut : Mem := fun i => (List.replicate 12 (0 : UInt8) ++ [0x88, 0x99, 0x01, 0x80]).getD i 0

/-- The parser takes the frame for an RCP one. -/
theorem a_cut_reply_is_not_transparent :
    ¬ Tagged cut ∧ (gw_rcppktparser cut 19).value = GW_PKT_RCP ∧ ¬ Transparent blank ⟨none, true, true⟩ 1 cut 19 := by
  refine ⟨by decide, by decide, fun h => ?_⟩
  -- a known chip behind the frame
  have hchip := inserted_update (inserted_insertTag cut 19) (by omega) (k := 30) (by omega) 0xc
  have hsame := (h.rcp _ hchip (by decide) (by decide)).2
  have hresult := congrArg (Option.map Left.result) hsame
  exact absurd hresult (by decide)

end gwdonu.tag_transparency
