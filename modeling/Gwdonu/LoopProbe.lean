-- The frames of loop detection, from the ONU that sends one on its ports to the ONU that it comes
-- back to: how they are built, told from other frames, and read.
import Gwdonu.FrameReads
import Gwdonu.LoopDetect

namespace gwdonu.loop_probe

open reading oam frame_reads
open gwd_eth_loop_detect (isLoopFrame revAlarm noAlarm)
open pkt_main (GW_PKT_LPB GW_PKT_MAX)

/-! ## The program -/

abbrev Mac := Vector UInt8 6

inductive GWD_OLT_TYPE where
  | GWD_OLT_NONE
  | GWD_OLT_GFA6100
  | GWD_OLT_GFA6700
  | GWD_OLT_GFA6900
  | GWD_OLT_NOMATCH
  deriving DecidableEq

def GWD_OLT_TYPE.toByte : GWD_OLT_TYPE → UInt8
  | GWD_OLT_NONE => 0
  | GWD_OLT_GFA6100 => 1
  | GWD_OLT_GFA6700 => 2
  | GWD_OLT_GFA6900 => 3
  | GWD_OLT_NOMATCH => 4

def gwPonMac : List UInt8 := [0x00, 0x0c, 0xd5, 0x00, 0x01, 0x00]

def GwGetOltType (mac : Mac) : GWD_OLT_TYPE :=
  if mac.toList.take 5 = gwPonMac.take 5 then
    if mac[5] = 0x0 ∨ mac[5] = 0x10 ∨ mac[5] = 0x20 ∨ mac[5] = 0x30 then .GWD_OLT_GFA6100
    else if (0xec : UInt8) ≤ mac[5] then .GWD_OLT_GFA6700
    else .GWD_OLT_NOMATCH
  else if mac.toList.take 3 = gwPonMac.take 3 then
    if mac[3] = 0x61 then .GWD_OLT_GFA6100
    else if mac[3] = 0x67 then .GWD_OLT_GFA6700
    else if mac[3] = 0x69 then .GWD_OLT_GFA6900
    else .GWD_OLT_NOMATCH
  else .GWD_OLT_NONE

/-- The slot and the port. Where they are not set, they stay what they were. -/
def GwGetPonSlotPort (mac : Mac) (type : GWD_OLT_TYPE) (slot port : UInt32) : UInt32 × UInt32 :=
  let ponMac := mac[5]
  if mac.toList.take 5 = gwPonMac.take 5 then
    match type with
    | .GWD_OLT_GFA6100 =>
      if ponMac = 0 then (2, 1)
      else if ponMac = 0x10 then (2, 2)
      else if ponMac = 0x20 then (3, 1)
      else if ponMac = 0x30 then (3, 2)
      else (slot, port)
    | .GWD_OLT_GFA6700 => (((ponMac &&& 0x1c) >>> 2).toUInt32 + 1, (ponMac &&& 0x3).toUInt32 + 1)
    | _ => (0xff, 0xff)
  else if mac.toList.take 3 = gwPonMac.take 3 then (mac[4].toUInt32, mac[5].toUInt32)
  else (slot, port)

def loop_detect_mac : List UInt8 := [0x00, 0x0F, 0xE9, 0x04, 0x8E, 0xDF]

def DEVICE_TYPE_GT813_C : UInt8 := 0x2D

/-- What the ONU is asked for when it sends. The slot and the port are what is on the stack where
they go, and `up` tells the ports whose status is `PORT_OPER_STATUS_UP`. -/
structure Sender where
  smac : Mac
  olt_mac_addr : Mac
  sysMac : Mac
  OnuLlid : UInt32
  ulSlot : UInt32
  ulPon : UInt32
  ports : Nat
  up : Nat → Bool

namespace Sender

variable (o : Sender)

def type : GWD_OLT_TYPE := GwGetOltType o.olt_mac_addr

def OnuLocation : List UInt8 :=
  let (ulSlot, ulPon) := GwGetPonSlotPort o.olt_mac_addr o.type o.ulSlot o.ulPon
  [0, ulSlot.toUInt8, ulPon.toUInt8, o.OnuLlid.toUInt8]

/-- Both bytes of the tag, with the highest priority. -/
def loopVid (usVid : UInt16) : List UInt8 := [(usVid >>> 8).toUInt8 ||| 0xe0, (0xff &&& usVid).toUInt8]

/-- What stands behind the tag of a `LOOP_DETECT_FRAME`, and the rest of the buffer. -/
def data (usVid : UInt16) : List UInt8 :=
  store16 ETH_TYPE_LOOP_DETECT ++ (store16 LOOP_DETECT_CHECK ++ ([o.type.toByte] ++ ([DEVICE_TYPE_GT813_C] ++
    (o.OnuLocation ++ (o.sysMac.toList ++ (store16 usVid ++ (store32 0 ++ (List.range (64 - 38)).map UInt8.ofNat)))))))

def LoopBackDetectPktBuffer (usVid : UInt16) : List UInt8 :=
  loop_detect_mac ++ (o.smac.toList ++ (store16 0x8100 ++ (loopVid usVid ++ o.data usVid)))

/-- The frames that go out, each with its port. -/
def lpbDetectTransFrames (usVid : UInt16) : List (Nat × List UInt8) :=
  ((List.range o.ports).filter fun i => o.up (i + 1)).map fun i => (i + 1, o.LoopBackDetectPktBuffer usVid)

/-- What the sender tells of itself. -/
def loopData : LoopData where
  SrcMac := o.smac.toList
  OltType := o.type.toByte
  OnuType := DEVICE_TYPE_GT813_C
  OnuLocation := o.OnuLocation
  Onumac := o.sysMac.toList
  Onuifindex := 0

end Sender

/-- A frame as it comes out of the switches that it has gone through, with the tag or without. -/
def back (tagged : Bool) (sent : List UInt8) : List UInt8 :=
  if tagged then sent else sent.take 12 ++ sent.drop 16

/-! ## What the receiver finds -/

section
variable {o : Sender} {usVid : UInt16} {m : Mem} {rev len portid : Nat}

/-- The data of a probe, at the place where the receiver looks for it. -/
structure Found (o : Sender) (m : Mem) (rev : Nat) : Prop where
  source : bytes m 6 6 = o.smac.toList
  type : load16 m rev = ETH_TYPE_LOOP_DETECT
  flag : load16 m (rev + 2) = LOOP_DETECT_CHECK
  oltType : m (rev + 4) = o.type.toByte
  onuType : m (rev + 5) = DEVICE_TYPE_GT813_C
  location : bytes m (rev + 6) 4 = o.OnuLocation
  onumac : bytes m (rev + 10) 6 = o.sysMac.toList
  ifindex : load32 m (rev + 18) = 0

theorem length_store16 (x : UInt16) : (store16 x).length = 2 := rfl

theorem length_store32 (x : UInt32) : (store32 x).length = 4 := rfl

theorem length_location (o : Sender) : o.OnuLocation.length = 4 := rfl

theorem found_of_holds (hsource : Holds m 6 o.smac.toList) (hdata : Holds m rev (o.data usVid)) : Found o m rev := by
  unfold Sender.data at hdata
  simp only [holds_append, length_store16, length_store32, length_location, Vector.length_toList, List.length_singleton,
    Nat.add_assoc, Nat.reduceAdd] at hdata
  obtain ⟨htype, hflag, holt, honu, hlocation, hmac, -, hindex, -⟩ := hdata
  unfold Holds at hsource hlocation hmac
  rw [Vector.length_toList] at hsource hmac
  rw [length_location] at hlocation
  exact ⟨hsource, load16_store16 htype, load16_store16 hflag, (holds_cons _ _ _ _).mp holt |>.1,
    (holds_cons _ _ _ _).mp honu |>.1, hlocation, hmac, load32_store32 hindex⟩

/-- A frame that comes back with its tag. -/
theorem found_tagged (h : Holds m 0 (o.LoopBackDetectPktBuffer usVid)) :
    Found o m 16 ∧ load16 m 12 = 0x8100 ∧ Holds m 14 (Sender.loopVid usVid) := by
  have hdest : loop_detect_mac.length = 6 := rfl
  have hvid : (Sender.loopVid usVid).length = 2 := rfl
  unfold Sender.LoopBackDetectPktBuffer at h
  simp only [holds_append, hdest, hvid, length_store16, Vector.length_toList, Nat.reduceAdd, Nat.zero_add] at h
  obtain ⟨-, hsource, htag, hvid, hdata⟩ := h
  exact ⟨found_of_holds hsource hdata, load16_store16 htag, hvid⟩

theorem back_false (o : Sender) (usVid : UInt16) :
    back false (o.LoopBackDetectPktBuffer usVid) = loop_detect_mac ++ (o.smac.toList ++ o.data usVid) := by
  have hfront : (loop_detect_mac ++ o.smac.toList).length = 12 := by simp [loop_detect_mac]
  have htag : (loop_detect_mac ++ o.smac.toList ++ (store16 0x8100 ++ Sender.loopVid usVid)).length = 16 := by
    rw [List.length_append, hfront]
    rfl
  have htake : (o.LoopBackDetectPktBuffer usVid).take 12 = loop_detect_mac ++ o.smac.toList := by
    rw [Sender.LoopBackDetectPktBuffer, ← List.append_assoc]
    exact List.take_left' hfront
  have hdrop : (o.LoopBackDetectPktBuffer usVid).drop 16 = o.data usVid := by
    rw [Sender.LoopBackDetectPktBuffer, ← List.append_assoc, ← List.append_assoc, ← List.append_assoc,
      List.append_assoc _ (store16 0x8100)]
    exact List.drop_left' htag
  rw [back, if_neg Bool.false_ne_true, htake, hdrop, List.append_assoc]

/-- A frame that comes back without its tag. -/
theorem found_untagged (h : Holds m 0 (back false (o.LoopBackDetectPktBuffer usVid))) : Found o m 12 := by
  have hdest : loop_detect_mac.length = 6 := rfl
  rw [back_false] at h
  simp only [holds_append, hdest, Vector.length_toList, Nat.reduceAdd, Nat.zero_add] at h
  obtain ⟨-, hsource, hdata⟩ := h
  exact found_of_holds hsource hdata

theorem Found.looped (h : Found o m (typeAt m)) : Looped m := ⟨h.type, h.flag⟩

/-- What the handler makes of it. -/
theorem Found.read (h : Found o m (typeAt m)) {gulLoopIgnorePort : Nat → Bool}
    (hport : gulLoopIgnorePort portid = false) :
    (lpbDetectRevPacketHandle gulLoopIgnorePort m portid).value = some o.loopData := by
  have hat : (if decide (Tagged m) = true then 16 else 12) = typeAt m := by
    rcases typeAt_cases m with ⟨htag, hat⟩ | ⟨htag, hat⟩
    · rw [if_pos (decide_eq_true htag), hat]
    · rw [if_neg (by simpa using htag), hat]
  have hflag : ¬ ntohs (load16 m (typeAt m + 2)) ≠ LOOP_DETECT_CHECK := not_not_intro h.flag
  rw [lpbDetectRevPacketHandle, array_value, value_bind, tagBytes_value]
  dsimp only
  rw [hat, short_value, if_neg hflag, hport, if_neg Bool.false_ne_true, byte_value, byte_value, array_value,
    array_value, value_bind, value_readAt, value_pure, h.source, h.oltType, h.onuType, h.location, h.onumac, h.ifindex]
  rfl

/-- The VLAN that the handler takes the frame to come from. -/
theorem vidOf_value (m : Mem) :
    (vidOf m (load16 m 12)).value = if Tagged m then load16 m 14 &&& 0x0FFF else 1 := by
  unfold vidOf
  by_cases htag : Tagged m
  · rw [if_pos htag, if_pos (show ntohs (load16 m 12) = EPON_ETHERTYPE_DOT1Q from htag)]
    rfl
  · rw [if_neg htag, if_neg (show ¬ ntohs (load16 m 12) = EPON_ETHERTYPE_DOT1Q from htag)]
    rfl

theorem Found.handled (h : Found o m (typeAt m)) {gulLoopIgnorePort : Nat → Bool}
    (hport : gulLoopIgnorePort portid = false) (hlen : len ≠ 0) :
    (loopbackFrameRevHandle gulLoopIgnorePort portid len m).value =
      some (if Tagged m then load16 m 14 &&& 0x0FFF else 1, some o.loopData) := by
  rw [loopbackFrameRevHandle, if_neg hlen, short_value, value_bind, value_bind, vidOf_value, h.read hport, value_pure]

/-- The priority of the tag goes, and the VLAN stays. -/
theorem loopVid_read (h : Holds m 14 (Sender.loopVid usVid)) : load16 m 14 &&& 0x0FFF = usVid &&& 0x0FFF := by
  unfold Sender.loopVid at h
  simp only [holds_cons, holds_nil, and_true] at h
  have hlow (n : Nat) : n &&& 4095 = n % 4096 := Nat.and_two_pow_sub_one_eq_mod n 12
  have hbyte (n : Nat) : n &&& 255 = n % 256 := Nat.and_two_pow_sub_one_eq_mod n 8
  have hpriority (n : Nat) : (n ||| 224) % 16 = n % 16 := by
    have hor := Nat.or_mod_two_pow (a := n) (b := 224) (n := 4)
    simpa using hor
  have hhigh := hpriority (usVid.toNat / 256 % 256)
  have hvid := usVid.toNat_lt
  rw [load16, h.1, h.2, ← UInt16.toNat_inj]
  simp only [UInt16.toNat_and, UInt16.toNat_ofNat', UInt8.toNat_or, UInt16.toNat_toUInt8, UInt16.toNat_shiftRight,
    UInt16.reduceToNat, UInt8.reduceToNat, Nat.reduceMod, Nat.shiftRight_eq_div_pow, Nat.reducePow, hlow,
    Nat.and_comm 255, hbyte]
  omega

/-- The list that the alarm is filled from holds the same. -/
theorem Found.alarm {packet : List UInt8} (h : Found o (memory packet) (typeAt (memory packet))) :
    isLoopFrame packet ∧ revAlarm packet = { noAlarm with
      oltType := o.type.toByte
      oltMac := o.smac.toList
      onuLocation := o.OnuLocation
      onuType := DEVICE_TYPE_GT813_C
      onuMac := o.sysMac.toList } := by
  have hat : (if packet.getD 12 0 = 0x81 ∧ packet.getD 13 0 = 0 then 16 else 12) = typeAt (memory packet) := by
    have htagged : Tagged (memory packet) ↔ packet.getD 12 0 = 0x81 ∧ packet.getD 13 0 = 0 := tagged_iff _
    rcases typeAt_cases (memory packet) with ⟨htag, hat⟩ | ⟨htag, hat⟩
    · rw [hat, if_pos (htagged.mp htag)]
    · rw [hat, if_neg fun hbytes => htag (htagged.mpr hbytes)]
  generalize typeAt (memory packet) = rev at *
  have hflag := congrArg UInt16.toNat h.flag
  rw [load16, UInt16.toNat_ofNat'] at hflag
  unfold isLoopFrame revAlarm
  dsimp only
  rw [hat]
  have hindex : (List.range 4).foldr (fun i n => (packet.getD (rev + 18 + i) 0).toNat + 256 * n) 0 = 0 := by
    have hzero := congrArg UInt32.toNat h.ifindex
    rw [load32, UInt32.toNat_ofNat'] at hzero
    have h0 := (packet.getD (rev + 18) 0).toNat_lt
    have h1 := (packet.getD (rev + 18 + 1) 0).toNat_lt
    have h2 := (packet.getD (rev + 18 + 2) 0).toNat_lt
    have h3 := (packet.getD (rev + 18 + 3) 0).toNat_lt
    change ((packet.getD (rev + 18) 0).toNat * 16777216 + (packet.getD (rev + 18 + 1) 0).toNat * 65536 +
      (packet.getD (rev + 18 + 2) 0).toNat * 256 + (packet.getD (rev + 18 + 3) 0).toNat) % 2 ^ 32 = 0 at hzero
    change (packet.getD (rev + 18) 0).toNat + 256 * ((packet.getD (rev + 18 + 1) 0).toNat +
      256 * ((packet.getD (rev + 18 + 2) 0).toNat + 256 * ((packet.getD (rev + 18 + 3) 0).toNat + 256 * 0))) = 0
    omega
  refine ⟨?_, ?_⟩
  · have hhigh := (packet.getD (rev + 2) 0).toNat_lt
    have hlow := (packet.getD (rev + 3) 0).toNat_lt
    change ((packet.getD (rev + 2) 0).toNat * 256 + (packet.getD (rev + 3) 0).toNat) % 2 ^ 16 = 128 at hflag
    change (packet.getD (rev + 2) 0).toNat * 256 + (packet.getD (rev + 3) 0).toNat = 128
    omega
  · rw [hindex, if_neg (not_not_intro rfl)]
    rw [← h.source, ← h.oltType, ← h.onuType, ← h.location, ← h.onumac]
    rfl

/-- Where the data is found, in a frame with the tag or without. -/
theorem found_back {tagged : Bool} (h : Holds m 0 (back tagged (o.LoopBackDetectPktBuffer usVid))) :
    Found o m (typeAt m) ∧ (Tagged m ↔ tagged = true) ∧ (tagged = true → Holds m 14 (Sender.loopVid usVid)) := by
  cases tagged with
  | true =>
    obtain ⟨hfound, htag, hvid⟩ := found_tagged h
    have hat : typeAt m = 16 := if_pos htag
    rw [hat]
    exact ⟨hfound, iff_of_true htag rfl, fun _ => hvid⟩
  | false =>
    have hfound := found_untagged h
    have htag : ¬ Tagged m := by
      intro htag
      have htype := hfound.type
      rw [show load16 m 12 = 0x8100 from htag] at htype
      exact absurd htype (by decide)
    have hat : typeAt m = 12 := if_neg htag
    rw [hat]
    exact ⟨hfound, iff_of_false htag Bool.false_ne_true, nofun⟩

end

/-- A probe that comes back, with its tag or without it and with anything behind it, is told from
all other frames by the packet thread, and the handler reads from it the VLAN and what the sender
has put in; the alarm that it fills names the sender. -/
theorem a_probe_is_read_as_it_was_built (o : Sender) (usVid : UInt16) {port : Nat} {sent : List UInt8}
    (hsent : (port, sent) ∈ o.lpbDetectTransFrames usVid) (tagged : Bool) (trailer : List UInt8)
    {gulLoopIgnorePort : Nat → Bool} {portid : Nat} (hport : gulLoopIgnorePort portid = false) :
    let packet := back tagged sent ++ trailer
    (gw_pkt_parser_call (memory packet) packet.length).value = GW_PKT_LPB ∧
      (loopbackFrameRevHandle gulLoopIgnorePort portid packet.length (memory packet)).value =
        some (if tagged then usVid &&& 0x0FFF else 1, some o.loopData) ∧
      isLoopFrame packet ∧ revAlarm packet = { noAlarm with
        oltType := o.type.toByte
        oltMac := o.smac.toList
        onuLocation := o.OnuLocation
        onuType := DEVICE_TYPE_GT813_C
        onuMac := o.sysMac.toList } := by
  intro packet
  obtain ⟨i, -, heq⟩ := List.mem_map.mp hsent
  obtain ⟨rfl, rfl⟩ := Prod.mk.inj heq
  have hholds : Holds (memory packet) 0 (back tagged (o.LoopBackDetectPktBuffer usVid)) :=
    ((holds_append _ _ _ _).mp (holds_memory packet)).1
  obtain ⟨hfound, htag, hvid⟩ := found_back hholds
  have hlen : packet.length ≠ 0 := by
    cases tagged with
    | true => simp [packet, back, Sender.LoopBackDetectPktBuffer, loop_detect_mac]
    | false => simp [packet, back_false, loop_detect_mac]
  refine ⟨(parser_call_loop _ _).mpr ⟨hlen, hfound.looped⟩, ?_, hfound.alarm⟩
  rw [hfound.handled hport hlen]
  cases tagged with
  | true => rw [if_pos (htag.mpr rfl), if_pos rfl, loopVid_read (hvid rfl)]
  | false => rw [if_neg (fun h => Bool.false_ne_true (htag.mp h)), if_neg Bool.false_ne_true]

/-- A probe in VLAN 100 comes back to port 2 without its tag. -/
theorem a_probe_comes_back_untagged :
    let o : Sender :=
      ⟨#v[0, 1, 2, 3, 4, 5], #v[0x00, 0x0c, 0xd5, 0x67, 7, 3], #v[6, 7, 8, 9, 10, 11], 9, 0, 0, 4, fun _ => true⟩
    let packet := back false (o.LoopBackDetectPktBuffer 100)
    (gw_pkt_parser_call (memory packet) packet.length).value = GW_PKT_LPB ∧
      (revAlarm packet).onuLocation = [0, 7, 3, 9] ∧ (revAlarm packet).onuMac = [6, 7, 8, 9, 10, 11] := by
  intro o packet
  have hsent : (1, o.LoopBackDetectPktBuffer 100) ∈ o.lpbDetectTransFrames 100 :=
    List.mem_map.mpr ⟨0, List.mem_filter.mpr ⟨List.mem_range.mpr (by decide), rfl⟩, rfl⟩
  obtain ⟨gulLoopIgnorePort, hport⟩ : ∃ gulLoopIgnorePort : Nat → Bool, gulLoopIgnorePort 2 = false :=
    ⟨fun _ => false, rfl⟩
  obtain ⟨htype, -, -, halarm⟩ := a_probe_is_read_as_it_was_built o 100 hsent false [] hport
  rw [List.append_nil] at htype halarm
  rw [halarm]
  exact ⟨htype, by decide, by decide⟩

end gwdonu.loop_probe
