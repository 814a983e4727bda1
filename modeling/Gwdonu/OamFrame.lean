-- The OAM frame: the bytes of a frame in memory, the vendor header that
-- `oam.h` lays over them, and the opcodes that each direction lets through.
import Mathlib.Data.List.Basic
import Mathlib.Data.UInt
import Mathlib.Tactic.Common

namespace gwdonu.oam

/-! ## Memory -/

/-- The bytes from a pointer on. A frame has a length, but nothing stops a
reader at it: the bytes past the end of a frame are whatever lies there. -/
abbrev Mem := Nat → UInt8

/-- The `n` bytes from index `i` on, as `memcpy` reads them. -/
def bytes (m : Mem) (i n : Nat) : List UInt8 := (List.range n).map (fun k => m (i + k))

/-- Memory that starts with `l`, and holds zeros after it. -/
def memory (l : List UInt8) : Mem := fun i => l.getD i 0

/-- The bytes of `l` lie in memory from index `i` on. -/
def Holds (m : Mem) (i : Nat) (l : List UInt8) : Prop := bytes m i l.length = l

@[simp] theorem bytes_length (m : Mem) (i n : Nat) : (bytes m i n).length = n := by
  simp [bytes]

@[simp] theorem bytes_zero (m : Mem) (i : Nat) : bytes m i 0 = [] := rfl

theorem bytes_add (m : Mem) (i a b : Nat) :
    bytes m i (a + b) = bytes m i a ++ bytes m (i + a) b := by
  simp [bytes, List.range_add, Nat.add_assoc]

@[simp] theorem holds_append (m : Mem) (i : Nat) (a b : List UInt8) :
    Holds m i (a ++ b) ↔ Holds m i a ∧ Holds m (i + a.length) b := by
  unfold Holds
  rw [List.length_append, bytes_add]
  refine ⟨?_, ?_⟩
  · intro h
    exact List.append_inj h (by simp)
  · rintro ⟨ha, hb⟩
    rw [ha, hb]

@[simp] theorem holds_nil (m : Mem) (i : Nat) : Holds m i [] := rfl

@[simp] theorem holds_cons (m : Mem) (i : Nat) (b : UInt8) (l : List UInt8) :
    Holds m i (b :: l) ↔ m i = b ∧ Holds m (i + 1) l := by
  rw [← List.singleton_append, holds_append]
  simp [Holds, bytes]

theorem holds_memory (l : List UInt8) : Holds (memory l) 0 l := by
  unfold Holds bytes memory
  apply List.ext_getElem
  · simp
  · intro k hk hl
    simp [List.getD_eq_getElem?_getD, hl]

/-! ## Numbers in host order

`gw_os_config.h` defines `__BIG_ENDIAN__`, so a number lies with its high
byte first. -/

def load16 (m : Mem) (i : Nat) : UInt16 := .ofNat ((m i).toNat * 256 + (m (i + 1)).toNat)

def load32 (m : Mem) (i : Nat) : UInt32 :=
  .ofNat ((m i).toNat * 16777216 + (m (i + 1)).toNat * 65536 + (m (i + 2)).toNat * 256 +
    (m (i + 3)).toNat)

def store16 (x : UInt16) : List UInt8 := [.ofNat (x.toNat / 256), .ofNat (x.toNat % 256)]

def store32 (x : UInt32) : List UInt8 :=
  [.ofNat (x.toNat / 16777216), .ofNat (x.toNat / 65536 % 256), .ofNat (x.toNat / 256 % 256),
    .ofNat (x.toNat % 256)]

theorem load16_store16 {m : Mem} {i : Nat} {x : UInt16} (h : Holds m i (store16 x)) :
    load16 m i = x := by
  have hx := x.toNat_lt
  simp only [store16, holds_cons, holds_nil, and_true] at h
  apply UInt16.toNat_inj.mp
  rw [load16, h.1, h.2]
  simp only [UInt16.toNat_ofNat', UInt8.toNat_ofNat']
  omega

theorem load32_store32 {m : Mem} {i : Nat} {x : UInt32} (h : Holds m i (store32 x)) :
    load32 m i = x := by
  have hx := x.toNat_lt
  simp only [store32, holds_cons, holds_nil, and_true, Nat.add_assoc] at h
  apply UInt32.toNat_inj.mp
  rw [load32, h.1, h.2.1, h.2.2.1, h.2.2.2]
  simp only [UInt32.toNat_ofNat', UInt8.toNat_ofNat']
  omega

/-- The macro `gwd_htons`: the two bytes of a short change places. -/
def gwd_htons (x : UInt16) : UInt16 := ((x &&& 0x00ff) <<< 8) ||| ((x &&& 0xff00) >>> 8)

theorem gwd_htons_toNat (x : UInt16) :
    (gwd_htons x).toNat = x.toNat % 256 * 256 + x.toNat / 256 := by
  have hx := x.toNat_lt
  have hlow : x.toNat &&& 255 = x.toNat % 256 := Nat.and_two_pow_sub_one_eq_mod x.toNat 8
  have hhigh : (x.toNat &&& 65280) >>> 8 = x.toNat / 256 := by
    have hmod := Nat.and_two_pow_sub_one_eq_mod (x.toNat / 256) 8
    simp only [Nat.reducePow, Nat.reduceSub] at hmod
    rw [Nat.shiftRight_and_distrib, Nat.shiftRight_eq_div_pow, Nat.shiftRight_eq_div_pow]
    simp only [Nat.reducePow, Nat.reduceDiv, hmod]
    omega
  -- the two bytes do not overlap, so the "or" adds them
  have hor : (x.toNat % 256) <<< 8 ||| x.toNat / 256 = x.toNat % 256 * 256 + x.toNat / 256 := by
    rw [← Nat.shiftLeft_add_eq_or_of_lt (by omega), Nat.shiftLeft_eq]
  have hfit : (x.toNat % 256) <<< 8 % 2 ^ 16 = (x.toNat % 256) <<< 8 := by
    rw [Nat.shiftLeft_eq]
    omega
  simp only [gwd_htons, UInt16.toNat_or, UInt16.toNat_shiftLeft, UInt16.toNat_shiftRight,
    UInt16.toNat_and, UInt16.reduceToNat, Nat.reduceMod, hlow, hhigh, hfit, hor]

theorem gwd_htons_twice (x : UInt16) : gwd_htons (gwd_htons x) = x := by
  have hx := x.toNat_lt
  apply UInt16.toNat_inj.mp
  rw [gwd_htons_toNat, gwd_htons_toNat]
  omega

/-! ## The vendor header -/

/-- `GWTT_OAM_HEADER`: packed, the 18 bytes of the standard header first, and
a 32-bit `unsigned long`. -/
structure GWTT_OAM_HEADER where
  std_hdr : Vector UInt8 18
  oui : Vector UInt8 3
  opCode : UInt8
  senderSerNo : UInt32
  wholePktLen : UInt16
  payloadOffset : UInt16
  payLoadLength : UInt16
  sessionId : Vector UInt8 8
  deriving DecidableEq

/-- `GwOUI`: the vendor id 00-0f-e9. -/
def GwOUI : Vector UInt8 3 := #v[0x00, 0x0f, 0xe9]

/-- `sizeof(GWTT_OAM_HEADER)`. -/
def GWTT_OAM_HEADER.size : Nat := 40

/-- An array field of `n` bytes at index `i`. -/
def field (m : Mem) (i n : Nat) : Vector UInt8 n := ⟨(bytes m i n).toArray, by simp⟩

/-- The header that a cast of the frame pointer reads. -/
def GWTT_OAM_HEADER.load (m : Mem) : GWTT_OAM_HEADER where
  std_hdr := field m 0 18
  oui := field m 18 3
  opCode := m 21
  senderSerNo := load32 m 22
  wholePktLen := load16 m 26
  payloadOffset := load16 m 28
  payLoadLength := load16 m 30
  sessionId := field m 32 8

/-- The bytes of a header, as it lies at the start of `OamFrame`. -/
def GWTT_OAM_HEADER.toBytes (h : GWTT_OAM_HEADER) : List UInt8 :=
  h.std_hdr.toList ++ (h.oui.toList ++ (h.opCode :: (store32 h.senderSerNo ++
    (store16 h.wholePktLen ++ (store16 h.payloadOffset ++ (store16 h.payLoadLength ++
      h.sessionId.toList))))))

theorem field_eq {m : Mem} {i n : Nat} {v : Vector UInt8 n} (h : Holds m i v.toList) :
    field m i n = v := by
  have hb : bytes m i n = v.toList := by simpa [Holds] using h
  apply Vector.toList_inj.mp
  rw [← hb]
  simp [field, Vector.toList]

@[simp] theorem store16_length (x : UInt16) : (store16 x).length = 2 := rfl

@[simp] theorem store32_length (x : UInt32) : (store32 x).length = 4 := rfl

@[simp] theorem toBytes_length (h : GWTT_OAM_HEADER) : h.toBytes.length = GWTT_OAM_HEADER.size := by
  simp [GWTT_OAM_HEADER.toBytes, GWTT_OAM_HEADER.size]

/-- Memory that starts with the bytes of a header reads back that header. -/
theorem load_toBytes {m : Mem} {h : GWTT_OAM_HEADER} (hm : Holds m 0 h.toBytes) :
    GWTT_OAM_HEADER.load m = h := by
  simp only [GWTT_OAM_HEADER.toBytes, holds_append, holds_cons, Vector.length_toList,
    store16_length, store32_length, Nat.zero_add, Nat.reduceAdd] at hm
  obtain ⟨hstd, houi, hop, hser, hwhole, hoff, hlen, hsid⟩ := hm
  unfold GWTT_OAM_HEADER.load
  rw [field_eq hstd, field_eq houi, hop, load32_store32 hser, load16_store16 hwhole,
    load16_store16 hoff, load16_store16 hlen, field_eq hsid]

/-- A frame with these fields, in memory. The numbers are as they mean, not as
they travel. -/
def oamFrame (opCode : UInt8) (senderSerNo : UInt32) (whole offset : UInt16)
    (sessionId : Vector UInt8 8) (data : List UInt8) : Mem :=
  memory (GWTT_OAM_HEADER.toBytes
    { std_hdr := Vector.replicate 18 0, oui := GwOUI, opCode, senderSerNo
      wholePktLen := gwd_htons whole, payloadOffset := gwd_htons offset
      payLoadLength := gwd_htons (.ofNat data.length), sessionId } ++ data)

/-! ## Opcodes and results -/

/-- `enum GW_OAM_RESULT`, the results that this development meets. -/
inductive GW_OAM_RESULT where
  | OAM_MESSAGE_RECEV_OK
  | OAM_MESSAGE_RECEV_ERR
  | OAM_MESSAGE_RECEV_NOT_COMPLETE
  | OAM_MESSAGE_RECEV_TOO_LONG
  | OAM_MESSAGE_RECEV_NO_MEM
  | OAM_MESSAGE_RECEV_OPCODE_OK
  | OAM_MESSAGE_RECEV_OPCODE_ERR
  | OAM_MESSAGE_SEND_OPCODE_OK
  | OAM_MESSAGE_SEND_OPCODE_ERR
  | OAM_MESSAGE_RECEV_TIMER_ERR
  | OAM_MESSAGE_SEND_ERROR
  | OAM_MESSAGE_SEND_OK
  deriving DecidableEq

def EQU_DEVICE_INFO_REQ : UInt8 := 0x01
def EQU_DEVICE_INFO_RESP : UInt8 := 0x02
def ALARM_REQ : UInt8 := 0x03
def ALARM_RESP : UInt8 := 0x04
def FILE_READ_WRITE_REQ : UInt8 := 0x05
def FILE_TRANSFER_DATA : UInt8 := 0x07
def FILE_TRANSFER_ACK : UInt8 := 0x08
def SNMP_TRAN_REQ : UInt8 := 0x0B
def SNMP_TRAN_RESP : UInt8 := 0x0C
def SNMP_TRAN_TRAP : UInt8 := 0x0D
def CLI_REQ_TRANSMIT : UInt8 := 0x10
def CLI_RESP_TRANSMIT : UInt8 := 0x11
def IGMP_AUTH_TRAN_REQ : UInt8 := 0x12
def IGMP_AUTH_TRAN_RESP : UInt8 := 0x13
def CLI_PTY_TRANSMIT : UInt8 := 0x14
def IGMP_TVM_REQ : UInt8 := 0x16
def IGMP_TVM_RESP : UInt8 := 0x17

def OAM_DATA_LEN : Nat := 65535

def GwOamRecevOpcodeCheck (GwOpcode : UInt8) : GW_OAM_RESULT :=
  if GwOpcode ∈ [EQU_DEVICE_INFO_REQ, ALARM_RESP, FILE_READ_WRITE_REQ, FILE_TRANSFER_DATA,
      FILE_TRANSFER_ACK, SNMP_TRAN_REQ, CLI_REQ_TRANSMIT, IGMP_AUTH_TRAN_REQ,
      IGMP_AUTH_TRAN_RESP, CLI_PTY_TRANSMIT, IGMP_TVM_REQ, IGMP_TVM_RESP] then
    .OAM_MESSAGE_RECEV_OPCODE_OK
  else .OAM_MESSAGE_RECEV_OPCODE_ERR

def GwOamSendOpcodeCheck (GwOpcode : UInt8) : GW_OAM_RESULT :=
  if GwOpcode ∈ [EQU_DEVICE_INFO_RESP, ALARM_REQ, FILE_READ_WRITE_REQ, FILE_TRANSFER_DATA,
      FILE_TRANSFER_ACK, SNMP_TRAN_RESP, SNMP_TRAN_TRAP, CLI_RESP_TRANSMIT, IGMP_AUTH_TRAN_REQ,
      IGMP_AUTH_TRAN_RESP, CLI_PTY_TRANSMIT, IGMP_TVM_REQ, IGMP_TVM_RESP] then
    .OAM_MESSAGE_RECEV_OPCODE_OK
  else .OAM_MESSAGE_RECEV_OPCODE_ERR

end gwdonu.oam
