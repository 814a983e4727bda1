-- What the handler of RCP frames reads of a frame on its way to the records of the switches and
-- to the registers that callers wait for, and what it writes to its own buffer.
import Gwdonu.FrameReads
import Gwdonu.SwitchRecords

namespace gwdonu.rcp_receive

open reading oam frame_reads
open pkt_main (GW_PKT_RCP)
open rcp (RCP_RET MAX_RRCP_SWITCH_TO_MANAGE RCP_PKT_MAX_LENGTH)
open switch_monitor (Mac gwdOui insertTag sourceMac RCP_MAC_SIZE RCP_HELLO_CHIPID_OFFSET REALTEK_RRCP_HELLO_REPLY)
open switch_records (RCP_DEV Record Env RCP_HELLO_PAYLOAD_OFFSET)

/-! ## The registers -/

/-- The switch of a register: the one of a port, or one that has left the list, with its MAC. -/
inductive Dev where
  | listed (port : Nat)
  | dropped (switchMac : Mac)
  deriving DecidableEq

/-- `semAccess` is how often its semaphore can be taken. -/
structure RCP_REG where
  address : UInt16
  value : UInt32
  dev : Dev
  validFlag : UInt16
  semAccess : Nat
  deriving DecidableEq

/-- `semAccessRcpRegList` is how often the semaphore can be taken. -/
structure State where
  records : switch_records.State
  gulGwdRcpAuth : Bool
  rcpRegList : List (Option RCP_REG)
  semAccessRcpRegList : Nat

/-- The codes of `rcp_gwd.h`, with the two that only the handler of a packet returns. -/
inductive Ret where
  | code (ret : RCP_RET)
  | RCP_NOT_SUPPORTED
  | RCP_ILLEGAL_AUTHKEY
  deriving DecidableEq

def REALTEK_RRCP_GET_REPLY : UInt16 := 0x0181

def State.switchMac (s : State) : Dev → Option Mac
  | .listed port => (s.records.rcpDevList port).map (·.dev.switchMac)
  | .dropped mac => some mac

/-- The register is the one of this address and this switch. -/
def State.Matches (s : State) (dev : RCP_DEV) (regAddr : UInt16) (reg : RCP_REG) : Prop :=
  regAddr = reg.address ∧ s.switchMac reg.dev = some dev.switchMac

instance (s : State) (dev : RCP_DEV) (regAddr : UInt16) (reg : RCP_REG) : Decidable (s.Matches dev regAddr reg) :=
  inferInstanceAs (Decidable (_ ∧ _))

/-- The entry of the list. -/
def State.RCP_RegList_Search (s : State) (dev : RCP_DEV) (regAddr : UInt16) : Option Nat :=
  s.rcpRegList.findIdx? fun slot => slot.any fun reg => s.Matches dev regAddr reg

/-- What a reply writes to the register. -/
def RCP_REG.complete (value : UInt32) (reg : RCP_REG) : RCP_REG :=
  { reg with value, validFlag := 1, semAccess := reg.semAccess + 1 }

/-! ## The program -/

def GET_RCP_PKT_SHORT (buf : Mem) (i : Nat) : UInt16 := (buf (i + 1)).toUInt16 <<< 8 ||| (buf i).toUInt16

def GET_RCP_PKT_LONG (buf : Mem) (i : Nat) : UInt32 :=
  (buf i).toUInt32 ||| (buf (i + 1)).toUInt32 <<< 8 ||| (buf (i + 2)).toUInt32 <<< 16 |||
    (buf (i + 3)).toUInt32 <<< 24

def Rcp_ChipId_AuthCheck (packet : Mem) : Reading Bool :=
  readAt RCP_HELLO_CHIPID_OFFSET 2 (switch_monitor.Rcp_ChipId_AuthCheck packet)

/-- A new record gets the destination of the packet. -/
def create (s : switch_records.State) (e : Env) (parentPort : Nat) (pkt : Mem) : Reading Record :=
  readAt 0 RCP_MAC_SIZE (.create s e parentPort pkt)

/-- A record gets the source of the packet, and of the payload the chip, the vendor, the port and
the key, in this order. -/
def hello (s : switch_records.State) (e : Env) (pkt : Mem) (r : Record) : Reading Record :=
  ⟨r.hello s e pkt, [⟨RCP_MAC_SIZE, RCP_MAC_SIZE⟩, ⟨RCP_HELLO_PAYLOAD_OFFSET + 10, 2⟩,
    ⟨RCP_HELLO_PAYLOAD_OFFSET + 12, 4⟩, ⟨RCP_HELLO_PAYLOAD_OFFSET + 2, 1⟩, ⟨RCP_HELLO_PAYLOAD_OFFSET, 2⟩]⟩

/-- The record of the port, or a new one, when there is memory. -/
def record (s : switch_records.State) (e : Env) (parentPort : Nat) (pkt : Mem) : Reading (Option Record) :=
  match s.rcpDevList parentPort with
  | some r => pure (some r)
  | none =>
    if e.mal then do
      let r ← create s e parentPort pkt
      pure (some r)
    else pure none

/-- `none` when the call does not return. -/
def RCP_DevList_Update (s : switch_records.State) (e : Env) (parentPort : Nat) (pkt : Mem) :
    Reading (Option (switch_records.State × RCP_RET)) :=
  if MAX_RRCP_SWITCH_TO_MANAGE ≤ parentPort then pure (some (s, .RCP_BAD_PARAM))
  else do
    let chip ← Rcp_ChipId_AuthCheck pkt
    if ¬ chip then pure (some (s, .RCP_UNKOWN))
    else if s.semAccessRcpDevList = 0 then pure none
    else do
      let s := { s with semAccessRcpDevList := s.semAccessRcpDevList - 1 }
      let record ← record s e parentPort pkt
      match record with
      | none => pure (some (s, .RCP_NO_MEM))
      | some r => do
        let r ← hello s e pkt r
        pure (some ({ s with
          rcpDevList := Function.update s.rcpDevList parentPort (some r)
          semAccessRcpDevList := s.semAccessRcpDevList + 1 }, .RCP_OK))

/-- `none` when the call does not return. -/
def State.RCP_RegList_Update (s : State) (parentPort : Nat) (pkt : Mem) : Reading (Option (State × RCP_RET)) :=
  if MAX_RRCP_SWITCH_TO_MANAGE ≤ parentPort then pure (some (s, .RCP_BAD_PARAM))
  else
    match s.records.rcpDevList parentPort with
    | none => pure (some (s, .RCP_NOT_INITIALIZED))
    | some r => do
      let authKey ← array pkt RCP_HELLO_PAYLOAD_OFFSET 2
      if r.dev.authenKey.toList ≠ authKey then pure (some (s, .RCP_UNKOWN))
      else do
        let regAddress ← readAt 22 2 (GET_RCP_PKT_SHORT pkt 22)
        if s.semAccessRcpRegList = 0 then pure none
        else
          match s.RCP_RegList_Search r.dev regAddress with
          | none => pure (some (s, .RCP_NO_SUCH))
          | some i => do
            let value ← readAt 24 4 (GET_RCP_PKT_LONG pkt 24)
            pure (some ({ s with
              rcpRegList := s.rcpRegList.modify i (Option.map (RCP_REG.complete value)) }, .RCP_OK))

/-- The opcodes of `rrcp_packet_handler`. -/
def State.opcode (s : State) (e : Env) (srcPort : Nat) (packet : Mem) : Reading (Option (State × Ret)) := do
  let en_pro_II ← short packet 16
  if ntohs en_pro_II ≠ ETH_TYPE_RRCP then pure (some (s, .code .RCP_BAD_VALUE))
  else do
    let en_ver ← short packet 18
    if ntohs en_ver = REALTEK_RRCP_HELLO_REPLY then do
      let r ← RCP_DevList_Update s.records e srcPort packet
      pure (r.map fun (records, ret) => ({ s with records }, .code ret))
    else if ntohs en_ver = REALTEK_RRCP_GET_REPLY then do
      let r ← s.RCP_RegList_Update srcPort packet
      pure (r.map fun (s, ret) => (s, .code ret))
    else pure (some (s, .RCP_NOT_SUPPORTED))

def State.rrcp_packet_handler (s : State) (e : Env) (srcPort : Nat) (packet : Mem) :
    Reading (Option (State × Ret)) :=
  if s.gulGwdRcpAuth then do
    let oui ← array packet RCP_MAC_SIZE 3
    if oui ≠ gwdOui then pure (some (s, .RCP_ILLEGAL_AUTHKEY)) else s.opcode e srcPort packet
  else s.opcode e srcPort packet

/-- What a frame comes to: the result, and what is read of the frame, written to
`gucRxRcpPktBuf` and read of it. -/
structure Received where
  result : Option (State × Int32)
  frameReads : List Extent
  bufWrites : List Extent
  bufReads : List Extent

def returned (r : Option (State × Ret)) : Option (State × Int32) :=
  r.map fun (s, iRet) => (s, if iRet = .code .RCP_OK then 1 else 0)

/-- The frame goes to the handler as it is, or through the buffer, where it gets a tag. -/
def State.RcpFrameRevHandle (s : State) (e : Env) (portid len : Nat) (frame : Mem) : Received :=
  if len < 16 ∨ RCP_PKT_MAX_LENGTH - 4 ≤ len then ⟨some (s, 0), [], [], []⟩
  else
    let tag := tagBytes frame
    if tag.value then
      let handled := s.rrcp_packet_handler e portid frame
      ⟨returned handled.value, tag.reads ++ handled.reads, [], []⟩
    else
      let handled := s.rrcp_packet_handler e portid (insertTag frame len)
      { result := returned handled.value
        frameReads := tag.reads ++ [⟨0, RCP_MAC_SIZE + RCP_MAC_SIZE⟩, ⟨12, len - 12⟩]
        bufWrites := [⟨0, RCP_PKT_MAX_LENGTH⟩, ⟨0, RCP_MAC_SIZE + RCP_MAC_SIZE⟩, ⟨12, 1⟩, ⟨13, 1⟩, ⟨14, 1⟩, ⟨15, 1⟩,
          ⟨16, len - 12⟩]
        bufReads := handled.reads }

/-! ## The law -/

/-- The packet passes the test of the OUI. -/
def State.Admits (s : State) (m : Mem) : Prop := s.gulGwdRcpAuth = true → bytes m RCP_MAC_SIZE 3 = gwdOui

/-- The packet comes to the update of the opcode, for a port of the list. -/
structure State.Opens (s : State) (portid : Nat) (m : Mem) (opcode : UInt16) : Prop where
  admits : s.Admits m
  type : load16 m 16 = ETH_TYPE_RRCP
  opcode : load16 m 18 = opcode
  port : portid < MAX_RRCP_SWITCH_TO_MANAGE

/-- The hello reply is written to a record. -/
structure Answers (s : switch_records.State) (e : Env) (portid : Nat) (m : Mem) : Prop where
  chip : switch_monitor.Rcp_ChipId_AuthCheck m
  sem : 0 < s.semAccessRcpDevList
  room : s.rcpDevList portid = none → e.mal = true

/-- The reply has the key of the record. -/
structure State.Keyed (s : State) (portid : Nat) (m : Mem) (r : Record) : Prop where
  record : s.records.rcpDevList portid = some r
  key : r.dev.authenKey.toList = bytes m RCP_HELLO_PAYLOAD_OFFSET 2

/-- The reply is for a register in the list, and the list is not locked for ever. -/
def State.Awaits (s : State) (m : Mem) (r : Record) : Prop :=
  0 < s.semAccessRcpRegList ∧ (s.RCP_RegList_Search r.dev (GET_RCP_PKT_SHORT m 22)).isSome

section
variable (s : State) (e : Env) (portid : Nat) (m : Mem) (len : Nat)

/-- Nothing is read of the frame from `len` on, and nothing of the buffer behind its end, nor
written there. -/
structure StaysInside : Prop where
  parser : (gw_rcppktparser m len).Inside len
  frame : ∀ x ∈ (s.RcpFrameRevHandle e portid len m).frameReads, x.Inside len
  written : ∀ x ∈ (s.RcpFrameRevHandle e portid len m).bufWrites, x.Inside RCP_PKT_MAX_LENGTH
  read : ∀ x ∈ (s.RcpFrameRevHandle e portid len m).bufReads, x.Inside RCP_PKT_MAX_LENGTH

/-- The packet is long enough for what its bytes and the lists make of it. -/
structure LongEnough : Prop where
  type : s.Admits m → 18 ≤ len
  opcode : s.Admits m → load16 m 16 = ETH_TYPE_RRCP → 20 ≤ len
  chip : s.Opens portid m REALTEK_RRCP_HELLO_REPLY → 32 ≤ len
  payload : s.Opens portid m REALTEK_RRCP_HELLO_REPLY → Answers s.records e portid m → 36 ≤ len
  key : s.Opens portid m REALTEK_RRCP_GET_REPLY → (s.records.rcpDevList portid).isSome → 22 ≤ len
  regAddress : s.Opens portid m REALTEK_RRCP_GET_REPLY → ∀ r, s.Keyed portid m r → 24 ≤ len
  regValue : s.Opens portid m REALTEK_RRCP_GET_REPLY → ∀ r, s.Keyed portid m r → s.Awaits m r → 28 ≤ len

end

variable {s : State} {e : Env} {portid : Nat} {m : Mem} {len : Nat}

/-! ## The updates -/

/-- The update is the one of the records, with what it reads. -/
theorem update_value (s : switch_records.State) (e : Env) (portid : Nat) (m : Mem) :
    (RCP_DevList_Update s e portid m).value = s.RCP_DevList_Update e portid (some m) := by
  unfold RCP_DevList_Update switch_records.State.RCP_DevList_Update
  by_cases hport : MAX_RRCP_SWITCH_TO_MANAGE ≤ portid
  · rw [if_pos hport, if_pos hport]
    rfl
  rw [if_neg hport, if_neg hport, value_bind, Rcp_ChipId_AuthCheck, value_readAt]
  by_cases hchip : switch_monitor.Rcp_ChipId_AuthCheck m
  · simp only [hchip, decide_true, not_true_eq_false, if_false]
    by_cases hsem : s.semAccessRcpDevList = 0
    · rw [if_pos hsem, if_pos hsem]
      rfl
    rw [if_neg hsem, if_neg hsem]
    cases hrecord : s.rcpDevList portid with
    | some r => simp only [record, hrecord, value_bind, value_pure, hello]
    | none => cases hmal : e.mal <;> simp [record, hrecord, hmal, create, hello]
  · simp [hchip]

theorem record_inside (s : switch_records.State) (e : Env) (portid : Nat) (m : Mem) (hlen : 16 ≤ len) :
    (record s e portid m).Inside len := by
  unfold record create
  split
  · exact inside_pure _
  · split_ifs
    · rw [inside_readAt_bind, RCP_MAC_SIZE]
      exact ⟨by omega, inside_pure _⟩
    · exact inside_pure _

theorem record_isSome (s : switch_records.State) (e : Env) (portid : Nat) (m : Mem) :
    (record s e portid m).value.isSome ↔ (s.rcpDevList portid = none → e.mal = true) := by
  unfold record
  cases s.rcpDevList portid with
  | some r => simp
  | none => cases e.mal <;> simp

theorem hello_inside (s : switch_records.State) (e : Env) (m : Mem) (r : Record) :
    (hello s e m r).Inside len ↔ 36 ≤ len := by
  simp only [hello, Reading.Inside, Extent.Inside, List.forall_mem_cons, RCP_MAC_SIZE, RCP_HELLO_PAYLOAD_OFFSET]
  constructor
  · rintro ⟨-, -, hvendor, -⟩
    omega
  · intro h
    exact ⟨by omega, by omega, by omega, by omega, by omega, List.forall_mem_nil _⟩

theorem update_inside (s : switch_records.State) (e : Env) (portid : Nat) (m : Mem) (hlen : 16 ≤ len) :
    (RCP_DevList_Update s e portid m).Inside len ↔
      (portid < MAX_RRCP_SWITCH_TO_MANAGE → 32 ≤ len ∧ (Answers s e portid m → 36 ≤ len)) := by
  unfold RCP_DevList_Update
  by_cases hport : MAX_RRCP_SWITCH_TO_MANAGE ≤ portid
  · rw [if_pos hport]
    exact iff_of_true (inside_pure _) fun h => absurd h (by omega)
  rw [if_neg hport, Rcp_ChipId_AuthCheck, inside_readAt_bind, RCP_HELLO_CHIPID_OFFSET]
  have hlt : portid < MAX_RRCP_SWITCH_TO_MANAGE := by omega
  simp only [hlt, true_implies, OfNat.ofNat_ne_zero, false_or]
  refine and_congr_right fun _ => ?_
  by_cases hchip : switch_monitor.Rcp_ChipId_AuthCheck m
  · rw [if_neg (by simp [hchip])]
    by_cases hsem : s.semAccessRcpDevList = 0
    · rw [if_pos hsem]
      exact iff_of_true (inside_pure _) fun h => absurd h.sem (by omega)
    rw [if_neg hsem, inside_bind]
    have hroom := record_isSome { s with semAccessRcpDevList := s.semAccessRcpDevList - 1 } e portid m
    have hrecord := record_inside { s with semAccessRcpDevList := s.semAccessRcpDevList - 1 } e portid m hlen
    simp only [hrecord, true_and]
    revert hroom
    cases (record { s with semAccessRcpDevList := s.semAccessRcpDevList - 1 } e portid m).value with
    | none =>
      intro hroom
      exact iff_of_true (inside_pure _) fun h => nomatch hroom.mpr h.room
    | some r =>
      intro hroom
      have hanswers : Answers s e portid m := ⟨hchip, Nat.pos_of_ne_zero hsem, hroom.mp rfl⟩
      rw [inside_bind, hello_inside]
      exact ⟨fun h _ => h.1, fun h => ⟨h hanswers, inside_pure _⟩⟩
  · rw [if_pos (by simp [hchip])]
    exact iff_of_true (inside_pure _) fun h => absurd h.chip hchip

theorem reply_inside (s : State) (portid : Nat) (m : Mem) :
    (s.RCP_RegList_Update portid m).Inside len ↔ (portid < MAX_RRCP_SWITCH_TO_MANAGE →
      ((s.records.rcpDevList portid).isSome → 22 ≤ len) ∧ (∀ r, s.Keyed portid m r → 24 ≤ len) ∧
        ∀ r, s.Keyed portid m r → s.Awaits m r → 28 ≤ len) := by
  unfold State.RCP_RegList_Update
  by_cases hport : MAX_RRCP_SWITCH_TO_MANAGE ≤ portid
  · rw [if_pos hport]
    exact iff_of_true (inside_pure _) fun h => absurd h (by omega)
  rw [if_neg hport]
  have hlt : portid < MAX_RRCP_SWITCH_TO_MANAGE := by omega
  simp only [hlt, true_implies]
  cases hrecord : s.records.rcpDevList portid with
  | none =>
    have hkeyed : ∀ r, ¬ s.Keyed portid m r := fun r h => nomatch hrecord.symm.trans h.record
    exact iff_of_true (inside_pure _) ⟨nofun, fun r h => absurd h (hkeyed r), fun r h => absurd h (hkeyed r)⟩
  | some r =>
    have hread : (2 = 0 ∨ RCP_HELLO_PAYLOAD_OFFSET + 2 ≤ len) ↔ 22 ≤ len := by
      rw [RCP_HELLO_PAYLOAD_OFFSET]
      omega
    dsimp only
    rw [array_bind, hread]
    by_cases hkey : r.dev.authenKey.toList = bytes m RCP_HELLO_PAYLOAD_OFFSET 2
    · have hkeyed : s.Keyed portid m r := ⟨hrecord, hkey⟩
      have hall (P : Record → Prop) : (∀ r, s.Keyed portid m r → P r) ↔ P r :=
        ⟨fun h => h r hkeyed, fun h q hq => Option.some.inj (hrecord.symm.trans hq.record) ▸ h⟩
      rw [if_neg (not_not_intro hkey), inside_readAt_bind, hall, hall]
      by_cases hsem : s.semAccessRcpRegList = 0
      · rw [if_pos hsem]
        have hawaits : ¬ s.Awaits m r := fun h => absurd h.1 (by omega)
        simp only [inside_pure, Option.isSome_some, hawaits, true_implies, false_implies, and_true, OfNat.ofNat_ne_zero,
          false_or]
      rw [if_neg hsem]
      cases hfound : s.RCP_RegList_Search r.dev (GET_RCP_PKT_SHORT m 22) with
      | none =>
        have hawaits : ¬ s.Awaits m r := fun h => by simpa [hfound] using h.2
        simp only [inside_pure, Option.isSome_some, hawaits, true_implies, false_implies, and_true, OfNat.ofNat_ne_zero,
          false_or]
      | some i =>
        have hawaits : s.Awaits m r := ⟨Nat.pos_of_ne_zero hsem, by simp [hfound]⟩
        dsimp only
        rw [inside_readAt_bind]
        simp only [inside_pure, Option.isSome_some, hawaits, true_implies, and_true, OfNat.ofNat_ne_zero,
          false_or]
    · have hkeyed : ∀ r, ¬ s.Keyed portid m r := by
        intro q hq
        cases Option.some.inj (hrecord.symm.trans hq.record)
        exact hkey hq.key
      rw [if_pos hkey]
      simp only [inside_pure, Option.isSome_some, hkeyed, true_implies, false_implies, implies_true, and_true]

/-! ## The packet -/

/-- A packet that comes to none of the two updates needs its type and its opcode. -/
theorem idle_long_enough (hhello : ¬ s.Opens portid m REALTEK_RRCP_HELLO_REPLY)
    (hreply : ¬ s.Opens portid m REALTEK_RRCP_GET_REPLY) : LongEnough s e portid m len ↔
      (s.Admits m → 18 ≤ len) ∧ (s.Admits m → load16 m 16 = ETH_TYPE_RRCP → 20 ≤ len) := by
  constructor
  · exact fun h => ⟨h.type, h.opcode⟩
  · rintro ⟨htype, hopcode⟩
    exact ⟨htype, hopcode, fun h => absurd h hhello, fun h => absurd h hhello, fun h => absurd h hreply,
      fun h => absurd h hreply, fun h => absurd h hreply⟩

theorem opcode_inside (hadmits : s.Admits m) (hlen : 16 ≤ len) :
    (s.opcode e portid m).Inside len ↔ LongEnough s e portid m len := by
  rw [State.opcode, short_bind]
  by_cases htype : load16 m 16 = ETH_TYPE_RRCP
  · rw [if_neg (show ¬ ntohs (load16 m 16) ≠ ETH_TYPE_RRCP from not_not_intro htype), short_bind]
    by_cases hello : load16 m 18 = REALTEK_RRCP_HELLO_REPLY
    · have hget (h : s.Opens portid m REALTEK_RRCP_GET_REPLY) : False :=
        absurd (hello.symm.trans h.opcode) (by decide)
      have hopens (h : portid < MAX_RRCP_SWITCH_TO_MANAGE) : s.Opens portid m REALTEK_RRCP_HELLO_REPLY :=
        ⟨hadmits, htype, hello, h⟩
      rw [if_pos (show ntohs (load16 m 18) = REALTEK_RRCP_HELLO_REPLY from hello), inside_bind,
        update_inside _ _ _ _ hlen]
      constructor
      · rintro ⟨h18, h20, hupdate, -⟩
        exact ⟨fun _ => h18, fun _ _ => h20, fun h => (hupdate h.port).1, fun h => (hupdate h.port).2,
          fun h => (hget h).elim, fun h => (hget h).elim, fun h => (hget h).elim⟩
      · intro h
        exact ⟨h.type hadmits, h.opcode hadmits htype,
          fun hport => ⟨h.chip (hopens hport), h.payload (hopens hport)⟩, inside_pure _⟩
    rw [if_neg (show ¬ ntohs (load16 m 18) = REALTEK_RRCP_HELLO_REPLY from hello)]
    by_cases hreply : load16 m 18 = REALTEK_RRCP_GET_REPLY
    · have hopens (h : portid < MAX_RRCP_SWITCH_TO_MANAGE) : s.Opens portid m REALTEK_RRCP_GET_REPLY :=
        ⟨hadmits, htype, hreply, h⟩
      rw [if_pos (show ntohs (load16 m 18) = REALTEK_RRCP_GET_REPLY from hreply), inside_bind, reply_inside]
      constructor
      · rintro ⟨h18, h20, hupdate, -⟩
        exact ⟨fun _ => h18, fun _ _ => h20, fun h => absurd h.opcode hello, fun h => absurd h.opcode hello,
          fun h => (hupdate h.port).1, fun h => (hupdate h.port).2.1, fun h => (hupdate h.port).2.2⟩
      · intro h
        exact ⟨h.type hadmits, h.opcode hadmits htype,
          fun hport => ⟨h.key (hopens hport), h.regAddress (hopens hport), h.regValue (hopens hport)⟩, inside_pure _⟩
    · rw [if_neg (show ¬ ntohs (load16 m 18) = REALTEK_RRCP_GET_REPLY from hreply),
        idle_long_enough (fun h => hello h.opcode) fun h => hreply h.opcode]
      exact ⟨fun h => ⟨fun _ => h.1, fun _ _ => h.2.1⟩, fun h => ⟨h.1 hadmits, h.2 hadmits htype, inside_pure _⟩⟩
  · rw [if_pos (show ntohs (load16 m 16) ≠ ETH_TYPE_RRCP from htype),
      idle_long_enough (fun h => htype h.type) fun h => htype h.type]
    exact ⟨fun h => ⟨fun _ => h.1, fun _ h => absurd h htype⟩, fun h => ⟨h.1 hadmits, inside_pure _⟩⟩

theorem handler_inside (s : State) (e : Env) (portid : Nat) (m : Mem) (hlen : 16 ≤ len) :
    (s.rrcp_packet_handler e portid m).Inside len ↔ LongEnough s e portid m len := by
  have hrefused (hno : ¬ s.Admits m) : LongEnough s e portid m len :=
    (idle_long_enough (fun h => hno h.admits) fun h => hno h.admits).mpr
      ⟨fun h => absurd h hno, fun h => absurd h hno⟩
  unfold State.rrcp_packet_handler
  cases hauth : s.gulGwdRcpAuth with
  | false =>
    rw [if_neg Bool.false_ne_true]
    exact opcode_inside (fun h => nomatch hauth.symm.trans h) hlen
  | true =>
    rw [if_pos rfl, array_bind]
    by_cases houi : bytes m RCP_MAC_SIZE 3 = gwdOui
    · rw [if_neg (not_not_intro houi), opcode_inside (fun _ => houi) hlen, RCP_MAC_SIZE]
      exact and_iff_right (by omega)
    · rw [if_pos houi, RCP_MAC_SIZE]
      exact iff_of_true ⟨by omega, inside_pure _⟩ (hrefused fun h => houi (h hauth))

/-- The buffer is longer than anything that the handler reads of it. -/
theorem buffer_long_enough (s : State) (e : Env) (portid : Nat) (m : Mem) :
    LongEnough s e portid m RCP_PKT_MAX_LENGTH := by
  rw [RCP_PKT_MAX_LENGTH]
  constructor <;> intros <;> omega

theorem received_refused (s : State) (e : Env) (portid : Nat) (m : Mem)
    (h : len < 16 ∨ RCP_PKT_MAX_LENGTH - 4 ≤ len) :
    s.RcpFrameRevHandle e portid len m = ⟨some (s, 0), [], [], []⟩ :=
  if_pos h

theorem received_tagged (s : State) (e : Env) (portid : Nat) (h : ¬ (len < 16 ∨ RCP_PKT_MAX_LENGTH - 4 ≤ len))
    (htag : Tagged m) :
    s.RcpFrameRevHandle e portid len m =
      ⟨returned (s.rrcp_packet_handler e portid m).value,
        (tagBytes m).reads ++ (s.rrcp_packet_handler e portid m).reads, [], []⟩ := by
  unfold State.RcpFrameRevHandle
  rw [if_neg h]
  exact if_pos (by rw [tagBytes_value]; simp [htag])

theorem received_untagged (s : State) (e : Env) (portid : Nat) (h : ¬ (len < 16 ∨ RCP_PKT_MAX_LENGTH - 4 ≤ len))
    (htag : ¬ Tagged m) :
    s.RcpFrameRevHandle e portid len m =
      { result := returned (s.rrcp_packet_handler e portid (insertTag m len)).value
        frameReads := (tagBytes m).reads ++ [⟨0, 12⟩, ⟨12, len - 12⟩]
        bufWrites := [⟨0, 80⟩, ⟨0, 12⟩, ⟨12, 1⟩, ⟨13, 1⟩, ⟨14, 1⟩, ⟨15, 1⟩, ⟨16, len - 12⟩]
        bufReads := (s.rrcp_packet_handler e portid (insertTag m len)).reads } := by
  unfold State.RcpFrameRevHandle
  rw [if_neg h]
  exact if_neg (by rw [tagBytes_value]; simp [htag])

theorem refused_inside (s : State) (e : Env) (portid : Nat) (m : Mem)
    (h : len < 16 ∨ RCP_PKT_MAX_LENGTH - 4 ≤ len) :
    StaysInside s e portid m len := by
  refine ⟨rcp_parser_inside m len, ?_, ?_, ?_⟩
  all_goals
    rw [received_refused s e portid m h]
    exact List.forall_mem_nil _

/-- The handlers read the frame itself. -/
theorem tagged_inside (s : State) (e : Env) (portid : Nat) (h : ¬ (len < 16 ∨ RCP_PKT_MAX_LENGTH - 4 ≤ len))
    (htag : Tagged m) : StaysInside s e portid m len ↔ LongEnough s e portid m len := by
  have hreceived := received_tagged s e portid h htag
  have hread : (∀ x ∈ (s.RcpFrameRevHandle e portid len m).frameReads, x.Inside len) ↔
      LongEnough s e portid m len := by
    rw [hreceived, ← handler_inside s e portid m (by omega)]
    exact List.forall_mem_append.trans (and_iff_right (tagBytes_inside m (by omega)))
  constructor
  · intro h
    exact hread.mp h.frame
  · intro hlong
    refine ⟨rcp_parser_inside m len, hread.mpr hlong, ?_, ?_⟩
    all_goals
      rw [hreceived]
      exact List.forall_mem_nil _

/-- The handlers read the copy in the buffer. -/
theorem untagged_inside (s : State) (e : Env) (portid : Nat) (h : ¬ (len < 16 ∨ RCP_PKT_MAX_LENGTH - 4 ≤ len))
    (htag : ¬ Tagged m) : StaysInside s e portid m len := by
  refine ⟨rcp_parser_inside m len, ?_, ?_, ?_⟩
  all_goals rw [received_untagged s e portid h htag]
  · refine List.forall_mem_append.mpr ⟨tagBytes_inside m (by omega), ?_⟩
    simp only [List.forall_mem_cons, Extent.Inside]
    exact ⟨by omega, by omega, List.forall_mem_nil _⟩
  · rw [RCP_PKT_MAX_LENGTH] at h ⊢
    simp only [List.forall_mem_cons, Extent.Inside]
    exact ⟨by omega, by omega, by omega, by omega, by omega, by omega, by omega, List.forall_mem_nil _⟩
  · have h80 : 16 ≤ RCP_PKT_MAX_LENGTH := by decide
    exact (handler_inside s e portid (insertTag m len) h80).mpr (buffer_long_enough s e portid _)

/-- A frame is read inside if it has no tag or is as long as its handlers take it to be. -/
theorem an_rcp_frame_is_read_inside_iff_it_is_long_enough (s : State) (e : Env) (portid : Nat) (m : Mem) (len : Nat) :
    StaysInside s e portid m len ↔
      (Tagged m → 16 ≤ len → len < RCP_PKT_MAX_LENGTH - 4 → LongEnough s e portid m len) := by
  by_cases hlen : len < 16 ∨ RCP_PKT_MAX_LENGTH - 4 ≤ len
  · exact iff_of_true (refused_inside s e portid m hlen) (by omega)
  by_cases htag : Tagged m
  · rw [tagged_inside s e portid hlen htag]
    constructor
    · intro h _ _ _
      exact h
    · intro h
      exact h htag (by omega) (by omega)
  · exact iff_of_true (untagged_inside s e portid hlen htag) fun h => absurd h htag

/-- A list without switches and registers. -/
def blank : State where
  records := ⟨fun _ => none, 1, false, 0⟩
  gulGwdRcpAuth := false
  rcpRegList := List.replicate 10 none
  semAccessRcpRegList := 1

/-- The tag, the type and nothing of the opcode but its first byte. -/
def stub : Mem := fun i => (List.replicate 12 (0 : UInt8) ++ [0x81, 0x00, 0x00, 0x01, 0x88, 0x99, 0x01]).getD i 0

/-- The parser takes the frame for an RCP one. -/
theorem a_stub_is_read_behind_its_end :
    (gw_rcppktparser stub 19).value = GW_PKT_RCP ∧ ¬ StaysInside blank ⟨none, true, true⟩ 1 stub 19 := by
  refine ⟨by decide, fun h => ?_⟩
  have hopcode : (⟨18, 2⟩ : Extent) ∈ (blank.RcpFrameRevHandle ⟨none, true, true⟩ 1 19 stub).frameReads := by decide
  exact absurd (h.frame _ hopcode) (by decide)

end gwdonu.rcp_receive
