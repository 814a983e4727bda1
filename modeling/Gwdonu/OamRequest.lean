-- The information requests: `GwOamInformationRequest` takes the payload of a
-- delivered message apart, and this follows every byte that it reads of the
-- payload and every byte that it writes.
import Gwdonu.OamReceive

namespace gwdonu.oam

/-! ## Reads and writes -/

/-- What the handler writes to. -/
inductive Object where
  | Response
  | device_name
  | g_cSetTime
  | w_gw_tim
  | tframe
  | oam_onu_lpb_detect_frame
  | info
  | responseInfo
  deriving DecidableEq

def USR_MAC_LEN : Nat := 6
def USR_MAC_REQUEST_MAX : Nat := 64
def USR_MAC_RESPONS_MAC_MAX : Nat := 32

/-- `sizeof(userMacResponse_t)`: two addresses, three bytes, a short and a word. -/
def userMacResponse_size : Nat := 21

/-- `sizeof(userMacRequest_pdu_t)`, and of the response's. -/
def userMacPdu_size : Nat := 4

/-- `sizeof(OAM_ONU_LPB_DETECT_FRAME)`. -/
def OAM_ONU_LPB_DETECT_FRAME_size : Nat := 19

def LPB_OLD_VER_LEN : Nat := OAM_ONU_LPB_DETECT_FRAME_size - 4

def Object.size : Object → Nat
  | .Response => 1024
  | .device_name => 132
  | .g_cSetTime => 20
  | .w_gw_tim => 36
  | .tframe => OAM_ONU_LPB_DETECT_FRAME_size
  | .oam_onu_lpb_detect_frame => OAM_ONU_LPB_DETECT_FRAME_size
  | .info => USR_MAC_REQUEST_MAX * USR_MAC_LEN
  | .responseInfo => USR_MAC_RESPONS_MAC_MAX * userMacResponse_size

/-- An access of `n` bytes: a read of the payload, or a write to an object. -/
inductive Access where
  | read (off n : Nat)
  | write (o : Object) (off n : Nat)
  deriving DecidableEq

/-- The access stays in the `RevPktLen` bytes of the payload, or in the object. -/
def Access.InBounds (RevPktLen : Nat) : Access → Prop
  | .read off n => off + n ≤ RevPktLen
  | .write o off n => off + n ≤ o.size

instance Access.decidableInBounds (r : Nat) (a : Access) : Decidable (a.InBounds r) := by
  cases a <;> unfold Access.InBounds <;> infer_instance

/-! ## The objects and the answer -/

structure localtime_tm where
  tm_sec : Nat
  tm_min : Nat
  tm_hour : Nat
  tm_mday : Nat
  tm_mon : Nat
  tm_year : Nat
  deriving DecidableEq

/-- `oam_onu_lpb_detect_frame`, the settings of the loop detection. -/
structure LpbSettings where
  vid : UInt16
  smac : List UInt8
  interval : UInt16
  policy : UInt16
  waitforwakeup : UInt16
  maxwakeup : UInt16
  deriving DecidableEq

/-- The globals that the handler writes. -/
structure Globals where
  device_name : List UInt8
  g_cSetTime : List UInt8
  w_gw_tim : localtime_tm
  tframe : List UInt8
  oam_onu_lpb_detect_frame : LpbSettings
  deriving DecidableEq

/-- How the handler ends: with an error, with no answer, or with a call of
`CommOnuMsgSend` for these bytes. `searching` is the address search before the
forwarding table comes to an end. -/
inductive Reply where
  | err
  | ok
  | send (Response : List UInt8)
  | searching
  deriving DecidableEq

structure Handling where
  globals : Globals
  accesses : List Access
  reply : Reply

/-- What comes before the rest of a handling. -/
def Handling.after (h : Handling) (before : List Access) : Handling :=
  { h with accesses := before ++ h.accesses }

/-! ## The device name -/

/-- The bytes that a write leaves in `device_name`: zeros, then the copy. -/
def newName (payload : Mem) (tmpLen : Nat) : List UInt8 :=
  overlay (List.replicate Object.device_name.size 0) 0 (bytes payload 2 tmpLen)

/-- `ONU_INFOR_SET`. The name is read whole or up to the size of its field, the
other two strings are stepped over; each that is not empty is answered with 1. -/
def inforSet (g : Globals) (payload : Mem) : Handling :=
  let nameLen := (payload 1).toNat
  let tmpLen := if Object.device_name.size < nameLen then Object.device_name.size else nameLen
  let descrLen := (payload (2 + nameLen)).toNat
  let locationLen := (payload (3 + nameLen + descrLen)).toNat
  let answers := [nameLen, descrLen, locationLen].filter (fun n => n ≠ 0)
  { globals := if nameLen ≠ 0 then { g with device_name := newName payload tmpLen } else g
    accesses :=
      [.write .Response 0 1, .read 1 1] ++
      (if nameLen ≠ 0 then
        [.write .device_name 0 Object.device_name.size, .read 2 tmpLen,
          .write .device_name 0 tmpLen]
      else []) ++
      [.read (2 + nameLen) 1, .read (3 + nameLen + descrLen) 1] ++
      (List.range answers.length).map (fun k => .write .Response (1 + k) 1)
    reply := .send (2 :: answers.map (fun _ => 1)) }

/-! ## The time -/

/-- Two decimal digits, as `%02d` prints a number below 100. -/
def twoDigits (v : Nat) : List UInt8 := [.ofNat (48 + v / 10), .ofNat (48 + v % 10)]

/-- A field of the time after the year: the highest value that it may have, the
text behind it, and where it goes. -/
structure TimeField where
  max : Nat
  sep : List UInt8
  set : localtime_tm → Nat → localtime_tm

/-- Month, day, hour, minute and second. -/
def timeFields : List TimeField :=
  [⟨12, [0x2f], fun t v => { t with tm_mon := v }⟩,
    ⟨31, [0x3a], fun t v => { t with tm_mday := v }⟩,
    ⟨24, [0x3a], fun t v => { t with tm_hour := v }⟩,
    ⟨59, [0x3a], fun t v => { t with tm_min := v }⟩,
    ⟨59, [], fun t v => { t with tm_sec := v }⟩]

/-- `sprintf` to `g_cSetTime + off`: the text and the zero behind it. -/
def printTime (g : Globals) (off : Nat) (text : List UInt8) : Globals :=
  { g with g_cSetTime := overlay g.g_cSetTime off (text ++ [0]) }

/-- The fields from payload index `i` on, printed from `off` on. A value out of
range ends the request, with what was written before it still there. -/
def syncFields (payload : Mem) : List TimeField → Globals → Nat → Nat → Handling
  | [], g, _, _ => ⟨g, [], .send (List.replicate 8 0)⟩
  | f :: fs, g, i, off =>
    let ucValue := (payload i).toNat
    if f.max < ucValue then ⟨g, [.read i 1], .err⟩
    else
      let text := twoDigits ucValue ++ f.sep
      let g := printTime g off text
      let g := { g with w_gw_tim := f.set g.w_gw_tim ucValue }
      (syncFields payload fs g (i + 1) (off + text.length)).after
        [.read i 1, .write .g_cSetTime off (text.length + 1), .write .w_gw_tim 0 36]

def fourDigits (v : Nat) : List UInt8 := twoDigits (v / 100) ++ twoDigits (v % 100)

def yearOf (payload : Mem) : Nat := (payload 1).toNat * 256 + (payload 2).toNat

/-- `ONU_REALTIME_SYNC`. -/
def realtimeSync (g : Globals) (payload : Mem) : Handling :=
  let g := { g with w_gw_tim := ⟨0, 0, 0, 0, 0, 0⟩ }
  let usValue := yearOf payload
  let start : List Access := [.write .w_gw_tim 0 36, .read 1 1, .read 2 1]
  if usValue < 1980 ∨ 2079 < usValue then ⟨g, start, .err⟩
  else
    let g := printTime g 0 (fourDigits usValue ++ [0x2f])
    let g := { g with w_gw_tim := { g.w_gw_tim with tm_year := usValue } }
    (syncFields payload timeFields g 3 5).after
      (start ++ [.write .g_cSetTime 0 6, .write .w_gw_tim 0 36])

/-! ## The loop detection -/

/-- `ONU_LPB_DETECT`. The frame is copied whole, whatever its length. -/
def lpbDetect (ntohs : UInt16 → UInt16) (g : Globals) (payload : Mem) (WholePktLen : Nat) :
    Handling :=
  let tframe := overlay (List.replicate OAM_ONU_LPB_DETECT_FRAME_size 0) 0
    (bytes payload 0 WholePktLen)
  let short := fun i => ntohs (load16 (memory tframe) i)
  let old : Bool := WholePktLen = LPB_OLD_VER_LEN
  let settings : LpbSettings :=
    { smac := (tframe.drop 5).take 6
      vid := short 3
      interval := if short 11 = 0 then 10 else short 11
      policy := short 13
      waitforwakeup := if old then 3 else short 15
      maxwakeup := if old then 3 else short 17 }
  { globals := { g with tframe, oam_onu_lpb_detect_frame := settings }
    accesses :=
      [.write .tframe 0 OAM_ONU_LPB_DETECT_FRAME_size, .read 0 WholePktLen,
        .write .tframe 0 WholePktLen,
        .write .oam_onu_lpb_detect_frame 0 OAM_ONU_LPB_DETECT_FRAME_size]
    reply := .ok }

/-! ## The address search -/

/-- One batch of the forwarding table. `located` is what `locateUserMac` finds
of an address in the batch: the bytes of the answer behind the address. -/
structure Batch where
  ok : Bool
  macnumberget : Nat
  located : List UInt8 → Option (Vector UInt8 15)

/-- What the search has after a pass: the addresses not found so far, the
answers, whether it is done, and what it wrote. -/
structure Search where
  info : List (List UInt8)
  answers : List (List UInt8)
  done : Bool
  accesses : List Access

def nullmac : List UInt8 := List.replicate USR_MAC_LEN 0

/-- One pass over the addresses from `requestNum` on. An address that is found
is answered and cleared; the search is done when all are, or at 32. -/
def searchPass (located : List UInt8 → Option (Vector UInt8 15)) (macNum : Nat) :
    List (List UInt8) → Nat → List (List UInt8) → Search
  | [], _, answers => ⟨[], answers, false, []⟩
  | mac :: macs, requestNum, answers =>
    if mac = nullmac then
      let r := searchPass located macNum macs (requestNum + 1) answers
      { r with info := mac :: r.info }
    else
      match located mac with
      | none =>
        let r := searchPass located macNum macs (requestNum + 1) answers
        { r with info := mac :: r.info }
      | some found =>
        let written : List Access :=
          [.write .responseInfo (answers.length * userMacResponse_size) userMacResponse_size,
            .write .info (requestNum * USR_MAC_LEN) USR_MAC_LEN]
        let answers := answers ++ [mac ++ found.toList]
        if answers.length = macNum ∨ USR_MAC_RESPONS_MAC_MAX ≤ answers.length then
          ⟨nullmac :: macs, answers, true, written⟩
        else
          let r := searchPass located macNum macs (requestNum + 1) answers
          ⟨nullmac :: r.info, r.answers, r.done, written ++ r.accesses⟩

/-- The end of the search: the header of the response, the answers, and one
reserved byte. With no answer nothing is sent. -/
def searchEnd (g : Globals) (answers : List (List UInt8)) : Handling :=
  if answers.length ≠ 0 then
    { globals := g
      accesses :=
        [.write .Response 0 userMacPdu_size,
          .write .Response userMacPdu_size (answers.length * userMacResponse_size)]
      reply := .send ([200, 1, 1, .ofNat answers.length] ++ answers.flatten ++ [0]) }
  else ⟨g, [], .err⟩

/-- The batches, one pass for each. -/
def searchLoop (g : Globals) (macNum : Nat) :
    List Batch → List (List UInt8) → List (List UInt8) → Handling
  | [], _, _ => ⟨g, [], .searching⟩
  | batch :: batches, info, answers =>
    if batch.ok = false then ⟨g, [], .err⟩
    else if batch.macnumberget = 0 then searchEnd g answers
    else
      let r := searchPass batch.located macNum info 0 answers
      if r.done then (searchEnd g r.answers).after r.accesses
      else (searchLoop g macNum batches r.info r.answers).after r.accesses

/-- `ONU_LOCATE_USER`. `mal` is whether there is memory for the response. -/
def locateUser (mal : Bool) (batches : List Batch) (g : Globals) (payload : Mem) : Handling :=
  if mal = false then ⟨g, [], .err⟩
  else
    let macNum := (payload 3).toNat
    if USR_MAC_REQUEST_MAX < macNum then ⟨g, [.read 3 1], .err⟩
    else
      let info := (List.range macNum).map
        (fun requestNum => bytes payload (userMacPdu_size + requestNum * USR_MAC_LEN) USR_MAC_LEN)
      let copied := (List.range macNum).flatMap (fun requestNum =>
        [Access.read (userMacPdu_size + requestNum * USR_MAC_LEN) USR_MAC_LEN,
          .write .info (requestNum * USR_MAC_LEN) USR_MAC_LEN])
      (searchLoop g macNum batches info []).after (.read 3 1 :: copied)

/-! ## GwOamInformationRequest -/

def ONU_INFOR_GET : UInt8 := 1
def ONU_INFOR_SET : UInt8 := 2
def ONU_REALTIME_SYNC : UInt8 := 3
def ONU_LPB_DETECT : UInt8 := 4
def ACCESS_IDENTIFIER : UInt8 := 8
def ONU_LOCATE_USER : UInt8 := 200

/-- What the handler gets from around it: the swap of the build, the report of
`ONU_INFOR_GET`, which holds versions and names of the ONU and nothing of the
request, the memory for the response of a search, and the batches of the
forwarding table. -/
structure RequestEnv where
  ntohs : UInt16 → UInt16
  report : List UInt8
  mal : Bool
  batches : List Batch

/-- `payload` is the memory that `pPayLoad` points to. -/
def GwOamInformationRequest (env : RequestEnv) (g : Globals) (pRequest : GWTT_OAM_MESSAGE_NODE)
    (payload : Mem) : Handling :=
  if pRequest.GwOpcode ≠ EQU_DEVICE_INFO_REQ then ⟨g, [], .err⟩
  else if pRequest.pPayLoad = none then ⟨g, [], .err⟩
  else
    let type := payload 0
    Handling.after
      (if type = ONU_INFOR_GET then
        ⟨g, [.write .Response 0 env.report.length], .send env.report⟩
      else if type = ONU_INFOR_SET then inforSet g payload
      else if type = ONU_REALTIME_SYNC then realtimeSync g payload
      else if type = ACCESS_IDENTIFIER then ⟨g, [], .send []⟩
      else if type = ONU_LPB_DETECT then lpbDetect env.ntohs g payload pRequest.WholePktLen
      else if type = ONU_LOCATE_USER then locateUser env.mal env.batches g payload
      else ⟨g, [], .err⟩)
      [.read 0 1]

end gwdonu.oam
