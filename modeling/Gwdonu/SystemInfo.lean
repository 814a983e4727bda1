-- The product information: a record in memory with texts in it, that goes to the flash as it is, and
-- what the commands and the requests make of it.
import Gwdonu.Lib.Prefixed
import Gwdonu.Lib.Runs
import Gwdonu.Lib.Slots
import Gwdonu.TimeSync
import Gwdonu.VlanCli

namespace gwdonu.system_info

open cells runs Function
open oam (Mem ONU_INFOR_GET ONU_INFOR_SET)
open slots (Layout Shows)

/-! ## The program -/

/-- A record of that type, byte by byte. -/
abbrev ONU_SYS_INFO_TOTAL := Int → UInt8

/-- The texts of the record. -/
inductive Field where
  | device_name
  | sw_version
  | serial_no
  | hw_version
  | hw_manufature_date
  deriving DecidableEq

def record : Layout Field where
  start
    | .device_name => 4
    | .sw_version => 136
    | .serial_no => 148
    | .hw_version => 166
    | .hw_manufature_date => 173
  size
    | .device_name => 132
    | .sw_version => 12
    | .serial_no => 18
    | .hw_version => 7
    | .hw_manufature_date => 12
  apart f g := by cases f <;> cases g <;> decide

def product_type : Nat := 2
def valid_flag : Nat := 221
def record_size : Nat := 224

def DEVICE_TYPE_UNKNOWN : List UInt8 := [0x00, 0x01]
def DEVICE_TYPE_GT811_A : List UInt8 := [0x00, 0x11]
def DEVICE_TYPE_GT813_C : List UInt8 := [0x00, 0x2d]

def ascii (l : List Char) : List UInt8 := l.map fun c => .ofNat c.toNat

/-- `%d` and `%02d`. -/
def decimal (n : Int) : List UInt8 := (if n < 0 then [0x2d] else []) ++ ascii (Nat.toDigits 10 n.natAbs)
def decimal02 (n : Int) : List UInt8 := List.replicate (2 - (decimal n).length) 0x30 ++ decimal n

/-- What the platform gives: the number of ports, and the text that `LIB_IF_ONU_VER_GET` writes. -/
structure Host where
  g_uni_port_num : UInt8
  onuverget : List UInt8
  version_fits : onuverget.length < 12
  version_text : 0 ∉ onuverget

/-- The record in memory, and the one in the flash. -/
structure State where
  gw_onu_system_info_total : ONU_SYS_INFO_TOTAL
  flash : ONU_SYS_INFO_TOTAL

/-- The text that a `%s` reads, as far as the record goes. -/
def ONU_SYS_INFO_TOTAL.string (pi : ONU_SYS_INFO_TOTAL) (f : Field) : List UInt8 :=
  text 0 pi (record.start f) (record_size - record.start f)

def sprintf (pi : ONU_SYS_INFO_TOTAL) (f : Field) (t : List UInt8) : ONU_SYS_INFO_TOTAL :=
  put pi (record.start f) (t ++ [0])

def snprintf (pi : ONU_SYS_INFO_TOTAL) (f : Field) (t : List UInt8) : ONU_SYS_INFO_TOTAL :=
  sprintf pi f (t.take (record.size f - 1))

/-- The last byte of the field becomes 0. -/
def terminate (pi : ONU_SYS_INFO_TOTAL) (f : Field) : ONU_SYS_INFO_TOTAL :=
  put pi (record.start f + record.size f - 1 : Nat) [0]

variable (host : Host)

def resetSysInfoToDefault : ONU_SYS_INFO_TOTAL :=
  let pi : ONU_SYS_INFO_TOTAL := fun _ => 0
  let pi := snprintf pi .device_name
    (ascii ['O', 'N', 'U', '-'] ++ decimal host.g_uni_port_num.toNat ++ ascii ['F', 'E'])
  let pi := put pi product_type DEVICE_TYPE_UNKNOWN
  let pi := snprintf pi .serial_no (ascii ['S', 'N', '0', '0', '0', '0', '0', '0', '0', '1'])
  let pi := snprintf pi .sw_version (ascii ['V', '1', 'R', '0', '1', 'B', '0', '0', '1'])
  let pi := snprintf pi .hw_version (ascii ['V', '1', '.', '0'])
  let pi := snprintf pi .hw_manufature_date (ascii ['1', '9', '7', '0', '-', '0', '1', '-', '0', '1'])
  put pi valid_flag (ascii ['E'])

namespace State

variable (s : State)

/-- `isRestored` is whether `LIB_IF_SYSCONF_RESTORE` has copied the record from the flash. The return
value is always `GWD_RETURN_OK`. -/
def GW_Onu_Sysinfo_Get_From_Flash (isRestored : Bool) : State :=
  let pi := if isRestored then s.flash else resetSysInfoToDefault host
  let pi := if pi valid_flag ≠ 0x45 then resetSysInfoToDefault host else pi
  let pi := terminate pi .device_name
  let pi := terminate pi .serial_no
  let pi := terminate pi .hw_manufature_date
  { s with gw_onu_system_info_total := sprintf pi .sw_version host.onuverget }

def GW_Onu_Sysinfo_Get (isRestored : Bool) : State := s.GW_Onu_Sysinfo_Get_From_Flash host isRestored

/-- `isSaved` is whether `LIB_IF_SYSCONF_SAVE` has copied the record to the flash. -/
def GW_Onu_Sysinfo_Save_To_Flash (isSaved : Bool) : State :=
  if isSaved then { s with flash := s.gw_onu_system_info_total } else s

def GW_Onu_Sysinfo_Save (isSaved : Bool) : State :=
  let pi := put s.gw_onu_system_info_total product_type DEVICE_TYPE_GT813_C
  let pi := put pi valid_flag (ascii ['E'])
  { s with gw_onu_system_info_total := pi }.GW_Onu_Sysinfo_Save_To_Flash isSaved

end State

/-! ## The commands -/

inductive CLI where
  | CLI_OK
  | CLI_ERROR
  deriving DecidableEq

/-- What the commands print. -/
inductive Line where
  | inputYear (year : Int)
  | inputMonth (year : Int)
  | inputDate (year : Int)
  | inputMajor (v_major : Int)
  | inputRelease (v_rel : Int)
  | inputBuild (vb : Int)
  | tooLong (max : Nat)
  | saveError
  | invalidInput
  | product (device_name hw_version sw_version hw_manufature_date serial_no : List UInt8)
  deriving DecidableEq

/-- What comes of an event: nothing, what a command prints and returns, the response to a request,
or the text that the platform asked for. -/
inductive Reply where
  | nothing
  | cli (rc : CLI) (lines : List Line)
  | response (Response : List UInt8)
  | hwbuf (t : List UInt8)
  deriving DecidableEq

/-- A word of a command line. -/
abbrev Word := { l : List UInt8 // 0 ∉ l }

def atoi (word : Word) : Int := vlan_cli.atoi (word.val.map fun b => Char.ofNat b.toNat)

def TOUPPER (c : UInt8) : UInt8 := if 0x61 ≤ c ∧ c ≤ 0x7a then c - 0x20 else c

/-- The text that the words of a command ask for, or what the command answers to them. -/
abbrev Asked := Except Reply (List UInt8)

def dateAsked : List Word → Asked
  | [argv0, argv1, argv2] =>
    let year := atoi argv0
    let month := atoi argv1
    let date := atoi argv2
    if year < 2007 ∨ year > 2100 then .error (.cli .CLI_ERROR [.inputYear year])
    else if month < 1 ∨ month > 12 then .error (.cli .CLI_ERROR [.inputMonth year])
    else if date < 1 ∨ date > 31 then .error (.cli .CLI_ERROR [.inputDate year])
    else .ok (decimal year ++ [0x2d] ++ decimal02 month ++ [0x2d] ++ decimal02 date)
  | _ => .error (.cli .CLI_OK [.invalidInput])

def versionAsked : List Word → Asked
  | [argv0, argv1, argv2] =>
    let v_major := atoi argv0
    let v_rel := atoi argv1
    let vb := atoi argv2
    if v_major < 1 ∨ v_major > 9 then .error (.cli .CLI_ERROR [.inputMajor v_major])
    else if v_rel < 0 ∨ v_rel > 9 then .error (.cli .CLI_ERROR [.inputRelease v_rel])
    else if vb < 1 ∨ vb > 9 then .error (.cli .CLI_ERROR [.inputBuild vb])
    else .ok ([0x56] ++ decimal v_major ++ [0x2e] ++ decimal v_rel ++ [0x42] ++ decimal vb)
  | _ => .error (.cli .CLI_OK [.invalidInput])

/-- A text of at most `max` bytes, in upper case. -/
def textAsked (max : Nat) : List Word → Asked
  | [argv0] => if argv0.val.length > max then .error (.cli .CLI_OK [.tooLong max]) else .ok (argv0.val.map TOUPPER)
  | _ => .error (.cli .CLI_OK [.invalidInput])

/-- The flash accesses of an event: which of them work. -/
structure Access where
  isRestored : Bool
  isSaved : Bool

namespace State

variable (s : State)

/-- A command for one field. `isFresh` is whether it gets the record first. -/
def configure (f : Field) (isFresh : Bool) (asked : Asked) (a : Access) : State × Reply :=
  match asked with
  | .error reply => (s, reply)
  | .ok t =>
    let s := if isFresh then s.GW_Onu_Sysinfo_Get host a.isRestored else s
    let s := { s with gw_onu_system_info_total := sprintf s.gw_onu_system_info_total f t }
    (s.GW_Onu_Sysinfo_Save a.isSaved, .cli .CLI_OK (if a.isSaved then [] else [.saveError]))

def cmd_onu_mgt_config_product_date (argv : List Word) : Access → State × Reply :=
  s.configure host .hw_manufature_date true (dateAsked argv)

/-- It changes the record that is in memory. -/
def cmd_onu_mgt_config_product_hw_version (argv : List Word) : Access → State × Reply :=
  s.configure host .hw_version false (versionAsked argv)

def cmd_onu_mgt_config_product_sn (argv : List Word) : Access → State × Reply :=
  s.configure host .serial_no true (textAsked 16 argv)

def cmd_onu_mgt_config_device_name (argv : List Word) : Access → State × Reply :=
  s.configure host .device_name true (textAsked 128 argv)

def cmd_show_system_information (a : Access) : State × Reply :=
  let s := s.GW_Onu_Sysinfo_Get host a.isRestored
  let pi := s.gw_onu_system_info_total
  (s, .cli .CLI_OK [.product (pi.string .device_name) (pi.string .hw_version) (pi.string .sw_version)
    (pi.string .hw_manufature_date) (pi.string .serial_no)])

def gwd_onu_out_if_hwver_get (len : Nat) : State × Reply :=
  (s, .hwbuf ((s.gw_onu_system_info_total.string .hw_version).take (len - 1)))

end State

/-! ## The requests -/

def irosbootver : List UInt8 := ascii [' ', 'b', 'o', 'o', 't', ' ']

/-- The texts of the response to `ONU_INFOR_GET`, each behind its length. -/
def inforGetTexts (texts : Field → List UInt8) : List (List UInt8) :=
  [texts .hw_version, irosbootver, texts .sw_version, ascii ['V', '3', '.', '1', '.', '1', '.', '1'],
    (texts .device_name).take 128,
    ascii ['C', 'T', 'C', '-', 'O', 'N', 'U', '-', 'R', 'e', 'a', 'd', 'y'],
    ascii ['B', 'e', 'i', 'j', 'i', 'n', 'g', ' ', 'C', 'h', 'i', 'n', 'a'],
    ascii ['G', 'W', ' ', 'D', 'e', 'l', 'i', 'g', 'h', 't'], texts .serial_no, texts .hw_manufature_date]

def inforGetResponse (texts : Field → List UInt8) : List UInt8 :=
  [ONU_INFOR_GET] ++ DEVICE_TYPE_GT811_A ++ [0x00, 0x0f, 0xe9] ++
    ((inforGetTexts texts).flatMap prefixed.text ++ [0, 0, 0xfe, 3, 0x80])

/-- How much of the name in `ONU_INFOR_SET` there is room for. -/
def tmpLen (payload : Mem) : Nat :=
  if record.size .device_name < (payload 1).toNat then record.size .device_name else (payload 1).toNat

/-- Each of the three texts that is not empty is answered with 1. -/
def inforSetResponse (payload : Mem) : List UInt8 :=
  let nameLen := (payload 1).toNat
  let descrLen := (payload (2 + nameLen)).toNat
  let locationLen := (payload (3 + nameLen + descrLen)).toNat
  ONU_INFOR_SET :: ([nameLen, descrLen, locationLen].filter (fun n => n ≠ 0)).map fun _ => 1

namespace State

variable (s : State)

def inforGet : State × Reply := (s, .response (inforGetResponse s.gw_onu_system_info_total.string))

def inforSet (payload : Mem) (a : Access) : State × Reply :=
  let t :=
    if (payload 1).toNat ≠ 0 then
      let s := s.GW_Onu_Sysinfo_Get host a.isRestored
      let pi := put s.gw_onu_system_info_total (record.start .device_name) (oam.newName payload (tmpLen payload))
      { s with gw_onu_system_info_total := pi }.GW_Onu_Sysinfo_Save a.isSaved
    else s
  (t, .response (inforSetResponse payload))

end State

theorem inforSet_reply (g : oam.Globals) (payload : Mem) :
    (oam.inforSet g payload).reply = .send (inforSetResponse payload) := rfl

/-- What happens to the record: the device starts, a command, a request of the OLT, or the platform asks
for the version. -/
inductive Request where
  | boot
  | date (argv : List Word)
  | hw_version (argv : List Word)
  | serial (argv : List Word)
  | devicename (argv : List Word)
  | product
  | infor_get
  | infor_set (payload : Mem)
  | hwver_get (len : Nat)

structure Event where
  request : Request
  access : Access

def step (s : State) (e : Event) : State × Reply :=
  match e.request with
  | .boot => (s.GW_Onu_Sysinfo_Get host e.access.isRestored, .nothing)
  | .date argv => s.cmd_onu_mgt_config_product_date host argv e.access
  | .hw_version argv => s.cmd_onu_mgt_config_product_hw_version host argv e.access
  | .serial argv => s.cmd_onu_mgt_config_product_sn host argv e.access
  | .devicename argv => s.cmd_onu_mgt_config_device_name host argv e.access
  | .product => s.cmd_show_system_information host e.access
  | .infor_get => s.inforGet
  | .infor_set payload => s.inforSet host payload e.access
  | .hwver_get len => s.gwd_onu_out_if_hwver_get len

/-! ## The store -/

/-- The texts by their names. -/
abbrev Texts := Field → List UInt8

/-- The texts in memory, and those that the flash has. -/
structure Store where
  ram : Texts
  flash : Texts

def defaults : Texts
  | .device_name => ascii ['O', 'N', 'U', '-'] ++ decimal host.g_uni_port_num.toNat ++ ascii ['F', 'E']
  | .sw_version => ascii ['V', '1', 'R', '0', '1', 'B', '0', '0', '1']
  | .serial_no => ascii ['S', 'N', '0', '0', '0', '0', '0', '0', '0', '1']
  | .hw_version => ascii ['V', '1', '.', '0']
  | .hw_manufature_date => ascii ['1', '9', '7', '0', '-', '0', '1', '-', '0', '1']

/-- A name has an end when it is got, and the version is that of the software that runs. -/
def fresh (texts : Texts) : Texts :=
  update (update texts .device_name ((texts .device_name).take 131)) .sw_version host.onuverget

/-- A request that sets a text: which one, whether the texts are got first, and to what. -/
structure Setting where
  field : Field
  isFresh : Bool
  t : List UInt8

def setting (f : Field) (isFresh : Bool) : Asked → Option Setting
  | .error _ => none
  | .ok t => some ⟨f, isFresh, t⟩

/-- The name in `ONU_INFOR_SET`. -/
def nameOf (payload : Mem) : List UInt8 := (oam.bytes payload 2 (tmpLen payload)).takeWhile (· ≠ 0)

def Request.setting : Request → Option Setting
  | .date argv => system_info.setting .hw_manufature_date true (dateAsked argv)
  | .hw_version argv => system_info.setting .hw_version false (versionAsked argv)
  | .serial argv => system_info.setting .serial_no true (textAsked 16 argv)
  | .devicename argv => system_info.setting .device_name true (textAsked 128 argv)
  | .infor_set payload => if (payload 1).toNat ≠ 0 then some ⟨.device_name, true, nameOf payload⟩ else none
  | _ => none

/-- The texts are only got. -/
def Request.isGet : Request → Bool
  | .boot => true
  | .product => true
  | _ => false

namespace Store

variable (k : Store)

def get (isRestored : Bool) : Store := { k with ram := fresh host (if isRestored then k.flash else defaults host) }

def set (x : Setting) (a : Access) : Store :=
  let k := if x.isFresh then k.get host a.isRestored else k
  let k := { k with ram := update k.ram x.field x.t }
  if a.isSaved then { k with flash := k.ram } else k

def after (e : Event) : Store :=
  match e.request.setting with
  | some x => k.set host x e.access
  | none => if e.request.isGet then k.get host e.access.isRestored else k

def configured (asked : Asked) (a : Access) : Reply :=
  match asked with
  | .error reply => reply
  | .ok _ => .cli .CLI_OK (if a.isSaved then [] else [.saveError])

def reply (e : Event) : Reply :=
  match e.request with
  | .boot => .nothing
  | .date argv => configured (dateAsked argv) e.access
  | .hw_version argv => configured (versionAsked argv) e.access
  | .serial argv => configured (textAsked 16 argv) e.access
  | .devicename argv => configured (textAsked 128 argv) e.access
  | .product =>
    let texts := (k.get host e.access.isRestored).ram
    .cli .CLI_OK [.product (texts .device_name) (texts .hw_version) (texts .sw_version) (texts .hw_manufature_date)
      (texts .serial_no)]
  | .infor_get => .response (inforGetResponse k.ram)
  | .infor_set payload => .response (inforSetResponse payload)
  | .hwver_get len => .hwbuf ((k.ram .hw_version).take (len - 1))

def step (e : Event) : Store × Reply := (k.after host e, k.reply host e)

end Store

/-- The record has the texts in it; only the name may fill its field. -/
structure Record (pi : ONU_SYS_INFO_TOTAL) (texts : Texts) : Prop where
  shows : ∀ f, Shows 0 record pi f (texts f)
  ends : ∀ f, f ≠ .device_name → (texts f).length < record.size f

/-- A record in the flash without the mark is taken for the defaults. -/
structure Agrees (s : State) (k : Store) : Prop where
  ram : Record s.gw_onu_system_info_total k.ram
  flash : s.flash valid_flag = 0x45 → Record s.flash k.flash
  erased : s.flash valid_flag ≠ 0x45 → k.flash = defaults host

/-! ## Texts that fit -/

section
variable {t : List UInt8} {l : List Char} {n : Int} {argv : List Word}

theorem ascii_text (h : ∀ c ∈ l, c.isDigit) : 0 ∉ ascii l := by
  intro hmem
  obtain ⟨c, hc, hzero⟩ := List.mem_map.mp hmem
  have hdigit := h c hc
  have hlo : 48 ≤ c.toNat := (Char.isDigit_iff_toNat.mp hdigit).1
  have hhi : c.toNat ≤ 57 := (Char.isDigit_iff_toNat.mp hdigit).2
  have hval : (UInt8.ofNat c.toNat).toNat = c.toNat := Nat.mod_eq_of_lt (by omega)
  rw [hzero] at hval
  change 0 = c.toNat at hval
  omega

theorem decimal_text (n : Int) : 0 ∉ decimal n := by
  have hdigits : 0 ∉ ascii (Nat.toDigits 10 n.natAbs) :=
    ascii_text fun c hc => Nat.isDigit_of_mem_toDigits (by decide) (by decide) hc
  rw [decimal, List.mem_append, not_or]
  refine ⟨?_, hdigits⟩
  split_ifs <;> simp

theorem decimal02_text (n : Int) : 0 ∉ decimal02 n := by
  rw [decimal02, List.mem_append, not_or]
  exact ⟨fun h => absurd (List.eq_of_mem_replicate h) (by decide), decimal_text n⟩

theorem decimal_length {k : Nat} (hk : 0 < k) (hlo : 0 ≤ n) (hhi : n.natAbs < 10 ^ k) : (decimal n).length ≤ k := by
  rw [decimal, if_neg (Int.not_lt.mpr hlo), List.nil_append, ascii, List.length_map]
  exact (Nat.length_toDigits_le_iff (by decide) hk).mpr hhi

theorem decimal02_length (hlo : 0 ≤ n) (hhi : n < 100) : (decimal02 n).length = 2 := by
  have hlen := decimal_length (k := 2) (by decide) hlo (by omega)
  rw [decimal02, List.length_append, List.length_replicate]
  omega

theorem dateAsked_fits (h : dateAsked argv = .ok t) : t.length < 12 ∧ 0 ∉ t := by
  unfold dateAsked at h
  split at h
  · dsimp only at h
    split_ifs at h with hyear hmonth hdate
    rename_i argv0 argv1 argv2
    rw [← Except.ok.inj h]
    have hyear := decimal_length (n := atoi argv0) (k := 4) (by decide) (by omega) (by omega)
    have hmonth := decimal02_length (n := atoi argv1) (by omega) (by omega)
    have hdate := decimal02_length (n := atoi argv2) (by omega) (by omega)
    refine ⟨?_, ?_⟩
    · simp only [List.length_append, List.length_singleton]
      omega
    · simp [decimal_text, decimal02_text]
  · cases h

theorem versionAsked_fits (h : versionAsked argv = .ok t) : t.length < 7 ∧ 0 ∉ t := by
  unfold versionAsked at h
  split at h
  · dsimp only at h
    split_ifs at h with hmajor hrel hbuild
    rename_i argv0 argv1 argv2
    rw [← Except.ok.inj h]
    have hmajor := decimal_length (n := atoi argv0) (k := 1) (by decide) (by omega) (by omega)
    have hrel := decimal_length (n := atoi argv1) (k := 1) (by decide) (by omega) (by omega)
    have hbuild := decimal_length (n := atoi argv2) (k := 1) (by decide) (by omega) (by omega)
    refine ⟨?_, ?_⟩
    · simp only [List.length_append, List.length_singleton]
      omega
    · simp [decimal_text]
  · cases h

theorem TOUPPER_text {c : UInt8} (hc : c ≠ 0) : TOUPPER c ≠ 0 := by
  unfold TOUPPER
  split_ifs with h
  · have hlo : 0x61 ≤ c.toNat := h.1
    intro hzero
    have hval := congrArg UInt8.toNat hzero
    rw [UInt8.toNat_sub_of_le _ _ (UInt8.le_iff_toNat_le.mpr (le_trans (by decide) hlo))] at hval
    change c.toNat - 0x20 = 0 at hval
    omega
  · exact hc

theorem textAsked_fits {max : Nat} (h : textAsked max argv = .ok t) : t.length ≤ max ∧ 0 ∉ t := by
  unfold textAsked at h
  split at h
  · split_ifs at h with hlen
    rename_i argv0
    rw [← Except.ok.inj h, List.length_map]
    refine ⟨Nat.not_lt.mp hlen, fun hmem => ?_⟩
    obtain ⟨c, hc, hzero⟩ := List.mem_map.mp hmem
    refine TOUPPER_text (fun hnul => ?_) hzero
    rw [hnul] at hc
    exact argv0.property hc
  · cases h

theorem defaults_fit (f : Field) : (defaults host f).length < record.size f ∧ 0 ∉ defaults host f := by
  cases f with
  | device_name =>
    have hlen := decimal_length (n := host.g_uni_port_num.toNat) (k := 3) (by decide) (by omega)
      (lt_trans host.g_uni_port_num.toNat_lt (by decide))
    have hsplit : (0 : UInt8) ∉ ascii ['O', 'N', 'U', '-'] ∧ (0 : UInt8) ∉ ascii ['F', 'E'] := by decide
    refine ⟨?_, ?_⟩
    · change (ascii ['O', 'N', 'U', '-'] ++ decimal host.g_uni_port_num.toNat ++ ascii ['F', 'E']).length < 132
      rw [List.length_append, List.length_append]
      change 4 + _ + 2 < 132
      omega
    · simp [defaults, hsplit, decimal_text]
  | _ => simp [defaults, ascii, record]

end

/-! ## The record -/

section
variable {pi : ONU_SYS_INFO_TOTAL} {texts : Texts} {f : Field} {t : List UInt8}

theorem Record.write (h : Record pi texts) (ht : t.length < record.size f) (hz : 0 ∉ t) :
    Record (sprintf pi f t) (update texts f t) := by
  refine ⟨fun g => ?_, fun g hg => ?_⟩
  · by_cases hgf : g = f
    · subst hgf
      rw [update_self]
      exact Shows.put_text ht hz pi
    · rw [update_of_ne hgf]
      refine (h.shows g).other_slot hgf ?_
      rw [List.length_append, List.length_singleton]
      omega
  · by_cases hgf : g = f
    · subst hgf
      rwa [update_self]
    · rw [update_of_ne hgf]
      exact h.ends g hg

/-- A write between the texts. -/
theorem Record.mark (h : Record pi texts) {p : Nat} {l : List UInt8}
    (hp : ∀ f, p + l.length ≤ record.start f ∨ record.start f + record.size f ≤ p) : Record (put pi p l) texts :=
  ⟨fun f => (h.shows f).other (hp f), h.ends⟩

theorem Record.terminate (h : Record pi texts) (f : Field) :
    Record (terminate pi f) (update texts f ((texts f).take (record.size f - 1))) := by
  have hpos : 0 < record.size f := by cases f <;> decide
  refine ⟨fun g => ?_, fun g hg => ?_⟩
  · by_cases hgf : g = f
    · subst hgf
      rw [update_self]
      exact (h.shows g).cut hpos
    · rw [update_of_ne hgf]
      refine (h.shows g).other ?_
      rw [List.length_singleton]
      rcases record.apart f g (Ne.symm hgf) with hapart | hapart
      · exact .inl (by omega)
      · exact .inr (by omega)
  · by_cases hgf : g = f
    · subst hgf
      rw [update_self, List.length_take]
      omega
    · rw [update_of_ne hgf]
      exact h.ends g hg

/-- A text that has its end keeps it. -/
theorem Record.terminate_short (h : Record pi texts) (hf : f ≠ .device_name) :
    Record (system_info.terminate pi f) texts := by
  have hlen := h.ends f hf
  have hkept := h.terminate f
  rwa [List.take_of_length_le (by omega), update_eq_self] at hkept

/-- The name is cut, or it is cleared behind what is copied to it. -/
theorem Record.copy (h : Record pi texts) (ht : t.length ≤ record.size .device_name) :
    Record (put pi (record.start .device_name) (t ++ List.replicate (record.size .device_name - t.length) 0))
      (update texts .device_name (t.takeWhile (· ≠ 0))) := by
  refine ⟨fun g => ?_, fun g hg => ?_⟩
  · by_cases hgf : g = .device_name
    · subst hgf
      rw [update_self]
      exact Shows.copy ht pi
    · rw [update_of_ne hgf]
      refine (h.shows g).other_slot hgf ?_
      rw [List.length_append, List.length_replicate]
      omega
  · rw [update_of_ne hg]
    exact h.ends g hg

theorem Record.string_eq (h : Record pi texts) (hf : (texts f).length < record.size f) : pi.string f = texts f :=
  (h.shows f).text_eq hf (by cases f <;> decide)

theorem Record.string_take (h : Record pi texts) : (pi.string .device_name).take 128 = (texts .device_name).take 128 :=
  (h.shows .device_name).take_text (by decide) (by decide)

theorem record_zero : Record (fun _ => 0) fun _ => [] :=
  ⟨fun _ => ⟨Nat.zero_le _, List.not_mem_nil, fun _ _ _ => by simp⟩, fun f _ => by cases f <;> decide⟩

theorem snprintf_eq (ht : t.length < record.size f) : snprintf pi f t = sprintf pi f t := by
  rw [snprintf, List.take_of_length_le (by omega)]

theorem record_defaults : Record (resetSysInfoToDefault host) (defaults host) := by
  have hwrite {pi : ONU_SYS_INFO_TOTAL} {texts : Texts} (f : Field) (h : Record pi texts) :
      Record (snprintf pi f (defaults host f)) (update texts f (defaults host f)) := by
    rw [snprintf_eq (defaults_fit host f).1]
    exact h.write (defaults_fit host f).1 (defaults_fit host f).2
  have htype : Record (put (snprintf (fun _ => 0) .device_name (defaults host .device_name)) product_type
      DEVICE_TYPE_UNKNOWN) _ := (hwrite .device_name record_zero).mark fun f => by cases f <;> decide
  have hall := ((((hwrite .serial_no htype |> hwrite .sw_version) |> hwrite .hw_version) |> hwrite .hw_manufature_date)
    ).mark (p := valid_flag) (l := ascii ['E']) fun f => by cases f <;> decide
  refine (congrArg (Record _) ?_).mp hall
  funext f
  cases f <;> rfl

theorem defaults_mark : resetSysInfoToDefault host valid_flag = 0x45 := by
  rw [resetSysInfoToDefault]
  exact (put_one _ _ _).trans (if_pos rfl)

end

/-! ## Each request -/

section
variable {host} {s : State} {k : Store} {a : Access}

theorem Agrees.get (h : Agrees host s k) (isRestored : Bool) :
    Agrees host (s.GW_Onu_Sysinfo_Get host isRestored) (k.get host isRestored) := by
  refine ⟨?_, h.flash, h.erased⟩
  have hread : Record (if (if isRestored then s.flash else resetSysInfoToDefault host) valid_flag ≠ 0x45
      then resetSysInfoToDefault host else if isRestored then s.flash else resetSysInfoToDefault host)
      (if isRestored then k.flash else defaults host) := by
    cases isRestored with
    | false =>
      simp only [Bool.false_eq_true, if_false]
      rw [if_neg (not_not.mpr (defaults_mark host))]
      exact record_defaults host
    | true =>
      simp only [if_true]
      by_cases hmark : s.flash valid_flag = 0x45
      · rw [if_neg (not_not.mpr hmark)]
        exact h.flash hmark
      · rw [if_pos hmark, h.erased hmark]
        exact record_defaults host
  have hcut := ((hread.terminate .device_name).terminate_short (f := .serial_no) nofun).terminate_short
    (f := .hw_manufature_date) nofun
  exact hcut.write host.version_fits host.version_text

theorem Agrees.save (h : Agrees host s k) (isSaved : Bool) :
    Agrees host (s.GW_Onu_Sysinfo_Save isSaved) (if isSaved then { k with flash := k.ram } else k) := by
  have hram := (h.ram.mark (p := product_type) (l := DEVICE_TYPE_GT813_C) fun f => by cases f <;> decide).mark
    (p := valid_flag) (l := ascii ['E']) fun f => by cases f <;> decide
  cases isSaved with
  | false => exact ⟨hram, h.flash, h.erased⟩
  | true =>
    have hmark : (s.GW_Onu_Sysinfo_Save true).flash valid_flag = 0x45 := by
      change put (put s.gw_onu_system_info_total product_type DEVICE_TYPE_GT813_C) valid_flag [0x45] valid_flag = 0x45
      rw [put_one, if_pos rfl]
    exact ⟨hram, fun _ => hram, fun hne => absurd hmark hne⟩

theorem Agrees.write {pi : ONU_SYS_INFO_TOTAL} {texts : Texts} (h : Agrees host s k) (hpi : Record pi texts) :
    Agrees host { s with gw_onu_system_info_total := pi } { k with ram := texts } :=
  ⟨hpi, h.flash, h.erased⟩

theorem configure_agrees (h : Agrees host s k) {f : Field} {isFresh : Bool} {asked : Asked}
    (hfits : ∀ t, asked = .ok t → t.length < record.size f ∧ 0 ∉ t) (a : Access) :
    Agrees host (s.configure host f isFresh asked a).1
        (match setting f isFresh asked with | some x => k.set host x a | none => k) ∧
      (s.configure host f isFresh asked a).2 = Store.configured asked a := by
  cases asked with
  | error reply => exact ⟨h, rfl⟩
  | ok t =>
    obtain ⟨hlen, htext⟩ := hfits t rfl
    refine ⟨?_, rfl⟩
    have hgot : Agrees host (if isFresh then s.GW_Onu_Sysinfo_Get host a.isRestored else s)
        (if isFresh then k.get host a.isRestored else k) := by
      split_ifs
      · exact h.get a.isRestored
      · exact h
    exact (hgot.write (hgot.ram.write hlen htext)).save a.isSaved

theorem newName_eq {payload : Mem} {n : Nat} (hn : n ≤ record.size .device_name) :
    oam.newName payload n = oam.bytes payload 2 n ++ List.replicate (record.size .device_name - n) 0 := by
  rw [oam.newName, oam.overlay_start, oam.bytes_length, List.drop_replicate]
  · rfl
  · rw [oam.bytes_length, List.length_replicate]
    exact hn

theorem inforSet_agrees (h : Agrees host s k) (payload : Mem) (a : Access) :
    Agrees host (s.inforSet host payload a).1
      (if (payload 1).toNat ≠ 0 then k.set host ⟨.device_name, true, nameOf payload⟩ a else k) := by
  unfold State.inforSet
  dsimp only
  split_ifs
  · have hgot := h.get a.isRestored
    have hlen : tmpLen payload ≤ record.size .device_name := by unfold tmpLen; split_ifs <;> omega
    have hcopy := hgot.ram.copy (t := oam.bytes payload 2 (tmpLen payload)) (by rwa [oam.bytes_length])
    rw [oam.bytes_length, ← newName_eq hlen] at hcopy
    exact (hgot.write hcopy).save a.isSaved
  · exact h

theorem Store.after_some {request : Request} {x : Setting} (h : request.setting = some x) :
    k.after host ⟨request, a⟩ = k.set host x a := by
  rw [Store.after, h]

theorem Store.after_none {request : Request} (h : request.setting = none) (hget : request.isGet = false) :
    k.after host ⟨request, a⟩ = k := by
  rw [Store.after, h, hget]
  rfl

/-- What was got has its end in its field. -/
theorem got_ends (h : Agrees host s k) (isRestored : Bool) (f : Field) :
    ((k.get host isRestored).ram f).length < record.size f := by
  by_cases hf : f = .device_name
  · subst hf
    change (fresh host _ .device_name).length < 132
    have hne : Field.device_name ≠ .sw_version := by decide
    rw [fresh, update_of_ne hne, update_self, List.length_take]
    omega
  · exact (h.get isRestored).ram.ends f hf

theorem inforGetTexts_eq (h : Agrees host s k) :
    inforGetTexts s.gw_onu_system_info_total.string = inforGetTexts k.ram := by
  have hstring (f : Field) (hf : f ≠ .device_name) := h.ram.string_eq (h.ram.ends f hf)
  unfold inforGetTexts
  rw [h.ram.string_take, hstring .hw_version nofun, hstring .sw_version nofun, hstring .serial_no nofun,
    hstring .hw_manufature_date nofun]

theorem step_agrees (h : Agrees host s k) (e : Event) :
    (step host s e).2 = (k.step host e).2 ∧ Agrees host (step host s e).1 (k.step host e).1 := by
  obtain ⟨request, a⟩ := e
  cases request with
  | boot => exact ⟨rfl, h.get a.isRestored⟩
  | date argv => exact (configure_agrees h (f := .hw_manufature_date) (fun t ht => dateAsked_fits ht) a).symm
  | hw_version argv => exact (configure_agrees h (f := .hw_version) (fun t ht => versionAsked_fits ht) a).symm
  | serial argv =>
    have hfits (t : List UInt8) (ht : textAsked 16 argv = .ok t) : t.length < record.size .serial_no ∧ 0 ∉ t :=
      (textAsked_fits ht).imp_left fun hlen => lt_of_le_of_lt hlen (by decide)
    exact (configure_agrees h hfits a).symm
  | devicename argv =>
    have hfits (t : List UInt8) (ht : textAsked 128 argv = .ok t) : t.length < record.size .device_name ∧ 0 ∉ t :=
      (textAsked_fits ht).imp_left fun hlen => lt_of_le_of_lt hlen (by decide)
    exact (configure_agrees h hfits a).symm
  | product =>
    have hgot := h.get a.isRestored
    have hstring (f : Field) := hgot.ram.string_eq (got_ends h a.isRestored f)
    refine ⟨?_, hgot⟩
    change Reply.cli _ [.product _ _ _ _ _] = Reply.cli _ [.product _ _ _ _ _]
    rw [hstring, hstring, hstring, hstring, hstring]
  | infor_get =>
    refine ⟨?_, h⟩
    change Reply.response (inforGetResponse _) = .response (inforGetResponse _)
    rw [inforGetResponse, inforGetTexts_eq h, ← inforGetResponse]
  | infor_set payload =>
    refine ⟨rfl, ?_⟩
    have hset := inforSet_agrees h payload a
    rw [Store.step]
    by_cases hname : (payload 1).toNat ≠ 0
    · rw [if_pos hname] at hset
      have hsome : (Request.infor_set payload).setting = some ⟨.device_name, true, nameOf payload⟩ := if_pos hname
      rwa [Store.after_some hsome]
    · rw [if_neg hname] at hset
      have hnone : (Request.infor_set payload).setting = none := if_neg hname
      rwa [Store.after_none hnone rfl]
  | hwver_get len =>
    refine ⟨?_, h⟩
    change Reply.hwbuf _ = .hwbuf _
    rw [h.ram.string_eq (h.ram.ends .hw_version nofun)]

end

/-- A flash without the mark has the defaults, and the memory has no texts before the device starts. -/
theorem agrees_erased {flash : ONU_SYS_INFO_TOTAL} (h : flash valid_flag ≠ 0x45) :
    Agrees host ⟨fun _ => 0, flash⟩ ⟨fun _ => [], defaults host⟩ :=
  ⟨record_zero, fun hmark => absurd hmark h, fun _ => rfl⟩

theorem run_agrees {s : State} {k : Store} (h : Agrees host s k) (es : List Event) :
    outputs (step host) s es = outputs (Store.step host) k es ∧
      Agrees host (run (next (step host)) s es) (run (next (Store.step host)) k es) :=
  outputs_eq (R := Agrees host) (fun _ _ e hagrees => step_agrees hagrees e) h es

/-- Any commands and requests in any order, whatever flash accesses fail: they get the answers of a store
of texts, and the texts in the record stay those of the store. -/
theorem the_record_is_a_store_of_texts (s : State) (k : Store) (h : Agrees host s k) (es : List Event) :
    outputs (step host) s es = outputs (Store.step host) k es ∧
      Agrees host (run (next (step host)) s es) (run (next (Store.step host)) k es) :=
  run_agrees host h es

/-- Four ports, and a version. -/
def onu : Host := ⟨4, ascii ['V', '2'], by decide, by decide⟩

def blank : State := ⟨fun _ => 0, fun _ => 0xff⟩

/-- The serial number is not saved, and the version is. -/
def setup : List Event :=
  [⟨.boot, true, true⟩, ⟨.serial [⟨[0x61, 0x37], by decide⟩], true, false⟩,
    ⟨.hw_version [⟨[0x32], by decide⟩, ⟨[0x30], by decide⟩, ⟨[0x34], by decide⟩], true, true⟩,
    ⟨.boot, true, true⟩, ⟨.product, true, true⟩]

/-- The serial number came to the flash with the version. -/
theorem the_serial_number_is_saved_late :
    outputs (step onu) blank setup = outputs (Store.step onu) ⟨fun _ => [], defaults onu⟩ setup ∧
      outputs (step onu) blank setup =
        [.nothing, .cli .CLI_OK [.saveError], .cli .CLI_OK [], .nothing,
          .cli .CLI_OK [.product (ascii ['O', 'N', 'U', '-', '4', 'F', 'E']) (ascii ['V', '2', '.', '0', 'B', '4'])
            (ascii ['V', '2']) (ascii ['1', '9', '7', '0', '-', '0', '1', '-', '0', '1']) (ascii ['A', '7'])]] :=
  ⟨(the_record_is_a_store_of_texts onu blank ⟨fun _ => [], defaults onu⟩ (agrees_erased onu (by decide)) setup).1,
    by decide +kernel⟩

/-! ## What is set stays -/

/-- What is left of a text that is got from its field. -/
def kept (f : Field) (t : List UInt8) : List UInt8 := t.take (record.size f - 1)

/-- The text that an event leaves in the flash for field `f`, where `t` is. -/
def savedBy (f : Field) (t : List UInt8) (e : Event) : List UInt8 :=
  match e.request.setting with
  | some x => if x.field = f ∧ e.access.isSaved then x.t else t
  | none => t

/-- The text that is saved last. -/
def lastSaved (f : Field) : List UInt8 → List Event → List UInt8 := run (savedBy f)

/-- There is nothing in memory that the flash does not have. -/
def Store.Settled (k : Store) : Prop := ∀ f, f ≠ .sw_version → kept f (k.ram f) = kept f (k.flash f)

section
variable {host} {k : Store} {e : Event} {x : Setting} {f : Field}

theorem kept_fresh (host : Host) (texts : Texts) (hf : f ≠ .sw_version) :
    kept f (fresh host texts f) = kept f (texts f) := by
  rw [fresh, update_of_ne hf]
  by_cases hname : f = .device_name
  · subst hname
    rw [update_self]
    exact List.take_take.trans (congrArg (List.take · _) (Nat.min_self 131))
  · rw [update_of_ne hname]

theorem settled_get (k : Store) : (k.get host true).Settled := fun _ hf => kept_fresh host k.flash hf

/-- The memory that a set starts from has what the flash has. -/
theorem kept_start (hx : x.isFresh = true ∨ k.Settled) (hf : f ≠ .sw_version) :
    kept f ((if x.isFresh then k.get host true else k).ram f) = kept f (k.flash f) := by
  split_ifs with hfresh
  · exact kept_fresh host k.flash hf
  · rcases hx with hx | hx
    · exact absurd hx hfresh
    · exact hx f hf

/-- What the flash has behind a set: the text that was saved, and for the other fields what it had. -/
theorem flash_set (hx : x.isFresh = true ∨ k.Settled) (hrestored : e.access.isRestored = true)
    (hset : e.request.setting = some x) (hf : f ≠ .sw_version) :
    kept f ((k.set host x e.access).flash f) = kept f (savedBy f (k.flash f) e) := by
  rw [Store.set, savedBy, hset, hrestored]
  cases hsaved : e.access.isSaved with
  | false =>
    simp only [Bool.false_eq_true, if_false, and_false]
    split_ifs <;> rfl
  | true =>
    simp only [if_true, and_true]
    by_cases hfield : x.field = f
    · subst hfield
      rw [update_self, if_pos rfl]
    · rw [update_of_ne (Ne.symm hfield), if_neg hfield]
      exact kept_start hx hf

theorem settled_set (x : Setting) {a : Access} (hsaved : a.isSaved = true) : (k.set host x a).Settled := by
  rw [Store.set, if_pos hsaved]
  exact fun _ _ => rfl

/-- Only the version of the hardware is set without the record being got. -/
theorem fresh_or_version (hset : e.request.setting = some x) (hne : ∀ argv, e.request ≠ .hw_version argv) :
    x.isFresh = true := by
  obtain ⟨request, a⟩ := e
  have hasked {f : Field} {asked : Asked} (h : setting f true asked = some x) : x.isFresh = true := by
    cases asked with
    | error reply => cases h
    | ok t =>
      cases h
      rfl
  cases request with
  | date argv => exact hasked hset
  | serial argv => exact hasked hset
  | devicename argv => exact hasked hset
  | hw_version argv => exact absurd rfl (hne argv)
  | infor_set payload =>
    change (if _ then _ else _) = _ at hset
    split_ifs at hset
    cases hset
    rfl
  | _ => cases hset

theorem flash_after (hk : k.Settled ∨ ∀ argv, e.request ≠ .hw_version argv) (hrestored : e.access.isRestored = true)
    (hf : f ≠ .sw_version) : kept f ((k.after host e).flash f) = kept f (savedBy f (k.flash f) e) := by
  cases hset : e.request.setting with
  | some x =>
    have hx : x.isFresh = true ∨ k.Settled := hk.symm.imp_left (fresh_or_version hset)
    rw [Store.after, hset]
    exact flash_set hx hrestored hset hf
  | none =>
    rw [Store.after, savedBy, hset]
    dsimp only
    split_ifs <;> rfl

theorem settled_after (hk : k.Settled) (ha : e.access.isRestored = true ∧ e.access.isSaved = true) :
    (k.after host e).Settled := by
  rw [Store.after]
  split
  · exact settled_set _ ha.2
  · rw [ha.1]
    split_ifs
    · exact settled_get k
    · exact hk

/-- Nothing but what was saved is in the flash, as long as no version goes there with what was not. -/
theorem flash_run {es : List Event} (hrestored : ∀ e ∈ es, e.access.isRestored = true)
    (hk : k.Settled ∧ (∀ e ∈ es, e.access.isSaved = true) ∨ ∀ e ∈ es, ∀ argv, e.request ≠ .hw_version argv)
    (hf : f ≠ .sw_version) (t : List UInt8) (ht : kept f (k.flash f) = kept f t) :
    kept f ((run (next (Store.step host)) k es).flash f) = kept f (lastSaved f t es) := by
  induction es generalizing k t with
  | nil => exact ht
  | cons e es ih =>
    obtain ⟨he, hrestored⟩ := List.forall_mem_cons.mp hrestored
    have hstart : k.Settled ∨ ∀ argv, e.request ≠ .hw_version argv :=
      hk.imp (fun h => h.1) fun h => h e List.mem_cons_self
    rw [run_cons, lastSaved, run_cons]
    refine ih hrestored (hk.imp (fun h => ?_) fun h e' he' => h e' (List.mem_cons_of_mem _ he')) _ ?_
    · obtain ⟨hsaved, hall⟩ := List.forall_mem_cons.mp h.2
      exact ⟨settled_after h.1 ⟨he, hsaved⟩, hall⟩
    · rw [next, Store.step, flash_after hstart he hf, savedBy, savedBy]
      cases e.request.setting with
      | none => exact ht
      | some x =>
        dsimp only
        split_ifs
        · rfl
        · exact ht

end

/-- Of each text, `display product` shows what was saved last, as long as the record can be got: when
nothing is in memory that was not saved, or no version of the hardware is set. -/
theorem what_was_saved_last_is_shown (s : State) (k : Store) (h : Agrees host s k) (es : List Event) (a : Access)
    (hrestored : ∀ e ∈ es, e.access.isRestored = true) (ha : a.isRestored = true)
    (hk : k.Settled ∧ (∀ e ∈ es, e.access.isSaved = true) ∨ ∀ e ∈ es, ∀ argv, e.request ≠ .hw_version argv) :
    (step host (run (next (step host)) s es) ⟨.product, a⟩).2 =
      .cli .CLI_OK [.product (kept .device_name (lastSaved .device_name (k.flash .device_name) es))
        (kept .hw_version (lastSaved .hw_version (k.flash .hw_version) es)) host.onuverget
        (kept .hw_manufature_date (lastSaved .hw_manufature_date (k.flash .hw_manufature_date) es))
        (kept .serial_no (lastSaved .serial_no (k.flash .serial_no) es))] := by
  have hagrees := (run_agrees host h es).2
  have hshown (f : Field) (hf : f ≠ .sw_version) :
      ((run (next (Store.step host)) k es).get host a.isRestored).ram f = kept f (lastSaved f (k.flash f) es) := by
    have hends := got_ends hagrees a.isRestored f
    rw [← flash_run hrestored hk hf (k.flash f) rfl, ← kept_fresh host _ hf, kept, ha]
    rw [ha] at hends
    exact (List.take_of_length_le (Nat.le_sub_one_of_lt hends)).symm
  refine (step_agrees hagrees ⟨.product, a⟩).1.trans ?_
  change Reply.cli _ [.product _ _ _ _ _] = _
  rw [hshown .device_name nofun, hshown .hw_version nofun, hshown .hw_manufature_date nofun, hshown .serial_no nofun]
  rfl

/-- A serial number that is not saved, a date, and a name from the OLT. -/
def changes : List Event :=
  [⟨.serial [⟨[0x61, 0x37], by decide⟩], true, false⟩,
    ⟨.date [⟨[0x32, 0x30, 0x31, 0x33], by decide⟩, ⟨[0x35], by decide⟩, ⟨[0x36], by decide⟩], true, true⟩,
    ⟨.infor_set (oam.memory [2, 4, 0x68, 0x61, 0x6c, 0x6c]), true, true⟩, ⟨.boot, true, true⟩]

theorem the_date_and_the_name_are_shown :
    (step onu (run (next (step onu)) blank changes) ⟨.product, true, true⟩).2 =
      .cli .CLI_OK [.product (ascii ['h', 'a', 'l', 'l']) (ascii ['V', '1', '.', '0']) (ascii ['V', '2'])
        (ascii ['2', '0', '1', '3', '-', '0', '5', '-', '0', '6'])
        (ascii ['S', 'N', '0', '0', '0', '0', '0', '0', '0', '1'])] :=
  (what_was_saved_last_is_shown onu blank ⟨fun _ => [], defaults onu⟩ (agrees_erased onu (by decide)) changes
    ⟨true, true⟩ (by decide) rfl (.inr (by simp [changes]))).trans (by decide +kernel)

/-! ## The response to the OLT -/

theorem inforGetTexts_short {texts : Texts} (h : ∀ f, f ≠ .device_name → (texts f).length < record.size f) :
    ∀ l ∈ inforGetTexts texts, l.length < 256 := by
  have hlt (f : Field) (hf : f ≠ .device_name) : (texts f).length < 256 :=
    lt_trans (h f hf) (by cases f <;> decide)
  have hname : ((texts .device_name).take 128).length < 256 := lt_of_le_of_lt (List.length_take_le _ _) (by decide)
  unfold inforGetTexts
  simp only [List.forall_mem_cons]
  exact ⟨hlt _ nofun, by decide, hlt _ nofun, by decide, hname, by decide, by decide, by decide, hlt _ nofun,
    hlt _ nofun, nofun⟩

/-- Behind any run, the response to `ONU_INFOR_GET` can be taken apart, and its texts are those of the
store. -/
theorem the_response_tells_the_texts (s : State) (k : Store) (h : Agrees host s k) (es : List Event) (a : Access) :
    ∃ Response, (step host (run (next (step host)) s es) ⟨.infor_get, a⟩).2 = .response Response ∧
      prefixed.reads 10 (Response.drop 6) =
        some (inforGetTexts (run (next (Store.step host)) k es).ram, [0, 0, 0xfe, 3, 0x80]) := by
  have hrun := (run_agrees host h es).2
  refine ⟨_, (step_agrees hrun ⟨.infor_get, a⟩).1, ?_⟩
  exact prefixed.reads_texts (inforGetTexts_short hrun.ram.ends) _

theorem the_name_from_the_OLT_is_told_to_it :
    ∃ Response, (step onu (run (next (step onu)) blank changes) ⟨.infor_get, true, true⟩).2 = .response Response ∧
      (prefixed.reads 10 (Response.drop 6)).map (fun x => x.1[4]?) = some (some (ascii ['h', 'a', 'l', 'l'])) := by
  obtain ⟨Response, hreply, hreads⟩ := the_response_tells_the_texts onu blank ⟨fun _ => [], defaults onu⟩
    (agrees_erased onu (by decide)) changes ⟨true, true⟩
  refine ⟨Response, hreply, ?_⟩
  rw [hreads]
  decide +kernel

end gwdonu.system_info
