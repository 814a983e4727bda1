-- The configuration file in memory: each handler saves its bytes as a TLV, and a
-- restore walks over the TLVs to the end of the file.
import Gwdonu.OamFrame

namespace gwdonu.conf_file

open oam

/-! ## The handlers -/

/-- `func_s` is what the save function gives: its bytes, or nothing when it is
not there or does not return `GW_OK`. `func_r` is the pointer to the restore function. -/
structure gw_conf_handle_t where
  type : Int32
  func_s : Option (List UInt8)
  func_r : Nat
  deriving DecidableEq

def gw_lst_find (handle_list : List gw_conf_handle_t) (type : UInt32) : Option gw_conf_handle_t :=
  handle_list.find? fun p => p.type.toUInt32 = type

/-- The registered handlers, one of each type. -/
structure Handlers where
  handle_list : List gw_conf_handle_t
  distinct : (handle_list.map gw_conf_handle_t.type).Nodup

inductive Registered where
  | GW_OK
  | GW_ERROR
  | GW_E_CONFLICT
  deriving DecidableEq

theorem find_none {handle_list : List gw_conf_handle_t} {type : UInt32}
    (h : (gw_lst_find handle_list type).isSome = false) :
    ∀ p ∈ handle_list, p.type.toUInt32 ≠ type := by
  simpa [gw_lst_find] using h

theorem append_distinct {handle_list : List gw_conf_handle_t} {ph : gw_conf_handle_t}
    (hd : (handle_list.map gw_conf_handle_t.type).Nodup)
    (h : (gw_lst_find handle_list ph.type.toUInt32).isSome = false) :
    ((handle_list ++ [ph]).map gw_conf_handle_t.type).Nodup := by
  rw [List.map_append, List.nodup_append]
  refine ⟨hd, by simp, ?_⟩
  intro a ha b hb he
  obtain ⟨p, hp, rfl⟩ := List.mem_map.mp ha
  apply find_none h p hp
  simp_all

/-- `mal` is whether `malloc` has memory for the handle. -/
def gw_register_conf_handlers (mal : Bool) (hs : Handlers) (ph : gw_conf_handle_t) :
    Handlers × Registered :=
  if mal = false then (hs, .GW_ERROR)
  else if h : (gw_lst_find hs.handle_list ph.type.toUInt32).isSome = false then
    (⟨hs.handle_list ++ [ph], append_distinct hs.distinct h⟩, .GW_OK)
  else (hs, .GW_E_CONFLICT)

/-! ## The file -/

/-- What `vfile_open` gets where there is no file system: the bytes, and their
number, which comes back in a `gw_int32`. -/
structure Memory where
  pval : Mem
  size : Int32
  sized : 0 ≤ size

/-- The opened file, with `isfs` 0. -/
structure gw_conf_file_t where
  offset : UInt32
  pval : Mem
  len : UInt32

def vfile_open (file : Memory) : gw_conf_file_t := ⟨0, file.pval, file.size.toUInt32⟩

/-- `none` when nothing is read. -/
def vfile_read (pf : gw_conf_file_t) (offset len : UInt32) : Option (List UInt8) :=
  if len + offset ≤ pf.len then some (bytes pf.pval offset.toNat len.toNat) else none

/-- Memory with the bytes of `l` from index `i` on. -/
def splice (m : Mem) (i : Nat) (l : List UInt8) : Mem :=
  fun k => if i ≤ k then (l[k - i]?).getD (m k) else m k

def vfile_write (pf : gw_conf_file_t) (offset len : UInt32) (val : List UInt8) : gw_conf_file_t :=
  if len + offset ≤ pf.len then
    { pf with pval := splice pf.pval offset.toNat (val.take len.toNat) }
  else pf

/-- Reads a variable of four bytes, which keeps its value when nothing is read. -/
def read32 (pf : gw_conf_file_t) (offset old : UInt32) : UInt32 :=
  match vfile_read pf offset 4 with
  | none => old
  | some val => load32 (memory val) 0

/-! ## Saving -/

def gw_conf_file_t.skip (pf : gw_conf_file_t) (n : UInt32) : gw_conf_file_t :=
  { pf with offset := pf.offset + n }

/-- The type, the length and the bytes of one handler. -/
def gw_conf_file_t.put (pf : gw_conf_file_t) (type : Int32) (pv : List UInt8) : gw_conf_file_t :=
  let len : UInt32 := .ofNat pv.length
  let pf := (vfile_write pf pf.offset 4 (store32 type.toUInt32)).skip 4
  let pf := (vfile_write pf pf.offset 4 (store32 len)).skip 4
  (vfile_write pf pf.offset len pv).skip len

/-- The scan over the handlers. The check for the end of the file leaves out the
type and the length. -/
def gw_conf_save_scan : List gw_conf_handle_t → gw_conf_file_t → gw_conf_file_t
  | [], pf => pf
  | p :: rest, pf =>
    match p.func_s with
    | none => gw_conf_save_scan rest pf
    | some pv =>
      if pf.len < pf.offset + .ofNat pv.length then pf
      else gw_conf_save_scan rest (pf.put p.type pv)

def gw_conf_save (hs : Handlers) (file : Memory) (mgt_code : Int32) : Memory :=
  let pf := { vfile_open file with offset := 8 }
  let pf := if mgt_code = 1 then gw_conf_save_scan hs.handle_list pf else pf
  let pf := vfile_write pf 0 4 (store32 8)
  let pf := vfile_write pf 4 4 (store32 (pf.offset - 8))
  { file with pval := pf.pval }

/-! ## Restoring -/

/-- A call of a restore function. -/
structure Restored where
  func_r : Nat
  length : UInt32
  data : List UInt8
  deriving DecidableEq

/-- The variables of the loop in `gw_conf_restore`. -/
structure Reading where
  offset : UInt32
  type : UInt32
  length : UInt32

/-- The two reads at the start of a turn. -/
def Reading.head (pf : gw_conf_file_t) (r : Reading) : Reading :=
  ⟨r.offset + 4 + 4, read32 pf r.offset r.type, read32 pf (r.offset + 4) r.length⟩

def Reading.next (r : Reading) : Reading := { r with offset := r.offset + r.length }

/-- The call that a TLV leads to. `mal` are the sizes that `malloc` has memory
for: each block is free again before the next one is asked for. -/
def restore_call (hs : Handlers) (mal : UInt32 → Bool) (pf : gw_conf_file_t) (r : Reading) :
    List Restored :=
  match gw_lst_find hs.handle_list r.type with
  | none => []
  | some p =>
    if mal r.length then [⟨p.func_r, r.length, (vfile_read pf r.offset r.length).getD []⟩] else []

/-- At most `n` turns of the loop; `none` when it has not ended by then. -/
def restore_loop (hs : Handlers) (mal : UInt32 → Bool) (pf : gw_conf_file_t) :
    Nat → Reading → Option (List Restored)
  | 0, _ => none
  | n + 1, r =>
    if pf.len ≤ r.offset then some []
    else
      let r := r.head pf
      if pf.len < r.offset + r.length then some []
      else (restore_loop hs mal pf n r.next).map (restore_call hs mal pf r ++ ·)

/-- `iv`, `type` and `length` are what the variables hold at the start. -/
def gw_conf_restore (hs : Handlers) (mal : UInt32 → Bool) (file : Memory)
    (iv type length : UInt32) (n : Nat) : Option (List Restored) :=
  let pf := vfile_open file
  let head_len := read32 pf 0 iv
  let tlv_len := read32 pf 4 head_len
  if 0 < tlv_len.toInt32 then restore_loop hs mal pf n ⟨pf.offset + head_len, type, length⟩
  else some []

end gwdonu.conf_file
