-- The QoS rules of VLANs: a list without two rules for the same port and VLAN,
-- that the configuration file keeps in its order.
import Gwdonu.OamFrame
import Gwdonu.Lib.Runs
import Mathlib.Data.List.Perm.Subperm

namespace gwdonu.qos

open oam runs

/-! ## The program -/

structure qos_vlan_t where
  port : UInt32
  vid : UInt32
  queue : UInt32
  deriving DecidableEq

structure gw_qos_vlan_queue_data_t where
  port : UInt32
  vid : UInt32
  queue : UInt32
  deriving DecidableEq

inductive Ret where
  | GW_OK
  | GW_ERROR
  deriving DecidableEq

/-- The key that `port` and `vlanid` are packed into. -/
def key (port vlanid : Int32) : UInt32 := ((port <<< 16) ||| vlanid).toUInt32

def qos_vlan_queue_compare (pv : qos_vlan_t) (key : UInt32) : Int32 :=
  if pv.port = key >>> 16 ∧ pv.vid = key &&& 0xffff then 0 else -1

/-- The rules in the order of `plstqvq`. -/
abbrev Rules := List qos_vlan_t

def gw_lst_find (l : Rules) (key : UInt32) : Option qos_vlan_t :=
  l.find? fun p => qos_vlan_queue_compare p key = 0

/-- `mal` is whether `malloc` has memory, here and below. -/
def gw_qos_vlan_queue_add (mal : Bool) (l : Rules) (port vlanid queue : Int32) : Rules × Ret :=
  match gw_lst_find l (key port vlanid) with
  | some _ => (l, .GW_ERROR)
  | none =>
    if mal then (l ++ [⟨port.toUInt32, vlanid.toUInt32, queue.toUInt32⟩], .GW_OK)
    else (l, .GW_ERROR)

/-- The found rule is the first one of the key. -/
def gw_qos_vlan_queue_remove (l : Rules) (port vlanid : Int32) : Rules × Ret :=
  match gw_lst_find l (key port vlanid) with
  | none => (l, .GW_ERROR)
  | some _ => (l.eraseP fun p => qos_vlan_queue_compare p (key port vlanid) = 0, .GW_OK)

def qos_vlan_t.data (p : qos_vlan_t) : gw_qos_vlan_queue_data_t := ⟨p.port, p.vid, p.queue⟩

/-- The count, and the array that it is the size of. -/
def gw_qos_vlan_queue_entry_get_by_port (mal : Bool) (l : Rules) (port : UInt8) :
    Int32 × Option (List gw_qos_vlan_queue_data_t) :=
  let plist :=
    if port = 0xff then l
    else if mal then l.filter fun p => p.port = port.toUInt32
    else []
  let count := (UInt32.ofNat plist.length).toInt32
  if 0 < count then
    if mal then (count, some (plist.map qos_vlan_t.data)) else (0, none)
  else (0, none)

/-- What goes to the driver, if anything does, and the result. -/
def gw_qos_vlan_queue_rules_apply (mal : Bool)
    (driver : Int32 → Option (List gw_qos_vlan_queue_data_t) → Int32) (l : Rules) (reset : Int32) :
    Option (Int32 × Option (List gw_qos_vlan_queue_data_t)) × Ret :=
  let got := if reset ≠ 0 then (0, none) else gw_qos_vlan_queue_entry_get_by_port mal l 0xff
  if 0 ≤ got.1 then (some got, if driver got.1 got.2 ≠ 0 then .GW_ERROR else .GW_OK)
  else (none, .GW_ERROR)

def qos_vlan_t.words (p : qos_vlan_t) : List UInt8 := store32 p.port ++ store32 p.vid ++ store32 p.queue

/-- The result, and what is written through `len` and through `pv`. -/
def gw_qos_vlan_showrun (mal : Bool) (l : Rules) : Ret × Int32 × Option (List UInt8) :=
  let len := (UInt32.ofNat l.length * 3 * 4).toInt32
  if mal then (.GW_OK, len, some (l.flatMap qos_vlan_t.words)) else (.GW_ERROR, len, none)

/-- `n` turns of the loop of `gw_qos_vlan_restore`, with `p` at index `i`. -/
def gw_qos_vlan_restore_loop (mal : Bool) (m : Mem) : Nat → Nat → Rules → Rules
  | 0, _, l => l
  | n + 1, i, l =>
    let port := (load32 m i).toUInt8
    let vid := load32 m (i + 4)
    let queue := load32 m (i + 8)
    gw_qos_vlan_restore_loop mal m n (i + 12)
      (gw_qos_vlan_queue_add mal l port.toUInt32.toInt32 vid.toInt32 queue.toInt32).1

/-- The rules that are then there, and what goes to the driver. -/
def gw_qos_vlan_restore (mal : Bool)
    (driver : Int32 → Option (List gw_qos_vlan_queue_data_t) → Int32) (l : Rules) (len : Int32)
    (pv : Mem) : Rules × Option (Int32 × Option (List gw_qos_vlan_queue_data_t)) :=
  let num := (len.toUInt32 / (4 * 3)).toInt32
  let l := gw_qos_vlan_restore_loop mal pv num.toNatClampNeg 0 l
  (l, (gw_qos_vlan_queue_rules_apply mal driver l 0).1)

/-! ## Runs -/

/-- A call for a port from 0 to 255 and a VLAN id from 0 to 65535. -/
inductive Event where
  | add (mal : Bool) (port : UInt8) (vlanid : UInt16) (queue : Int32)
  | remove (port : UInt8) (vlanid : UInt16)

def event (l : Rules) : Event → Rules
  | .add mal port vlanid queue =>
    (gw_qos_vlan_queue_add mal l port.toUInt32.toInt32 vlanid.toUInt32.toInt32 queue).1
  | .remove port vlanid =>
    (gw_qos_vlan_queue_remove l port.toUInt32.toInt32 vlanid.toUInt32.toInt32).1

/-! ## One rule for a key -/

/-- Each rule fits into its key, and no two rules have the same one. -/
structure Keyed (l : Rules) : Prop where
  port : ∀ p ∈ l, p.port.toNat < 256
  vid : ∀ p ∈ l, p.vid.toNat < 65536
  distinct : (l.map fun p => (p.port, p.vid)).Nodup

theorem key_toNat {port vid : UInt32} (hport : port.toNat < 65536) (hvid : vid.toNat < 65536) :
    (key port.toInt32 vid.toInt32).toNat = port.toNat * 65536 + vid.toNat := by
  change ((port <<< 16) ||| vid).toNat = _
  rw [UInt32.toNat_or, UInt32.toNat_shiftLeft]
  change (port.toNat <<< 16 % 2 ^ 32) ||| vid.toNat = _
  rw [Nat.shiftLeft_eq, Nat.mod_eq_of_lt (by omega), ← Nat.shiftLeft_eq,
    ← Nat.shiftLeft_add_eq_or_of_lt hvid, Nat.shiftLeft_eq]

/-- The key gives back the port and the VLAN id. -/
theorem key_eq {port vid : UInt32} (hport : port.toNat < 65536) (hvid : vid.toNat < 65536) :
    key port.toInt32 vid.toInt32 >>> 16 = port ∧
      key port.toInt32 vid.toInt32 &&& 0xffff = vid := by
  have hkey := key_toNat hport hvid
  refine ⟨?_, ?_⟩
  · apply UInt32.toNat_inj.mp
    rw [UInt32.toNat_shiftRight, hkey]
    change (port.toNat * 65536 + vid.toNat) >>> 16 = _
    rw [Nat.shiftRight_eq_div_pow]
    omega
  · apply UInt32.toNat_inj.mp
    rw [UInt32.toNat_and, hkey]
    change _ &&& (2 ^ 16 - 1) = _
    rw [Nat.and_two_pow_sub_one_eq_mod]
    omega

section
variable {l : Rules} {port vid : UInt32}

theorem compare_zero (hport : port.toNat < 65536) (hvid : vid.toNat < 65536) (p : qos_vlan_t) :
    qos_vlan_queue_compare p (key port.toInt32 vid.toInt32) = 0 ↔ p.port = port ∧ p.vid = vid := by
  obtain ⟨hkport, hkvid⟩ := key_eq hport hvid
  rw [qos_vlan_queue_compare, hkport, hkvid]
  split
  · rename_i hsame
    exact iff_of_true rfl hsame
  · rename_i hdiff
    exact iff_of_false (by decide) hdiff

theorem find_none (hport : port.toNat < 65536) (hvid : vid.toNat < 65536) :
    gw_lst_find l (key port.toInt32 vid.toInt32) = none ↔
      (port, vid) ∉ l.map fun p => (p.port, p.vid) := by
  rw [gw_lst_find, List.find?_eq_none]
  simp [compare_zero hport hvid]

theorem add_keyed (h : Keyed l) (mal : Bool) (hport : port.toNat < 256) (hvid : vid.toNat < 65536)
    (queue : Int32) :
    Keyed (gw_qos_vlan_queue_add mal l port.toInt32 vid.toInt32 queue).1 := by
  unfold gw_qos_vlan_queue_add
  split
  · exact h
  · rename_i hnone
    have hnew := (find_none (hport.trans (by decide)) hvid).mp hnone
    split
    · refine ⟨?_, ?_, ?_⟩
      · intro p hp
        rcases List.mem_append.mp hp with hp | hp
        · exact h.port p hp
        · rw [List.mem_singleton.mp hp]
          exact hport
      · intro p hp
        rcases List.mem_append.mp hp with hp | hp
        · exact h.vid p hp
        · rw [List.mem_singleton.mp hp]
          exact hvid
      · rw [List.map_append, List.nodup_append]
        refine ⟨h.distinct, by simp, ?_⟩
        intro a ha b hb he
        rw [List.map_singleton, List.mem_singleton] at hb
        apply hnew
        rwa [he, hb] at ha
    · exact h

theorem remove_keyed (h : Keyed l) (port vlanid : Int32) :
    Keyed (gw_qos_vlan_queue_remove l port vlanid).1 := by
  unfold gw_qos_vlan_queue_remove
  split
  · exact h
  · have hsub := List.eraseP_sublist (l := l)
      (p := fun p => decide (qos_vlan_queue_compare p (key port vlanid) = 0))
    exact ⟨fun p hp => h.port p (hsub.subset hp), fun p hp => h.vid p (hsub.subset hp),
      h.distinct.sublist (hsub.map _)⟩

theorem event_keyed (h : Keyed l) (e : Event) : Keyed (event l e) := by
  cases e with
  | add mal port vlanid queue =>
    have hport : port.toUInt32.toNat < 256 := port.toNat_lt
    have hvid : vlanid.toUInt32.toNat < 65536 := vlanid.toNat_lt
    exact add_keyed h mal hport hvid queue
  | remove port vlanid => exact remove_keyed h _ _

theorem run_keyed (es : List Event) : Keyed (run event [] es) := by
  apply run_inv (P := fun _ _ => True)
  · exact fun l e h _ => event_keyed h e
  · exact ⟨nofun, nofun, List.nodup_nil⟩
  · exact along_true _ es

/-- There are no more rules than keys. -/
theorem length_le (h : Keyed l) : l.length ≤ 16777216 := by
  let number : UInt32 × UInt32 → Nat := fun k => k.1.toNat * 65536 + k.2.toNat
  have hbounds : ∀ k ∈ l.map fun p => (p.port, p.vid), k.1.toNat < 256 ∧ k.2.toNat < 65536 := by
    intro k hk
    obtain ⟨p, hp, rfl⟩ := List.mem_map.mp hk
    exact ⟨h.port p hp, h.vid p hp⟩
  have hdistinct : ((l.map fun p => (p.port, p.vid)).map number).Nodup := by
    refine List.Nodup.map_on ?_ h.distinct
    rintro ⟨a, b⟩ hab ⟨c, d⟩ hcd he
    have hab := hbounds _ hab
    have hcd := hbounds _ hcd
    have he : a.toNat * 65536 + b.toNat = c.toNat * 65536 + d.toNat := he
    rw [Prod.mk.injEq, ← UInt32.toNat_inj, ← UInt32.toNat_inj]
    dsimp only at hab hcd
    omega
  have hsub : (l.map fun p => (p.port, p.vid)).map number ⊆ List.range 16777216 := by
    intro n hn
    obtain ⟨k, hk, rfl⟩ := List.mem_map.mp hn
    have hbound := hbounds k hk
    rw [List.mem_range]
    change k.1.toNat * 65536 + k.2.toNat < _
    omega
  have hle := (List.subperm_of_subset hdistinct hsub).length_le
  simpa using hle

end

/-! ## Save and restore -/

@[simp] theorem words_length (p : qos_vlan_t) : p.words.length = 12 := rfl

theorem restore_loop_eq {m : Mem} {l r : Rules} {i : Nat} (hheld : Holds m i (r.flatMap qos_vlan_t.words))
    (h : Keyed (l ++ r)) : gw_qos_vlan_restore_loop true m r.length i l = l ++ r := by
  induction r generalizing l i with
  | nil => simp [gw_qos_vlan_restore_loop]
  | cons p r ih =>
    rw [List.flatMap_cons, holds_append, words_length] at hheld
    obtain ⟨hp, hrest⟩ := hheld
    rw [qos_vlan_t.words, holds_append, holds_append] at hp
    have hport : p.port.toNat < 256 := h.port p (by simp)
    have hvid : p.vid.toNat < 65536 := h.vid p (by simp)
    have hsplit : l ++ p :: r = (l ++ [p]) ++ r := by simp
    have hnew : gw_lst_find l (key p.port.toInt32 p.vid.toInt32) = none := by
      rw [find_none (hport.trans (by decide)) hvid]
      have hd := h.distinct
      rw [List.map_append, List.nodup_append] at hd
      exact fun hm => hd.2.2 _ hm _ (by simp) rfl
    have hbyte : (load32 m i).toUInt8.toUInt32 = p.port := by
      rw [load32_store32 hp.1.1]
      apply UInt32.toNat_inj.mp
      rw [UInt8.toNat_toUInt32, UInt32.toNat_toUInt8]
      omega
    have hloadvid : load32 m (i + 4) = p.vid := load32_store32 hp.1.2
    have hloadqueue : load32 m (i + 8) = p.queue := load32_store32 hp.2
    rw [hsplit] at h ⊢
    rw [List.length_cons, gw_qos_vlan_restore_loop, hbyte, hloadvid, hloadqueue,
      gw_qos_vlan_queue_add, hnew]
    exact ih hrest h

/-- A list as the driver gets it: the count, and an array when there is something in it. -/
def passed (l : Rules) : Int32 × Option (List gw_qos_vlan_queue_data_t) :=
  (.ofNat l.length, if l = [] then none else some (l.map qos_vlan_t.data))

theorem count_toInt {l : Rules} (h : Keyed l) : (Int32.ofNat l.length).toInt = l.length := by
  have hle := length_le h
  exact Int32.toInt_ofNat_of_lt (by omega)

theorem apply_eq {l : Rules} (h : Keyed l)
    (driver : Int32 → Option (List gw_qos_vlan_queue_data_t) → Int32) :
    (gw_qos_vlan_queue_rules_apply true driver l 0).1 = some (passed l) := by
  have hcount := count_toInt h
  have hgot : gw_qos_vlan_queue_entry_get_by_port true l 0xff = passed l := by
    rw [gw_qos_vlan_queue_entry_get_by_port, if_pos rfl, UInt32.toInt32_ofNat', passed]
    by_cases hl : l = []
    · subst hl
      rfl
    · have hpos : 0 < Int32.ofNat l.length := by
        rw [Int32.lt_iff_toInt_lt, hcount]
        exact Int.natCast_pos.mpr (List.length_pos_of_ne_nil hl)
      rw [if_pos hpos, if_neg hl]
      rfl
  have hnonneg : 0 ≤ (passed l).1 := by
    rw [Int32.le_iff_toInt_le, passed, hcount]
    exact Int.natCast_nonneg _
  rw [gw_qos_vlan_queue_rules_apply, if_neg (not_not_intro rfl), hgot, if_pos hnonneg]

/-- The length that is saved does not wrap. -/
theorem showrun_length {l : Rules} (h : Keyed l) :
    UInt32.ofNat l.length * 3 * 4 = .ofNat (12 * l.length) := by
  have hle := length_le h
  apply UInt32.toNat_inj.mp
  rw [UInt32.toNat_mul, UInt32.toNat_mul, UInt32.toNat_ofNat', UInt32.toNat_ofNat']
  change l.length % 4294967296 * 3 % 4294967296 * 4 % 4294967296 = _ % 4294967296
  omega

theorem num_eq {l : Rules} (h : Keyed l) :
    ((UInt32.ofNat (12 * l.length)).toInt32.toUInt32 / (4 * 3)).toInt32.toNatClampNeg = l.length := by
  have hle := length_le h
  have hdiv : UInt32.ofNat (12 * l.length) / (4 * 3) = .ofNat l.length := by
    apply UInt32.toNat_inj.mp
    rw [UInt32.toNat_div, UInt32.toNat_ofNat_of_lt' (Nat.lt_of_le_of_lt (by omega)
      (by decide : 12 * 16777216 < 2 ^ 32)), UInt32.toNat_ofNat_of_lt' (Nat.lt_of_le_of_lt hle
      (by decide : 16777216 < 2 ^ 32))]
    change 12 * l.length / 12 = _
    omega
  rw [UInt32.toUInt32_toInt32, hdiv, UInt32.toInt32_ofNat', Int32.toNatClampNeg_ofNat_of_lt (by omega)]

theorem words_all (l : Rules) : (l.flatMap qos_vlan_t.words).length = 12 * l.length := by
  rw [List.length_flatMap]
  simp [Nat.mul_comm]

/-- Every list of rules that adds and removes make comes back from the bytes that
it is saved in, and goes to the driver, in its order. -/
theorem the_rules_survive_save_and_restore (es : List Event)
    (driver : Int32 → Option (List gw_qos_vlan_queue_data_t) → Int32) :
    ∃ len pv, gw_qos_vlan_showrun true (run event [] es) = (.GW_OK, len, some pv) ∧
      len.toInt = pv.length ∧
      (∀ m, Holds m 0 pv → gw_qos_vlan_restore true driver [] len m =
        (run event [] es, some (passed (run event [] es)))) ∧
      (gw_qos_vlan_queue_rules_apply true driver (run event [] es) 0).1 =
        some (passed (run event [] es)) ∧
      (passed (run event [] es)).1.toInt = (run event [] es).length := by
  have h := run_keyed es
  generalize run event [] es = l at h
  have hle := length_le h
  have hlen := showrun_length h
  refine ⟨_, _, rfl, ?_, ?_, apply_eq h driver, count_toInt h⟩
  · rw [hlen, UInt32.toInt32_ofNat', Int32.toInt_ofNat_of_lt (by omega), words_all]
  · intro m hm
    have hloop := restore_loop_eq (l := []) hm h
    rw [gw_qos_vlan_restore, hlen, num_eq h, hloop, List.nil_append, apply_eq h driver]

end gwdonu.qos
