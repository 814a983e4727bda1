-- What a save writes when the save functions give any length and any bytes, and when all
-- of it is in the file.
import Gwdonu.ConfRoundTrip

namespace gwdonu.conf_file

open oam

/-! ## The program -/

/-- What a save function gives with `GW_OK`: `len`, and the memory behind `pv`. -/
structure SaveResult where
  len : Int32
  pv : Mem

/-- `func_s` is nothing when it is not there or does not return `GW_OK`. -/
structure SaveHandle where
  type : Int32
  func_s : Option SaveResult

def memcpy (m : Mem) (i n : Nat) (val : Mem) : Mem := fun k => if i ≤ k ∧ k < i + n then val (k - i) else m k

/-- `vfile_write` of any memory. -/
def gw_conf_file_t.write (pf : gw_conf_file_t) (offset len : UInt32) (val : Mem) : gw_conf_file_t :=
  if len + offset ≤ pf.len then { pf with pval := memcpy pf.pval offset.toNat len.toNat val } else pf

def gw_conf_file_t.save (pf : gw_conf_file_t) (type : Int32) (v : SaveResult) : gw_conf_file_t :=
  let pf := (vfile_write pf pf.offset 4 (store32 type.toUInt32)).skip 4
  let pf := (vfile_write pf pf.offset 4 (store32 v.len.toUInt32)).skip 4
  (pf.write pf.offset v.len.toUInt32 v.pv).skip v.len.toUInt32

/-- A TLV that the scan has counted, and where. -/
structure Taken where
  offset : Nat
  type : Int32
  value : SaveResult

def save_scan : List SaveHandle → gw_conf_file_t → gw_conf_file_t × List Taken
  | [], pf => (pf, [])
  | p :: rest, pf =>
    match p.func_s with
    | none => save_scan rest pf
    | some v =>
      if pf.len < pf.offset + v.len.toUInt32 then (pf, [])
      else
        let (pf', taken) := save_scan rest (pf.save p.type v)
        (pf', ⟨pf.offset.toNat, p.type, v⟩ :: taken)

/-- The file after a save, the last offset, and the TLVs that are counted. -/
structure Saved where
  file : Memory
  offset : UInt32
  taken : List Taken

/-- The head and its two words are of eight bytes. -/
def scanned (handle_list : List SaveHandle) (file : Memory) (mgt_code : Int32) : gw_conf_file_t × List Taken :=
  let pf := { vfile_open file with offset := 8 }
  if mgt_code = 1 then save_scan handle_list pf else (pf, [])

def words (pf : gw_conf_file_t) : gw_conf_file_t :=
  let pf := vfile_write pf 0 4 (store32 8)
  vfile_write pf 4 4 (store32 (pf.offset - 8))

def save (handle_list : List SaveHandle) (file : Memory) (mgt_code : Int32) : Saved :=
  let (pf, taken) := scanned handle_list file mgt_code
  let pf := words pf
  ⟨{ file with pval := pf.pval }, pf.offset, taken⟩

/-! ## The law -/

def SaveResult.size (v : SaveResult) : Nat := v.len.toUInt32.toNat

/-- The head and the value of a TLV. -/
def Taken.bytes (t : Taken) : List UInt8 :=
  store32 t.type.toUInt32 ++ store32 t.value.len.toUInt32 ++ oam.bytes t.value.pv 0 t.value.size

/-- The TLVs lie one behind the other from `start` to `stop`. -/
def Fills : Nat → List Taken → Nat → Prop
  | start, [], stop => start = stop
  | start, t :: l, stop => t.offset = start ∧ Fills (start + 8 + t.value.size) l stop

/-- The file has all the bytes of the TLV. -/
structure Complete (m : Mem) (size : Nat) (t : Taken) : Prop where
  nonneg : 0 ≤ t.value.len
  inside : t.offset + 8 + t.value.size ≤ size
  holds : Holds m t.offset t.bytes

/-- Everything that is counted is in the file, and nothing else is. -/
structure Saved.Sound (s : Saved) : Prop where
  inside : s.offset.toNat ≤ s.file.size.toNatClampNeg
  head : Holds s.file.pval 0 (store32 8 ++ store32 (s.offset - 8))
  fills : Fills 8 s.taken s.offset.toNat
  complete : ∀ t ∈ s.taken, Complete s.file.pval s.file.size.toNatClampNeg t

/-- Each value that comes to its turn at an offset and passes the test there has a length
that is not negative, and room for its head too. -/
def Room (size : Nat) : List SaveHandle → Nat → Prop
  | [], _ => True
  | p :: rest, o =>
    match p.func_s with
    | none => Room size rest o
    | some v =>
      (o + v.size) % 2 ^ 32 ≤ size → 0 ≤ v.len ∧ o + 8 + v.size ≤ size ∧ Room size rest (o + 8 + v.size)

/-! ## The writes -/

section
variable {m : Mem} {i k n : Nat} {val : Mem} {pf : gw_conf_file_t} {v : SaveResult} {type : Int32}

theorem memcpy_eq (m : Mem) (i n : Nat) (val : Mem) : memcpy m i n val = splice m i (oam.bytes val 0 n) := by
  funext k
  unfold memcpy splice
  by_cases hi : i ≤ k
  · by_cases hk : k < i + n
    · have hget : (oam.bytes val 0 n)[k - i]? = some (val (k - i)) := by
        rw [List.getElem?_eq_getElem (by simp; omega)]
        simp [oam.bytes]
      rw [if_pos ⟨hi, hk⟩, if_pos hi, hget]
      rfl
    · rw [if_neg fun h => hk h.2, if_pos hi, List.getElem?_eq_none (by simp; omega)]
      rfl
  · rw [if_neg fun h => hi h.1, if_neg hi]

theorem write_bytes (offset len : UInt32) (val : Mem) :
    pf.write offset len val = vfile_write pf offset len (oam.bytes val 0 len.toNat) := by
  have htake : (oam.bytes val 0 len.toNat).take len.toNat = oam.bytes val 0 len.toNat :=
    List.take_of_length_le (Nat.le_of_eq (bytes_length _ _ _))
  rw [gw_conf_file_t.write, vfile_write, memcpy_eq, htake]

/-- A value is put down as the list of its bytes. -/
theorem save_put : pf.save type v = pf.put type (oam.bytes v.pv 0 v.size) := by
  have hlen : UInt32.ofNat (oam.bytes v.pv 0 v.size).length = v.len.toUInt32 := by
    rw [bytes_length]
    exact UInt32.ofNat_toNat
  unfold gw_conf_file_t.save gw_conf_file_t.put
  dsimp only
  rw [hlen, write_bytes]
  rfl

theorem bytes_memory (l : List UInt8) (hn : n ≤ l.length) : oam.bytes (memory l) 0 n = l.take n := by
  apply List.ext_getElem
  · simp [hn]
  · intro k hk hk'
    have hlt : k < l.length := by
      rw [bytes_length] at hk
      exact hk.trans_le hn
    simp [oam.bytes, memory, List.getD_eq_getElem?_getD, hlt]

/-- The scan of values that are lists is the one of the configuration file. -/
theorem save_scan_lists (l : List gw_conf_handle_t) (pf : gw_conf_file_t) :
    (save_scan (l.map fun p => ⟨p.type, p.func_s.map fun pv => ⟨.ofNat pv.length, memory pv⟩⟩) pf).1 =
      gw_conf_save_scan l pf := by
  induction l generalizing pf with
  | nil => rfl
  | cons p l ih =>
    rw [List.map_cons, save_scan, gw_conf_save_scan]
    cases hp : p.func_s with
    | none => exact ih pf
    | some pv =>
      have hlen : (Int32.ofNat pv.length).toUInt32 = .ofNat pv.length := rfl
      have hwrite : ∀ (pf : gw_conf_file_t) offset, pf.write offset (.ofNat pv.length) (memory pv) =
          vfile_write pf offset (.ofNat pv.length) pv := by
        intro pf offset
        have hle : (UInt32.ofNat pv.length).toNat ≤ pv.length := by
          rw [UInt32.toNat_ofNat']
          exact Nat.mod_le _ _
        rw [write_bytes, bytes_memory pv hle, vfile_write, vfile_write, List.take_take, Nat.min_self]
      have hput : pf.save p.type ⟨.ofNat pv.length, memory pv⟩ = pf.put p.type pv := by
        unfold gw_conf_file_t.save gw_conf_file_t.put
        dsimp only
        rw [hlen, hwrite]
      rw [Option.map_some]
      dsimp only
      rw [hlen, hput]
      split
      · rfl
      · exact ih _

/-- A TLV that has room is laid down whole, and nothing in front of it changes. -/
theorem save_whole (h : pf.offset.toNat + 8 + v.size ≤ pf.len.toNat) :
    (pf.save type v).offset.toNat = pf.offset.toNat + 8 + v.size ∧ (pf.save type v).len = pf.len ∧
      Holds (pf.save type v).pval pf.offset.toNat (Taken.bytes ⟨pf.offset.toNat, type, v⟩) ∧
      ∀ k < pf.offset.toNat, (pf.save type v).pval k = pf.pval k := by
  have hlen : (oam.bytes v.pv 0 v.size).length = v.size := bytes_length _ _ _
  have hfit : pf.offset.toNat + (8 + (oam.bytes v.pv 0 v.size).length) ≤ pf.len.toNat := by
    rw [hlen]
    omega
  have hbytes : Taken.bytes ⟨pf.offset.toNat, type, v⟩ = tlv type (oam.bytes v.pv 0 v.size) := by
    have hword : UInt32.ofNat (oam.bytes v.pv 0 v.size).length = v.len.toUInt32 := by
      rw [hlen]
      exact UInt32.ofNat_toNat
    rw [Taken.bytes, tlv, hword]
  rw [save_put, put_eq hfit, hbytes]
  refine ⟨?_, rfl, splice_holds, fun k hk => if_neg (Nat.not_le.mpr hk)⟩
  rw [append_offset, tlv_length, hlen, Nat.add_assoc]
  rw [tlv_length]
  exact hfit

/-! ## The scan -/

variable {l : List SaveHandle} {taken : List Taken} {pf' : gw_conf_file_t} {size start stop : Nat}

theorem toNat_test (pf : gw_conf_file_t) (v : SaveResult) :
    pf.len < pf.offset + v.len.toUInt32 ↔ ¬ (pf.offset.toNat + v.size) % 2 ^ 32 ≤ pf.len.toNat := by
  rw [UInt32.lt_iff_toNat_lt, UInt32.toNat_add, Nat.not_le]
  rfl

theorem fills_le (h : Fills start taken stop) : start ≤ stop := by
  induction taken generalizing start with
  | nil => exact Nat.le_of_eq h
  | cons t l ih =>
    have hle := ih h.2
    omega

theorem holds_same {m' : Mem} {l : List UInt8} (h : Holds m i l) (hsame : ∀ k, i ≤ k → k < i + l.length → m' k = m k) :
    Holds m' i l := by
  have hbytes : oam.bytes m' i l.length = oam.bytes m i l.length :=
    List.map_congr_left fun k hk => hsame _ (Nat.le_add_right _ _) (Nat.add_lt_add_left (List.mem_range.mp hk) _)
  rw [Holds, hbytes]
  exact h

theorem length_bytes (t : Taken) : t.bytes.length = 8 + t.value.size := by
  rw [Taken.bytes, List.length_append, List.length_append, store32_length, store32_length, bytes_length]

/-- With room for everything that passes the test, everything that is counted is written. -/
theorem scan_room (h : Room pf.len.toNat l pf.offset.toNat) (hin : pf.offset.toNat ≤ pf.len.toNat)
    (hscan : save_scan l pf = (pf', taken)) :
    pf'.len = pf.len ∧ pf'.offset.toNat ≤ pf.len.toNat ∧ Fills pf.offset.toNat taken pf'.offset.toNat ∧
      (∀ k < pf.offset.toNat, pf'.pval k = pf.pval k) ∧
      ∀ t ∈ taken, pf.offset.toNat ≤ t.offset ∧ Complete pf'.pval pf.len.toNat t := by
  induction l generalizing pf pf' taken with
  | nil =>
    cases hscan
    exact ⟨rfl, hin, rfl, fun _ _ => rfl, nofun⟩
  | cons p l ih =>
    rw [Room] at h
    rw [save_scan] at hscan
    cases hp : p.func_s with
    | none =>
      rw [hp] at h hscan
      exact ih h hin hscan
    | some v =>
      rw [hp] at h hscan
      dsimp only at h hscan
      by_cases htest : pf.len < pf.offset + v.len.toUInt32
      · rw [if_pos htest] at hscan
        cases hscan
        exact ⟨rfl, hin, rfl, fun _ _ => rfl, nofun⟩
      · rw [if_neg htest] at hscan
        rw [toNat_test, not_not] at htest
        obtain ⟨hnonneg, hfit, hroom⟩ := h htest
        obtain ⟨hoffset, hlen, hholds, hfront⟩ :
            (pf.save p.type v).offset.toNat = pf.offset.toNat + 8 + v.size ∧ _ := save_whole hfit
        rw [← hoffset] at hfit hroom
        rw [← hlen] at hfit hroom
        obtain ⟨hlen', hin', hfills, hfront', hcomplete⟩ := ih hroom hfit rfl
        rw [hlen, hoffset] at hfit
        rw [hlen] at hlen' hin' hcomplete
        rw [hoffset] at hfills hfront' hcomplete
        cases hscan
        refine ⟨hlen', hin', ⟨rfl, hfills⟩, ?_, ?_⟩
        · intro k hk
          rw [hfront' k (by omega), hfront k hk]
        · intro t ht
          rcases List.mem_cons.mp ht with rfl | ht
          · refine ⟨Nat.le_refl _, hnonneg, hfit, holds_same hholds fun k _ hk => hfront' k ?_⟩
            rw [length_bytes] at hk
            change k < pf.offset.toNat + (8 + v.size) at hk
            omega
          · obtain ⟨hafter, hwhole⟩ := hcomplete t ht
            exact ⟨by omega, hwhole⟩

/-- Without it, something is counted that is not in the file, or has a negative length. -/
theorem scan_no_room (h : ¬ Room pf.len.toNat l pf.offset.toNat) (hscan : save_scan l pf = (pf', taken)) :
    ∃ t ∈ taken, ¬ (0 ≤ t.value.len ∧ t.offset + 8 + t.value.size ≤ pf.len.toNat) := by
  induction l generalizing pf pf' taken with
  | nil => exact absurd trivial h
  | cons p l ih =>
    rw [Room] at h
    rw [save_scan] at hscan
    cases hp : p.func_s with
    | none =>
      rw [hp] at h hscan
      exact ih h hscan
    | some v =>
      rw [hp] at h hscan
      dsimp only at h hscan
      obtain ⟨htest, hno⟩ := Classical.not_imp.mp h
      rw [if_neg fun htest' => (toNat_test pf v).mp htest' htest] at hscan
      cases hscan
      by_cases hfit : 0 ≤ v.len ∧ pf.offset.toNat + 8 + v.size ≤ pf.len.toNat
      · obtain ⟨hoffset, hlen, -⟩ :
            (pf.save p.type v).offset.toNat = pf.offset.toNat + 8 + v.size ∧ _ := save_whole hfit.2
        have hrest : ¬ Room (pf.save p.type v).len.toNat l (pf.save p.type v).offset.toNat := by
          rw [hlen, hoffset]
          exact fun hroom => hno ⟨hfit.1, hfit.2, hroom⟩
        obtain ⟨t, ht, hbad⟩ := ih hrest rfl
        rw [hlen] at hbad
        exact ⟨t, List.mem_cons_of_mem _ ht, hbad⟩
      · exact ⟨_, List.mem_cons_self, hfit⟩

/-! ## The whole save -/

variable {file : Memory} {mgt_code : Int32}

theorem words_offset (pf : gw_conf_file_t) : (words pf).offset = pf.offset := by
  have hsame : ∀ (pf : gw_conf_file_t) offset len val, (vfile_write pf offset len val).offset = pf.offset := by
    intro pf offset len val
    unfold vfile_write
    split
    · rfl
    · rfl
  rw [words, hsame, hsame]

theorem words_pval (h : 8 ≤ pf.len.toNat) :
    (words pf).pval = splice pf.pval 0 (store32 8 ++ store32 (pf.offset - 8)) := by
  have hfirst : vfile_write pf 0 4 (store32 8) = { pf with pval := splice pf.pval 0 (store32 8) } :=
    write_eq rfl (Nat.le_trans (by decide) h)
  have hsecond : vfile_write { pf with pval := splice pf.pval 0 (store32 8) } 4 4 (store32 (pf.offset - 8)) =
      { pf with pval := splice (splice pf.pval 0 (store32 8)) 4 (store32 (pf.offset - 8)) } := write_eq rfl h
  rw [words, hfirst, hsecond]
  change splice (splice pf.pval 0 (store32 8)) (0 + (store32 8).length) (store32 (pf.offset - 8)) = _
  exact splice_append

/-- With room, the scan counts what it has written. -/
theorem scanned_room (hsize : 8 ≤ file.size.toNatClampNeg) (hroom : mgt_code = 1 → Room file.size.toNatClampNeg l 8)
    (hscan : scanned l file mgt_code = (pf, taken)) :
    pf.len.toNat = file.size.toNatClampNeg ∧ pf.offset.toNat ≤ file.size.toNatClampNeg ∧
      Fills 8 taken pf.offset.toNat ∧
      ∀ t ∈ taken, 8 ≤ t.offset ∧ Complete pf.pval file.size.toNatClampNeg t := by
  unfold scanned at hscan
  dsimp only at hscan
  obtain ⟨pf₀, hpf₀⟩ : ∃ pf₀ : gw_conf_file_t, { vfile_open file with offset := 8 } = pf₀ := ⟨_, rfl⟩
  have hoffset : pf₀.offset.toNat = 8 := hpf₀ ▸ rfl
  have hlen : pf₀.len.toNat = file.size.toNatClampNeg := hpf₀ ▸ len_eq file
  rw [hpf₀] at hscan
  rw [← hlen] at hsize hroom ⊢
  rw [← hoffset] at hsize hroom ⊢
  by_cases hsave : mgt_code = 1
  · rw [if_pos hsave] at hscan
    obtain ⟨hlen', hin, hfills, -, hcomplete⟩ := scan_room (hroom hsave) hsize hscan
    exact ⟨congrArg UInt32.toNat hlen', hin, hfills, hcomplete⟩
  · rw [if_neg hsave] at hscan
    cases hscan
    exact ⟨rfl, hsize, rfl, nofun⟩

theorem scanned_no_room (hroom : ¬ (mgt_code = 1 → Room file.size.toNatClampNeg l 8))
    (hscan : scanned l file mgt_code = (pf, taken)) :
    ∃ t ∈ taken, ¬ (0 ≤ t.value.len ∧ t.offset + 8 + t.value.size ≤ file.size.toNatClampNeg) := by
  obtain ⟨hsave, hroom⟩ := Classical.not_imp.mp hroom
  unfold scanned at hscan
  dsimp only at hscan
  obtain ⟨pf₀, hpf₀⟩ : ∃ pf₀ : gw_conf_file_t, { vfile_open file with offset := 8 } = pf₀ := ⟨_, rfl⟩
  have hoffset : pf₀.offset.toNat = 8 := hpf₀ ▸ rfl
  have hlen : pf₀.len.toNat = file.size.toNatClampNeg := hpf₀ ▸ len_eq file
  rw [hpf₀, if_pos hsave] at hscan
  rw [← hlen] at hroom ⊢
  rw [← hoffset] at hroom
  exact scan_no_room hroom hscan

theorem sound_iff : (save l file mgt_code).Sound ↔
    8 ≤ file.size.toNatClampNeg ∧ (mgt_code = 1 → Room file.size.toNatClampNeg l 8) := by
  obtain ⟨pf, taken, hscan⟩ : ∃ pf taken, scanned l file mgt_code = (pf, taken) := ⟨_, _, rfl⟩
  have hsave : save l file mgt_code = ⟨{ file with pval := (words pf).pval }, pf.offset, taken⟩ := by
    rw [save, hscan, ← words_offset pf]
  rw [hsave]
  constructor
  · intro h
    refine ⟨(fills_le h.fills).trans h.inside, ?_⟩
    by_contra hroom
    obtain ⟨t, ht, hbad⟩ := scanned_no_room hroom hscan
    exact hbad ⟨(h.complete t ht).nonneg, (h.complete t ht).inside⟩
  · rintro ⟨hsize, hroom⟩
    obtain ⟨hlen, hin, hfills, hcomplete⟩ := scanned_room hsize hroom hscan
    have hpval : (words pf).pval = splice pf.pval 0 (store32 8 ++ store32 (pf.offset - 8)) :=
      words_pval (hlen ▸ hsize)
    refine ⟨hin, ?_, hfills, ?_⟩
    · change Holds (words pf).pval 0 (store32 8 ++ store32 (pf.offset - 8))
      rw [hpval]
      exact splice_holds
    · intro t ht
      obtain ⟨hafter, hnonneg, hinside, hholds⟩ := hcomplete t ht
      refine ⟨hnonneg, hinside, holds_same hholds fun k hk _ => ?_⟩
      have hhead : (store32 8 ++ store32 (pf.offset - 8)).length ≤ k - 0 := hafter.trans hk
      change (words pf).pval k = _
      rw [hpval]
      unfold splice
      rw [if_pos (Nat.zero_le k), List.getElem?_eq_none hhead]
      rfl

end

/-- Everything that a save counts is in the file exactly when the file has a head, and each value
that passes the test has a length that is not negative and room for its own head. -/
theorem a_save_counts_what_it_wrote (handle_list : List SaveHandle) (file : Memory) (mgt_code : Int32) :
    (save handle_list file mgt_code).Sound ↔
      8 ≤ file.size.toNatClampNeg ∧ (mgt_code = 1 → Room file.size.toNatClampNeg handle_list 8) := sound_iff

/-- A value of eight bytes for a file of 16: the test lets it in, and there is no room for its head. -/
theorem a_save_counts_a_value_without_room :
    ¬ (save [⟨1, some ⟨8, memory []⟩⟩] ⟨memory [], 16, by decide⟩ 1).Sound := by
  rw [sound_iff]
  rintro ⟨-, hroom⟩
  exact absurd (hroom rfl (by decide)).2.1 (by decide)

end gwdonu.conf_file
