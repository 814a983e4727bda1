-- What the commands of an OAM session print: the lines are put one behind another
-- into the output buffer.
import Gwdonu.Lib.Reading
import Gwdonu.Lib.Runs
import Mathlib.Data.UInt

namespace gwdonu.oam_cli

open reading (Extent)
open runs

/-! ## The program -/

def OAM_CLI_OUT_BUF_LENGTH : Nat := 2048

/-- The bytes of a string in front of its `NUL`. -/
structure CString where
  bytes : List UInt8
  no_nul : 0 ∉ bytes

def strlen (p : CString) : Nat := p.bytes.length

/-- `g_oam_cli_out_buf` shows the memory from the buffer's first byte on. `wrote` and `accepted`
are kept for the laws only: the bytes that have been written, and the strings whose
lines are in the buffer. -/
structure Output where
  g_oam_cli_out_buf : Nat → UInt8
  g_oam_cli_out_len : UInt32
  wrote : List Extent
  accepted : List CString

/-- Nothing is in the buffer yet. -/
def Output.empty (buf : Nat → UInt8) : Output := ⟨buf, 0, [], []⟩

/-- What the format `"%s\r\n"` makes of a string. -/
def line (p : CString) : List UInt8 := p.bytes ++ [13, 10]

def put (memory : Nat → UInt8) (dest : Nat) (bytes : List UInt8) : Nat → UInt8 :=
  fun a => if dest ≤ a then (bytes[a - dest]?).getD (memory a) else memory a

/-- The line and its `NUL`. -/
def Output.sprintf (o : Output) (dest : Nat) (p : CString) : Output × UInt32 :=
  ({ o with
      g_oam_cli_out_buf := put o.g_oam_cli_out_buf dest (line p ++ [0])
      wrote := o.wrote ++ [⟨dest, (line p).length + 1⟩]
      accepted := o.accepted ++ [p] },
    UInt32.ofNat (line p).length)

/-- `len` is added to the unsigned length of the output. -/
def Output.gwd_oam_cli_printf (o : Output) (p : CString) (len : Int32) : Output × Int32 :=
  let o :=
    if len ≠ 0 then
      if (len.toUInt32 + o.g_oam_cli_out_len).toNat < OAM_CLI_OUT_BUF_LENGTH then
        let (o', n) := o.sprintf o.g_oam_cli_out_len.toNat p
        { o' with g_oam_cli_out_len := o.g_oam_cli_out_len + n }
      else o
    else o
  (o, o.g_oam_cli_out_len.toInt32)

/-- The call of `_gw_print`. -/
def Output.print (o : Output) (p : CString) : Output := (o.gwd_oam_cli_printf p (Int32.ofNat (strlen p))).1

/-! ## The law -/

/-- The buffer holds the lines of the accepted strings and no byte was written behind it. -/
structure Output.Sound (o : Output) : Prop where
  inside : ∀ e ∈ o.wrote, e.Inside OAM_CLI_OUT_BUF_LENGTH
  total : o.g_oam_cli_out_len.toNat = (o.accepted.map fun p => strlen p + 2).sum
  lines : ∀ i b, (o.accepted.flatMap line)[i]? = some b → o.g_oam_cli_out_buf i = b

/-- There is room for the line and its `NUL`. -/
def Output.Fits (o : Output) (p : CString) : Prop :=
  o.g_oam_cli_out_len.toNat + strlen p + 3 ≤ OAM_CLI_OUT_BUF_LENGTH

/-- The buffer stays sound, and a string that does not fit is dropped whole. -/
def Output.Law (o : Output) (p : CString) : Prop := (o.print p).Sound ∧ (¬ o.Fits p → o.print p = o)

/-- The string fits, or it is seen that it does not: the room that is tested for is without
the three bytes that the format adds. -/
def Output.Careful (o : Output) (p : CString) : Prop :=
  o.Fits p ∨ strlen p % 2 ^ 32 = 0 ∨
    OAM_CLI_OUT_BUF_LENGTH ≤ (strlen p + o.g_oam_cli_out_len.toNat) % 2 ^ 32

instance (o : Output) (p : CString) : Decidable (o.Careful p) :=
  inferInstanceAs (Decidable (_ ≤ _ ∨ _ = _ ∨ _ ≤ _))

/-! ## One string -/

section
variable {o : Output} {p : CString}

@[simp] theorem length_line (p : CString) : (line p).length = strlen p + 2 := by simp [line, strlen]

/-- The string passes both tests of the function. -/
def Output.Admits (o : Output) (p : CString) : Prop :=
  strlen p % 2 ^ 32 ≠ 0 ∧ (strlen p + o.g_oam_cli_out_len.toNat) % 2 ^ 32 < OAM_CLI_OUT_BUF_LENGTH

theorem ofNat_eq_zero (n : Nat) : Int32.ofNat n = 0 ↔ n % 2 ^ 32 = 0 := by
  rw [← Int32.toBitVec_inj, ← BitVec.toNat_inj]
  simp

theorem toNat_sum (o : Output) (n : Nat) :
    ((Int32.ofNat n).toUInt32 + o.g_oam_cli_out_len).toNat = (n + o.g_oam_cli_out_len.toNat) % 2 ^ 32 := by
  simp [UInt32.toNat_add]

theorem print_refused (h : ¬ o.Admits p) : o.print p = o := by
  unfold Output.print Output.gwd_oam_cli_printf
  rw [toNat_sum]
  by_cases hlen : Int32.ofNat (strlen p) = 0
  · simp [hlen]
  · have hroom : ¬ (strlen p + o.g_oam_cli_out_len.toNat) % 2 ^ 32 < OAM_CLI_OUT_BUF_LENGTH :=
      fun hroom => h ⟨fun h0 => hlen ((ofNat_eq_zero _).mpr h0), hroom⟩
    simp only [if_neg hroom, ite_self]

theorem print_admitted (h : o.Admits p) : o.print p =
    { g_oam_cli_out_buf := put o.g_oam_cli_out_buf o.g_oam_cli_out_len.toNat (line p ++ [0])
      g_oam_cli_out_len := o.g_oam_cli_out_len + UInt32.ofNat (strlen p + 2)
      wrote := o.wrote ++ [⟨o.g_oam_cli_out_len.toNat, strlen p + 3⟩]
      accepted := o.accepted ++ [p] } := by
  have hlen : Int32.ofNat (strlen p) ≠ 0 := fun h0 => h.1 ((ofNat_eq_zero _).mp h0)
  unfold Output.print Output.gwd_oam_cli_printf
  rw [toNat_sum]
  simp only [if_pos hlen, if_pos h.2, Output.sprintf, length_line]

theorem careful_iff : o.Careful p ↔ (o.Admits p → o.Fits p) := by
  unfold Output.Careful Output.Admits
  constructor
  · rintro (hfits | hlen | hroom) ⟨hlen', hroom'⟩
    · exact hfits
    · exact absurd hlen hlen'
    · exact absurd hroom' (Nat.not_lt.mpr hroom)
  · intro h
    by_cases hlen : strlen p % 2 ^ 32 = 0
    · exact .inr (.inl hlen)
    · by_cases hroom : OAM_CLI_OUT_BUF_LENGTH ≤ (strlen p + o.g_oam_cli_out_len.toNat) % 2 ^ 32
      · exact .inr (.inr hroom)
      · exact .inl (h ⟨hlen, Nat.not_le.mp hroom⟩)

theorem total_lines (o : Output) : (o.accepted.flatMap line).length = (o.accepted.map fun p => strlen p + 2).sum := by
  rw [List.length_flatMap]
  exact congrArg List.sum (List.map_congr_left fun p _ => length_line p)

/-- What is in front of the place stays; what is put there follows. -/
theorem put_lines {memory : Nat → UInt8} {old new : List UInt8} (h : ∀ i b, old[i]? = some b → memory i = b)
    (rest : List UInt8) (i : Nat) (b : UInt8) (hb : (old ++ new)[i]? = some b) :
    put memory old.length (new ++ rest) i = b := by
  unfold put
  by_cases hi : old.length ≤ i
  · rw [List.getElem?_append_right hi] at hb
    rw [if_pos hi, List.getElem?_append_left (List.getElem?_eq_some_iff.mp hb).1, hb]
    rfl
  · have hi : i < old.length := Nat.lt_of_not_le hi
    rw [List.getElem?_append_left hi] at hb
    rw [if_neg (Nat.not_le.mpr hi)]
    exact h i b hb

theorem Output.Sound.print (h : o.Sound) (hadmits : o.Admits p) (hfits : o.Fits p) : (o.print p).Sound := by
  have hend : o.g_oam_cli_out_len.toNat = (o.accepted.flatMap line).length := h.total.trans (total_lines o).symm
  have hfits : o.g_oam_cli_out_len.toNat + strlen p + 3 ≤ 2048 := hfits
  rw [print_admitted hadmits]
  constructor
  · intro e he
    rcases List.mem_append.mp he with he | he
    · exact h.inside e he
    · obtain rfl := List.mem_singleton.mp he
      exact .inr hfits
  · have hsum : (o.g_oam_cli_out_len + UInt32.ofNat (strlen p + 2)).toNat =
        o.g_oam_cli_out_len.toNat + (strlen p + 2) := by
      rw [UInt32.toNat_add, UInt32.toNat_ofNat']
      omega
    rw [hsum, h.total, List.map_append, List.sum_append, List.map_singleton, List.sum_singleton]
  · intro i b hb
    rw [List.flatMap_append, List.flatMap_singleton] at hb
    rw [hend]
    exact put_lines h.lines [0] i b hb

/-- A line that has no room goes over the end of the buffer. -/
theorem overruns (hadmits : o.Admits p) (hfits : ¬ o.Fits p) : ¬ (o.print p).Sound := by
  intro h
  rw [print_admitted hadmits] at h
  rcases h.inside _ (List.mem_append_right _ (List.mem_singleton_self _)) with hnone | hinside
  · exact absurd hnone (Nat.succ_ne_zero _)
  · exact hfits hinside

theorem law_iff (h : o.Sound) : o.Law p ↔ o.Careful p := by
  rw [careful_iff]
  by_cases hadmits : o.Admits p
  · constructor
    · exact fun hlaw _ => by_contra fun hfits => overruns hadmits hfits hlaw.1
    · intro hfits
      exact ⟨h.print hadmits (hfits hadmits), fun hnot => absurd (hfits hadmits) hnot⟩
  · rw [Output.Law, print_refused hadmits]
    exact ⟨fun _ hc => absurd hc hadmits, fun _ => ⟨h, fun _ => rfl⟩⟩

theorem sound_step (h : o.Sound) (hcareful : o.Careful p) : (o.print p).Sound := ((law_iff h).mpr hcareful).1

end

/-! ## Every run -/

theorem sound_empty (buf : Nat → UInt8) : (Output.empty buf).Sound := ⟨nofun, rfl, nofun⟩

/-- The output stays in its buffer as long as each string has room for the line end and
the `NUL` too, or is refused. -/
theorem the_output_stays_in_its_buffer (buf : Nat → UInt8) (ps : List CString) :
    Along Output.print Output.Law (Output.empty buf) ps ↔ Along Output.print Output.Careful (Output.empty buf) ps :=
  along_iff_along (I := Output.Sound) (fun _ _ h => sound_step h) (fun _ _ h => law_iff h) (sound_empty buf) ps

/-- The letter `a`, some times. -/
def letters (n : Nat) : CString := ⟨List.replicate n 97, fun h => absurd (List.mem_replicate.mp h).2 (by decide)⟩

/-- A string of 2047 letters is accepted, and two bytes are written behind the buffer. -/
theorem a_long_line_overruns : ¬ Along Output.print Output.Law (Output.empty fun _ => 0) [letters 2047] := by
  have hlen : strlen (letters 2047) = 2047 := List.length_replicate
  have hcareful : ¬ (Output.empty fun _ => 0).Careful (letters 2047) := by
    unfold Output.Careful Output.Fits
    rw [hlen]
    decide
  exact fun h => hcareful ((law_iff (sound_empty _)).mp h.1)

end gwdonu.oam_cli
