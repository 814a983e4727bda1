-- A line with a cursor in it, and the keys of the line editor as what they do to it: what is behind
-- the line in the array stays 0, and nothing outside of the arrays is read or written.
import Gwdonu.LineEditor

namespace gwdonu.line_editor

open cells

/-! ## The line -/

/-- A line with a cursor between its bytes. -/
structure Line where
  front : List UInt8
  back : List UInt8

namespace Line

variable (line : Line)

def text : List UInt8 := line.front ++ line.back

/-- The word in front of the cursor goes, with the blanks behind it. -/
def delete_word : Line := ⟨(line.front.rdropWhile fun c => c = 0x20).rdropWhile fun c => c ≠ 0x20, line.back⟩

def kill : Line := ⟨line.front, []⟩

def insert (c : UInt8) : Line := ⟨line.front ++ [c], line.back⟩

def left : Line := ⟨line.front.dropLast, line.front.getLast?.toList ++ line.back⟩

def right : Line := ⟨line.front ++ line.back.take 1, line.back.drop 1⟩

def start : Line := ⟨[], line.text⟩

def finish : Line := ⟨line.text, []⟩

theorem delete_word_ne (h : line.front ≠ []) : line.delete_word.front ≠ line.front := by
  intro heq
  have hlen := (List.rdropWhile_prefix (fun c => decide (c = (0x20 : UInt8))) line.front).length_le
  have hlen' := (List.rdropWhile_prefix (fun c => decide (c ≠ 0x20))
    (line.front.rdropWhile fun c => c = 0x20)).length_le
  have hboth := congrArg List.length heq
  unfold delete_word at heq hboth
  dsimp only at heq hboth
  have hblanks : (line.front.rdropWhile fun c => c = 0x20) = line.front :=
    (List.rdropWhile_prefix _ _).eq_of_length (by omega)
  rw [hblanks] at heq
  have hblank := List.rdropWhile_eq_self_iff.mp hblanks h
  have hother := List.rdropWhile_eq_self_iff.mp heq h
  simp only [decide_eq_true_eq] at hblank hother
  exact hother hblank

theorem length_mk (front back : List UInt8) : (mk front back).text.length = front.length + back.length :=
  List.length_append

theorem text_mk (front : List UInt8) : (mk front []).text = front := List.append_nil front

end Line

/-- The array, the length and the cursor are those of the line. -/
structure Shows (cmd : Int → UInt8) (l cursor : Int) (line : Line) : Prop where
  cells : Padded 0 cmd MAX_LINE_LENTH line.text
  l_eq : l = line.text.length
  cursor_eq : cursor = line.front.length
  fits : line.text.length < MAX_LINE_LENTH
  chars : 0 ∉ line.text

/-- The cursor goes elsewhere in the text. -/
theorem Shows.move {cmd : Int → UInt8} {l cursor cursor' : Int} {line line' : Line}
    (h : Shows cmd l cursor line) (htext : line'.text = line.text) (hcursor : cursor' = line'.front.length) :
    Shows cmd l cursor' line' := by
  refine ⟨?_, ?_, hcursor, ?_, ?_⟩
  · rw [htext]
    exact h.cells
  · rw [htext]
    exact h.l_eq
  · rw [htext]
    exact h.fits
  · rw [htext]
    exact h.chars

namespace cli_loop

abbrev Shows (s : cli_loop) (line : Line) : Prop := line_editor.Shows s.cmd s.l s.cursor line

/-- The accesses are inside, and the strings of the history end. -/
def Books (s : cli_loop) : Prop :=
  s.Inside ∧ (∀ i, (s.history i).length < MAX_LINE_LENTH ∧ 0 ∉ s.history i) ∧
    -1 ≤ s.in_history ∧ s.in_history < MAX_HISTORY

variable {s s' : cli_loop} {line : Line} {start : Int} {n : Nat} {c : UInt8} {f b l : List UInt8}

/-! ## Fields -/

section

variable (s : cli_loop) (start : Int) (n : Nat) (c : UInt8) (l : List UInt8)

@[simp] theorem session_over_access : (s.access start n).session_over = s.session_over := rfl

@[simp] theorem l_store : (s.store start l).l = s.l := rfl

@[simp] theorem cursor_store : (s.store start l).cursor = s.cursor := rfl

@[simp] theorem session_over_store : (s.store start l).session_over = s.session_over := rfl

@[simp] theorem l_memset : (s.memset start c n).l = s.l := rfl

@[simp] theorem cursor_memset : (s.memset start c n).cursor = s.cursor := rfl

@[simp] theorem oldl_memset : (s.memset start c n).oldl = s.oldl := rfl

@[simp] theorem session_over_memset : (s.memset start c n).session_over = s.session_over := rfl

@[simp] theorem l_move_right : s.move_right.l = s.l := rfl

@[simp] theorem cursor_move_right : s.move_right.cursor = s.cursor := rfl

@[simp] theorem session_over_move_right : s.move_right.session_over = s.session_over := rfl

end

theorem inside_access : (s.access start n).Inside ↔ s.Inside ∧ Extent.Inside ⟨start, n⟩ MAX_LINE_LENTH := by
  unfold Inside access
  dsimp only
  rw [List.forall_mem_append, List.forall_mem_singleton]
  exact ⟨fun h => ⟨⟨h.1.1, h.2⟩, h.1.2⟩, fun h => ⟨⟨h.1.1, h.2⟩, h.1.2⟩⟩

theorem books_access : (s.access start n).Books ↔ s.Books ∧ Extent.Inside ⟨start, n⟩ MAX_LINE_LENTH := by
  unfold Books
  rw [inside_access]
  exact ⟨fun h => ⟨⟨h.1.1, h.2⟩, h.1.2⟩, fun h => ⟨⟨h.1.1, h.2⟩, h.1.2⟩⟩

theorem Books.access (h : s.Books) (hlo : 0 ≤ start) (hhi : start + n ≤ MAX_LINE_LENTH) : (s.access start n).Books :=
  books_access.mpr ⟨h, .inr ⟨hlo, hhi⟩⟩

theorem Books.store (h : s.Books) (hlo : 0 ≤ start) (hhi : start + l.length ≤ MAX_LINE_LENTH) :
    (s.store start l).Books :=
  h.access hlo hhi

theorem Books.memset (h : s.Books) (hlo : 0 ≤ start) (hhi : start + n ≤ MAX_LINE_LENTH) : (s.memset start c n).Books :=
  h.access hlo hhi

/-! ## The string -/

theorem Shows.string (h : s.Shows line) : s.string 0 = line.text := h.cells.text_eq h.chars h.fits

/-- A string is read up to its end, which is no later than the last 0. -/
theorem Books.read_string (h : s.Books) (hlo : 0 ≤ start) {k : Nat} (hk : start ≤ k) (hend : k < MAX_LINE_LENTH)
    (hzero : s.cmd k = 0) : (s.read_string start).Books := by
  obtain ⟨j, hj⟩ := Int.le.dest hk
  have hlen : (s.string start).length ≤ j := (holds_text (by omega) (by rw [hj]; exact hzero)).2
  exact h.access hlo (by omega)

theorem Shows.read_string (h : s.Shows line) (hb : s.Books) : (s.read_string 0).Books :=
  hb.read_string (Int.le_refl 0) (Int.natCast_nonneg _) h.fits (h.cells.behind h.fits (Nat.le_refl _))

theorem Shows.consistent (h : s.Shows line) : s.Consistent := by
  have hlen := congrArg List.length h.string
  have hfront : line.text.length = line.front.length + line.back.length := List.length_append
  refine ⟨?_, ?_, ?_, ?_⟩
  · rw [h.cursor_eq]
    exact Int.natCast_nonneg _
  · rw [h.cursor_eq, h.l_eq]
    omega
  · rw [h.l_eq]
    exact Int.ofNat_le.mpr (Nat.le_sub_one_of_lt h.fits)
  · rw [hlen, h.l_eq]

/-- The length of a consistent line is that of its string. -/
theorem Consistent.zero (h : s.Consistent) : s.cmd s.l = 0 := by
  have hl := h.l_le
  have hlen := h.strlen
  have hends := text_ends (z := 0) (m := s.cmd) (p := 0) (n := MAX_LINE_LENTH) (by
    change (s.string 0).length < MAX_LINE_LENTH
    unfold MAX_LINE_LENTH at hl ⊢
    omega)
  rw [Int.zero_add] at hends
  rw [← hlen]
  exact hends

/-! ## Deletions -/

/-- Only bytes of the array were looked at. -/
def Looked (s s' : cli_loop) : Prop :=
  ∃ log, s' = { s with of_cmd := s.of_cmd ++ log } ∧ ∀ x ∈ log, x.Inside MAX_LINE_LENTH

theorem looked_refl (s : cli_loop) : Looked s s := ⟨[], by rw [List.append_nil], by simp⟩

theorem Looked.trans {s'' : cli_loop} (h : Looked s s') (h' : Looked s' s'') : Looked s s'' := by
  obtain ⟨log, rfl, hin⟩ := h
  obtain ⟨log', rfl, hin'⟩ := h'
  refine ⟨log ++ log', by rw [List.append_assoc], ?_⟩
  rw [List.forall_mem_append]
  exact ⟨hin, hin'⟩

theorem looked_access (h : Extent.Inside ⟨start, n⟩ MAX_LINE_LENTH) : Looked s (s.access start n) :=
  ⟨[⟨start, n⟩], rfl, by rw [List.forall_mem_singleton]; exact h⟩

theorem Looked.books (h : Looked s s') (hb : s.Books) : s'.Books := by
  obtain ⟨log, rfl, hin⟩ := h
  refine ⟨⟨?_, hb.1.2⟩, hb.2⟩
  rw [List.forall_mem_append]
  exact ⟨hb.1.1, hin⟩

theorem Looked.shows (h : Looked s s') (hs : s.Shows line) : s'.Shows line := by
  obtain ⟨log, rfl, -⟩ := h
  exact hs

/-- Going back looks at the bytes in front of the cursor. -/
theorem skip_back_looked (P : UInt8 → Bool) (hn : n ≤ MAX_LINE_LENTH) :
    Looked s (skip_back P n s).1 ∧ (skip_back P n s).2 ≤ n := by
  induction n generalizing s with
  | zero => exact ⟨looked_refl s, Nat.le_refl 0⟩
  | succ n ih =>
    have hlooked : Looked s (s.access n 1) := looked_access (.inr ⟨Int.natCast_nonneg n, by dsimp only; omega⟩)
    rw [skip_back]
    split
    · obtain ⟨hmore, hle⟩ := ih (s := s.access n 1) (Nat.le_of_succ_le hn)
      exact ⟨hlooked.trans hmore, Nat.le_succ_of_le hle⟩
    · exact ⟨hlooked, Nat.le_refl _⟩

/-- It comes to where the last word starts. -/
theorem skip_back_eq (P : UInt8 → Bool) (h : ∀ (k : Nat) (hk : k < l.length), s.cmd k = l[k]) :
    (skip_back P l.length s).2 = (l.rdropWhile P).length := by
  induction l using List.reverseRecOn generalizing s with
  | nil => rfl
  | append_singleton l c ih =>
    have hlast : s.cmd l.length = c := by
      rw [h l.length (by simp)]
      simp
    rw [List.length_append, List.length_singleton, skip_back]
    rw [show (s.access l.length 1).cmd l.length = c from hlast]
    split
    · rename_i hc
      rw [List.rdropWhile_concat_pos P l c hc]
      refine ih fun k hk => ?_
      have hcell := h k (by rw [List.length_append]; omega)
      rw [List.getElem_append_left hk] at hcell
      exact hcell
    · rename_i hc
      rw [List.rdropWhile_concat_neg P l c hc]
      simp

theorem Books.move_left (h : s.Books) (hlo : 0 ≤ s.cursor) (hhi : s.l + 2 ≤ MAX_LINE_LENTH)
    (hn : s.cursor + n = s.l + 1) :
    s.move_left.Books ∧ s.move_left.cmd = shiftDown s.cmd s.cursor n := by
  have hcount : (s.l - s.cursor + 1).toNat = n := by omega
  unfold cli_loop.move_left
  dsimp only
  rw [hcount]
  exact ⟨(h.access (by omega) (by omega)).access hlo (by omega), rfl⟩

theorem Books.move_right (h : s.Books) (hlo : 0 ≤ s.cursor) (hhi : s.l + 2 ≤ MAX_LINE_LENTH)
    (hn : s.cursor + n = s.l + 1) :
    s.move_right.Books ∧ s.move_right.cmd = shiftUp s.cmd s.l n := by
  have hcount : (s.l - s.cursor + 1).toNat = n := by omega
  unfold cli_loop.move_right
  dsimp only
  rw [hcount]
  exact ⟨(h.access hlo (by omega)).access (by omega) (by omega), rfl⟩

/-- One byte in front of the cursor goes. -/
theorem Shows.delete (h : s.Shows ⟨f ++ [c], b⟩) (hb : s.Books) (hfits : b = [] ∨ s.l < (MAX_LINE_LENTH - 1 : Nat)) :
    s.delete.Shows ⟨f, b⟩ ∧ s.delete.Books := by
  have hcursor : s.cursor = f.length + 1 := by
    rw [h.cursor_eq, List.length_append]
    rfl
  have hl : s.l = f.length + 1 + b.length := by
    rw [h.l_eq, Line.length_mk, List.length_append]
    rfl
  have htext : Line.text ⟨f ++ [c], b⟩ = f ++ c :: b := by
    rw [Line.text, List.append_assoc, List.singleton_append]
  have hlen : f.length + b.length + 1 < MAX_LINE_LENTH := by
    have hfits := h.fits
    rw [htext, List.length_append, List.length_cons] at hfits
    omega
  have hcells := h.cells
  have hchars : 0 ∉ f ++ b := by
    have hchars := h.chars
    rw [htext, List.mem_append, List.mem_cons] at hchars
    rw [List.mem_append]
    exact fun hmem => hchars (hmem.imp_right .inr)
  rw [htext] at hcells
  unfold cli_loop.delete
  by_cases hend : s.l = s.cursor
  · obtain rfl : b = [] := List.eq_nil_of_length_eq_zero (by omega)
    rw [if_pos hend]
    have hplace : s.cursor - 1 = f.length := by omega
    have hshort : Padded 0 (put s.cmd (s.cursor - 1) [0]) MAX_LINE_LENTH (f ++ []) := by
      rw [hplace, List.append_nil, ← padded_append_end]
      exact hcells.overwrite (Nat.le_refl _)
    refine ⟨⟨hshort, ?_, hplace, ?_, hchars⟩, hb.store (by omega) (by rw [List.length_singleton]; omega)⟩
    · rw [Line.length_mk, List.length_nil]
      dsimp only
      omega
    · rw [Line.length_mk]
      omega
  · rw [if_neg hend]
    have hplace : s.cursor - 1 = f.length := by omega
    have hroom : f.length + b.length + 2 < MAX_LINE_LENTH := by
      rcases hfits with rfl | hlt
      · exact absurd (by rw [hl, hcursor, List.length_nil]; omega) hend
      · omega
    have hshort := hcells.closed hroom
    have hback : Books { s with cursor := s.cursor - 1 } := hb
    obtain ⟨hmoved, hcmd⟩ := hback.move_left (n := b.length + 2) (by dsimp only; omega) (by dsimp only; omega)
      (by dsimp only; omega)
    rw [← hplace, ← hcmd] at hshort
    have hzero := hshort.behind (k := f.length + b.length) (by omega) (by rw [List.length_append])
    have hstart : 0 ≤ s.cursor - 1 := by omega
    have hread := hmoved.read_string hstart (by omega) (by omega) hzero
    refine ⟨⟨hshort, ?_, hplace, ?_, hchars⟩, hread⟩
    · rw [Line.length_mk]
      change s.l - 1 = _
      omega
    · rw [Line.length_mk]
      omega

/-- So many bytes in front of the cursor go. -/
theorem Shows.deletes (h : s.Shows ⟨f ++ l, b⟩) (hb : s.Books) (hfits : b = [] ∨ s.l < (MAX_LINE_LENTH - 1 : Nat)) :
    (deletes l.length s).Shows ⟨f, b⟩ ∧ (deletes l.length s).Books ∧ (deletes l.length s).oldl = s.oldl := by
  induction l using List.reverseRecOn generalizing s with
  | nil =>
    rw [List.append_nil] at h
    exact ⟨h, hb, rfl⟩
  | append_singleton l c ih =>
    rw [← List.append_assoc] at h
    obtain ⟨hshows, hbooks⟩ := h.delete hb hfits
    have hl := h.l_eq
    have hl' := hshows.l_eq
    rw [Line.length_mk, List.length_append, List.length_singleton] at hl
    rw [Line.length_mk] at hl'
    have hold : s.delete.oldl = s.oldl := by
      unfold cli_loop.delete
      split
      · rfl
      · rfl
    rw [List.length_append, List.length_singleton, cli_loop.deletes, ← hold]
    exact ih hshows hbooks (hfits.imp_right fun hlt => by omega)

theorem Shows.cell (h : s.Shows line) {k : Nat} (hk : k < line.front.length) : s.cmd k = line.front[k] := by
  have hlen : line.text.length = line.front.length + line.back.length := List.length_append
  rw [h.cells.get (Nat.le_of_lt h.fits) (by omega)]
  exact List.getElem_append_left hk

theorem Looked.cmd (h : Looked s s') : s'.cmd = s.cmd ∧ s'.l = s.l ∧ s'.cursor = s.cursor ∧ s'.oldl = s.oldl := by
  obtain ⟨log, rfl, -⟩ := h
  exact ⟨rfl, rfl, rfl, rfl⟩

theorem Shows.front_le (h : s.Shows line) : line.front.length ≤ MAX_LINE_LENTH := by
  have hlen : line.text.length = line.front.length + line.back.length := List.length_append
  have hlt := h.fits
  omega

theorem Shows.skip_back (h : s.Shows line) (P : UInt8 → Bool) (hl : l <+: line.front) :
    Looked s (skip_back P l.length s).1 ∧ (skip_back P l.length s).2 = (l.rdropWhile P).length := by
  have hlen := hl.length_le
  refine ⟨(skip_back_looked P (hlen.trans h.front_le)).1, skip_back_eq P fun k hk => ?_⟩
  rw [h.cell (Nat.lt_of_lt_of_le hk hlen)]
  exact (hl.getElem hk).symm

/-- How far the cursor goes back, and the deletions from there. -/
theorem Shows.delete_word_eq (h : s.Shows line) : ∃ s' word, Looked s s' ∧ line.delete_word.front ++ word = line.front ∧
    s.delete_word = cli_loop.deletes word.length s' := by
  have hcursor : s.cursor.toNat = line.front.length := congrArg Int.toNat h.cursor_eq
  obtain ⟨hlooked, hblanks⟩ := h.skip_back (fun c => decide (c = 0x20)) (List.prefix_refl line.front)
  have hprefix := List.rdropWhile_prefix (fun c => decide (c = 0x20)) line.front
  obtain ⟨hlooked', hword⟩ := (hlooked.shows h).skip_back (fun c => decide (c ≠ 0x20)) hprefix
  obtain ⟨word, hfront⟩ := (List.rdropWhile_prefix (fun c => decide (c ≠ 0x20)) _).trans hprefix
  have hall := hlooked.trans hlooked'
  have hcount : line.front.length - ((line.front.rdropWhile fun c => decide (c = 0x20)).rdropWhile
      fun c => decide (c ≠ 0x20)).length = word.length := by
    rw [← congrArg List.length hfront, List.length_append, Nat.add_sub_cancel_left]
  refine ⟨_, word, hall, hfront, ?_⟩
  unfold cli_loop.delete_word
  rw [hcursor]
  dsimp only
  rw [hblanks, hword, hall.cmd.2.2.1, hcursor, hcount]

/-- The word in front of the cursor goes, with the blanks behind it. -/
theorem Shows.delete_word (h : s.Shows line) (hb : s.Books)
    (hfits : line.back = [] ∨ s.l < (MAX_LINE_LENTH - 1 : Nat)) :
    s.delete_word.Shows line.delete_word ∧ s.delete_word.Books ∧ s.delete_word.oldl = s.oldl := by
  obtain ⟨s', word, hlooked, hfront, heq⟩ := h.delete_word_eq
  obtain ⟨-, hl, -, hold⟩ := hlooked.cmd
  have hline : s'.Shows ⟨line.delete_word.front ++ word, line.back⟩ := by
    rw [hfront]
    exact hlooked.shows h
  rw [heq, ← hold]
  exact hline.deletes (hlooked.books hb) (by rw [hl]; exact hfits)

/-! ## Kills -/

theorem Shows.kill (h : s.Shows line) (hb : s.Books) :
    s.kill.Shows line.kill ∧ s.kill.Books ∧ s.kill.oldl = s.oldl := by
  have hlen : line.text.length = line.front.length + line.back.length := List.length_append
  have hfits := h.fits
  have hl := h.l_eq
  have hcursor := h.cursor_eq
  have hkilled : Line.text line.kill = line.front := List.append_nil _
  have hchars : 0 ∉ line.kill.text := by
    rw [hkilled]
    exact fun hmem => h.chars (List.mem_append_left _ hmem)
  unfold cli_loop.kill
  by_cases hend : s.cursor = s.l
  · have hback : line.back = [] := List.eq_nil_of_length_eq_zero (by omega)
    have hsame : line.kill = line := by
      unfold Line.kill
      rw [← hback]
    rw [if_pos hend, hsame]
    exact ⟨h, hb, rfl⟩
  · have hcount : (s.l - s.cursor).toNat = line.back.length := by omega
    have hcells : Padded 0 s.cmd MAX_LINE_LENTH (line.front ++ line.back) := h.cells
    rw [if_neg hend, hcount]
    refine ⟨⟨?_, ?_, hcursor, ?_, hchars⟩, hb.memset (c := 0) (by omega) (by omega), rfl⟩
    · rw [hkilled]
      change Padded 0 (fill s.cmd s.cursor line.back.length 0) _ _
      rw [hcursor]
      exact hcells.truncate
    · rw [hkilled]
      exact hcursor
    · rw [hkilled]
      omega

/-- The whole line goes, and the length and the cursor with it. -/
theorem Shows.clear (h : s.Shows line) : Padded 0 (fill s.cmd 0 s.l.toNat 0) MAX_LINE_LENTH [] := by
  have hcells : Padded 0 s.cmd MAX_LINE_LENTH ([] ++ line.text) := h.cells
  rw [h.l_eq]
  exact hcells.truncate

theorem Shows.l_toNat (h : s.Shows line) : 0 + (s.l.toNat : Int) ≤ MAX_LINE_LENTH := by
  have hl := h.l_eq
  have hfits := h.fits
  omega

theorem clear_line_cmd (s : cli_loop) : s.gw_cli_clear_line.cmd = fill s.cmd 0 s.l.toNat 0 := by
  unfold gw_cli_clear_line
  change fill (fill (fill (fill s.cmd 0 s.l.toNat 0x08) 0 s.l.toNat 0x20) 0 s.l.toNat 0x08) 0 s.l.toNat 0 = _
  rw [fill_fill, fill_fill, fill_fill]

theorem clear_line_fields (s : cli_loop) : s.gw_cli_clear_line.l = s.l ∧ s.gw_cli_clear_line.cursor = s.cursor ∧
    s.gw_cli_clear_line.oldl = s.oldl := by
  unfold gw_cli_clear_line
  simp only [l_memset, cursor_memset, oldl_memset, and_self]

theorem Shows.clear_line_books (h : s.Shows line) (hb : s.Books) : s.gw_cli_clear_line.Books := by
  have hl := h.l_toNat
  have hzero := Int.le_refl 0
  exact (((hb.memset hzero hl).memset hzero hl).memset hzero hl).memset hzero hl

theorem shows_empty {cmd : Int → UInt8} (h : Padded 0 cmd MAX_LINE_LENTH []) : line_editor.Shows cmd 0 0 ⟨[], []⟩ :=
  ⟨h, rfl, rfl, by decide, List.not_mem_nil⟩

theorem Shows.clear_line (h : s.Shows line) (hb : s.Books) :
    s.clear_line.Shows ⟨[], []⟩ ∧ s.clear_line.Books ∧ s.clear_line.oldl = s.oldl := by
  unfold cli_loop.clear_line
  split
  · exact ⟨shows_empty h.clear, hb.memset (c := 0) (Int.le_refl 0) h.l_toNat, rfl⟩
  · have hcells := h.clear
    have hbooks := h.clear_line_books hb
    have hold := (clear_line_fields s).2.2
    rw [← clear_line_cmd] at hcells
    generalize s.gw_cli_clear_line = cleared at *
    exact ⟨shows_empty hcells, hbooks, hold⟩

/-- The length and the cursor stay, so there has to be no line. -/
theorem Shows.disable (h : s.Shows line) (hb : s.Books) (hfits : s.mode = MODE_EXEC ∨ s.l = 0) :
    s.disable.Shows line ∧ s.disable.Books ∧ s.disable.oldl = s.oldl := by
  unfold cli_loop.disable
  split
  · rename_i hmode
    have hl := h.l_eq
    have hempty : line.text = [] := List.eq_nil_of_length_eq_zero (by have hzero := hfits.resolve_left hmode; omega)
    have hcells := h.clear
    have hbooks := h.clear_line_books hb
    obtain ⟨hl', hcursor', hold⟩ := clear_line_fields s
    rw [← clear_line_cmd, ← hempty] at hcells
    generalize s.gw_cli_clear_line = cleared at *
    exact ⟨⟨hcells, hl'.trans hl, hcursor'.trans h.cursor_eq, h.fits, h.chars⟩, hbooks, hold⟩
  · exact ⟨h, hb, rfl⟩

/-! ## Completion -/

theorem zero_not_mem_completion {name : List UInt8} (h : name ∈ s.gw_cli_get_completions n) : 0 ∉ name := by
  unfold gw_cli_get_completions at h
  split at h
  · cases h
  · obtain ⟨k, -, rfl⟩ := List.mem_map.mp h
    intro hmem
    unfold bytes at hmem
    have hne := List.mem_takeWhile_imp hmem
    simp at hne

/-- The last word of a line that the cursor is at the end of becomes the name, with a blank. -/
theorem Shows.complete_with (h : s.Shows ⟨l, []⟩) (hb : s.Books) {name : List UInt8} (hname : 0 ∉ name)
    (hlong : l.length ≤ (l.rdropWhile fun c => c ≠ 0x20 ∧ c ≠ 0x7c).length + name.length + 1)
    (hroom : (l.rdropWhile fun c => c ≠ 0x20 ∧ c ≠ 0x7c).length + name.length + 1 < MAX_LINE_LENTH) :
    (s.complete_with name).Shows ⟨(l.rdropWhile fun c => c ≠ 0x20 ∧ c ≠ 0x7c) ++ name ++ [0x20], []⟩ ∧
      (s.complete_with name).Books ∧ (s.complete_with name).oldl = s.oldl := by
  have hcount : s.l.toNat = l.length := by
    rw [h.l_eq, Line.length_mk]
    rfl
  obtain ⟨hlooked, hstart⟩ := h.skip_back (fun c => decide (c ≠ 0x20 ∧ c ≠ 0x7c)) (List.prefix_refl l)
  obtain ⟨word, hword⟩ := List.rdropWhile_prefix (fun c => decide (c ≠ 0x20 ∧ c ≠ 0x7c)) l
  have hshows := hlooked.shows h
  have hbooks := hlooked.books hb
  have hold := hlooked.cmd.2.2.2
  unfold cli_loop.complete_with
  rw [hcount]
  dsimp only
  rw [hstart]
  generalize (cli_loop.skip_back (fun c => decide (c ≠ 0x20 ∧ c ≠ 0x7c)) l.length s).1 = s1 at *
  generalize (l.rdropWhile fun c => decide (c ≠ 0x20 ∧ c ≠ 0x7c)) = front at *
  have hlen := congrArg List.length hword
  rw [List.length_append] at hlen
  have hcells : Padded 0 s1.cmd MAX_LINE_LENTH (front ++ word) := by
    have hcells := hshows.cells
    rw [Line.text, List.append_nil, ← hword] at hcells
    exact hcells
  have hchars : 0 ∉ front := by
    intro hmem
    refine hshows.chars ?_
    rw [Line.text, List.append_nil, ← hword]
    exact List.mem_append_left _ hmem
  have hdone : Padded 0 (put (put s1.cmd front.length (name ++ [0])) (front.length + name.length) [0x20]) MAX_LINE_LENTH
      (front ++ (name ++ [0x20])) := by
    rw [put_put]
    exact hcells.overwrite (by rw [List.length_append, List.length_singleton]; omega)
  refine ⟨⟨?_, ?_, ?_, ?_, ?_⟩, ?_, hold⟩
  · rw [Line.text, List.append_nil, List.append_assoc]
    exact hdone
  · rw [Line.length_mk, List.length_append, List.length_append]
    rfl
  · dsimp only
    rw [List.length_append, List.length_append]
    rfl
  · rw [Line.length_mk, List.length_append, List.length_append]
    exact hroom
  · rw [Line.text, List.append_nil, List.mem_append, List.mem_append, List.mem_singleton]
    rintro ((hmem | hmem) | hzero)
    · exact hchars hmem
    · exact hname hmem
    · exact absurd hzero (by decide)
  · refine (hbooks.store (Int.natCast_nonneg _) ?_).store (by omega) ?_
    · rw [List.length_append, List.length_singleton]
      omega
    · rw [List.length_singleton]
      omega

/-! ## The history -/

theorem Books.read_history (h : s.Books) {i : Int} (hlo : 0 ≤ i) (hhi : i < MAX_HISTORY) :
    (s.read_history i).Books := by
  refine ⟨⟨h.1.1, h.1.2.1, ?_⟩, h.2⟩
  unfold cli_loop.read_history
  dsimp only
  rw [List.forall_mem_append, List.forall_mem_singleton]
  refine ⟨h.1.2.2, hlo, hhi, .inr ⟨Int.le_refl 0, ?_⟩⟩
  have hlen := (h.2.1 i).1
  dsimp only
  omega

theorem Books.write_history (h : s.Books) {i : Int} (hlo : 0 ≤ i) (hhi : i < MAX_HISTORY)
    (hlen : l.length < MAX_LINE_LENTH) (hl : 0 ∉ l) : (s.write_history i l).Books := by
  refine ⟨⟨h.1.1, h.1.2.1, ?_⟩, fun j => ?_, h.2.2⟩
  · unfold cli_loop.write_history
    dsimp only
    rw [List.forall_mem_append, List.forall_mem_singleton]
    exact ⟨h.1.2.2, hlo, hhi, .inr ⟨Int.le_refl 0, by dsimp only; omega⟩⟩
  · unfold cli_loop.write_history
    dsimp only
    split
    · exact ⟨hlen, hl⟩
    · exact h.2.1 j

/-- The line is not touched, and the books are kept. -/
structure Untouched (s s' : cli_loop) : Prop where
  books : s'.Books
  line : s'.cmd = s.cmd ∧ s'.l = s.l ∧ s'.cursor = s.cursor ∧ s'.oldl = s.oldl

theorem Books.seek (h : s.Books) {i : Int} (hlo : -1 ≤ i) (hhi : i < MAX_HISTORY) : Books { s with in_history := i } :=
  ⟨h.1, h.2.1, hlo, hhi⟩

/-- The search does not care where it was before. -/
theorem last_history_untouched (hb : Books { s with in_history := -1 }) (hn : n ≤ MAX_HISTORY) :
    Untouched s (last_history n s) := by
  induction n generalizing s with
  | zero => exact ⟨hb, rfl, rfl, rfl, rfl⟩
  | succ n ih =>
    have hread : Books { s.read_history n with in_history := -1 } := hb.read_history (Int.natCast_nonneg n) (by omega)
    rw [last_history]
    split
    · exact ⟨hread.seek (by omega) (by omega), rfl, rfl, rfl, rfl⟩
    · obtain ⟨hbooks, hline⟩ := ih hread (Nat.le_of_succ_le hn)
      exact ⟨hbooks, hline⟩

theorem up_untouched (hb : s.Books) : Untouched s s.up := by
  have hnone : Books { s with in_history := -1 } := hb.seek (Int.le_refl _) (show (-1 : Int) < MAX_HISTORY by decide)
  have hrange := hb.2.2
  unfold up
  dsimp only
  split
  · obtain ⟨hbooks, hline⟩ := last_history_untouched (s := { s with in_history := s.in_history - 1 }) hnone
      (Nat.le_refl _)
    exact ⟨hbooks, hline⟩
  · have hback : Books { s with in_history := s.in_history - 1 } := hb.seek (by omega) (by omega)
    exact ⟨hback.read_history (by omega) (by omega), rfl, rfl, rfl, rfl⟩

theorem down_untouched (hb : s.Books) : Untouched s s.down := by
  have hrange := hb.2.2
  have hmax : (0 : Int) < MAX_HISTORY := by decide
  unfold down
  dsimp only
  split
  · exact ⟨hb.seek (by omega) hmax, rfl, rfl, rfl, rfl⟩
  · have hnext : Books { s with in_history := s.in_history + 1 } := hb.seek (by omega) (by omega)
    have hread := hnext.read_history (i := s.in_history + 1) (by omega) (by omega)
    split
    · exact ⟨hread.seek (by omega) hmax, rfl, rfl, rfl, rfl⟩
    · exact ⟨hread, rfl, rfl, rfl, rfl⟩

theorem strncpy_eq (hl : l.length ≤ n) : strncpy l n = l ++ List.replicate (n - l.length) 0 := by
  unfold strncpy
  rw [List.take_of_length_le hl]

theorem strncpy_length (l : List UInt8) (n : Nat) : (strncpy l n).length = n := by
  unfold strncpy
  rw [List.length_append, List.length_take, List.length_replicate]
  omega

/-- A string is copied to the empty line. -/
theorem Books.copy (hb : s.Books) (hempty : Padded 0 s.cmd MAX_LINE_LENTH []) (hlen : l.length < MAX_LINE_LENTH)
    (hl : 0 ∉ l) : ((s.store 0 (strncpy l (MAX_LINE_LENTH - 1))).read_string 0).Books ∧
      line_editor.Shows (put s.cmd 0 (strncpy l (MAX_LINE_LENTH - 1)))
        ((s.store 0 (strncpy l (MAX_LINE_LENTH - 1))).string 0).length
        ((s.store 0 (strncpy l (MAX_LINE_LENTH - 1))).string 0).length ⟨l, []⟩ := by
  have hcells : Padded 0 (s.store 0 (strncpy l (MAX_LINE_LENTH - 1))).cmd MAX_LINE_LENTH l := by
    have hwritten := Padded.overwrite (f := []) (b := []) hempty (Nat.zero_le (strncpy l (MAX_LINE_LENTH - 1)).length)
    rw [List.nil_append, strncpy_eq (Nat.le_sub_one_of_lt hlen), padded_append_replicate] at hwritten
    rw [strncpy_eq (Nat.le_sub_one_of_lt hlen)]
    exact hwritten
  have hstring : (s.store 0 (strncpy l (MAX_LINE_LENTH - 1))).string 0 = l := hcells.text_eq hl hlen
  have hstored : (s.store 0 (strncpy l (MAX_LINE_LENTH - 1))).Books := by
    refine hb.store (Int.le_refl 0) ?_
    rw [strncpy_length, Int.zero_add]
    exact Int.ofNat_le.mpr (Nat.sub_le _ _)
  refine ⟨hstored.read_string (Int.le_refl 0) (Int.natCast_nonneg _) hlen (hcells.behind hlen (Nat.le_refl _)), ?_⟩
  have htext := Line.text_mk l
  rw [hstring]
  refine ⟨?_, ?_, rfl, ?_, ?_⟩
  · rw [htext]
    exact hcells
  · rw [htext]
  · rw [htext]
    exact hlen
  · rw [htext]
    exact hl

theorem memset_all (s : cli_loop) : Padded 0 (s.memset 0 0 MAX_LINE_LENTH).cmd MAX_LINE_LENTH [] :=
  padded_fill 0 s.cmd MAX_LINE_LENTH

/-- An entry takes the place of the line. -/
theorem Shows.show_history (h : s.Shows line) (hb : s.Books) (hlen : l.length < MAX_LINE_LENTH) (hl : 0 ∉ l) :
    (s.show_history l).Shows ⟨l, []⟩ ∧ (s.show_history l).Books ∧ (s.show_history l).oldl = s.oldl := by
  have hclear := h.clear_line_books hb
  have hset := hclear.memset (c := 0) (n := MAX_LINE_LENTH) (Int.le_refl 0) (Int.le_of_eq (Int.zero_add _))
  have hold : (s.gw_cli_clear_line.memset 0 0 MAX_LINE_LENTH).oldl = s.oldl := by
    rw [oldl_memset, (clear_line_fields s).2.2]
  have hempty := memset_all s.gw_cli_clear_line
  unfold cli_loop.show_history
  generalize s.gw_cli_clear_line.memset 0 0 MAX_LINE_LENTH = s1 at *
  obtain ⟨hcopied, hshows⟩ := hset.copy hempty hlen hl
  exact ⟨hshows, hcopied, hold⟩

theorem Shows.recall_history (h : s.Shows line) (hb : s.Books) :
    ∃ line, s.recall_history.Shows line ∧ s.recall_history.Books ∧ s.recall_history.oldl = s.oldl := by
  unfold cli_loop.recall_history
  split
  · exact ⟨line, h, hb, rfl⟩
  · rename_i hlo
    have hread := hb.read_history (Int.not_lt.mp hlo) hb.2.2.2
    obtain ⟨hlen, hzero⟩ := hb.2.1 s.in_history
    dsimp only
    split
    · exact ⟨line, h, hread, rfl⟩
    · have hread' : (s.read_history s.in_history).Shows line := h
      obtain ⟨hshows, hbooks, hold⟩ := hread'.show_history hread hlen hzero
      exact ⟨_, hshows, hbooks, hold⟩

/-! ## Motion -/

theorem Shows.left (h : s.Shows line) (hb : s.Books) :
    s.left.Shows line.left ∧ s.left.Books ∧ s.left.oldl = s.oldl := by
  have hcursor := h.cursor_eq
  unfold cli_loop.left Line.left
  obtain ⟨front, back⟩ := line
  cases front using List.reverseRecOn with
  | nil =>
    rw [if_neg (by rw [hcursor]; simp)]
    exact ⟨h, hb, rfl⟩
  | append_singleton front c =>
    dsimp only at hcursor
    rw [List.length_append, List.length_singleton] at hcursor
    rw [if_pos (by omega)]
    refine ⟨h.move ?_ ?_, hb, rfl⟩
    · simp [Line.text]
    · simp only [List.dropLast_concat]
      omega

theorem Shows.right (h : s.Shows line) (hb : s.Books) :
    s.right.Shows line.right ∧ s.right.Books ∧ s.right.oldl = s.oldl := by
  have hcursor := h.cursor_eq
  have hl := h.l_eq
  have hfits := h.fits
  obtain ⟨front, back⟩ := line
  rw [Line.length_mk] at hl hfits
  dsimp only at hcursor
  unfold cli_loop.right Line.right
  cases back with
  | nil =>
    rw [if_neg (by rw [hcursor, hl]; simp)]
    exact ⟨h.move (by simp [Line.text]) (by simpa using hcursor), hb, rfl⟩
  | cons c back =>
    rw [List.length_cons] at hl hfits
    rw [if_pos (by omega)]
    have hmoved : line_editor.Shows s.cmd s.l (s.cursor + 1) ⟨front ++ (c :: back).take 1, (c :: back).drop 1⟩ := by
      refine h.move (by simp [Line.text]) ?_
      simp
      omega
    split
    · exact ⟨hmoved, hb, rfl⟩
    · exact ⟨hmoved, hb.access (by omega) (by omega), rfl⟩

theorem Shows.start_of_line (h : s.Shows line) : s.start_of_line.Shows line.start :=
  h.move (by simp [Line.text, Line.start]) rfl

theorem Shows.end_of_line (h : s.Shows line) (hb : s.Books) :
    s.end_of_line.Shows line.finish ∧ s.end_of_line.Books ∧ s.end_of_line.oldl = s.oldl := by
  have hcursor := h.cursor_eq
  have hl := h.l_eq
  have hfits := h.fits
  have hlen : line.text.length = line.front.length + line.back.length := List.length_append
  have htext : line.finish.text = line.text := List.append_nil _
  unfold cli_loop.end_of_line
  split
  · have hmoved : line_editor.Shows s.cmd s.l s.l line.finish := h.move htext hl
    dsimp only
    split
    · exact ⟨hmoved, hb, rfl⟩
    · exact ⟨hmoved, hb.access (by omega) (by omega), rfl⟩
  · refine ⟨h.move htext ?_, hb, rfl⟩
    rw [Line.finish]
    dsimp only
    omega

/-! ## A character -/

/-- A byte behind the line, when there is room for it. -/
theorem Shows.append (h : s.Shows ⟨f, []⟩) (hb : s.Books) (hc : c ≠ 0) :
    (s.append c).1.Books ∧
      if s.l < (MAX_LINE_LENTH - 1 : Nat) then (s.append c).2 = true ∧ (s.append c).1.Shows ⟨f ++ [c], []⟩
      else (s.append c).2 = false ∧ (s.append c).1.Shows ⟨f, []⟩ ∧ (s.append c).1.oldl = s.oldl := by
  have hcursor := h.cursor_eq
  have hl := h.l_eq
  have hfits := h.fits
  have hcells := h.cells
  have hchars := h.chars
  rw [Line.text_mk] at hcells hchars hl hfits
  dsimp only at hcursor
  have hstored : (s.store s.cursor [c]).Books := hb.store (by omega) (by rw [List.length_singleton]; omega)
  have hwritten : Padded 0 (put s.cmd s.cursor [c]) MAX_LINE_LENTH (f ++ [c]) := by
    rw [hcursor]
    exact Padded.overwrite (b := []) (by rw [List.append_nil]; exact hcells) (Nat.zero_le _)
  unfold cli_loop.append
  rw [if_neg (show ¬ (s.cursor < 0 ∨ ((MAX_LINE_LENTH : Int) - 1 < s.cursor)) by omega)]
  by_cases hroom : s.l < (MAX_LINE_LENTH - 1 : Nat)
  · have hroom' : (s.store s.cursor [c]).l < (MAX_LINE_LENTH - 1 : Nat) := hroom
    rw [if_pos hroom]
    dsimp only
    rw [if_pos hroom']
    refine ⟨hstored, rfl, ?_, ?_, ?_, ?_, ?_⟩
    · rw [Line.text_mk]
      exact hwritten
    · rw [Line.text_mk, List.length_append]
      change s.l + 1 = _
      rw [hl]
      rfl
    · dsimp only
      rw [List.length_append]
      change s.cursor + 1 = _
      rw [hcursor]
      rfl
    · rw [Line.text_mk, List.length_append, List.length_singleton]
      omega
    · rw [Line.text_mk, List.mem_append, List.mem_singleton, not_or]
      exact ⟨hchars, Ne.symm hc⟩
  · have hroom' : ¬ (s.store s.cursor [c]).l < (MAX_LINE_LENTH - 1 : Nat) := hroom
    rw [if_neg hroom]
    dsimp only
    rw [if_neg hroom']
    have hplace : ((MAX_LINE_LENTH - 1 : Nat) : Int) = f.length := by omega
    refine ⟨hstored.store (by omega) (by rw [List.length_singleton]; omega), rfl, ⟨?_, ?_, ?_, ?_, ?_⟩, rfl⟩
    · rw [Line.text_mk, ← padded_append_end]
      change Padded 0 (put (put s.cmd s.cursor [c]) (MAX_LINE_LENTH - 1 : Nat) [0]) _ _
      rw [hplace]
      exact hwritten.overwrite (Nat.le_refl 1)
    · rw [Line.text_mk]
      exact hl
    · exact hcursor
    · rw [Line.text_mk]
      exact hfits
    · rw [Line.text_mk]
      exact hchars

theorem state_append (s : cli_loop) (c : UInt8) : (s.append c).1.state = s.state := by
  unfold cli_loop.append
  dsimp only
  split
  · split
    · rfl
    · rfl
  · split
    · rfl
    · rfl

/-- A byte in the middle, when there is room for the end of the line behind it. -/
theorem Shows.insert (h : s.Shows line) (hb : s.Books) (hc : c ≠ 0) (hroom : s.l < (MAX_LINE_LENTH - 2 : Nat)) :
    (s.insert c).Shows (line.insert c) ∧ (s.insert c).Books := by
  have hcursor := h.cursor_eq
  have hl := h.l_eq
  have hcells := h.cells
  have hchars := h.chars
  obtain ⟨front, back⟩ := line
  rw [Line.length_mk] at hl
  dsimp only at hcursor
  have htext : (Line.insert ⟨front, back⟩ c).text = front ++ c :: back := by simp [Line.insert, Line.text]
  have hlen : (Line.insert ⟨front, back⟩ c).text.length = front.length + back.length + 1 := by
    rw [htext, List.length_append, List.length_cons]
    rfl
  have hplace : s.l = front.length + back.length := by omega
  have hopened : Padded 0 (put (shiftUp s.cmd (front.length + back.length) (back.length + 1)) front.length [c])
      MAX_LINE_LENTH (front ++ c :: back) := hcells.opened c
  have hlo : 0 ≤ s.cursor := by omega
  obtain ⟨hmoved, hcmd⟩ := hb.move_right (n := back.length + 1) hlo (by omega) (by omega)
  rw [← hplace, ← hcursor, ← hcmd] at hopened
  have hstored : (s.move_right.store s.cursor [c]).Books := hmoved.store hlo (by rw [List.length_singleton]; omega)
  have hl' : (s.move_right.store s.cursor [c]).l = s.l := by rw [l_store, l_move_right]
  have hcursor' : (s.move_right.store s.cursor [c]).cursor = s.cursor := by rw [cursor_store, cursor_move_right]
  have hcells' : Padded 0 (s.move_right.store s.cursor [c]).cmd MAX_LINE_LENTH (front ++ c :: back) := hopened
  unfold cli_loop.insert
  rw [if_neg (Int.not_le.mpr hroom)]
  dsimp only
  generalize s.move_right.store s.cursor [c] = s1 at *
  refine ⟨⟨?_, ?_, ?_, ?_, ?_⟩, hstored.access (by omega) (by omega)⟩
  · rw [htext]
    exact hcells'
  · rw [hlen]
    change s1.l + 1 = _
    omega
  · rw [Line.insert]
    dsimp only
    rw [List.length_append, List.length_singleton]
    omega
  · rw [hlen]
    omega
  · rw [htext, List.mem_append, List.mem_cons]
    rw [Line.text, List.mem_append] at hchars
    rintro (hmem | hzero | hmem)
    · exact hchars (.inl hmem)
    · exact hc hzero.symm
    · exact hchars (.inr hmem)

/-! ## The keys -/

/-- A byte has done what it does: the line is consistent, and when it ends, the next one is known. -/
structure Handled (s : cli_loop) (line_ends : Bool) : Prop where
  books : s.Books
  line : ∃ line, s.Shows line ∧ ∀ k ∈ s.oldl, k = line.front.length ∧ line.back.length = 1
  goes_on : line_ends = false → s.oldl = none
  name : line_ends = true → s.state = .STATE_LOGIN → s.l < USERNAME

theorem Handled.more (h : s.Shows line) (hb : s.Books) (hold : s.oldl = none) : Handled s false := by
  refine ⟨hb, ⟨line, h, ?_⟩, fun _ => hold, nofun⟩
  rw [hold]
  exact nofun

theorem Handled.ends (h : s.Shows line) (hb : s.Books) (hold : s.oldl = none)
    (hname : s.state = .STATE_LOGIN → s.l < USERNAME) : Handled s true := by
  refine ⟨hb, ⟨line, h, ?_⟩, fun _ => hold, fun _ => hname⟩
  rw [hold]
  exact nofun

theorem Shows.echo (h : s.Shows line) (hb : s.Books) (hfront : line.front ≠ [])
    (hname : s.state = .STATE_LOGIN → c = 0x3f → s.cursor = s.l → s.l < USERNAME) :
    Handled (s.echo c).1 (s.echo c).2 := by
  have hlen : line.text.length = line.front.length + line.back.length := List.length_append
  have hl := h.l_eq
  have hcursor := h.cursor_eq
  unfold cli_loop.echo
  split
  · rename_i hhelp
    obtain ⟨-, hmark, hend⟩ := hhelp
    have hback : line.back = [] := List.eq_nil_of_length_eq_zero (by omega)
    have hfront' := List.dropLast_append_getLast hfront
    have hlast : (line.front.dropLast).length = line.front.length - 1 := List.length_dropLast
    have hpos := List.length_pos_iff.mpr hfront
    have hplace : s.l - 1 = (line.front.dropLast.length : Int) := by omega
    have hmoved : line_editor.Shows s.cmd s.l (s.l - 1) ⟨line.front.dropLast, [line.front.getLast hfront]⟩ := by
      refine h.move ?_ hplace
      rw [Line.text, hfront', Line.text, hback, List.append_nil]
    refine ⟨hb, ⟨_, hmoved, ?_⟩, nofun, fun _ hlogin => hname hlogin hmark hend⟩
    rintro k hk
    obtain rfl := Option.some.inj hk
    exact ⟨hplace, rfl⟩
  · exact Handled.more (s := { s with oldl := none, lastchar := c }) h hb rfl

theorem Shows.normal (h : s.Shows line) (hb : s.Books) (hold : s.oldl = none) (hc : c ≠ 0) (hfits : s.NormalFits c) :
    Handled (s.normal c).1 (s.normal c).2 := by
  have hlen : line.text.length = line.front.length + line.back.length := List.length_append
  have hl := h.l_eq
  have hcursor := h.cursor_eq
  obtain ⟨hmiddle, hname⟩ := hfits
  unfold cli_loop.normal
  split
  · rename_i hend
    have hback : line.back = [] := List.eq_nil_of_length_eq_zero (by omega)
    have hline : line = ⟨line.front, []⟩ := by
      rw [← hback]
    rw [hline] at h
    have happended := h.append hb hc
    have hstate := state_append s c
    generalize s.append c = appended at *
    obtain ⟨s1, room⟩ := appended
    dsimp only at *
    by_cases hroom : s.l < (MAX_LINE_LENTH - 1 : Nat)
    · rw [if_pos hroom] at happended
      obtain ⟨hbooks, rfl, hshows⟩ := happended
      refine hshows.echo hbooks (by simp) fun hlogin hmark _ => ?_
      have hl' := hshows.l_eq
      rw [Line.text_mk, List.length_append, List.length_singleton] at hl'
      have hshort := hname (hstate ▸ hlogin) hmark hend
      unfold USERNAME at hshort ⊢
      omega
    · rw [if_neg hroom] at happended
      obtain ⟨hbooks, rfl, hshows, hold'⟩ := happended
      exact Handled.more hshows hbooks (hold'.trans hold)
  · rename_i hmid
    obtain ⟨hshows, hbooks⟩ := h.insert hb hc (hmiddle hmid)
    refine hshows.echo hbooks (by simp [Line.insert]) fun _ _ hend => ?_
    have hl' := hshows.l_eq
    have hcursor' := hshows.cursor_eq
    have hlen' : (line.insert c).text.length = (line.insert c).front.length + (line.insert c).back.length :=
      List.length_append
    have hback : (line.insert c).back = line.back := rfl
    rw [hback] at hlen'
    omega

/-- A deletion that fits is at the end of the line, or leaves a byte behind its end. -/
theorem deletion_back (h : s.Shows line) (hpos : ¬ (s.l = 0 ∨ s.cursor = 0)) (hfits : s.DeletionFits) :
    line.back = [] ∨ s.l < (MAX_LINE_LENTH - 1 : Nat) := by
  have hlen : line.text.length = line.front.length + line.back.length := List.length_append
  have hl := h.l_eq
  have hcursor := h.cursor_eq
  rcases hfits with hzero | hend | hlt
  · exact absurd (.inr hzero) hpos
  · exact .inl (List.eq_nil_of_length_eq_zero (by omega))
  · exact .inr hlt

/-- The end of the input is taken for `quit`, when there is no line. -/
theorem Shows.eot (h : s.Shows line) (hb : s.Books) (hold : s.oldl = none) : Handled s.eot.1 s.eot.2 := by
  have hl := h.l_eq
  unfold cli_loop.eot
  split
  · rename_i hhidden
    refine Handled.ends h hb hold fun hlogin => ?_
    rw [Hidden, hlogin] at hhidden
    simp at hhidden
  · split
    · exact Handled.more h hb hold
    · rename_i hzero
      have hempty : line.text = [] := List.eq_nil_of_length_eq_zero (by omega)
      have hcells := h.cells
      rw [hempty] at hcells
      have hquit : Padded 0 (put s.cmd 0 (QUIT ++ [0])) MAX_LINE_LENTH QUIT := by
        rw [← padded_append_end]
        exact Padded.overwrite (f := []) (b := []) hcells (Nat.zero_le _)
      have hshows : line_editor.Shows (put s.cmd 0 (QUIT ++ [0])) QUIT.length QUIT.length ⟨QUIT, []⟩ := by
        refine ⟨?_, rfl, rfl, by decide, by decide⟩
        rw [Line.text_mk]
        exact hquit
      refine Handled.ends hshows (hb.store (Int.le_refl 0) (by decide)) hold fun _ => ?_
      exact show (QUIT.length : Int) < USERNAME by decide

theorem Shows.completion (h : s.Shows line) (hb : s.Books) (hfits : s.CompletionFits) :
    ∃ line, (s.completion c).Shows line ∧ (s.completion c).Books ∧ (s.completion c).oldl = s.oldl := by
  have hread := h.read_string hb
  unfold cli_loop.completion
  by_cases hlogin : s.state = .STATE_LOGIN ∨ s.Hidden
  · rw [if_pos hlogin]
    exact ⟨line, h, hb, rfl⟩
  · rw [if_neg hlogin]
    by_cases hend : s.cursor = s.l
    · rw [if_neg (not_not_intro hend)]
      split
      · exact ⟨line, h, hread, rfl⟩
      · rename_i name hname
        obtain ⟨hlong, hroom⟩ := hfits name hlogin hend hname
        have hlen : line.text.length = line.front.length + line.back.length := List.length_append
        have hl := h.l_eq
        have hcursor := h.cursor_eq
        have hback : line.back = [] := List.eq_nil_of_length_eq_zero (by omega)
        have htext : line.text = line.front := by
          rw [Line.text, hback, List.append_nil]
        rw [h.string, htext] at hlong hroom
        have hline : (s.read_string 0).Shows ⟨line.front, []⟩ := by
          rw [← hback]
          exact h
        have hname' : 0 ∉ name := zero_not_mem_completion (hname ▸ List.mem_singleton_self name)
        exact ⟨_, hline.complete_with hread hname' (by omega) hroom⟩
      · dsimp only
        split
        · exact ⟨line, h, hread, rfl⟩
        · exact ⟨line, h, hread, rfl⟩
    · rw [if_pos hend]
      exact ⟨line, h, hb, rfl⟩

/-- An entry that was found is shown. -/
theorem Shows.recalled (h : s.Shows line) (hold : s.oldl = none) (huntouched : Untouched s s') :
    Handled s'.recall_history false := by
  obtain ⟨hcmd, hl, hcursor, hold'⟩ := huntouched.line
  have hshows : s'.Shows line := by
    rw [Shows, hcmd, hl, hcursor]
    exact h
  obtain ⟨line', hshows', hbooks, hsame⟩ := hshows.recall_history huntouched.books
  exact Handled.more hshows' hbooks (hsame.trans (hold'.trans hold))

theorem key_of_normal (h : Key.of c = .normal) : c ≠ 0 := by
  rintro rfl
  exact absurd h (by decide)

/-- A key that fits. -/
theorem Shows.key (h : s.Shows line) (hb : s.Books) (hold : s.oldl = none) {k : Key} (hc : k = .normal → c ≠ 0)
    (hfits : s.KeyFits c k) : Handled (s.key c k).1 (s.key c k).2 := by
  have hlen : line.text.length = line.front.length + line.back.length := List.length_append
  have hl := h.l_eq
  have hcursor := h.cursor_eq
  have hfit := h.fits
  cases k with
  | nothing => exact Handled.more h hb hold
  | newline => exact Handled.ends h hb hold fun hlogin => hfits hlogin
  | escape => exact Handled.more (s := { s with esc := 1 }) h hb hold
  | bell => exact Handled.more h hb hold
  | word =>
    unfold cli_loop.key
    dsimp only
    split
    · exact Handled.more h hb hold
    · rename_i hpos
      obtain ⟨hshows, hbooks, hold'⟩ := h.delete_word hb (deletion_back h hpos hfits)
      exact Handled.more hshows hbooks (hold'.trans hold)
  | char =>
    unfold cli_loop.key
    dsimp only
    split
    · exact Handled.more h hb hold
    · rename_i hpos
      have hback := deletion_back h hpos hfits
      have hfront : line.front ≠ [] := fun hnil => hpos (.inr (by rw [hcursor, hnil]; rfl))
      have hline : s.Shows ⟨line.front.dropLast ++ [line.front.getLast hfront], line.back⟩ := by
        rw [List.dropLast_append_getLast]
        exact h
      obtain ⟨hshows, hbooks, hold'⟩ := hline.deletes hb hback
      exact Handled.more hshows hbooks (hold'.trans hold)
  | redraw =>
    unfold cli_loop.key
    dsimp only
    split
    · exact Handled.more h hb hold
    · exact Handled.more (s := s.access 0 s.l.toNat) h (hb.access (Int.le_refl 0) h.l_toNat) hold
  | clear_line =>
    obtain ⟨hshows, hbooks, hold'⟩ := h.clear_line hb
    exact Handled.more hshows hbooks (hold'.trans hold)
  | kill =>
    obtain ⟨hshows, hbooks, hold'⟩ := h.kill hb
    exact Handled.more hshows hbooks (hold'.trans hold)
  | eot => exact h.eot hb hold
  | disable =>
    obtain ⟨hshows, hbooks, hold'⟩ := h.disable hb hfits
    exact Handled.more hshows hbooks (hold'.trans hold)
  | completion =>
    obtain ⟨line', hshows, hbooks, hold'⟩ := h.completion hb hfits
    exact Handled.more hshows hbooks (hold'.trans hold)
  | up =>
    unfold cli_loop.key
    dsimp only
    split
    · exact Handled.more h hb hold
    · exact h.recalled hold (up_untouched hb)
  | down =>
    unfold cli_loop.key
    dsimp only
    split
    · exact Handled.more h hb hold
    · exact h.recalled hold (down_untouched hb)
  | left =>
    obtain ⟨hshows, hbooks, hold'⟩ := h.left hb
    exact Handled.more hshows hbooks (hold'.trans hold)
  | right =>
    obtain ⟨hshows, hbooks, hold'⟩ := h.right hb
    exact Handled.more hshows hbooks (hold'.trans hold)
  | start_of_line => exact Handled.more h.start_of_line hb hold
  | end_of_line =>
    obtain ⟨hshows, hbooks, hold'⟩ := h.end_of_line hb
    exact Handled.more hshows hbooks (hold'.trans hold)
  | normal => exact h.normal hb hold (hc rfl) hfits

end cli_loop

end gwdonu.line_editor
