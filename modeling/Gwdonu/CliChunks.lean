-- A text that the CLI prints in chunks: what one chunk leaves in the buffer, and which lines come out
-- of all of them.
import Gwdonu.CliPrint

namespace gwdonu.cli_print

open cells lines runs

variable {cli : cli_def} {c : Call} {n p k : Nat} {s : List UInt8}

/-! ## A chunk of a text -/

theorem print_chunk (chunk : List UInt8) (n : Nat) (cli : cli_def) (p : Nat) :
    print_line (gw_cli_bufprint chunk) n cli p = (cli.access p ((cli.string p).length + 1)).emit (cli.string p) :=
  if_neg fun h => Bool.noConfusion h.2

/-- Where there is no CR in front of the end of a line, the buffer stays as it is. -/
theorem drop_return_plain {next : Nat} (hback : next = 0 ∨ next = p + 1 ∨ cli.buffer (next - 1 : Int) ≠ 0x0d) :
    (drop_return cli p next).buf_size = cli.buf_size ∧ (drop_return cli p next).printed = cli.printed ∧
      ∀ i : Nat, (drop_return cli p next).buffer i = cli.buffer i := by
  unfold drop_return
  dsimp only
  split
  · rename_i hreturn
    -- only the byte in front of the buffer can be one
    have hzero : next = 0 := by
      rcases hback with hzero | heq | hne
      · exact hzero
      · exact absurd (by omega) hreturn.2
      · exact absurd hreturn.1 hne
    refine ⟨rfl, rfl, fun i => ?_⟩
    rw [cli_def.buffer_store, put_one, if_neg (by omega)]
    rfl
  · exact ⟨rfl, rfl, fun _ => rfl⟩

/-- The end of a line that has no CR around it. -/
theorem end_line_plain {next : Nat} (hback : next = 0 ∨ next = p + 1 ∨ cli.buffer (next - 1 : Int) ≠ 0x0d)
    (hnext : cli.buffer (next + 1 : Nat) ≠ 0x0d) :
    (end_line cli p next).2 = next + 1 ∧ (end_line cli p next).1.buf_size = cli.buf_size ∧
      (end_line cli p next).1.printed = cli.printed ∧
        ∀ i : Nat, (end_line cli p next).1.buffer i = if i = next then 0 else cli.buffer i := by
  obtain ⟨hsize, hprinted, hbuffer⟩ := drop_return_plain hback
  have hbehind : ((drop_return cli p next).store next [0]).buffer (next + 1 : Nat) ≠ 0x0d := by
    rw [cli_def.buffer_store, put_one, if_neg (by omega), hbuffer]
    exact hnext
  unfold end_line
  dsimp only
  rw [cli_def.buffer_access, if_neg hbehind]
  refine ⟨rfl, hsize, hprinted, fun i => ?_⟩
  dsimp only
  rw [cli_def.buffer_access, cli_def.buffer_store, put_one, hbuffer]
  exact if_congr Int.natCast_inj rfl rfl

theorem no_newline (hs : 0x0a ∉ s) : s.findIdx? (· = 0x0a) = none := by
  rw [List.findIdx?_eq_none_iff]
  exact fun a ha => decide_eq_false fun heq => hs (heq ▸ ha)

/-- What the loop finds at the start of a line that ends: no CR is in front of its end, or behind it. -/
theorem first_line {t : List UInt8} (hs : 0x0a ∉ s) (hreturn : 0x0d ∉ s ++ 0x0a :: t)
    (hholds : Holds 0 cli.buffer p (s ++ 0x0a :: t)) (hback : p = 0 ∨ cli.buffer (p - 1 : Int) = 0) :
    (s ++ 0x0a :: t).findIdx? (· = 0x0a) = some s.length ∧
      (∀ (j : Nat) (hj : j < s.length), cli.buffer ((p + j : Nat) : Int) = s[j]) ∧
      cli.buffer ((p + s.length : Nat) : Int) = 0x0a ∧ Holds 0 cli.buffer ((p + s.length + 1 : Nat) : Int) t ∧
      (p + s.length = 0 ∨ p + s.length = p + 1 ∨ cli.buffer ((p + s.length : Nat) - 1 : Int) ≠ 0x0d) ∧
      cli.buffer ((p + s.length + 1 : Nat) : Int) ≠ 0x0d := by
  rw [List.mem_append, List.mem_cons, not_or, not_or] at hreturn
  have hchar (j : Nat) (hj : j < s.length) : cli.buffer ((p + j : Nat) : Int) = s[j] := by
    have hcell := hholds.get (k := j) (by rw [List.length_append]; omega)
    rw [Int.natCast_add, hcell, List.getElem_append_left hj]
  have hdrop := hholds.drop
  rw [← Int.natCast_add] at hdrop
  obtain ⟨hnewline, hrest⟩ := holds_cons.mp hdrop
  refine ⟨?_, hchar, hnewline, hrest, ?_, ?_⟩
  · rw [List.findIdx?_append, no_newline hs]
    simp [List.findIdx?_cons]
  · by_cases h0 : s.length = 0
    · rw [h0]
      rcases hback with rfl | hzero
      · exact .inl rfl
      · refine .inr (.inr ?_)
        rw [Nat.add_zero, hzero]
        decide
    · have hcell := hchar (s.length - 1) (by omega)
      rw [show ((p + (s.length - 1) : Nat) : Int) = (p + s.length : Nat) - 1 by omega] at hcell
      refine .inr (.inr fun heq => hreturn.1 ?_)
      rw [← heq, hcell]
      exact List.getElem_mem _
  · cases t with
    | nil =>
      rw [Int.natCast_add, Int.natCast_one, holds_nil.mp hrest]
      decide
    | cons a t =>
      rw [Int.natCast_add, Int.natCast_one, (holds_cons.mp hrest).1]
      exact fun heq => hreturn.2.2 (heq ▸ List.mem_cons_self)

/-- The loop over a text without CR and NUL: its complete lines are printed, and their ends
are 0 behind it. -/
theorem line_loop_cuts (chunk text : List UInt8) (hreturn : 0x0d ∉ text) (hnul : 0 ∉ text) {n p : Nat} {cli : cli_def}
    (hholds : Holds 0 cli.buffer p text) (hlen : p + text.length < cli.buf_size) (hn : text.length < n)
    (hback : p = 0 ∨ cli.buffer (p - 1 : Int) = 0) :
    ∃ cli' p', line_loop (gw_cli_bufprint chunk) n cli p = some (cli', some p') ∧
      cli'.buf_size = cli.buf_size ∧ cli'.printed = cli.printed ++ whole 0x0a text ∧
      p' + (rest 0x0a text).length = p + text.length ∧
      ∀ i : Nat, cli'.buffer i = if p ≤ i ∧ i < p' ∧ cli.buffer i = 0x0a then 0 else cli.buffer i := by
  induction text using line_induction (e := (0x0a : UInt8)) generalizing n p cli with
  | hrest s hs =>
    obtain ⟨n, rfl⟩ := Nat.exists_eq_succ_of_ne_zero (Nat.ne_of_gt (Nat.zero_lt_of_lt hn))
    have hstring : cli.string p = s := text_eq hholds hnul (by omega)
    rw [whole_of_not_mem hs, rest_of_not_mem hs, List.append_nil]
    refine ⟨cli.access p (s.length + 1), p, ?_, rfl, rfl, rfl, fun i => ?_⟩
    · rw [line_loop, hstring, no_newline hs]
      exact if_pos (show (PRINT_BUFFERED ||| PRINT_FILTERED) &&& PRINT_BUFFERED ≠ 0 by decide)
    · rw [if_neg (by omega)]
      rfl
  | hline s t hs ih =>
    obtain ⟨n, rfl⟩ := Nat.exists_eq_succ_of_ne_zero (Nat.ne_of_gt (Nat.zero_lt_of_lt hn))
    obtain ⟨hfind, hchar, hnewline, hrest, hfront, hbehind⟩ := first_line hs hreturn hholds hback
    have hstring : cli.string p = s ++ 0x0a :: t := text_eq hholds hnul (by omega)
    rw [List.length_append, List.length_cons] at hlen hn
    rw [List.mem_append, List.mem_cons, not_or, not_or] at hreturn hnul
    obtain ⟨hnext, hsize, hprinted, hbuffer⟩ := @end_line_plain (cli.access p (s.length + 1)) p (p + s.length)
      hfront hbehind
    rw [line_loop, hstring, hfind]
    dsimp only
    generalize end_line (cli.access p (s.length + 1)) p (p + s.length) = ended at hnext hsize hprinted hbuffer ⊢
    obtain ⟨cli1, next⟩ := ended
    dsimp only at hnext hsize hprinted hbuffer ⊢
    subst hnext
    rw [cli_def.buf_size_access] at hsize
    rw [cli_def.buffer_access] at hbuffer
    -- the line is in front of its end
    have hline : cli1.string p = s := by
      refine text_eq (holds_iff.mpr ⟨fun k hk => ?_, ?_⟩) hnul.1 (by rw [hsize]; omega)
      · rw [← Int.natCast_add, hbuffer, if_neg (by omega), hchar k hk]
      · rw [← Int.natCast_add, hbuffer, if_pos rfl]
    have hrest' : Holds 0 (print_line (gw_cli_bufprint chunk) n cli1 p).buffer ((p + s.length + 1 : Nat) : Int) t := by
      rw [print_chunk]
      refine hrest.congr fun i hlo hhi => ?_
      obtain ⟨j, rfl⟩ := Int.eq_ofNat_of_zero_le (by omega : 0 ≤ i)
      rw [cli_def.buffer_emit, cli_def.buffer_access, hbuffer, if_neg (by omega)]
    have hback' : (print_line (gw_cli_bufprint chunk) n cli1 p).buffer ((p + s.length + 1 : Nat) - 1 : Int) = 0 := by
      rw [print_chunk, show ((p + s.length + 1 : Nat) : Int) - 1 = (p + s.length : Nat) by omega]
      rw [cli_def.buffer_emit, cli_def.buffer_access, hbuffer, if_pos rfl]
    have hsize' : (print_line (gw_cli_bufprint chunk) n cli1 p).buf_size = cli.buf_size := by
      rw [print_chunk]
      exact hsize
    have hroom : p + s.length + 1 + t.length < (print_line (gw_cli_bufprint chunk) n cli1 p).buf_size := by
      rw [hsize']
      omega
    obtain ⟨cli', p', hrun, hsize'', hprinted', hplace, hbuffer'⟩ := ih (n := n) hreturn.2.2 hnul.2.2 hrest' hroom
      (by omega) (.inr hback')
    refine ⟨cli', p', hrun, hsize''.trans hsize', ?_, ?_, fun i => ?_⟩
    · rw [hprinted', print_chunk, whole_line hs, hline]
      change (cli1.printed ++ [s]) ++ _ = _
      rw [hprinted, List.append_assoc]
      rfl
    · rw [rest_line hs, List.length_append, List.length_cons]
      omega
    · rw [hbuffer', print_chunk, cli_def.buffer_emit, cli_def.buffer_access, hbuffer]
      by_cases hi : i = p + s.length
      · subst hi
        have hlen' := (rest_suffix (0x0a : UInt8) t).length_le
        rw [if_neg (by omega), if_pos rfl, if_pos ⟨by omega, by omega, hnewline⟩]
      · rw [if_neg hi]
        refine if_congr (and_congr_left fun hcell => ?_) rfl rfl
        constructor
        · omega
        · intro hle
          by_contra hlt
          obtain ⟨j, rfl⟩ := Nat.exists_eq_add_of_le hle
          refine hs ?_
          rw [← hcell.2, hchar j (by omega)]
          exact List.getElem_mem _

/-- What is pending has no CR either. -/
structure cli_def.Ready (cli : cli_def) : Prop where
  waiting : cli.Waiting
  plain : 0x0d ∉ cli.pending

theorem end_not_mem_pending (cli : cli_def) : 0 ∉ cli.pending := end_not_mem_text _ _ _ _

theorem format_some {text : List UInt8} (htext : c.text = some text) : format cli c =
    ((cli.access 0 (cli.pending.length + 1)).store cli.pending.length
      (vsnprintf (cli.buf_size - cli.pending.length - 1) text)).store (cli.buf_size - 1 : Nat) [0] := by
  unfold format
  rw [htext]
  rfl

/-- A chunk that fits is behind what is pending. -/
theorem format_chunk (h : cli.Waiting) {chunk : List UInt8} (hfits : cli.Fits chunk) :
    Holds 0 (format cli (gw_cli_bufprint chunk)).buffer 0 (cli.pending ++ chunk) ∧
      (cli.pending ++ chunk).length + 1 < cli.buf_size := by
  obtain ⟨hholds, -, -⟩ := waiting_pending h
  have hlen : (cli.pending ++ chunk).length + 1 < cli.buf_size := by
    rw [List.length_append]
    exact Nat.add_lt_of_lt_sub (by unfold cli_def.Fits at hfits; omega)
  refine ⟨?_, hlen⟩
  have htaken : vsnprintf (cli.buf_size - cli.pending.length - 1) chunk = chunk ++ [0] := by
    unfold cli_def.Fits at hfits
    rw [vsnprintf, if_neg (by omega), List.take_of_length_le (by omega)]
  have hwritten := hholds.append_put chunk
  rw [Int.zero_add] at hwritten
  refine hwritten.congr fun i hlo hhi => ?_
  rw [format_some rfl, htaken, cli_def.buffer_store, put_one, if_neg (by omega)]
  rfl

theorem pending_eq {l : List UInt8} (hholds : Holds 0 cli.buffer 0 l) (hnul : 0 ∉ l) (hlen : l.length < cli.buf_size) :
    cli.pending = l := text_eq hholds hnul hlen

/-- What a chunk makes of the buffer, before what is left is moved. -/
theorem chunk_cuts (h : cli.Ready) {chunk : List UInt8} (hplain : Plain chunk) (hfits : cli.Fits chunk) :
    ∃ cli' p, cli.bufprint chunk = keep cli' (some p) ∧ cli'.buf_size = cli.buf_size ∧
      cli'.printed = cli.printed ++ whole 0x0a (cli.pending ++ chunk) ∧
      p + (rest 0x0a (cli.pending ++ chunk)).length = (cli.pending ++ chunk).length ∧
      ∀ i : Nat, i ≤ (cli.pending ++ chunk).length →
        cli'.buffer i =
          if i < p ∧ (cli.pending ++ chunk)[i]? = some 0x0a then 0 else ((cli.pending ++ chunk)[i]?).getD 0 := by
  obtain ⟨hholds, hlen⟩ := format_chunk h.waiting hfits
  have hsize : (format cli (gw_cli_bufprint chunk)).buf_size = cli.buf_size := (format_spec h.waiting _).2.1
  have hreturn : 0x0d ∉ cli.pending ++ chunk := by
    rw [List.mem_append, not_or]
    exact ⟨h.plain, hplain.1⟩
  have hnul : 0 ∉ cli.pending ++ chunk := by
    rw [List.mem_append, not_or]
    exact ⟨end_not_mem_pending cli, hplain.2⟩
  obtain ⟨cli', p, hrun, hsize', hprinted, hplace, hbuffer⟩ := line_loop_cuts (n := cli.buf_size) (p := 0) chunk _
    hreturn hnul hholds (by rw [hsize]; omega) (by omega) (.inl rfl)
  refine ⟨cli', p, ?_, hsize'.trans hsize, hprinted, by omega, fun i hi => ?_⟩
  · unfold cli_def.bufprint cli_def.event
    rw [gw_print_some rfl, hsize, hrun]
    rfl
  · have hcell := hholds i hi
    rw [Int.zero_add] at hcell
    rw [hbuffer, hcell]
    refine if_congr ((and_iff_right (Nat.zero_le i)).trans (and_congr_right fun _ => ?_)) rfl rfl
    cases (cli.pending ++ chunk)[i]? with
    | none => exact iff_of_false (by decide) nofun
    | some a => exact Option.some_inj.symm

theorem keep_empty {cli : cli_def} (hzero : cli.buffer p = 0) : (keep cli (some p)).buffer 0 = 0 ∧
    (keep cli (some p)).buf_size = cli.buf_size ∧ (keep cli (some p)).printed = cli.printed := by
  unfold keep
  dsimp only
  rw [cli_def.buffer_access, if_pos hzero]
  exact ⟨store_zero 0, rfl, rfl⟩

theorem keep_moved {l : List UInt8} (hl : l ≠ []) (hstring : cli.string p = l) (hholds : Holds 0 cli.buffer p l)
    (hnul : 0 ∉ l) : (keep cli (some p)).buffer = put cli.buffer 0 l ∧
      (keep cli (some p)).buf_size = cli.buf_size ∧ (keep cli (some p)).printed = cli.printed := by
  obtain ⟨a, l, rfl⟩ := List.exists_cons_of_ne_nil hl
  have hfirst : cli.buffer p ≠ 0 := by
    rw [(holds_cons.mp hholds).1]
    exact fun heq => hnul (heq ▸ List.mem_cons_self)
  unfold keep
  dsimp only
  rw [cli_def.buffer_access, if_neg hfirst]
  split
  · rename_i hp
    subst hp
    refine ⟨(hholds.put_self).symm, rfl, rfl⟩
  · rw [cli_def.string_access, hstring]
    exact ⟨rfl, rfl, rfl⟩

/-- Behind what was moved, the text is as before, without the ends of its lines. -/
structure Moved (m : Int → UInt8) (l text : List UInt8) : Prop where
  front : ∀ (i : Nat) (hi : i < l.length), m i = l[i]
  behind : ∀ i : Nat, l.length ≤ i → i ≤ text.length → m i = if text[i]? = some 0x0a then 0 else (text[i]?).getD 0

section
variable {m : Int → UInt8} {l t text : List UInt8}

theorem Moved.mem (h : Moved m l text) (hl : l <:+ text) (ht : Holds 0 m 0 t) (hnul : 0 ∉ t) : ∀ a ∈ t, a ∈ text := by
  have hends : m (0 + (text.length : Int)) = 0 := by
    rw [Int.zero_add, h.behind text.length hl.length_le (Nat.le_refl _), List.getElem?_eq_none (Nat.le_refl _)]
    rfl
  have hlen := ht.length_le hnul hends
  intro a ha
  obtain ⟨i, hi, rfl⟩ := List.getElem_of_mem ha
  have hcell := ht.get hi
  rw [Int.zero_add] at hcell
  by_cases hil : i < l.length
  · rw [← hcell, h.front i hil]
    exact hl.subset (List.getElem_mem hil)
  · rw [h.behind i (Nat.le_of_not_lt hil) (by omega), List.getElem?_eq_getElem (by omega), Option.getD_some] at hcell
    split at hcell
    · exact absurd (hcell ▸ ha) hnul
    · exact hcell ▸ List.getElem_mem _

/-- Only an end of a line, or of the text, ends what was moved. -/
theorem Moved.ends (h : Moved m l text) (hl : l <:+ text) (hnul : 0 ∉ text) :
    m l.length = 0 ↔ l.length = text.length ∨ text[l.length]? = some 0x0a := by
  rw [h.behind l.length (Nat.le_refl _) hl.length_le]
  rcases Nat.lt_or_eq_of_le hl.length_le with hlt | heq
  · rw [List.getElem?_eq_getElem hlt, Option.getD_some, or_iff_right (Nat.ne_of_lt hlt)]
    split
    · rename_i hend
      exact iff_of_true rfl hend
    · rename_i hend
      refine iff_of_false (fun hzero => hnul ?_) hend
      rw [← hzero]
      exact List.getElem_mem hlt
  · rw [heq, List.getElem?_eq_none (Nat.le_refl _)]
    exact iff_of_true (by simp) (.inl rfl)

theorem Moved.holds (h : Moved m l text) (hzero : m l.length = 0) : Holds 0 m 0 l := by
  refine holds_iff.mpr ⟨fun k hk => ?_, ?_⟩
  · rw [Int.zero_add]
    exact h.front k hk
  · rw [Int.zero_add]
    exact hzero

theorem Moved.longer (h : Moved m l text) (hl : 0 ∉ l) (hne : m l.length ≠ 0) (ht : Holds 0 m 0 t) :
    l.length < t.length := by
  have hends := ht.ends
  rw [Int.zero_add] at hends
  by_contra hle
  rcases Nat.lt_or_eq_of_le (Nat.le_of_not_lt hle) with hlt | heq
  · rw [h.front t.length hlt] at hends
    exact hl (hends ▸ List.getElem_mem hlt)
  · exact hne (heq ▸ hends)

end

/-- What the moving of the unfinished line makes of the buffer. -/
theorem chunk_moved (h : cli.Ready) {chunk : List UInt8} (hplain : Plain chunk) (hfits : cli.Fits chunk) :
    (cli.bufprint chunk).buf_size = cli.buf_size ∧
      (cli.bufprint chunk).printed = cli.printed ++ whole 0x0a (cli.pending ++ chunk) ∧
      (rest 0x0a (cli.pending ++ chunk) = [] → (cli.bufprint chunk).buffer 0 = 0) ∧
      (rest 0x0a (cli.pending ++ chunk) ≠ [] →
        Moved (cli.bufprint chunk).buffer (rest 0x0a (cli.pending ++ chunk)) (cli.pending ++ chunk)) := by
  have hnul : 0 ∉ cli.pending ++ chunk := by
    rw [List.mem_append, not_or]
    exact ⟨end_not_mem_pending cli, hplain.2⟩
  obtain ⟨-, hlen⟩ := format_chunk h.waiting hfits
  obtain ⟨cli', p, hkeep, hsize, hprinted, hplace, hbuffer⟩ := chunk_cuts h hplain hfits
  generalize cli.pending ++ chunk = text at *
  obtain ⟨front, hfront⟩ := rest_suffix (0x0a : UInt8) text
  have hnewline := not_mem_rest (0x0a : UInt8) text
  generalize rest (0x0a : UInt8) text = left at *
  have hp : front.length = p := by
    rw [← hfront, List.length_append] at hplace
    omega
  have hpart (j : Nat) : text[p + j]? = left[j]? := by
    rw [← hfront, ← hp, List.getElem?_append_right (Nat.le_add_right _ _), Nat.add_sub_cancel_left]
  have hholds : Holds 0 cli'.buffer p left := by
    intro j hj
    rw [← Int.natCast_add, hbuffer (p + j) (by omega), if_neg (by omega), hpart]
  have hleft : 0 ∉ left := fun hmem => hnul (hfront ▸ List.mem_append_right front hmem)
  have hstring : cli'.string p = left := text_eq hholds hleft (by omega)
  by_cases hempty : left = []
  · subst hempty
    obtain ⟨hzero, hsize', hprinted'⟩ := keep_empty (holds_nil.mp hholds)
    rw [hkeep]
    exact ⟨hsize'.trans hsize, hprinted'.trans hprinted, fun _ => hzero, fun hne => absurd rfl hne⟩
  · obtain ⟨hmoved, hsize', hprinted'⟩ := keep_moved hempty hstring hholds hleft
    rw [hkeep]
    refine ⟨hsize'.trans hsize, hprinted'.trans hprinted, fun heq => absurd heq hempty, fun _ => ⟨fun i hi => ?_, ?_⟩⟩
    · have hcell := put_at (m := cli'.buffer) (p := 0) hi
      rw [Int.zero_add] at hcell
      rw [hmoved, hcell]
    · intro i hlo hhi
      rw [hmoved, put_behind (by omega), hbuffer i hhi]
      refine if_congr (and_iff_right_of_imp fun hend => ?_) rfl rfl
      -- a newline is not in what is left
      by_contra hip
      obtain ⟨j, rfl⟩ := Nat.exists_eq_add_of_le (Nat.le_of_not_lt hip)
      rw [hpart] at hend
      exact hnewline (List.mem_of_getElem? hend)

/-- One chunk: its complete lines come out. -/
theorem chunk_spec (h : cli.Ready) {chunk : List UInt8} (hplain : Plain chunk) (hfits : cli.Fits chunk) :
    (cli.bufprint chunk).Ready ∧
      (cli.bufprint chunk).printed = cli.printed ++ whole 0x0a (cli.pending ++ chunk) ∧
      (cli.Keeps chunk → (cli.bufprint chunk).pending = rest 0x0a (cli.pending ++ chunk)) ∧
      (¬ cli.Keeps chunk → (rest 0x0a (cli.pending ++ chunk)).length < (cli.bufprint chunk).pending.length) := by
  obtain ⟨hsize, hprinted, hempty, hmoved⟩ := chunk_moved h hplain hfits
  have hwaiting : (cli.bufprint chunk).Waiting := (event_spec h.waiting _).2.1
  obtain ⟨hholds, hlen, -⟩ := waiting_pending hwaiting
  have hreturn : 0x0d ∉ cli.pending ++ chunk := by
    rw [List.mem_append, not_or]
    exact ⟨h.plain, hplain.1⟩
  have hnul : 0 ∉ cli.pending ++ chunk := by
    rw [List.mem_append, not_or]
    exact ⟨end_not_mem_pending cli, hplain.2⟩
  have hsuffix := rest_suffix (0x0a : UInt8) (cli.pending ++ chunk)
  unfold cli_def.Keeps
  dsimp only
  by_cases hrest : rest 0x0a (cli.pending ++ chunk) = []
  · have hpending : (cli.bufprint chunk).pending = [] :=
      pending_eq (holds_nil.mpr (hempty hrest)) List.not_mem_nil (Nat.zero_lt_of_lt hlen)
    refine ⟨⟨hwaiting, ?_⟩, hprinted, fun _ => hpending.trans hrest.symm, fun hno => absurd (.inr (.inl hrest)) hno⟩
    rw [hpending]
    exact List.not_mem_nil
  · have hmoved := hmoved hrest
    have hends := hmoved.ends hsuffix hnul
    have hleft : 0 ∉ rest 0x0a (cli.pending ++ chunk) := fun hmem => hnul (hsuffix.subset hmem)
    have hwhole : (rest 0x0a (cli.pending ++ chunk)).length = (cli.pending ++ chunk).length ↔
        whole 0x0a (cli.pending ++ chunk) = [] := by
      constructor
      · intro heq
        rw [whole_eq_nil_iff, ← hsuffix.eq_of_length heq]
        exact not_mem_rest _ _
      · intro hnone
        rw [rest_of_not_mem (whole_eq_nil_iff.mp hnone)]
    rw [hwhole] at hends
    rw [or_iff_right hrest, ← hends]
    refine ⟨⟨hwaiting, fun hmem => ?_⟩, hprinted, fun hzero => ?_, fun hne => hmoved.longer hleft hne hholds⟩
    · exact hreturn (hmoved.mem hsuffix hholds (end_not_mem_pending _) _ hmem)
    · have hfits' := (format_chunk h.waiting hfits).2
      have hle := hsuffix.length_le
      exact pending_eq (hmoved.holds hzero) hleft (by rw [hsize]; omega)

/-! ## Chunk after chunk -/

variable {chunk P : List UInt8} {chunks : List (List UInt8)}

/-- What is printed stays so. -/
theorem printed_prefix (h : cli.Ready) (hplain : ∀ chunk ∈ chunks, Plain chunk)
    (hfits : Along cli_def.bufprint cli_def.Fits cli chunks) :
    cli.printed <+: (run cli_def.bufprint cli chunks).printed := by
  induction chunks generalizing cli with
  | nil => exact List.prefix_refl _
  | cons chunk chunks ih =>
    obtain ⟨hready, hprinted, -, -⟩ := chunk_spec h (hplain chunk List.mem_cons_self) hfits.1
    have hmore := ih hready (fun c hc => hplain c (List.mem_cons_of_mem _ hc)) hfits.2
    rw [hprinted] at hmore
    exact (List.prefix_append _ _).trans hmore

/-- Where more is pending than the unfinished line, the lines are never again those of the text. -/
theorem longer_stays_longer (h : cli.Ready) (hP : 0x0a ∉ P) (hlong : P.length < cli.pending.length)
    (hplain : ∀ chunk ∈ chunks, Plain chunk) (hfits : Along cli_def.bufprint cli_def.Fits cli chunks) :
    ¬ ((run cli_def.bufprint cli chunks).printed = cli.printed ++ whole 0x0a (P ++ chunks.flatten) ∧
      (run cli_def.bufprint cli chunks).pending = rest 0x0a (P ++ chunks.flatten)) := by
  induction chunks generalizing cli P with
  | nil =>
    rw [List.flatten_nil, List.append_nil, rest_of_not_mem hP]
    rintro ⟨-, heq⟩
    exact absurd (congrArg List.length heq) (Nat.ne_of_gt hlong)
  | cons chunk chunks ih =>
    have hplain' := fun c hc => hplain c (List.mem_cons_of_mem chunk hc)
    obtain ⟨hready, hprinted, hkeeps, -⟩ := chunk_spec h (hplain chunk List.mem_cons_self) hfits.1
    obtain ⟨-, -, hline⟩ := waiting_pending h.waiting
    rw [List.flatten_cons, run_cons, ← List.append_assoc]
    by_cases hmem : 0x0a ∈ chunk
    · -- the first of them is longer than it should be
      obtain ⟨s, t, rfl, hs⟩ := List.eq_append_cons_of_mem hmem
      have hmore := printed_prefix hready hplain' hfits.2
      have hfirst : 0x0a ∉ cli.pending ++ s := by
        rw [List.mem_append, not_or]
        exact ⟨hline, hs⟩
      have hshould : 0x0a ∉ P ++ s := by
        rw [List.mem_append, not_or]
        exact ⟨hP, hs⟩
      rw [hprinted, ← List.append_assoc, whole_line hfirst] at hmore
      rintro ⟨heq, -⟩
      rw [heq, ← List.append_assoc, List.append_assoc _ _ chunks.flatten, List.cons_append, whole_line hshould,
        List.prefix_append_right_inj, List.cons_prefix_cons] at hmore
      have hlen := congrArg List.length hmore.1
      rw [List.length_append, List.length_append] at hlen
      omega
    · have hP' : 0x0a ∉ P ++ chunk := by
        rw [List.mem_append, not_or]
        exact ⟨hP, hmem⟩
      have htext : 0x0a ∉ cli.pending ++ chunk := by
        rw [List.mem_append, not_or]
        exact ⟨hline, hmem⟩
      have hpending := hkeeps (.inl (whole_of_not_mem htext))
      rw [rest_of_not_mem htext] at hpending
      rw [whole_of_not_mem htext, List.append_nil] at hprinted
      rw [← hprinted]
      refine ih hready hP' ?_ hplain' hfits.2
      rw [hpending, List.length_append, List.length_append]
      omega

/-- The chunks come out as the text, when each of them leaves only the unfinished line. -/
theorem chunks_spec (h : cli.Ready) (hplain : ∀ chunk ∈ chunks, Plain chunk)
    (hfits : Along cli_def.bufprint cli_def.Fits cli chunks) :
    ((run cli_def.bufprint cli chunks).printed = cli.printed ++ whole 0x0a (cli.pending ++ chunks.flatten) ∧
      (run cli_def.bufprint cli chunks).pending = rest 0x0a (cli.pending ++ chunks.flatten)) ↔
      Along cli_def.bufprint cli_def.Keeps cli chunks := by
  induction chunks generalizing cli with
  | nil =>
    obtain ⟨-, -, hline⟩ := waiting_pending h.waiting
    rw [List.flatten_nil, List.append_nil, whole_of_not_mem hline, rest_of_not_mem hline, List.append_nil]
    exact iff_of_true ⟨rfl, rfl⟩ trivial
  | cons chunk chunks ih =>
    have hplain' := fun c hc => hplain c (List.mem_cons_of_mem chunk hc)
    obtain ⟨hready, hprinted, hkeeps, hlonger⟩ := chunk_spec h (hplain chunk List.mem_cons_self) hfits.1
    obtain ⟨hwhole, hrest⟩ := cut_append (e := (0x0a : UInt8)) (cli.pending ++ chunk) chunks.flatten
    rw [List.flatten_cons, run_cons, ← List.append_assoc, hwhole, hrest, ← List.append_assoc, ← hprinted, along_cons]
    by_cases hkept : cli.Keeps chunk
    · rw [← hkeeps hkept, ih hready hplain' hfits.2, and_iff_right hkept]
    · refine iff_of_false ?_ fun hall => hkept hall.1
      exact longer_stays_longer hready (not_mem_rest _ _) (hlonger hkept) hplain' hfits.2

/-! ## The law of the printing -/

/-- A run of calls stays in the buffer, when no text starts with a newline there. -/
theorem run_inside (h : cli.Waiting) (calls : List Call) : (run cli_def.event cli calls).Inside ↔
    cli.Inside ∧ Along cli_def.event (fun cli c => ¬ cli.StartsEmpty c) cli calls := by
  induction calls generalizing cli with
  | nil => exact (and_iff_left trivial).symm
  | cons c calls ih =>
    obtain ⟨-, hwaiting, -, hin⟩ := event_spec h c
    rw [run_cons, ih hwaiting, hin, along_cons, and_assoc]

theorem run_returns (h : cli.Waiting) (calls : List Call) :
    Along cli_def.event (fun cli c => (_gw_print cli c).isSome) cli calls := by
  refine along_imp (I := cli_def.Waiting) (P := fun _ _ => True) ?_ ?_ h (along_true cli calls)
  · exact fun cli c h _ => (event_spec h c).2.1
  · exact fun cli c h _ => (event_spec h c).1

theorem run_chunks (cli : cli_def) (chunks : List (List UInt8)) :
    run cli_def.event cli (chunks.map gw_cli_bufprint) = run cli_def.bufprint cli chunks := List.foldl_map

theorem start_ready (start : Start) : start.cli.Ready ∧ start.cli.pending = [] := by
  have hwaiting : start.cli.Waiting := ⟨0, start.size_pos, start.empty, nofun⟩
  have hpending : start.cli.pending = [] :=
    pending_eq (holds_nil.mpr start.empty) List.not_mem_nil start.size_pos
  refine ⟨⟨hwaiting, ?_⟩, hpending⟩
  rw [hpending]
  exact List.not_mem_nil

/-- The output is cut faithfully, when no text starts with a newline where nothing is pending, and
each chunk leaves its unfinished line with an end. -/
theorem output_is_cut_faithfully_iff (start : Start) (calls : List Call) : CutsFaithfully start calls ↔
    Along cli_def.event (fun cli c => ¬ cli.StartsEmpty c) start.cli calls ∧
      ∀ chunks, calls = chunks.map gw_cli_bufprint → (∀ chunk ∈ chunks, Plain chunk) →
        Along cli_def.bufprint cli_def.Fits start.cli chunks →
        Along cli_def.bufprint cli_def.Keeps start.cli chunks := by
  obtain ⟨hready, hpending⟩ := start_ready start
  have hnothing : start.cli.Inside := fun x hx => nomatch hx
  have hinside := run_inside hready.waiting calls
  rw [and_iff_right hnothing] at hinside
  have hlines {chunks : List (List UInt8)} (hplain : ∀ chunk ∈ chunks, Plain chunk)
      (hfits : Along cli_def.bufprint cli_def.Fits start.cli chunks) := chunks_spec hready hplain hfits
  rw [hpending] at hlines
  constructor
  · rintro ⟨-, hin, hcuts⟩
    refine ⟨hinside.mp hin, fun chunks hcalls hplain hfits => (hlines hplain hfits).mp ?_⟩
    have hcut := hcuts chunks hcalls hplain hfits
    rw [hcalls, run_chunks] at hcut
    exact hcut
  · rintro ⟨hstarts, hkeeps⟩
    refine ⟨run_returns hready.waiting calls, hinside.mpr hstarts, fun chunks hcalls hplain hfits => ?_⟩
    rw [hcalls, run_chunks]
    exact (hlines hplain hfits).mpr (hkeeps chunks hcalls hplain hfits)

/-- A line and one byte more leave the byte pending, and behind it what is left of the line. -/
theorem a_short_rest_keeps_old_bytes : ∃ start calls, ¬ CutsFaithfully start calls := by
  refine ⟨⟨1024, fun _ => 0, by decide, rfl⟩, [gw_cli_bufprint [0x61, 0x62, 0x0a, 0x63]], fun h => ?_⟩
  have hcut := (h.lines [[0x61, 0x62, 0x0a, 0x63]] rfl (by decide) (by decide)).2
  exact absurd hcut (by decide)

end gwdonu.cli_print
