-- The time that the OLT sets: the fields of the request are checked one by one, and each
-- is written before the next is looked at. When that sets the time whole, or not at all.
import Gwdonu.OamRequestBounds

namespace gwdonu.oam

/-! ## The fields of a request -/

/-- The fields after the year up to the first one out of range, with their values. -/
def inRange (payload : Mem) : List TimeField → Nat → List (TimeField × Nat)
  | [], _ => []
  | f :: fs, i =>
    let ucValue := (payload i).toNat
    if f.max < ucValue then [] else (f, ucValue) :: inRange payload fs (i + 1)

/-- The time that a year and some fields make. The others are 0. -/
def setFields (t : localtime_tm) (fields : List (TimeField × Nat)) : localtime_tm :=
  fields.foldl (fun t f => f.1.set t f.2) t

def fieldsText (fields : List (TimeField × Nat)) : List UInt8 :=
  fields.flatMap fun f => twoDigits f.2 ++ f.1.sep

def yearText (year : Nat) : List UInt8 := fourDigits year ++ [0x2f]

/-- A date and a time of day. -/
structure ValidTime (t : localtime_tm) : Prop where
  month : 1 ≤ t.tm_mon ∧ t.tm_mon ≤ 12
  day : 1 ≤ t.tm_mday ∧ t.tm_mday ≤ 31
  hour : t.tm_hour ≤ 23
  minute : t.tm_min ≤ 59
  second : t.tm_sec ≤ 59

/-- A request that is turned down changes nothing, and any other one sets a valid time. -/
structure SetsWhole (g : Globals) (h : Handling) : Prop where
  rejected : h.reply = .err → h.globals.w_gw_tim = g.w_gw_tim ∧ h.globals.g_cSetTime = g.g_cSetTime
  accepted : h.reply ≠ .err → ValidTime h.globals.w_gw_tim

/-- Behind a field that is out of range, the fields before it are what was set already, with 0
for the others, and the text begins like theirs. With all fields in range, there is
no month 0, no day 0 and no hour 24. -/
def Settable (g : Globals) (payload : Mem) : Prop :=
  let year := yearOf payload
  let fields := inRange payload timeFields 3
  if year < 1980 ∨ 2079 < year then g.w_gw_tim = ⟨0, 0, 0, 0, 0, 0⟩
  else if fields.length < timeFields.length then
    g.w_gw_tim = setFields ⟨0, 0, 0, 0, 0, year⟩ fields ∧
      yearText year ++ fieldsText fields ++ [0] <+: g.g_cSetTime
  else payload 3 ≠ 0 ∧ payload 4 ≠ 0 ∧ payload 5 ≠ 24

section
variable {payload : Mem} {fs : List TimeField} {g : Globals} {i : Nat} {l before data : List UInt8}

/-! ## The text -/

theorem overlay_start (h : data.length ≤ l.length) : overlay l 0 data = data ++ l.drop data.length := by
  unfold overlay
  rw [List.take_zero, List.nil_append, Nat.zero_add, List.take_of_length_le]
  simp
  omega

/-- A text that is printed over the end of the text before it. -/
theorem overlay_next (h : before.length + (data ++ [0]).length ≤ l.length) :
    overlay (overlay l 0 (before ++ [0])) before.length (data ++ [0]) = overlay l 0 (before ++ data ++ [0]) := by
  rw [List.length_append, List.length_singleton] at h
  have hfirst : overlay l 0 (before ++ [0]) = before ++ [0] ++ l.drop (before.length + 1) := by
    rw [overlay_start (by simp; omega), List.length_append]
    rfl
  have hboth : overlay l 0 (before ++ data ++ [0]) =
      before ++ data ++ [0] ++ l.drop (before.length + data.length + 1) := by
    rw [overlay_start (by simp; omega), List.length_append, List.length_append]
    rfl
  have hlength : (before ++ [0] ++ l.drop (before.length + 1)).length = l.length := by
    simp
    omega
  have hrest : (before ++ [0] ++ l.drop (before.length + 1)).drop (before.length + (data.length + 1)) =
      l.drop (before.length + data.length + 1) := by
    rw [← List.drop_drop, List.append_assoc, List.drop_left]
    simp [List.drop_drop]
    congr 1
    omega
  rw [hboth, hfirst]
  unfold overlay
  rw [hlength, List.length_append, List.length_singleton, hrest, List.append_assoc before, List.take_left,
    List.take_of_length_le]
  · simp
  · simp
    omega

theorem overlay_same (h : data.length ≤ l.length) : overlay l 0 data = l ↔ data <+: l := by
  rw [overlay_start h]
  constructor
  · intro heq
    exact ⟨l.drop data.length, heq⟩
  · rintro ⟨rest, rfl⟩
    rw [List.drop_left]

/-! ## The fields, one after another -/

@[simp] theorem yearText_length (year : Nat) : (yearText year).length = 5 := rfl

@[simp] theorem twoDigits_length (v : Nat) : (twoDigits v).length = 2 := rfl

theorem inRange_width (payload : Mem) (fs : List TimeField) (i : Nat) :
    (fieldsText (inRange payload fs i)).length ≤ printWidth fs := by
  induction fs generalizing i with
  | nil => simp [inRange, fieldsText]
  | cons f fs ih =>
    have hwidth : printWidth (f :: fs) = 2 + f.sep.length + printWidth fs := by
      simp [printWidth]
    have hrest := ih (i + 1)
    unfold inRange
    dsimp only
    split
    · exact Nat.zero_le _
    · unfold fieldsText at hrest ⊢
      rw [List.flatMap_cons, List.length_append, List.length_append, twoDigits_length, hwidth]
      dsimp only
      omega

theorem syncFields_reply (payload : Mem) (fs : List TimeField) (g : Globals) (i off : Nat) :
    (syncFields payload fs g i off).reply = .err ↔ (inRange payload fs i).length < fs.length := by
  induction fs generalizing g i off with
  | nil => simp [syncFields, inRange]
  | cons f fs ih =>
    unfold syncFields inRange
    dsimp only
    by_cases hout : f.max < (payload i).toNat
    · rw [if_pos hout, if_pos hout]
      simp
    · rw [if_neg hout, if_neg hout]
      exact (ih _ _ _).trans (Nat.succ_lt_succ_iff.symm)

theorem syncFields_time (payload : Mem) (fs : List TimeField) (g : Globals) (i off : Nat) :
    (syncFields payload fs g i off).globals.w_gw_tim = setFields g.w_gw_tim (inRange payload fs i) := by
  induction fs generalizing g i off with
  | nil => rfl
  | cons f fs ih =>
    unfold syncFields inRange
    dsimp only
    by_cases hout : f.max < (payload i).toNat
    · rw [if_pos hout, if_pos hout]
      rfl
    · rw [if_neg hout, if_neg hout, after_globals, ih]
      rfl

theorem syncFields_text (hroom : before.length + printWidth fs + 1 ≤ l.length)
    (htext : g.g_cSetTime = overlay l 0 (before ++ [0])) (i : Nat) :
    (syncFields payload fs g i before.length).globals.g_cSetTime =
      overlay l 0 (before ++ fieldsText (inRange payload fs i) ++ [0]) := by
  induction fs generalizing g i before with
  | nil => simpa [syncFields, inRange, fieldsText] using htext
  | cons f fs ih =>
    have hwidth : printWidth (f :: fs) = 2 + f.sep.length + printWidth fs := by
      simp [printWidth]
    unfold syncFields inRange
    dsimp only
    by_cases hout : f.max < (payload i).toNat
    · rw [if_pos hout, if_pos hout]
      simpa [fieldsText] using htext
    · rw [if_neg hout, if_neg hout, after_globals]
      generalize (payload i).toNat = ucValue
      have hlength : (twoDigits ucValue ++ f.sep).length = 2 + f.sep.length := by simp
      have hnext : overlay g.g_cSetTime before.length (twoDigits ucValue ++ f.sep ++ [0]) =
          overlay l 0 (before ++ (twoDigits ucValue ++ f.sep) ++ [0]) := by
        rw [htext]
        refine overlay_next ?_
        rw [List.length_append, hlength, List.length_singleton]
        omega
      rw [← List.length_append, ih _ hnext]
      · simp [fieldsText]
      · rw [List.length_append, hlength]
        omega

/-! ## The request -/

/-- With no field out of range all of them are set. -/
theorem inRange_all (h : ¬ (inRange payload timeFields 3).length < timeFields.length) (year : Nat) :
    setFields ⟨0, 0, 0, 0, 0, year⟩ (inRange payload timeFields 3) =
        ⟨(payload 7).toNat, (payload 6).toNat, (payload 5).toNat, (payload 4).toNat, (payload 3).toNat, year⟩ ∧
      (payload 3).toNat ≤ 12 ∧ (payload 4).toNat ≤ 31 ∧ (payload 5).toNat ≤ 24 ∧
      (payload 6).toNat ≤ 59 ∧ (payload 7).toNat ≤ 59 := by
  unfold timeFields at *
  simp only [inRange, Nat.reduceAdd] at *
  split_ifs at * with hmonth hday hhour hminute hsecond
  all_goals simp at h
  refine ⟨rfl, ?_⟩
  omega

theorem year_sets_whole (hyear : yearOf payload < 1980 ∨ 2079 < yearOf payload) :
    SetsWhole g (realtimeSync g payload) ↔ g.w_gw_tim = ⟨0, 0, 0, 0, 0, 0⟩ := by
  unfold realtimeSync
  dsimp only
  rw [if_pos hyear]
  constructor
  · intro h
    exact (h.rejected rfl).1.symm
  · intro h
    exact ⟨fun _ => ⟨h.symm, rfl⟩, fun haccepted => absurd rfl haccepted⟩

/-- What a request with a year in range leaves. -/
theorem realtimeSync_fields (hsize : g.g_cSetTime.length = Object.g_cSetTime.size)
    (hyear : ¬ (yearOf payload < 1980 ∨ 2079 < yearOf payload)) :
    let fields := inRange payload timeFields 3
    let h := realtimeSync g payload
    (h.reply = .err ↔ fields.length < timeFields.length) ∧
      h.globals.w_gw_tim = setFields ⟨0, 0, 0, 0, 0, yearOf payload⟩ fields ∧
      h.globals.g_cSetTime =
        overlay g.g_cSetTime 0 (yearText (yearOf payload) ++ fieldsText fields ++ [0]) := by
  intro fields h
  unfold h realtimeSync
  dsimp only
  rw [if_neg hyear]
  refine ⟨syncFields_reply payload timeFields _ 3 5, ?_, ?_⟩
  · rw [after_globals, syncFields_time]
    rfl
  · have hroom : (yearText (yearOf payload)).length + printWidth timeFields + 1 ≤ g.g_cSetTime.length := by
      rw [hsize, yearText_length]
      decide
    rw [after_globals]
    exact syncFields_text hroom rfl 3

theorem text_fits (hsize : g.g_cSetTime.length = Object.g_cSetTime.size) (year : Nat) :
    (yearText year ++ fieldsText (inRange payload timeFields 3) ++ [0]).length ≤ g.g_cSetTime.length := by
  have hwidth := inRange_width payload timeFields 3
  have htotal : printWidth timeFields = 14 := rfl
  have hobject : Object.g_cSetTime.size = 20 := rfl
  rw [List.length_append, List.length_append, yearText_length, hsize, List.length_singleton]
  omega

theorem fields_set_whole (hsize : g.g_cSetTime.length = Object.g_cSetTime.size)
    (hyear : ¬ (yearOf payload < 1980 ∨ 2079 < yearOf payload)) :
    SetsWhole g (realtimeSync g payload) ↔
      if (inRange payload timeFields 3).length < timeFields.length then
        g.w_gw_tim = setFields ⟨0, 0, 0, 0, 0, yearOf payload⟩ (inRange payload timeFields 3) ∧
          yearText (yearOf payload) ++ fieldsText (inRange payload timeFields 3) ++ [0] <+: g.g_cSetTime
      else payload 3 ≠ 0 ∧ payload 4 ≠ 0 ∧ payload 5 ≠ 24 := by
  obtain ⟨hreply, htime, htext⟩ := realtimeSync_fields hsize hyear
  have hfits : (yearText (yearOf payload) ++ fieldsText (inRange payload timeFields 3) ++ [0]).length ≤
      g.g_cSetTime.length := text_fits hsize (yearOf payload)
  have hsame := overlay_same hfits
  split
  · rename_i hout
    have herr := hreply.mpr hout
    rw [← hsame]
    constructor
    · intro h
      obtain ⟨htime', htext'⟩ := h.rejected herr
      exact ⟨htime'.symm.trans htime, htext.symm.trans htext'⟩
    · rintro ⟨htime', htext'⟩
      exact ⟨fun _ => ⟨htime.trans htime'.symm, htext.trans htext'⟩, fun haccepted => absurd herr haccepted⟩
  · rename_i hin
    have haccepted : (realtimeSync g payload).reply ≠ .err := fun herr => hin (hreply.mp herr)
    obtain ⟨hset, hmonth, hday, hhour, hminute, hsecond⟩ := inRange_all hin (yearOf payload)
    rw [hset] at htime
    simp only [ne_eq, ← UInt8.toNat_inj]
    constructor
    · intro h
      have hvalid := h.accepted haccepted
      rw [htime] at hvalid
      obtain ⟨hmonth', hday', hhour', -, -⟩ := hvalid
      refine ⟨?_, ?_, ?_⟩
      · exact Nat.ne_of_gt hmonth'.1
      · exact Nat.ne_of_gt hday'.1
      · exact Nat.ne_of_lt (Nat.lt_succ_of_le hhour')
    · rintro ⟨hmonth', hday', hhour'⟩
      refine ⟨fun herr => absurd herr haccepted, fun _ => ?_⟩
      rw [htime]
      exact ⟨⟨Nat.pos_of_ne_zero hmonth', hmonth⟩, ⟨Nat.pos_of_ne_zero hday', hday⟩,
        Nat.le_of_lt_succ (Nat.lt_of_le_of_ne hhour hhour'), hminute, hsecond⟩

theorem realtimeSync_sets_whole (hsize : g.g_cSetTime.length = Object.g_cSetTime.size) :
    SetsWhole g (realtimeSync g payload) ↔ Settable g payload := by
  unfold Settable
  dsimp only
  split
  · rename_i hyear
    exact year_sets_whole hyear
  · rename_i hyear
    exact fields_set_whole hsize hyear

/-- Where a time is set, it is set whole and is a time that a clock can show, or nothing is
changed, if the request suits the time that was set before. -/
theorem a_time_is_set_whole_iff_it_is_settable (env : RequestEnv) (g : Globals)
    (pRequest : GWTT_OAM_MESSAGE_NODE) (payload : Mem) (hopcode : pRequest.GwOpcode = EQU_DEVICE_INFO_REQ)
    (hpayload : pRequest.pPayLoad ≠ none) (htype : payload 0 = ONU_REALTIME_SYNC)
    (hsize : g.g_cSetTime.length = Object.g_cSetTime.size) :
    SetsWhole g (GwOamInformationRequest env g pRequest payload) ↔ Settable g payload := by
  have hget : ONU_REALTIME_SYNC ≠ ONU_INFOR_GET := by decide
  have hset : ONU_REALTIME_SYNC ≠ ONU_INFOR_SET := by decide
  rw [← realtimeSync_sets_whole hsize]
  unfold GwOamInformationRequest
  rw [if_neg (not_not_intro hopcode), if_neg hpayload, htype]
  dsimp only
  rw [if_neg hget, if_neg hset, if_pos rfl]
  constructor
  · rintro ⟨hrejected, haccepted⟩
    exact ⟨hrejected, haccepted⟩
  · rintro ⟨hrejected, haccepted⟩
    exact ⟨hrejected, haccepted⟩

/-- 2024, and then the month and the rest. -/
def timeRequest (rest : List UInt8) : List UInt8 := [ONU_REALTIME_SYNC, 7, 232] ++ rest

theorem a_time_in_may_is_set_whole :
    SetsWhole Globals.init (GwOamInformationRequest noTable Globals.init
        (requestNode 8 (timeRequest [5, 6, 7, 8, 9])) (memory (timeRequest [5, 6, 7, 8, 9]))) ↔
      Settable Globals.init (memory (timeRequest [5, 6, 7, 8, 9])) :=
  a_time_is_set_whole_iff_it_is_settable noTable Globals.init (requestNode 8 (timeRequest [5, 6, 7, 8, 9]))
    (memory (timeRequest [5, 6, 7, 8, 9])) rfl (Option.some_ne_none _) rfl rfl

/-- A month 13 is turned down, and the time that was set is gone. -/
theorem a_month_13_clears_the_time :
    ¬ SetsWhole { Globals.init with w_gw_tim := ⟨9, 8, 7, 6, 5, 2024⟩ }
      (GwOamInformationRequest noTable { Globals.init with w_gw_tim := ⟨9, 8, 7, 6, 5, 2024⟩ }
        (requestNode 8 (timeRequest [13, 6, 7, 8, 9])) (memory (timeRequest [13, 6, 7, 8, 9]))) := by
  intro h
  have hcleared := (h.rejected (by decide)).1
  revert hcleared
  decide

end

end gwdonu.oam
