-- The law of the information requests: which messages the handler takes apart
-- inside its buffers, and after which ones the device name is still a string.
import Gwdonu.OamHandle
import Gwdonu.OamRequest

namespace gwdonu.oam

open runs

/-! ## Staying inside -/

/-- `device_name` is a string: there is a zero in it. -/
def Terminated (g : Globals) : Prop := 0 ∈ g.device_name

def Handling.Inside (h : Handling) (RevPktLen : Nat) : Prop :=
  ∀ a ∈ h.accesses, a.InBounds RevPktLen

/-- The handling reads inside the payload, writes inside the objects, and
leaves the device name a string. -/
def StaysInside (h : Handling) (RevPktLen : Nat) : Prop :=
  h.Inside RevPktLen ∧ Terminated h.globals

instance (g : Globals) : Decidable (Terminated g) := inferInstanceAs (Decidable (0 ∈ _))

instance (h : Handling) (r : Nat) : Decidable (h.Inside r) :=
  inferInstanceAs (Decidable (∀ a ∈ h.accesses, a.InBounds r))

instance (h : Handling) (r : Nat) : Decidable (StaysInside h r) :=
  inferInstanceAs (Decidable (_ ∧ _))

@[simp] theorem read_inBounds (off n r : Nat) :
    (Access.read off n).InBounds r ↔ off + n ≤ r := Iff.rfl

@[simp] theorem write_inBounds (o : Object) (off n r : Nat) :
    (Access.write o off n).InBounds r ↔ off + n ≤ o.size := Iff.rfl

@[simp] theorem after_inside (h : Handling) (before : List Access) (r : Nat) :
    (h.after before).Inside r ↔ (∀ a ∈ before, a.InBounds r) ∧ h.Inside r := by
  simp [Handling.Inside, Handling.after, or_imp, forall_and]

@[simp] theorem after_globals (h : Handling) (before : List Access) :
    (h.after before).globals = h.globals := rfl

theorem inside_nil (g : Globals) (reply : Reply) (r : Nat) : Handling.Inside ⟨g, [], reply⟩ r :=
  nofun

/-! ## The device name -/

/-- The three length bytes of an `ONU_INFOR_SET` lie in the message. -/
def StringsFit (payload : Mem) (RevPktLen : Nat) : Prop :=
  3 + (payload 1).toNat + (payload (2 + (payload 1).toNat)).toNat < RevPktLen

/-- The name is shorter than its field, or a zero ends it there. -/
def NameEnds (payload : Mem) : Prop :=
  (payload 1).toNat < 132 ∨ ∃ k < 132, payload (2 + k) = 0

instance (payload : Mem) : Decidable (NameEnds payload) := inferInstanceAs (Decidable (_ ∨ _))

theorem newName_eq (payload : Mem) {n : Nat} (h : n ≤ Object.device_name.size) :
    newName payload n =
      bytes payload 2 n ++ List.replicate (Object.device_name.size - n) 0 := by
  unfold newName overlay
  rw [List.take_zero, List.nil_append, List.drop_replicate, bytes_length, Nat.zero_add]
  apply List.take_of_length_le
  simp only [List.length_append, bytes_length, List.length_replicate]
  omega

theorem newName_terminated (payload : Mem) {n : Nat} (h : n ≤ Object.device_name.size) :
    0 ∈ newName payload n ↔
      n < Object.device_name.size ∨ ∃ k < n, payload (2 + k) = 0 := by
  rw [newName_eq payload h]
  simp only [List.mem_append, bytes, List.mem_map, List.mem_range, List.mem_replicate]
  refine ⟨?_, ?_⟩
  · rintro (⟨k, hk, hz⟩ | ⟨hne, -⟩)
    · exact Or.inr ⟨k, hk, hz⟩
    · exact Or.inl (by omega)
  · rintro (hlt | ⟨k, hk, hz⟩)
    · exact Or.inr ⟨by omega, trivial⟩
    · exact Or.inl ⟨k, hk, hz⟩

theorem inforSet_inside (g : Globals) (payload : Mem) (r : Nat) :
    (inforSet g payload).Inside r ↔ StringsFit payload r := by
  unfold StringsFit
  refine ⟨?_, ?_⟩
  · intro h
    have := h (.read (3 + (payload 1).toNat + (payload (2 + (payload 1).toNat)).toNat) 1)
      (by simp [inforSet])
    rw [read_inBounds] at this
    omega
  · intro h a ha
    have hanswers (l : List Nat) (p : Nat → Bool) (hl : l.length = 3) (k : Nat)
        (hk : k < (l.filter p).length) : 1 + k + 1 ≤ 1024 := by
      have := List.length_filter_le p l
      omega
    simp only [inforSet, List.mem_append, List.mem_map, List.mem_range] at ha
    rcases ha with ((ha | ha) | ha) | ⟨k, hk, rfl⟩
    · simp only [List.mem_cons, List.not_mem_nil, or_false] at ha
      rcases ha with rfl | rfl
      · simp [Object.size]
      · rw [read_inBounds]
        omega
    · split at ha
      · simp only [List.mem_cons, List.not_mem_nil, or_false] at ha
        rcases ha with rfl | rfl | rfl
        · simp
        · rw [read_inBounds]
          split <;> omega
        · rw [write_inBounds]
          split <;> omega
      · simp at ha
    · simp only [List.mem_cons, List.not_mem_nil, or_false] at ha
      rcases ha with rfl | rfl
      all_goals
        rw [read_inBounds]
        omega
    · exact hanswers _ _ rfl k hk

theorem inforSet_terminated (g : Globals) (payload : Mem) :
    Terminated (inforSet g payload).globals ↔
      if payload 1 = 0 then Terminated g else NameEnds payload := by
  unfold inforSet Terminated NameEnds
  dsimp only
  by_cases h0 : payload 1 = 0
  · rw [if_pos h0, if_neg (by simp [h0])]
  · rw [if_neg h0, if_pos (by simpa [← UInt8.toNat_inj] using h0)]
    dsimp only
    by_cases hlong : Object.device_name.size < (payload 1).toNat
    · rw [if_pos hlong, newName_terminated payload (Nat.le_refl _)]
      simp only [Object.size] at hlong ⊢
      simp only [Nat.lt_irrefl, false_or]
      refine ⟨Or.inr, ?_⟩
      rintro (h | h)
      · omega
      · exact h
    · rw [if_neg hlong, newName_terminated payload (Nat.not_lt.mp hlong)]
      simp only [Object.size] at hlong ⊢
      refine ⟨?_, ?_⟩
      · rintro (h | ⟨k, hk, hz⟩)
        · exact Or.inl h
        · exact Or.inr ⟨k, by omega, hz⟩
      · rintro (h | ⟨k, hk, hz⟩)
        · exact Or.inl h
        · by_cases hlt : (payload 1).toNat < 132
          · exact Or.inl hlt
          · exact Or.inr ⟨k, by omega, hz⟩

/-! ## The time -/

/-- Whether the fields before field `k`, from payload index `i` on, are in range. -/
def Reaches (payload : Mem) (fs : List TimeField) (i k : Nat) : Prop :=
  ∀ j < k, ∀ f ∈ fs[j]?, (payload (i + j)).toNat ≤ f.max

/-- The year lies in the message, and so does each field after it up to the
first one that is out of range. -/
def TimeFits (payload : Mem) (RevPktLen : Nat) : Prop :=
  2 < RevPktLen ∧ (1980 ≤ yearOf payload ∧ yearOf payload ≤ 2079 →
    ∀ k < timeFields.length, Reaches payload timeFields 3 k → 3 + k < RevPktLen)

/-- How many characters the fields take. -/
def printWidth (fs : List TimeField) : Nat := (fs.map (fun f => 2 + f.sep.length)).sum

theorem syncFields_globals (payload : Mem) (fs : List TimeField) (g : Globals) (i off : Nat) :
    (syncFields payload fs g i off).globals.device_name = g.device_name := by
  induction fs generalizing g i off with
  | nil => rfl
  | cons f fs ih =>
    unfold syncFields
    dsimp only
    split
    · rfl
    · rw [after_globals, ih]
      rfl

theorem reaches_cons (payload : Mem) (f : TimeField) (fs : List TimeField) (i k : Nat) :
    Reaches payload (f :: fs) i (k + 1) ↔
      (payload i).toNat ≤ f.max ∧ Reaches payload fs (i + 1) k := by
  unfold Reaches
  refine ⟨?_, ?_⟩
  · intro h
    refine ⟨h 0 (by omega) f rfl, ?_⟩
    intro j hj f' hf'
    have := h (j + 1) (by omega) f' hf'
    rwa [show i + (j + 1) = i + 1 + j by omega] at this
  · rintro ⟨h0, h⟩ j hj f' hf'
    cases j with
    | zero =>
      obtain rfl := Option.some.inj hf'
      exact h0
    | succ j =>
      rw [show i + (j + 1) = i + 1 + j by omega]
      exact h j (by omega) f' hf'

/-- The text of the fields fits into what is left of `g_cSetTime`; the fields
that are read are those up to the first one out of range. -/
theorem syncFields_inside (payload : Mem) (r : Nat) (fs : List TimeField) (g : Globals)
    (i off : Nat) (hroom : off + printWidth fs + 1 ≤ Object.g_cSetTime.size) :
    (syncFields payload fs g i off).Inside r ↔
      ∀ k < fs.length, Reaches payload fs i k → i + k < r := by
  induction fs generalizing g i off with
  | nil => exact iff_of_true (inside_nil _ _ _) nofun
  | cons f fs ih =>
    have hwidth : printWidth (f :: fs) = 2 + f.sep.length + printWidth fs := by
      simp [printWidth]
    have hfirst : Reaches payload (f :: fs) i 0 := nofun
    unfold syncFields
    dsimp only
    by_cases hout : f.max < (payload i).toNat
    · rw [if_pos hout]
      refine ⟨?_, ?_⟩
      · intro h k hk hreach
        have hread := h (.read i 1) (by simp)
        cases k with
        | zero => exact hread
        | succ k => exact absurd ((reaches_cons _ _ _ _ _).mp hreach).1 (Nat.not_le.mpr hout)
      · intro h a ha
        obtain rfl := List.mem_singleton.mp ha
        exact h 0 (by simp) hfirst
    · have hlen : (twoDigits (payload i).toNat ++ f.sep).length = 2 + f.sep.length := by
        simp [twoDigits]
        omega
      rw [if_neg hout, after_inside, hlen, ih _ _ _ (by omega)]
      refine ⟨?_, ?_⟩
      · rintro ⟨hnow, hlater⟩ k hk hreach
        cases k with
        | zero => exact hnow (.read i 1) (by simp)
        | succ k =>
          have := hlater k (by simpa using hk) ((reaches_cons _ _ _ _ _).mp hreach).2
          omega
      · intro h
        refine ⟨?_, ?_⟩
        · intro a ha
          simp only [List.mem_cons, List.not_mem_nil, or_false] at ha
          rcases ha with rfl | rfl | rfl
          · exact h 0 (by simp) hfirst
          · rw [write_inBounds]
            omega
          · simp [Object.size]
        · intro k hk hreach
          have := h (k + 1) (by simpa using hk)
            ((reaches_cons _ _ _ _ _).mpr ⟨Nat.not_lt.mp hout, hreach⟩)
          omega

theorem realtimeSync_inside (g : Globals) (payload : Mem) (r : Nat) :
    (realtimeSync g payload).Inside r ↔ TimeFits payload r := by
  unfold realtimeSync TimeFits
  dsimp only
  by_cases hyear : yearOf payload < 1980 ∨ 2079 < yearOf payload
  · rw [if_pos hyear]
    simp only [Handling.Inside, List.forall_mem_cons, write_inBounds, read_inBounds]
    simp only [Object.size, List.not_mem_nil, false_implies, implies_true, and_true]
    have hout : ¬ (1980 ≤ yearOf payload ∧ yearOf payload ≤ 2079) := by omega
    simp only [hout, false_implies, and_true]
    omega
  · rw [if_neg hyear, after_inside, syncFields_inside _ _ _ _ _ _ (by decide)]
    simp only [List.cons_append, List.nil_append, List.forall_mem_cons, write_inBounds,
      read_inBounds]
    simp only [Object.size, List.not_mem_nil, false_implies, implies_true, and_true]
    have hin : 1980 ≤ yearOf payload ∧ yearOf payload ≤ 2079 := by omega
    simp only [hin, and_self, true_implies]
    refine and_congr_left fun _ => ?_
    omega

theorem realtimeSync_name (g : Globals) (payload : Mem) :
    (realtimeSync g payload).globals.device_name = g.device_name := by
  unfold realtimeSync
  dsimp only
  split
  · rfl
  · rw [after_globals, syncFields_globals]
    rfl

/-! ## The loop detection -/

theorem lpbDetect_inside (ntohs : UInt16 → UInt16) (g : Globals) (payload : Mem) (n : Nat) :
    (lpbDetect ntohs g payload n).Inside n ↔ n ≤ OAM_ONU_LPB_DETECT_FRAME_size := by
  simp [Handling.Inside, lpbDetect, Object.size]

/-! ## The address search -/

/-- The count and the addresses lie in the message, when the handler gets as
far as to read them. -/
def AddressesFit (mal : Bool) (payload : Mem) (RevPktLen : Nat) : Prop :=
  mal = true → 3 < RevPktLen ∧
    ((payload 3).toNat ≤ USR_MAC_REQUEST_MAX →
      userMacPdu_size + (payload 3).toNat * USR_MAC_LEN ≤ RevPktLen)

/-- A pass keeps the number of addresses, and never has more than 32 answers;
it is not done before it has that many. -/
theorem searchPass_counts (located : List UInt8 → Option (Vector UInt8 15)) (macNum : Nat)
    (info : List (List UInt8)) (i : Nat) (answers : List (List UInt8))
    (h : answers.length < USR_MAC_RESPONS_MAC_MAX) :
    (searchPass located macNum info i answers).info.length = info.length ∧
      (searchPass located macNum info i answers).answers.length ≤ USR_MAC_RESPONS_MAC_MAX ∧
      ((searchPass located macNum info i answers).done = false →
        (searchPass located macNum info i answers).answers.length < USR_MAC_RESPONS_MAC_MAX) := by
  induction info generalizing i answers with
  | nil => exact ⟨rfl, Nat.le_of_lt h, fun _ => h⟩
  | cons mac macs ih =>
    unfold searchPass
    split
    · obtain ⟨hinfo, hle, hlt⟩ := ih (i + 1) answers h
      exact ⟨by simp [hinfo], hle, hlt⟩
    · split
      · obtain ⟨hinfo, hle, hlt⟩ := ih (i + 1) answers h
        exact ⟨by simp [hinfo], hle, hlt⟩
      · rename_i found _
        dsimp only
        split
        · refine ⟨by simp, ?_, nofun⟩
          simp only [List.length_append, List.length_singleton]
          omega
        · rename_i hmore
          obtain ⟨hinfo, hle, hlt⟩ := ih (i + 1) (answers ++ [mac ++ found.toList]) (by omega)
          exact ⟨by simp [hinfo], hle, hlt⟩

/-- Each answer goes to a free place of `responseInfo`, and each address that
is cleared is one of `info`. -/
theorem searchPass_inside (located : List UInt8 → Option (Vector UInt8 15)) (macNum r : Nat)
    (info : List (List UInt8)) (i : Nat) (answers : List (List UInt8))
    (h : answers.length < USR_MAC_RESPONS_MAC_MAX) (hi : i + info.length ≤ USR_MAC_REQUEST_MAX) :
    ∀ a ∈ (searchPass located macNum info i answers).accesses, a.InBounds r := by
  induction info generalizing i answers with
  | nil => simp [searchPass]
  | cons mac macs ih =>
    rw [List.length_cons] at hi
    unfold searchPass
    split
    · exact ih (i + 1) answers h (by omega)
    · split
      · exact ih (i + 1) answers h (by omega)
      · rename_i found _
        have hwritten : ∀ a ∈ [Access.write .responseInfo (answers.length * userMacResponse_size)
            userMacResponse_size, .write .info (i * USR_MAC_LEN) USR_MAC_LEN], a.InBounds r := by
          simp only [List.forall_mem_cons, write_inBounds, Object.size, userMacResponse_size,
            USR_MAC_LEN, USR_MAC_REQUEST_MAX, USR_MAC_RESPONS_MAC_MAX] at h hi ⊢
          simp only [List.not_mem_nil, false_implies, implies_true, and_true]
          omega
        dsimp only
        split
        · exact hwritten
        · rename_i hmore
          intro a ha
          rcases List.mem_append.mp ha with ha | ha
          · exact hwritten a ha
          · exact ih (i + 1) (answers ++ [mac ++ found.toList]) (by omega) (by omega) a ha

theorem searchEnd_inside (g : Globals) (answers : List (List UInt8)) (r : Nat)
    (h : answers.length ≤ USR_MAC_RESPONS_MAC_MAX) : (searchEnd g answers).Inside r := by
  unfold searchEnd
  split
  · simp only [Handling.Inside, List.forall_mem_cons, write_inBounds, Object.size,
      userMacPdu_size, userMacResponse_size, USR_MAC_RESPONS_MAC_MAX] at h ⊢
    simp only [List.not_mem_nil, false_implies, implies_true, and_true]
    omega
  · exact inside_nil _ _ _

theorem searchEnd_globals (g : Globals) (answers : List (List UInt8)) :
    (searchEnd g answers).globals = g := by
  unfold searchEnd
  split <;> rfl

/-- Whatever the forwarding table holds, the search stays inside. -/
theorem searchLoop_inside (g : Globals) (macNum r : Nat) (batches : List Batch)
    (info answers : List (List UInt8)) (h : answers.length < USR_MAC_RESPONS_MAC_MAX)
    (hi : info.length ≤ USR_MAC_REQUEST_MAX) :
    (searchLoop g macNum batches info answers).Inside r := by
  induction batches generalizing info answers with
  | nil => exact inside_nil _ _ _
  | cons batch batches ih =>
    unfold searchLoop
    split
    · exact inside_nil _ _ _
    · split
      · exact searchEnd_inside _ _ _ (Nat.le_of_lt h)
      · obtain ⟨hinfo, hle, hlt⟩ := searchPass_counts batch.located macNum info 0 answers h
        have hpass := searchPass_inside batch.located macNum r info 0 answers h (by omega)
        dsimp only
        split
        · exact (after_inside _ _ _).mpr ⟨hpass, searchEnd_inside _ _ _ hle⟩
        · rename_i hdone
          exact (after_inside _ _ _).mpr
            ⟨hpass, ih _ _ (hlt (by simpa using hdone)) (by omega)⟩

theorem searchLoop_globals (g : Globals) (macNum : Nat) (batches : List Batch)
    (info answers : List (List UInt8)) :
    (searchLoop g macNum batches info answers).globals = g := by
  induction batches generalizing info answers with
  | nil => rfl
  | cons batch batches ih =>
    unfold searchLoop
    split
    · rfl
    · split
      · exact searchEnd_globals g answers
      · dsimp only
        split
        · exact searchEnd_globals g _
        · exact ih _ _

theorem locateUser_inside (mal : Bool) (batches : List Batch) (g : Globals) (payload : Mem)
    (r : Nat) :
    (locateUser mal batches g payload).Inside r ↔ AddressesFit mal payload r := by
  unfold locateUser AddressesFit
  cases mal with
  | false => exact iff_of_true (inside_nil _ _ _) nofun
  | true =>
    dsimp only
    rw [if_neg (by simp), imp_iff_right rfl]
    by_cases hmany : USR_MAC_REQUEST_MAX < (payload 3).toNat
    · rw [if_pos hmany]
      simp only [Nat.not_le.mpr hmany, false_implies, and_true]
      simp [Handling.Inside]
      omega
    · have hle := Nat.not_lt.mp hmany
      rw [if_neg hmany, after_inside, List.forall_mem_cons, read_inBounds]
      simp only [hle, true_implies]
      have hsearch := searchLoop_inside g (payload 3).toNat r batches
        ((List.range (payload 3).toNat).map (fun requestNum =>
          bytes payload (userMacPdu_size + requestNum * USR_MAC_LEN) USR_MAC_LEN))
        [] (by decide) (by simpa using hle)
      refine ⟨?_, ?_⟩
      · rintro ⟨⟨hcount, hcopies⟩, -⟩
        refine ⟨hcount, ?_⟩
        -- the last address reaches furthest
        rcases Nat.eq_zero_or_pos (payload 3).toNat with h0 | hpos
        · simp only [userMacPdu_size, h0]
          omega
        · have := hcopies (.read (userMacPdu_size + ((payload 3).toNat - 1) * USR_MAC_LEN)
            USR_MAC_LEN) (List.mem_flatMap.mpr
              ⟨(payload 3).toNat - 1, List.mem_range.mpr (by omega), List.mem_cons_self⟩)
          simp only [read_inBounds, USR_MAC_LEN] at this ⊢
          omega
      · rintro ⟨hcount, hfit⟩
        refine ⟨⟨hcount, ?_⟩, hsearch⟩
        intro a ha
        obtain ⟨k, hk, ha⟩ := List.mem_flatMap.mp ha
        have hlt := List.mem_range.mp hk
        simp only [List.mem_cons, List.not_mem_nil, or_false] at ha
        simp only [USR_MAC_REQUEST_MAX, USR_MAC_LEN] at hle hfit
        rcases ha with rfl | rfl
        · simp only [read_inBounds, USR_MAC_LEN]
          omega
        · simp only [write_inBounds, Object.size, USR_MAC_REQUEST_MAX, USR_MAC_LEN]
          omega

theorem locateUser_globals (mal : Bool) (batches : List Batch) (g : Globals) (payload : Mem) :
    (locateUser mal batches g payload).globals = g := by
  unfold locateUser
  split
  · rfl
  · dsimp only
    split
    · rfl
    · exact searchLoop_globals _ _ _ _ _

/-! ## The whole handler -/

/-- The handler gets as far as the type of the request. -/
def Handles (p : GWTT_OAM_MESSAGE_NODE) : Prop :=
  p.GwOpcode = EQU_DEVICE_INFO_REQ ∧ p.pPayLoad ≠ none

instance (p : GWTT_OAM_MESSAGE_NODE) : Decidable (Handles p) :=
  inferInstanceAs (Decidable (_ ∧ _))

/-- What each type of request needs. -/
def RequestFits (env : RequestEnv) (p : GWTT_OAM_MESSAGE_NODE) (payload : Mem) : Prop :=
  if payload 0 = ONU_INFOR_GET then env.report.length ≤ Object.Response.size
  else if payload 0 = ONU_INFOR_SET then StringsFit payload p.RevPktLen
  else if payload 0 = ONU_REALTIME_SYNC then TimeFits payload p.RevPktLen
  else if payload 0 = ACCESS_IDENTIFIER then True
  else if payload 0 = ONU_LPB_DETECT then p.RevPktLen ≤ OAM_ONU_LPB_DETECT_FRAME_size
  else if payload 0 = ONU_LOCATE_USER then AddressesFit env.mal payload p.RevPktLen
  else True

/-- A request that sets the name sets one that ends; before any other, the name
that is there ends. -/
def NameStays (g : Globals) (p : GWTT_OAM_MESSAGE_NODE) (payload : Mem) : Prop :=
  if Handles p ∧ payload 0 = ONU_INFOR_SET ∧ payload 1 ≠ 0 then NameEnds payload
  else Terminated g

/-- A delivered message with a payload is not empty. -/
theorem delivered_payload (ntohs : UInt16 → UInt16) {st : Oam} (h : st.Wf) {mal : Malloc} {m : Mem}
    {p : GWTT_OAM_MESSAGE_NODE} (hd : (CommOnuMsgReveive ntohs mal st m).delivered = some p)
    (hp : p.pPayLoad ≠ none) : 0 < p.RevPktLen := by
  obtain ⟨hmem, hwhole, -⟩ := receive_delivered ntohs hd
  have hblock := (wf_receive ntohs h mal m).block p hmem
  rw [hwhole]
  by_contra h0
  rw [show p.WholePktLen = 0 by omega] at hblock
  exact hp (by simpa [blockLength] using hblock)

theorem handles_or (p : GWTT_OAM_MESSAGE_NODE) (env : RequestEnv) (g : Globals) (payload : Mem) :
    Handles p ∨ ¬ Handles p ∧ GwOamInformationRequest env g p payload = ⟨g, [], .err⟩ := by
  unfold GwOamInformationRequest Handles
  by_cases hop : p.GwOpcode = EQU_DEVICE_INFO_REQ
  · by_cases hnone : p.pPayLoad = none
    · exact Or.inr ⟨fun h => h.2 hnone, by rw [if_neg (not_not.mpr hop), if_pos hnone]⟩
    · exact Or.inl ⟨hop, hnone⟩
  · exact Or.inr ⟨fun h => hop h.1, by rw [if_pos hop]⟩

theorem request_inside (env : RequestEnv) (g : Globals) {p : GWTT_OAM_MESSAGE_NODE}
    (payload : Mem) (hwhole : p.RevPktLen = p.WholePktLen)
    (hp : p.pPayLoad ≠ none → 0 < p.RevPktLen) :
    (GwOamInformationRequest env g p payload).Inside p.RevPktLen ↔
      (Handles p → RequestFits env p payload) := by
  rcases handles_or p env g payload with hh | ⟨hh, herr⟩
  · have htype : ∀ a ∈ [Access.read 0 1], a.InBounds p.RevPktLen := by
      have := hp hh.2
      simp only [List.forall_mem_singleton, read_inBounds]
      omega
    unfold GwOamInformationRequest RequestFits
    rw [if_neg (not_not.mpr hh.1), if_neg hh.2]
    dsimp only
    rw [after_inside, and_iff_right htype, imp_iff_right hh]
    split_ifs
    · simp [Handling.Inside]
    · exact inforSet_inside g payload _
    · exact realtimeSync_inside g payload _
    · exact iff_of_true (inside_nil _ _ _) trivial
    · rw [← hwhole]
      exact lpbDetect_inside env.ntohs g payload _
    · exact locateUser_inside env.mal env.batches g payload _
    · exact iff_of_true (inside_nil _ _ _) trivial
  · rw [herr]
    exact iff_of_true (inside_nil _ _ _) (fun h => absurd h hh)

/-- Only `ONU_INFOR_SET` touches the name. -/
theorem request_terminated (env : RequestEnv) (g : Globals) (p : GWTT_OAM_MESSAGE_NODE)
    (payload : Mem) :
    Terminated (GwOamInformationRequest env g p payload).globals ↔ NameStays g p payload := by
  unfold NameStays
  rcases handles_or p env g payload with hh | ⟨hh, herr⟩
  · unfold GwOamInformationRequest
    rw [if_neg (not_not.mpr hh.1), if_neg hh.2]
    dsimp only
    rw [after_globals]
    by_cases hset : payload 0 = ONU_INFOR_SET
    · rw [if_neg (by rw [hset]; decide), if_pos hset, inforSet_terminated]
      by_cases h0 : payload 1 = 0
      · rw [if_pos h0, if_neg (fun h => h.2.2 h0)]
      · rw [if_neg h0, if_pos ⟨hh, hset, h0⟩]
    · have hname : ¬ (Handles p ∧ payload 0 = ONU_INFOR_SET ∧ payload 1 ≠ 0) :=
        fun h => hset h.2.1
      rw [if_neg hname, if_neg hset]
      unfold Terminated
      split_ifs
      · rfl
      · rw [realtimeSync_name]
      · rfl
      · rfl
      · rw [locateUser_globals]
      · rfl
  · rw [herr, if_neg (fun h => hh h.1)]

/-- A delivered message is handled inside the buffers, and leaves the device
name a string, exactly when it holds what its type needs and sets no name that
fills its field. -/
theorem an_information_request_stays_inside_when_it_fits (ntohs : UInt16 → UInt16)
    (es : List OnuEvent) (mal : Malloc) (m : Mem) (p : GWTT_OAM_MESSAGE_NODE)
    (hd : (CommOnuMsgReveive ntohs mal (run (Onu.event ntohs) Onu.init es).messages m).delivered =
      some p) (env : RequestEnv) (g : Globals) (payload : Mem) :
    StaysInside (GwOamInformationRequest env g p payload) p.RevPktLen ↔
      (Handles p → RequestFits env p payload) ∧ NameStays g p payload := by
  have hw := (wf_onu_run ntohs es).messages
  exact and_congr
    (request_inside env g payload (receive_delivered ntohs hd).2.1 (delivered_payload ntohs hw hd))
    (request_terminated env g p payload)

/-! ## A name, and a frame that is one byte too long -/

/-- The globals as the program starts. -/
def Globals.init : Globals where
  device_name := List.replicate 132 0
  g_cSetTime := List.replicate 20 0
  w_gw_tim := ⟨0, 0, 0, 0, 0, 0⟩
  tframe := List.replicate 19 0
  oam_onu_lpb_detect_frame := ⟨0, List.replicate 6 0, 0, 0, 0, 0⟩

def noTable : RequestEnv := ⟨gwd_htons, [], true, []⟩

/-- The node of a request that came in one frame. -/
def requestNode (serial : UInt32) (request : List UInt8) : GWTT_OAM_MESSAGE_NODE where
  addr := 1
  GwOpcode := EQU_DEVICE_INFO_REQ
  SendSerNo := serial
  WholePktLen := request.length
  RevPktLen := request.length
  SessionID := Vector.replicate 8 0
  TimerID := 0
  pPayLoad := some (request ++ [0])

/-- Sets the name to three letters, and neither of the other two strings. -/
def nameRequest : List UInt8 := [ONU_INFOR_SET, 3, 0x6f, 0x6e, 0x75, 0, 0]

def nameFrame : Mem := oamFrame EQU_DEVICE_INFO_REQ 8 7 0 (Vector.replicate 8 0) nameRequest

theorem a_short_name_stays_inside :
    StaysInside (GwOamInformationRequest noTable Globals.init (requestNode 8 nameRequest)
        (memory nameRequest)) 7 ↔
      (Handles (requestNode 8 nameRequest) →
        RequestFits noTable (requestNode 8 nameRequest) (memory nameRequest)) ∧
      NameStays Globals.init (requestNode 8 nameRequest) (memory nameRequest) :=
  an_information_request_stays_inside_when_it_fits gwd_htons [] plenty nameFrame
    (requestNode 8 nameRequest) (by decide +kernel) noTable Globals.init (memory nameRequest)

/-- A loop detection of 20 bytes, for a frame of 19. -/
def longDetection : List UInt8 := ONU_LPB_DETECT :: List.replicate 19 0

def longDetectionFrame : Mem :=
  oamFrame EQU_DEVICE_INFO_REQ 9 20 0 (Vector.replicate 8 0) longDetection

theorem a_long_loop_detection_writes_outside :
    ¬ ∀ p, (CommOnuMsgReveive gwd_htons plenty Onu.init.messages longDetectionFrame).delivered =
        some p →
      StaysInside (GwOamInformationRequest noTable Globals.init p (memory longDetection))
        p.RevPktLen := by
  intro h
  exact absurd (h (requestNode 9 longDetection) (by decide +kernel)) (by decide +kernel)

end gwdonu.oam
