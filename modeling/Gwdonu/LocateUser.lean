-- The search for user addresses: the forwarding table is read in batches, each of
-- which begins in VLAN 0 behind the last address of the one before. When that finds
-- every entry once and every address that is there.
import Gwdonu.Lib.Cursor
import Gwdonu.OamRequest
import Mathlib.Data.List.Lex
import Mathlib.Data.List.Perm.Subperm
import Mathlib.Data.Prod.Lex

namespace gwdonu.oam

open cursor

/-! ## The program -/

def USR_MAC_MAX_T : Nat := 256
def PHY_PORT_MAX : Nat := 26
def NUM_PORTS_PER_SYSTEM : Nat := 26
def NUM_PORTS_MINIMUM_SYSYTEM : Nat := 1
def HAVEMAC : UInt32 := 0
def NOMAC : UInt32 := 1

/-- An entry of the forwarding table, with its ports as bits. -/
structure FdbEntry where
  vid : UInt32
  mac : List UInt8
  egports : UInt32
  length : mac.length = USR_MAC_LEN

/-- VLAN and address, in the order of the table. -/
def fdbKey (vid : UInt32) (mac : List UInt8) : ℕ ×ₗ List ℕ := toLex (vid.toNat, mac.map UInt8.toNat)

def FdbEntry.key (e : FdbEntry) : ℕ ×ₗ List ℕ := fdbKey e.vid e.mac

structure Fdb where
  entries : List FdbEntry
  sorted : Sorted FdbEntry.key entries

def Fdb.LIB_IF_FDB_ENTRY_GETNEXT (fdb : Fdb) (vid : UInt32) (mac : List UInt8) : Option FdbEntry :=
  fdb.entries.find? fun e => fdbKey vid mac < e.key

def onu_mulimac_cheak (fdbmac : List UInt8) : Bool := ((1 : UInt8) <<< 7) &&& fdbmac.headD 0 = 1

/-- The ports whose bits are set. -/
def onu_bitport_phyport_get (egports : UInt32) : List Nat :=
  (List.range PHY_PORT_MAX).filter fun phyport => egports.toNat.testBit phyport

/-- `phy_log_map`, for unit 0. -/
def boards_physical_to_logical (pport : Nat) : Option Nat :=
  if pport > PHY_PORT_MAX then none
  else if pport = PHY_PORT_MAX then none
  else some (pport + 1)

/-- The logical port of the first port that has one. -/
def egport (egports : UInt32) : Option Nat :=
  (onu_bitport_phyport_get egports).findSome? fun phyport =>
    match boards_physical_to_logical phyport with
    | none => none
    | some logport =>
      if logport > NUM_PORTS_PER_SYSTEM ∨ logport < NUM_PORTS_MINIMUM_SYSYTEM then none
      else some logport

structure localMacsave_t where
  egport : Nat
  swmac : List UInt8

/-- The variables of `user_mac_onu_fdb_get`, and the entries that it examined. -/
structure FdbGet where
  vid : UInt32
  lastmac : List UInt8
  macbuf : List localMacsave_t
  ifhavemac : UInt32
  examined : List FdbEntry

/-- The `while` of `user_mac_onu_fdb_get`, for some turns. -/
def Fdb.getLoop (fdb : Fdb) : Nat → FdbGet → Option FdbGet
  | 0, _ => none
  | fuel + 1, g =>
    match fdb.LIB_IF_FDB_ENTRY_GETNEXT g.vid g.lastmac with
    | none => some g
    | some e =>
      let g := { g with vid := e.vid, lastmac := e.mac, examined := g.examined ++ [e] }
      if onu_mulimac_cheak g.lastmac then fdb.getLoop fuel g
      else
        match egport e.egports with
        | none => fdb.getLoop fuel g
        | some logport =>
          let g := { g with macbuf := g.macbuf ++ [⟨logport, g.lastmac⟩] }
          if g.macbuf.length ≥ USR_MAC_MAX_T then some g
          else fdb.getLoop fuel { g with ifhavemac := NOMAC }

/-- Each batch begins in VLAN 0. -/
def Fdb.user_mac_onu_fdb_get (fdb : Fdb) (lastmac : List UInt8) : Option FdbGet :=
  fdb.getLoop (fdb.entries.length + 1) ⟨0, lastmac, [], HAVEMAC, []⟩

/-- The entry that answers for an address: the first one on a UNI port. `found` is
what is said of its port, and of the switch there. -/
def locateUserMac (found : Nat → Vector UInt8 15) (macbuf : List localMacsave_t) (mac : List UInt8) :
    Option (Vector UInt8 15) :=
  (macbuf.find? fun m => mac = m.swmac ∧
    ¬ (m.egport ≥ NUM_PORTS_PER_SYSTEM ∨ m.egport < NUM_PORTS_MINIMUM_SYSYTEM)).map
      fun m => found m.egport

/-- What the search comes to: the answers, and the entries that were examined. -/
structure Located where
  answers : List (List UInt8)
  examined : List FdbEntry

/-- The `while(!ifhavemac)` of the search, for some turns. `ifhavemac` is set to 0
after each batch, whatever `user_mac_onu_fdb_get` said. -/
def Fdb.locate (fdb : Fdb) (found : Nat → Vector UInt8 15) (macNum : Nat) :
    Nat → List UInt8 → List (List UInt8) → Located → Option Located
  | 0, _, _, _ => none
  | fuel + 1, lastmac, info, l => do
    let g ← fdb.user_mac_onu_fdb_get lastmac
    let examined := l.examined ++ g.examined
    if g.macbuf.length = 0 then some ⟨l.answers, examined⟩
    else
      let r := searchPass (locateUserMac found g.macbuf) macNum info 0 l.answers
      if r.done then some ⟨r.answers, examined⟩
      else fdb.locate found macNum fuel g.lastmac r.info ⟨r.answers, examined⟩

/-- The search for the addresses of a request. -/
def Fdb.search (fdb : Fdb) (found : Nat → Vector UInt8 15) (requests : List (List UInt8)) (fuel : Nat) :
    Option Located :=
  fdb.locate found requests.length fuel nullmac requests ⟨[], []⟩

/-! ## What the search should come to -/

/-- The entry takes a place in `macbuf`. -/
def FdbEntry.Usable (e : FdbEntry) : Bool := (egport e.egports).isSome

/-- The entry is on a UNI port. -/
def FdbEntry.Uni (e : FdbEntry) : Bool :=
  (egport e.egports).any fun logport =>
    ¬ (logport ≥ NUM_PORTS_PER_SYSTEM ∨ logport < NUM_PORTS_MINIMUM_SYSYTEM)

/-- The address is on a UNI port, as far as these entries go. -/
def present (es : List FdbEntry) (mac : List UInt8) : Bool := es.any fun e => e.Uni ∧ e.mac = mac

/-- As many answers as the search stops at. -/
def Enough (answers macNum : Nat) : Prop :=
  0 < answers ∧ (answers = macNum ∨ USR_MAC_RESPONS_MAC_MAX ≤ answers)

/-- An answer is the address, and what is said of it. -/
def Answers (answer mac : List UInt8) : Prop := ∃ found : Vector UInt8 15, answer = mac ++ found.toList

/-- No entry is examined twice, and none is left out unless there are answers enough;
each requested address on a UNI port is answered once, up to 32 of them. -/
structure CompleteSearch (fdb : Fdb) (requests : List (List UInt8)) (l : Located) : Prop where
  once : l.examined.Nodup
  all : ¬ Enough l.answers.length requests.length → ∀ e ∈ fdb.entries, e ∈ l.examined
  answers : ∃ macs, List.Forall₂ Answers l.answers macs ∧
    macs.Subperm (requests.filter (present fdb.entries)) ∧
    macs.length = min (requests.filter (present fdb.entries)).length USR_MAC_RESPONS_MAC_MAX

/-- The entries that take a place, from where the search begins. -/
def Fdb.usable (fdb : Fdb) : List FdbEntry :=
  (after FdbEntry.key fdb.entries (fdbKey 0 nullmac)).filter FdbEntry.Usable

/-- How many of them there are in VLAN 0. -/
def Fdb.untagged (fdb : Fdb) : Nat := (fdb.usable.filter fun e => e.vid = 0).length

/-- The requested addresses, but for the null address, that pass a test. -/
def hits (p : List UInt8 → Bool) (info : List (List UInt8)) : List (List UInt8) :=
  info.filter fun mac => mac ≠ nullmac ∧ p mac

/-- There are answers enough in the batches up to the one that leaves VLAN 0. -/
def Fdb.InTime (fdb : Fdb) (requests : List (List UInt8)) : Prop :=
  Enough (hits (present (fdb.usable.take (USR_MAC_MAX_T * (fdb.untagged / USR_MAC_MAX_T + 1)))) requests).length
    requests.length

/-- The table stays in VLAN 0, as far as a batch can tell. -/
structure Fdb.OneVlan (fdb : Fdb) : Prop where
  first : ∀ e ∈ fdb.entries, ¬ (e.vid = 0 ∧ e.mac = nullmac)
  usable : ∀ e ∈ fdb.entries, e.Usable → e.vid = 0
  batches : (∀ e ∈ fdb.entries, e.vid = 0) ∨ USR_MAC_MAX_T ∣ fdb.untagged

section
variable {fdb : Fdb} {found : Nat → Vector UInt8 15} {e : FdbEntry} {es r : List FdbEntry}
  {mac : List UInt8} {requests info answers : List (List UInt8)} {macNum n : Nat}

/-! ## Entries and keys -/

theorem onu_mulimac_cheak_false (mac : List UInt8) : onu_mulimac_cheak mac = false := by
  unfold onu_mulimac_cheak
  rw [decide_eq_false_iff_not]
  intro h
  have hbit := congrArg (fun b => b.toNat.testBit 0) h
  simp [UInt8.toNat_and] at hbit

/-- The logical port is the one of the lowest bit. -/
theorem egport_eq (egports : UInt32) :
    egport egports = (onu_bitport_phyport_get egports).head?.map (· + 1) := by
  unfold egport
  cases hports : onu_bitport_phyport_get egports with
  | nil => rfl
  | cons phyport ports =>
    have hlt : phyport < 26 := by
      have hmem : phyport ∈ onu_bitport_phyport_get egports := hports ▸ List.mem_cons_self
      exact List.mem_range.mp (List.mem_filter.mp hmem).1
    have hlog : boards_physical_to_logical phyport = some (phyport + 1) := by
      unfold boards_physical_to_logical PHY_PORT_MAX
      rw [if_neg (by omega), if_neg (by omega)]
    have hvalid : ¬ (phyport + 1 > NUM_PORTS_PER_SYSTEM ∨ phyport + 1 < NUM_PORTS_MINIMUM_SYSYTEM) := by
      unfold NUM_PORTS_PER_SYSTEM NUM_PORTS_MINIMUM_SYSYTEM
      omega
    rw [List.findSome?_cons, hlog]
    simp only [if_neg hvalid]
    rfl

theorem uni_usable (h : e.Uni) : e.Usable := by
  unfold FdbEntry.Uni at h
  unfold FdbEntry.Usable
  cases hport : egport e.egports with
  | none =>
    rw [hport] at h
    cases h
  | some logport => rfl

theorem replicate_least (l : List ℕ) : List.replicate l.length 0 < l ∨ l = List.replicate l.length 0 := by
  induction l with
  | nil => exact .inr rfl
  | cons a l ih =>
    rw [List.length_cons, List.replicate_succ, List.cons_lt_cons_iff, List.cons.injEq]
    rcases Nat.eq_zero_or_pos a with rfl | ha
    · simpa using ih
    · exact .inl (.inl ha)

/-- Only one entry does not follow the key that the search begins with. -/
theorem first_key (e : FdbEntry) : fdbKey 0 nullmac < e.key ∨ e.vid = 0 ∧ e.mac = nullmac := by
  unfold FdbEntry.key fdbKey
  rw [Prod.Lex.toLex_lt_toLex]
  have hnull : nullmac.map UInt8.toNat = List.replicate (e.mac.map UInt8.toNat).length 0 := by
    rw [List.length_map, e.length]
    rfl
  rw [hnull]
  rcases Nat.eq_zero_or_pos e.vid.toNat with hvid | hvid
  · rcases replicate_least (e.mac.map UInt8.toNat) with hlt | heq
    · exact .inl (.inr ⟨hvid.symm, hlt⟩)
    · right
      refine ⟨UInt32.toNat_inj.mp hvid, ?_⟩
      rw [← hnull] at heq
      exact List.map_injective_iff.mpr (fun _ _ h => UInt8.toNat_inj.mp h) heq
  · exact .inl (.inl hvid)

/-! ## One batch -/

/-- What an entry leaves in `macbuf`. -/
def FdbEntry.slot (e : FdbEntry) : Option localMacsave_t :=
  (egport e.egports).map fun logport => ⟨logport, e.mac⟩

theorem slots_length (es : List FdbEntry) :
    (es.filterMap FdbEntry.slot).length = (es.filter FdbEntry.Usable).length := by
  induction es with
  | nil => rfl
  | cons e es ih =>
    rw [List.filterMap_cons, List.filter_cons]
    unfold FdbEntry.slot FdbEntry.Usable at *
    cases egport e.egports with
    | none => exact ih
    | some logport => exact congrArg (· + 1) ih

/-- The loop takes the next page. -/
theorem getLoop_eq {g : FdbGet} {fuel : Nat}
    (hafter : after FdbEntry.key fdb.entries (fdbKey g.vid g.lastmac) = r) (hfuel : r.length < fuel)
    (hroom : g.macbuf.length + n = USR_MAC_MAX_T) (hn : 0 < n) :
    ∃ g', fdb.getLoop fuel g = some g' ∧
      g'.examined = g.examined ++ page FdbEntry.Usable n r ∧
      g'.macbuf = g.macbuf ++ (page FdbEntry.Usable n r).filterMap FdbEntry.slot ∧
      g'.lastmac = ((page FdbEntry.Usable n r).getLast?.map FdbEntry.mac).getD g.lastmac := by
  induction r generalizing g fuel n with
  | nil =>
    cases fuel with
    | zero => cases hfuel
    | succ fuel =>
      refine ⟨g, ?_, by simp, by simp, rfl⟩
      unfold Fdb.getLoop Fdb.LIB_IF_FDB_ENTRY_GETNEXT
      have hnext := find_after FdbEntry.key fdb.entries (fdbKey g.vid g.lastmac)
      rw [hafter] at hnext
      rw [hnext]
      rfl
  | cons e r ih =>
    cases fuel with
    | zero => cases hfuel
    | succ fuel =>
      obtain ⟨n, rfl⟩ : ∃ m, n = m + 1 := ⟨n - 1, by omega⟩
      have hnext := find_after FdbEntry.key fdb.entries (fdbKey g.vid g.lastmac)
      rw [hafter] at hnext
      have hrest : after FdbEntry.key fdb.entries (fdbKey e.vid e.mac) = r :=
        fdb.sorted.after_cons hafter
      have hlt := Nat.lt_of_succ_lt_succ hfuel
      unfold Fdb.getLoop Fdb.LIB_IF_FDB_ENTRY_GETNEXT
      rw [hnext, page_succ]
      simp only [List.head?_cons, onu_mulimac_cheak_false, Bool.false_eq_true, if_false]
      have hlast (t : List FdbEntry) (m : List UInt8) : ((e :: t).getLast?.map FdbEntry.mac).getD m =
          (t.getLast?.map FdbEntry.mac).getD e.mac := by
        rw [List.getLast?_cons]
        cases t.getLast? with
        | none => rfl
        | some x => rfl
      cases hport : egport e.egports with
      | none =>
        have husable : e.Usable = false := by simp [FdbEntry.Usable, hport]
        have hslot : e.slot = none := by simp [FdbEntry.slot, hport]
        obtain ⟨g', hg', hexamined, hmacbuf, hmac⟩ := ih (g := { g with
          vid := e.vid, lastmac := e.mac, examined := g.examined ++ [e] }) hrest hlt hroom hn
        refine ⟨g', hg', ?_, ?_, ?_⟩
        · rw [hexamined, husable]
          simp
        · rw [hmacbuf, husable, List.filterMap_cons, hslot]
          rfl
        · rw [hmac, husable, hlast]
          rfl
      | some logport =>
        have husable : e.Usable = true := by simp [FdbEntry.Usable, hport]
        have hslot : e.slot = some ⟨logport, e.mac⟩ := by simp [FdbEntry.slot, hport]
        dsimp only
        rw [husable, if_pos rfl]
        by_cases hfull : (g.macbuf ++ [(⟨logport, e.mac⟩ : localMacsave_t)]).length ≥ USR_MAC_MAX_T
        · obtain rfl : n = 0 := by
            rw [List.length_append, List.length_singleton] at hfull
            omega
          rw [if_pos hfull]
          exact ⟨_, rfl, by simp, by simp [hslot], by simp⟩
        · rw [if_neg hfull]
          rw [List.length_append, List.length_singleton] at hfull
          obtain ⟨g', hg', hexamined, hmacbuf, hmac⟩ := ih (n := n) (g := { g with
            vid := e.vid, lastmac := e.mac, examined := g.examined ++ [e],
            macbuf := g.macbuf ++ [⟨logport, e.mac⟩], ifhavemac := NOMAC }) hrest hlt
            (by simp; omega) (by omega)
          refine ⟨g', hg', ?_, ?_, ?_⟩
          · rw [hexamined]
            simp
          · rw [hmacbuf, List.filterMap_cons, hslot]
            simp
          · rw [hmac, hlast]

theorem get_eq {m : List UInt8} (hafter : after FdbEntry.key fdb.entries (fdbKey 0 m) = r) :
    ∃ g, fdb.user_mac_onu_fdb_get m = some g ∧ g.examined = page FdbEntry.Usable USR_MAC_MAX_T r ∧
      g.macbuf = (page FdbEntry.Usable USR_MAC_MAX_T r).filterMap FdbEntry.slot ∧
      g.lastmac = ((page FdbEntry.Usable USR_MAC_MAX_T r).getLast?.map FdbEntry.mac).getD m := by
  have hlength : r.length < fdb.entries.length + 1 := by
    rw [← hafter]
    exact Nat.lt_succ_of_le (List.length_filter_le ..)
  obtain ⟨g, hg, hexamined, hmacbuf, hmac⟩ :=
    getLoop_eq (g := ⟨0, m, [], HAVEMAC, []⟩) hafter hlength (Nat.zero_add _) (by decide)
  exact ⟨g, hg, hexamined, hmacbuf, hmac⟩

/-- An address is located when it is on a UNI port. -/
theorem located_present (es : List FdbEntry) (mac : List UInt8) :
    (locateUserMac found (es.filterMap FdbEntry.slot) mac).isSome = present es mac := by
  unfold locateUserMac present
  rw [Option.isSome_map, List.isSome_find?, List.any_filterMap]
  congr 1
  funext e
  unfold FdbEntry.slot FdbEntry.Uni
  cases egport e.egports with
  | none => simp
  | some logport =>
    simp only [Option.map_some, Option.any_some, decide_eq_true_eq]
    exact decide_eq_decide.mpr ⟨fun h => ⟨h.2, h.1.symm⟩, fun h => ⟨h.2.symm, h.1⟩⟩

/-! ## One pass -/

section
variable {located : List UInt8 → Option (Vector UInt8 15)} {i : Nat}

/-- The answer to an address. -/
def answerTo (located : List UInt8 → Option (Vector UInt8 15)) (mac : List UInt8) : List UInt8 :=
  mac ++ ((located mac).getD (.replicate 15 0)).toList

/-- The addresses that a pass leaves open. -/
def cleared (p : List UInt8 → Bool) (info : List (List UInt8)) : List (List UInt8) :=
  info.map fun mac => if p mac then nullmac else mac

theorem hits_cons (p : List UInt8 → Bool) (mac : List UInt8) (info : List (List UInt8)) :
    hits p (mac :: info) = if mac ≠ nullmac ∧ p mac then mac :: hits p info else hits p info := by
  unfold hits
  rw [List.filter_cons]
  simp

/-- A pass that is not done has answered every address that it found. -/
theorem searchPass_open (h : (searchPass located macNum info i answers).done = false) :
    (searchPass located macNum info i answers).info = cleared (fun mac => (located mac).isSome) info ∧
    (searchPass located macNum info i answers).answers =
      answers ++ (hits (fun mac => (located mac).isSome) info).map (answerTo located) ∧
    (¬ Enough answers.length macNum →
      ¬ Enough (answers.length + (hits (fun mac => (located mac).isSome) info).length) macNum) := by
  induction info generalizing i answers with
  | nil => simp [searchPass, cleared, hits]
  | cons mac macs ih =>
    unfold searchPass at h ⊢
    rw [hits_cons]
    unfold cleared
    rw [List.map_cons]
    by_cases hnull : mac = nullmac
    · rw [if_pos hnull] at h ⊢
      obtain ⟨hinfo, hanswers, henough⟩ := ih h
      refine ⟨?_, ?_, ?_⟩
      · simp [hinfo, hnull, cleared]
      · simp [hanswers, hnull]
      · simpa [hnull] using henough
    · rw [if_neg hnull] at h ⊢
      cases hmac : located mac with
      | none =>
        rw [hmac] at h
        obtain ⟨hinfo, hanswers, henough⟩ := ih h
        refine ⟨?_, ?_, ?_⟩
        · simp [hinfo, cleared, hmac]
        · simp [hanswers]
        · simpa [hmac] using henough
      | some found =>
        rw [hmac] at h
        dsimp only at h ⊢
        split at h
        · cases h
        · rename_i hmore
          rw [if_neg hmore]
          obtain ⟨hinfo, hanswers, henough⟩ := ih h
          rw [not_or, not_le] at hmore
          refine ⟨?_, ?_, fun _ => ?_⟩
          · simp [hinfo, cleared, hmac]
          · simp [hanswers, hnull, answerTo, hmac]
          · have hnot : ¬ Enough (answers ++ [mac ++ found.toList]).length macNum := by
              unfold Enough
              omega
            have hlength := henough hnot
            simp only [List.length_append, List.length_singleton] at hlength
            simpa [hnull, hmac, Nat.add_assoc, Nat.add_comm 1] using hlength

/-- A pass that is done has answered as many as it found up to there. -/
theorem searchPass_done (h : (searchPass located macNum info i answers).done = true) :
    ∃ k, 0 < k ∧ k ≤ (hits (fun mac => (located mac).isSome) info).length ∧
      (searchPass located macNum info i answers).answers =
        answers ++ ((hits (fun mac => (located mac).isSome) info).take k).map (answerTo located) ∧
      Enough (answers.length + k) macNum ∧
      (answers.length < USR_MAC_RESPONS_MAC_MAX → answers.length + k ≤ USR_MAC_RESPONS_MAC_MAX) := by
  induction info generalizing i answers with
  | nil => cases h
  | cons mac macs ih =>
    unfold searchPass at h ⊢
    rw [hits_cons]
    by_cases hnull : mac = nullmac
    · rw [if_pos hnull] at h ⊢
      rw [if_neg fun hfound => hfound.1 hnull]
      exact ih h
    · rw [if_neg hnull] at h ⊢
      cases hmac : located mac with
      | none =>
        rw [hmac] at h
        simpa using ih h
      | some found =>
        rw [hmac] at h
        dsimp only at h ⊢
        have hlength : (answers ++ [mac ++ found.toList]).length = answers.length + 1 := by simp
        rw [if_pos ⟨hnull, rfl⟩]
        split at h
        · rename_i hstop
          rw [if_pos hstop]
          rw [hlength] at hstop
          refine ⟨1, Nat.one_pos, by simp, by simp [answerTo, hmac], ⟨Nat.succ_pos _, hstop⟩, fun hlt => hlt⟩
        · rename_i hmore
          rw [if_neg hmore]
          obtain ⟨k, hpos, hle, hanswers, henough, hmax⟩ := ih h
          rw [hlength] at hmore henough hmax
          have hcount : answers.length + 1 + k = answers.length + (k + 1) := by omega
          rw [hcount] at henough hmax
          refine ⟨k + 1, Nat.succ_pos k, by simpa using hle, ?_, henough, fun _ => hmax (by omega)⟩
          simp [hanswers, answerTo, hmac]

end

/-! ## The search so far -/

theorem hits_cleared (p q : List UInt8 → Bool) (info : List (List UInt8)) :
    hits p (cleared q info) = hits (fun mac => p mac && !q mac) info := by
  induction info with
  | nil => rfl
  | cons mac info ih =>
    unfold cleared at ih ⊢
    rw [List.map_cons, hits_cons, hits_cons, ih]
    by_cases hq : q mac
    · simp [hq]
    · simp [hq]

theorem cleared_cleared (p q : List UInt8 → Bool) (info : List (List UInt8)) :
    cleared p (cleared q info) = cleared (fun mac => q mac || p mac) info := by
  unfold cleared
  rw [List.map_map]
  refine List.map_congr_left fun mac _ => ?_
  by_cases hq : q mac
  · simp [hq]
  · simp [hq]

/-- The new addresses and the old ones. -/
theorem hits_perm (p q : List UInt8 → Bool) (info : List (List UInt8)) :
    (hits q info ++ hits (fun mac => p mac && !q mac) info).Perm
      (hits (fun mac => q mac || p mac) info) := by
  have hsplit := List.filter_append_perm q (hits (fun mac => q mac || p mac) info)
  refine List.Perm.trans (List.Perm.of_eq ?_) hsplit
  unfold hits
  rw [List.filter_filter, List.filter_filter]
  congr 1
  · refine List.filter_congr fun mac _ => ?_
    by_cases hq : q mac
    · simp [hq]
    · simp [hq]
  · refine List.filter_congr fun mac _ => ?_
    by_cases hq : q mac
    · simp [hq]
    · simp [hq]

theorem hits_length_le (p : List UInt8 → Bool) (info : List (List UInt8)) :
    (hits p info).length ≤ info.length := List.length_filter_le ..

/-- More entries do not have fewer of the addresses. -/
theorem hits_mono {p q : List UInt8 → Bool} (h : ∀ mac, p mac → q mac) (info : List (List UInt8)) :
    (hits p info).length ≤ (hits q info).length := by
  refine (List.monotone_filter_right info fun mac hmac => ?_).length_le
  simp only [decide_eq_true_eq] at hmac ⊢
  exact ⟨hmac.1, h mac hmac.2⟩

theorem Enough.mono {m : Nat} (h : Enough n macNum) (hle : n ≤ m) (hmax : m ≤ macNum) : Enough m macNum := by
  unfold Enough at *
  omega

theorem present_append (es fs : List FdbEntry) :
    present (es ++ fs) = fun mac => present es mac || present fs mac := by
  funext mac
  exact List.any_append

theorem present_subset (h : es ⊆ r) (mac : List UInt8) (hmac : present es mac) : present r mac := by
  unfold present at *
  rw [List.any_eq_true] at *
  obtain ⟨e, he, hmac⟩ := hmac
  exact ⟨e, h he, hmac⟩

theorem present_usable (es : List FdbEntry) : present (es.filter FdbEntry.Usable) = present es := by
  funext mac
  unfold present
  rw [List.any_filter]
  congr 1
  funext e
  by_cases he : e.Usable
  · simp [he]
  · have huni : ¬ e.Uni := fun huni => he (uni_usable huni)
    simp [he, huni]

/-- What the search has after some entries. -/
structure Searched (es : List FdbEntry) (requests info answers : List (List UInt8)) : Prop where
  left : info = cleared (present es) requests
  sent : ∃ macs, List.Forall₂ Answers answers macs ∧ macs.Perm (hits (present es) requests)
  more : ¬ Enough answers.length requests.length

theorem Searched.length (h : Searched es requests info answers) :
    answers.length = (hits (present es) requests).length := by
  obtain ⟨macs, hanswers, hperm⟩ := h.sent
  rw [hanswers.length_eq, hperm.length_eq]

theorem searched_nil (requests : List (List UInt8)) : Searched [] requests requests [] := by
  refine ⟨?_, ⟨[], .nil, ?_⟩, fun h => Nat.lt_irrefl 0 h.1⟩
  · simp [cleared, present]
  · simp [hits, present]

theorem answered (located : List UInt8 → Option (Vector UInt8 15)) (macs : List (List UInt8)) :
    List.Forall₂ Answers (macs.map (answerTo located)) macs := by
  rw [List.forall₂_map_left_iff, List.forall₂_same]
  exact fun mac _ => ⟨_, rfl⟩

theorem locate_isSome (found : Nat → Vector UInt8 15) (es : List FdbEntry) :
    (fun mac => (locateUserMac found (es.filterMap FdbEntry.slot) mac).isSome) = present es :=
  funext fun mac => located_present es mac

/-- A batch that does not end the search. -/
theorem Searched.open (h : Searched es requests info answers) (b : List FdbEntry)
    (hopen : (searchPass (locateUserMac found (b.filterMap FdbEntry.slot)) requests.length info 0
      answers).done = false) :
    let p := searchPass (locateUserMac found (b.filterMap FdbEntry.slot)) requests.length info 0 answers
    Searched (es ++ b) requests p.info p.answers := by
  obtain ⟨rfl, ⟨macs, hanswers, hperm⟩, hless⟩ := h
  intro p
  obtain ⟨hinfo, hmore, henough⟩ := searchPass_open hopen
  rw [locate_isSome] at hinfo hmore henough
  have hp : p.answers = _ := hmore
  refine ⟨?_, ?_, ?_⟩
  · rw [present_append, ← cleared_cleared]
    exact hinfo
  · refine ⟨macs ++ hits (present b) (cleared (present es) requests), ?_, ?_⟩
    · rw [hp]
      exact List.rel_append hanswers (answered _ _)
    · rw [hits_cleared, present_append]
      exact (hperm.append_right _).trans (hits_perm _ _ _)
  · rw [hp]
    simpa using henough hless

/-- The batch that does. -/
theorem Searched.done (h : Searched es requests info answers) (b : List FdbEntry)
    (hdone : (searchPass (locateUserMac found (b.filterMap FdbEntry.slot)) requests.length info 0
      answers).done = true) :
    let p := searchPass (locateUserMac found (b.filterMap FdbEntry.slot)) requests.length info 0 answers
    Enough p.answers.length requests.length ∧ p.answers.length ≤ USR_MAC_RESPONS_MAC_MAX ∧
      ∃ macs, List.Forall₂ Answers p.answers macs ∧ macs.Subperm (hits (present (es ++ b)) requests) := by
  have hlen := h.length
  obtain ⟨rfl, ⟨macs, hanswers, hperm⟩, hless⟩ := h
  intro p
  obtain ⟨k, hpos, hle, hmore, henough, hmax⟩ := searchPass_done hdone
  rw [locate_isSome] at hle hmore
  have hp : p.answers = _ := hmore
  have hlength : p.answers.length = answers.length + k := by
    rw [hp, List.length_append, List.length_map, List.length_take, Nat.min_eq_left hle]
  have hsub : (macs ++ (hits (present b) (cleared (present es) requests)).take k).Subperm
      (hits (present (es ++ b)) requests) := by
    rw [hits_cleared, present_append]
    refine List.Subperm.trans ?_ (hits_perm _ _ _).subperm
    exact hperm.subperm.append (List.take_sublist _ _).subperm
  refine ⟨hlength ▸ henough, ?_, _, ?_, hsub⟩
  · rw [hlength]
    apply hmax
    by_contra hmany
    refine hless ⟨?_, .inr (Nat.le_of_not_lt hmany)⟩
    unfold USR_MAC_RESPONS_MAC_MAX at hmany
    omega
  · rw [hp]
    exact List.rel_append hanswers (answered _ _)

/-! ## Batch after batch -/

variable {m : List UInt8} {l l' : Located} {a : FdbEntry} {fuel : Nat}

/-- The entries behind the key that the search begins with. -/
def Fdb.rest (fdb : Fdb) : List FdbEntry := after FdbEntry.key fdb.entries (fdbKey 0 nullmac)

/-- One turn of the search takes the next page. -/
theorem locate_page (hafter : after FdbEntry.key fdb.entries (fdbKey 0 m) = r) (fuel : Nat) (l : Located) :
    let b := page FdbEntry.Usable USR_MAC_MAX_T r
    let p := searchPass (locateUserMac found (b.filterMap FdbEntry.slot)) macNum info 0 l.answers
    fdb.locate found macNum (fuel + 1) m info l =
      if b.filter FdbEntry.Usable = [] then some ⟨l.answers, l.examined ++ b⟩
      else if p.done then some ⟨p.answers, l.examined ++ b⟩
      else fdb.locate found macNum fuel ((b.getLast?.map FdbEntry.mac).getD m) p.info
        ⟨p.answers, l.examined ++ b⟩ := by
  intro b p
  obtain ⟨g, hg, hexamined, hmacbuf, hmac⟩ := get_eq hafter
  have hempty : g.macbuf.length = 0 ↔ b.filter FdbEntry.Usable = [] := by
    rw [hmacbuf, slots_length, List.length_eq_zero_iff]
  rw [Fdb.locate, hg]
  simp only [Option.bind_eq_bind, Option.bind_some, hempty, hexamined, hmac]
  rw [hmacbuf]

/-- The search examines the next page, and goes on from there. -/
theorem locate_examined (hafter : after FdbEntry.key fdb.entries (fdbKey 0 m) = r)
    (h : fdb.locate found macNum fuel m info l = some l') :
    ∃ s, l'.examined = l.examined ++ page FdbEntry.Usable USR_MAC_MAX_T r ++ s := by
  induction fuel generalizing m info l r with
  | zero => cases h
  | succ fuel ih =>
    rw [locate_page hafter] at h
    split at h
    · cases h
      exact ⟨[], (List.append_nil _).symm⟩
    · split at h
      · cases h
        exact ⟨[], (List.append_nil _).symm⟩
      · obtain ⟨s, hs⟩ := ih rfl h
        exact ⟨_, hs.trans (List.append_assoc _ _ _)⟩

theorem mem_rest : e ∈ fdb.rest ↔ e ∈ fdb.entries ∧ ¬ (e.vid = 0 ∧ e.mac = nullmac) := by
  unfold Fdb.rest
  rw [mem_after, and_congr_right_iff]
  intro _
  constructor
  · rintro hlt ⟨hvid, hmac⟩
    unfold FdbEntry.key at hlt
    rw [hvid, hmac] at hlt
    exact lt_irrefl _ hlt
  · exact fun hnot => (first_key e).resolve_right hnot

theorem rest_sorted (fdb : Fdb) : Sorted FdbEntry.key fdb.rest := after_sorted fdb.sorted _

theorem vid_le (h : e.key ≤ a.key) : e.vid.toNat ≤ a.vid.toNat := by
  unfold FdbEntry.key fdbKey at h
  rw [Prod.Lex.toLex_le_toLex] at h
  rcases h with hlt | ⟨heq, -⟩
  · exact hlt.le
  · exact heq.le

/-- A batch that ended in another VLAN has an entry examined twice. -/
theorem locate_again {es : List FdbEntry} (hrest : fdb.rest = es ++ r) (ha : a ∈ es) (hvid : a.vid ≠ 0)
    (h : fdb.locate found macNum fuel a.mac info ⟨answers, es⟩ = some l') : ¬ l'.examined.Nodup := by
  have hentries : a ∈ fdb.entries := (mem_rest.mp (hrest ▸ List.mem_append_left r ha)).1
  have hpos : 0 < a.vid.toNat :=
    Nat.pos_of_ne_zero fun hzero => hvid (UInt32.toNat_inj.mp hzero)
  have hless : fdbKey 0 a.mac < a.key := by
    unfold FdbEntry.key fdbKey
    rw [Prod.Lex.toLex_lt_toLex]
    exact .inl hpos
  obtain ⟨b, s, hafter, hle⟩ := fdb.sorted.first_le hentries hless
  have hb := mem_after.mp (hafter ▸ List.mem_cons_self (a := b))
  have hbes : b ∈ es := by
    have hmem : b ∈ fdb.rest := by
      refine mem_rest.mpr ⟨hb.1, fun hfirst => ?_⟩
      have hkey : b.key = fdbKey 0 nullmac := by
        unfold FdbEntry.key
        rw [hfirst.1, hfirst.2]
      rcases first_key ⟨0, a.mac, 0, a.length⟩ with hnull | ⟨-, hnull⟩
      · exact lt_asymm hnull (hkey ▸ hb.2)
      · exact lt_irrefl _ (lt_of_lt_of_eq hb.2 (hkey.trans (congrArg (fdbKey 0) hnull.symm)))
    rw [hrest] at hmem
    refine (List.mem_append.mp hmem).resolve_right fun hbr => ?_
    have hsorted := rest_sorted fdb
    rw [hrest] at hsorted
    exact absurd hle (not_le_of_gt ((List.pairwise_append.mp hsorted).2.2 a ha b hbr))
  obtain ⟨t, ht⟩ := locate_examined hafter h
  intro hnodup
  rw [ht] at hnodup
  have hpage : b ∈ page FdbEntry.Usable USR_MAC_MAX_T (b :: s) := List.mem_cons_self
  exact (List.nodup_append.mp (List.nodup_append.mp hnodup).1).2.2 b hbes b hpage rfl

/-- The search after some batches, all of them in VLAN 0. -/
structure Going (fdb : Fdb) (requests : List (List UInt8)) (m : List UInt8) (info : List (List UInt8))
    (l : Located) (r : List FdbEntry) : Prop where
  after : after FdbEntry.key fdb.entries (fdbKey 0 m) = r
  rest : fdb.rest = l.examined ++ r
  vlan : ∀ e ∈ l.examined, e.vid = 0
  pages : USR_MAC_MAX_T ∣ (l.examined.filter FdbEntry.Usable).length ∨ r = []
  searched : Searched l.examined requests info l.answers

theorem search_going (fdb : Fdb) (requests : List (List UInt8)) :
    Going fdb requests nullmac requests ⟨[], []⟩ fdb.rest :=
  ⟨rfl, rfl, by simp, .inl (Nat.dvd_zero _), searched_nil requests⟩

theorem usable_split (h : fdb.rest = es ++ r) :
    fdb.usable = es.filter FdbEntry.Usable ++ r.filter FdbEntry.Usable := by
  change fdb.rest.filter FdbEntry.Usable = _
  rw [h, List.filter_append]

theorem untagged_split (h : fdb.rest = es ++ r) (hvlan : ∀ e ∈ es, e.vid = 0) :
    fdb.untagged = (es.filter FdbEntry.Usable).length +
      ((r.filter FdbEntry.Usable).filter fun e => e.vid = 0).length := by
  unfold Fdb.untagged
  rw [usable_split h, List.filter_append, List.length_append]
  congr 1
  rw [List.filter_eq_self.mpr]
  exact fun e he => decide_eq_true (hvlan e (List.mem_of_mem_filter he))

/-- Answers enough in a part of the window are enough. -/
theorem intime_of (h : Enough n requests.length) (hn : n ≤ (hits (present es) requests).length)
    (hsub : es.filter FdbEntry.Usable ⊆
      fdb.usable.take (USR_MAC_MAX_T * (fdb.untagged / USR_MAC_MAX_T + 1))) : fdb.InTime requests := by
  refine h.mono (hn.trans ?_) (hits_length_le _ _)
  rw [← present_usable]
  exact hits_mono (present_subset hsub) requests

/-- And fewer in all of it are not. -/
theorem not_intime (h : Searched es requests info answers)
    (hsub : fdb.usable.take (USR_MAC_MAX_T * (fdb.untagged / USR_MAC_MAX_T + 1)) ⊆ es) :
    ¬ fdb.InTime requests := by
  intro hintime
  apply h.more
  rw [h.length]
  exact hintime.mono (hits_mono (present_subset hsub) requests) (hits_length_le _ _)

/-- The last batch has nothing to answer: the whole table was searched. -/
theorem end_iff (h : Going fdb requests m info l r)
    (hempty : (page FdbEntry.Usable USR_MAC_MAX_T r).filter FdbEntry.Usable = []) :
    CompleteSearch fdb requests ⟨l.answers, l.examined ++ page FdbEntry.Usable USR_MAC_MAX_T r⟩ ↔
      fdb.InTime requests ∨ fdb.OneVlan := by
  have hpage : page FdbEntry.Usable USR_MAC_MAX_T r = r := page_short (by rw [hempty]; decide)
  have hr : r.filter FdbEntry.Usable = [] := by rwa [hpage] at hempty
  have husable : fdb.usable = l.examined.filter FdbEntry.Usable := by
    rw [usable_split h.rest, hr, List.append_nil]
  have hnot : ¬ fdb.InTime requests := by
    apply not_intime h.searched
    rw [husable]
    exact fun e he => List.mem_of_mem_filter (List.mem_of_mem_take he)
  rw [hpage, ← h.rest, or_iff_right hnot]
  constructor
  · intro hcomplete
    have hfirst : ∀ e ∈ fdb.entries, ¬ (e.vid = 0 ∧ e.mac = nullmac) :=
      fun e he => (mem_rest.mp (hcomplete.all h.searched.more e he)).2
    have hmem : ∀ e ∈ fdb.entries, e ∈ l.examined ++ r := fun e he =>
      h.rest ▸ mem_rest.mpr ⟨he, hfirst e he⟩
    refine ⟨hfirst, ?_, ?_⟩
    · intro e he hu
      rcases List.mem_append.mp (hmem e he) with he | he
      · exact h.vlan e he
      · have hmem : e ∈ r.filter FdbEntry.Usable := List.mem_filter.mpr ⟨he, hu⟩
        rw [hr] at hmem
        cases hmem
    · rcases h.pages with hdvd | rfl
      · right
        rw [untagged_split h.rest h.vlan, hr]
        exact hdvd
      · left
        intro e he
        have hmem := hmem e he
        rw [List.append_nil] at hmem
        exact h.vlan e hmem
  · intro hvlan
    have hall : ∀ e ∈ fdb.entries, e ∈ fdb.rest := fun e he => mem_rest.mpr ⟨he, hvlan.first e he⟩
    have hpresent : ∀ mac, present fdb.entries mac = decide (mac ≠ nullmac ∧ present l.examined mac) := by
      intro mac
      rw [Bool.eq_iff_iff, decide_eq_true_eq]
      constructor
      · intro hmac
        have husable' : present fdb.usable mac := by
          have hrest := present_subset hall mac hmac
          rwa [← present_usable] at hrest
        rw [husable, present_usable] at husable'
        refine ⟨?_, husable'⟩
        rintro rfl
        obtain ⟨e, he, heq⟩ := List.any_eq_true.mp husable'
        have hentry := (mem_rest.mp (h.rest ▸ List.mem_append_left r he)).1
        exact hvlan.first e hentry ⟨h.vlan e he, (of_decide_eq_true heq).2⟩
      · rintro ⟨-, hmac⟩
        exact present_subset (fun e he => (mem_rest.mp (h.rest ▸ List.mem_append_left r he)).1) mac hmac
    refine ⟨(rest_sorted fdb).nodup, fun _ e he => hall e he, ?_⟩
    have hfilter : requests.filter (present fdb.entries) = hits (present l.examined) requests :=
      List.filter_congr fun mac _ => hpresent mac
    obtain ⟨macs, hanswers, hperm⟩ := h.searched.sent
    rw [hfilter]
    refine ⟨macs, hanswers, hperm.subperm, ?_⟩
    have hmore := h.searched.more
    rw [h.searched.length] at hmore
    rw [hperm.length_eq]
    unfold Enough USR_MAC_RESPONS_MAC_MAX at *
    omega

/-- The last batch has answers enough. -/
theorem done_iff (h : Going fdb requests m info l r)
    (hdone : (searchPass (locateUserMac found
      ((page FdbEntry.Usable USR_MAC_MAX_T r).filterMap FdbEntry.slot)) requests.length info 0
      l.answers).done = true) (hsome : (page FdbEntry.Usable USR_MAC_MAX_T r).filter FdbEntry.Usable ≠ []) :
    CompleteSearch fdb requests ⟨(searchPass (locateUserMac found
        ((page FdbEntry.Usable USR_MAC_MAX_T r).filterMap FdbEntry.slot)) requests.length info 0
        l.answers).answers, l.examined ++ page FdbEntry.Usable USR_MAC_MAX_T r⟩ ↔
      fdb.InTime requests ∨ fdb.OneVlan := by
  obtain ⟨henough, hmax, macs, hanswers, hsub⟩ := h.searched.done _ hdone
  obtain ⟨t, ht⟩ := page_split FdbEntry.Usable USR_MAC_MAX_T r
  have hrest : fdb.rest = (l.examined ++ page FdbEntry.Usable USR_MAC_MAX_T r) ++ t := by
    rw [List.append_assoc, ← ht]
    exact h.rest
  have hpresent : macs.Subperm (requests.filter (present fdb.entries)) := by
    refine hsub.trans (List.monotone_filter_right requests fun mac hmac => ?_).subperm
    refine present_subset (fun e he => ?_) mac (of_decide_eq_true hmac).2
    exact (mem_rest.mp (hrest ▸ List.mem_append_left t he)).1
  refine iff_of_true ⟨?_, fun hnot => absurd henough hnot, macs, hanswers, hpresent, ?_⟩ (.inl ?_)
  · have hnodup := (rest_sorted fdb).nodup
    rw [hrest] at hnodup
    exact (List.nodup_append.mp hnodup).1
  · have hlength := hanswers.length_eq
    have hle := hpresent.length_le
    have hall : (requests.filter (present fdb.entries)).length ≤ requests.length :=
      List.length_filter_le ..
    unfold Enough USR_MAC_RESPONS_MAC_MAX at *
    omega
  · refine intime_of henough (hanswers.length_eq ▸ hsub.length_le) ?_
    have huntagged := untagged_split h.rest h.vlan
    have hcount := page_count_le FdbEntry.Usable USR_MAC_MAX_T r
    have hdvd : USR_MAC_MAX_T ∣ (l.examined.filter FdbEntry.Usable).length := by
      refine h.pages.resolve_right ?_
      rintro rfl
      exact hsome rfl
    rw [usable_split hrest, List.take_append, List.take_of_length_le]
    · exact List.subset_append_left _ _
    · rw [List.filter_append, List.length_append]
      unfold USR_MAC_MAX_T at *
      omega

/-- A batch that ended in another VLAN, with answers still to be found, is examined again. -/
theorem leaves_not (h : Going fdb requests m info l r) {s t : List FdbEntry} {left : List (List UInt8)}
    (hr : r = s ++ a :: t) (hpage : page FdbEntry.Usable USR_MAC_MAX_T r = s ++ [a]) (hvid : a.vid ≠ 0)
    (hsome : (page FdbEntry.Usable USR_MAC_MAX_T r).filter FdbEntry.Usable ≠ [])
    (hsearched : Searched (l.examined ++ page FdbEntry.Usable USR_MAC_MAX_T r) requests left answers) :
    ¬ (fdb.InTime requests ∨ fdb.OneVlan) := by
  have hrest : fdb.rest = (l.examined ++ page FdbEntry.Usable USR_MAC_MAX_T r) ++ t := by
    rw [hpage, h.rest, hr]
    simp
  have hdvd : USR_MAC_MAX_T ∣ (l.examined.filter FdbEntry.Usable).length := by
    refine h.pages.resolve_right fun hnil => ?_
    simp [hr] at hnil
  have hbehind : (t.filter FdbEntry.Usable).filter (fun e => e.vid = 0) = [] := by
    rw [List.filter_eq_nil_iff]
    intro e he
    have hsorted := rest_sorted fdb
    rw [hrest, hpage] at hsorted
    have hkey := (List.pairwise_append.mp hsorted).2.2 a (by simp) e (List.mem_of_mem_filter he)
    have hle := vid_le hkey.le
    have hpos : a.vid.toNat ≠ 0 := fun hzero => hvid (UInt32.toNat_inj.mp hzero)
    rw [decide_eq_true_eq]
    rintro heq
    rw [heq] at hle
    exact hpos (Nat.le_zero.mp hle)
  have huntagged := untagged_split h.rest h.vlan
  have hcount := page_count_le FdbEntry.Usable USR_MAC_MAX_T r
  -- less than a page of the last batch is in VLAN 0
  have hless : (((page FdbEntry.Usable USR_MAC_MAX_T r).filter FdbEntry.Usable).filter
      fun e => e.vid = 0).length < USR_MAC_MAX_T := by
    rcases Nat.lt_or_ge ((page FdbEntry.Usable USR_MAC_MAX_T r).filter FdbEntry.Usable).length
      USR_MAC_MAX_T with hshort | hfull
    · exact lt_of_le_of_lt (List.length_filter_le ..) hshort
    · obtain ⟨s', a', hs', ha'⟩ := page_full (by decide) (le_antisymm hcount hfull)
      obtain ⟨-, hlast⟩ := List.append_inj' (hpage.symm.trans hs') rfl
      obtain rfl : a = a' := (List.cons.inj hlast).1
      rw [hpage] at hcount ⊢
      simp only [List.filter_append, List.filter_cons, ha', if_true, hvid, decide_false, List.filter_nil,
        Bool.false_eq_true, if_false, List.append_nil, List.length_append, List.length_singleton] at hcount ⊢
      exact lt_of_le_of_lt (List.length_filter_le ..) hcount
  have hwindow : ((page FdbEntry.Usable USR_MAC_MAX_T r).filter FdbEntry.Usable).length = USR_MAC_MAX_T ∨
      t = [] := by
    rcases Nat.lt_or_ge ((page FdbEntry.Usable USR_MAC_MAX_T r).filter FdbEntry.Usable).length
      USR_MAC_MAX_T with hshort | hfull
    · right
      have hall := page_short hshort
      rw [hpage, hr] at hall
      simpa using hall
    · exact .inl (le_antisymm hcount hfull)
  have hsum : fdb.untagged = (l.examined.filter FdbEntry.Usable).length +
      (((page FdbEntry.Usable USR_MAC_MAX_T r).filter FdbEntry.Usable).filter fun e => e.vid = 0).length := by
    have hsplit : r = page FdbEntry.Usable USR_MAC_MAX_T r ++ t := by
      rw [hpage]
      simpa using hr
    rw [huntagged]
    congr 2
    conv_lhs => rw [hsplit]
    rw [List.filter_append, List.filter_append, hbehind, List.append_nil]
  rintro (hintime | hone)
  · refine not_intime hsearched ?_ hintime
    rw [usable_split hrest, List.take_append]
    have hnone : (t.filter FdbEntry.Usable).take (USR_MAC_MAX_T * (fdb.untagged / USR_MAC_MAX_T + 1) -
        ((l.examined ++ page FdbEntry.Usable USR_MAC_MAX_T r).filter FdbEntry.Usable).length) = [] := by
      rcases hwindow with hfull | rfl
      · rw [List.filter_append, List.length_append, hfull, List.take_eq_nil_iff]
        left
        unfold USR_MAC_MAX_T at *
        omega
      · simp
    rw [hnone, List.append_nil]
    exact fun e he => List.mem_of_mem_filter (List.mem_of_mem_take he)
  · have hentries : ∀ e ∈ page FdbEntry.Usable USR_MAC_MAX_T r, e ∈ fdb.entries := fun e he =>
      (mem_rest.mp (hrest ▸ List.mem_append_left t (List.mem_append_right _ he))).1
    have hall : ((page FdbEntry.Usable USR_MAC_MAX_T r).filter FdbEntry.Usable).filter
        (fun e => e.vid = 0) = (page FdbEntry.Usable USR_MAC_MAX_T r).filter FdbEntry.Usable := by
      rw [List.filter_eq_self]
      intro e he
      obtain ⟨hmem, hu⟩ := List.mem_filter.mp he
      exact decide_eq_true (hone.usable e (hentries e hmem) hu)
    rcases hone.batches with hzero | hbatches
    · exact hvid (hzero a (hentries a (hpage ▸ by simp)))
    · have hpos : 0 < ((page FdbEntry.Usable USR_MAC_MAX_T r).filter FdbEntry.Usable).length :=
        List.length_pos_iff.mpr hsome
      rw [hall] at hsum hless
      rw [hsum] at hbatches
      exact absurd (Nat.le_of_dvd hpos ((Nat.dvd_add_right hdvd).mp hbatches)) (not_le_of_gt hless)

theorem stops_iff {x : Located} {P : Located → Prop}
    (hstep : ∀ fuel, fdb.locate found macNum (fuel + 1) m info l = some x) :
    (∃ fuel l', fdb.locate found macNum fuel m info l = some l' ∧ P l') ↔ P x := by
  constructor
  · rintro ⟨fuel, l', hl', hp⟩
    cases fuel with
    | zero => cases hl'
    | succ fuel =>
      rw [hstep] at hl'
      cases hl'
      exact hp
  · exact fun hp => ⟨1, x, hstep 0, hp⟩

theorem goes_on_iff {m' : List UInt8} {info' : List (List UInt8)} {x : Located} {P : Located → Prop}
    (hstep : ∀ fuel, fdb.locate found macNum (fuel + 1) m info l = fdb.locate found macNum fuel m' info' x) :
    (∃ fuel l', fdb.locate found macNum fuel m info l = some l' ∧ P l') ↔
      ∃ fuel l', fdb.locate found macNum fuel m' info' x = some l' ∧ P l' := by
  constructor
  · rintro ⟨fuel, l', hl', hp⟩
    cases fuel with
    | zero => cases hl'
    | succ fuel => exact ⟨fuel, l', hstep fuel ▸ hl', hp⟩
  · rintro ⟨fuel, l', hl', hp⟩
    exact ⟨fuel + 1, l', (hstep fuel).trans hl', hp⟩

/-- A batch that stays in VLAN 0 leaves the search where it was, further on. -/
theorem Going.next (h : Going fdb requests m info l r) {s t : List FdbEntry} (hr : r = s ++ a :: t)
    (hpage : page FdbEntry.Usable USR_MAC_MAX_T r = s ++ [a]) (hvid : a.vid = 0)
    (hsearched : Searched (l.examined ++ page FdbEntry.Usable USR_MAC_MAX_T r) requests
      (cleared (present (l.examined ++ page FdbEntry.Usable USR_MAC_MAX_T r)) requests) answers) :
    Going fdb requests a.mac (cleared (present (l.examined ++ page FdbEntry.Usable USR_MAC_MAX_T r)) requests)
      ⟨answers, l.examined ++ page FdbEntry.Usable USR_MAC_MAX_T r⟩ t := by
  have hrest : fdb.rest = (l.examined ++ page FdbEntry.Usable USR_MAC_MAX_T r) ++ t := by
    rw [hpage, h.rest, hr]
    simp
  refine ⟨?_, hrest, ?_, ?_, hsearched⟩
  · have hkey : a.key = fdbKey 0 a.mac := by
      unfold FdbEntry.key
      rw [hvid]
    rw [← hkey]
    exact fdb.sorted.after_last (h.after.trans hr)
  · intro e he
    rcases List.mem_append.mp he with he | he
    · exact h.vlan e he
    · have hsorted := rest_sorted fdb
      rw [hrest] at hsorted
      have hle : e.key ≤ a.key := by
        rw [hpage] at he hsorted
        rcases List.mem_append.mp he with he | he
        · have hpair := (List.pairwise_append.mp (List.pairwise_append.mp hsorted).1).2.1
          exact ((List.pairwise_append.mp hpair).2.2 e he a List.mem_cons_self).le
        · rw [List.mem_singleton.mp he]
      have hvids := vid_le hle
      rw [hvid] at hvids
      exact UInt32.toNat_inj.mp (Nat.le_zero.mp hvids)
  · have hdvd : USR_MAC_MAX_T ∣ (l.examined.filter FdbEntry.Usable).length := by
      refine h.pages.resolve_right fun hnil => ?_
      simp [hr] at hnil
    have hcount := page_count_le FdbEntry.Usable USR_MAC_MAX_T r
    rcases Nat.lt_or_ge ((page FdbEntry.Usable USR_MAC_MAX_T r).filter FdbEntry.Usable).length
      USR_MAC_MAX_T with hshort | hfull
    · right
      have hall := page_short hshort
      rw [hpage, hr] at hall
      simpa using hall
    · left
      dsimp only
      rw [List.filter_append, List.length_append, le_antisymm hcount hfull]
      exact Nat.dvd_add hdvd dvd_rfl

/-- The condition, from any of the batches on. -/
theorem locate_iff (h : Going fdb requests m info l r) :
    (∃ fuel l', fdb.locate found requests.length fuel m info l = some l' ∧ CompleteSearch fdb requests l') ↔
      fdb.InTime requests ∨ fdb.OneVlan := by
  induction hn : r.length using Nat.strong_induction_on generalizing m info l r with
  | _ n ih =>
    by_cases hempty : (page FdbEntry.Usable USR_MAC_MAX_T r).filter FdbEntry.Usable = []
    · rw [← end_iff h hempty]
      refine stops_iff fun fuel => ?_
      rw [locate_page h.after, if_pos hempty]
    · cases hdone : (searchPass (locateUserMac found
        ((page FdbEntry.Usable USR_MAC_MAX_T r).filterMap FdbEntry.slot)) requests.length info 0
        l.answers).done with
      | true =>
        rw [← done_iff h hdone hempty]
        refine stops_iff fun fuel => ?_
        rw [locate_page h.after, if_neg hempty, if_pos hdone]
      | false =>
        have hsearched := h.searched.open _ hdone
        obtain ⟨t, ht⟩ := page_split FdbEntry.Usable USR_MAC_MAX_T r
        rcases (page FdbEntry.Usable USR_MAC_MAX_T r).eq_nil_or_concat with hnil | ⟨s, a, hpage⟩
        · rw [hnil] at hempty
          exact absurd rfl hempty
        · rw [List.concat_eq_append] at hpage
          have hr : r = s ++ a :: t := by
            rw [hpage] at ht
            simpa using ht
          have hleft := hsearched.left
          have hstep (fuel : Nat) : fdb.locate found requests.length (fuel + 1) m info l =
              fdb.locate found requests.length fuel a.mac
                (cleared (present (l.examined ++ page FdbEntry.Usable USR_MAC_MAX_T r)) requests)
                ⟨(searchPass (locateUserMac found
                  ((page FdbEntry.Usable USR_MAC_MAX_T r).filterMap FdbEntry.slot)) requests.length info 0
                  l.answers).answers, l.examined ++ page FdbEntry.Usable USR_MAC_MAX_T r⟩ := by
            rw [locate_page h.after, if_neg hempty, if_neg (by simp [hdone]), hleft, hpage]
            simp
          dsimp only at hsearched
          rw [hleft] at hsearched
          rw [goes_on_iff hstep]
          by_cases hvid : a.vid = 0
          · have hlt : t.length < n := by
              rw [← hn, hr]
              simp
              omega
            exact ih t.length hlt (h.next hr hpage hvid hsearched) rfl
          · refine iff_of_false ?_ (leaves_not h hr hpage hvid hempty hsearched)
            rintro ⟨fuel, l', hl', hcomplete⟩
            have hrest : fdb.rest = (l.examined ++ page FdbEntry.Usable USR_MAC_MAX_T r) ++ t := by
              rw [hpage, h.rest, hr]
              simp
            exact locate_again hrest (by simp [hpage]) hvid hl' hcomplete.once

/-- The batches of the table, one after another. -/
def Fdb.batches (fdb : Fdb) (found : Nat → Vector UInt8 15) : Nat → List UInt8 → List Batch
  | 0, _ => []
  | n + 1, lastmac =>
    match fdb.user_mac_onu_fdb_get lastmac with
    | none => []
    | some g =>
      ⟨true, g.macbuf.length, locateUserMac found g.macbuf⟩ :: fdb.batches found n g.lastmac

/-- What the handler replies, when it searches the table. -/
theorem locate_reply (g : Globals) (n : Nat) (m : List UInt8) (info : List (List UInt8)) (l : Located) :
    (searchLoop g macNum (fdb.batches found n m) info l.answers).reply =
      match fdb.locate found macNum n m info l with
      | none => .searching
      | some l' => (searchEnd g l'.answers).reply := by
  induction n generalizing m info l with
  | zero => rfl
  | succ n ih =>
    have hget : ∃ b, fdb.user_mac_onu_fdb_get m = some b := by
      obtain ⟨b, hb, -⟩ := get_eq (show after FdbEntry.key fdb.entries (fdbKey 0 m) = _ from rfl)
      exact ⟨b, hb⟩
    obtain ⟨b, hb⟩ := hget
    unfold Fdb.batches Fdb.locate
    rw [hb]
    simp only [searchLoop, Option.bind_eq_bind, Option.bind_some, Bool.true_eq_false, if_false]
    by_cases hempty : b.macbuf.length = 0
    · rw [if_pos hempty, if_pos hempty]
    · rw [if_neg hempty, if_neg hempty]
      split
      · rfl
      · exact ih b.lastmac _ ⟨_, l.examined ++ b.examined⟩

/-- The search comes to an end, examines each entry once and answers each address that
is there, exactly when there are answers enough in the first batches or the table
stays in VLAN 0. -/
theorem the_search_is_complete (fdb : Fdb) (found : Nat → Vector UInt8 15) (requests : List (List UInt8)) :
    (∃ fuel l, fdb.search found requests fuel = some l ∧ CompleteSearch fdb requests l) ↔
      fdb.InTime requests ∨ fdb.OneVlan :=
  locate_iff (search_going fdb requests)

/-- One entry in VLAN 1, and an address that is not there. -/
theorem a_missing_address_is_searched_for_ever :
    let e : FdbEntry := ⟨1, [0, 0, 0, 0, 0, 1], 1, rfl⟩
    let fdb : Fdb := ⟨[e], List.pairwise_singleton _ _⟩
    ∀ found fuel, fdb.search found [[0, 0, 0, 0, 0, 2]] fuel = none := by
  intro e fdb found fuel
  have husable : e.Usable = true := by decide
  have hslot : e.slot = some ⟨1, [0, 0, 0, 0, 0, 1]⟩ := by
    have hport : egport 1 = some 1 := by decide
    exact congrArg (Option.map fun logport => localMacsave_t.mk logport [0, 0, 0, 0, 0, 1]) hport
  -- from every address on, the search comes back to the entry
  have hafter (m : List UInt8) : after FdbEntry.key fdb.entries (fdbKey 0 m) = [e] := by
    have hless : fdbKey 0 m < e.key := Prod.Lex.toLex_lt_toLex.mpr (.inl Nat.one_pos)
    simp [after, fdb, hless]
  have hforever (fuel : Nat) (m : List UInt8) (examined : List FdbEntry) :
      fdb.locate found 1 fuel m [[0, 0, 0, 0, 0, 2]] ⟨[], examined⟩ = none := by
    induction fuel generalizing m examined with
    | zero => rfl
    | succ fuel ih =>
      rw [locate_page (hafter m)]
      have hpage : page FdbEntry.Usable USR_MAC_MAX_T [e] = [e] := rfl
      simp only [hpage, List.filter_cons, husable, List.filterMap_cons, hslot]
      exact ih e.mac _
  exact hforever fuel nullmac []

end

end gwdonu.oam
