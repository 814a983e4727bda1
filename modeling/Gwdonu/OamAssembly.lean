-- The message list as reassembly: every frame that `CommOnuMsgReveive` lets
-- through moves the list as a fragment moves a table of messages.
import Gwdonu.OamList
import Gwdonu.Lib.Assembly

namespace gwdonu.oam

open assembly runs

/-- The opcode and the session of a message. -/
abbrev Tag := UInt8 × Vector UInt8 8

/-! ## Nodes and messages -/

/-- A node stands for a message. A node that took more bytes than it announced
keeps the count of them, and its bytes are lost. -/
structure Abstracts (p : GWTT_OAM_MESSAGE_NODE) (q : Partial Tag UInt8) : Prop where
  tag : q.tag = (p.GwOpcode, p.SessionID)
  whole : q.whole = p.WholePktLen
  length : q.data.length = p.RevPktLen
  bytes : p.RevPktLen ≤ p.WholePktLen → p.payload = q.data

/-- The list stands for a table of messages by serial. -/
def Refines (st : Oam) (s : Table UInt32 Tag UInt8) : Prop :=
  ∀ key, Option.Rel Abstracts (GwOamMessageListGetNode st key) (s key)

theorem overlay_take (b : List UInt8) (off : Nat) (d : List UInt8) (h : off + d.length ≤ b.length) :
    (overlay b off d).take (off + d.length) = b.take off ++ d := by
  have hlen : (b.take off ++ d).length = off + d.length := by
    rw [List.length_append, List.length_take, Nat.min_eq_left (by omega)]
  unfold overlay
  rw [List.take_take, Nat.min_eq_left h, ← hlen, List.take_left]

theorem block_some {p : GWTT_OAM_MESSAGE_NODE}
    (h : p.pPayLoad.map List.length = blockLength p.WholePktLen) (hn : p.WholePktLen ≠ 0) :
    ∃ b, p.pPayLoad = some b ∧ b.length = p.WholePktLen + 1 := by
  rw [blockLength, if_neg hn] at h
  exact Option.map_eq_some_iff.mp h

theorem block_none {p : GWTT_OAM_MESSAGE_NODE}
    (h : p.pPayLoad.map List.length = blockLength p.WholePktLen) (hn : p.WholePktLen = 0) :
    p.pPayLoad = none := by
  rw [blockLength, if_pos hn] at h
  exact Option.map_eq_none_iff.mp h

theorem payload_length {p : GWTT_OAM_MESSAGE_NODE}
    (h : p.pPayLoad.map List.length = blockLength p.WholePktLen)
    (hle : p.RevPktLen ≤ p.WholePktLen) : p.payload.length = p.RevPktLen := by
  unfold GWTT_OAM_MESSAGE_NODE.payload
  by_cases hn : p.WholePktLen = 0
  · rw [block_none h hn]
    simp
    omega
  · obtain ⟨b, hb, hlen⟩ := block_some h hn
    rw [hb, Option.getD_some, List.length_take]
    omega

/-- Every well formed list stands for some table. -/
theorem exists_refines {st : Oam} (h : st.Wf) : ∃ s, Refines st s := by
  refine ⟨fun key => (GwOamMessageListGetNode st key).map (fun p =>
    ⟨(p.GwOpcode, p.SessionID), p.WholePktLen,
      if p.RevPktLen ≤ p.WholePktLen then p.payload else List.replicate p.RevPktLen 0⟩), ?_⟩
  intro key
  dsimp only
  cases hp : GwOamMessageListGetNode st key with
  | none => exact .none
  | some p =>
    refine .some (Abstracts.mk rfl rfl ?_ (fun hle => (if_pos hle).symm))
    dsimp only
    split
    · rename_i hle
      exact payload_length (h.block p (getNode_mem hp).1) hle
    · simp

section
variable (ntohs : UInt16 → UInt16)

/-- The fragment that a frame carries. -/
def fragmentOf (m : Mem) : Fragment UInt32 Tag UInt8 where
  key := serialOf m
  tag := ((GWTT_OAM_HEADER.load m).opCode, (GWTT_OAM_HEADER.load m).sessionId)
  whole := wholeOf ntohs m
  offset := offsetOf ntohs m
  data := dataOf ntohs m

/-- The frame gets as far as the list: it is one of the vendor's, and a first
fragment has memory for its node. -/
def Seen (mal : Malloc) (m : Mem) : Prop :=
  Accepted m ∧ (offsetOf ntohs m = 0 →
    mal.node = true ∧ (wholeOf ntohs m = 0 ∨ mal.payload = true))

instance (mal : Malloc) (m : Mem) : Decidable (Seen ntohs mal m) :=
  inferInstanceAs (Decidable (_ ∧ _))

/-- A frame that starts with a header and its payload carries that payload. -/
theorem fragmentOf_header (hntohs : ∀ x, ntohs (gwd_htons x) = x) {m : Mem} {h : GWTT_OAM_HEADER}
    {whole offset : UInt16} {data : List UInt8} (hm : Holds m 0 (h.toBytes ++ data))
    (hwhole : h.wholePktLen = gwd_htons whole) (hoffset : h.payloadOffset = gwd_htons offset)
    (hlen : h.payLoadLength = gwd_htons (.ofNat data.length)) (hdata : data.length < 65536) :
    fragmentOf ntohs m =
      ⟨h.senderSerNo, (h.opCode, h.sessionId), whole.toNat, offset.toNat, data⟩ := by
  obtain ⟨hhead, hbytes⟩ := (holds_append m 0 h.toBytes data).mp hm
  have hload : GWTT_OAM_HEADER.load m = h := load_toBytes hhead
  have hn : lengthOf ntohs m = data.length := by
    rw [lengthOf, hload, hlen, hntohs]
    simp only [UInt16.toNat_ofNat']
    omega
  have hd : dataOf ntohs m = data := by
    rw [dataOf, hn]
    simpa [Holds] using hbytes
  simp only [fragmentOf, serialOf, wholeOf, offsetOf, hload, hwhole, hoffset, hntohs, hd]

/-- The node of a first fragment stands for the message that the fragment opens. -/
theorem firstNode_abstracts (m : Mem) (a t : Nat) :
    Abstracts (firstNode ntohs m a t)
      ⟨(fragmentOf ntohs m).tag, (fragmentOf ntohs m).whole, (fragmentOf ntohs m).data⟩ := by
  refine ⟨rfl, rfl, dataOf_length ntohs m, ?_⟩
  intro hle
  change lengthOf ntohs m ≤ wholeOf ntohs m at hle
  change ((Option.map _ (emptyBlock (wholeOf ntohs m))).getD []).take (lengthOf ntohs m) =
    dataOf ntohs m
  unfold emptyBlock
  split
  · have hnil : dataOf ntohs m = [] := List.eq_nil_of_length_eq_zero (by simp; omega)
    rw [hnil]
    simp
  · have htake := overlay_take (List.replicate (wholeOf ntohs m + 1) 0) 0
      (dataOf ntohs m) (by simp; omega)
    simpa using htake

/-- A node with the next fragment in stands for its message with these bytes in. -/
theorem extend_abstracts {st : Oam} (h : st.Wf) {m : Mem} {p : GWTT_OAM_MESSAGE_NODE}
    {q : Partial Tag UInt8} (he : Extends ntohs st m p) (hq : Abstracts p q) :
    Abstracts (p.extend (dataOf ntohs m)) { q with data := q.data ++ dataOf ntohs m } := by
  have hblock := h.block p (getNode_mem he.known).1
  have hoff := he.offset
  have hnext := he.next
  have hroom := he.room
  refine ⟨hq.tag, hq.whole, by simp [hq.length], ?_⟩
  intro _
  obtain ⟨b, hb, hlen⟩ := block_some hblock (by omega)
  have htake := overlay_take b p.RevPktLen (dataOf ntohs m) (by simp; omega)
  have hold := hq.bytes (by omega)
  rw [GWTT_OAM_MESSAGE_NODE.payload, hb, Option.getD_some] at hold
  rw [← hold, ← htake]
  simp [GWTT_OAM_MESSAGE_NODE.payload, GWTT_OAM_MESSAGE_NODE.extend, GWTT_OAM_MESSAGE_NODE.fill, hb]

/-! ## One frame -/

/-- A delivered node stands for a delivered message. -/
structure Delivers (p : GWTT_OAM_MESSAGE_NODE) (d : UInt32 × Partial Tag UInt8) : Prop where
  serial : p.SendSerNo = d.1
  abstracts : Abstracts p d.2
  whole : p.RevPktLen = p.WholePktLen

theorem refines_update {st st' : Oam} {s : Table UInt32 Tag UInt8} (hr : Refines st s)
    {p : GWTT_OAM_MESSAGE_NODE} {q : Partial Tag UInt8} (hq : Abstracts p q)
    (hget : ∀ key, GwOamMessageListGetNode st' key =
      if key = p.SendSerNo then some p else GwOamMessageListGetNode st key) :
    Refines st' (Function.update s p.SendSerNo (some q)) := by
  intro key
  rw [hget]
  by_cases hk : key = p.SendSerNo
  · subst hk
    rw [if_pos rfl, Function.update_self]
    exact .some hq
  · rw [if_neg hk, Function.update_of_ne hk]
    exact hr key

theorem refines_none {st : Oam} {s : Table UInt32 Tag UInt8} (hr : Refines st s) {key : UInt32} :
    GwOamMessageListGetNode st key = none ↔ s key = none := by
  have h := hr key
  generalize GwOamMessageListGetNode st key = a at h ⊢
  generalize s key = b at h ⊢
  cases h <;> simp

theorem refines_some {st : Oam} {s : Table UInt32 Tag UInt8} (hr : Refines st s) {key : UInt32}
    {p : GWTT_OAM_MESSAGE_NODE} (hp : GwOamMessageListGetNode st key = some p) :
    ∃ q, s key = some q ∧ Abstracts p q := by
  have h := hr key
  rw [hp] at h
  generalize s key = b at h ⊢
  cases h with
  | some hq => exact ⟨_, rfl, hq⟩

/-- A frame that is seen opens a message where the table opens one. -/
theorem accept_opens {mal : Malloc} {st : Oam} {s : Table UInt32 Tag UInt8} (hr : Refines st s)
    {m : Mem} (ho : Opens ntohs mal st m) :
    accept s (fragmentOf ntohs m) = some ⟨(fragmentOf ntohs m).tag, (fragmentOf ntohs m).whole,
      (fragmentOf ntohs m).data⟩ := by
  have hnone : s (fragmentOf ntohs m).key = none := (refines_none hr).mp ho.unknown
  have hoff : (fragmentOf ntohs m).offset = 0 := ho.offset
  unfold accept
  rw [hnone]
  simp [hoff]

theorem accept_extends {st : Oam} {s : Table UInt32 Tag UInt8} (hr : Refines st s) {m : Mem}
    {p : GWTT_OAM_MESSAGE_NODE} (he : Extends ntohs st m p) :
    ∃ q, Abstracts p q ∧ s (fragmentOf ntohs m).key = some q ∧
      accept s (fragmentOf ntohs m) = some { q with data := q.data ++ dataOf ntohs m } := by
  obtain ⟨q, hs, hq⟩ := refines_some hr he.known
  refine ⟨q, hq, hs, ?_⟩
  have hs' : s (fragmentOf ntohs m).key = some q := hs
  have hroom : q.data.length + (fragmentOf ntohs m).data.length ≤ q.whole := by
    rw [hq.length, hq.whole]
    simpa [fragmentOf] using he.room
  have hnext : (fragmentOf ntohs m).offset = q.data.length := by
    rw [hq.length]
    exact he.next.symm
  unfold accept
  rw [hs']
  dsimp only
  rw [if_pos ⟨he.offset, hnext, hroom⟩]
  rfl

/-- A frame that is seen and that the receiver refuses is one that the table drops. -/
theorem accept_refused {mal : Malloc} {st : Oam} {s : Table UInt32 Tag UInt8} (hr : Refines st s)
    {m : Mem} (hseen : Seen ntohs mal m) (hopen : ¬ Opens ntohs mal st m)
    (hext : ∀ p, ¬ Extends ntohs st m p) : accept s (fragmentOf ntohs m) = none := by
  by_contra hacc
  obtain ⟨r, hacc⟩ := Option.ne_none_iff_exists'.mp hacc
  rcases accept_some hacc with ⟨hnone, hoff, -⟩ | ⟨q, hs, hoff, hnext, hroom, -⟩
  · exact hopen ⟨hseen.1, hoff, (refines_none hr).mpr hnone, hseen.2 hoff⟩
  · obtain ⟨p, hp⟩ : ∃ p, GwOamMessageListGetNode st (serialOf m) = some p := by
      apply Option.ne_none_iff_exists'.mp
      intro hnone
      have : s (fragmentOf ntohs m).key = none := (refines_none hr).mp hnone
      simp [hs] at this
    obtain ⟨q', hs', hq⟩ := refines_some hr hp
    obtain rfl : q = q' := Option.some.inj (hs.symm.trans hs')
    refine hext p ⟨hseen.1, hoff, hp, ?_, ?_⟩
    · rw [← hq.length]
      exact hnext.symm
    · rw [← hq.length, ← hq.whole]
      simpa [fragmentOf] using hroom

/-- A node is complete when its message is. -/
theorem delivers_complete {p : GWTT_OAM_MESSAGE_NODE} {q : Partial Tag UInt8} {key : UInt32}
    (hq : Abstracts p q) (hs : p.SendSerNo = key) (hc : p.RevPktLen = p.WholePktLen) :
    Option.Rel Delivers (some p)
      (((some q).filter (fun q => q.data.length = q.whole)).map (fun q => (key, q))) := by
  have hwhole : q.data.length = q.whole := by rw [hq.length, hq.whole, hc]
  rw [Option.filter_some, if_pos (by simpa using hwhole)]
  exact .some ⟨hs, hq, hc⟩

theorem delivers_partial {p : GWTT_OAM_MESSAGE_NODE} {q : Partial Tag UInt8} {key : UInt32}
    (hq : Abstracts p q) (hc : p.RevPktLen ≠ p.WholePktLen) :
    Option.Rel Delivers none
      (((some q).filter (fun q => q.data.length = q.whole)).map (fun q => (key, q))) := by
  have hpart : q.data.length ≠ q.whole := by rwa [hq.length, hq.whole]
  rw [Option.filter_some, if_neg (by simpa using hpart)]
  exact .none

/-- The receiver moves the list as the fragment moves the table. -/
theorem receive_seen {mal : Malloc} {st : Oam} {s : Table UInt32 Tag UInt8} (h : st.Wf)
    (hr : Refines st s) {m : Mem} (hseen : Seen ntohs mal m) :
    Refines (CommOnuMsgReveive ntohs mal st m).state (step s (fragmentOf ntohs m)) ∧
      Option.Rel Delivers (CommOnuMsgReveive ntohs mal st m).delivered
        ((delivers s (fragmentOf ntohs m)).map (fun q => (serialOf m, q))) := by
  have hc := receives ntohs mal st m
  generalize CommOnuMsgReveive ntohs mal st m = r at hc
  cases hc with
  | refused ret hok _ hopen hext =>
    have hacc := accept_refused ntohs hr hseen hopen hext
    refine ⟨by simpa [step, hacc, Received.refuse] using hr, ?_⟩
    simp only [Received.refuse, Received.delivered, hok, if_false, delivers, hacc,
      Option.filter_none, Option.map_none]
    exact .none
  | whole ho hwhole =>
    have habs := firstNode_abstracts ntohs m st.next 0
    rw [step, delivers, accept_opens ntohs hr ho]
    refine ⟨refines_update hr habs (getNode_add { st with next := st.next + 1 } _), ?_⟩
    exact delivers_complete habs rfl hwhole.symm
  | first st' handle ho hwhole hadd =>
    have habs := firstNode_abstracts ntohs m st.next handle
    rw [step, delivers, accept_opens ntohs hr ho]
    refine ⟨refines_update hr habs (fun key => ?_), delivers_partial habs (Ne.symm hwhole)⟩
    have hget := getNode_timer_add mal { st with next := st.next + 1 } st.next key
    rw [hadd] at hget
    rw [getNode_add, hget]
    rfl
  | last p he hlast =>
    obtain ⟨q, hq, -, hacc⟩ := accept_extends ntohs hr he
    have habs := extend_abstracts ntohs h he hq
    have hp := getNode_mem he.known
    have hkey : (fragmentOf ntohs m).key = (p.extend (dataOf ntohs m)).SendSerNo := hp.2.symm
    rw [step, delivers, hacc]
    refine ⟨?_, delivers_complete habs hp.2 (by simpa using hlast)⟩
    rw [hkey]
    refine refines_update hr habs (fun key => ?_)
    exact getNode_store (wf_timer_del h p.TimerID) hp.1 (replaces_extend h hp.1 _) key
  | middle p he hpart =>
    obtain ⟨q, hq, -, hacc⟩ := accept_extends ntohs hr he
    have habs := extend_abstracts ntohs h he hq
    have hp := getNode_mem he.known
    have hkey : (fragmentOf ntohs m).key = (p.extend (dataOf ntohs m)).SendSerNo := hp.2.symm
    rw [step, delivers, hacc]
    refine ⟨?_, delivers_partial habs (by simpa using hpart)⟩
    rw [hkey]
    refine refines_update hr habs (fun key => ?_)
    rw [getNode_store (wf_timer_add (wf_timer_del h p.TimerID) mal p.addr) (by simpa using hp.1)
      (replaces_extend h hp.1 _) key, getNode_timer_add]
    rfl

/-- A frame that is not seen leaves everything as it is. -/
theorem receive_unseen {mal : Malloc} {m : Mem} (h : ¬ Seen ntohs mal m) (st : Oam) :
    (CommOnuMsgReveive ntohs mal st m).state = st ∧
      (CommOnuMsgReveive ntohs mal st m).delivered = none := by
  have hc := receives ntohs mal st m
  generalize CommOnuMsgReveive ntohs mal st m = r at hc
  cases hc with
  | refused ret hok _ _ _ => exact ⟨rfl, if_neg hok⟩
  | whole ho _ => exact absurd ⟨ho.accepted, fun _ => ho.memory⟩ h
  | first _ _ ho _ _ => exact absurd ⟨ho.accepted, fun _ => ho.memory⟩ h
  | last p he _ => exact absurd ⟨he.accepted, fun h0 => absurd h0 he.offset⟩ h
  | middle p he _ => exact absurd ⟨he.accepted, fun h0 => absurd h0 he.offset⟩ h

/-- The frame is one that the receiver lets through, with this fragment. -/
def Carries (m : Mem) (f : Fragment UInt32 Tag UInt8) : Prop :=
  Accepted m ∧ fragmentOf ntohs m = f

/-! ## Many frames -/

/-- One call, with the memory that it gets. -/
def Oam.receive (st : Oam) (f : Malloc × Mem) : Oam := (CommOnuMsgReveive ntohs f.1 st f.2).state

/-- The calls for a list of frames, in order. -/
def calls : Oam → List (Malloc × Mem) → List Received
  | _, [] => []
  | st, f :: fs => CommOnuMsgReveive ntohs f.1 st f.2 :: calls (st.receive ntohs f) fs

/-- The messages that a list of frames delivers, in order. -/
def deliveredBy (st : Oam) (fs : List (Malloc × Mem)) : List GWTT_OAM_MESSAGE_NODE :=
  (calls ntohs st fs).filterMap (·.delivered)

/-- The fragments of the frames that get as far as the list. -/
def fragments (fs : List (Malloc × Mem)) : List (Fragment UInt32 Tag UInt8) :=
  (fs.filter (fun f => Seen ntohs f.1 f.2)).map (fun f => fragmentOf ntohs f.2)

theorem fragments_cons (f : Malloc × Mem) (fs : List (Malloc × Mem)) :
    fragments ntohs (f :: fs) =
      if Seen ntohs f.1 f.2 then fragmentOf ntohs f.2 :: fragments ntohs fs
      else fragments ntohs fs := by
  unfold fragments
  rw [List.filter_cons]
  split <;> simp_all

theorem deliveredBy_cons (st : Oam) (f : Malloc × Mem) (fs : List (Malloc × Mem)) :
    deliveredBy ntohs st (f :: fs) = (CommOnuMsgReveive ntohs f.1 st f.2).delivered.toList ++
      deliveredBy ntohs (st.receive ntohs f) fs := by
  unfold deliveredBy
  rw [calls, List.filterMap_cons]
  cases (CommOnuMsgReveive ntohs f.1 st f.2).delivered <;> rfl

theorem rel_toList {α β : Type*} {R : α → β → Prop} {a : Option α} {b : Option β}
    (h : Option.Rel R a b) : List.Forall₂ R a.toList b.toList := by
  cases h with
  | none => exact .nil
  | some h => exact .cons h .nil

/-- A run of the receiver is the run of its fragments, and delivers the same messages. -/
theorem calls_refine {st : Oam} {s : Table UInt32 Tag UInt8} (h : st.Wf) (hr : Refines st s)
    (fs : List (Malloc × Mem)) :
    Refines (run (Oam.receive ntohs) st fs) (run step s (fragments ntohs fs)) ∧
      List.Forall₂ Delivers (deliveredBy ntohs st fs) (deliveries s (fragments ntohs fs)) := by
  induction fs generalizing st s with
  | nil => exact ⟨hr, .nil⟩
  | cons f fs ih =>
    have hw : (st.receive ntohs f).Wf := wf_receive ntohs h f.1 f.2
    rw [fragments_cons, deliveredBy_cons, run_cons]
    by_cases hseen : Seen ntohs f.1 f.2
    · obtain ⟨hstep, hdel⟩ := receive_seen ntohs h hr hseen
      obtain ⟨hrun, hrest⟩ := ih hw hstep
      rw [if_pos hseen]
      exact ⟨hrun, List.rel_append (rel_toList hdel) hrest⟩
    · obtain ⟨hstate, hnone⟩ := receive_unseen ntohs hseen st
      have hsame : st.receive ntohs f = st := hstate
      rw [if_neg hseen, hnone, hsame]
      exact ih h hr

end

end gwdonu.oam
