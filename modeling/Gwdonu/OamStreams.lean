-- The law of interleaved messages: however the frames of several messages
-- come mixed, with copies and strays in between, each message is delivered
-- once and whole.
import Gwdonu.OamAssembly

namespace gwdonu.oam

open assembly runs

section
variable (ntohs : UInt16 → UInt16)

/-- The frame is for another place of its message than the next one. -/
def WrongOffset (st : Oam) (m : Mem) : Prop :=
  offsetOf ntohs m ≠ 0 ∧ ∀ p ∈ st.list, p.SendSerNo = serialOf m → offsetOf ntohs m ≠ p.RevPktLen

instance (st : Oam) (m : Mem) : Decidable (WrongOffset ntohs st m) :=
  inferInstanceAs (Decidable (_ ∧ ∀ p ∈ st.list, _))

/-- What comes in while the messages of `Ms` are under way, with memory for
each node: a piece of one of them, first time or again, or a stray. -/
def Arrives (Ms : List (Message UInt32 Tag UInt8)) (st : Oam) (f : Malloc × Mem) : Prop :=
  f.1.node = true ∧ f.1.payload = true ∧
    ((∃ M ∈ Ms, ∃ k < M.chunks.length, Carries ntohs f.2 (M.fragment k)) ∨
      WrongOffset ntohs st f.2)

/-- A frame with a wrong offset changes nothing. -/
theorem wrong_offset_ignored (mal : Malloc) {st : Oam} {m : Mem} (h : WrongOffset ntohs st m) :
    (CommOnuMsgReveive ntohs mal st m).state = st := by
  have hc := receives ntohs mal st m
  generalize CommOnuMsgReveive ntohs mal st m = r at hc
  cases hc with
  | refused => rfl
  | whole ho _ => exact absurd ho.offset h.1
  | first _ _ ho _ _ => exact absurd ho.offset h.1
  | last p he _ =>
    obtain ⟨hp, hs⟩ := getNode_mem he.known
    exact absurd he.next.symm (h.2 p hp hs)
  | middle p he _ =>
    obtain ⟨hp, hs⟩ := getNode_mem he.known
    exact absurd he.next.symm (h.2 p hp hs)

theorem wrong_offset_stray {st : Oam} {s : Table UInt32 Tag UInt8} (hr : Refines st s) {m : Mem}
    (h : WrongOffset ntohs st m) : Stray s (fragmentOf ntohs m) := by
  refine ⟨h.1, ?_⟩
  intro q hq
  cases hp : GwOamMessageListGetNode st (serialOf m) with
  | none =>
    have : s (fragmentOf ntohs m).key = none := (refines_none hr).mp hp
    simp [hq] at this
  | some p =>
    obtain ⟨q', hq', habs⟩ := refines_some hr hp
    obtain rfl : q = q' := Option.some.inj (hq.symm.trans hq')
    rw [habs.length]
    exact h.2 p (getNode_mem hp).1 (getNode_mem hp).2

/-- The fragments of what comes in are those that the table expects. -/
theorem arrives_expected {Ms : List (Message UInt32 Tag UInt8)} {st : Oam}
    {s : Table UInt32 Tag UInt8} (h : st.Wf) (hr : Refines st s) {fs : List (Malloc × Mem)}
    (hfs : Along (Oam.receive ntohs) (Arrives ntohs Ms) st fs) :
    Along step (Expected Ms) s (fragments ntohs fs) := by
  induction fs generalizing st s with
  | nil => trivial
  | cons f fs ih =>
    obtain ⟨⟨hnode, hpay, harr⟩, hrest⟩ := hfs
    have hw : (st.receive ntohs f).Wf := wf_receive ntohs h f.1 f.2
    rw [fragments_cons]
    by_cases hseen : Seen ntohs f.1 f.2
    · rw [if_pos hseen]
      refine ⟨?_, ih hw (receive_seen ntohs h hr hseen).1 hrest⟩
      rcases harr with ⟨M, hM, k, hk, -, hf⟩ | hwrong
      · exact Or.inl ⟨M, hM, k, hk, hf⟩
      · exact Or.inr (wrong_offset_stray ntohs hr hwrong)
    · rw [if_neg hseen]
      have hsame : st.receive ntohs f = st := (receive_unseen ntohs hseen st).1
      rw [hsame] at hrest
      exact ih h hr hrest

/-- Frames that carry fragments, among frames that all have memory, give those
fragments in that order. -/
theorem sublist_fragments {sub fs : List (Malloc × Mem)} {l : List (Fragment UInt32 Tag UInt8)}
    (hsub : sub.Sublist fs) (hmem : ∀ f ∈ fs, f.1.node = true ∧ f.1.payload = true)
    (hl : List.Forall₂ (fun f g => Carries ntohs f.2 g) sub l) :
    l.Sublist (fragments ntohs fs) := by
  induction hsub generalizing l with
  | slnil =>
    cases hl
    exact List.nil_sublist _
  | cons f _ ih =>
    have h := ih (fun g hg => hmem g (List.mem_cons_of_mem _ hg)) hl
    rw [fragments_cons]
    split
    · exact h.cons _
    · exact h
  | cons_cons f _ ih =>
    cases hl with
    | cons hf hl =>
      have h := ih (fun g hg => hmem g (List.mem_cons_of_mem _ hg)) hl
      have hmem' := hmem f List.mem_cons_self
      have hseen : Seen ntohs f.1 f.2 := ⟨hf.1, fun _ => ⟨hmem'.1, Or.inr hmem'.2⟩⟩
      rw [fragments_cons, if_pos hseen, ← hf.2]
      exact h.cons_cons _

/-- Messages with serials of their own, whose frames come mixed but each
message's in order, with copies and strays in between: each message is
delivered once, with the bytes of its pieces, and a stray changes nothing. -/
theorem interleaved_messages_are_each_delivered_once (Ms : List (Message UInt32 Tag UInt8))
    (hproper : ∀ M ∈ Ms, M.Proper) (hserials : (Ms.map (·.key)).Nodup) {st : Oam} (h : st.Wf)
    (hnew : ∀ M ∈ Ms, GwOamMessageListGetNode st M.key = none) {fs : List (Malloc × Mem)}
    (hfs : Along (Oam.receive ntohs) (Arrives ntohs Ms) st fs)
    (hstreams : ∀ M ∈ Ms, ∃ sub, sub.Sublist fs ∧
      List.Forall₂ (fun f g => Carries ntohs f.2 g) sub (M.stream 0)) :
    (∀ M ∈ Ms, ∃ p, (deliveredBy ntohs st fs).filter (fun p => p.SendSerNo = M.key) = [p] ∧
        (p.GwOpcode, p.SessionID) = M.tag ∧ p.RevPktLen = M.payload.length ∧
        p.WholePktLen = M.payload.length ∧ p.payload = M.chunks.flatten) ∧
      Along (Oam.receive ntohs)
        (fun st f => WrongOffset ntohs st f.2 → st.receive ntohs f = st) st fs := by
  refine ⟨?_, ?_⟩
  · intro M hM
    obtain ⟨s, hr⟩ := exists_refines h
    obtain ⟨sub, hsub, hcarry⟩ := hstreams M hM
    have hmem : ∀ f ∈ fs, f.1.node = true ∧ f.1.payload = true :=
      along_mem (fun _ _ ha => ⟨ha.1, ha.2.1⟩) hfs
    have honly : ∀ N ∈ Ms, N.key = M.key → N = M := fun N hN hk =>
      List.inj_on_of_nodup_map hserials hN hM hk
    have hnone : s M.key = M.held 0 := (refines_none hr).mp (hnew M hM)
    obtain ⟨hdel, -⟩ := delivered_once (hproper M hM) honly hnone (Nat.zero_le _)
      (arrives_expected ntohs h hr hfs) (sublist_fragments ntohs hsub hmem hcarry)
    rw [if_pos (hproper M hM).some_chunk] at hdel
    have hrel := List.rel_filter (R := Delivers)
      (p := fun p => decide (p.SendSerNo = M.key)) (q := fun d => decide (d.1 = M.key))
      (fun p d hd => by simp [hd.serial]) (calls_refine ntohs h hr fs).2
    rw [hdel] at hrel
    cases hf : (deliveredBy ntohs st fs).filter (fun p => p.SendSerNo = M.key) with
    | nil => rw [hf] at hrel; cases hrel
    | cons p ps =>
      rw [hf] at hrel
      cases hrel with
      | cons hp hps =>
        cases hps
        have hwhole := hp.whole
        have hlen := hp.abstracts.length
        exact ⟨p, rfl, hp.abstracts.tag.symm, hlen.symm, hp.abstracts.whole.symm,
          hp.abstracts.bytes (Nat.le_of_eq hwhole)⟩
  · exact along_imp (I := fun _ => True) (P := fun _ _ => True) (fun _ _ _ _ => trivial)
      (fun st f _ _ hwrong => wrong_offset_ignored ntohs f.1 hwrong) trivial (along_true st fs)

end

/-! ## Two messages, one stray -/

def lookMessage : Message UInt32 Tag UInt8 :=
  ⟨1, (CLI_REQ_TRANSMIT, Vector.replicate 8 0), [[0x6c, 0x6f], [0x6f, 0x6b]]⟩

def trapMessage : Message UInt32 Tag UInt8 :=
  ⟨2, (SNMP_TRAN_REQ, Vector.replicate 8 1), [[0x74], [0x72], [0x61, 0x70]]⟩

/-- The frame of piece `k`. -/
def frameOf (M : Message UInt32 Tag UInt8) (k : Nat) : Malloc × Mem :=
  (plenty, oamFrame M.tag.1 M.key (.ofNat M.payload.length) (.ofNat (M.upto k).length) M.tag.2
    (M.chunks[k]?.getD []))

/-- A frame for byte 3 of the first message, which has two bytes then. -/
def strayFrame : Malloc × Mem :=
  (plenty, oamFrame CLI_REQ_TRANSMIT 1 4 3 (Vector.replicate 8 0) [0x6b])

def mixedFrames : List (Malloc × Mem) :=
  [frameOf lookMessage 0, frameOf trapMessage 0, strayFrame, frameOf trapMessage 1,
    frameOf lookMessage 0, frameOf lookMessage 1, frameOf trapMessage 2]

theorem a_mixed_run_delivers_both :
    (∃ p, (deliveredBy gwd_htons Oam.init mixedFrames).filter (fun p => p.SendSerNo = 1) = [p] ∧
        p.payload = [0x6c, 0x6f, 0x6f, 0x6b]) ∧
      ∃ p, (deliveredBy gwd_htons Oam.init mixedFrames).filter (fun p => p.SendSerNo = 2) = [p] ∧
        p.payload = [0x74, 0x72, 0x61, 0x70] := by
  have hpiece : ∀ M ∈ [lookMessage, trapMessage], ∀ k < M.chunks.length,
      Carries gwd_htons (frameOf M k).2 (M.fragment k) := by
    unfold Carries
    decide +kernel
  have hfs : Along (Oam.receive gwd_htons) (Arrives gwd_htons [lookMessage, trapMessage]) Oam.init
      mixedFrames := by
    have harr : ∀ M ∈ [lookMessage, trapMessage], ∀ k < M.chunks.length, ∀ st,
        Arrives gwd_htons [lookMessage, trapMessage] st (frameOf M k) :=
      fun M hM k hk st => ⟨rfl, rfl, Or.inl ⟨M, hM, k, hk, hpiece M hM k hk⟩⟩
    refine ⟨harr lookMessage (by simp) 0 (by decide) _, harr trapMessage (by simp) 0 (by decide) _,
      ⟨rfl, rfl, Or.inr (by decide +kernel)⟩, harr trapMessage (by simp) 1 (by decide) _,
      harr lookMessage (by simp) 0 (by decide) _, harr lookMessage (by simp) 1 (by decide) _,
      harr trapMessage (by simp) 2 (by decide) _, trivial⟩
  have h := interleaved_messages_are_each_delivered_once gwd_htons
    [lookMessage, trapMessage] ?_ ?_ wf_init ?_ hfs ?_
  · obtain ⟨p, hp, -, -, -, hlook⟩ := h.1 lookMessage (by simp)
    obtain ⟨q, hq, -, -, -, htrap⟩ := h.1 trapMessage (by simp)
    exact ⟨⟨p, hp, hlook⟩, q, hq, htrap⟩
  · simp only [List.forall_mem_cons, List.not_mem_nil, false_implies, implies_true, and_true]
    exact ⟨⟨by decide, by decide⟩, ⟨by decide, by decide⟩⟩
  · decide
  · simp [GwOamMessageListGetNode, Oam.init]
  · simp only [List.forall_mem_cons, List.not_mem_nil, false_implies, implies_true, and_true]
    refine ⟨?_, ?_⟩
    · refine ⟨[frameOf lookMessage 0, frameOf lookMessage 1], ?_, ?_⟩
      · exact .cons_cons _ (.cons _ (.cons _ (.cons _ (.cons _ (.cons_cons _ (.cons _ .slnil))))))
      · exact .cons (hpiece _ (by simp) 0 (by decide)) (.cons (hpiece _ (by simp) 1 (by decide)) .nil)
    · refine ⟨[frameOf trapMessage 0, frameOf trapMessage 1, frameOf trapMessage 2], ?_, ?_⟩
      · exact .cons _ (.cons_cons _ (.cons _ (.cons_cons _ (.cons _ (.cons _ (.cons_cons _ .slnil))))))
      · exact .cons (hpiece _ (by simp) 0 (by decide)) (.cons (hpiece _ (by simp) 1 (by decide))
          (.cons (hpiece _ (by simp) 2 (by decide)) .nil))

end gwdonu.oam
