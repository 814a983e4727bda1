-- Several sends under way: however their frames come mixed, the other side puts each payload together
-- once, under the serial and the session of its send.
import Gwdonu.OamRoundTrip
import Gwdonu.OamStreams

namespace gwdonu.oam

open assembly runs

/-! ## The sends -/

/-- What `CommOnuMsgSend` is called with. -/
structure Send where
  GwOpcode : UInt8
  SendSerNo : UInt32
  pSentData : List UInt8
  pSessionIdfield : Vector UInt8 8
  deriving DecidableEq

namespace Send

variable (built : List UInt8) (p : Send)

/-- The frames that go to the port. -/
def frames : List (List UInt8) :=
  (CommOnuMsgSend built p.GwOpcode p.SendSerNo (memory p.pSentData) (.ofNat p.pSentData.length)
    (some p.pSessionIdfield)).1

/-- The send goes through, and the other side takes its opcode. -/
structure Fits : Prop where
  some_data : p.pSentData ≠ []
  length : p.pSentData.length ≤ OAM_DATA_LEN - GWTT_OAM_HEADER.size
  send : GwOamSendOpcodeCheck p.GwOpcode = .OAM_MESSAGE_RECEV_OPCODE_OK
  receive : GwOamRecevOpcodeCheck p.GwOpcode = .OAM_MESSAGE_RECEV_OPCODE_OK

def message : Message UInt32 Tag UInt8 :=
  sentMessage p.GwOpcode p.SendSerNo (memory p.pSentData) p.pSentData.length p.pSessionIdfield

/-- The node holds what was sent. -/
structure ArrivesAs (p : Send) (node : GWTT_OAM_MESSAGE_NODE) : Prop where
  opcode : node.GwOpcode = p.GwOpcode
  serial : node.SendSerNo = p.SendSerNo
  session : node.SessionID = p.pSessionIdfield
  length : node.RevPktLen = p.pSentData.length
  whole : node.WholePktLen = p.pSentData.length
  payload : node.payload = p.pSentData

end Send

/-- What the other side gets, with memory for each node: the frames of each send in their order, mixed
with those of the others, and any of them again. -/
structure Mixes (built : List UInt8) (ps : List Send) (fs : List (Malloc × Mem)) : Prop where
  known : ∀ f ∈ fs, ∃ p ∈ ps, ∃ frame ∈ p.frames built, Brings f frame
  ordered : ∀ p ∈ ps, ∃ sub, sub.Sublist fs ∧ List.Forall₂ Brings sub (p.frames built)

/-- The frames of all sends, one send after another. -/
theorem mixes_in_order (built : List UInt8) (ps : List Send) :
    Mixes built ps (ps.flatMap fun p => (p.frames built).map fun frame => (plenty, memory frame)) where
  known f hf := by
    obtain ⟨p, hp, hf⟩ := List.mem_flatMap.mp hf
    obtain ⟨frame, hframe, rfl⟩ := List.mem_map.mp hf
    exact ⟨p, hp, frame, hframe, rfl, rfl, holds_memory frame⟩
  ordered p hp := by
    refine ⟨(p.frames built).map fun frame => (plenty, memory frame), ?_, ?_⟩
    · obtain ⟨front, behind, rfl⟩ := List.append_of_mem hp
      rw [List.flatMap_append, List.flatMap_cons]
      exact (List.sublist_append_left _ _).trans (List.sublist_append_right _ _)
    · exact List.forall₂_map_left_iff.mpr (List.forall₂_same.mpr fun frame _ => ⟨rfl, rfl, holds_memory frame⟩)

/-! ## One of them -/

variable {ntohs : UInt16 → UInt16} {built : List UInt8} {p : Send}

theorem message_payload (p : Send) : p.message.payload = p.pSentData :=
  (sentMessage_payload _ _ _ _ _).trans (holds_memory p.pSentData)

theorem Send.Fits.proper (h : p.Fits) : p.message.Proper := by
  have hpos := List.length_pos_of_ne_nil h.some_data
  refine ⟨?_, pieces_nonempty _ hpos⟩
  change 0 < (pieces (memory p.pSentData) p.pSentData.length 0).length
  rw [pieces]
  split
  · exact Nat.succ_pos _
  · exact Nat.one_pos

theorem Send.Fits.toNat_length (h : p.Fits) : (UInt16.ofNat p.pSentData.length).toNat = p.pSentData.length := by
  have hle : p.pSentData.length ≤ 65535 - 40 := h.length
  rw [UInt16.toNat_ofNat']
  exact Nat.mod_eq_of_lt (by omega)

/-- The frames of a send carry the pieces of its payload. -/
theorem Send.Fits.carries (h : p.Fits) (hntohs : ∀ x, ntohs (gwd_htons x) = x) {fs : List (Malloc × Mem)}
    (hfs : List.Forall₂ Brings fs (p.frames built)) :
    List.Forall₂ (fun f g => (f.1.node = true ∧ f.1.payload = true) ∧ Carries ntohs f.2 g) fs (p.message.stream 0) := by
  have hlen := h.toNat_length
  obtain ⟨-, avender, hannounces, hpacks⟩ := send_packs (n := .ofNat p.pSentData.length) built p.SendSerNo
    (memory p.pSentData) p.pSessionIdfield (by rw [hlen]; exact h.length) h.send
  rw [hlen] at hpacks
  refine brings_carries ntohs hntohs hannounces h.receive hfs hpacks fun f hf => ?_
  obtain ⟨hkey, htag, hwhole⟩ := mem_stream hf
  refine ⟨hkey, htag, ?_⟩
  rw [hwhole, hlen]
  exact congrArg List.length (message_payload p)

theorem exists_of_forall₂ {α β : Type} {R : α → β → Prop} {l : List α} {l' : List β} (h : List.Forall₂ R l l') {b : β}
    (hb : b ∈ l') : ∃ a ∈ l, R a b := by
  induction h with
  | nil => cases hb
  | cons hr _ ih =>
    rcases List.mem_cons.mp hb with rfl | hb
    · exact ⟨_, List.mem_cons_self, hr⟩
    · obtain ⟨a, ha, hr⟩ := ih hb
      exact ⟨a, List.mem_cons_of_mem _ ha, hr⟩

/-- So does each frame alone. -/
theorem Send.Fits.carries_one (h : p.Fits) (hntohs : ∀ x, ntohs (gwd_htons x) = x) {f : Malloc × Mem}
    {frame : List UInt8} (hframe : frame ∈ p.frames built) (hbrings : Brings f frame) :
    ∃ k < p.message.chunks.length, Carries ntohs f.2 (p.message.fragment k) := by
  -- the frame among those that come in order
  have hall : List.Forall₂ Brings ((p.frames built).map fun l => if l = frame then f else (plenty, memory l))
      (p.frames built) := by
    refine List.forall₂_map_left_iff.mpr (List.forall₂_same.mpr fun l _ => ?_)
    split
    · rename_i heq
      exact heq ▸ hbrings
    · exact ⟨rfl, rfl, holds_memory l⟩
  have hcarries := h.carries hntohs hall
  obtain ⟨g, hg, hcarry⟩ : ∃ g ∈ p.message.stream 0, Carries ntohs f.2 g := by
    obtain ⟨g, hg, hcarry⟩ := exists_of_forall₂ (List.Forall₂.flip hcarries)
      (List.mem_map.mpr ⟨frame, hframe, if_pos rfl⟩)
    exact ⟨g, hg, hcarry.2⟩
  obtain ⟨k, hk, rfl⟩ := List.mem_map.mp hg
  exact ⟨k, by simpa using hk, hcarry⟩

/-! ## All of them -/

section
variable {ps : List Send} {fs : List (Malloc × Mem)} {st : Oam}

theorem Mixes.memory (h : Mixes built ps fs) : ∀ f ∈ fs, f.1.node = true ∧ f.1.payload = true := by
  intro f hf
  obtain ⟨p, -, frame, -, hbrings⟩ := h.known f hf
  exact ⟨hbrings.1, hbrings.2.1⟩

/-- The fragments that come in are those of the messages. -/
theorem Mixes.expected (h : Mixes built ps fs) (hfits : ∀ p ∈ ps, p.Fits) (hntohs : ∀ x, ntohs (gwd_htons x) = x)
    (s : Table UInt32 Tag UInt8) : Along step (Expected (ps.map Send.message)) s (fragments ntohs fs) := by
  have hknown := h.known
  clear h
  induction fs generalizing s with
  | nil => trivial
  | cons f fs ih =>
    have hrest := fun s => ih (s := s) fun f hf => hknown f (List.mem_cons_of_mem _ hf)
    rw [fragments_cons]
    split
    · obtain ⟨p, hp, frame, hframe, hbrings⟩ := hknown f List.mem_cons_self
      obtain ⟨k, hk, -, hcarry⟩ := (hfits p hp).carries_one hntohs hframe hbrings
      exact ⟨.inl ⟨p.message, List.mem_map_of_mem hp, k, hk, hcarry⟩, hrest _⟩
    · exact hrest s

/-- Each of the sends arrives once. -/
theorem sends_arrive (hntohs : ∀ x, ntohs (gwd_htons x) = x) (h : st.Wf) (hfits : ∀ p ∈ ps, p.Fits)
    (hserials : (ps.map Send.SendSerNo).Nodup) (hnew : ∀ p ∈ ps, GwOamMessageListGetNode st p.SendSerNo = none)
    (hmixes : Mixes built ps fs) {p : Send} (hp : p ∈ ps) :
    ∃ node, (deliveredBy ntohs st fs).filter (fun node => node.SendSerNo = p.SendSerNo) = [node] ∧
      p.ArrivesAs node := by
  obtain ⟨s, hr⟩ := exists_refines h
  obtain ⟨sub, hsub, hbrings⟩ := hmixes.ordered p hp
  have hproper := (hfits p hp).proper
  have hstream := sublist_fragments ntohs hsub hmixes.memory
    (List.Forall₂.imp (fun _ _ hcarry => hcarry.2) ((hfits p hp).carries hntohs hbrings))
  have honly : ∀ M ∈ ps.map Send.message, M.key = p.message.key → M = p.message := by
    intro M hM hkey
    obtain ⟨q, hq, rfl⟩ := List.mem_map.mp hM
    exact congrArg Send.message (List.inj_on_of_nodup_map hserials hq hp hkey)
  have hnone : s p.message.key = p.message.held 0 := (refines_none hr).mp (hnew p hp)
  obtain ⟨hdelivered, -⟩ := delivered_once hproper honly hnone (Nat.zero_le _) (hmixes.expected hfits hntohs s) hstream
  rw [if_pos hproper.some_chunk] at hdelivered
  have hrel := List.rel_filter (R := Delivers) (p := fun node => decide (node.SendSerNo = p.SendSerNo))
    (q := fun d => decide (d.1 = p.message.key)) ?_ (calls_refine ntohs h hr fs).2
  swap
  · intro node d hd
    dsimp only
    rw [hd.serial]
    rfl
  rw [hdelivered] at hrel
  cases hfilter : (deliveredBy ntohs st fs).filter fun node => node.SendSerNo = p.SendSerNo with
  | nil =>
    rw [hfilter] at hrel
    cases hrel
  | cons node nodes =>
    rw [hfilter] at hrel
    cases hrel with
    | cons hnode hnodes =>
      cases hnodes
      have hwhole := hnode.abstracts.whole
      have hlength := hnode.abstracts.length
      have hbytes := hnode.abstracts.bytes (Nat.le_of_eq hnode.whole)
      have htag := hnode.abstracts.tag
      dsimp only at hwhole hlength hbytes htag
      rw [message_payload] at hwhole hlength hbytes
      exact ⟨node, rfl, (congrArg Prod.fst htag).symm, hnode.serial, (congrArg Prod.snd htag).symm, hlength.symm,
        hwhole.symm, hbytes⟩

/-- The nodes of the sends, in their order. -/
theorem sends_arrive_all (hntohs : ∀ x, ntohs (gwd_htons x) = x) (h : st.Wf) (hfits : ∀ p ∈ ps, p.Fits)
    (hserials : (ps.map Send.SendSerNo).Nodup) (hnew : ∀ p ∈ ps, GwOamMessageListGetNode st p.SendSerNo = none)
    (hmixes : Mixes built ps fs) :
    ∃ nodes, List.Forall₂ (fun p node =>
      (deliveredBy ntohs st fs).filter (fun node => node.SendSerNo = p.SendSerNo) = [node] ∧ p.ArrivesAs node)
      ps nodes := by
  have hall := fun p (hp : p ∈ ps) => sends_arrive hntohs h hfits hserials hnew hmixes hp
  clear hfits hserials hnew hmixes
  induction ps with
  | nil => exact ⟨[], .nil⟩
  | cons p ps ih =>
    obtain ⟨node, hnode⟩ := hall p List.mem_cons_self
    obtain ⟨nodes, hnodes⟩ := ih fun q hq => hall q (List.mem_cons_of_mem _ hq)
    exact ⟨node :: nodes, .cons hnode hnodes⟩

end

end gwdonu.oam
