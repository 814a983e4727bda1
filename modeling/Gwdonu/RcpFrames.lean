-- The transmit buffer of the RCP calls. Each call builds its frame in it before it
-- takes the channel, so that a frame can be built over another one that waits.
import Gwdonu.Rcp

namespace gwdonu.rcp

open Function os_core runs

variable {s t : State} {p q : Nat} {c d : Caller} {k : Content} {frame : List UInt8}

/-! ## The law -/

/-- The frame that a call sends has what the call put into it. -/
def SendsItsOwn (s : State) (e : Event) : Prop :=
  ∀ p ok vid c, e = .turn p ok vid → s.caller p = some c → c.pc = .send →
    Carries (s.gucTxRcpPktBuf.take 64) c.content

/-- The call has built its frame and not sent it yet. -/
def Caller.Loaded (c : Caller) : Bool :=
  match c.pc with
  | .take _ | .send => true
  | _ => false

/-- A call builds its frame while no other one is loaded, or with the same content. -/
def Undisturbed (s : State) (e : Event) : Prop :=
  ∀ p ok vid c, e = .turn p ok vid → s.caller p = some c → c.pc = .build →
    ∀ q d, q ≠ p → s.caller q = some d → d.Loaded → Carries (c.frame s.world vid) d.content

/-! ## What a frame carries -/

/-- A part of a frame is the field at its place. -/
theorem field_part {a b c : List UInt8} {i n : Nat} (h : frame = a ++ (b ++ c)) (hi : a.length = i)
    (hn : b.length = n) : field frame i n = b := by
  subst h hi hn
  rw [field, List.drop_left, List.take_left]

/-- The bytes of a frame up to its opcode. -/
def Content.head (k : Content) (vlan : Bool) (mac : Vector UInt8 6) (vid : UInt16) : List UInt8 :=
  k.switchMac.toList ++ mac.toList ++
    (if vlan then RcpVlanTag ++ [(vid >>> 8).toUInt8 ||| 0xf0, vid.toUInt8] else []) ++
    RcpEtherType ++ [REALTEK_PROTOCOL_RRCP]

theorem head_length (k : Content) (vlan : Bool) (mac : Vector UInt8 6) (vid : UInt16) :
    (k.head vlan mac vid).length = 15 + if vlan then 4 else 0 := by
  have haddr : (k.switchMac.toList ++ mac.toList).length = 12 := by
    rw [List.length_append, Vector.length_toList, Vector.length_toList]
  rw [Content.head, List.length_append, List.length_append, List.length_append, haddr]
  cases vlan <;> rfl

theorem frame_eq (k : Content) (vlan : Bool) (mac : Vector UInt8 6) (vid : UInt16) :
    ∃ pad, k.frame vlan mac vid = k.head vlan mac vid ++ ([k.opcode] ++ (k.authenKey.toList ++
      ((k.regAddr.map SET_SHORT_TO_RCP_PKT).getD [] ++ ((k.data.map SET_SHORT_TO_RCP_PKT).getD [] ++ pad)))) := by
  apply Exists.intro
  rw [Content.frame, Content.head, List.rightpad]
  simp only [List.append_assoc]
  rfl

/-- The tag stands behind the two addresses, or the type does. -/
theorem frame_tag (k : Content) (vlan : Bool) (mac : Vector UInt8 6) (vid : UInt16) :
    tagLength (k.frame vlan mac vid) = if vlan then 4 else 0 := by
  have haddr : (k.switchMac.toList ++ mac.toList).length = 12 := by
    rw [List.length_append, Vector.length_toList, Vector.length_toList]
  have htype (b : List UInt8) (hb : b.length = 2)
      (h : ∃ c, k.frame vlan mac vid = k.switchMac.toList ++ mac.toList ++ (b ++ c)) :
      field (k.frame vlan mac vid) 12 2 = b := h.elim fun _ hc => field_part hc haddr hb
  obtain ⟨pad, hpad⟩ := frame_eq k vlan mac vid
  unfold tagLength
  cases vlan with
  | false =>
    rw [htype RcpEtherType rfl ⟨_, by rw [hpad, Content.head]; simp only [List.append_assoc]; rfl⟩]
    rfl
  | true =>
    rw [htype RcpVlanTag rfl ⟨_, by rw [hpad, Content.head]; simp only [List.append_assoc]; rfl⟩]
    rfl

/-- A frame with a register, or with nothing behind its key. -/
theorem frame_carries (k : Content) (hdata : k.regAddr = none → k.data = none) (vlan : Bool)
    (mac : Vector UInt8 6) (vid : UInt16) : Carries (k.frame vlan mac vid) k := by
  have htag := frame_tag k vlan mac vid
  have hhead := head_length k vlan mac vid
  obtain ⟨pad, hpad⟩ := frame_eq k vlan mac vid
  have hkey : (k.head vlan mac vid ++ [k.opcode]).length = 16 + tagLength (k.frame vlan mac vid) := by
    rw [List.length_append, hhead, htag]
    exact Nat.add_right_comm _ _ 1
  have haddr : (k.head vlan mac vid ++ [k.opcode] ++ k.authenKey.toList).length =
      18 + tagLength (k.frame vlan mac vid) := by
    rw [List.length_append, hkey, Vector.length_toList]
    exact Nat.add_right_comm _ _ 2
  refine ⟨?_, ?_, ?_, ?_, ?_⟩
  · have hmac : ∃ c, k.frame vlan mac vid = [] ++ (k.switchMac.toList ++ c) := by
      apply Exists.intro
      rw [hpad, Content.head]
      simp only [List.append_assoc, List.nil_append]
      rfl
    exact hmac.elim fun _ h => field_part h rfl Vector.length_toList
  · exact field_part hpad (hhead.trans (congrArg (15 + ·) htag.symm)) rfl
  · exact field_part (by rw [hpad, List.append_assoc]) hkey Vector.length_toList
  · intro a ha
    rw [Option.mem_def] at ha
    rw [ha] at hpad
    exact field_part (by rw [hpad, List.append_assoc, List.append_assoc]; rfl) haddr rfl
  · intro d hd
    rw [Option.mem_def] at hd
    obtain ⟨a, ha⟩ : ∃ a, k.regAddr = some a := by
      refine Option.ne_none_iff_exists'.mp fun hnone => ?_
      rw [hdata hnone] at hd
      cases hd
    rw [ha, hd] at hpad
    have hplace : (k.head vlan mac vid ++ [k.opcode] ++ k.authenKey.toList ++ SET_SHORT_TO_RCP_PKT a).length =
        20 + tagLength (k.frame vlan mac vid) := by
      rw [List.length_append, haddr]
      exact Nat.add_right_comm _ _ 2
    exact field_part (by rw [hpad, List.append_assoc, List.append_assoc, List.append_assoc]; rfl) hplace rfl

/-- What a call builds carries what it is to send. -/
theorem built_carries (c : Caller) (w : World) (vid : UInt16) : Carries (c.frame w vid) (c.toSend w) := by
  have hdata : (c.toSend w).regAddr = none → (c.toSend w).data = none := by
    unfold Caller.toSend
    cases c.kind
    case unicast => cases w.rcpDevList c.lport <;> exact fun _ => rfl
    all_goals first
      | exact fun _ => rfl
      | nofun
  unfold Caller.frame
  cases c.kind <;> exact frame_carries _ hdata _ _ _

theorem field_take {i n m : Nat} (h : i + n ≤ m) : field (frame.take m) i n = field frame i n := by
  unfold field
  rw [List.drop_take, List.take_take, Nat.min_eq_left (by omega)]

/-- The fields are among the first bytes. -/
theorem Carries.congr {frame' : List UInt8} (h : Carries frame k)
    (hfield : ∀ i n, i + n ≤ 26 → field frame' i n = field frame i n) : Carries frame' k := by
  have htag : tagLength frame' = tagLength frame := by
    unfold tagLength
    rw [hfield 12 2 (by omega)]
  have hle : tagLength frame ≤ 4 := by
    unfold tagLength
    split <;> omega
  refine ⟨?_, ?_, ?_, ?_, ?_⟩
  · rw [hfield 0 6 (by omega)]
    exact h.switchMac
  · rw [htag, hfield _ 1 (by omega)]
    exact h.opcode
  · rw [htag, hfield _ 2 (by omega)]
    exact h.authenKey
  · rw [htag, hfield _ 2 (by omega)]
    exact h.regAddr
  · rw [htag, hfield _ 2 (by omega)]
    exact h.data

theorem carries_sent (frame : List UInt8) (k : Content) : Carries (frame.take 64) k ↔ Carries frame k :=
  ⟨fun h => h.congr fun i n hin => (field_take (by omega)).symm,
    fun h => h.congr fun i n hin => field_take (by omega)⟩

/-! ## What a step leaves of the buffer -/

/-- The buffer holds what each loaded call has built. -/
def Kept (s : State) : Prop :=
  ∀ p c, s.caller p = some c → c.Loaded → Carries s.gucTxRcpPktBuf c.content

/-- A call goes on, and builds nothing. -/
theorem Kept.next (h : Kept s) (hp : s.caller p = some c) (hbuf : t.gucTxRcpPktBuf = s.gucTxRcpPktBuf)
    (hcaller : t.caller = s.caller) (hd : d.Loaded → c.Loaded ∧ d.content = c.content) :
    Kept (t.set p d) := by
  intro q d' hq hload
  rw [set_buf, hbuf]
  rcases set_cases hq with ⟨-, rfl⟩ | ⟨-, hq⟩
  · obtain ⟨hc, hcontent⟩ := hd hload
    rw [hcontent]
    exact h p c hp hc
  · rw [hcaller] at hq
    exact h q d' hq hload

theorem Kept.idle (h : Kept s) (hbuf : t.gucTxRcpPktBuf = s.gucTxRcpPktBuf) (hcaller : t.caller = s.caller)
    (hd : ¬ d.Loaded) : Kept (t.set p d) := by
  intro q d' hq hload
  rw [set_buf, hbuf]
  rcases set_cases hq with ⟨-, rfl⟩ | ⟨-, hq⟩
  · exact absurd hload hd
  · rw [hcaller] at hq
    exact h q d' hq hload

theorem Kept.same (h : Kept s) (hbuf : t.gucTxRcpPktBuf = s.gucTxRcpPktBuf) (hcaller : t.caller = s.caller) :
    Kept t := by
  unfold Kept
  rw [hbuf, hcaller]
  exact h

theorem exit_unloaded (c : Caller) (iRet : RCP_RET) (data : Option UInt32) :
    ¬ Caller.Loaded { c with pc := c.kind.exit, iRet, data } := by
  unfold Caller.Loaded Kind.exit
  cases c.kind <;> exact Bool.false_ne_true

theorem insert_kept (h : Kept s) (os : Bool) : Kept (s.insert p c os) := by
  unfold State.insert
  split
  · exact h.idle rfl rfl Bool.false_ne_true
  · split
    · exact h.idle rfl rfl Bool.false_ne_true
    · exact h.idle rfl rfl Bool.false_ne_true

/-- A frame that is built over those of loaded calls carries what they carry. -/
theorem build_kept (hpc : c.pc = .build) (hp : s.caller p = some c) {ok : Bool} {vid : UInt16}
    (halone : Undisturbed s (.turn p ok vid)) : Kept (s.build p c vid) := by
  intro q d hq hload
  rcases set_cases hq with ⟨-, rfl⟩ | ⟨hne, hq⟩
  · exact built_carries c s.world vid
  · exact halone p ok vid c rfl hp hpc q d hne hq hload

theorem take_kept (h : Kept s) (hp : s.caller p = some c) {n : Nat} (hpc : c.pc = .take n) :
    Kept (s.take p c n) := by
  have hload : c.Loaded := by rw [Caller.Loaded, hpc]
  unfold State.take
  split
  · exact h.next hp rfl rfl fun _ => ⟨hload, rfl⟩
  · exact h.next hp rfl rfl fun _ => ⟨hload, rfl⟩

theorem send_kept (h : Kept s) (ok : Bool) : Kept (s.send p c ok) := by
  unfold State.send
  split
  · refine h.idle rfl rfl ?_
    split
    · exact Bool.false_ne_true
    · exact exit_unloaded c c.iRet c.data
  · exact h.idle rfl rfl (exit_unloaded c _ c.data)

theorem wait_kept (h : Kept s) (n : Nat) : Kept (s.wait p c n) := by
  unfold State.wait
  split
  · exact h.idle rfl rfl Bool.false_ne_true
  · exact h.idle rfl rfl Bool.false_ne_true
  · exact h.idle rfl rfl (exit_unloaded c _ c.data)

theorem value_kept (h : Kept s) : Kept (s.value p c) := by
  unfold State.value
  dsimp only
  split
  · exact h.idle rfl rfl (exit_unloaded c c.iRet _)
  · exact h.idle rfl rfl (exit_unloaded c _ _)

theorem delete_kept (h : Kept s) : Kept (s.delete p c) := by
  refine h.idle rfl rfl ?_
  unfold Caller.Loaded Kind.afterDelete
  cases c.kind <;> exact Bool.false_ne_true

theorem give_kept (h : Kept s) : Kept (s.give p c) := by
  refine h.idle rfl rfl ?_
  unfold Caller.Loaded Kind.afterGive
  cases c.kind <;> exact Bool.false_ne_true

theorem port_kept (h : Kept s) (hpc : c.pc = .port) (up : Bool) : Kept (s.set p (c.nextPort up)) := by
  refine h.idle rfl rfl ?_
  unfold Caller.nextPort
  split_ifs <;> simp [Caller.Loaded, hpc]

theorem turn_kept (h : Kept s) (hp : s.caller p = some c) {ok : Bool} {vid : UInt16}
    (halone : Undisturbed s (.turn p ok vid)) : Kept (s.turn p c ok vid) := by
  unfold State.turn
  split
  case h_1 hpc => exact port_kept h hpc ok
  case h_2 =>
    split
    · exact h
    · exact insert_kept h ok
  case h_3 => exact h.idle rfl rfl Bool.false_ne_true
  case h_4 hpc => exact build_kept hpc hp halone
  case h_5 hpc => exact take_kept h hp hpc
  case h_6 => exact send_kept h ok
  case h_7 n _ => exact wait_kept h n
  case h_8 => exact value_kept h
  case h_9 => exact h.idle rfl rfl Bool.false_ne_true
  case h_10 =>
    split
    · exact h
    · exact delete_kept h
  case h_11 => exact give_kept h
  case h_12 => exact h

theorem starts_kept {call : Call} {mal os : Bool} (h : Kept s) (hs : s.Starts p os call mal t) : Kept t := by
  cases hs with
  | reads | blind | refused => exact h.idle rfl rfl Bool.false_ne_true
  | other kind dev regAddr wdata lport pc iRet hkind hpc =>
    refine h.idle rfl rfl ?_
    rcases hpc with rfl | rfl | rfl <;> exact Bool.false_ne_true

theorem step_kept (h : Kept s) (e : Event) (halone : Undisturbed s e) : Kept (s.step e) := by
  generalize hnext : s.step e = t
  cases hnext ▸ step_takes s e with
  | nothing => exact h
  | call p call mal os hidle => exact starts_kept h (start_starts s p call mal os)
  | turn p c ok vid hp => exact turn_kept h hp halone
  | answer | drop | find | world => exact h.same rfl rfl
  | complete q r hu =>
    unfold State.complete
    rw [hu]
    exact h.same rfl rfl

theorem kept_sends (h : Kept s) (e : Event) : SendsItsOwn s e := by
  rintro p ok vid c - hp hpc
  exact (carries_sent _ _).mpr (h p c hp (by rw [Caller.Loaded, hpc]))

/-! ## A frame that is built over another one -/

/-- A loaded call comes to its send, whether it gets the channel or not, and sends what
the buffer holds. -/
theorem loaded_sends (hp : s.caller p = some c) (hload : c.Loaded)
    (hbuf : ¬ Carries s.gucTxRcpPktBuf c.content) : ∃ fs, ¬ Along State.step SendsItsOwn s fs := by
  have hsend {s : State} {c : Caller} (hp : s.caller p = some c) (hpc : c.pc = .send)
      (hbuf : ¬ Carries s.gucTxRcpPktBuf c.content) :
      ¬ Along State.step SendsItsOwn s [.turn p true 0] := by
    rintro ⟨h, -⟩
    exact hbuf ((carries_sent _ _).mp (h p true 0 c rfl hp hpc))
  have htake (n : Nat) : ∀ {s : State} {c : Caller}, s.caller p = some c → c.pc = .take n →
      ¬ Carries s.gucTxRcpPktBuf c.content → ∃ fs, ¬ Along State.step SendsItsOwn s fs := by
    -- each try that fails leaves less time
    induction n using Nat.strongRecOn with
    | ind n ih =>
      intro s c hp hpc hbuf
      have hturn : s.step (.turn p true 0) = s.take p c n := by
        rw [step_turn hp, State.turn, hpc]
      obtain ⟨fs, hfs⟩ : ∃ fs, ¬ Along State.step SendsItsOwn (s.take p c n) fs := by
        unfold State.take
        split
        · rename_i os m heq
          have hlt : m < n := wait_turn_lt heq
          exact ih m hlt (set_self s p _) rfl hbuf
        · exact ⟨_, hsend (set_self _ p _) rfl hbuf⟩
      refine ⟨.turn p true 0 :: fs, fun h => hfs ?_⟩
      rw [← hturn]
      exact h.2
  unfold Caller.Loaded at hload
  split at hload
  · exact htake _ hp ‹_› hbuf
  · exact ⟨_, hsend hp ‹_› hbuf⟩
  · cases hload

/-- Without a build over the frame of another call, every call sends its own frame; and a
build over another frame can be followed by the send of the wrong one. -/
theorem calls_send_their_own_frames_while_no_frame_is_built_over {os : Os} {w : World}
    (h : RCP_Init os w = some s) :
    (∀ es, Along State.step Undisturbed s es → Along State.step SendsItsOwn s es) ∧
      ∀ es e, ¬ Undisturbed (run State.step s es) e →
        ∃ fs, ¬ Along State.step SendsItsOwn s (es ++ e :: fs) := by
  constructor
  · intro es halone
    refine along_imp (fun s e hs halone => step_kept hs e halone) (fun s e hs _ => kept_sends hs e) ?_ halone
    intro p c hp
    rw [init_idle h] at hp
    cases hp
  · intro es e hover
    unfold Undisturbed at hover
    push Not at hover
    obtain ⟨p, ok, vid, c, rfl, hp, hpc, q, d, hne, hq, hload, hbuf⟩ := hover
    have hturn : (run State.step s es).step (.turn p ok vid) = (run State.step s es).build p c vid := by
      rw [step_turn hp, State.turn, hpc]
    have hd : ((run State.step s es).build p c vid).caller q = some d := (set_other _ p _ hne).trans hq
    obtain ⟨fs, hfs⟩ := loaded_sends hd hload hbuf
    refine ⟨fs, fun hall => hfs ?_⟩
    rw [← hturn]
    exact ((along_append _ _ _ _).mp hall).2.2

/-- With one switch at port 1. -/
theorem calls_to_one_switch_send_their_own_frames :
    ∃ s, RCP_Init gw_osal_core_init oneSwitch = some s ∧
      (∀ es, Along State.step Undisturbed s es → Along State.step SendsItsOwn s es) ∧
        ∀ es e, ¬ Undisturbed (run State.step s es) e →
          ∃ fs, ¬ Along State.step SendsItsOwn s (es ++ e :: fs) := by
  cases hs : RCP_Init gw_osal_core_init oneSwitch with
  | none => cases hs
  | some s => exact ⟨s, rfl, calls_send_their_own_frames_while_no_frame_is_built_over hs⟩

/-- A write to register 1 sends the frame of a write to register 3. -/
theorem a_write_sends_the_frame_of_another_write :
    let es : List Event := [.call 0 (.RCP_Write_Reg (some 0) 1 2) true true, .turn 0 true 0,
      .call 1 (.RCP_Write_Reg (some 0) 3 4) true true, .turn 1 true 0, .turn 0 true 0]
    ∃ s, RCP_Init gw_osal_core_init oneSwitch = some s ∧
      ¬ Along State.step SendsItsOwn s (es ++ [.turn 0 true 0]) := by
  intro es
  have hsent : (RCP_Init gw_osal_core_init oneSwitch).all (fun s =>
      let t := run State.step s es
      (t.caller 0).map (fun c => (c.pc, c.content.regAddr)) = some (.send, some 1) ∧
        field (t.gucTxRcpPktBuf.take 64) (18 + tagLength (t.gucTxRcpPktBuf.take 64)) 2 = [3, 0]) = true := by
    decide +kernel
  cases hs : RCP_Init gw_osal_core_init oneSwitch with
  | none => cases hs
  | some s =>
    refine ⟨s, rfl, fun h => ?_⟩
    rw [hs, Option.all_some, decide_eq_true_eq] at hsent
    obtain ⟨hcaller, hfield⟩ := hsent
    obtain ⟨c, hc, hpc⟩ := Option.map_eq_some_iff.mp hcaller
    rw [Prod.mk.injEq] at hpc
    have hown := ((along_append _ _ _ _).mp h).2.1 0 true 0 c rfl hc hpc.1
    have haddr := hown.regAddr 1 hpc.2
    rw [hfield] at haddr
    exact absurd haddr (by decide)

end gwdonu.rcp
