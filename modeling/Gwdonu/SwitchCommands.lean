-- The commands that set up a switch as a whole: what they show is what was set up with them,
-- and of the two ways to give frames priority, one at most is on.
import Gwdonu.SwitchSettings

namespace gwdonu.switch_commands

open Function calls rcp_registers runs switch_settings
open rcp (RCP_RET)

/-! ## The program -/

/-- What a command prints: nothing, a text, or a text with a code behind it. -/
inductive Reply where
  | done
  | tooShort
  | shown (text : String)
  | failed (text : String) (ret : Option RCP_RET)
  deriving DecidableEq

def Reply.isFailed : Reply → Bool
  | failed _ _ => true
  | _ => false

/-- A call that fails ends the command. -/
def orFail {α : Type} (text : String) (x : Rcp α) (k : α → Rcp Reply) : Rcp Reply := fun s =>
  match x s with
  | .ok a t => k a t
  | .error ret t => .ok (.failed text (some ret)) t

/-- The same with a code that nothing was stored to. -/
def orFailWithout (text : String) (x : Rcp Unit) (k : Rcp Reply) : Rcp Reply := fun s =>
  match x s with
  | .ok _ t => k t
  | .error _ t => .ok (.failed text none) t

/-- What differs between the commands that switch something: what the word sets, what any other
argument sets, and what is shown with the first text. -/
structure Toggle where
  Get : Rcp (BitVec 16)
  Set : BitVec 16 → RCP_FLAG → Rcp Unit
  word : String
  wordData : BitVec 16
  otherData : BitVec 16
  firstData : BitVec 16
  firstText : String
  secondText : String
  getFailed : String
  setFailed : String

def toggle (t : Toggle) (argv : List String) : Rcp Reply :=
  match argv with
  | [] => orFail t.getFailed t.Get fun data =>
    return .shown (if data = t.firstData then t.firstText else t.secondText)
  | arg :: _ =>
    let data := if arg = t.word then t.wordData else t.otherData
    orFail t.setFailed (t.Set data .RCP_CONFIG_2_REGISTER) fun _ => return .done

def broadcast_storm_filtering : Toggle :=
  ⟨RCP_GetBroadcastStormFilter, RCP_SetBroadcastStormFilter, "enable", 0, 1, 0,
    "  Broadcast Storm Filtering is Enabled.\r\n", "  Broadcast Storm Filtering is Disabled.\r\n",
    "  Get broadcast storm filtering failed.", "  Set broadcast strom filtering failed."⟩

def cli_int_broadcast_storm_filtering := toggle broadcast_storm_filtering

def broadcast_fc : Toggle :=
  ⟨RCP_GetBroadcastFC, RCP_SetBroadcastFC, "enable", 1, 0, 1,
    "  Broadcast Flow Control is Enabled.\r\n", "  Broadcast Flow Control is Disabled.\r\n",
    "  Get broadcast flow control failed.", "  Set broadcast flow control failed."⟩

def cli_int_broadcast_fc := toggle broadcast_fc

def igmpsnooping : Toggle :=
  ⟨RCP_GetIGMPSnooping, RCP_SetIGMPSnooping, "enable", 1, 0, 1,
    "  IGMPsnooping is : Enabled.\r\n", "  IGMPsnooping is : Disabled.\r\n",
    "  Get igmpsnooping failed.", "  Set igmpsnooping failed."⟩

def cli_int_igmpsnooping := toggle igmpsnooping

def multicast_fc : Toggle :=
  ⟨RCP_GetMulticastFC, RCP_SetMulticastFC, "enable", 1, 0, 1,
    "  Multicast Flow Control is Enabled.\r\n", "  Multicast Flow Control is Disabled.\r\n",
    "  Get multicast flow control failed.", "  Set multicast flow control failed."⟩

def cli_int_multicast_fc := toggle multicast_fc

def qos_adapted_fc : Toggle :=
  ⟨RCP_GetQosAdapterFC, RCP_SetQosAdapterFC, "enable", 1, 0, 1,
    "  Adated flow control is : Enabled\r\n", "  Adated flow control is : Disabled\r\n",
    "  Get qos adapted fc failed.", "  Set qos adapted fc failed."⟩

def cli_int_qos_adapted_fc := toggle qos_adapted_fc

def loopback_auto_detect : Toggle :=
  ⟨RCP_GetLoopDetect, RCP_SetLoopDetect, "enable", 1, 0, 1,
    "  Loop detect is Enabled.\r\n", "  Loop detect is Disabled.\r\n",
    "  Get loop detect failed.", "  Set loop detect failed."⟩

def cli_int_loopback_auto_detect := toggle loopback_auto_detect

def atu_filter : Toggle :=
  ⟨RCP_GetAtuCtrlFrameFilter, RCP_SetAtuCtrlFrameFilter, "enable", 1, 0, 1,
    "  Control Frame filter  is : Enabled.\r\n", "  Control Frame filter  is : Disabled.\r\n",
    "  Get atu ctrl frame control failed.", "  Set atu ctrl frame control failed."⟩

def cli_int_atu_filter := toggle atu_filter

def vlan_ingress_filtering : Toggle :=
  ⟨RCP_GetVlanIngressFilter, RCP_SetVlanIngressFilter, "enable", 1, 0, 1,
    "  Vlan ingress filter enabled.\r\n", "  Vlan ingress filter disabled.\r\n",
    "  Get vlan ingress filter failed.", "  Set vlan ingress filter failed."⟩

def cli_int_vlan_ingress_filtering := toggle vlan_ingress_filtering

/-- It shows one setting and sets another. -/
def vlan_acceptable_frame_types : Toggle :=
  ⟨RCP_GetVlanIRMember, RCP_SetVlanIngressFilter, "all", 0, 1, 0,
    "  Accepte all frames (tagged and untagged).\r\n", "  Accepte only tagged frames.\r\n",
    "  Get vlan admit frame types failed.", "  Set vlan admit frame types failed."⟩

def cli_int_vlan_acceptable_frame_types := toggle vlan_acceptable_frame_types

/-- The two priorities: when one is switched on, the mode is cleared first. -/
def priority (Get : Rcp (BitVec 16)) (Set : BitVec 16 → RCP_FLAG → Rcp Unit)
    (onText offText getFailed setFailed : String) (argv : List String) : Rcp Reply :=
  match argv with
  | [] => orFail getFailed Get fun data => return .shown (if data = 1 then onText else offText)
  | arg :: _ =>
    if arg = "enable" then
      orFail "  Set Qos mode failed." (RCP_SetQosMapMode 0 .RCP_CONFIG_2_REGISTER) fun _ =>
        orFail setFailed (Set 1 .RCP_CONFIG_2_REGISTER) fun _ => return .done
    else orFail setFailed (Set 0 .RCP_CONFIG_2_REGISTER) fun _ => return .done

def cli_int_qos_dscp_pri_en := priority RCP_GetQosDiffPriority RCP_SetQosDiffPriority
  "  Diffserver Priority is : Enabled\r\n" "  Diffserver Priority is : Disabled\r\n"
  "  Get qos diffserver failed." "  Set qos diffserver failed."

def cli_int_qos_user_pri_en := priority RCP_GetQosVlanPriority RCP_SetQosVlanPriority
  "  Dot1p Priority is : Enabled\r\n" "  Dot1p Priority is : Disabled\r\n"
  "  Get qos dot1p priority failed." "  Set qos dot1p priority failed."

def cli_int_qos_priority_type : Rcp Reply :=
  orFail "  Get qos mode failed." RCP_GetQosMapMode fun type =>
    if type = 0 then return .shown "  Current QoS priority type is : Port-based.\r\n"
    else if type = 1 then return .shown "  Current QoS priority type is : DSCP-based.\r\n"
    else if type = 2 then return .shown "  Current QoS priority type is : 802.1p-based.\r\n"
    else return .done

/-- `ratio` is what is on the stack; an argument that is no ratio leaves it. -/
def cli_int_qos_priority_ratio (argv : List String) (ratio : BitVec 16) : Rcp Reply :=
  match argv with
  | [] => orFail "  Get qos adapted fc failed." RCP_GetQosPrioRatio fun ratio =>
    if ratio = 0 then return .shown "  Frame service rate of High_pri queue to Low_pri queue is 4:1.\r\n"
    else if ratio = 1 then return .shown "  Frame service rate of High_pri queue to Low_pri queue is 8:1.\r\n"
    else if ratio = 2 then return .shown "  Frame service rate of High_pri queue to Low_pri queue is 16:1.\r\n"
    else if ratio = 3 then return .shown "  Frame service rate is High priority always.\r\n"
    else return .done
  | arg :: _ =>
    let ratio :=
      if arg = "4:1" then 0
      else if arg = "8:1" then 1
      else if arg = "16:1" then 2
      else if arg = "high_pri_first" then 3
      else ratio
    orFail "  Set qos priority ratio failed." (RCP_SetQosPrioRatio ratio .RCP_CONFIG_2_REGISTER) fun _ => return .done

def cli_int_atu_aging (argv : List String) : Rcp Reply :=
  match argv with
  | [] => orFail "  get aut aging enable failed." RCP_GetAtuAgingEnable fun aging =>
    if aging = 1 then return .shown "  Mac table aging is : Disabled.\r\n"
    else orFail "  get atu fast aging enable failed." RCP_GetAtuFastAgingEnable fun aging =>
      if aging = 0 then return .shown "  Mac table aging time is default 300s\r\n"
      else if aging = 1 then return .shown "  Mac table aging time is fast 12s\r\n"
      else return .done
  | arg :: _ =>
    if arg = "disable" then
      orFail "set atu aging enable failed." (RCP_SetAtuAgingEnable 1 .RCP_CONFIG_2_REGISTER) fun _ => return .done
    else
      let fast := if arg = "default" then 0 else 1
      orFailWithout "set atu aging enable failed." (RCP_SetAtuAgingEnable 0 .RCP_CONFIG_2_REGISTER)
        (orFailWithout "set atu fast aging enable failed." (RCP_SetAtuFastAgingEnable fast .RCP_CONFIG_2_REGISTER)
          (return .done))

/-- One kind of packets. -/
def leaky (Get : Rcp (BitVec 16)) (Set : BitVec 16 → RCP_FLAG → Rcp Unit) (enabled disabled getFailed enableFailed
    disableFailed : String) (args : List String) : Rcp Reply :=
  match args with
  | [] => orFail getFailed Get fun data => return .shown (if data = 1 then enabled else disabled)
  | arg :: _ =>
    if arg = "enable" then orFail enableFailed (Set 1 .RCP_CONFIG_2_REGISTER) fun _ => return .done
    else orFail disableFailed (Set 0 .RCP_CONFIG_2_REGISTER) fun _ => return .done

def cli_int_vlan_leaky (argv : List String) : Rcp Reply :=
  match argv with
  | [] => return .tooShort
  | kind :: args =>
    if kind = "arp" then
      leaky RCP_GetVlanArpLeaky RCP_SetVlanArpLeaky "  Arp packet leaky enabled.\r\n" "  Arp packet leaky disabled.\r\n"
        "  Get vlan arp packet leaky failed." "  Enable vlan arp packet leaky failed."
        "  Disable vlan arp packet leaky failed." args
    else if kind = "unicast" then
      leaky RCP_GetVlanUnicastLeaky RCP_SetVlanUnicastLeaky "  unicast packet leaky enabled.\r\n"
        "  unicast packet leaky disabled.\r\n" "  Get vlan unicast packet leaky failed."
        "  Enable vlan unicast packet leaky failed." "  Disable vlan unicast packet leaky failed." args
    else if kind = "multicast" then
      leaky RCP_GetVlanMulticastLeaky RCP_SetVlanMulticastLeaky "  multicast packet leaky enabled.\r\n"
        "  multicast packet leaky disabled.\r\n" "  Get vlan multicast packet leaky failed."
        "  Enable vlan multicast packet leaky failed." "  Disable vlan unicast packet leaky failed." args
    else return .done

/-- A command with its arguments. -/
inductive Command where
  | broadcast_storm_filtering (argv : List String)
  | broadcast_fc (argv : List String)
  | igmpsnooping (argv : List String)
  | multicast_fc (argv : List String)
  | qos_adapted_fc (argv : List String)
  | loopback_auto_detect (argv : List String)
  | atu_filter (argv : List String)
  | vlan_ingress_filtering (argv : List String)
  | vlan_acceptable_frame_types (argv : List String)
  | qos_dscp_pri_en (argv : List String)
  | qos_user_pri_en (argv : List String)
  | qos_priority_type
  | qos_priority_ratio (argv : List String) (ratio : BitVec 16)
  | atu_aging (argv : List String)
  | vlan_leaky (argv : List String)

def Command.exec : Command → Rcp Reply
  | broadcast_storm_filtering argv => cli_int_broadcast_storm_filtering argv
  | broadcast_fc argv => cli_int_broadcast_fc argv
  | igmpsnooping argv => cli_int_igmpsnooping argv
  | multicast_fc argv => cli_int_multicast_fc argv
  | qos_adapted_fc argv => cli_int_qos_adapted_fc argv
  | loopback_auto_detect argv => cli_int_loopback_auto_detect argv
  | atu_filter argv => cli_int_atu_filter argv
  | vlan_ingress_filtering argv => cli_int_vlan_ingress_filtering argv
  | vlan_acceptable_frame_types argv => cli_int_vlan_acceptable_frame_types argv
  | qos_dscp_pri_en argv => cli_int_qos_dscp_pri_en argv
  | qos_user_pri_en argv => cli_int_qos_user_pri_en argv
  | qos_priority_type => cli_int_qos_priority_type
  | qos_priority_ratio argv ratio => cli_int_qos_priority_ratio argv ratio
  | atu_aging argv => cli_int_atu_aging argv
  | vlan_leaky argv => cli_int_vlan_leaky argv

/-! ## What the commands are for -/

/-- What can be on or off. Frames without a tag are taken where the ingress filter is off. -/
inductive Flag where
  | storm
  | broadcastFC
  | igmp
  | multicastFC
  | adaptedFC
  | loop
  | ctrlFrames
  | ingress
  | arp
  | unicast
  | multicast
  deriving DecidableEq

/-- What the frames get their priority from. -/
inductive Priority where
  | port
  | dscp
  | dot1p
  deriving DecidableEq

inductive Aging where
  | default
  | fast
  | off
  deriving DecidableEq

structure Config where
  flag : Flag → Bool
  priority : Priority
  ratio : Fin 4
  aging : Aging

namespace Config

variable (c : Config)

/-- `means` is what the first text says. -/
def switched (f : Flag) (means : Bool) (word firstText secondText : String) (argv : List String) : Reply × Config :=
  match argv with
  | [] => (.shown (if c.flag f = means then firstText else secondText), c)
  | arg :: _ => (.done, { c with flag := update c.flag f (if arg = word then means else !means) })

def toggled (f : Flag) (means : Bool) (t : Toggle) (argv : List String) : Reply × Config :=
  c.switched f means t.word t.firstText t.secondText argv

/-- One priority takes the place of the other. -/
def prioritized (p : Priority) (onText offText : String) (argv : List String) : Reply × Config :=
  match argv with
  | [] => (.shown (if c.priority = p then onText else offText), c)
  | arg :: _ =>
    (.done, { c with priority := if arg = "enable" then p else if c.priority = p then .port else c.priority })

def priorityText : String :=
  match c.priority with
  | .port => "  Current QoS priority type is : Port-based.\r\n"
  | .dscp => "  Current QoS priority type is : DSCP-based.\r\n"
  | .dot1p => "  Current QoS priority type is : 802.1p-based.\r\n"

def ratioText : String :=
  match c.ratio with
  | 0 => "  Frame service rate of High_pri queue to Low_pri queue is 4:1.\r\n"
  | 1 => "  Frame service rate of High_pri queue to Low_pri queue is 8:1.\r\n"
  | 2 => "  Frame service rate of High_pri queue to Low_pri queue is 16:1.\r\n"
  | 3 => "  Frame service rate is High priority always.\r\n"

def ratioOf (arg : String) (ratio : BitVec 16) : Fin 4 :=
  if arg = "4:1" then 0
  else if arg = "8:1" then 1
  else if arg = "16:1" then 2
  else if arg = "high_pri_first" then 3
  else Fin.ofNat 4 ratio.toNat

def agingText : String :=
  match c.aging with
  | .default => "  Mac table aging time is default 300s\r\n"
  | .fast => "  Mac table aging time is fast 12s\r\n"
  | .off => "  Mac table aging is : Disabled.\r\n"

def agingOf (arg : String) : Aging :=
  if arg = "disable" then .off else if arg = "default" then .default else .fast

def exec : Command → Reply × Config
  | .broadcast_storm_filtering argv => c.toggled .storm true broadcast_storm_filtering argv
  | .broadcast_fc argv => c.toggled .broadcastFC true broadcast_fc argv
  | .igmpsnooping argv => c.toggled .igmp true igmpsnooping argv
  | .multicast_fc argv => c.toggled .multicastFC true multicast_fc argv
  | .qos_adapted_fc argv => c.toggled .adaptedFC true qos_adapted_fc argv
  | .loopback_auto_detect argv => c.toggled .loop true loopback_auto_detect argv
  | .atu_filter argv => c.toggled .ctrlFrames true atu_filter argv
  | .vlan_ingress_filtering argv => c.toggled .ingress true vlan_ingress_filtering argv
  | .vlan_acceptable_frame_types argv => c.toggled .ingress false vlan_acceptable_frame_types argv
  | .qos_dscp_pri_en argv => c.prioritized .dscp "  Diffserver Priority is : Enabled\r\n"
      "  Diffserver Priority is : Disabled\r\n" argv
  | .qos_user_pri_en argv => c.prioritized .dot1p "  Dot1p Priority is : Enabled\r\n"
      "  Dot1p Priority is : Disabled\r\n" argv
  | .qos_priority_type => (.shown c.priorityText, c)
  | .qos_priority_ratio [] _ => (.shown c.ratioText, c)
  | .qos_priority_ratio (arg :: _) ratio => (.done, { c with ratio := ratioOf arg ratio })
  | .atu_aging [] => (.shown c.agingText, c)
  | .atu_aging (arg :: _) => (.done, { c with aging := agingOf arg })
  | .vlan_leaky [] => (.tooShort, c)
  | .vlan_leaky (kind :: args) =>
    if kind = "arp" then
      c.switched .arp true "enable" "  Arp packet leaky enabled.\r\n" "  Arp packet leaky disabled.\r\n" args
    else if kind = "unicast" then
      c.switched .unicast true "enable" "  unicast packet leaky enabled.\r\n"
        "  unicast packet leaky disabled.\r\n" args
    else if kind = "multicast" then
      c.switched .multicast true "enable" "  multicast packet leaky enabled.\r\n"
        "  multicast packet leaky disabled.\r\n" args
    else (.done, c)

/-- What a command that fails can leave: where it makes two writes, the first one alone. -/
def Spoilt : Command → Config → Prop
  | .qos_dscp_pri_en argv | .qos_user_pri_en argv => fun c' =>
    c' = c ∨ argv.head? = some "enable" ∧ c' = { c with priority := .port }
  | .atu_aging argv => fun c' => c' = c ∨ argv.head? ≠ some "disable" ∧ ∃ a, a ≠ .off ∧ c' = { c with aging := a }
  | _ => fun c' => c' = c

end Config

/-- Where the switch has it. -/
def Flag.setting : Flag → Setting
  | storm => .BroadcastStormFilter
  | broadcastFC => .BroadcastFC
  | igmp => .IGMPSnooping
  | multicastFC => .MulticastFC
  | adaptedFC => .QosAdapterFC
  | loop => .LoopDetect
  | ctrlFrames => .AtuCtrlFrameFilter
  | ingress => .VlanIRMember
  | arp => .VlanArpLeaky
  | unicast => .VlanUnicastLeaky
  | multicast => .VlanMulticastLeaky

/-- A 1 is off there. -/
def Flag.inverted (f : Flag) : Bool := f = storm

/-- The configuration of a switch. -/
def Config.of (s : State) : Config where
  flag f := (field s.reg f.setting == 1) != f.inverted
  priority :=
    if field s.reg .QosDiffPriority = 1 then .dscp
    else if field s.reg .QosVlanPriority = 1 then .dot1p
    else .port
  ratio := Fin.ofNat 4 (field s.reg .QosPrioRatio).toNat
  aging :=
    if field s.reg .AtuAgingEnable = 1 then .off
    else if field s.reg .AtuFastAgingEnable = 1 then .fast
    else .default

/-- A command on the switch. None fails itself: it says what failed. -/
def step (s : State) (cmd : Command) : State × Option Reply :=
  match cmd.exec s with
  | .ok reply t => (t, some reply)
  | .error _ t => (t, none)

def Config.step (c : Config) (cmd : Command) : Config × Option Reply := ((c.exec cmd).2, some (c.exec cmd).1)

/-! ## Calls -/

section
variable {s : State} {Q : Reply → State → Prop} {E : RCP_RET → State → Prop} {text : String}

theorem meets_orFail {α : Type} {x : Rcp α} {k : α → Rcp Reply} : Meets (orFail text x k) s Q E ↔
    Meets x s (fun a t => Meets (k a) t Q E) fun ret t => Q (.failed text (some ret)) t := by
  unfold Meets orFail
  cases x s <;> rfl

theorem meets_orFailWithout {x : Rcp Unit} {k : Rcp Reply} : Meets (orFailWithout text x k) s Q E ↔
    Meets x s (fun _ t => Meets k t Q E) fun _ t => Q (.failed text none) t := by
  unfold Meets orFailWithout
  cases x s <;> rfl

/-- A set of a setting of the device is one write. -/
theorem meets_device_Set {x : Setting} {data : BitVec 16} {Q : Unit → State → Prop} (hx : x ∈ Setting.devices) :
    Meets (x.Set data .RCP_CONFIG_2_REGISTER) s Q E ↔
      Meets (RCP_Write_Reg x.addr (fields.put (s.reg x.addr) data x.pos x.len)) s Q E := by
  cases x with
  | port a i => exact absurd hx (by simp [Setting.devices])
  | _ => exact meets_setRegField.trans meets_setRegisterField

theorem write_eq (m : Store) {x : Setting} (hx : x ≠ .QosMapMode) (data : BitVec 16) :
    m.write x data = update m x.name (low x.len data) := by
  cases x <;> first | exact absurd rfl hx | rfl

end

/-! ## What the store says of the configuration -/

def bit (b : Bool) : BitVec 16 := if b then 1 else 0

theorem bit_inj {a b : Bool} : bit a = bit b ↔ a = b := by
  cases a <;> cases b <;> decide

theorem low_bit (b : Bool) : low 1 (bit b) = bit b := by
  cases b <;> decide

theorem bit_eq_one {b : Bool} : bit b = 1 ↔ b = true := by
  cases b <;> decide

theorem low_one (r : BitVec 16) (pos : Nat) : fields.get r pos 1 = 0 ∨ fields.get r pos 1 = 1 := by
  have hlt : (fields.get r pos 1).toNat < 2 ^ 1 := fields.toNat_get_lt r
  have hcases : (fields.get r pos 1).toNat = 0 ∨ (fields.get r pos 1).toNat = 1 := by omega
  exact hcases.imp (fun h => BitVec.eq_of_toNat_eq h) fun h => BitVec.eq_of_toNat_eq h

theorem field_one (reg : Nat → BitVec 16) {x : Setting} (hx : x.len = 1) : field reg x = 0 ∨ field reg x = 1 := by
  unfold field
  rw [hx]
  exact low_one _ _

/-- The settings are those of the configuration. -/
structure Describes (c : Config) (m : Store) : Prop where
  flag : ∀ f : Flag, m f.setting = bit (c.flag f != f.inverted)
  dscp : m .QosDiffPriority = bit (c.priority = .dscp)
  dot1p : m .QosVlanPriority = bit (c.priority = .dot1p)
  ratio : m .QosPrioRatio = BitVec.ofNat 16 c.ratio
  aging : m .AtuAgingEnable = bit (c.aging = .off)
  fast : c.aging ≠ .off → m .AtuFastAgingEnable = bit (c.aging = .fast)

section
variable {c : Config} {m : Store} {f : Flag}

theorem setting_inj {f g : Flag} (h : f.setting = g.setting) : f = g := by
  cases f <;> cases g <;> first | rfl | cases h

theorem Describes.set_flag (h : Describes c m) (f : Flag) (b : Bool) :
    Describes { c with flag := update c.flag f b } (update m f.setting (bit (b != f.inverted))) := by
  have hother : ∀ x : Setting, (∀ g : Flag, x ≠ g.setting) →
      update m f.setting (bit (b != f.inverted)) x = m x := fun x hx => update_of_ne (hx f) _ _
  constructor
  · intro g
    by_cases hg : g = f
    · subst hg
      rw [update_self]
      exact congrArg (fun b => bit (b != g.inverted)) (update_self (f := c.flag) g b).symm
    · rw [update_of_ne fun he => hg (setting_inj he), h.flag]
      exact congrArg (fun b => bit (b != g.inverted)) (update_of_ne (f := c.flag) hg b).symm
  · exact (hother _ fun g => by cases g <;> nofun).trans h.dscp
  · exact (hother _ fun g => by cases g <;> nofun).trans h.dot1p
  · exact (hother _ fun g => by cases g <;> nofun).trans h.ratio
  · exact (hother _ fun g => by cases g <;> nofun).trans h.aging
  · exact fun hoff => (hother _ fun g => by cases g <;> nofun).trans (h.fast hoff)

end

/-- The switch is set up like this. -/
def Agrees (c : Config) (s : State) : Prop := ∃ m, Holds s.dev.deviceId s.reg m ∧ Describes c m

/-- A command ends as it should, or with a failure that leaves a configuration of `P`. -/
def Ends (s : State) (out : Reply × Config) (P : Config → Prop) (reply : Reply) (t : State) : Prop :=
  t.writeFails = s.writeFails ∧ (reply = out.1 ∧ Agrees out.2 t ∨
    ¬ s.Faithful ∧ reply.isFailed ∧ ∃ c, P c ∧ Agrees c t)

/-! ## One command -/

section
variable {s : State} {c c' : Config} {m : Store} {x : Setting} {text : String} {P : Config → Prop}
  {E : RCP_RET → State → Prop}

theorem meets_orFail_Get {k : BitVec 16 → Rcp Reply} {Q : Reply → State → Prop} (h : Holds s.dev.deviceId s.reg m)
    (hx : x.Own s.dev.deviceId) : Meets (orFail text x.Get k) s Q E ↔ Meets (k (m.read x)) s Q E := by
  rw [meets_orFail, meets_Get hx.exists, h.read hx]

theorem ends_as_it_was {reply : Reply} (h : Holds s.dev.deviceId s.reg m) (hc : Describes c m) :
    Ends s (reply, c) P reply s :=
  ⟨rfl, .inl ⟨rfl, m, h, hc⟩⟩

theorem meets_show (h : Holds s.dev.deviceId s.reg m) (hc : Describes c m) (hx : x.Own s.dev.deviceId)
    {g : BitVec 16 → String} {text' : String} (htext : g (m.read x) = text') :
    Meets (orFail text x.Get fun data => return .shown (g data)) s (Ends s (.shown text', c) P) E := by
  rw [meets_orFail_Get h hx, htext, meets_pure]
  exact ends_as_it_was h hc

/-- The write fails, and all is as it was, or the store takes it. -/
theorem meets_write_Holds {data : BitVec 16} {Q : Unit → State → Prop} (h : Holds s.dev.deviceId s.reg m)
    (hx : x ∈ Setting.devices)
    (hdone : ∀ t : State, t.dev = s.dev → t.writeFails = s.writeFails →
      Holds t.dev.deviceId t.reg (m.write x data) → Q () t)
    (hfailed : ∀ ret (t : State), t.dev = s.dev → t.writeFails = s.writeFails → ¬ s.Faithful →
      Holds t.dev.deviceId t.reg m → E ret t) :
    Meets (x.Set data .RCP_CONFIG_2_REGISTER) s Q E := by
  have hexists : x.Exists s.dev.deviceId := by
    cases x with
    | port a i => exact absurd hx (by simp [Setting.devices])
    | _ => trivial
  rw [meets_device_Set hx, meets_write]
  split_ifs with hfails
  · refine hfailed _ _ rfl rfl (fun hs => ?_) h
    rw [hs] at hfails
    cases hfails
  · exact hdone _ rfl rfl (h.write hexists)

/-- A command that makes one write. -/
theorem meets_setup {data : BitVec 16} (h : Holds s.dev.deviceId s.reg m) (hx : x ∈ Setting.devices)
    (hc : Describes c m) (hP : P c) (hc' : Describes c' (m.write x data)) :
    Meets (orFail text (x.Set data .RCP_CONFIG_2_REGISTER) fun _ => return .done) s (Ends s (.done, c') P) E := by
  rw [meets_orFail]
  refine meets_write_Holds h hx (fun t _ hfails ht => ?_) fun ret t _ hfails hs ht => ?_
  · exact ⟨hfails, .inl ⟨rfl, _, ht, hc'⟩⟩
  · exact ⟨hfails, .inr ⟨hs, rfl, c, hP, m, ht, hc⟩⟩

/-- The setting is the flag, by its first name or by another one. -/
structure Flag.Kept (f : Flag) (x : Setting) : Prop where
  device : x ∈ Setting.devices
  name : x.name = f.setting

theorem Flag.Kept.own {f : Flag} (hx : f.Kept x) (d : RCP_DEVICE_ID) : x.Own d := by
  cases x with
  | port a i => exact absurd hx.device (by simp [Setting.devices])
  | _ => trivial

theorem Flag.Kept.not_mode {f : Flag} (hx : f.Kept x) : x ≠ .QosMapMode := by
  rintro rfl
  have hname : Setting.QosMapMode = f.setting := hx.name
  cases f <;> cases hname

theorem Flag.Kept.read {f : Flag} (hx : f.Kept x) (m : Store) : m.read x = m f.setting := by
  rw [← hx.name]
  have hmode := hx.not_mode
  cases x <;> first | exact absurd rfl hmode | rfl

theorem Flag.Kept.write {f : Flag} (hx : f.Kept x) (m : Store) (b : Bool) :
    m.write x (bit b) = update m f.setting (bit b) := by
  have hlen : x.len = 1 := by
    rw [← x.name_place.2.2, hx.name]
    cases f <;> rfl
  rw [write_eq m hx.not_mode, hx.name, hlen, low_bit]

theorem meets_flag_shown {f : Flag} {means : Bool} {first : BitVec 16} {firstText secondText : String}
    (h : Holds s.dev.deviceId s.reg m) (hc : Describes c m) (hx : f.Kept x)
    (hfirst : first = bit (means != f.inverted)) :
    Meets (orFail text x.Get fun data => return .shown (if data = first then firstText else secondText)) s
      (Ends s (.shown (if c.flag f = means then firstText else secondText), c) P) E := by
  refine meets_show (g := fun data => if data = first then firstText else secondText) h hc (hx.own _) ?_
  rw [hx.read, hc.flag, hfirst]
  have hiff : bit (c.flag f != f.inverted) = bit (means != f.inverted) ↔ c.flag f = means := by
    rw [bit_inj]
    cases c.flag f <;> cases means <;> cases f.inverted <;> decide
  by_cases hb : c.flag f = means
  · rw [if_pos hb, if_pos (hiff.mpr hb)]
  · rw [if_neg hb, if_neg (hiff.not.mpr hb)]

theorem meets_flag_set {f : Flag} {b : Bool} {data : BitVec 16} (h : Holds s.dev.deviceId s.reg m)
    (hc : Describes c m) (hx : f.Kept x) (hdata : data = bit (b != f.inverted)) :
    Meets (orFail text (x.Set data .RCP_CONFIG_2_REGISTER) fun _ => return .done) s
      (Ends s (.done, { c with flag := update c.flag f b }) (· = c)) E := by
  refine meets_setup h hx.device hc rfl ?_
  rw [hdata, hx.write]
  exact hc.set_flag f b

/-- The command switches the flag: its word says `means`, and so does its first text. -/
structure Toggle.Switches (t : Toggle) (f : Flag) (means : Bool) : Prop where
  get : ∃ x : Setting, f.Kept x ∧ t.Get = x.Get
  set : ∃ x : Setting, f.Kept x ∧ t.Set = x.Set
  word : t.wordData = bit (means != f.inverted)
  other : t.otherData = bit ((!means) != f.inverted)
  first : t.firstData = t.wordData

theorem meets_toggle {f : Flag} {means : Bool} {t : Toggle} (argv : List String) (h : Holds s.dev.deviceId s.reg m)
    (hc : Describes c m) (ht : t.Switches f means) :
    Meets (toggle t argv) s (Ends s (c.toggled f means t argv) (· = c)) E := by
  obtain ⟨x, hx, hGet⟩ := ht.get
  obtain ⟨y, hy, hSet⟩ := ht.set
  unfold toggle
  rw [hGet, hSet]
  cases argv with
  | nil => exact meets_flag_shown h hc hx (ht.first.trans ht.word)
  | cons arg rest =>
    refine meets_flag_set h hc hy ?_
    by_cases harg : arg = t.word
    · rw [if_pos harg, if_pos harg, ht.word]
    · rw [if_neg harg, if_neg harg, ht.other]

theorem meets_leaky {f : Flag} {Get : Rcp (BitVec 16)} {Set : BitVec 16 → RCP_FLAG → Rcp Unit}
    {enabled disabled getFailed enableFailed disableFailed : String} (args : List String)
    (h : Holds s.dev.deviceId s.reg m) (hc : Describes c m) (hGet : Get = x.Get) (hSet : Set = x.Set) (hx : f.Kept x)
    (hf : f.inverted = false) :
    Meets (leaky Get Set enabled disabled getFailed enableFailed disableFailed args) s
      (Ends s (c.switched f true "enable" enabled disabled args) (· = c)) E := by
  unfold leaky
  rw [hGet, hSet]
  cases args with
  | nil => exact meets_flag_shown h hc hx (by rw [hf]; rfl)
  | cons arg rest =>
    dsimp only [Config.switched]
    split_ifs
    · exact meets_flag_set h hc hx (by rw [hf]; rfl)
    · exact meets_flag_set h hc hx (by rw [hf]; rfl)

theorem Describes.set_priority (h : Describes c m) {m' : Store} {q : Priority}
    (hothers : ∀ y : Setting, y ≠ .QosDiffPriority → y ≠ .QosVlanPriority → m' y = m y)
    (hdscp : m' .QosDiffPriority = bit (q = .dscp)) (hdot1p : m' .QosVlanPriority = bit (q = .dot1p)) :
    Describes { c with priority := q } m' := by
  constructor
  · intro f
    rw [hothers _ (by cases f <;> decide) (by cases f <;> decide)]
    exact h.flag f
  · exact hdscp
  · exact hdot1p
  · rw [hothers _ (by decide) (by decide)]
    exact h.ratio
  · rw [hothers _ (by decide) (by decide)]
    exact h.aging
  · intro hoff
    rw [hothers _ (by decide) (by decide)]
    exact h.fast hoff

/-- The setting of a priority. -/
def Priority.setting : Priority → Setting
  | dscp => .QosDiffPriority
  | _ => .QosVlanPriority

theorem Describes.priority (h : Describes c m) {p : Priority} (hp : p ≠ .port) :
    m p.setting = bit (c.priority = p) := by
  cases p with
  | port => exact absurd rfl hp
  | dscp => exact h.dscp
  | dot1p => exact h.dot1p

/-- One priority is put out. -/
theorem Describes.clear_priority (h : Describes c m) {p : Priority} (hp : p ≠ .port) :
    Describes { c with priority := if c.priority = p then .port else c.priority } (update m p.setting 0) := by
  cases p with
  | port => exact absurd rfl hp
  | dscp =>
    refine h.set_priority (fun y hy _ => update_of_ne hy _ _) ?_ ?_
    · change update m Setting.QosDiffPriority 0 Setting.QosDiffPriority = _
      rw [update_self]
      cases c.priority <;> rfl
    · change update m Setting.QosDiffPriority 0 Setting.QosVlanPriority = _
      rw [update_of_ne (by decide), h.dot1p]
      cases c.priority <;> rfl
  | dot1p =>
    refine h.set_priority (fun y _ hy => update_of_ne hy _ _) ?_ ?_
    · change update m Setting.QosVlanPriority 0 Setting.QosDiffPriority = _
      rw [update_of_ne (by decide), h.dscp]
      cases c.priority <;> rfl
    · change update m Setting.QosVlanPriority 0 Setting.QosVlanPriority = _
      rw [update_self]
      cases c.priority <;> rfl

theorem Describes.clear_mode (h : Describes c m) : Describes { c with priority := .port } (m.write .QosMapMode 0) := by
  change Describes _ (update (update m Setting.QosDiffPriority 0) Setting.QosVlanPriority 0)
  refine h.set_priority (fun y hdiff hvlan => ?_) ?_ ?_
  · rw [update_of_ne hvlan, update_of_ne hdiff]
  · rw [update_of_ne (by decide), update_self]
    rfl
  · rw [update_self]
    rfl

/-- Where none is on, one is switched on. -/
theorem Describes.give_priority (h : Describes c m) (hport : c.priority = .port) {p : Priority} (hp : p ≠ .port) :
    Describes { c with priority := p } (update m p.setting 1) := by
  have hdscp := h.dscp
  have hdot1p := h.dot1p
  rw [hport] at hdscp hdot1p
  cases p with
  | port => exact absurd rfl hp
  | dscp =>
    refine h.set_priority (fun y hy _ => update_of_ne hy _ _) ?_ ?_
    · change update m Setting.QosDiffPriority 1 Setting.QosDiffPriority = _
      rw [update_self]
      rfl
    · change update m Setting.QosDiffPriority 1 Setting.QosVlanPriority = _
      rw [update_of_ne (by decide)]
      exact hdot1p
  | dot1p =>
    refine h.set_priority (fun y _ hy => update_of_ne hy _ _) ?_ ?_
    · change update m Setting.QosVlanPriority 1 Setting.QosDiffPriority = _
      rw [update_of_ne (by decide)]
      exact hdscp
    · change update m Setting.QosVlanPriority 1 Setting.QosVlanPriority = _
      rw [update_self]
      rfl

theorem write_priority {p : Priority} (b : Bool) : m.write p.setting (bit b) = update m p.setting (bit b) := by
  have hne : p.setting ≠ .QosMapMode := by cases p <;> nofun
  have hname : p.setting.name = p.setting ∧ p.setting.len = 1 := by cases p <;> exact ⟨rfl, rfl⟩
  rw [write_eq m hne, hname.1, hname.2, low_bit]

theorem meets_priority {p : Priority} {Get : Rcp (BitVec 16)} {Set : BitVec 16 → RCP_FLAG → Rcp Unit}
    {onText offText getFailed setFailed : String} (argv : List String) (h : Holds s.dev.deviceId s.reg m)
    (hc : Describes c m) (hp : p ≠ .port) (hGet : Get = p.setting.Get) (hSet : Set = p.setting.Set) :
    Meets (priority Get Set onText offText getFailed setFailed argv) s
      (Ends s (c.prioritized p onText offText argv)
        fun c' => c' = c ∨ argv.head? = some "enable" ∧ c' = { c with priority := .port }) E := by
  have hown (d : RCP_DEVICE_ID) : p.setting.Own d := by cases p <;> exact trivial
  have hdevice : p.setting ∈ Setting.devices := by cases p <;> decide
  unfold priority
  rw [hGet, hSet]
  cases argv with
  | nil =>
    refine meets_show (g := fun data => if data = 1 then onText else offText) h hc (hown _) ?_
    have hread : m.read p.setting = m p.setting := by cases p <;> rfl
    rw [hread, hc.priority hp]
    by_cases hon : c.priority = p
    · rw [if_pos hon, decide_eq_true hon, if_pos (bit_eq_one.mpr rfl)]
    · rw [if_neg hon, decide_eq_false hon, if_neg (bit_eq_one.not.mpr Bool.false_ne_true)]
  | cons arg rest =>
    dsimp only [Config.prioritized]
    by_cases harg : arg = "enable"
    · rw [if_pos harg, if_pos harg, meets_orFail]
      refine meets_write_Holds (x := .QosMapMode) h (by decide) (fun t _ hfails ht => ?_) fun ret t _ hfails hs ht => ?_
      · -- the mode is cleared, and a failure of the second write leaves it so
        have hgiven := hc.clear_mode.give_priority rfl hp
        have hend : Meets (orFail setFailed (p.setting.Set 1 .RCP_CONFIG_2_REGISTER) fun _ => return .done) t
            (Ends t (.done, { c with priority := p })
              fun c' => c' = c ∨ (arg :: rest).head? = some "enable" ∧ c' = { c with priority := .port }) E :=
          meets_setup ht hdevice hc.clear_mode (.inr ⟨congrArg some harg, rfl⟩) ((write_priority true).symm ▸ hgiven)
        unfold Ends at hend ⊢
        unfold State.Faithful State.Sure at hend ⊢
        rwa [hfails] at hend
      · exact ⟨hfails, .inr ⟨hs, rfl, c, .inl rfl, m, ht, hc⟩⟩
    · rw [if_neg harg, if_neg harg]
      exact meets_setup h hdevice hc (.inl rfl) ((write_priority false).symm ▸ hc.clear_priority hp)

theorem meets_priority_type (h : Holds s.dev.deviceId s.reg m) (hc : Describes c m) :
    Meets cli_int_qos_priority_type s (Ends s (.shown c.priorityText, c) P) E := by
  have hmode : m.read .QosMapMode = match c.priority with | .port => 0 | .dscp => 1 | .dot1p => 2 := by
    change m .QosVlanPriority <<< 1 ||| m .QosDiffPriority = _
    rw [hc.dscp, hc.dot1p]
    cases c.priority <;> decide
  unfold cli_int_qos_priority_type
  refine (meets_orFail_Get (x := .QosMapMode) h trivial).mpr ?_
  rw [hmode, Config.priorityText]
  cases hkind : c.priority <;> exact ends_as_it_was h hc

theorem meets_priority_ratio (argv : List String) (ratio : BitVec 16) (h : Holds s.dev.deviceId s.reg m)
    (hc : Describes c m) : Meets (cli_int_qos_priority_ratio argv ratio) s
      (Ends s (c.exec (.qos_priority_ratio argv ratio)) (· = c)) E := by
  cases argv with
  | nil =>
    have hread : m.read .QosPrioRatio = BitVec.ofNat 16 c.ratio := hc.ratio
    change Meets _ _ (Ends s (.shown c.ratioText, c) (· = c)) _
    unfold cli_int_qos_priority_ratio
    dsimp only
    refine (meets_orFail_Get (x := .QosPrioRatio) h trivial).mpr ?_
    rw [hread, Config.ratioText]
    have hsame (reply : Reply) : Ends s (reply, c) (· = c) reply s := ends_as_it_was h hc
    rcases hkind : c.ratio with ⟨_ | _ | _ | _ | n, hn⟩
    · exact hsame _
    · exact hsame _
    · exact hsame _
    · exact hsame _
    · omega
  | cons arg rest =>
    refine meets_setup (x := .QosPrioRatio) h (by decide) hc rfl ?_
    have hlow : low 2 (if arg = "4:1" then 0 else if arg = "8:1" then 1 else if arg = "16:1" then 2
        else if arg = "high_pri_first" then 3 else ratio) = BitVec.ofNat 16 (Config.ratioOf arg ratio) := by
      unfold Config.ratioOf
      split_ifs
      · rfl
      · rfl
      · rfl
      · rfl
      · rfl
    rw [write_eq m (by decide)]
    change Describes _ (update m Setting.QosPrioRatio (low 2 _))
    rw [hlow]
    have hother : ∀ y : Setting, y ≠ .QosPrioRatio →
        update m Setting.QosPrioRatio (BitVec.ofNat 16 (Config.ratioOf arg ratio)) y = m y :=
      fun y hy => update_of_ne hy _ _
    constructor
    · exact fun f => (hother _ (by cases f <;> decide)).trans (hc.flag f)
    · exact (hother _ (by decide)).trans hc.dscp
    · exact (hother _ (by decide)).trans hc.dot1p
    · rw [update_self]
    · exact (hother _ (by decide)).trans hc.aging
    · exact fun hoff => (hother _ (by decide)).trans (hc.fast hoff)

theorem Describes.set_aging (h : Describes c m) {m' : Store} {a : Aging}
    (hothers : ∀ y : Setting, y ≠ .AtuAgingEnable → y ≠ .AtuFastAgingEnable → m' y = m y)
    (haging : m' .AtuAgingEnable = bit (a = .off)) (hfast : a ≠ .off → m' .AtuFastAgingEnable = bit (a = .fast)) :
    Describes { c with aging := a } m' := by
  constructor
  · intro f
    rw [hothers _ (by cases f <;> decide) (by cases f <;> decide)]
    exact h.flag f
  · rw [hothers _ (by decide) (by decide)]
    exact h.dscp
  · rw [hothers _ (by decide) (by decide)]
    exact h.dot1p
  · rw [hothers _ (by decide) (by decide)]
    exact h.ratio
  · exact haging
  · exact hfast

/-- The aging where it is switched on and how fast is not set yet. -/
def agingOn (m : Store) : Aging := if m .AtuFastAgingEnable = 1 then .fast else .default

theorem Describes.switch_aging_on (h : Holds s.dev.deviceId s.reg m) (hc : Describes c m) :
    Describes { c with aging := agingOn m } (m.write .AtuAgingEnable 0) := by
  change Describes _ (update m Setting.AtuAgingEnable 0)
  refine hc.set_aging (fun y hy _ => update_of_ne hy _ _) ?_ fun _ => ?_
  · rw [update_self, agingOn]
    split_ifs <;> rfl
  · rw [update_of_ne (by decide), agingOn]
    have hfast : m .AtuFastAgingEnable = field s.reg .AtuFastAgingEnable := h .AtuFastAgingEnable ⟨rfl, nofun⟩ trivial
    rw [hfast]
    rcases field_one s.reg (x := .AtuFastAgingEnable) rfl with h | h
    · rw [h]
      rfl
    · rw [h]
      rfl

theorem meets_atu_aging (argv : List String) (h : Holds s.dev.deviceId s.reg m) (hc : Describes c m) :
    Meets (cli_int_atu_aging argv) s (Ends s (c.exec (.atu_aging argv)) (c.Spoilt (.atu_aging argv))) E := by
  cases argv with
  | nil =>
    have haging : m.read .AtuAgingEnable = bit (c.aging = .off) := hc.aging
    have hfast := hc.fast
    change Meets _ _ (Ends s (.shown c.agingText, c) _) _
    unfold cli_int_atu_aging
    dsimp only
    refine (meets_orFail_Get (x := .AtuAgingEnable) h trivial).mpr ?_
    rw [haging, Config.agingText]
    have hread : m.read .AtuFastAgingEnable = m .AtuFastAgingEnable := rfl
    cases hkind : c.aging with
    | off => exact ends_as_it_was h hc
    | fast =>
      rw [hkind] at hfast
      rw [if_neg (by decide)]
      refine (meets_orFail_Get (x := .AtuFastAgingEnable) h trivial).mpr ?_
      rw [hread, hfast (by decide)]
      exact ends_as_it_was h hc
    | default =>
      rw [hkind] at hfast
      rw [if_neg (by decide)]
      refine (meets_orFail_Get (x := .AtuFastAgingEnable) h trivial).mpr ?_
      rw [hread, hfast (by decide)]
      exact ends_as_it_was h hc
  | cons arg rest =>
    change Meets _ _ (Ends s (.done, { c with aging := Config.agingOf arg }) _) _
    unfold cli_int_atu_aging Config.agingOf
    dsimp only
    by_cases harg : arg = "disable"
    · rw [if_pos harg, if_pos harg]
      refine meets_setup (x := .AtuAgingEnable) h (by decide) hc (.inl rfl) ?_
      change Describes _ (update m Setting.AtuAgingEnable 1)
      refine hc.set_aging (fun y hy _ => update_of_ne hy _ _) ?_ fun hoff => absurd rfl hoff
      rw [update_self]
      rfl
    · rw [if_neg harg, if_neg harg, meets_orFailWithout]
      refine meets_write_Holds (x := .AtuAgingEnable) h (by decide) (fun t _ hfails ht => ?_)
        fun ret t _ hfails hs ht => ⟨hfails, .inr ⟨hs, rfl, c, .inl rfl, m, ht, hc⟩⟩
      rw [meets_orFailWithout]
      refine meets_write_Holds (x := .AtuFastAgingEnable) ht (by decide) (fun u _ hfails' hu => ?_)
        fun ret u _ hfails' hs hu => ?_
      · refine ⟨hfails'.trans hfails, .inl ⟨rfl, _, hu, ?_⟩⟩
        change Describes _ (update (update m Setting.AtuAgingEnable 0) Setting.AtuFastAgingEnable (low 1 _))
        refine hc.set_aging (fun y hy hy' => (update_of_ne hy' _ _).trans (update_of_ne hy _ _)) ?_ fun _ => ?_
        · rw [update_of_ne (by decide), update_self]
          split_ifs <;> rfl
        · rw [update_self]
          split_ifs <;> rfl
      · have hon : agingOn m ≠ .off := by
          unfold agingOn
          split_ifs <;> decide
        unfold State.Faithful State.Sure at hs
        rw [hfails] at hs
        have hspoilt : c.Spoilt (.atu_aging (arg :: rest)) { c with aging := agingOn m } :=
          .inr ⟨fun he => harg (Option.some.inj he), _, hon, rfl⟩
        exact ⟨hfails'.trans hfails, .inr ⟨hs, rfl, _, hspoilt, _, hu, hc.switch_aging_on h⟩⟩

end

theorem broadcast_storm_filtering_switches : broadcast_storm_filtering.Switches .storm true :=
  ⟨⟨.BroadcastStormFilter, ⟨by decide, rfl⟩, rfl⟩, ⟨.BroadcastStormFilter, ⟨by decide, rfl⟩, rfl⟩, rfl, rfl, rfl⟩

theorem broadcast_fc_switches : broadcast_fc.Switches .broadcastFC true :=
  ⟨⟨.BroadcastFC, ⟨by decide, rfl⟩, rfl⟩, ⟨.BroadcastFC, ⟨by decide, rfl⟩, rfl⟩, rfl, rfl, rfl⟩

theorem igmpsnooping_switches : igmpsnooping.Switches .igmp true :=
  ⟨⟨.IGMPSnooping, ⟨by decide, rfl⟩, rfl⟩, ⟨.IGMPSnooping, ⟨by decide, rfl⟩, rfl⟩, rfl, rfl, rfl⟩

theorem multicast_fc_switches : multicast_fc.Switches .multicastFC true :=
  ⟨⟨.MulticastFC, ⟨by decide, rfl⟩, rfl⟩, ⟨.MulticastFC, ⟨by decide, rfl⟩, rfl⟩, rfl, rfl, rfl⟩

theorem qos_adapted_fc_switches : qos_adapted_fc.Switches .adaptedFC true :=
  ⟨⟨.QosAdapterFC, ⟨by decide, rfl⟩, rfl⟩, ⟨.QosAdapterFC, ⟨by decide, rfl⟩, rfl⟩, rfl, rfl, rfl⟩

theorem loopback_auto_detect_switches : loopback_auto_detect.Switches .loop true :=
  ⟨⟨.LoopDetect, ⟨by decide, rfl⟩, rfl⟩, ⟨.LoopDetect, ⟨by decide, rfl⟩, rfl⟩, rfl, rfl, rfl⟩

theorem atu_filter_switches : atu_filter.Switches .ctrlFrames true :=
  ⟨⟨.AtuCtrlFrameFilter, ⟨by decide, rfl⟩, rfl⟩, ⟨.AtuCtrlFrameFilter, ⟨by decide, rfl⟩, rfl⟩, rfl, rfl, rfl⟩

theorem vlan_ingress_filtering_switches : vlan_ingress_filtering.Switches .ingress true :=
  ⟨⟨.VlanIngressFilter, ⟨by decide, rfl⟩, rfl⟩, ⟨.VlanIngressFilter, ⟨by decide, rfl⟩, rfl⟩, rfl, rfl, rfl⟩

theorem vlan_acceptable_frame_types_switches : vlan_acceptable_frame_types.Switches .ingress false :=
  ⟨⟨.VlanIRMember, ⟨by decide, rfl⟩, rfl⟩, ⟨.VlanIngressFilter, ⟨by decide, rfl⟩, rfl⟩, rfl, rfl, rfl⟩

/-- One command does and prints what it is for, or says that it failed. -/
theorem meets_exec {s : State} {c : Config} {E : RCP_RET → State → Prop} (h : Agrees c s) (cmd : Command) :
    Meets cmd.exec s (Ends s (c.exec cmd) (c.Spoilt cmd)) E := by
  obtain ⟨m, hm, hc⟩ := h
  cases cmd with
  | broadcast_storm_filtering argv => exact meets_toggle argv hm hc broadcast_storm_filtering_switches
  | broadcast_fc argv => exact meets_toggle argv hm hc broadcast_fc_switches
  | igmpsnooping argv => exact meets_toggle argv hm hc igmpsnooping_switches
  | multicast_fc argv => exact meets_toggle argv hm hc multicast_fc_switches
  | qos_adapted_fc argv => exact meets_toggle argv hm hc qos_adapted_fc_switches
  | loopback_auto_detect argv => exact meets_toggle argv hm hc loopback_auto_detect_switches
  | atu_filter argv => exact meets_toggle argv hm hc atu_filter_switches
  | vlan_ingress_filtering argv => exact meets_toggle argv hm hc vlan_ingress_filtering_switches
  | vlan_acceptable_frame_types argv => exact meets_toggle argv hm hc vlan_acceptable_frame_types_switches
  | qos_dscp_pri_en argv => exact meets_priority (p := .dscp) argv hm hc (by decide) rfl rfl
  | qos_user_pri_en argv => exact meets_priority (p := .dot1p) argv hm hc (by decide) rfl rfl
  | qos_priority_type => exact meets_priority_type hm hc
  | qos_priority_ratio argv ratio => exact meets_priority_ratio argv ratio hm hc
  | atu_aging argv => exact meets_atu_aging argv hm hc
  | vlan_leaky argv =>
    cases argv with
    | nil => exact ends_as_it_was hm hc
    | cons kind args =>
      change Meets (cli_int_vlan_leaky (kind :: args)) s (Ends s _ (· = c)) E
      unfold cli_int_vlan_leaky Config.exec
      dsimp only
      split_ifs
      · exact meets_leaky (f := .arp) (x := .VlanArpLeaky) args hm hc rfl rfl ⟨by decide, rfl⟩ rfl
      · exact meets_leaky (f := .unicast) (x := .VlanUnicastLeaky) args hm hc rfl rfl ⟨by decide, rfl⟩ rfl
      · exact meets_leaky (f := .multicast) (x := .VlanMulticastLeaky) args hm hc rfl rfl ⟨by decide, rfl⟩ rfl
      · exact ends_as_it_was hm hc

/-! ## Sessions -/

section
variable {s : State}

theorem shown_flag (f : Flag) : Store.shown s f.setting = bit ((Config.of s).flag f != f.inverted) := by
  have hfield : field s.reg f.setting = bit (field s.reg f.setting == 1) := by
    rcases field_one s.reg (x := f.setting) (by cases f <;> rfl) with h | h
    · rw [h]
      rfl
    · rw [h]
      rfl
  have hflag : ((Config.of s).flag f != f.inverted) = (field s.reg f.setting == 1) := by
    change (((field s.reg f.setting == 1) != f.inverted) != f.inverted) = (field s.reg f.setting == 1)
    cases (field s.reg f.setting == 1) <;> cases f.inverted <;> rfl
  have hexists : f.setting.Exists s.dev.deviceId := by cases f <;> exact trivial
  rw [hflag]
  exact (shown_eq hexists).trans hfield

theorem shown_dscp : Store.shown s .QosDiffPriority = bit ((Config.of s).priority = .dscp) := by
  refine (shown_eq (by trivial)).trans ?_
  have hpriority : (Config.of s).priority = if field s.reg .QosDiffPriority = 1 then .dscp
      else if field s.reg .QosVlanPriority = 1 then .dot1p else .port := rfl
  rcases field_one s.reg (x := .QosDiffPriority) rfl with h | h
  · have hnot : (Config.of s).priority ≠ .dscp := by
      rw [hpriority, if_neg (by rw [h]; decide)]
      split_ifs <;> decide
    rw [h, decide_eq_false hnot]
    rfl
  · rw [hpriority, if_pos h, h]
    rfl

/-- Where not both are on. -/
theorem shown_dot1p (hmode : field s.reg .QosMapMode ≠ 3) :
    Store.shown s .QosVlanPriority = bit ((Config.of s).priority = .dot1p) := by
  refine (shown_eq (by trivial)).trans ?_
  have hparts : field s.reg .QosMapMode = field s.reg .QosVlanPriority <<< 1 ||| field s.reg .QosDiffPriority :=
    fields.get_parts _ 1 (by decide)
  have hpriority : (Config.of s).priority = if field s.reg .QosDiffPriority = 1 then .dscp
      else if field s.reg .QosVlanPriority = 1 then .dot1p else .port := rfl
  rw [hparts] at hmode
  rcases field_one s.reg (x := .QosDiffPriority) rfl with h | h
  · rw [hpriority, if_neg (by rw [h]; decide)]
    rcases field_one s.reg (x := .QosVlanPriority) rfl with h' | h'
    · rw [if_neg (by rw [h']; decide), h']
      rfl
    · rw [if_pos h', h']
      rfl
  · rw [hpriority, if_pos h]
    rcases field_one s.reg (x := .QosVlanPriority) rfl with h' | h'
    · rw [h']
      rfl
    · rw [h, h'] at hmode
      exact absurd (by decide) hmode

theorem shown_ratio : Store.shown s .QosPrioRatio = BitVec.ofNat 16 (Config.of s).ratio := by
  refine (shown_eq (by trivial)).trans ?_
  have hlt : (field s.reg .QosPrioRatio).toNat < 4 := fields.toNat_get_lt _
  change _ = BitVec.ofNat 16 ((field s.reg .QosPrioRatio).toNat % 4)
  rw [Nat.mod_eq_of_lt hlt, BitVec.ofNat_toNat, BitVec.setWidth_eq]

theorem shown_aging : Store.shown s .AtuAgingEnable = bit ((Config.of s).aging = .off) := by
  refine (shown_eq (by trivial)).trans ?_
  have haging : (Config.of s).aging = if field s.reg .AtuAgingEnable = 1 then .off
      else if field s.reg .AtuFastAgingEnable = 1 then .fast else .default := rfl
  rcases field_one s.reg (x := .AtuAgingEnable) rfl with h | h
  · have hnot : (Config.of s).aging ≠ .off := by
      rw [haging, if_neg (by rw [h]; decide)]
      split_ifs <;> decide
    rw [h, decide_eq_false hnot]
    rfl
  · rw [haging, if_pos h, h]
    rfl

theorem shown_fast (hoff : (Config.of s).aging ≠ .off) :
    Store.shown s .AtuFastAgingEnable = bit ((Config.of s).aging = .fast) := by
  refine (shown_eq (by trivial)).trans ?_
  have haging : (Config.of s).aging = if field s.reg .AtuAgingEnable = 1 then .off
      else if field s.reg .AtuFastAgingEnable = 1 then .fast else .default := rfl
  have hnot : ¬ field s.reg .AtuAgingEnable = 1 := by
    intro h
    rw [haging, if_pos h] at hoff
    exact hoff rfl
  rw [haging, if_neg hnot]
  rcases field_one s.reg (x := .AtuFastAgingEnable) rfl with h | h
  · rw [if_neg (by rw [h]; decide), h]
    rfl
  · rw [if_pos h, h]
    rfl

/-- Every configuration but one, where both priorities are on, is one of `Config`. -/
theorem agrees_of (hmode : field s.reg .QosMapMode ≠ 3) : Agrees (.of s) s :=
  ⟨Store.shown s, fun _ _ hown => shown_eq hown.exists,
    shown_flag, shown_dscp, shown_dot1p hmode, shown_ratio, shown_aging, shown_fast⟩

theorem Describes.config_of {c : Config} {m : Store} (hc : Describes c m) (h : Holds s.dev.deviceId s.reg m) :
    Config.of s = c := by
  have hflag : (Config.of s).flag = c.flag := by
    funext f
    have hread : field s.reg f.setting = bit (c.flag f != f.inverted) := by
      rw [← h f.setting ⟨by cases f <;> rfl, by cases f <;> decide⟩ (by cases f <;> exact trivial), hc.flag]
    change ((field s.reg f.setting == 1) != f.inverted) = c.flag f
    rw [hread]
    cases c.flag f <;> cases f.inverted <;> rfl
  have hpriority : (Config.of s).priority = c.priority := by
    have hdscp : field s.reg .QosDiffPriority = bit (c.priority = .dscp) := by
      rw [← h .QosDiffPriority ⟨rfl, nofun⟩ trivial, hc.dscp]
    have hdot1p : field s.reg .QosVlanPriority = bit (c.priority = .dot1p) := by
      rw [← h .QosVlanPriority ⟨rfl, nofun⟩ trivial, hc.dot1p]
    dsimp only [Config.of]
    rw [hdscp, hdot1p]
    cases c.priority <;> rfl
  have hratio : (Config.of s).ratio = c.ratio := by
    have hread : field s.reg .QosPrioRatio = BitVec.ofNat 16 c.ratio := by
      rw [← h .QosPrioRatio ⟨rfl, nofun⟩ trivial, hc.ratio]
    change Fin.ofNat 4 (field s.reg .QosPrioRatio).toNat = c.ratio
    rw [hread, BitVec.toNat_ofNat, Nat.mod_eq_of_lt (by omega)]
    exact Fin.ofNat_val_eq_self c.ratio
  have haging : (Config.of s).aging = c.aging := by
    have hoff : field s.reg .AtuAgingEnable = bit (c.aging = .off) := by
      rw [← h .AtuAgingEnable ⟨rfl, nofun⟩ trivial, hc.aging]
    have hfast : c.aging ≠ .off → field s.reg .AtuFastAgingEnable = bit (c.aging = .fast) := by
      intro hne
      rw [← h .AtuFastAgingEnable ⟨rfl, nofun⟩ trivial, hc.fast hne]
    dsimp only [Config.of]
    rw [hoff]
    cases hkind : c.aging with
    | off => rfl
    | fast =>
      rw [if_neg (by decide), hfast (by rw [hkind]; decide), hkind]
      rfl
    | default =>
      rw [if_neg (by decide), hfast (by rw [hkind]; decide), hkind]
      rfl
  cases c
  exact Config.mk.injEq .. ▸ ⟨hflag, hpriority, hratio, haging⟩

theorem Agrees.config_of {c : Config} (h : Agrees c s) : Config.of s = c := by
  obtain ⟨m, hm, hc⟩ := h
  exact hc.config_of hm

theorem Agrees.mode {c : Config} (h : Agrees c s) : field s.reg .QosMapMode ≠ 3 := by
  obtain ⟨m, hm, hc⟩ := h
  rw [← hm.read (x := .QosMapMode) trivial]
  change m .QosVlanPriority <<< 1 ||| m .QosDiffPriority ≠ 3
  rw [hc.dscp, hc.dot1p]
  cases c.priority <;> decide

/-- A step as it should be, or one that fails. -/
theorem step_ends {c : Config} (h : Agrees c s) (cmd : Command) :
    (step s cmd).1.writeFails = s.writeFails ∧
      ((step s cmd).2 = some (c.exec cmd).1 ∧ Agrees (c.exec cmd).2 (step s cmd).1 ∨
        ¬ s.Faithful ∧ (step s cmd).2.any Reply.isFailed ∧ ∃ c', c.Spoilt cmd c' ∧ Agrees c' (step s cmd).1) := by
  have hexec : Meets cmd.exec s (Ends s (c.exec cmd) (c.Spoilt cmd)) fun _ _ => False := meets_exec h cmd
  unfold Meets at hexec
  unfold step
  split at hexec
  · rename_i heq
    rw [heq]
    obtain ⟨hfails, ⟨rfl, hagrees⟩ | hfailed⟩ := hexec
    · exact ⟨hfails, .inl ⟨rfl, hagrees⟩⟩
    · exact ⟨hfails, .inr hfailed⟩
  · exact hexec.elim

end

/-- The command did and showed what it is for, or it says that it failed and left what it can leave. -/
def Sound (s : State) (cmd : Command) : Prop :=
  (step s cmd).2 = some ((Config.of s).exec cmd).1 ∧ Config.of (step s cmd).1 = ((Config.of s).exec cmd).2 ∨
    (step s cmd).2.any Reply.isFailed ∧ (Config.of s).Spoilt cmd (Config.of (step s cmd).1)

/-- In any session, whatever writes fail, no command fails silently, and the two priorities are never
on together. -/
theorem no_command_fails_silently (s : State) (hmode : field s.reg .QosMapMode ≠ 3) (cmds : List Command) :
    Along (next step) Sound s cmds ∧ field (run (next step) s cmds).reg .QosMapMode ≠ 3 := by
  have hstep : ∀ (s : State) (cmd : Command), (∃ c, Agrees c s) → Sound s cmd ∧ ∃ c, Agrees c (next step s cmd) := by
    rintro s cmd ⟨c, hc⟩
    unfold Sound
    rw [hc.config_of]
    obtain ⟨-, ⟨hout, hagrees⟩ | ⟨-, hfailed, c', hspoilt, hagrees⟩⟩ := step_ends hc cmd
    · exact ⟨.inl ⟨hout, hagrees.config_of⟩, _, hagrees⟩
    · exact ⟨.inr ⟨hfailed, hagrees.config_of.symm ▸ hspoilt⟩, c', hagrees⟩
  have hstart : ∃ c, Agrees c s := ⟨_, agrees_of hmode⟩
  refine ⟨along_imp (fun s cmd h _ => (hstep s cmd h).2) (fun s cmd h _ => (hstep s cmd h).1) hstart
    (along_true s cmds), ?_⟩
  obtain ⟨c, hc⟩ := run_inv (fun s cmd h _ => (hstep s cmd h).2) hstart (along_true s cmds)
  exact hc.mode

/-- Its second write fails. -/
def worn : State := { uniform .GH1524 0 with writeFails := fun n _ => n == 1 }

/-- The mode is cleared and the priority not set. -/
def session : List Command :=
  [.qos_dscp_pri_en ["enable"], .qos_priority_type, .qos_user_pri_en ["enable"], .qos_dscp_pri_en []]

theorem the_session_on_a_worn_switch :
    (Along (next step) Sound worn session ∧ field (run (next step) worn session).reg .QosMapMode ≠ 3) ∧
      outputs step worn session =
        [some (.failed "  Set qos diffserver failed." (some .RCP_TIMEOUT)),
          some (.shown "  Current QoS priority type is : Port-based.\r\n"), some .done,
          some (.shown "  Diffserver Priority is : Disabled\r\n")] :=
  ⟨no_command_fails_silently worn (by decide +kernel) session, by decide +kernel⟩

/-- In any session, where no write fails, each command shows what the commands before it set up,
and the switch is set up so: the configuration is all there is to it. -/
theorem the_commands_show_what_they_set_up (s : State) (hs : s.Faithful) (hmode : field s.reg .QosMapMode ≠ 3)
    (cmds : List Command) : outputs step s cmds = outputs Config.step (.of s) cmds ∧
      Config.of (run (next step) s cmds) = run (next Config.step) (.of s) cmds := by
  have hstep : ∀ (s : State) (c : Config) (cmd : Command), s.Faithful ∧ Agrees c s →
      (step s cmd).2 = (c.step cmd).2 ∧ (step s cmd).1.Faithful ∧ Agrees (c.step cmd).1 (step s cmd).1 := by
    rintro s c cmd ⟨hfaithful, hc⟩
    obtain ⟨hfails, ⟨hout, hagrees⟩ | ⟨hnot, -⟩⟩ := step_ends hc cmd
    · refine ⟨hout, fun a n => ?_, hagrees⟩
      rw [hfails]
      exact hfaithful a n
    · exact absurd hfaithful hnot
  obtain ⟨hout, -, hagrees⟩ := outputs_eq hstep ⟨hs, agrees_of hmode⟩ cmds
  exact ⟨hout, hagrees.config_of⟩

theorem the_session_on_a_new_switch :
    (outputs step (uniform .GH1524 0) session = outputs Config.step (.of (uniform .GH1524 0)) session ∧
      Config.of (run (next step) (uniform .GH1524 0) session) =
        run (next Config.step) (.of (uniform .GH1524 0)) session) ∧
      outputs Config.step (.of (uniform .GH1524 0)) session =
        [some .done, some (.shown "  Current QoS priority type is : DSCP-based.\r\n"), some .done,
          some (.shown "  Diffserver Priority is : Disabled\r\n")] :=
  ⟨the_commands_show_what_they_set_up (uniform .GH1524 0) (fun _ _ => rfl) (by decide +kernel) session,
    by decide +kernel⟩

end gwdonu.switch_commands
