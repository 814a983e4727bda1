-- The timers of the ONU: the pass that moves what has expired to a list of its
-- own and calls it back, and the calls that start, stop and delete timers.
import Gwdonu.UtilList

namespace gwdonu.timer

open Function util_list

/-! ## Timers -/

inductive TIMER_TYPE where
  | GW_ONCE_TIMER
  | GW_CIRCLE_TIMER
  deriving DecidableEq

inductive StopFlag where
  | GW_TIMER_NO_STOPPED
  | GW_TIMER_STOPPED
  | GW_TIMER_DESTROYED
  deriving DecidableEq

/-- `gw_timer_t`, but for its `node`, which is kept with the nodes of the lists,
and `callback`, which is always `gw_timer_app_callback`. -/
structure gw_timer_t where
  interval : Int32
  remain_interval : Int32
  timer_type : TIMER_TYPE
  stop_flag : StopFlag
  app_callback : Nat
  data : Nat
  deriving DecidableEq

def GW_TIMER_OK : Int := 0
def GW_TIMER_ERROR : Int := -1
def GW_INVALID_TIMER : Nat := 0

/-- Where the timer thread is: between two passes, at the loop over the expired
timers, or in the callback of one of them. A loop that has no end is `stuck`. -/
inductive Phase where
  | outside
  | expiring (begin_time : UInt64)
  | callback (begin_time cb_begin_time : UInt64) (pTimer : Nat)
  | stuck
  deriving DecidableEq

/-- The timer whose callback runs. -/
def Phase.running : Phase → Option Nat
  | .callback _ _ pTimer => some pTimer
  | _ => none

/-- What the module has beside its lists. No block is handed out twice. -/
structure Blocks where
  timers : Nat → gw_timer_t
  live : Nat → Bool
  next : Nat
  delta : UInt32
  callback_peek_time : UInt32
  phase : Phase

/-- `dangling` are the blocks that were reached, or freed, when they were free. -/
structure Timers extends Blocks where
  nodes : Nodes
  timer_list : gw_list
  expire_timer_list : gw_list
  dangling : List Nat

/-- A block of zeros. -/
def zeroTimer : gw_timer_t := ⟨0, 0, .GW_ONCE_TIMER, .GW_TIMER_NO_STOPPED, 0, 0⟩

/-- The state after `gw_timer_init`. -/
def Timers.init : Timers where
  timers := fun _ => zeroTimer
  live := fun _ => false
  next := 1
  delta := 0
  callback_peek_time := 0
  phase := .outside
  nodes := fun _ => ⟨none, none⟩
  timer_list := gw_lst_init
  expire_timer_list := gw_lst_init
  dangling := []

def Blocks.edit (b : Blocks) (a : Nat) (f : gw_timer_t → gw_timer_t) : Blocks :=
  { b with timers := update b.timers a (f (b.timers a)) }

def Blocks.free (b : Blocks) (a : Nat) : Blocks := { b with live := update b.live a false }

/-- Reaches these blocks. -/
def Timers.touch (s : Timers) (l : List Nat) : Timers :=
  { s with dangling := s.dangling ++ l.filter (fun a => !s.live a) }

/-- Writes to the timer at `a`. -/
def Timers.edit (s : Timers) (a : Nat) (f : gw_timer_t → gw_timer_t) : Timers :=
  { s.touch [a] with toBlocks := s.toBlocks.edit a f }

def Timers.free (s : Timers) (a : Nat) : Timers :=
  { s.touch [a] with toBlocks := s.toBlocks.free a }

def Timers.relink (s : Timers) (k : Linking) : Timers :=
  { s.touch k.touched with nodes := k.nodes, timer_list := k.lst }

def Timers.relinkExpired (s : Timers) (k : Linking) : Timers :=
  { s.touch k.touched with nodes := k.nodes, expire_timer_list := k.lst }

def gw_timer_t.flag (f : StopFlag) (p : gw_timer_t) : gw_timer_t := { p with stop_flag := f }

def gw_timer_t.reset (p : gw_timer_t) : gw_timer_t := { p with remain_interval := p.interval }

def gw_timer_t.retime (ticks : Int32) (p : gw_timer_t) : gw_timer_t :=
  { p with interval := ticks, remain_interval := ticks }

/-! ## The operations

Each is `none` when one of its loops over a list has no end: it passes more
nodes than there are blocks. -/

def gw_milli_to_ticks (milli_seconds : UInt32) : Int32 :=
  let sys_ticks := milli_seconds / 10
  (if 0 = sys_ticks then 1 else sys_ticks).toInt32

def Blocks.create (b : Blocks) (p : gw_timer_t) : Blocks :=
  { b with
    timers := update b.timers b.next p
    live := update b.live b.next true
    next := b.next + 1 }

/-- The new timer, or 0. -/
def gw_create_timer (mal : Bool) (s : Timers) (timeout : Int32) : Timers × Nat :=
  if timeout ≤ 0 then (s, 0)
  else if mal = false then (s, 0)
  else
    let ticks := gw_milli_to_ticks timeout.toUInt32
    let pTimer := { zeroTimer with interval := ticks, remain_interval := ticks }
    ({ s with
        toBlocks := s.toBlocks.create pTimer
        nodes := update s.nodes s.next ⟨none, none⟩ }, s.next)

/-- Whether the timer is on `timer_list`. -/
def gw_lookup_timer (s : Timers) (pTimer : Nat) : Option (Timers × Bool) := do
  let (passed, found) ←
    gw_lst_scan s.nodes (fun p => p = pTimer) s.next (gw_lst_first s.timer_list)
  return (s.touch passed, found.isSome)

def gw_destroy_timer (s : Timers) (pTimer : Nat) : Option Timers := do
  let s := s.edit pTimer (gw_timer_t.flag .GW_TIMER_DESTROYED)
  let (s, found) ← gw_lookup_timer s pTimer
  if found then return s else return s.free pTimer

/-- The loop of `gw_start_timer`: the timer goes before the first one that has
more ticks left, or to the end. -/
def Timers.link_in (s : Timers) (pTimer : Nat) : Option Timers := do
  let (passed, pNode) ←
    gw_lst_scan s.nodes
      (fun p => ¬ (s.timers p).remain_interval ≤ (s.timers pTimer).remain_interval)
      s.next (gw_lst_first s.timer_list)
  let s := s.touch (passed ++ pNode.toList)
  match pNode with
  | some pNode =>
    return s.relink (gw_lst_insert s.nodes s.timer_list (gw_lst_prev s.nodes pNode) pTimer)
  | none => return s.relink (gw_lst_add s.nodes s.timer_list pTimer)

def gw_start_timer (s : Timers) (pTimer : Nat) : Option Timers := do
  let s := s.edit pTimer (gw_timer_t.flag .GW_TIMER_NO_STOPPED)
  let (s, found) ← gw_lookup_timer s pTimer
  if found then return s
  else (s.edit pTimer gw_timer_t.reset).link_in pTimer

def gw_stop_timer (s : Timers) (pTimer : Nat) : Option Timers := do
  let s := s.edit pTimer (gw_timer_t.flag .GW_TIMER_STOPPED)
  let (s, found) ← gw_lookup_timer s pTimer
  if found then return s.relink (gw_lst_delete s.nodes s.timer_list pTimer) else return s

def gw_restart_timer (s : Timers) (pTimer : Nat) : Option Timers := do
  let s ← gw_stop_timer s pTimer
  gw_start_timer s pTimer

def gw_retiming_timer (s : Timers) (pTimer : Nat) (timeout : UInt32) : Option Timers := do
  let (s, found) ← gw_lookup_timer s pTimer
  let ticks := gw_milli_to_ticks timeout
  if found then
    return s.edit pTimer (gw_timer_t.retime ticks)
  else return s

/-! ## The calls -/

/-- `gw_timer_add` and `gw_circle_timer_add`: the handle, or 0. -/
def timer_add (timer_type : TIMER_TYPE) (mal : Bool) (s : Timers) (timeout : UInt32)
    (callback : Option Nat) (data : Nat) : Option (Timers × Nat) :=
  match callback with
  | none => some (s, GW_INVALID_TIMER)
  | some callback =>
    let (s, pTimer) := gw_create_timer mal s timeout.toInt32
    if pTimer = 0 then some (s, GW_INVALID_TIMER)
    else do
      let s := s.edit pTimer (fun p => { p with timer_type, app_callback := callback, data })
      let s ← gw_start_timer s pTimer
      return (s, pTimer)

def gw_timer_add := timer_add .GW_ONCE_TIMER

def gw_circle_timer_add := timer_add .GW_CIRCLE_TIMER

def gw_timer_del (s : Timers) (timer_handle : Nat) : Option (Timers × Int) :=
  if timer_handle = 0 then some (s, GW_TIMER_ERROR)
  else do
    let s ← gw_stop_timer s timer_handle
    let s ← gw_destroy_timer s timer_handle
    return (s, GW_TIMER_OK)

def gw_timer_stop (s : Timers) (timer_handle : Nat) : Option (Timers × Int) :=
  if timer_handle = 0 then some (s, GW_TIMER_ERROR)
  else do return (← gw_stop_timer s timer_handle, GW_TIMER_OK)

def gw_timer_start (s : Timers) (timer_handle : Nat) : Option (Timers × Int) :=
  if timer_handle = 0 then some (s, GW_TIMER_ERROR)
  else do return (← gw_start_timer s timer_handle, GW_TIMER_OK)

def gw_timer_restart (s : Timers) (timer_handle : Nat) : Option (Timers × Int) :=
  if timer_handle = 0 then some (s, GW_TIMER_ERROR)
  else do return (← gw_restart_timer s timer_handle, GW_TIMER_OK)

def gw_timer_retiming (s : Timers) (timer_handle : Nat) (timeout : UInt32) :
    Option (Timers × Int) :=
  if timer_handle = 0 then some (s, GW_TIMER_ERROR)
  else do return (← gw_retiming_timer s timer_handle timeout, GW_TIMER_OK)

/-! ## The pass -/

def sys_interval_in_tick : UInt32 := 1

/-- What a pass leaves of the ticks of a timer. The first test compares without
a sign, the second one with it. -/
def count_down (delta : UInt32) (remain_interval : Int32) : Int32 :=
  let remain_interval :=
    if remain_interval.toUInt32 < delta then 0
    else (remain_interval.toUInt32 - delta).toInt32
  if 0 < remain_interval then (remain_interval.toUInt32 - sys_interval_in_tick).toInt32
  else remain_interval

def gw_timer_t.count_down (delta : UInt32) (p : gw_timer_t) : gw_timer_t :=
  { p with remain_interval := timer.count_down delta p.remain_interval }

/-- The loop over `timer_list`. -/
def expire_loop : Nat → Timers → Option Nat → Option Timers
  | _, s, none => some s
  | 0, _, some _ => none
  | n + 1, s, some pTimer =>
    let s := s.edit pTimer (gw_timer_t.count_down s.delta)
    let pNext := gw_lst_next s.nodes pTimer
    if sys_interval_in_tick ≤ (s.timers pTimer).remain_interval.toUInt32 then
      expire_loop n s pNext
    else
      let s := s.relink (gw_lst_delete s.nodes s.timer_list pTimer)
      let s := s.relinkExpired (gw_lst_add s.nodes s.expire_timer_list pTimer)
      expire_loop n s pNext

/-- `gw_process_timer` up to the loop over the expired timers. -/
def Timers.enter (s : Timers) (begin_time : UInt64) : Option Timers := do
  let s := { s with expire_timer_list := gw_lst_init }
  let s ← expire_loop s.next s (gw_lst_first s.timer_list)
  return { s with phase := .expiring begin_time }

/-- What follows a callback. For a new longest time the timer's type is read. -/
def Timers.peek (s : Timers) (pExpireTimer : Nat) (cb_begin_time cb_end_time : UInt64) : Timers :=
  if s.callback_peek_time.toUInt64 < cb_end_time - cb_begin_time then
    { s.touch [pExpireTimer] with callback_peek_time := (cb_end_time - cb_begin_time).toUInt32 }
  else s

/-- `gw_timer_app_callback` up to the callback of the application: whether it
gets there. -/
def Timers.enter_callback (s : Timers) (pTimer : Nat) : Timers × Bool :=
  let s := s.touch [pTimer]
  let p := s.timers pTimer
  if p.timer_type = .GW_CIRCLE_TIMER ∧ p.stop_flag = .GW_TIMER_DESTROYED then
    (s.free pTimer, false)
  else if p.timer_type = .GW_CIRCLE_TIMER ∧ p.stop_flag = .GW_TIMER_STOPPED then (s, false)
  else (s.edit pTimer (gw_timer_t.flag .GW_TIMER_NO_STOPPED), true)

/-- `gw_timer_app_callback` from the return of the callback on. -/
def Timers.leave_callback (s : Timers) (pTimer : Nat) : Option Timers :=
  let s := s.touch [pTimer]
  if (s.timers pTimer).timer_type = .GW_ONCE_TIMER then gw_destroy_timer s pTimer
  else gw_start_timer s pTimer

/-- One round of the loop over the expired timers, up to the callback, or the
end of the pass. -/
def Timers.next_expired (s : Timers) (begin_time now later : UInt64) : Timers :=
  match gw_lst_get s.nodes s.expire_timer_list with
  | (k, none) =>
    { s.relinkExpired k with delta := (now - begin_time).toUInt32, phase := .outside }
  | (k, some pExpireTimer) =>
    match (s.relinkExpired k).enter_callback pExpireTimer with
    | (s, true) => { s with phase := .callback begin_time now pExpireTimer }
    | (s, false) => s.peek pExpireTimer now later

/-! ## Runs -/

/-- A call of the application, in a callback or elsewhere. -/
inductive Call where
  | gw_timer_add (mal : Bool) (timeout : UInt32) (callback : Option Nat) (data : Nat)
  | gw_circle_timer_add (mal : Bool) (timeout : UInt32) (callback : Option Nat) (data : Nat)
  | gw_timer_del (timer_handle : Nat)
  | gw_timer_stop (timer_handle : Nat)
  | gw_timer_start (timer_handle : Nat)
  | gw_timer_restart (timer_handle : Nat)
  | gw_timer_retiming (timer_handle : Nat) (timeout : UInt32)

/-- The timer that a call is about. -/
def Call.handle : Call → Option Nat
  | .gw_timer_add .. | .gw_circle_timer_add .. => none
  | .gw_timer_del h | .gw_timer_stop h | .gw_timer_start h | .gw_timer_restart h
  | .gw_timer_retiming h _ => some h

def Timers.call (s : Timers) : Call → Option Timers
  | .gw_timer_add mal timeout callback data =>
    (timer.gw_timer_add mal s timeout callback data).map (·.1)
  | .gw_circle_timer_add mal timeout callback data =>
    (timer.gw_circle_timer_add mal s timeout callback data).map (·.1)
  | .gw_timer_del h => (timer.gw_timer_del s h).map (·.1)
  | .gw_timer_stop h => (timer.gw_timer_stop s h).map (·.1)
  | .gw_timer_start h => (timer.gw_timer_start s h).map (·.1)
  | .gw_timer_restart h => (timer.gw_timer_restart s h).map (·.1)
  | .gw_timer_retiming h timeout => (timer.gw_timer_retiming s h timeout).map (·.1)

/-- The steps of the timer thread, with the times that it reads: a pass begins,
the next expired timer is called back, its callback returns. -/
inductive Event where
  | begin_pass (begin_time : UInt64)
  | next_expired (now later : UInt64)
  | callback_returns (now : UInt64)
  | call (c : Call)

/-- One event. A step that the thread is not at does nothing, and no call is
made on a timer that is not there. -/
def Timers.step (s : Timers) : Event → Option Timers
  | .begin_pass begin_time =>
    match s.phase with
    | .outside => s.enter begin_time
    | _ => some s
  | .next_expired now later =>
    match s.phase with
    | .expiring begin_time => some (s.next_expired begin_time now later)
    | _ => some s
  | .callback_returns now =>
    match s.phase with
    | .callback begin_time cb_begin_time pTimer => do
      let s ← s.leave_callback pTimer
      return { s.peek pTimer cb_begin_time now with phase := .expiring begin_time }
    | _ => some s
  | .call c => if ∀ h ∈ c.handle, s.live h = true then s.call c else some s

def Timers.event (s : Timers) (e : Event) : Timers :=
  (s.step e).getD { s with phase := .stuck }

end gwdonu.timer
