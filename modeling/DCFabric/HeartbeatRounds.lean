import DCFabric.PacketOuts
import DCFabric.SwitchMaps

namespace DCFabric

open TransitionRuns COfMsgUtil

namespace SwitchState

/-- The values of `switch_state_e`. -/
def value : SwitchState → ℕ
  | init => 0
  | newAccept => 1
  | connected => 2
  | stable => 3
  | unreachable => 4
  | disconnected => 5
  | powerOff => 6
  | closing => 7
  | closed => 8

end SwitchState

inductive SwitchEventType
  | quit | enterUnreach | exitUnreach | disconnect | powerOff
  deriving DecidableEq

inductive EventReason
  | sendMsgFail | heartbeatTimeout | connectRecover | switchDisconnect | switchPowerOff
  deriving DecidableEq

/-- `heartbeat_conf`. Without an interval the timer is not scheduled, and an `int` is shifted by the times. -/
structure HeartbeatConf where
  m_heartbeatInterval : ℕ
  m_heartbeatTimes : ℕ
  scheduled : 0 < m_heartbeatInterval
  shifted : m_heartbeatTimes < 31

def HEARTBEAT_PAUSE_TIME : ℕ := 60

def HEARTBEAT_NUMBER_ONE_TIME : ℕ := 100

structure WatchedPort where
  port_no : UINT4
  type : PortType
  up : Bool

structure WatchedSwitch where
  m_state : SwitchState
  m_version : UINT1
  m_swMac : MacAddr
  m_dpid : UINT8
  m_ports : List WatchedPort
  m_heartbeatTimes : ℕ
  m_heartbeatInterim : ℕ

namespace WatchedSwitch

variable (sw : WatchedSwitch)

/-- The switches that `heartbeat` does not pass over. -/
def supervised : Bool :=
  sw.m_version = OFP13_VERSION && SwitchState.connected.value ≤ sw.m_state.value &&
    sw.m_state.value ≤ SwitchState.unreachable.value

def needPowerOffCheck : Bool :=
  sw.m_state.value < SwitchState.powerOff.value && sw.m_ports.any fun port => port.up && port.type = .switch

/-- `linkUp` stands for `isLinkUp` of the topology. -/
def checkPowerOff (linkUp : UINT8 → UINT4 → Bool) : Bool :=
  !sw.m_ports.any fun port => port.up && port.type = .switch && linkUp sw.m_dpid port.port_no

end WatchedSwitch

/-- What `heartbeat` does when it comes to a supervised switch. -/
inductive HeartbeatAct
  | skip | send | resend | fail | wait | timeout | pause | resume
  deriving DecidableEq

/-- The requests of an unanswered round and the visits since its first, after one more visit. -/
def HeartbeatAct.advance : HeartbeatAct → Option (ℕ × ℕ) → Option (ℕ × ℕ)
  | .send, _ => some (1, 0)
  | .resend, round => round.map fun round => (round.1 + 1, round.2 + 1)
  | .fail, _ => none
  | .timeout, _ => none
  | _, round => round.map fun round => (round.1, round.2 + 1)

/-- The act for a switch, with its `m_heartbeatTimes` and `m_heartbeatInterim` after it. `inWindow` tells whether
`count` is in the valid range, and `sent` what `sendOfpMsg` returns. -/
def HeartbeatConf.beat (conf : HeartbeatConf) (inWindow sent : Bool) (times interim : ℕ) : HeartbeatAct × ℕ × ℕ :=
  if times = 0 then
    if !inWindow then (.skip, times, interim)
    else if sent then (.send, times + 1, 0)
    else (.fail, conf.m_heartbeatTimes + 1, 0)
  else if times < conf.m_heartbeatTimes then
    if 2 ^ times ≤ interim + 1 then
      if sent then (.resend, times + 1, 0) else (.fail, conf.m_heartbeatTimes + 1, 0)
    else (.wait, times, interim + 1)
  else if times = conf.m_heartbeatTimes then
    if 2 ^ times ≤ interim + 1 then (.timeout, conf.m_heartbeatTimes + 1, 0) else (.wait, times, interim + 1)
  else if HEARTBEAT_PAUSE_TIME / conf.m_heartbeatInterval ≤ interim + 1 then (.resume, 0, 0)
  else (.pause, times, interim + 1)

/-- What happens to the switch of a socket: its entry into the map, the handshake, an echo message of its own, and
what the heartbeat and the connection management do. `begun` and `ended` are the two ends of a call of `heartbeat`. -/
inductive HeartbeatEntry
  | begun
  | ended
  | accepted (sockfd : INT4)
  | handshake (sockfd : INT4)
  | visited (sockfd : INT4) (act : HeartbeatAct)
  | echoRequested (sockfd : INT4)
  | echoReplied (sockfd : INT4)
  | reported (sockfd : INT4) (event : SwitchEventType) (reason : EventReason)
  deriving DecidableEq

/-- `sockfds` is the switch map in the order in which it iterates, `pass` the sockets that a call of `heartbeat` has
still to visit with its `count`, and `log` has the newest entry first. -/
structure Heartbeat where
  sockfds : List INT4
  switch : INT4 → WatchedSwitch
  step : ℕ
  pass : Option (List INT4 × ℕ)
  log : List HeartbeatEntry

namespace Heartbeat

def start (switch : INT4 → WatchedSwitch) : Heartbeat := ⟨[], switch, 0, none, []⟩

variable (s : Heartbeat) (sockfd : INT4) (linkUp : UINT8 → UINT4 → Bool)

def write (e : HeartbeatEntry) : Heartbeat := { s with log := e :: s.log }

def assign (sw : WatchedSwitch) : Heartbeat := { s with switch := Function.update s.switch sockfd sw }

def setState (state : SwitchState) : Heartbeat := s.assign sockfd { s.switch sockfd with m_state := state }

def setHeartbeat (times interim : ℕ) : Heartbeat :=
  s.assign sockfd { s.switch sockfd with m_heartbeatTimes := times, m_heartbeatInterim := interim }

/-- `delSwitch` waits for the lock that a call of `heartbeat` holds; on the thread of the timer it waits for ever. -/
def delSwitch : Option Heartbeat :=
  match s.pass with
  | some _ => none
  | none => some { s.setState sockfd .closed with sockfds := s.sockfds.erase sockfd }

def processPeerQuit (reason : EventReason) : Option Heartbeat :=
  if (s.switch sockfd).m_state.value < SwitchState.closing.value then
    ((s.setState sockfd .closing).write (.reported sockfd .quit reason)).delSwitch sockfd
  else s.delSwitch sockfd

def processPeerPowerOff : Option Heartbeat :=
  if (s.switch sockfd).m_state.value < SwitchState.powerOff.value then
    ((s.setState sockfd .powerOff).write (.reported sockfd .powerOff .switchPowerOff)).processPeerQuit sockfd
      .switchPowerOff
  else some s

/-- A switch with a link that is up goes under the check of a timer of its own. -/
def startPowerOffCheck : Option Heartbeat :=
  if (s.switch sockfd).needPowerOffCheck && (s.switch sockfd).checkPowerOff linkUp then s.processPeerPowerOff sockfd
  else some s

def processPeerEnterUnreach (reason : EventReason) : Option Heartbeat :=
  if (s.switch sockfd).m_state.value < SwitchState.unreachable.value then
    if isValidMac (s.switch sockfd).m_swMac then
      ((s.setState sockfd .unreachable).write (.reported sockfd .enterUnreach reason)).startPowerOffCheck sockfd linkUp
    else s.processPeerQuit sockfd reason
  else some s

def processPeerExitUnreach : Heartbeat :=
  if (s.switch sockfd).m_state = .unreachable then
    (s.setState sockfd .stable).write (.reported sockfd .exitUnreach .connectRecover)
  else s

def processPeerDisconn : Option Heartbeat :=
  if (s.switch sockfd).m_state.value < SwitchState.disconnected.value then
    if isValidMac (s.switch sockfd).m_swMac then
      ((s.setState sockfd .disconnected).write
        (.reported sockfd .disconnect .switchDisconnect)).startPowerOffCheck sockfd linkUp
    else s.processPeerQuit sockfd .switchDisconnect
  else some s

/-- The calls `handle` of the two echo messages. `data` tells whether the message has any. -/
def handle (isRequest data sent : Bool) : Option Heartbeat :=
  let s := s.processPeerExitUnreach sockfd
  if !data then some s
  else if isRequest then
    let s := s.write (.echoRequested sockfd)
    if sent then some s else s.processPeerEnterUnreach sockfd linkUp .sendMsgFail
  else some ((s.setHeartbeat sockfd 0 0).write (.echoReplied sockfd))

/-- The valid range of `count` in this call. -/
def inWindow (count : ℕ) : Bool :=
  s.step * HEARTBEAT_NUMBER_ONE_TIME ≤ count && count < (s.step + 1) * HEARTBEAT_NUMBER_ONE_TIME

def beat (conf : HeartbeatConf) (sent : Bool) (count : ℕ) : HeartbeatAct × ℕ × ℕ :=
  conf.beat (s.inWindow count) sent (s.switch sockfd).m_heartbeatTimes (s.switch sockfd).m_heartbeatInterim

/-- The counters and the log of one visit, before the connection management hears of it. -/
def visited (conf : HeartbeatConf) (sent : Bool) (rest : List INT4) (count : ℕ) : Heartbeat :=
  let beat := s.beat sockfd conf sent count
  let count := if (s.switch sockfd).m_heartbeatTimes = 0 then count + 1 else count
  ({ s with pass := some (rest, count) }.setHeartbeat sockfd beat.2.1 beat.2.2).write (.visited sockfd beat.1)

/-- The body of the loop of `heartbeat`, for the switch of the next socket. -/
def visit (conf : HeartbeatConf) (sent : Bool) : Option Heartbeat :=
  match s.pass with
  | some (sockfd :: rest, count) =>
    if !(s.switch sockfd).supervised then some { s with pass := some (rest, count) }
    else
      match (s.beat sockfd conf sent count).1 with
      | .fail => (s.visited sockfd conf sent rest count).processPeerEnterUnreach sockfd linkUp .sendMsgFail
      | .timeout => (s.visited sockfd conf sent rest count).processPeerEnterUnreach sockfd linkUp .heartbeatTimeout
      | _ => some (s.visited sockfd conf sent rest count)
  | _ => none

/-- `addSwitch` waits for the lock too. The order of the map after it is any that has the new socket. -/
def accept (sw : WatchedSwitch) (sockfds : List INT4) : Option Heartbeat :=
  match s.pass with
  | some _ => none
  | none =>
    if sockfds.isPerm (sockfd :: s.sockfds.erase sockfd) then
      let sw := { sw with m_heartbeatTimes := 0, m_heartbeatInterim := 0 }
      some ({ s with sockfds := sockfds }.assign sockfd sw |>.write (.accepted sockfd))
    else none

end Heartbeat

/-- The calls of `heartbeat` in steps of one switch, and what the receiving threads do between them. -/
inductive HeartbeatEvent
  | begin
  | visit (sent : Bool) (linkUp : UINT8 → UINT4 → Bool)
  | finish
  | accept (sockfd : INT4) (sw : WatchedSwitch) (sockfds : List INT4)
  | hello (sockfd : INT4)
  | barrier (sockfd : INT4)
  | echo (sockfd : INT4) (isRequest data sent : Bool) (linkUp : UINT8 → UINT4 → Bool)
  | portStatus (sockfd : INT4) (ports : List WatchedPort)
  | sendFailed (sockfd : INT4) (linkUp : UINT8 → UINT4 → Bool)
  | disconnect (sockfd : INT4) (linkUp : UINT8 → UINT4 → Bool)
  | powerOff (sockfd : INT4)
  | quit (sockfd : INT4) (reason : EventReason)
  | delete (sockfd : INT4)

namespace Heartbeat

/-- An event that concerns a socket comes to nothing when no switch has it. -/
def withSwitch (s : Heartbeat) (sockfd : INT4) (f : Option Heartbeat) : Option Heartbeat :=
  if sockfd ∈ s.sockfds then f else some s

def begin (s : Heartbeat) : Option Heartbeat :=
  match s.pass with
  | some _ => none
  | none =>
    let step := if s.sockfds.length ≤ s.step * HEARTBEAT_NUMBER_ONE_TIME then 0 else s.step
    some ({ s with step := step, pass := some (s.sockfds, 0) }.write .begun)

def finish (s : Heartbeat) : Option Heartbeat :=
  match s.pass with
  | some ([], _) => some ({ s with step := s.step + 1, pass := none }.write .ended)
  | _ => none

def next (conf : HeartbeatConf) (s : Heartbeat) : HeartbeatEvent → Option Heartbeat
  | .begin => s.begin
  | .visit sent linkUp => s.visit linkUp conf sent
  | .finish => s.finish
  | .accept sockfd sw sockfds => s.accept sockfd sw sockfds
  | .hello sockfd =>
    s.withSwitch sockfd <| some <| (s.assign sockfd
      { s.switch sockfd with m_version := OFP13_VERSION, m_state := .connected }).write (.handshake sockfd)
  | .barrier sockfd => s.withSwitch sockfd <| some ((s.setState sockfd .stable).write (.handshake sockfd))
  | .echo sockfd isRequest data sent linkUp =>
    s.withSwitch sockfd (s.handle sockfd linkUp isRequest data sent)
  | .portStatus sockfd ports =>
    s.withSwitch sockfd (some (s.assign sockfd { s.switch sockfd with m_ports := ports }))
  | .sendFailed sockfd linkUp => s.withSwitch sockfd (s.processPeerEnterUnreach sockfd linkUp .sendMsgFail)
  | .disconnect sockfd linkUp => s.withSwitch sockfd (s.processPeerDisconn sockfd linkUp)
  | .powerOff sockfd => s.withSwitch sockfd (s.processPeerPowerOff sockfd)
  | .quit sockfd reason => s.withSwitch sockfd (s.processPeerQuit sockfd reason)
  | .delete sockfd => s.delSwitch sockfd

/-- How many requests the switch of a socket has had since the first that it left without a reply, and how many
visits ago that one was, both told from the log alone. -/
def silence (sockfd : INT4) : List HeartbeatEntry → Option (ℕ × ℕ)
  | [] => none
  | .visited a act :: es => if a = sockfd then act.advance (silence sockfd es) else silence sockfd es
  | .accepted a :: es => if a = sockfd then none else silence sockfd es
  | .echoReplied a :: es => if a = sockfd then none else silence sockfd es
  | _ :: es => silence sockfd es

/-- Whether the heartbeat has given the switch of a socket up and nothing has been heard of it since. -/
def suspected (sockfd : INT4) : List HeartbeatEntry → Bool
  | [] => false
  | .visited a act :: es => (a = sockfd && (act = .fail || act = .timeout)) || suspected sockfd es
  | .accepted a :: es => a ≠ sockfd && suspected sockfd es
  | .handshake a :: es => a ≠ sockfd && suspected sockfd es
  | .echoRequested a :: es => a ≠ sockfd && suspected sockfd es
  | .echoReplied a :: es => a ≠ sockfd && suspected sockfd es
  | .reported a event _ :: es => (event ≠ .exitUnreach || a ≠ sockfd) && suspected sockfd es
  | .begun :: es => suspected sockfd es
  | .ended :: es => suspected sockfd es

end Heartbeat

/-- What is due at the next visit: the waiting time doubles with each request. -/
def HeartbeatConf.due (conf : HeartbeatConf) : Option (ℕ × ℕ) → List HeartbeatAct
  | none => [.skip, .send, .fail, .pause, .resume]
  | some (requests, visits) =>
    if visits + 3 < 2 ^ (requests + 1) then [.wait]
    else if requests = conf.m_heartbeatTimes then [.timeout]
    else [.resend, .fail]

/-- The round that the counters of a switch stand for. -/
def HeartbeatConf.counted (conf : HeartbeatConf) (times interim : ℕ) : Option (ℕ × ℕ) :=
  if 0 < times ∧ times ≤ conf.m_heartbeatTimes then some (times, 2 ^ times + interim - 2) else none

/-- The counters of a round stay below the next act of its schedule. -/
def HeartbeatConf.Counts (conf : HeartbeatConf) (times interim : ℕ) : Prop :=
  0 < times → times ≤ conf.m_heartbeatTimes → interim < 2 ^ times

namespace HeartbeatConf

variable {conf : HeartbeatConf} {times interim : ℕ} {inWindow sent : Bool}

theorem counted_of_pos (hpos : 0 < times) (hle : times ≤ conf.m_heartbeatTimes) :
    conf.counted times interim = some (times, 2 ^ times + interim - 2) := if_pos ⟨hpos, hle⟩

theorem counted_zero : conf.counted 0 interim = none := if_neg (by simp)

theorem counted_over (h : conf.m_heartbeatTimes < times) : conf.counted times interim = none := if_neg (by omega)

/-- The counters go on as the log tells, and the act is the one that is due. -/
structure Beats (conf : HeartbeatConf) (times interim : ℕ) (beat : HeartbeatAct × ℕ × ℕ) : Prop where
  counts : conf.Counts beat.2.1 beat.2.2
  counted : conf.counted beat.2.1 beat.2.2 = beat.1.advance (conf.counted times interim)
  due : beat.1 ∈ conf.due (conf.counted times interim)
  timeout : beat.1 = .timeout ↔
    conf.counted times interim = some (conf.m_heartbeatTimes, 2 ^ (conf.m_heartbeatTimes + 1) - 3)

theorem beats_idle (hT : 0 < conf.m_heartbeatTimes) : conf.Beats 0 interim (conf.beat inWindow sent 0 interim) := by
  have hstart : conf.counted 1 0 = some (1, 0) := counted_of_pos Nat.one_pos hT
  have hover : conf.counted (conf.m_heartbeatTimes + 1) 0 = none := counted_over (Nat.lt_succ_self _)
  cases inWindow <;> cases sent <;>
    constructor <;>
    simp [beat, Counts, counted_zero, due, HeartbeatAct.advance, hstart, hover]

theorem beats_round (hpos : 0 < times) (hlt : times < conf.m_heartbeatTimes) (hc : interim < 2 ^ times) :
    conf.Beats times interim (conf.beat inWindow sent times interim) := by
  have htwo : 2 ^ (times + 1) = 2 * 2 ^ times := pow_succ' 2 times
  have hone : 2 ≤ 2 ^ times := le_self_pow₀ one_le_two hpos.ne'
  have hnow : conf.counted times interim = _ := counted_of_pos hpos hlt.le
  have hover : conf.counted (conf.m_heartbeatTimes + 1) 0 = none := counted_over (Nat.lt_succ_self _)
  by_cases hwait : 2 ^ times ≤ interim + 1
  · have hnext : conf.counted (times + 1) 0 = some (times + 1, 2 ^ times + interim - 2 + 1) := by
      rw [counted_of_pos times.succ_pos hlt, htwo]
      congr 2
      omega
    have hdue : ¬ 2 ^ times + interim - 2 + 3 < 2 ^ (times + 1) := by omega
    cases sent <;>
      constructor <;>
      simp [beat, Counts, due, HeartbeatAct.advance, hpos.ne', hlt, hlt.ne, hwait, hnow, hover, hnext, hdue]
  · have hnext : conf.counted times (interim + 1) = some (times, 2 ^ times + interim - 2 + 1) := by
      rw [counted_of_pos hpos hlt.le]
      congr 2
      omega
    have hdue : 2 ^ times + interim - 2 + 3 < 2 ^ (times + 1) := by omega
    have hlow : interim + 1 < 2 ^ times := not_le.mp hwait
    constructor <;>
      simp [beat, Counts, due, HeartbeatAct.advance, hpos.ne', hlt, hlt.ne, hwait, hnow, hnext, hdue, hlow]

theorem beats_last (hT : 0 < conf.m_heartbeatTimes) (hc : interim < 2 ^ conf.m_heartbeatTimes) :
    conf.Beats conf.m_heartbeatTimes interim (conf.beat inWindow sent conf.m_heartbeatTimes interim) := by
  have htwo : 2 ^ (conf.m_heartbeatTimes + 1) = 2 * 2 ^ conf.m_heartbeatTimes := pow_succ' 2 _
  have hone : 2 ≤ 2 ^ conf.m_heartbeatTimes := le_self_pow₀ one_le_two hT.ne'
  have hnow : conf.counted conf.m_heartbeatTimes interim = _ := counted_of_pos hT le_rfl
  have hover : conf.counted (conf.m_heartbeatTimes + 1) 0 = none := counted_over (Nat.lt_succ_self _)
  by_cases hwait : 2 ^ conf.m_heartbeatTimes ≤ interim + 1
  · have hdue : ¬ 2 ^ (conf.m_heartbeatTimes + 1) - 3 + 3 < 2 ^ (conf.m_heartbeatTimes + 1) := by omega
    have htime : 2 ^ conf.m_heartbeatTimes + interim - 2 = 2 ^ (conf.m_heartbeatTimes + 1) - 3 := by omega
    constructor <;>
      simp [beat, Counts, due, HeartbeatAct.advance, hT.ne', hwait, hnow, hover, hdue, htime]
  · have hnext : conf.counted conf.m_heartbeatTimes (interim + 1) =
        some (conf.m_heartbeatTimes, 2 ^ conf.m_heartbeatTimes + interim - 2 + 1) := by
      rw [counted_of_pos hT le_rfl]
      congr 2
      omega
    have hdue : 2 ^ conf.m_heartbeatTimes + interim - 2 + 3 < 2 ^ (conf.m_heartbeatTimes + 1) := by omega
    have htime : 2 ^ conf.m_heartbeatTimes + interim - 2 ≠ 2 ^ (conf.m_heartbeatTimes + 1) - 3 := by omega
    have hlow : interim + 1 < 2 ^ conf.m_heartbeatTimes := not_le.mp hwait
    constructor <;>
      simp [beat, Counts, due, HeartbeatAct.advance, hT.ne', hwait, hnow, hnext, hdue, htime, hlow]

theorem beats_pause (hlt : conf.m_heartbeatTimes < times) :
    conf.Beats times interim (conf.beat inWindow sent times interim) := by
  have hpos : times ≠ 0 := (Nat.zero_lt_of_lt hlt).ne'
  by_cases hpause : HEARTBEAT_PAUSE_TIME / conf.m_heartbeatInterval ≤ interim + 1 <;>
    constructor <;>
    simp [beat, Counts, due, HeartbeatAct.advance, hpos, hlt.not_gt, hlt.ne', hpause, counted_zero, counted_over hlt,
      hlt]

theorem beats (hT : 0 < conf.m_heartbeatTimes) (hc : conf.Counts times interim) :
    conf.Beats times interim (conf.beat inWindow sent times interim) := by
  obtain rfl | hpos := Nat.eq_zero_or_pos times
  · exact beats_idle hT
  · obtain hlt | rfl | hlt := lt_trichotomy times conf.m_heartbeatTimes
    · exact beats_round hpos hlt (hc hpos hlt.le)
    · exact beats_last hT (hc hpos le_rfl)
    · exact beats_pause hlt

end HeartbeatConf

end DCFabric
