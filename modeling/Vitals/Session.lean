/-
  A session: one channel, followed until it closes.

  A session is a step machine. It takes in what its channel delivers, the ticks of its timers and
  the commands of its owner, and gives out `Effect`s in order: frames for the channel, events for
  its watchers, states of its lifecycle, and notes. How the channel behaves at a step is given
  beside the input, by a `Line`. Every way to end leads through `Session.finish`. What the machine
  cannot do is given by a `Host`: a session that asks for more stops short before its first request,
  with its channel open and nobody told.

  * `Session.begin`: from the connection attempt to the first request.
  * `Session.step`: one input.
  * `Feed.dispatcher`: which frames a mode understands.
-/
import Vitals.Channel.Error
import Vitals.Dispatch
import Vitals.Session.Lifecycle
import Vitals.Telemetry

namespace Vitals

open Wire

/-! ## Modes and settings -/

/-- Which feed a session follows. -/
inductive Mode where
  /-- The stats history; pongs extend it. -/
  | stats
  /-- The request log; pongs only carry the clock. -/
  | requests
  deriving DecidableEq, Repr

/-- The name of a mode. -/
def Mode.name : Mode → String
  | stats => "Stats" | requests => "Requests"

/-- The first request of a session. -/
def Mode.handshake : Mode → ClientMessage
  | stats => .statsQuery 0 .initial
  | requests => .recentRequests 0

namespace Duration

/-- Some milliseconds, in nanoseconds. -/
def millis (n : Nat) : Nat := 1000000 * n

/-- Some seconds, in nanoseconds. -/
def seconds (n : Nat) : Nat := 1000000000 * n

theorem millis_add (m n : Nat) : millis (m + n) = millis m + millis n := Nat.mul_add _ _ _

theorem millis_le_millis {m n : Nat} : millis m ≤ millis n ↔ m ≤ n := by
  unfold millis
  omega

theorem pos_of_millis {n : Nat} (h : 0 < millis n) : 0 < n := by
  unfold millis at h
  omega

end Duration

/-- What a session is told at its start. -/
structure Settings where
  mode : Mode
  /-- Nanoseconds between pings. -/
  probePeriod : Nat
  /-- Nanoseconds between pulls of the request log. -/
  tailPeriod : Nat
  /-- How many requests are kept. -/
  capacity : Nat
  deriving DecidableEq, Repr

/-- The settings of a mode, all else as usual. -/
def Settings.usual (mode : Mode) : Settings :=
  ⟨mode, Duration.seconds 3, Duration.seconds 3, Telemetry.defaultCapacity⟩

/-- What a machine has left when the channel of a session is open. Its clock is taken to go on for
as long as the session lives. -/
structure Host where
  /-- How many requests memory can be set aside for. -/
  room : Nat
  /-- How many nanoseconds ahead the clock can count when the timer for pings is set. -/
  probeReach : Nat
  /-- How many it can count when the timer that pulls the request log is set. -/
  tailReach : Nat
  deriving DecidableEq, Repr

/-- A machine of 64 bits one second after its start. Its clock counts seconds up to the largest
signed word, and as many bytes are its memory at most. A request takes 152 of them. -/
def Host.usual : Host where
  room := 9223372036854775807 / 152
  probeReach := Duration.seconds 9223372036854775806
  tailReach := Duration.seconds 9223372036854775806

/-- What the owner of a session asks for. -/
inductive Command where
  /-- Ask the server for the page before the history held. -/
  | loadOlder
  | setPaused (paused : Bool)
  | close
  deriving DecidableEq, Repr

/-! ## Inbound frames -/

/-- The telemetry, and the events that the frame in hand has given rise to. -/
structure Feed where
  telemetry : Telemetry
  outbox : List Event
  deriving DecidableEq, Repr

namespace Feed

/-- Takes over what an operation on the telemetry did. -/
def absorb (f : Feed) (m : Merge) : Reply Feed :=
  { state := ⟨m.state, f.outbox ++ m.events⟩, refusal := none, notes := m.notes }

/-- A handler that decodes a whole batch, and applies it only then. -/
def batchHandler {α : Type} [Record α] (apply : Telemetry → Batch α → Merge) : Handler Feed :=
  fun payload f =>
    match (Batch.decode : Decoder (Batch α)).run payload with
    | .ok batch => f.absorb (apply f.telemetry batch)
    | .error e => { state := f, refusal := some e, notes := [] }

/-- The frames that a mode understands. -/
def dispatcher : Mode → Dispatcher Feed
  | .stats =>
    (Dispatcher.empty.register .stats (batchHandler Telemetry.mergeStats)).register .ping
      (batchHandler Telemetry.mergePong)
  | .requests =>
    (Dispatcher.empty.register .ping (batchHandler (α := Stat) Telemetry.mergeClock)).register
      .recentRequests (batchHandler Telemetry.mergeRequests)

end Feed

/-! ## The machine -/

/-- How a channel behaves at present. -/
structure Line where
  /-- Why frames cannot be sent, if so. -/
  sendFault : Option Channel.Error
  /-- Why the channel does not close in good order, if so. -/
  closeFault : Option Channel.Error
  deriving DecidableEq, Repr

/-- What a session takes in. -/
inductive Input where
  | frame (bytes : List UInt8)
  /-- The channel failed. -/
  | failed (e : Channel.Error)
  /-- The server closed the channel. -/
  | ended
  /-- The time has come for a ping. -/
  | probe
  /-- The time has come to pull the request log. -/
  | tail
  | command (c : Command)
  | cancelled
  deriving DecidableEq, Repr

/-- What a session gives out. -/
inductive Effect where
  /-- A frame that the channel has taken. -/
  | sent (frame : List UInt8)
  | published (event : Event)
  | state (s : ConnectionState)
  /-- The channel is closed, whether in good order or not. -/
  | closed
  | noted (note : Note)
  deriving DecidableEq, Repr

/-- A session in progress or over. -/
structure Session where
  mode : Mode
  lifecycle : Lifecycle
  running : Bool
  telemetry : Telemetry
  deriving DecidableEq, Repr

/-- Why a session did not come about. -/
inductive Session.Failure where
  | transport (e : Channel.Error)
  | lifecycle (e : InvalidTransition)
  /-- There is no memory for as many requests as are to be kept. -/
  | noRoom
  /-- The first deadline of a timer lies past the end of the clock. -/
  | beyondClock
  /-- A timer without a period cannot be set. -/
  | zeroPeriod
  deriving DecidableEq, Repr

/-- A session after its start or a reason why there is none, with the state of its lifecycle and the
effects so far. -/
structure Session.Begun where
  outcome : Except Session.Failure Session
  lifecycle : Lifecycle
  effects : List Effect

namespace Session

/-- A log event of a session. -/
def note (level : Level) (message : String) (fields : List (String × FieldValue)) : Effect :=
  .noted (.log ⟨level, "telewire::session", message, fields⟩)

/-- The effects of publishing a new state of the lifecycle. -/
def stateEffects (l : Lifecycle) (notes : List Note) : List Effect :=
  .state l.state :: notes.map .noted

/-- The end of a session: its lifecycle and its channel are closed, and its watchers are told. -/
def finish (s : Session) (line : Line) : Session × List Effect :=
  let (lifecycle, notes) := s.lifecycle.closed
  let fault := line.closeFault.toList.map fun e =>
    note .debug "Error while closing admin channel" [("error", .text e.message)]
  ({ s with lifecycle, running := false },
    stateEffects lifecycle notes ++ .closed :: fault ++ [.published .closed])

/-- What is noted of a request once the channel has taken it. -/
def sentNote (m : ClientMessage) : Effect :=
  note .trace "Request sent" [("opcode", .number m.opcode.code.toNat)]

/-- Sends a request. A channel that does not take it is gone. -/
def send (s : Session) (line : Line) (m : ClientMessage) : Session × List Effect :=
  match m.encode? with
  | .error e => (s, [note .error "Failed to encode request" [("error", .text e.message)]])
  | .ok frame =>
    match line.sendFault with
    | none => (s, [.sent frame, sentNote m])
    | some e =>
      let (s, effects) := s.finish line
      (s, note .warn "Failed to send on admin channel" [("error", .text e.message)] :: effects)

/-- The effects of an operation on the telemetry. -/
def mergeEffects (m : Merge) : List Effect := m.notes.map .noted ++ m.events.map .published

/-- Ends the session for a reason that is noted. -/
def finishNoting (s : Session) (line : Line) (e : Effect) : Session × List Effect :=
  let (s, effects) := s.finish line
  (s, e :: effects)

/-- Takes in a frame: it is dispatched, then the events that it gave rise to are published. -/
def receive (s : Session) (frame : List UInt8) : Session × List Effect :=
  let d := (Feed.dispatcher s.mode).dispatch ⟨s.telemetry, []⟩ frame
  ({ s with telemetry := d.state.telemetry },
    d.notes.map .noted ++ d.state.outbox.map .published)

/-- Obeys a command. -/
def obey (s : Session) (line : Line) : Command → Session × List Effect
  | .loadOlder =>
    match s.telemetry.olderRequest? with
    | some request => s.send line request
    | none => (s, [note .debug "No older stats page to request" []])
  | .setPaused paused =>
    let m := s.telemetry.setPaused paused
    ({ s with telemetry := m.state }, mergeEffects m)
  | .close => s.finishNoting line (note .info "Session closed on request" [])

/-- Takes in one input. A session that is over takes in nothing. -/
def step (s : Session) (line : Line) (input : Input) : Session × List Effect :=
  if s.running then
    match input with
    | .frame bytes => s.receive bytes
    | .failed e =>
      s.finishNoting line (note .warn "Admin channel failed" [("error", .text e.message)])
    | .ended => s.finishNoting line (note .info "Admin channel closed by server" [])
    | .probe => s.send line .ping
    | .tail =>
      match s.mode with
      | .stats => (s, [])
      | .requests => s.send line s.telemetry.tailRequest
    | .command c => s.obey line c
    | .cancelled => s.finishNoting line (note .info "Session cancelled" [])
  else (s, [])

/-- Takes in some inputs in order, over a line that does not change. -/
def run (s : Session) (line : Line) : List Input → Session × List Effect
  | [] => (s, [])
  | i :: is =>
    let (s, effects) := s.step line i
    let (s, effects') := s.run line is
    (s, effects ++ effects')

/-- Why a timer cannot be set, if so, on a clock that counts so far ahead. The first deadline is
looked at before the period. -/
def timerFault? (reach period : Nat) : Option Failure :=
  if reach < period then some .beyondClock
  else if period = 0 then some .zeroPeriod
  else none

/-- Why a session stops short once its channel is open, if so. -/
def startFault? (host : Host) (settings : Settings) : Option Failure :=
  if host.room < settings.capacity then some .noRoom
  else
    (timerFault? host.probeReach settings.probePeriod).or
      (timerFault? host.tailReach settings.tailPeriod)

/-- Starts a session: the channel is connected to `endpoint` with the given outcome, memory is set
aside and the timers are set, and then the first request is sent. -/
def begin (host : Host) (settings : Settings) (endpoint : String)
    (connected : Except Channel.Error Unit) (line : Line) : Begun :=
  let greeting := note .info "Connecting to admin channel" [
    ("endpoint", .text endpoint), ("mode", .text settings.mode.name)]
  match connected with
  | .error e =>
    let (lifecycle, notes) := Lifecycle.start.closed
    { outcome := .error (.transport e)
      lifecycle
      effects := greeting :: stateEffects lifecycle notes ++ [.published .closed] }
  | .ok () =>
    match Lifecycle.start.opened with
    | .error e =>
      { outcome := .error (.lifecycle e), lifecycle := Lifecycle.start, effects := [greeting] }
    | .ok (lifecycle, notes) =>
      let effects := greeting :: stateEffects lifecycle notes ++
        [note .info "Admin channel open" [("endpoint", .text endpoint)]]
      match startFault? host settings with
      | some failure => { outcome := .error failure, lifecycle, effects }
      | none =>
        let s : Session :=
          { mode := settings.mode, lifecycle, running := true,
            telemetry := Telemetry.fresh settings.capacity }
        let (s, effects') := s.send line settings.mode.handshake
        { outcome := .ok s, lifecycle := s.lifecycle, effects := effects ++ effects' }

end Session

end Vitals
