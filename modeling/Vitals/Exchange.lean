/-
  Single exchanges: a channel opened for one request and closed again.

  The channel is given by a `Link`, which says how each of its operations turns out and what arrives
  when, in milliseconds after the start. An exchange sends its request and takes the first frame
  that bears the expected opcode and decodes; all other frames are skipped, and the time limit runs
  on. The channel is closed whatever came of it.

  * `Exchange.await`: what comes of waiting for a response.
  * `Exchange.run`, `Exchange.post`, `Exchange.chart`.
-/
import Vitals.Channel.Error
import Vitals.ChartSeries
import Vitals.Decimal.Text
import Vitals.Journal
import Vitals.Message

namespace Vitals

open Wire

/-- A time in milliseconds as a number of seconds. -/
def secondsText (millis : Nat) : String :=
  let fraction := (Binary64.ofNat (millis % 1000 * 1000000)).div (.ofNat 1000000000)
  Decimal.plain ((Binary64.ofNat (millis / 1000)).add fraction)

/-- Why an exchange fails. -/
inductive ExchangeError where
  | transport (e : Channel.Error)
  | tooManyIds (e : TooManyIds)
  /-- No response within so many milliseconds. -/
  | timeout (millis : Nat)
  | channelClosed
  /-- A response of another kind than the one expected. -/
  | unexpectedResponse (byte : UInt8)
  deriving DecidableEq, Repr

/-- The wording of an exchange error. -/
def ExchangeError.message : ExchangeError → String
  | transport e => e.message
  | tooManyIds e => e.message
  | timeout millis => s!"no response within {secondsText millis}s"
  | channelClosed => "channel closed before a response arrived"
  | unexpectedResponse byte => s!"unexpected response with opcode {byte}"

/-! ## Links -/

/-- What a channel delivers. -/
inductive Arrival where
  | frame (bytes : List UInt8)
  | failed (e : Channel.Error)
  /-- The server has closed the channel. -/
  | ended
  deriving DecidableEq, Repr

/-- How a channel behaves. -/
structure Link where
  connectFault : Option Channel.Error
  sendFault : Option Channel.Error
  closeFault : Option Channel.Error
  /-- What arrives and when, in order of time. Nothing arrives after the last one. -/
  arrivals : List (Nat × Arrival)
  deriving DecidableEq, Repr

/-- One part of a server's script. -/
inductive Delivery where
  | arrival (a : Arrival)
  /-- Lets some milliseconds pass. -/
  | wait (millis : Nat)
  deriving DecidableEq, Repr

/-- The arrivals of a script that is played from `now` on. At its end the server closes the channel,
unless it is to `hang`. -/
def Delivery.schedule (hang : Bool) : Nat → List Delivery → List (Nat × Arrival)
  | now, [] => if hang then [] else [(now, .ended)]
  | now, .arrival a :: rest => (now, a) :: schedule hang now rest
  | now, .wait millis :: rest => schedule hang (now + millis) rest

/-! ## Waiting -/

/-- What the client does to its channel. -/
inductive Action where
  | connect
  /-- Offers a frame; the flag says whether the channel took it. -/
  | send (frame : List UInt8) (taken : Bool)
  | receive
  | close
  deriving DecidableEq, Repr

/-- What comes of something that may never finish. -/
inductive Ending (α : Type) where
  | done (result : Except ExchangeError α)
  /-- Nothing will end the wait. -/
  | waiting

/-- A course of events up to its end, or up to the point where nothing more happens. -/
structure Course (α : Type) where
  outcome : Ending α
  actions : List Action
  /-- When it ended. -/
  time : Nat
  notes : List Note

namespace Exchange

/-- A log event of an exchange. -/
def note (level : Level) (message : String) (fields : List (String × FieldValue)) : Note :=
  .log ⟨level, "telewire::exchange", message, fields⟩

/-- Judges a frame while a response under `expect` is awaited: the response, or why it is skipped.
-/
def judge (expect : Opcode) : List UInt8 → Except Note ServerMessage
  | [] => .error (note .warn "Skipping malformed frame" [
      ("error", .text DecodeError.emptyFrame.message)])
  | byte :: payload =>
    if byte = expect.code then
      match ServerMessage.ofPayload byte payload with
      | .ok m => .ok m
      | .error e => .error (note .warn "Skipping malformed response" [
          ("opcode", .number byte.toNat), ("error", .text e.message)])
    else .error (note .warn "Skipping frame while waiting for response" [
      ("opcode", .number byte.toNat), ("expected", .number expect.code.toNat)])

/-- Whether something that arrives at `time` comes too late for a limit. A limit is over when its
last millisecond is, so what arrives at that very moment is late. -/
def late (limit : Option Nat) (time : Nat) : Bool :=
  match limit with
  | some d => d ≤ time
  | none => false

/-- The end of a wait in which nothing more arrives in time. -/
def expired (limit : Option Nat) (now : Nat) : Course ServerMessage :=
  match limit with
  | some d => ⟨.done (.error (.timeout d)), [.receive], d, []⟩
  | none => ⟨.waiting, [.receive], now, []⟩

/-- Waits for a response under `expect`, from `now` until the limit. -/
def await (limit : Option Nat) (expect : Opcode) : Nat → List (Nat × Arrival) → Course ServerMessage
  | now, [] => expired limit now
  | now, (time, a) :: rest =>
    if late limit time then expired limit now
    else
      match a with
      | .failed e => ⟨.done (.error (.transport e)), [.receive], time, []⟩
      | .ended => ⟨.done (.error .channelClosed), [.receive], time, []⟩
      | .frame bytes =>
        match judge expect bytes with
        | .ok m => ⟨.done (.ok m), [.receive], time, []⟩
        | .error skipped =>
          let c := await limit expect time rest
          { c with actions := .receive :: c.actions, notes := skipped :: c.notes }

/-! ## Exchanges -/

/-- Closes the channel at the end of a course. A fault in closing it is noted and changes nothing
else. A course that does not end does not come to it. -/
def closing {α : Type} (link : Link) (c : Course α) : Course α :=
  match c.outcome with
  | .waiting => c
  | .done _ =>
    let fault := link.closeFault.toList.map fun e =>
      note .debug "Error while closing exchange channel" [("error", .text e.message)]
    { c with actions := c.actions ++ [.close], notes := c.notes ++ fault }

/-- Opens a channel, offers a request, goes on as `after` says if the channel took it, and closes
the channel. A request without a frame opens no channel. -/
def converse {α : Type} (link : Link) (request : ClientMessage) (after : Course α) : Course α :=
  match request.encode? with
  | .error e => ⟨.done (.error (.tooManyIds e)), [], 0, []⟩
  | .ok frame =>
    match link.connectFault with
    | some e => ⟨.done (.error (.transport e)), [.connect], 0, []⟩
    | none =>
      let c := match link.sendFault with
        | some e => closing link ⟨.done (.error (.transport e)), [.send frame false], 0, []⟩
        | none => closing link { after with actions := .send frame true :: after.actions }
      { c with actions := .connect :: c.actions }

/-- Sends a request and waits for the response under `expect`, for `limit` milliseconds if set. -/
def run (link : Link) (request : ClientMessage) (expect : Opcode) (limit : Option Nat) :
    Course ServerMessage :=
  converse link request (await limit expect 0 link.arrivals)

/-- Sends a request that is not answered. -/
def post (link : Link) (request : ClientMessage) : Course Unit :=
  converse link request ⟨.done (.ok ()), [], 0, []⟩

end Exchange

/-- Goes on with the result of a course: what it means, and what is noted about it. -/
def Course.andThen {α β : Type} (c : Course α) (f : α → Except ExchangeError β × List Note) :
    Course β :=
  match c.outcome with
  | .waiting => { c with outcome := .waiting }
  | .done (.error e) => { c with outcome := .done (.error e) }
  | .done (.ok a) =>
    let (result, notes) := f a
    { c with outcome := .done result, notes := c.notes ++ notes }

namespace Exchange

/-- Asks for the chart, and makes its series. -/
def chart (link : Link) (limit : Option Nat) : Course ChartSeries :=
  (run link .chart .chart limit).andThen fun
    | .chart batch =>
      (.ok (.ofPoints batch.records), [
        note .debug "Chart received" [("points", .number batch.records.length),
          ("server_time", .number batch.serverTime.toNat)]])
    | other => (.error (.unexpectedResponse other.opcode.code), [])

end Exchange

end Vitals
