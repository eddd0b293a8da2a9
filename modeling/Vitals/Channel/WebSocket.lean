/-
  Admin frames over a WebSocket: one frame per binary message.

  A WebSocket yields `Item`s. Binary messages are frames; text and control messages are none of the
  channel's business and are passed over; a close, the end of the stream or a fault end the channel.
  A `Socket` remembers whether its owner has closed it, and does not touch the stream after that.

  * `receive`: the next frame or the end, and what is noted on the way there.
  * `Socket.send`, `Socket.close`.
-/
import Vitals.Channel.Error
import Vitals.Journal

namespace Vitals.Channel.WebSocket

/-- Why a message cannot be written. -/
inductive WriteFault where
  /-- The closing handshake is over. -/
  | alreadyClosed
  /-- A close was sent or received. -/
  | afterClosing
  /-- The stream below is gone. -/
  | brokenPipe
  deriving DecidableEq, Repr

/-- The wording of a write fault. -/
def WriteFault.message : WriteFault → String
  | alreadyClosed => "Trying to work with closed connection"
  | afterClosing => "WebSocket protocol error: Sending after closing is not allowed"
  | brokenPipe => "IO error: broken pipe"

/-- One thing that a stream of messages yields. -/
inductive Item where
  | binary (bytes : List UInt8)
  /-- A text of so many bytes. -/
  | text (size : Nat)
  | ping
  | pong
  /-- A message that is not decoded. -/
  | raw
  /-- A close, with its frame as the log shows it. -/
  | close (frame : String)
  /-- The stream reports that the connection was closed in good order. -/
  | connectionClosed
  | fault (reason : String)
  /-- The stream is at its end. -/
  | ended
  deriving DecidableEq, Repr

/-- What receiving yields. -/
inductive Received where
  | frame (bytes : List UInt8)
  | ended
  | failed (e : Error)
  /-- The stream has yielded nothing more yet. -/
  | pending
  deriving DecidableEq, Repr

/-- What an item means to whoever receives frames; nothing, for most kinds of message. -/
def Item.meaning? : Item → Option Received
  | binary bytes => some (.frame bytes)
  | text _ | ping | pong | raw => none
  | close _ | connectionClosed | ended => some .ended
  | fault reason => some (.failed (.receive reason))

/-- A log event of a channel. -/
def note (level : Level) (message : String) (fields : List (String × FieldValue)) : Note :=
  .log ⟨level, "telewire::transport::ws", message, fields⟩

/-- What is noted of an item by whoever receives frames. -/
def Item.notes : Item → List Note
  | text size => [note .warn "Ignoring text message on admin channel" [("len", .number size)]]
  | close frame => [note .debug "Peer closed admin channel" [("frame", .text frame)]]
  | _ => []

/-- What one reception comes to. -/
structure Reception where
  received : Received
  /-- The items that are left. -/
  rest : List Item
  notes : List Note
  deriving DecidableEq, Repr

/-- The next frame or the end of the channel. -/
def receive : List Item → Reception
  | [] => ⟨.pending, [], []⟩
  | i :: is =>
    match i.meaning? with
    | some received => ⟨received, is, i.notes⟩
    | none =>
      let later := receive is
      { later with notes := i.notes ++ later.notes }

/-- The owner's side of a WebSocket. -/
structure Socket where
  closed : Bool
  deriving DecidableEq, Repr

namespace Socket

variable {σ : Type}

/-- Sends a frame with `write`, unless the socket is closed. -/
def send (s : Socket) (stream : σ) (write : σ → Option WriteFault × σ) : Except Error Unit × σ :=
  if s.closed then (.error .closed, stream)
  else
    match write stream with
    | (none, stream) => (.ok (), stream)
    | (some f, stream) => (.error (.send f.message), stream)

/-- Closes the socket, with a message written by `write` the first time. A connection that is
already closed is as good. -/
def close (s : Socket) (stream : σ) (write : σ → Option WriteFault × σ) :
    Except Error Unit × Socket × σ :=
  if s.closed then (.ok (), s, stream)
  else
    match write stream with
    | (none, stream) | (some .alreadyClosed, stream) => (.ok (), ⟨true⟩, stream)
    | (some f, stream) => (.error (.send f.message), ⟨true⟩, stream)

end Socket

end Vitals.Channel.WebSocket
