/-
  Two WebSocket peers over a pipe.

  Each peer follows the closing handshake: who receives a close answers with one, and who has sent
  or received one sends nothing more. A ping is answered with a pong. An answer goes out when the
  peer that owes it reads on. The pipe may be cut; what was written before can still be read. A
  fault ends all reading but not the handshake, so that one who has met it may still write.

  * `Peer.write`, `Peer.read`: one message.
  * `Pipe.step`: one move of the client or of the server.
-/
import Vitals.Channel.WebSocket
import Vitals.Text.Utf8

namespace Vitals.Channel.WebSocket

/-- How far the closing handshake has come. -/
inductive Phase where
  | active | closedByPeer | closedByUs | acknowledged | terminated
  deriving DecidableEq, Repr

/-- Whether a peer in this phase may still be sent something. -/
def Phase.canRead : Phase → Bool
  | active | closedByUs => true
  | _ => false

/-- A message on the pipe. Pings, pongs and closes have a payload that means nothing to the channel.
-/
inductive Message where
  | binary (bytes : List UInt8)
  /-- A text of so many bytes. -/
  | text (size : Nat)
  | ping (payload : List UInt8)
  | pong (payload : List UInt8)
  /-- A close, with its frame as a log shows it. -/
  | close (payload : List UInt8) (frame : String)
  deriving DecidableEq, Repr

namespace Message

/-- A close without a frame. -/
def bareClose : Message := .close [] "None"

/-- A close that gives a code and a reason. -/
def closing (code : UInt16) (reason frame : String) : Message :=
  .close (UInt8.ofNat (code.toNat / 256) :: UInt8.ofNat code.toNat :: Text.encode reason) frame

/-- The longest payload of a message that controls the connection. -/
def maxControlSize : Nat := 125

/-- Whether a message controls the connection and has a longer payload than it may have. -/
def oversized : Message → Bool
  | ping payload | pong payload | close payload _ => maxControlSize < payload.length
  | _ => false

/-- What is reported of an oversized message. -/
def oversizedReason : String :=
  "WebSocket protocol error: Control frame too big (payload must be 125 bytes or less)"

end Message

/-- One side of the connection. -/
structure Peer where
  /-- The server's side ends the connection once the handshake is over. -/
  isServer : Bool
  phase : Phase
  /-- An answer that is owed. -/
  reply : Option Message
  /-- Whether reading has come to an end. -/
  ended : Bool
  deriving DecidableEq, Repr

/-- What reading a message yields. -/
inductive Read where
  | message (m : Message)
  | closed
  | fault (reason : String)
  | ended
  | blocked
  deriving DecidableEq, Repr

namespace Peer

/-- A peer at the start. -/
def start (isServer : Bool) : Peer := ⟨isServer, .active, none, false⟩

/-- Writes a message, then what answer is owed. -/
def write (p : Peer) (cut : Bool) (m : Message) : Option WriteFault × Peer × List Message :=
  match p.phase with
  | .terminated => (some .alreadyClosed, p, [])
  | .active =>
    let phase := match m with
      | .close .. => .closedByUs
      | _ => p.phase
    let after := { p with phase, reply := none }
    if cut then (some .brokenPipe, after, []) else (none, after, m :: p.reply.toList)
  | _ => (some .afterClosing, p, [])

/-- Comes to the end of the connection. -/
def terminate (p : Peer) : Peer := { p with phase := .terminated, ended := true }

/-- Takes in a message. -/
def accept (p : Peer) : Message → Peer
  | .ping payload => if p.phase = .active then { p with reply := some (.pong payload) } else p
  | .close payload frame =>
    match p.phase with
    | .active => { p with phase := .closedByPeer, reply := some (.close payload frame) }
    | .closedByUs => { p with phase := .acknowledged }
    | _ => p
  | _ => p

/-- What reading comes to where nothing more can come. -/
def atEnd (p : Peer) : Read :=
  match p.phase with
  | .closedByPeer | .acknowledged | .terminated => .closed
  | _ => .fault "WebSocket protocol error: Connection reset without closing handshake"

/-- Reads the next of some messages: what it is, the peer after it, the messages left and what was
written in answer to earlier ones. -/
def read (p : Peer) (cut : Bool) (inbox : List Message) :
    Read × Peer × List Message × List Message :=
  if p.ended then (.ended, p, inbox, [])
  else if p.reply.isSome && cut then
    (.fault WriteFault.brokenPipe.message, { p with reply := none, ended := true }, inbox, [])
  else
    let answer := p.reply.toList
    let p := { p with reply := none }
    if p.isServer && !p.phase.canRead then (.closed, p.terminate, inbox, answer)
    else
      match inbox with
      | m :: rest =>
        if m.oversized then (.fault Message.oversizedReason, { p with ended := true }, rest, answer)
        else (.message m, p.accept m, rest, answer)
      | [] =>
        if cut then (p.atEnd, p.terminate, [], answer) else (.blocked, p, [], answer)

end Peer

/-- A result of reading as an item of the stream of messages; `none` when there is nothing yet. -/
def Read.item? : Read → Option Item
  | .message (.binary bytes) => some (.binary bytes)
  | .message (.text size) => some (.text size)
  | .message (.ping _) => some .ping
  | .message (.pong _) => some .pong
  | .message (.close _ frame) => some (.close frame)
  | .closed => some .connectionClosed
  | .fault reason => some (.fault reason)
  | .ended => some .ended
  | .blocked => none

/-- A client with its socket and a server, and what is under way between them. -/
structure Pipe where
  socket : Socket
  client : Peer
  server : Peer
  toClient : List Message
  toServer : List Message
  /-- Whether the server's side is gone. -/
  cut : Bool
  deriving DecidableEq, Repr

/-- What one of the two does. -/
inductive Move where
  | receive
  | send (frame : List UInt8)
  | close
  | serverSend (m : Message)
  | serverReceive
  /-- The server's side of the pipe is cut off. -/
  | serverDrop
  deriving DecidableEq, Repr

/-- What a move yields. -/
inductive Yield where
  | nothing
  | done
  | failed (e : Error)
  | received (r : Received)
  /-- Whether a message of the server was sent. -/
  | sent (b : Bool)
  | serverRead (r : Read)
  deriving DecidableEq, Repr

namespace Pipe

/-- A connection just made. -/
def start : Pipe := ⟨⟨false⟩, .start false, .start true, [], [], false⟩

/-- The client writes a message. -/
def clientWrite (m : Message) (p : Pipe) : Option WriteFault × Pipe :=
  let (fault, client, out) := p.client.write p.cut m
  (fault, { p with client, toServer := p.toServer ++ out })

/-- The client reads on until something has a meaning for it, and notes what it reads. It passes
over no more messages than are under way. -/
def clientReceive (p : Pipe) : Nat → Received × Pipe × List Note
  | 0 => (.pending, p, [])
  | fuel + 1 =>
    let (r, client, toClient, out) := p.client.read p.cut p.toClient
    let p := { p with client, toClient, toServer := p.toServer ++ out }
    match r.item? with
    | none => (.pending, p, [])
    | some i =>
      match i.meaning? with
      | some received => (received, p, i.notes)
      | none =>
        let (received, p, notes) := p.clientReceive fuel
        (received, p, i.notes ++ notes)

/-- Makes a move. Only the client takes notes, and only of what it receives. -/
def step (p : Pipe) : Move → Yield × Pipe × List Note
  | .receive =>
    let (r, p, notes) := p.clientReceive (p.toClient.length + 1)
    (.received r, p, notes)
  | .send frame =>
    match p.socket.send p (clientWrite (.binary frame)) with
    | (.ok (), p) => (.done, p, [])
    | (.error e, p) => (.failed e, p, [])
  | .close =>
    match p.socket.close p (clientWrite .bareClose) with
    | (.ok (), socket, p) => (.done, { p with socket }, [])
    | (.error e, socket, p) => (.failed e, { p with socket }, [])
  | .serverSend m =>
    if p.cut then (.sent false, p, [])
    else
      let (fault, server, out) := p.server.write false m
      (.sent fault.isNone, { p with server, toClient := p.toClient ++ out }, [])
  | .serverReceive =>
    if p.cut then (.serverRead .ended, p, [])
    else
      let (r, server, toServer, out) := p.server.read false p.toServer
      (.serverRead r, { p with server, toServer, toClient := p.toClient ++ out }, [])
  | .serverDrop => (.nothing, { p with cut := true }, [])

/-- Makes some moves, in order: what each of them yields, and all notes. -/
def run (p : Pipe) : List Move → List Yield × List Note
  | [] => ([], [])
  | m :: ms =>
    let (y, p, notes) := p.step m
    let (ys, notes') := p.run ms
    (y :: ys, notes ++ notes')

end Pipe

end Vitals.Channel.WebSocket
