/-
  A place where channels within one process are opened.

  A client opens a pair and leaves the other end to be accepted; whoever accepts plays the server. A
  `Switchboard` holds one end for a client and one for a server, and what is done to it is a `Move`.
  To take up an end is to drop the one held before.
-/
import Vitals.Channel.Memory

namespace Vitals.Channel.Memory

/-- One end of one of the pairs. -/
structure Plug where
  pair : Nat
  side : Side
  deriving DecidableEq, Repr

/-- Which of the two ends held. -/
inductive Role where
  | client | server
  deriving DecidableEq, Repr

/-- Pairs, the ends held of them, and the ends that wait to be accepted. -/
structure Switchboard where
  pairs : List Pair
  client : Option Plug
  server : Option Plug
  waiting : List Plug
  /-- Whether connections are accepted. -/
  listening : Bool
  deriving DecidableEq, Repr

/-- What is done to an end. -/
inductive Act where
  | send (frame : List UInt8)
  | receive
  | close
  | isClosed
  | drop
  deriving DecidableEq, Repr

/-- What is done to a switchboard. -/
inductive Move where
  /-- Takes up both ends of a new pair. -/
  | pair
  | connect
  | accept
  | stopListening
  | act (role : Role) (act : Act)
  deriving DecidableEq, Repr

/-- What a move yields. -/
inductive Yield where
  | nothing
  | connected
  | done
  | flag (b : Bool)
  | received (r : Received)
  | failed (e : Error)
  deriving DecidableEq, Repr

namespace Switchboard

/-- The name of the endpoint. -/
def endpoint : String := "memory"

/-- Nothing is held, and connections are accepted. -/
def start : Switchboard := ⟨[], none, none, [], true⟩

/-- The end held in a role. -/
def held (b : Switchboard) : Role → Option Plug
  | .client => b.client
  | .server => b.server

/-- Changes the pair of a plug. -/
def modify (b : Switchboard) (p : Plug) (f : Pair → Pair) : Switchboard :=
  { b with pairs := b.pairs.modify p.pair f }

/-- Drops an end, if there is one. -/
def discard (b : Switchboard) : Option Plug → Switchboard
  | none => b
  | some p => b.modify p (·.drop p.side)

/-- Takes up an end in a role, or none. -/
def takeUp (b : Switchboard) (role : Role) (p : Option Plug) : Switchboard :=
  let b := b.discard (b.held role)
  match role with
  | .client => { b with client := p }
  | .server => { b with server := p }

/-- Opens a pair. -/
def openPair (b : Switchboard) : Nat × Switchboard :=
  (b.pairs.length, { b with pairs := b.pairs ++ [.opened] })

/-- Does something to an end. -/
def perform (b : Switchboard) (p : Plug) (pair : Pair) : Act → Yield × Switchboard
  | .send frame =>
    match pair.send p.side frame with
    | .ok pair => (.done, b.modify p fun _ => pair)
    | .error e => (.failed e, b)
  | .receive =>
    let (r, pair) := pair.receive p.side
    (.received r, b.modify p fun _ => pair)
  | .close => (.done, b.modify p (·.close p.side))
  | .isClosed => (.flag (pair.isClosed p.side), b)
  | .drop => (.nothing, b)

/-- Makes a move. -/
def step (b : Switchboard) : Move → Yield × Switchboard
  | .pair =>
    let (n, b) := b.openPair
    (.nothing, (b.takeUp .client (some ⟨n, .left⟩)).takeUp .server (some ⟨n, .right⟩))
  | .connect =>
    if b.listening then
      let (n, b) := b.openPair
      let b := { b with waiting := b.waiting ++ [Plug.mk n .right] }
      (.connected, b.takeUp .client (some ⟨n, .left⟩))
    else (.failed (.connect endpoint "no server listening"), b)
  | .accept =>
    match b.waiting with
    | [] => (.flag false, b.takeUp .server none)
    | p :: rest => (.flag true, { b with waiting := rest }.takeUp .server (some p))
  | .stopListening =>
    let idle := { b with listening := false, waiting := [] }
    (.nothing, b.waiting.foldl (fun b p => b.discard (some p)) idle)
  | .act role .drop => (.nothing, b.takeUp role none)
  | .act role act =>
    match b.held role with
    | none => (.nothing, b)
    | some p =>
      match b.pairs[p.pair]? with
      | none => (.nothing, b)
      | some pair => b.perform p pair act

/-- Makes some moves, in order. -/
def run (b : Switchboard) : List Move → List Yield
  | [] => []
  | m :: ms =>
    let (y, b) := b.step m
    y :: b.run ms

end Switchboard

end Vitals.Channel.Memory
