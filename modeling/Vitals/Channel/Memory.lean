/-
  Channels within one process.

  A `Pair` has two ends; what one sends the other receives, in order. An end is open until it is
  closed or dropped. Frames that were sent before remain to be received, also by an end that was
  closed. A `Switchboard` hands the server's ends of new pairs to whoever listens.

  * `Pair.send`, `Pair.receive`, `Pair.close`, `Pair.drop`, `Pair.isClosed`.
-/
import Vitals.Channel.Error

namespace Vitals.Channel.Memory

/-- The two ends of a pair. -/
inductive Side where
  | left | right
  deriving DecidableEq, Repr

/-- The other end. -/
def Side.other : Side → Side
  | left => right | right => left

/-- One end of a pair. -/
structure End where
  /-- Whether this end can still send. -/
  sends : Bool
  /-- Whether this end still takes new frames. -/
  listens : Bool
  /-- Frames for this end that it has not received. -/
  inbox : List (List UInt8)
  deriving DecidableEq, Repr

/-- An end that is open. -/
def End.opened : End := ⟨true, true, []⟩

/-- Two ends joined. -/
structure Pair where
  left : End
  right : End
  deriving DecidableEq, Repr

/-- What receiving yields. -/
inductive Received where
  | frame (bytes : List UInt8)
  /-- Nothing will come any more. -/
  | ended
  /-- Nothing has come yet. -/
  | pending
  deriving DecidableEq, Repr

namespace Pair

/-- A new pair. -/
def opened : Pair := ⟨.opened, .opened⟩

/-- One of the ends. -/
def get (p : Pair) : Side → End
  | .left => p.left
  | .right => p.right

/-- Replaces one of the ends. -/
def set (p : Pair) (s : Side) (e : End) : Pair :=
  match s with
  | .left => { p with left := e }
  | .right => { p with right := e }

/-- Sends a frame from one end to the other. -/
def send (p : Pair) (s : Side) (frame : List UInt8) : Except Error Pair :=
  if (p.get s).sends then
    let peer := p.get s.other
    if peer.listens then .ok (p.set s.other { peer with inbox := peer.inbox ++ [frame] })
    else .error (.send "peer dropped")
  else .error .closed

/-- Receives the next frame at one end. -/
def receive (p : Pair) (s : Side) : Received × Pair :=
  let e := p.get s
  match e.inbox with
  | frame :: rest => (.frame frame, p.set s { e with inbox := rest })
  | [] => if e.listens && (p.get s.other).sends then (.pending, p) else (.ended, p)

/-- Closes one end. What it was sent before it can still receive. -/
def close (p : Pair) (s : Side) : Pair :=
  p.set s { p.get s with sends := false, listens := false }

/-- Drops one end, with all that it was sent. -/
def drop (p : Pair) (s : Side) : Pair := p.set s ⟨false, false, []⟩

/-- Whether sending from one end is of no use. -/
def isClosed (p : Pair) (s : Side) : Bool := !((p.get s).sends && (p.get s.other).listens)

end Pair

end Vitals.Channel.Memory
