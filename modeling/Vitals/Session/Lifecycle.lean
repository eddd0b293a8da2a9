/-
  The life of a session's channel: connecting, then open, then closed for good.

  A `Lifecycle` publishes its state. Each change raises its revision, and a `Watcher` is notified
  when the revision is not the one that it saw last.
-/
import Vitals.Journal

namespace Vitals

/-- How far a session's channel has come. -/
inductive ConnectionState where
  | connecting | opened | closed
  deriving DecidableEq, Repr

/-- The name of a state. -/
def ConnectionState.name : ConnectionState → String
  | connecting => "connecting" | opened => "open" | closed => "closed"

/-- A change that the lifecycle does not allow. -/
structure InvalidTransition where
  source : ConnectionState
  target : ConnectionState
  deriving DecidableEq, Repr

/-- The wording of the refusal. -/
def InvalidTransition.message (e : InvalidTransition) : String :=
  s!"invalid connection state transition: {e.source.name} -> {e.target.name}"

/-- The published state of a channel. -/
structure Lifecycle where
  state : ConnectionState
  /-- How often the state was published anew. -/
  revision : Nat
  deriving DecidableEq, Repr

namespace Lifecycle

/-- A channel that is being connected. -/
def start : Lifecycle := ⟨.connecting, 0⟩

/-- A log event about a lifecycle. -/
def note (message : String) (fields : List (String × FieldValue)) : Note :=
  .log ⟨.debug, "telewire::session::state", message, fields⟩

/-- The channel is up. It must have been connecting. -/
def opened (l : Lifecycle) : Except InvalidTransition (Lifecycle × List Note) :=
  match l.state with
  | .connecting =>
    .ok (⟨.opened, l.revision + 1⟩,
      [note "Connection state changed" [
        ("from", .text ConnectionState.connecting.name),
        ("to", .text ConnectionState.opened.name)]])
  | source => .error ⟨source, .opened⟩

/-- The channel is gone. Closing again changes nothing. -/
def closed (l : Lifecycle) : Lifecycle × List Note :=
  if l.state = .closed then (l, [])
  else (⟨.closed, l.revision + 1⟩, [note "Admin channel closed" []])

end Lifecycle

/-- Someone who looks at a lifecycle from time to time. -/
structure Watcher where
  /-- The revision seen last. -/
  seen : Nat
  deriving DecidableEq, Repr

namespace Watcher

/-- A watcher to whom the present state is no news. -/
def of (l : Lifecycle) : Watcher := ⟨l.revision⟩

/-- Whether there is news for the watcher, the state, and the watcher after looking. -/
def look (w : Watcher) (l : Lifecycle) : Bool × ConnectionState × Watcher :=
  (w.seen != l.revision, l.state, ⟨l.revision⟩)

end Watcher

end Vitals
