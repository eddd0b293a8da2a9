/-
  Runs of operations on a client's telemetry.

  * `Operation`, `Telemetry.perform`, `Telemetry.performAll`: the operations in any order.
  * `Operation.clocks`, `Operation.responses`: the clocks and the stats pages that some operations
    carry.
  * `Event.seeds`, `Event.pages`, `Event.appends`, `Event.logs`: the records that some events carry,
    one block an event.
-/
import Vitals.Telemetry

namespace Vitals

/-- Something that happens to a client's telemetry. -/
inductive Operation where
  /-- A stats response arrives. -/
  | stats (batch : Batch Stat)
  /-- A pong arrives. -/
  | pong (batch : Batch Stat)
  /-- A recent-requests response arrives. -/
  | requests (batch : Batch Request)
  | setPaused (paused : Bool)
  /-- Only the server's clock is noted. -/
  | clock (millis : UInt64)
  deriving DecidableEq, Repr

/-- Whether the copy is paused after an operation. -/
def Operation.pausedAfter (paused : Bool) : Operation → Bool
  | setPaused p => p
  | _ => paused

namespace Operation

/-- The server's clock that comes with an operation. -/
def clock? : Operation → Option UInt64
  | stats batch | pong batch => some batch.serverTime
  | requests batch => some batch.serverTime
  | clock millis => some millis
  | setPaused _ => none

/-- The page of a stats response. -/
def response? : Operation → Option (List Stat)
  | stats batch => some batch.records
  | _ => none

/-- The server's clocks that come with some operations. -/
def clocks (ops : List Operation) : List UInt64 := ops.filterMap clock?

/-- The pages of the stats responses among some operations. -/
def responses (ops : List Operation) : List (List Stat) := ops.filterMap response?

variable (op : Operation) (xs ys : List Operation)

@[simp] theorem clocks_nil : clocks [] = [] := rfl

@[simp] theorem responses_nil : responses [] = [] := rfl

@[simp] theorem clocks_cons : clocks (op :: xs) = op.clock?.toList ++ clocks xs := by
  cases op <;> rfl

@[simp] theorem responses_cons : responses (op :: xs) = op.response?.toList ++ responses xs := by
  cases op <;> rfl

@[simp] theorem responses_append : responses (xs ++ ys) = responses xs ++ responses ys :=
  List.filterMap_append

end Operation

namespace Telemetry

/-- Performs an operation. -/
def perform (t : Telemetry) : Operation → Merge
  | .stats batch => t.mergeStats batch
  | .pong batch => t.mergePong batch
  | .requests batch => t.mergeRequests batch
  | .setPaused paused => t.setPaused paused
  | .clock millis => ⟨t.observe millis, [.serverTime millis], []⟩

/-- Performs some operations in order. -/
def performAll (t : Telemetry) : List Operation → Merge
  | [] => ⟨t, [], []⟩
  | op :: ops =>
    let m := t.perform op
    let r := m.state.performAll ops
    ⟨r.state, m.events ++ r.events, m.notes ++ r.notes⟩

@[simp] theorem performAll_nil (t : Telemetry) : t.performAll [] = ⟨t, [], []⟩ := rfl

section Runs

variable (t : Telemetry) (op : Operation) (xs ys : List Operation)

theorem state_performAll_append :
    (t.performAll (xs ++ ys)).state = ((t.performAll xs).state.performAll ys).state := by
  induction xs generalizing t with
  | nil => rfl
  | cons op xs ih => exact ih _

theorem events_performAll_append : (t.performAll (xs ++ ys)).events =
    (t.performAll xs).events ++ ((t.performAll xs).state.performAll ys).events := by
  induction xs generalizing t with
  | nil => rfl
  | cons op xs ih =>
    have htail := ih (t.perform op).state
    exact (congrArg ((t.perform op).events ++ ·) htail).trans (List.append_assoc ..).symm

theorem events_performAll_singleton : (t.performAll [op]).events = (t.perform op).events :=
  List.append_nil _

end Runs

end Telemetry

/-! ## The records that events carry -/

namespace Event

/-- The page that seeds the history. -/
@[simp] def seed? : Event → Option (List Stat)
  | statsSeeded stats => some stats
  | _ => none

/-- An older page. -/
@[simp] def page? : Event → Option (List Stat)
  | statsPrepended stats => some stats
  | _ => none

/-- Newer intervals. -/
@[simp] def append? : Event → Option (List Stat)
  | statsAppended stats => some stats
  | _ => none

/-- New requests, newest first. -/
@[simp] def log? : Event → Option (List Request)
  | requestsPrepended requests => some requests
  | _ => none

/-- The pages that have seeded the history. -/
def seeds (events : List Event) : List (List Stat) := events.filterMap seed?

/-- The older pages, in the order of their arrival. -/
def pages (events : List Event) : List (List Stat) := events.filterMap page?

/-- The newer intervals, in the order of their arrival. -/
def appends (events : List Event) : List (List Stat) := events.filterMap append?

/-- The new requests, in the order of their arrival. -/
def logs (events : List Event) : List (List Request) := events.filterMap log?

variable (e : Event) (xs ys : List Event)

@[simp] theorem seeds_cons : seeds (e :: xs) = e.seed?.toList ++ seeds xs := by
  cases e <;> rfl

@[simp] theorem pages_cons : pages (e :: xs) = e.page?.toList ++ pages xs := by
  cases e <;> rfl

@[simp] theorem appends_cons : appends (e :: xs) = e.append?.toList ++ appends xs := by
  cases e <;> rfl

@[simp] theorem logs_cons : logs (e :: xs) = e.log?.toList ++ logs xs := by
  cases e <;> rfl

@[simp] theorem seeds_nil : seeds [] = [] := rfl

@[simp] theorem pages_nil : pages [] = [] := rfl

@[simp] theorem appends_nil : appends [] = [] := rfl

@[simp] theorem logs_nil : logs [] = [] := rfl

@[simp] theorem seeds_append : seeds (xs ++ ys) = seeds xs ++ seeds ys := List.filterMap_append

@[simp] theorem pages_append : pages (xs ++ ys) = pages xs ++ pages ys := List.filterMap_append

@[simp] theorem appends_append : appends (xs ++ ys) = appends xs ++ appends ys :=
  List.filterMap_append

@[simp] theorem logs_append : logs (xs ++ ys) = logs xs ++ logs ys := List.filterMap_append

end Event

end Vitals
