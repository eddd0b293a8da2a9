/-
  A client's copy of the server's telemetry.

  It holds the stats history, oldest interval first; a window of the request log, newest request
  first; and the cursors that keep both free of repetitions. Every operation takes a batch that is
  already decoded and says which events it publishes and what it reports. While the copy is paused
  only the server's clock moves; a first stats page that arrives then is held until it resumes.

  * `Telemetry.mergeStats`: the first page seeds the history, each later one is an older page.
  * `Telemetry.mergePong`: newer intervals join the history.
  * `Telemetry.mergeRequests`: newer requests join the window.
  * `Telemetry.setPaused`, `Telemetry.observe`.
  * `Telemetry.olderRequest?`, `Telemetry.tailRequest`: what to ask the server for next.
-/
import Vitals.Journal
import Vitals.Message
import Vitals.Telemetry.Cursor
import Vitals.Telemetry.Event

namespace Vitals

/-- What a client knows of its server. -/
structure Telemetry where
  /-- How many requests the window keeps. -/
  capacity : Nat
  /-- The history, oldest interval first. -/
  stats : List Stat
  /-- The window, newest request first. -/
  requests : List Request
  /-- The server's clock as last heard. -/
  serverTime : Option UInt64
  /-- The newest interval merged. -/
  statsTail : Cursor
  /-- The oldest interval held. -/
  statsPage : Cursor
  /-- The newest request merged. -/
  requestTail : Cursor
  /-- Whether a first page was merged. -/
  seeded : Bool
  /-- Whether the server has no older intervals. -/
  exhausted : Bool
  paused : Bool
  /-- A page that arrived before any was merged, while paused. -/
  held : Option (List Stat)
  deriving DecidableEq, Repr

/-- An operation's new state, the events it publishes and what it reports. -/
structure Merge where
  state : Telemetry
  events : List Event
  notes : List Note

namespace Telemetry

/-- How many requests the window keeps unless told otherwise. -/
def defaultCapacity : Nat := 100

/-- Nothing is known yet. -/
def fresh (capacity : Nat) : Telemetry where
  capacity
  stats := []
  requests := []
  serverTime := none
  statsTail := .start
  statsPage := .start
  requestTail := .start
  seeded := false
  exhausted := false
  paused := false
  held := none

/-- A log event about merging. -/
def note (message : String) (fields : List (String × FieldValue)) : Note :=
  .log ⟨.debug, "telewire::sync", message, fields⟩

/-- A number of records was merged into a stream. -/
def merged (stream : Stream) (amount : Nat) : Note := .count (.merged stream) amount

/-- Notes the server's clock. -/
def observe (t : Telemetry) (millis : UInt64) : Telemetry := { t with serverTime := some millis }

/-- Takes the first page as the history. An empty one means that there is none. -/
def seed (t : Telemetry) (page : List Stat) : Merge :=
  let keys := page.map (·.timestamp)
  match keys.min?, keys.max? with
  | some oldest, some newest =>
    { state := { t with
        seeded := true
        stats := page
        statsPage := ⟨oldest⟩
        statsTail := t.statsTail.advance newest }
      events := [.statsSeeded page]
      notes := [
        merged .stats page.length,
        note "Stats history seeded" [("count", .number page.length),
          ("oldest", .number oldest.toNat), ("newest", .number newest.toNat)]] }
  | _, _ =>
    { state := { t with seeded := true, exhausted := true }
      events := [.historyExhausted]
      notes := [note "Empty stats snapshot, no history to page" []] }

/-- Takes an older page: its intervals before the oldest one held go to the front. An empty page
means that there are no older ones. -/
def prepend (t : Telemetry) (page : List Stat) : Merge :=
  if page.isEmpty then
    if t.exhausted then ⟨t, [], []⟩
    else
      { state := { t with exhausted := true }
        events := [.historyExhausted]
        notes := [note "Stats history exhausted" [("cursor", .number t.statsPage.position.toNat)]] }
  else
    let accepted := page.filter fun s => s.timestamp < t.statsPage.position
    match (accepted.map (·.timestamp)).min? with
    | none => ⟨t, [], []⟩
    | some oldest =>
      { state := { t with statsPage := ⟨oldest⟩, stats := accepted ++ t.stats }
        events := [.statsPrepended accepted]
        notes := [
          merged .stats accepted.length,
          note "Older stats page merged" [("count", .number accepted.length),
            ("cursor", .number oldest.toNat)]] }

/-- Applies a stats page. -/
def applyPage (t : Telemetry) (page : List Stat) : Merge :=
  if t.seeded then
    if t.paused then ⟨t, [], []⟩ else t.prepend page
  else if t.paused then
    { state := { t with held := some page }
      events := []
      notes := [note "Holding stats snapshot until resumed" [("count", .number page.length)]] }
  else t.seed page

/-- Applies the intervals of a pong: those after the tail join the history, once there is one. -/
def applyTail (t : Telemetry) (stats : List Stat) : Merge :=
  if t.paused || !t.seeded then ⟨t, [], []⟩
  else
    let appended := t.statsTail.fresh (·.timestamp) stats
    if appended.isEmpty then ⟨t, [], []⟩
    else
      { state := { t with
          statsTail := t.statsTail.advanceAll (stats.map (·.timestamp))
          stats := t.stats ++ appended }
        events := [.statsAppended appended]
        notes := [merged .stats appended.length] }

/-- Applies the entries of a request log: those after the tail go to the front of the window, newest
first, and the window is cut to its capacity. -/
def applyLog (t : Telemetry) (requests : List Request) : Merge :=
  if t.paused then ⟨t, [], []⟩
  else
    let newer := t.requestTail.fresh (·.endMicros) requests
    if newer.isEmpty then ⟨t, [], []⟩
    else
      { state := { t with
          requestTail := t.requestTail.advanceAll (requests.map (·.endMicros))
          requests := (newer.reverse ++ t.requests).take t.capacity }
        events := [.requestsPrepended newer.reverse]
        notes := [merged .requests newer.length] }

/-- Notes the clock of a batch, then applies its records. -/
def applyBatch {α : Type} (apply : Telemetry → List α → Merge) (t : Telemetry) (batch : Batch α) :
    Merge :=
  let m := apply (t.observe batch.serverTime) batch.records
  { m with events := .serverTime batch.serverTime :: m.events }

/-- Applies a stats response. -/
def mergeStats (t : Telemetry) (batch : Batch Stat) : Merge := t.applyBatch applyPage batch

/-- Applies a pong. -/
def mergePong (t : Telemetry) (batch : Batch Stat) : Merge := t.applyBatch applyTail batch

/-- Applies a recent-requests response. -/
def mergeRequests (t : Telemetry) (batch : Batch Request) : Merge := t.applyBatch applyLog batch

/-- Takes nothing but the clock of a batch. -/
def mergeClock {α : Type} (t : Telemetry) (batch : Batch α) : Merge :=
  t.applyBatch (fun t _ => ⟨t, [], []⟩) batch

/-- Pauses or resumes. A page held meanwhile seeds the history on resuming. -/
def setPaused (t : Telemetry) (paused : Bool) : Merge :=
  let toggled := if t.paused = paused then [] else
    [note "Telemetry merge toggled" [("paused", .flag paused)]]
  let t := { t with paused }
  match t.held, paused with
  | some page, false =>
    let m := { t with held := none }.seed page
    { m with notes := toggled ++ m.notes }
  | _, _ => ⟨t, [], toggled⟩

/-- Asks for the page before the oldest interval held, when there can be one. -/
def olderRequest? (t : Telemetry) : Option ClientMessage :=
  if t.seeded && !t.exhausted then some (.statsQuery t.statsPage.position .older) else none

/-- Asks for the requests after the newest one merged. -/
def tailRequest (t : Telemetry) : ClientMessage := .recentRequests t.requestTail.position

end Telemetry

end Vitals
