/-
  The changes of a client's telemetry, as they are published.
-/
import Vitals.Record

namespace Vitals

/-- A change that watchers of a session are told of. -/
inductive Event where
  /-- The first stats page has arrived, oldest interval first. -/
  | statsSeeded (stats : List Stat)
  /-- An older page was put before all intervals held. -/
  | statsPrepended (stats : List Stat)
  /-- Newer intervals were put after all held, oldest first. -/
  | statsAppended (stats : List Stat)
  /-- There are no older intervals. -/
  | historyExhausted
  /-- New requests, newest first. -/
  | requestsPrepended (requests : List Request)
  /-- The server's clock in milliseconds. -/
  | serverTime (millis : UInt64)
  /-- The session has ended. -/
  | closed
  deriving DecidableEq, Repr

/-- The name of an event in data. -/
def Event.name : Event → String
  | statsSeeded _ => "stats_seeded"
  | statsPrepended _ => "stats_prepended"
  | statsAppended _ => "stats_appended"
  | historyExhausted => "history_exhausted"
  | requestsPrepended _ => "requests_prepended"
  | serverTime _ => "server_time"
  | closed => "closed"

end Vitals
