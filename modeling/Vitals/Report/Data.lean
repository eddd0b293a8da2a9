/-
  Records, events, charts and rules as data.

  An event is one line, so that a stream of events can be read line by line. Charts and rules are
  written over several lines, their fields in alphabetical order.

  * `Report.eventLine`, `Report.chartDocument`, `Report.ruleDocument`.
-/
import Vitals.ChartSeries
import Vitals.Rule
import Vitals.Telemetry.Event
import Vitals.Text.Json

namespace Vitals.Report

open Text

/-- A word as a number. -/
def word (n : UInt64) : Json := .number n.toNat

/-- An interval, its fields in the order of the wire. -/
def statData (s : Stat) : Json :=
  .record [("requests", word s.requests), ("dropped_log", word s.droppedLog),
    ("connections", word s.connections), ("connects", word s.connects),
    ("disconnects", word s.disconnects), ("connect_timeouts", word s.connectTimeouts),
    ("read_timeouts", word s.readTimeouts), ("timestamp", word s.timestamp),
    ("prev_timestamp", word s.prevTimestamp), ("startup_time", word s.startupTime),
    ("latency_sum_micros", word s.latencySumMicros), ("memory_bytes", word s.memoryBytes)]

/-- A request, its fields in the order of the wire. -/
def requestData (r : Request) : Json :=
  .record [("method", .text r.method.name), ("version", .text r.version.name),
    ("content_length", word r.contentLength), ("start_micros", word r.startMicros),
    ("end_micros", word r.endMicros), ("status", .number r.status.toNat), ("uri", .text r.uri),
    ("query", .text r.query), ("user_agent", .text r.userAgent), ("referer", .text r.referer),
    ("uri_requested", .text r.uriRequested)]

/-- What an event carries, if anything. -/
def eventPayload : Event → Option Json
  | .statsSeeded stats | .statsPrepended stats | .statsAppended stats =>
    some (.list (stats.map statData))
  | .requestsPrepended requests => some (.list (requests.map requestData))
  | .serverTime millis => some (word millis)
  | .historyExhausted | .closed => none

/-- An event: its name, and what it carries. -/
def eventData (e : Event) : Json :=
  .record (("event", .text e.name) :: ((eventPayload e).map fun d => ("data", d)).toList)

/-- An event on one line. -/
def eventLine (e : Event) : String := (eventData e).compact

/-- A chart. -/
def chartDocument (s : ChartSeries) : String :=
  let series := fun (xs : List Binary64) => Json.list (xs.map .decimal)
  Json.pretty (.record [("chart", .record [
    ("avg_latency_micros", series s.avgLatencyMicros),
    ("connects_per_sec", series s.connectsPerSec),
    ("labels", .list (s.labelTexts.map .text)),
    ("memory_mib", series s.memoryMib),
    ("requests_per_sec", series s.requestsPerSec)])])

/-- A rule. -/
def ruleData (r : RuleListing) : Json :=
  .record [("active", .flag r.active), ("id", word r.id), ("label", .text r.label),
    ("multi_line", .flag r.descriptor.multiLine), ("pattern", .text r.descriptor.patternText)]

/-- A list of rules. -/
def ruleDocument (rules : List RuleListing) : String :=
  Json.pretty (.record [("rules", .list (rules.map ruleData))])

end Vitals.Report
