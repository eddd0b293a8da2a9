/-
  The tables in which records are shown.

  Each table has a row per record, in the order given. With `color`, cells that call for attention
  are painted: timeouts when there are any, the status of a request by its class, the mark of an
  active rule. A table of intervals whose timeouts no word can hold is not drawn.

  * `Report.statTable`, `Report.requestTable`, `Report.chartTable`, `Report.ruleTable`.
-/
import Vitals.ChartSeries
import Vitals.Report.Quantity
import Vitals.Rule
import Vitals.Text.Style
import Vitals.Text.Table

namespace Vitals.Report

open Text

/-! ## Intervals -/

/-- A sum that a report needs and no word can hold. Nothing is reported then. -/
inductive Overflow where
  /-- Of the timeouts of both kinds. -/
  | timeouts
  deriving DecidableEq, Repr

/-- The timeouts of an interval, of both kinds. -/
def timeouts (s : Stat) : Except Overflow UInt64 :=
  let sum := s.connectTimeouts.toNat + s.readTimeouts.toNat
  if sum < UInt64.size then .ok (UInt64.ofNat sum) else .error .timeouts

/-- The cell of some timeouts: red if there are any. -/
def timeoutCell (color : Bool) (timeouts : UInt64) : String :=
  let n := toString timeouts.toNat
  if 0 < timeouts then Style.red.paint color n else n

/-- The cells of an interval. -/
def statRow (color : Bool) (s : Stat) : Except Overflow (List String) := do
  let timeouts ← timeouts s
  return [instant s.timestamp, toString s.requests.toNat, micros s.meanLatency,
    toString s.connections.toNat, toString s.connects.toNat, toString s.disconnects.toNat,
    timeoutCell color timeouts, toString s.droppedLog.toNat, byteSize s.memoryBytes]

/-- The names of the columns of an interval. -/
def statHeader : List String :=
  ["Interval End", "Requests", "Avg Latency", "Connections", "Connects", "Disconnects", "Timeouts",
    "Dropped", "Memory"]

/-- The table of some intervals. -/
def statTable (color : Bool) (stats : List Stat) : Except Overflow Table := do
  return { header := statHeader, rows := ← stats.mapM (statRow color) }

/-! ## Requests -/

/-- The style of a status: by its class. -/
def statusStyle (status : UInt16) : Style :=
  match status.toNat / 100 with
  | 2 => .green
  | 3 => .cyan
  | 4 => .yellow
  | _ => .red

/-- The URI of a request, behind the one that the client sent if the server rewrote it. -/
def uriCell (r : Request) : String :=
  if r.uriRequested = "" ∨ r.uriRequested = r.uri then r.uri else s!"{r.uriRequested} → {r.uri}"

/-- The cells of a request. -/
def requestRow (color : Bool) (r : Request) : List String :=
  [(statusStyle r.status).paint color (toString r.status.toNat), r.method.name, uriCell r, r.query,
    r.version.display, byteSize r.contentLength, micros r.latency, r.userAgent]

/-- The table of some requests. -/
def requestTable (color : Bool) (requests : List Request) : Table where
  header := ["Status", "Method", "URI", "Query", "Version", "Size", "Latency", "User Agent"]
  rows := requests.map (requestRow color)

/-! ## Charts -/

/-- The rows of a chart, one a bucket. -/
def chartRows (s : ChartSeries) : List (List String) :=
  List.zipWith List.cons (s.labels.map instant) <|
  List.zipWith List.cons (s.requestsPerSec.map (Decimal.fixed 2)) <|
  List.zipWith List.cons (s.connectsPerSec.map (Decimal.fixed 2)) <|
  List.zipWith List.cons (s.avgLatencyMicros.map fun x => s!"{Decimal.fixed 0 x}µs") <|
    s.memoryMib.map fun x => [s!"{Decimal.fixed 1 x} MiB"]

/-- The table of a chart, oldest bucket first. -/
def chartTable (s : ChartSeries) : Table where
  header := ["Bucket End", "Req/s", "Conn/s", "Avg Latency", "Memory"]
  rows := chartRows s

/-! ## Rules -/

/-- The cells of a rule. -/
def ruleRow (color : Bool) (r : RuleListing) : List String :=
  [toString r.id.toNat, if r.active then Style.green.paint color "✓" else "-",
    r.descriptor.patternText, if r.descriptor.multiLine then "yes" else "no", r.label]

/-- The table of some rules. -/
def ruleTable (color : Bool) (rules : List RuleListing) : Table where
  header := ["ID", "Active", "Pattern", "Multi-line", "Label"]
  rows := rules.map (ruleRow color)

end Vitals.Report
