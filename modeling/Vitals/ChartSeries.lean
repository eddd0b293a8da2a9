/-
  Series for plotting, derived from chart points.

  The server sends the newest bucket first; all five series run the other way, so that entry `i` of
  each belongs to one bucket. Rates are per second and zero for a bucket without duration; the mean
  latency of no requests is zero.
-/
import Vitals.Calendar
import Vitals.Decimal.Binary64
import Vitals.Record

namespace Vitals

namespace ChartPoint

/-- The end of a bucket in milliseconds; the start of 1970 if it has no date. -/
def label (p : ChartPoint) : UInt64 := if Calendar.representable p.stop.toNat then p.stop else 0

/-- The duration of a bucket in milliseconds; none if it ends before it starts. -/
def millis (p : ChartPoint) : Nat := p.stop.toNat - p.start.toNat

/-- The duration of a bucket in seconds. -/
def seconds (p : ChartPoint) : Binary64 := (Binary64.ofNat p.millis).div (.ofNat 1000)

/-- A count per second of a bucket, if it lasts any time. -/
def rate (p : ChartPoint) (count : UInt64) : Binary64 :=
  if p.seconds.positive then (Binary64.ofNat count.toNat).div p.seconds else .zero

/-- The mean latency of the requests of a bucket. -/
def avgLatency (p : ChartPoint) : Binary64 :=
  if p.requests = 0 then .zero
  else (Binary64.ofNat p.latencySumMicros.toNat).div (.ofNat p.requests.toNat)

/-- The memory of the server in units of 2²⁰ bytes. -/
def memoryMib (p : ChartPoint) : Binary64 :=
  (Binary64.ofNat p.memoryBytes.toNat).div (.ofNat (Nat.pow 2 20))

end ChartPoint

/-- Five series of one length, oldest bucket first. -/
structure ChartSeries where
  /-- The ends of the buckets in milliseconds. -/
  labels : List UInt64
  requestsPerSec : List Binary64
  connectsPerSec : List Binary64
  avgLatencyMicros : List Binary64
  memoryMib : List Binary64
  deriving DecidableEq, Repr

namespace ChartSeries

/-- The series of some points, newest bucket first. -/
def ofPoints (points : List ChartPoint) : ChartSeries :=
  let oldestFirst := points.reverse
  { labels := oldestFirst.map (·.label)
    requestsPerSec := oldestFirst.map fun p => p.rate p.requests
    connectsPerSec := oldestFirst.map fun p => p.rate p.connects
    avgLatencyMicros := oldestFirst.map (·.avgLatency)
    memoryMib := oldestFirst.map (·.memoryMib) }

/-- How many buckets there are. -/
def size (s : ChartSeries) : Nat := s.labels.length

/-- The labels as data has them. -/
def labelTexts (s : ChartSeries) : List String :=
  s.labels.map fun millis => (CivilTime.ofMillis millis.toNat).rfc3339

end ChartSeries

end Vitals
