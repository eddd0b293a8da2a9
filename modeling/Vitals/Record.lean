/-
  The records that the server reports, and batches of them.

  A record has a fixed size on the wire. A `Batch` carries the server's clock and a number of
  records of one type; it is decoded as a whole or not at all.

  * `Stat`: what happened in one interval.
  * `Request`: one entry of the request log.
  * `ChartPoint`: one bucket of the chart.
  * `Batch`: the payload that carries any of these.
-/
import Vitals.Http
import Vitals.Wire.Reader

namespace Vitals

open Wire

/-- A type with a form of fixed size on the wire. -/
class Record (α : Type) where
  /-- How many bytes every value takes. -/
  wireSize : Nat
  /-- Takes a value off the front of a payload. -/
  decode : Decoder α
  /-- The bytes of a value. -/
  encode : α → List UInt8

/-! ## Intervals -/

/-- What the server counted between `prevTimestamp` and `timestamp`. -/
structure Stat where
  requests : UInt64
  droppedLog : UInt64
  connections : UInt64
  connects : UInt64
  disconnects : UInt64
  connectTimeouts : UInt64
  readTimeouts : UInt64
  /-- The end of the interval, in milliseconds. -/
  timestamp : UInt64
  /-- Its start. -/
  prevTimestamp : UInt64
  /-- When the server was started. -/
  startupTime : UInt64
  latencySumMicros : UInt64
  memoryBytes : UInt64
  deriving DecidableEq, Repr, Inhabited

namespace Stat

/-- The instants of an interval are in order. -/
def Ordered (s : Stat) : Prop := s.prevTimestamp ≤ s.timestamp ∧ s.startupTime ≤ s.prevTimestamp

instance (s : Stat) : Decidable s.Ordered := inferInstanceAs (Decidable (_ ∧ _))

/-- What is wrong with an interval whose instants are out of order. -/
def fault (s : Stat) : RecordFault :=
  .intervalOutOfOrder s.startupTime s.prevTimestamp s.timestamp

/-- The mean latency of the requests of an interval, rounded down; none have latency zero. -/
def meanLatency (s : Stat) : UInt64 := s.latencySumMicros / s.requests

/-- The words of an interval in the order of the wire. -/
def words (s : Stat) : List UInt64 :=
  [s.requests, s.droppedLog, s.connections, s.connects, s.disconnects, s.connectTimeouts,
    s.readTimeouts, s.timestamp, s.prevTimestamp, s.startupTime, s.latencySumMicros,
    s.memoryBytes]

/-- Takes an interval off the front of a payload. -/
def decode : Decoder Stat := do
  let s : Stat := {
    requests := ← Reader.word64
    droppedLog := ← Reader.word64
    connections := ← Reader.word64
    connects := ← Reader.word64
    disconnects := ← Reader.word64
    connectTimeouts := ← Reader.word64
    readTimeouts := ← Reader.word64
    timestamp := ← Reader.word64
    prevTimestamp := ← Reader.word64
    startupTime := ← Reader.word64
    latencySumMicros := ← Reader.word64
    memoryBytes := ← Reader.word64 }
  if s.Ordered then return s else Decoder.refuse (.invalidRecord s.fault)

/-- The bytes of an interval. -/
def encode (s : Stat) : List UInt8 := s.words.flatMap word64Bytes

end Stat

instance : Record Stat where
  wireSize := 96
  decode := Stat.decode
  encode := Stat.encode

/-! ## Requests -/

/-- The capacity of each text of a request. -/
def Request.textCapacity : Nat := 128

/-- One request that the server has answered. -/
structure Request where
  method : Http.Method
  version : Http.Version
  contentLength : UInt64
  startMicros : UInt64
  endMicros : UInt64
  status : UInt16
  uri : String
  query : String
  userAgent : String
  referer : String
  /-- The URI as the client sent it, before the server rewrote it. -/
  uriRequested : String
  deriving DecidableEq, Repr, Inhabited

namespace Request

/-- A request ends no earlier than it starts. -/
def Ordered (r : Request) : Prop := r.startMicros ≤ r.endMicros

instance (r : Request) : Decidable r.Ordered := inferInstanceAs (Decidable (_ ≤ _))

/-- What is wrong with a request that ends before it starts. -/
def fault (r : Request) : RecordFault := .endsBeforeStart r.startMicros r.endMicros

/-- How long a request took; nothing if it ends before it starts. -/
def latency (r : Request) : UInt64 :=
  if r.startMicros ≤ r.endMicros then r.endMicros - r.startMicros else 0

/-- Takes a request off the front of a payload. The order of its instants is judged before its texts
are read. -/
def decode : Decoder Request := do
  let code ← Reader.byte
  let some method := Http.Method.ofCode? code | Decoder.refuse (.unknownMethod code)
  let version := Http.Version.ofCode (← Reader.byte)
  let contentLength ← Reader.word64
  let startMicros ← Reader.word64
  let endMicros ← Reader.word64
  let status ← Reader.word16
  if endMicros < startMicros then
    Decoder.refuse (.invalidRecord (.endsBeforeStart startMicros endMicros))
  else
    let uri ← Reader.paddedText textCapacity
    let query ← Reader.paddedText textCapacity
    let userAgent ← Reader.paddedText textCapacity
    let referer ← Reader.paddedText textCapacity
    let uriRequested ← Reader.paddedText textCapacity
    return { method, version, contentLength, startMicros, endMicros, status, uri, query, userAgent,
             referer, uriRequested }

/-- The bytes of a request. -/
def encode (r : Request) : List UInt8 :=
  r.method.code :: r.version.code ::
    word64Bytes r.contentLength ++ word64Bytes r.startMicros ++ word64Bytes r.endMicros ++
    word16Bytes r.status ++
    paddedTextBytes r.uri textCapacity ++ paddedTextBytes r.query textCapacity ++
    paddedTextBytes r.userAgent textCapacity ++ paddedTextBytes r.referer textCapacity ++
    paddedTextBytes r.uriRequested textCapacity

end Request

instance : Record Request where
  wireSize := 668
  decode := Request.decode
  encode := Request.encode

/-! ## Chart points -/

/-- One bucket of the chart, from `start` to `stop` in milliseconds. -/
structure ChartPoint where
  requests : UInt64
  latencySumMicros : UInt64
  connects : UInt64
  stop : UInt64
  start : UInt64
  memoryBytes : UInt64
  deriving DecidableEq, Repr, Inhabited

namespace ChartPoint

/-- Takes a point off the front of a payload. -/
def decode : Decoder ChartPoint := do
  return {
    requests := ← Reader.word64
    latencySumMicros := ← Reader.word64
    connects := ← Reader.word64
    stop := ← Reader.word64
    start := ← Reader.word64
    memoryBytes := ← Reader.word64 }

/-- The words of a point in the order of the wire. -/
def words (p : ChartPoint) : List UInt64 :=
  [p.requests, p.latencySumMicros, p.connects, p.stop, p.start, p.memoryBytes]

/-- The bytes of a point. -/
def encode (p : ChartPoint) : List UInt8 := p.words.flatMap word64Bytes

end ChartPoint

instance : Record ChartPoint where
  wireSize := 48
  decode := ChartPoint.decode
  encode := ChartPoint.encode

/-! ## Batches -/

/-- Records of one type, and the server's clock when it wrote them. -/
structure Batch (α : Type) where
  /-- In milliseconds. -/
  serverTime : UInt64
  records : List α
  deriving DecidableEq, Repr

namespace Batch

variable {α : Type} [Record α]

/-- Takes a batch off the front of a payload. A count that cannot fit is refused before any record
is read. -/
def decode : Decoder (Batch α) := do
  let serverTime ← Reader.word64
  let count ← Reader.count (Record.wireSize α)
  let records ← Decoder.times Record.decode count
  return { serverTime, records }

/-- The bytes of a batch. -/
def encode (b : Batch α) : List UInt8 :=
  word64Bytes b.serverTime ++ word64Bytes (UInt64.ofNat b.records.length) ++
    b.records.flatMap Record.encode

end Batch

end Vitals
