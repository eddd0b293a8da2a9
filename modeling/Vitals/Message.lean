/-
  Messages of the admin channel.

  A frame is an opcode byte and a payload. Several opcodes are spoken in both directions with
  different payloads, so there are two types of message, and who reads the channel decides which is
  meant. All numbers are big-endian words of 64 bits.

      client to server
        [0][cursor][kind = 29]              first page of stats
        [2][cursor][kind = 30]              older page of stats
        [1]                                 ping
        [3][cursor]                         requests completed after the cursor
        [4]                                 chart
        [9][tag][length][pattern][id][flag][length][label]
        [10]                                list the rules
        [12][count at most 255][id ...]     replace the active set

      server to client
        [0][server time][count][stat ...]
        [1][server time][count][stat ...]
        [3][server time][count][request ...]
        [4][server time][count][chart point ...]
        [9][id]
        [10][reserved][count][listing ...]

  * `ClientMessage.encode?`, `ClientMessage.decode`.
  * `ServerMessage.encode`, `ServerMessage.decode`.
-/
import Vitals.Record
import Vitals.Rule

namespace Vitals

open Wire

/-! ## Opcodes and frames -/

/-- The assigned opcodes. -/
inductive Opcode where
  | stats | ping | olderStats | recentRequests | chart | createRule | listRules | setActiveRules
  deriving DecidableEq, Repr

namespace Opcode

/-- The byte of an opcode. -/
def code : Opcode → UInt8
  | stats => 0 | ping => 1 | olderStats => 2 | recentRequests => 3 | chart => 4
  | createRule => 9 | listRules => 10 | setActiveRules => 12

/-- The opcode of a byte; the other bytes are reserved. -/
def ofCode? (b : UInt8) : Option Opcode :=
  match b.toNat with
  | 0 => some stats | 1 => some ping | 2 => some olderStats | 3 => some recentRequests
  | 4 => some chart | 9 => some createRule | 10 => some listRules | 12 => some setActiveRules
  | _ => none

/-- The opcodes in the order of their bytes. -/
def all : List Opcode :=
  [stats, ping, olderStats, recentRequests, chart, createRule, listRules, setActiveRules]

@[simp] theorem ofCode?_code (o : Opcode) : ofCode? o.code = some o := by cases o <;> rfl

end Opcode

/-- One frame: the opcode byte, then the payload. -/
def frame (opcode : Opcode) (payload : List UInt8) : List UInt8 := opcode.code :: payload

/-- The opcode byte and the payload of a frame. -/
def splitFrame : List UInt8 → Except DecodeError (UInt8 × List UInt8)
  | [] => .error .emptyFrame
  | byte :: payload => .ok (byte, payload)

/-! ## From the client -/

/-- Which page of the stats history is asked for. The server goes by this word alone. -/
inductive QueryKind where
  /-- The newest page. -/
  | initial
  /-- The page before the cursor. -/
  | older
  deriving DecidableEq, Repr

namespace QueryKind

/-- The word of a kind. -/
def code : QueryKind → UInt64
  | initial => 29 | older => 30

/-- The kind of a word. -/
def ofCode? (w : UInt64) : Option QueryKind :=
  if w = 29 then some initial else if w = 30 then some older else none

/-- The opcode under which a kind is sent. -/
def opcode : QueryKind → Opcode
  | initial => .stats | older => .olderStats

@[simp] theorem ofCode?_code (k : QueryKind) : ofCode? k.code = some k := by cases k <;> rfl

end QueryKind

/-- The most ids an active set may have. -/
def maxActiveRules : Nat := 255

/-- An active set is too large to be sent. -/
structure TooManyIds where
  count : Nat
  max : Nat
  deriving DecidableEq, Repr

/-- The wording of the refusal. -/
def TooManyIds.message (e : TooManyIds) : String :=
  s!"too many ids for one active set: {e.count} (max {e.max})"

/-- What a client says. -/
inductive ClientMessage where
  /-- Asks for a page of the stats history. -/
  | statsQuery (cursor : UInt64) (kind : QueryKind)
  | ping
  /-- Asks for the requests completed after an instant in microseconds. -/
  | recentRequests (cursor : UInt64)
  | chart
  | createRule (rule : NewRule)
  | listRules
  /-- Replaces the whole active set. The server does not answer. -/
  | setActiveRules (ids : List UInt64)
  deriving DecidableEq, Repr

namespace ClientMessage

/-- The opcode of a message. -/
def opcode : ClientMessage → Opcode
  | statsQuery _ kind => kind.opcode
  | ping => .ping
  | recentRequests _ => .recentRequests
  | chart => .chart
  | createRule _ => .createRule
  | listRules => .listRules
  | setActiveRules _ => .setActiveRules

/-- The payload of a message. -/
def payload : ClientMessage → List UInt8
  | statsQuery cursor kind => word64Bytes cursor ++ word64Bytes kind.code
  | ping => []
  | recentRequests cursor => word64Bytes cursor
  | chart => []
  | createRule rule => rule.encode
  | listRules => []
  | setActiveRules ids => word64Bytes (UInt64.ofNat ids.length) ++ ids.flatMap word64Bytes

/-- What keeps a message from being sent. -/
def refusal? : ClientMessage → Option TooManyIds
  | setActiveRules ids =>
    if maxActiveRules < ids.length then some ⟨ids.length, maxActiveRules⟩ else none
  | _ => none

/-- The frame of a message, unless its active set is too large. -/
def encode? (m : ClientMessage) : Except TooManyIds (List UInt8) :=
  match m.refusal? with
  | some e => .error e
  | none => .ok (frame m.opcode m.payload)

/-- Takes the payload of a client's message off the front. -/
def ofPayload : Opcode → Decoder ClientMessage
  | .stats | .olderStats => do
    let cursor ← Reader.word64
    let code ← Reader.word64
    match QueryKind.ofCode? code with
    | some kind => return statsQuery cursor kind
    | none => Decoder.refuse (.unknownQueryKind code)
  | .ping => return ping
  | .recentRequests => return recentRequests (← Reader.word64)
  | .chart => return chart
  | .createRule => return createRule (← NewRule.decode)
  | .listRules => return listRules
  | .setActiveRules => do
    let count ← Reader.count 8
    return setActiveRules (← Decoder.times Reader.word64 count)

/-- The message of a frame that a client wrote. -/
def decode (bytes : List UInt8) : Except DecodeError ClientMessage := do
  let (byte, payload) ← splitFrame bytes
  match Opcode.ofCode? byte with
  | some opcode => (ofPayload opcode).run payload
  | none => .error (.unknownOpcode byte)

end ClientMessage

/-! ## From the server -/

/-- What a server says. -/
inductive ServerMessage where
  /-- A page of the stats history, oldest interval first. -/
  | stats (batch : Batch Stat)
  /-- The answer to a ping, with the latest intervals. -/
  | pong (batch : Batch Stat)
  | recentRequests (batch : Batch Request)
  | chart (batch : Batch ChartPoint)
  | ruleCreated (id : UInt64)
  | rules (listings : List RuleListing)
  deriving DecidableEq, Repr

namespace ServerMessage

/-- The opcode of a message. -/
def opcode : ServerMessage → Opcode
  | stats _ => .stats
  | pong _ => .ping
  | recentRequests _ => .recentRequests
  | chart _ => .chart
  | ruleCreated _ => .createRule
  | rules _ => .listRules

/-- The payload of a message. The first word of a rule list is reserved. -/
def payload : ServerMessage → List UInt8
  | stats batch => batch.encode
  | pong batch => batch.encode
  | recentRequests batch => batch.encode
  | chart batch => batch.encode
  | ruleCreated id => word64Bytes id
  | rules listings =>
    word64Bytes 0 ++ word64Bytes (UInt64.ofNat listings.length) ++
      listings.flatMap RuleListing.encode

/-- The frame of a message. -/
def encode (m : ServerMessage) : List UInt8 := frame m.opcode m.payload

/-- Takes a list of rules off the front of a payload. A count that cannot fit is refused before any
rule is read. -/
def decodeRules : Decoder (List RuleListing) := do
  let _ ← Reader.word64
  let count ← Reader.count RuleListing.minimumSize
  Decoder.times RuleListing.decode count

/-- The message whose opcode byte and payload are given. The opcodes that only a client uses mean
nothing here. -/
def ofPayload (byte : UInt8) (payload : List UInt8) : Except DecodeError ServerMessage :=
  match Opcode.ofCode? byte with
  | some .stats => return stats (← Batch.decode.run payload)
  | some .ping => return pong (← Batch.decode.run payload)
  | some .recentRequests => return recentRequests (← Batch.decode.run payload)
  | some .chart => return chart (← Batch.decode.run payload)
  | some .createRule => return ruleCreated (← Reader.word64.run payload)
  | some .listRules => return rules (← decodeRules.run payload)
  | some .olderStats | some .setActiveRules | none => .error (.unknownOpcode byte)

/-- The message of a frame that a server wrote. -/
def decode (bytes : List UInt8) : Except DecodeError ServerMessage := do
  let (byte, payload) ← splitFrame bytes
  ofPayload byte payload

end ServerMessage

end Vitals
