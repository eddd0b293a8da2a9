/-
  What can be wrong with bytes on the admin channel, and how it is reported.

  A `DecodeError` says why bytes were refused, an `EncodeError` why a write was; each has one
  wording, given by its `message`. A `ReadFault` adds to the refusals the one misuse of a read that
  is not a property of the bytes: a window of no bytes that starts past the end of its buffer.
-/
namespace Vitals.Wire

/-- Why a record with all its bytes present is refused. -/
inductive RecordFault where
  /-- The instants of a stats interval are not in the order startup, start, end. -/
  | intervalOutOfOrder (startup start stop : UInt64)
  /-- A request ends before it starts. -/
  | endsBeforeStart (start stop : UInt64)
  /-- A handler refuses the record for a reason of its own. -/
  | refused (reason : String)
  deriving DecidableEq, Repr

/-- The wording of a record fault. -/
def RecordFault.message : RecordFault → String
  | intervalOutOfOrder startup start stop =>
    s!"stat interval out of order: startup {startup} prev {start} timestamp {stop}"
  | endsBeforeStart start stop => s!"request ends at {stop} before it starts at {start}"
  | refused reason => reason

/-- Why bytes are refused. -/
inductive DecodeError where
  /-- Fewer than `needed` bytes are left at `offset`. -/
  | truncated (offset needed available : Nat)
  /-- A declared length reaches past the end. -/
  | lengthOverflow (declared : UInt64) (remaining : Nat)
  /-- So many records cannot fit into what is left. -/
  | countOverflow (count : UInt64) (remaining : Nat)
  /-- A frame without its opcode byte. -/
  | emptyFrame
  /-- An opcode byte that means nothing in this direction. -/
  | unknownOpcode (byte : UInt8)
  /-- A stats query that is neither a first nor an older one. -/
  | unknownQueryKind (value : UInt64)
  /-- A byte that names no HTTP method. -/
  | unknownMethod (byte : UInt8)
  /-- A rule descriptor of no known kind. -/
  | unknownRuleTag (byte : UInt8)
  /-- A complete record that contradicts itself. -/
  | invalidRecord (fault : RecordFault)
  deriving DecidableEq, Repr

/-- The wording of a decode error. -/
def DecodeError.message : DecodeError → String
  | truncated offset needed available =>
    s!"frame truncated at offset {offset}: need {needed} bytes, {available} available"
  | lengthOverflow declared remaining =>
    s!"declared length {declared} exceeds the {remaining} bytes remaining"
  | countOverflow count remaining =>
    s!"record count {count} cannot fit in {remaining} remaining bytes"
  | emptyFrame => "empty frame"
  | unknownOpcode byte => s!"unknown opcode: {byte}"
  | unknownQueryKind value => s!"unknown stats query kind: {value}"
  | unknownMethod byte => s!"unknown HTTP method: {byte}"
  | unknownRuleTag byte => s!"unknown rule descriptor tag: {byte}"
  | invalidRecord fault => s!"invalid record: {fault.message}"

/-- Why a write into a buffer is refused. -/
inductive EncodeError where
  /-- `needed` bytes at `offset` do not lie within the `size` bytes of the buffer. -/
  | outOfBounds (offset needed size : Nat)
  deriving DecidableEq, Repr

/-- The wording of an encode error. -/
def EncodeError.message : EncodeError → String
  | outOfBounds offset needed size =>
    s!"write of {needed} bytes at offset {offset} overruns buffer of {size} bytes"

/-- Why a read at an offset yields nothing. -/
inductive ReadFault where
  /-- The bytes there are refused. -/
  | refused (cause : DecodeError)
  /-- An empty window was asked for at an offset past the end of the buffer. -/
  | outside (offset size : Nat)
  deriving DecidableEq, Repr

end Vitals.Wire
