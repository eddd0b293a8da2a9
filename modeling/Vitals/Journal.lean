/-
  What the program reports about itself: log events and counters.

  Both are ordinary outputs. An operation that reports returns `Note`s in the order in which they
  arise, beside its result.

  * `LogEvent`: a level, a target, a message and named fields.
  * `Counter`: the counters, with their names.
  * `Note.logs`, `Note.total`, `Note.counters`: what a run has reported.
-/
namespace Vitals

/-- How urgent a log event is. -/
inductive Level where
  | trace | debug | info | warn | error
  deriving DecidableEq, Repr

/-- The name of a level. -/
def Level.name : Level → String
  | trace => "TRACE" | debug => "DEBUG" | info => "INFO" | warn => "WARN" | error => "ERROR"

/-- The value of a log field. -/
inductive FieldValue where
  | number (n : Nat)
  | flag (b : Bool)
  | text (s : String)
  deriving DecidableEq, Repr

/-- One line of the log. -/
structure LogEvent where
  level : Level
  target : String
  message : String
  fields : List (String × FieldValue)
  deriving DecidableEq, Repr

/-- Why a frame was dropped. -/
inductive DropReason where
  | empty | unknownOpcode | malformed
  deriving DecidableEq, Repr

/-- The name of a reason. -/
def DropReason.name : DropReason → String
  | empty => "empty" | unknownOpcode => "unknown_opcode" | malformed => "malformed"

/-- The two streams of records that are merged. -/
inductive Stream where
  | stats | requests
  deriving DecidableEq, Repr

/-- The name of a stream. -/
def Stream.name : Stream → String
  | stats => "stats" | requests => "requests"

/-- What is counted. -/
inductive Counter where
  /-- Frames that start with a byte. -/
  | frames (byte : UInt8)
  /-- Frames dropped for a reason. -/
  | dropped (reason : DropReason)
  /-- Records merged into a stream. -/
  | merged (stream : Stream)
  deriving DecidableEq, Repr

/-- The name of a counter with its label. -/
def Counter.name : Counter → String
  | frames byte => s!"telewire_frames_total\x7bopcode={byte}\x7d"
  | dropped reason => s!"telewire_frames_dropped_total\x7breason={reason.name}\x7d"
  | merged stream => s!"telewire_records_merged_total\x7bstream={stream.name}\x7d"

/-- One thing reported. -/
inductive Note where
  | log (event : LogEvent)
  | count (counter : Counter) (amount : Nat)
  deriving DecidableEq, Repr

namespace Note

/-- The log event of a note. -/
def log? : Note → Option LogEvent
  | log event => some event
  | count _ _ => none

/-- The log of a run. -/
def logs (notes : List Note) : List LogEvent := notes.filterMap log?

/-- What a note adds to a counter. -/
def amount (c : Counter) : Note → Nat
  | log _ => 0
  | count c' n => if c' = c then n else 0

/-- What a run has added to a counter. -/
def total (c : Counter) : List Note → Nat
  | [] => 0
  | n :: notes => amount c n + total c notes

/-- The counter of a note. -/
def counter? : Note → Option Counter
  | log _ => none
  | count c _ => some c

/-- The counters that a run has touched, with their totals. -/
def counters (notes : List Note) : List (Counter × Nat) :=
  (notes.filterMap counter?).eraseDups.map fun c => (c, total c notes)

@[simp] theorem total_nil (c : Counter) : total c [] = 0 := rfl

@[simp] theorem total_cons (c : Counter) (n : Note) (notes : List Note) :
    total c (n :: notes) = amount c n + total c notes := rfl

@[simp] theorem total_append (c : Counter) (xs ys : List Note) :
    total c (xs ++ ys) = total c xs + total c ys := by
  induction xs with
  | nil => simp
  | cons x xs ih => rw [List.cons_append, total_cons, total_cons, ih, Nat.add_assoc]

end Note

end Vitals
