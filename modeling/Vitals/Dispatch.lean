/-
  Routing of inbound frames.

  A `Dispatcher` holds at most one handler per opcode. A frame goes to the handler of its first
  byte; a frame without a byte, or whose byte has no handler, or whose payload the handler refuses,
  is dropped and counted. The channel stays open in any case.

  * `Dispatcher.register`: the last registration of an opcode holds.
  * `Dispatcher.dispatch`: what becomes of a frame.
-/
import Vitals.Journal
import Vitals.Message

namespace Vitals

open Wire

/-- What a handler makes of a payload. -/
structure Reply (σ : Type) where
  state : σ
  /-- Why the payload was refused, if it was. -/
  refusal : Option DecodeError
  notes : List Note

/-- Applies a payload to a state. -/
abbrev Handler (σ : Type) := List UInt8 → σ → Reply σ

/-- What became of a frame. -/
inductive Outcome where
  /-- A handler applied the payload. -/
  | handled (opcode : Opcode)
  /-- No handler is registered for this byte. -/
  | unknownOpcode (byte : UInt8)
  /-- The frame was empty or its payload was refused. -/
  | malformed (cause : DecodeError)
  deriving DecidableEq, Repr

/-- Whether a handler applied the frame. -/
def Outcome.isHandled : Outcome → Bool
  | handled _ => true
  | _ => false

/-- The outcome of a frame, the state after it and what was reported. -/
structure Dispatched (σ : Type) where
  outcome : Outcome
  state : σ
  notes : List Note

/-- A table of handlers over one type of state. -/
structure Dispatcher (σ : Type) where
  /-- The handler of an opcode. -/
  handler? : Opcode → Option (Handler σ)

namespace Dispatcher

variable {σ : Type}

/-- No handlers. -/
def empty : Dispatcher σ := ⟨fun _ => none⟩

/-- Sets the handler of an opcode. -/
def register (d : Dispatcher σ) (opcode : Opcode) (handler : Handler σ) : Dispatcher σ :=
  ⟨fun o => if o = opcode then some handler else d.handler? o⟩

/-- Whether an opcode has a handler. -/
def handles (d : Dispatcher σ) (opcode : Opcode) : Bool := (d.handler? opcode).isSome

/-- The opcodes with a handler, in the order of their bytes. -/
def opcodes (d : Dispatcher σ) : List Opcode := Opcode.all.filter d.handles

/-- How a table is shown. -/
def display (d : Dispatcher σ) : String :=
  let bytes := d.opcodes.map fun o => toString o.code
  "Dispatcher \x7b opcodes: [" ++ ", ".intercalate bytes ++ "] \x7d"

/-- The handler of a byte, with its opcode. -/
def handlerOfByte? (d : Dispatcher σ) (byte : UInt8) : Option (Opcode × Handler σ) :=
  (Opcode.ofCode? byte).bind fun opcode => (d.handler? opcode).map fun h => (opcode, h)

/-- A log event about a frame. -/
def note (level : Level) (message : String) (fields : List (String × FieldValue)) : Note :=
  .log ⟨level, "telewire::dispatch", message, fields⟩

/-- Routes one frame to its handler. -/
def dispatch (d : Dispatcher σ) (state : σ) : List UInt8 → Dispatched σ
  | [] =>
    { outcome := .malformed .emptyFrame
      state
      notes := [
        note .warn "Dropping empty frame" [("error", .text DecodeError.emptyFrame.message)],
        .count (.dropped .empty) 1] }
  | byte :: payload =>
    let opcodeField := ("opcode", FieldValue.number byte.toNat)
    let sizeField := ("len", FieldValue.number (payload.length + 1))
    match d.handlerOfByte? byte with
    | none =>
      { outcome := .unknownOpcode byte
        state
        notes := [
          .count (.frames byte) 1,
          note .warn "Dropping frame with unknown opcode" [opcodeField, sizeField],
          .count (.dropped .unknownOpcode) 1] }
    | some (opcode, handler) =>
      let reply := handler payload state
      match reply.refusal with
      | none =>
        { outcome := .handled opcode
          state := reply.state
          notes := .count (.frames byte) 1 :: reply.notes ++
            [note .trace "Frame handled" [opcodeField, sizeField]] }
      | some e =>
        { outcome := .malformed e
          state := reply.state
          notes := .count (.frames byte) 1 :: reply.notes ++
            [note .warn "Dropping malformed frame" [opcodeField, ("error", .text e.message)],
             .count (.dropped .malformed) 1] }

end Dispatcher

end Vitals
