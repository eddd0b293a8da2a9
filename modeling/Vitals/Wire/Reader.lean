/-
  Reading a payload from front to back.

  A `Reader` holds the bytes not yet read and how many came before them. A `Decoder` takes a value
  off the front of a reader; when it refuses, the reader is left where the refusal arose. Single
  fields are all or nothing, save that `Reader.count` has read its word before it judges it.

  * `Reader.take`: the next bytes.
  * `Reader.byte`, `Reader.word16`, `Reader.word64`, `Reader.paddedText`, `Reader.prefixed`,
    `Reader.count`: the fields of the wire.
  * `Decoder.times`: a value several times over.
  * `Decoder.run`: the value at the front of a payload.
-/
import Vitals.Wire.Field

namespace Vitals.Wire

/-- A place in a payload. -/
structure Reader where
  /-- How many bytes have been read. -/
  position : Nat
  /-- The bytes not yet read. -/
  rest : List UInt8
  deriving DecidableEq, Repr

/-- The start of a payload. -/
def Reader.start (payload : List UInt8) : Reader := ⟨0, payload⟩

/-- How many bytes are not yet read. -/
def Reader.remaining (r : Reader) : Nat := r.rest.length

/-- Whether fewer than `needed` bytes are not yet read. No more than those are looked at. -/
def Reader.lacks (r : Reader) (needed : Nat) : Bool := (r.rest.take needed).length < needed

@[simp] theorem Reader.lacks_eq (r : Reader) (needed : Nat) :
    r.lacks needed = decide (r.remaining < needed) := by
  unfold lacks remaining
  rw [decide_eq_decide, List.length_take]
  omega

/-- Takes a value off the front of a reader. -/
abbrev Decoder (α : Type) := EStateM DecodeError Reader α

namespace Decoder

/-- The value at the front of a payload. Bytes behind it do not matter. -/
def run {α : Type} (decoder : Decoder α) (payload : List UInt8) : Except DecodeError α :=
  match decoder (Reader.start payload) with
  | .ok value _ => .ok value
  | .error e _ => .error e

/-- Refuses. -/
def refuse {α : Type} (e : DecodeError) : Decoder α := fun r => .error e r

/-- A value `n` times over. -/
def times {α : Type} (decoder : Decoder α) : Nat → Decoder (List α)
  | 0 => pure []
  | n + 1 => do
    let x ← decoder
    let xs ← times decoder n
    return x :: xs

end Decoder

namespace Reader

/-- The next `needed` bytes. -/
def take (needed : Nat) : Decoder (List UInt8) := fun r =>
  if r.lacks needed then .error (.truncated r.position needed r.remaining) r
  else .ok (r.rest.take needed) ⟨r.position + needed, r.rest.drop needed⟩

/-- The next byte. -/
def byte : Decoder UInt8 := return (← take 1).headD 0

/-- The next 16-bit word. -/
def word16 : Decoder UInt16 := return word16OfBytes (← take 2)

/-- The next 64-bit word. -/
def word64 : Decoder UInt64 := return word64OfBytes (← take 8)

/-- The text in the next `capacity` bytes. -/
def paddedText (capacity : Nat) : Decoder String := return textOf (← take capacity)

/-- The bytes behind a 64-bit length. A length that reaches past the end moves nothing. -/
def prefixed : Decoder (List UInt8) := fun r =>
  match word64 r with
  | .error e r' => .error e r'
  | .ok declared r' =>
    if r'.lacks declared.toNat then .error (.lengthOverflow declared r'.remaining) r
    else take declared.toNat r'

/-- Whether `count` records of `size` bytes fit into `remaining` bytes. Records of no size count as
one byte each. -/
def fits (count : UInt64) (size remaining : Nat) : Bool :=
  if size = 0 then count.toNat ≤ remaining else count.toNat ≤ remaining / size

/-- A 64-bit count of records of `size` bytes, refused when so many cannot follow. -/
def count (size : Nat) : Decoder Nat := do
  let count ← word64
  let remaining := (← get).remaining
  if fits count size remaining then return count.toNat
  else Decoder.refuse (.countOverflow count remaining)

end Reader

end Vitals.Wire
