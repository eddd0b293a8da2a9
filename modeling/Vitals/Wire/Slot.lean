/-
  Parts of a buffer that are overwritten in place.

  Indices are 64-bit words, and a sum of two that is no index counts as the last one. A slot lies
  within its buffer, and what fills it has as many bytes as it has.

  * `saturatingAdd`: the sum of two indices.
  * `Slot`, `Slot.between?`: the part of a buffer between two indices.
  * `Slot.fill`: the buffer with other bytes in a slot.
  * `Writer`: works on a buffer, and leaves one even if it refuses.
-/
import Vitals.Wire.Error

namespace Vitals.Wire

/-- The last index. -/
def lastIndex : Nat := UInt64.size - 1

/-- The sum of two indices, or the last index if the sum is not one. -/
def saturatingAdd (left right : Nat) : Nat := min (left + right) lastIndex

/-- A part of a buffer. -/
structure Slot (bytes : List UInt8) where
  /-- The index of its first byte. -/
  start : Nat
  /-- The index just past its last byte. -/
  stop : Nat
  ordered : start ≤ stop
  inside : stop ≤ bytes.length

namespace Slot

variable {bytes : List UInt8}

/-- The part of a buffer between two indices, if they lie in order within it. -/
def between? (bytes : List UInt8) (start stop : Nat) : Option (Slot bytes) :=
  if h : start ≤ stop ∧ stop ≤ bytes.length then some ⟨start, stop, h.1, h.2⟩ else none

/-- How many bytes a slot has. -/
def size (slot : Slot bytes) : Nat := slot.stop - slot.start

/-- The buffer with other bytes in a slot. -/
def fill (slot : Slot bytes) (content : List UInt8) (_ : content.length = slot.size) : List UInt8 :=
  bytes.take slot.start ++ content ++ bytes.drop slot.stop

@[simp] theorem length_fill (slot : Slot bytes) (content : List UInt8)
    (h : content.length = slot.size) : (slot.fill content h).length = bytes.length := by
  have hordered := slot.ordered
  have hinside := slot.inside
  have hsize : slot.size = slot.stop - slot.start := rfl
  simp only [fill, List.length_append, List.length_take, List.length_drop]
  omega

end Slot

/-- Works on a buffer in place. What a refusal leaves is the buffer as it then is. -/
abbrev Writer (α : Type) := EStateM EncodeError (List UInt8) α

theorem Writer.get_bind {α : Type} (k : List UInt8 → Writer α) (bytes : List UInt8) :
    (get >>= k : Writer α) bytes = k bytes bytes := rfl

end Vitals.Wire
