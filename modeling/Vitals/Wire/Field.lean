/-
  Fields at an offset of a buffer.

  Integers are big-endian. Text lies in fields of fixed capacity filled up with NULs, or after a
  64-bit length. Reading past the end is refused and so is writing past the end; an empty window
  that starts past the end is a `ReadFault.outside`.

  * `bigEndian`, `ofBigEndian`: the digits of a number to base 256 and back.
  * `Field.window`: the bytes of a field.
  * `Field.byte`, `Field.word16`, `Field.word64`, `Field.paddedText`, `Field.prefixed`: reading.
  * `Field.overwriteWord64`: overwriting eight bytes in place; `Field.writeWord64`: in a copy.
  * `word64Bytes`, `paddedTextBytes`, `prefixedBytes`: the bytes of a field to be appended.
-/
import Vitals.Text.Utf8
import Vitals.Wire.Slot

namespace Vitals.Wire

/-- The `width` low digits of `n` to base 256, most significant first. -/
def bigEndian : Nat → Nat → List UInt8
  | 0, _ => []
  | width + 1, n => bigEndian width (n / 256) ++ [UInt8.ofNat n]

/-- The number whose digits to base 256 are given, most significant first. -/
def ofBigEndian (bytes : List UInt8) : Nat :=
  bytes.foldl (fun n b => n * 256 + b.toNat) 0

@[simp] theorem length_bigEndian (width n : Nat) : (bigEndian width n).length = width := by
  induction width generalizing n with
  | zero => rfl
  | succ width ih => simp [bigEndian, ih]

theorem ofBigEndian_bigEndian (width n : Nat) :
    ofBigEndian (bigEndian width n) = n % Nat.pow 256 width := by
  induction width generalizing n with
  | zero => simp [bigEndian, ofBigEndian, Nat.mod_one]
  | succ width ih =>
    have h := ih (n / 256)
    simp only [ofBigEndian] at h
    simp only [ofBigEndian, bigEndian, List.foldl_append, h, List.foldl_cons, List.foldl_nil,
      UInt8.toNat_ofNat']
    have split : n % Nat.pow 256 (width + 1) = n % 256 + 256 * (n / 256 % Nat.pow 256 width) := by
      rw [Nat.pow_eq, Nat.pow_eq, Nat.pow_succ', Nat.mod_mul]
    rw [split]
    omega

/-- The bytes of a 64-bit word. -/
def word64Bytes (value : UInt64) : List UInt8 := bigEndian 8 value.toNat

/-- The bytes of a 16-bit word. -/
def word16Bytes (value : UInt16) : List UInt8 := bigEndian 2 value.toNat

/-- The 64-bit word of eight bytes. -/
def word64OfBytes (bytes : List UInt8) : UInt64 := UInt64.ofNat (ofBigEndian bytes)

/-- The 16-bit word of two bytes. -/
def word16OfBytes (bytes : List UInt8) : UInt16 := UInt16.ofNat (ofBigEndian bytes)

@[simp] theorem length_word64Bytes (value : UInt64) : (word64Bytes value).length = 8 :=
  length_bigEndian _ _

@[simp] theorem length_word16Bytes (value : UInt16) : (word16Bytes value).length = 2 :=
  length_bigEndian _ _

@[simp] theorem word64OfBytes_word64Bytes (value : UInt64) :
    word64OfBytes (word64Bytes value) = value := by
  simp only [word64OfBytes, word64Bytes, ofBigEndian_bigEndian]
  rw [Nat.mod_eq_of_lt (by simpa using value.toNat_lt)]
  exact UInt64.ofNat_toNat

@[simp] theorem word16OfBytes_word16Bytes (value : UInt16) :
    word16OfBytes (word16Bytes value) = value := by
  simp only [word16OfBytes, word16Bytes, ofBigEndian_bigEndian]
  rw [Nat.mod_eq_of_lt (by simpa using value.toNat_lt)]
  exact UInt16.ofNat_toNat

/-- The text of a field: what comes before its first NUL. -/
def textOf (field : List UInt8) : String := Text.lossy (field.takeWhile (· ≠ 0))

/-- The bytes of a text in a field of `capacity` bytes: the longest front part that fits, then
NULs. -/
def paddedTextBytes (text : String) (capacity : Nat) : List UInt8 :=
  let bytes := Text.encode (Text.fitting capacity text)
  bytes ++ List.replicate (capacity - bytes.length) 0

/-- The length of some bytes as a 64-bit word, then the bytes. -/
def prefixedBytes (bytes : List UInt8) : List UInt8 :=
  word64Bytes (UInt64.ofNat bytes.length) ++ bytes

theorem length_encode_fitting (capacity : Nat) (text : String) :
    (Text.encode (Text.fitting capacity text)).length ≤ capacity := by
  simpa [Text.encode, Text.fitting] using
    Text.length_encodeChars_fittingChars capacity text.toList

@[simp] theorem length_paddedTextBytes (text : String) (capacity : Nat) :
    (paddedTextBytes text capacity).length = capacity := by
  have := length_encode_fitting capacity text
  simp only [paddedTextBytes, List.length_append, List.length_replicate]
  omega

namespace Field

/-- The `needed` bytes at `offset`. -/
def window (bytes : List UInt8) (offset needed : Nat) : Except ReadFault (List UInt8) :=
  let available := bytes.length - offset
  if available < needed then .error (.refused (.truncated offset needed available))
  else if bytes.length < offset then .error (.outside offset bytes.length)
  else .ok ((bytes.drop offset).take needed)

/-- The byte at `offset`. -/
def byte (bytes : List UInt8) (offset : Nat) : Except ReadFault UInt8 :=
  (window bytes offset 1).map (·.headD 0)

/-- The 16-bit word at `offset`. -/
def word16 (bytes : List UInt8) (offset : Nat) : Except ReadFault UInt16 :=
  (window bytes offset 2).map word16OfBytes

/-- The 64-bit word at `offset`. -/
def word64 (bytes : List UInt8) (offset : Nat) : Except ReadFault UInt64 :=
  (window bytes offset 8).map word64OfBytes

/-- The text in the field of `capacity` bytes at `offset`. All of the field must be there. -/
def paddedText (bytes : List UInt8) (offset capacity : Nat) : Except ReadFault String :=
  (window bytes offset capacity).map textOf

/-- The bytes behind the length at `offset`, and the offset just past them. -/
def prefixed (bytes : List UInt8) (offset : Nat) : Except ReadFault (List UInt8 × Nat) := do
  let declared ← word64 bytes offset
  let start := offset + 8
  let remaining := bytes.length - start
  if remaining < declared.toNat then .error (.refused (.lengthOverflow declared remaining))
  else .ok ((bytes.drop start).take declared.toNat, start + declared.toNat)

/-- Overwrites the eight bytes at `offset`, and nothing else. Close to the last index a slot may
come out shorter, so that it is asked for its size as well. -/
def overwriteWord64 (value : UInt64) (offset : Nat) : Writer Unit := do
  let bytes ← get
  match Slot.between? bytes offset (saturatingAdd offset 8) with
  | some slot =>
    if h : slot.size = 8 then
      set (slot.fill (word64Bytes value) ((length_word64Bytes value).trans h.symm))
    else throw (.outOfBounds offset 8 bytes.length)
  | none => throw (.outOfBounds offset 8 bytes.length)

/-- A copy of a buffer with the eight bytes at `offset` overwritten. -/
def writeWord64 (value : UInt64) (bytes : List UInt8) (offset : Nat) :
    Except EncodeError (List UInt8) :=
  match overwriteWord64 value offset bytes with
  | .ok () after => .ok after
  | .error e _ => .error e

end Field

end Vitals.Wire
