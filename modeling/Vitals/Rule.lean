/-
  Rules of the server's matching engine, as the client moves them on and off the wire.

  A `Descriptor` says what a rule matches. It travels in two layouts: a `NewRule` puts the rule's id
  between the descriptor's pattern and its flag, a `Listing` puts it in front. Nothing here
  evaluates a rule.
-/
import Vitals.Wire.Reader

namespace Vitals

namespace Rule

open Wire

/-- What a rule matches: a pattern, over single lines or across them. -/
structure Descriptor where
  pattern : List UInt8
  multiLine : Bool
  deriving DecidableEq, Repr

/-- The tag of a pattern rule, the one kind there is. -/
def patternTag : UInt8 := 4

/-- The byte of a flag. -/
def flagByte (b : Bool) : UInt8 := if b then 1 else 0

namespace Descriptor

/-- The tag of a descriptor. -/
def tag (_ : Descriptor) : UInt8 := patternTag

/-- The flag byte of a descriptor. -/
def flags (d : Descriptor) : UInt8 := flagByte d.multiLine

/-- The pattern as text, ill-formed pieces replaced. -/
def patternText (d : Descriptor) : String := Text.lossy d.pattern

/-- The bytes of the tag and the pattern. -/
def encodeHead (d : Descriptor) : List UInt8 := d.tag :: prefixedBytes d.pattern

/-- The bytes of a descriptor. -/
def encode (d : Descriptor) : List UInt8 := d.encodeHead ++ [d.flags]

/-- Takes the tag and the pattern off the front of a payload. -/
def decodeHead : Decoder (List UInt8) := do
  let tag ← Reader.byte
  if tag = patternTag then Reader.prefixed else Decoder.refuse (.unknownRuleTag tag)

/-- Takes a descriptor off the front of a payload. -/
def decode : Decoder Descriptor := do
  let pattern ← decodeHead
  let flag ← Reader.byte
  return { pattern, multiLine := flag != 0 }

end Descriptor

/-- Takes a label off the front of a payload. -/
def labelText : Decoder String := return Text.lossy (← Reader.prefixed)

/-- The bytes of a label. -/
def encodeLabel (label : String) : List UInt8 := prefixedBytes (Text.encode label)

end Rule

open Wire Rule

/-- A rule that the client asks the server to create under an id of its own choice. -/
structure NewRule where
  id : UInt64
  descriptor : Descriptor
  label : String
  deriving DecidableEq, Repr

namespace NewRule

/-- The bytes of a new rule. -/
def encode (r : NewRule) : List UInt8 :=
  r.descriptor.encodeHead ++ word64Bytes r.id ++ [r.descriptor.flags] ++ encodeLabel r.label

/-- Takes a new rule off the front of a payload. The id splits the descriptor, so its parts are read
one by one. -/
def decode : Decoder NewRule := do
  let tag ← Reader.byte
  if tag = patternTag then
    let pattern ← Reader.prefixed
    let id ← Reader.word64
    let flag ← Reader.byte
    let label ← labelText
    return { id, descriptor := { pattern, multiLine := flag != 0 }, label }
  else Decoder.refuse (.unknownRuleTag tag)

/-- The parts in front of the id are those of a descriptor. -/
theorem decode_eq : decode = do
    let pattern ← Descriptor.decodeHead
    let id ← Reader.word64
    let flag ← Reader.byte
    let label ← labelText
    return { id, descriptor := { pattern, multiLine := flag != 0 }, label } := by
  unfold decode Descriptor.decodeHead
  rw [bind_assoc]
  congr 1
  funext tag
  split <;> rfl

end NewRule

/-- A rule that the server holds. -/
structure RuleListing where
  id : UInt64
  descriptor : Descriptor
  /-- Whether the rule belongs to the active set. -/
  active : Bool
  label : String
  deriving DecidableEq, Repr

namespace RuleListing

/-- The bytes of a listed rule. -/
def encode (r : RuleListing) : List UInt8 :=
  word64Bytes r.id ++ r.descriptor.encode ++ [flagByte r.active] ++ encodeLabel r.label

/-- Takes a listed rule off the front of a payload. -/
def decode : Decoder RuleListing := do
  let id ← Reader.word64
  let descriptor ← Descriptor.decode
  let active ← Reader.byte
  let label ← labelText
  return { id, descriptor, active := active != 0, label }

/-- The bytes of a listed rule whose pattern and label are empty: id, tag, length, flag, active
byte, length. -/
def minimumSize : Nat := 8 + 1 + 8 + 1 + 1 + 8

end RuleListing

end Vitals
