/-
  JSON texts of values.

  Fields are written in the order in which they are given. A text is quoted; quotes, backslashes and
  control characters below U+0020 are escaped and all else is written as it is, so that a text
  written compactly is one line.

  * `Json`: the values.
  * `Json.compact`: without blanks.
  * `Json.pretty`: one item a line, two more blanks in front at each level.
-/
import Vitals.Decimal.Text

namespace Vitals.Text

/-- A value to be written. -/
inductive Json where
  | number (n : Nat)
  | decimal (x : Binary64)
  | flag (b : Bool)
  | text (s : String)
  | list (items : List Json)
  | record (fields : List (String × Json))

namespace Json

/-! ## Quoted texts -/

/-- A hexadecimal digit in lower case. -/
def hexDigit (n : Nat) : Char := if n < 10 then Char.ofNat (48 + n) else Char.ofNat (87 + n)

/-- A character inside quotes. -/
def escape (c : Char) : List Char :=
  match c with
  | '"' => ['\\', '"']
  | '\\' => ['\\', '\\']
  | '\x08' => ['\\', 'b']
  | '\x0c' => ['\\', 'f']
  | '\n' => ['\\', 'n']
  | '\r' => ['\\', 'r']
  | '\t' => ['\\', 't']
  | c =>
    if c.toNat < 0x20 then ['\\', 'u', '0', '0', hexDigit (c.toNat / 16), hexDigit (c.toNat % 16)]
    else [c]

/-- A text in quotes. -/
def quoted (s : String) : List Char := '"' :: s.toList.flatMap escape ++ ['"']

/-- A value that holds no others, or holds none. -/
def leaf : Json → List Char
  | number n => Nat.toDigits 10 n
  | decimal x => (Decimal.data x).toList
  | flag b => (if b then "true" else "false").toList
  | text s => quoted s
  | list _ => ['[', ']']
  | record _ => ['\x7b', '\x7d']

/-! ## Without blanks -/

mutual

/-- A value without blanks, as characters. -/
def compactChars : Json → List Char
  | list (v :: vs) => '[' :: compactChars v ++ compactItems vs ++ [']']
  | record ((k, v) :: fields) =>
    '\x7b' :: quoted k ++ ':' :: compactChars v ++ compactFields fields ++ ['\x7d']
  | v => leaf v

/-- The items behind the first. -/
def compactItems : List Json → List Char
  | [] => []
  | v :: vs => ',' :: compactChars v ++ compactItems vs

/-- The fields behind the first. -/
def compactFields : List (String × Json) → List Char
  | [] => []
  | (k, v) :: fields => ',' :: quoted k ++ ':' :: compactChars v ++ compactFields fields

end

/-- A value without blanks. -/
def compact (v : Json) : String := String.ofList v.compactChars

/-! ## One item a line -/

/-- A new line at a level. -/
def newLine (level : Nat) : List Char := '\n' :: List.replicate (2 * level) ' '

mutual

/-- A value at a level with one item a line, as characters. -/
def prettyChars (level : Nat) : Json → List Char
  | list (v :: vs) =>
    '[' :: newLine (level + 1) ++ prettyChars (level + 1) v ++ prettyItems (level + 1) vs ++
      newLine level ++ [']']
  | record ((k, v) :: fields) =>
    '\x7b' :: newLine (level + 1) ++ quoted k ++ ':' :: ' ' :: prettyChars (level + 1) v ++
      prettyFields (level + 1) fields ++ newLine level ++ ['\x7d']
  | v => leaf v

/-- The items behind the first. -/
def prettyItems (level : Nat) : List Json → List Char
  | [] => []
  | v :: vs => ',' :: newLine level ++ prettyChars level v ++ prettyItems level vs

/-- The fields behind the first. -/
def prettyFields (level : Nat) : List (String × Json) → List Char
  | [] => []
  | (k, v) :: fields =>
    ',' :: newLine level ++ quoted k ++ ':' :: ' ' :: prettyChars level v ++
      prettyFields level fields

end

/-- A value with one item a line. -/
def pretty (v : Json) : String := String.ofList (v.prettyChars 0)

end Json

end Vitals.Text
