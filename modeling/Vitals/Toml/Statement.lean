/-
  The statements of a TOML document.

  A statement ends with its line: a field, the header of a table, the header of one of several
  tables, or nothing. A comment may stand behind each of them.

  * `Statement.read?`: takes a statement and its line break off the front of a text.
  * `Statement.readAll?`: all statements of a text.
-/
import Vitals.Toml.Fields
import Vitals.Toml.Scalar

namespace Vitals.Toml

/-- A statement. -/
inductive Statement where
  | field (path : List String) (v : Value)
  | header (path : List String)
  | element (path : List String)
  | blank

/-! ## Between words -/

/-- A text without the spaces in front. -/
def skipSpaces (cs : List Char) : List Char := cs.dropWhile isSpace

/-- What stands behind a line break, or at the end of the text. -/
def lineBreak? : List Char → Option (List Char)
  | [] => some []
  | '\n' :: rest => some rest
  | '\r' :: '\n' :: rest => some rest
  | _ => none

/-- What stands behind the end of a line, with or without a comment. -/
def lineEnd? (cs : List Char) : Option (List Char) :=
  match skipSpaces cs with
  | '#' :: rest => lineBreak? (rest.dropWhile fun c => !isControl c)
  | rest => lineBreak? rest

/-- A text without the spaces, line breaks and comments in front. `comment` says that a comment has
begun. -/
def skipLines (comment : Bool) : List Char → List Char
  | [] => []
  | '\n' :: rest => skipLines false rest
  | '\r' :: '\n' :: rest => skipLines false rest
  | c :: rest =>
    if comment then if isControl c then c :: rest else skipLines true rest
    else if c == '#' then skipLines true rest
    else if isSpace c then skipLines false rest
    else c :: rest

/-! ## Keys -/

/-- Whether a character may stand in a key without quotes. -/
def isKeyChar (c : Char) : Bool := c.isAlphanum || c == '_' || c == '-'

/-- Takes a key without dots off the front of a text. -/
def key? (cs : List Char) : Option (String × List Char) :=
  match cs.takeWhile isKeyChar with
  | [] => (readLine? cs).map fun (s, rest) => (String.ofList s, rest)
  | word => some (String.ofList word, cs.drop word.length)

/-- How deep values and the parts of a key may be nested. -/
def maxDepth : Nat := 79

/-- Takes a dotted key of at most so many parts off the front of a text, with the spaces around it.
-/
def keyPath? : Nat → List Char → Option (List String × List Char)
  | 0, _ => none
  | n + 1, cs => do
    let (k, rest) ← key? (skipSpaces cs)
    match skipSpaces rest with
    | '.' :: rest => do
      let (ks, rest) ← keyPath? n rest
      return (k :: ks, rest)
    | rest => return ([k], rest)

/-! ## Values -/

/-- Takes a plain word off the front of a text. A date may be followed by a space and a time. -/
def word? (cs : List Char) : Option (Value × List Char) :=
  let word := cs.takeWhile Scalar.isWordChar
  let rest := cs.drop word.length
  let alone := (Scalar.ofWord? word).map fun v => (v, rest)
  match Scalar.date? word, rest with
  | some date, ' ' :: later =>
    let next := later.takeWhile Scalar.isWordChar
    match Scalar.timeOfDay? next with
    | some time => some (.dateTime s!"{date}T{time}", later.drop next.length)
    | none => alone
  | _, _ => alone

/-- Takes a value without parts off the front of a text. -/
def simple? (cs : List Char) : Option (Value × List Char) :=
  match cs with
  | '"' :: _ | '\'' :: _ => (readChars? cs).map fun (s, rest) => (.string (String.ofList s), rest)
  | _ => word? cs

/-- A way to take a value off the front of a text. -/
abbrev ValueReader := List Char → Option (Value × List Char)

/-- Takes the items of an array and its closing bracket off the front of a text. Each item takes a
character of the text at least, so that its length bounds their number. -/
def items? (value? : ValueReader) : Nat → List Char → Option (List Value × List Char)
  | 0, _ => none
  | n + 1, cs =>
    match skipLines false cs with
    | ']' :: rest => some ([], rest)
    | cs => do
      let (v, rest) ← value? cs
      match skipLines false rest with
      | ',' :: rest => do
        let (vs, rest) ← items? value? n rest
        return (v :: vs, rest)
      | ']' :: rest => return ([v], rest)
      | _ => none

/-- Takes a dotted key, its value and the spaces around them off the front of a text. -/
def field? (value? : ValueReader) (cs : List Char) :
    Option ((List String × Value) × List Char) := do
  let (path, rest) ← keyPath? maxDepth cs
  match rest with
  | '=' :: rest => do
    let (v, rest) ← value? (skipSpaces rest)
    return ((path, v), skipSpaces rest)
  | _ => none

/-- Takes the fields of an inline table and its closing brace off the front of a text. -/
def inlineFields? (value? : ValueReader) : Nat → List Char →
    Option (List (List String × Value) × List Char)
  | 0, _ => none
  | n + 1, cs => do
    let (f, rest) ← field? value? cs
    match rest with
    | ',' :: rest => do
      let (fs, rest) ← inlineFields? value? n rest
      return (f :: fs, rest)
    | '\x7d' :: rest => return ([f], rest)
    | _ => none

/-- Takes an inline table off the front of a text, behind its opening brace. -/
def inlineTable? (value? : ValueReader) (cs : List Char) : Option (Value × List Char) :=
  match skipSpaces cs with
  | '\x7d' :: rest => some (.table .inline [], rest)
  | cs => do
    let (fs, rest) ← inlineFields? value? cs.length cs
    let fields ← fs.foldlM (fun (t : Fields) (path, v) => t.put? path v) []
    return (.table .inline fields, rest)

/-- Takes a value, nested at most so deep, off the front of a text. -/
def value? : Nat → ValueReader
  | n + 1, '[' :: rest => (items? (value? n) rest.length rest).map fun (vs, r) => (.array vs, r)
  | n + 1, '\x7b' :: rest => inlineTable? (value? n) rest
  | _, cs => simple? cs

/-! ## Statements -/

namespace Statement

/-- Takes a statement and its line break off the front of a text. -/
def read? (cs : List Char) : Option (Statement × List Char) :=
  match skipSpaces cs with
  | '[' :: '[' :: rest => do
    let (path, rest) ← keyPath? maxDepth rest
    match rest with
    | ']' :: ']' :: rest => return (.element path, ← lineEnd? rest)
    | _ => none
  | '[' :: rest => do
    let (path, rest) ← keyPath? maxDepth rest
    match rest with
    | ']' :: rest => return (.header path, ← lineEnd? rest)
    | _ => none
  | cs =>
    match lineEnd? cs with
    | some rest => some (.blank, rest)
    | none => do
      let ((path, v), rest) ← field? (value? maxDepth) cs
      return (.field path v, ← lineEnd? rest)

/-- At most so many statements of a text. -/
def readUpTo? : Nat → List Char → Option (List Statement)
  | _, [] => some []
  | 0, _ => none
  | n + 1, cs => do
    let (s, rest) ← read? cs
    return s :: (← readUpTo? n rest)

/-- All statements of a text. Each takes a character at least. -/
def readAll? (cs : List Char) : Option (List Statement) := readUpTo? cs.length cs

end Statement

end Vitals.Toml
