/-
  Quoted strings of TOML, read and written.

  There are four forms: with escapes or literal, and each on one line or over several. Over several
  lines a line break behind the opening quotes is dropped, and one or two quotes may stand anywhere,
  even at the end.

  * `readChars?`: takes a string off the front of a text.
  * `Form.of`: the form that suits a string best.
  * `quote`: a string in that form.
-/
namespace Vitals.Toml

/-! ## Characters -/

/-- A control character other than tab; none of them stands in a document as it is, line breaks
apart. -/
def isControl (c : Char) : Bool := (c.toNat < 0x20 && c != '\t') || c.toNat == 0x7F

/-- A space or a tab. -/
def isSpace (c : Char) : Bool := c == ' ' || c == '\t'

/-- The value of a digit in some base up to 16. -/
def digit? (base : Nat) (c : Char) : Option Nat :=
  let v := if c.isDigit then c.toNat - 48
    else if 'a' ≤ c ∧ c ≤ 'f' then c.toNat - 87
    else if 'A' ≤ c ∧ c ≤ 'F' then c.toNat - 55
    else 16
  if v < base then some v else none

/-- The character that a list of hexadecimal digits numbers, if there is one. -/
def numbered? (digits : List Char) : Option Char := do
  let ds ← digits.mapM (digit? 16)
  let n := ds.foldl (fun n d => 16 * n + d) 0
  if n.isValidChar then some (Char.ofNat n) else none

/-- What a character stands for behind a backslash. -/
def escaped? : Char → Option Char
  | 'b' => some '\x08'
  | 't' => some '\t'
  | 'n' => some '\n'
  | 'f' => some '\x0c'
  | 'r' => some '\r'
  | '"' => some '"'
  | '\\' => some '\\'
  | _ => none

/-- A character in front of what was read behind it. -/
def consTo (c : Char) (r : Option (List Char × List Char)) : Option (List Char × List Char) :=
  r.map fun (s, rest) => (c :: s, rest)

/-! ## Reading -/

/-- Reads a string with escapes up to its closing quote. -/
def basic? : List Char → Option (List Char × List Char)
  | [] => none
  | '"' :: rest => some ([], rest)
  | '\\' :: 'u' :: a :: b :: c :: d :: rest => do
    consTo (← numbered? [a, b, c, d]) (basic? rest)
  | '\\' :: 'U' :: a :: b :: c :: d :: e :: f :: g :: h :: rest => do
    consTo (← numbered? [a, b, c, d, e, f, g, h]) (basic? rest)
  | '\\' :: c :: rest => do consTo (← escaped? c) (basic? rest)
  | c :: rest => if c == '\\' || isControl c then none else consTo c (basic? rest)

/-- Reads a literal string up to its closing quote. -/
def literal? : List Char → Option (List Char × List Char)
  | [] => none
  | '\'' :: rest => some ([], rest)
  | c :: rest => if isControl c then none else consTo c (literal? rest)

/-- Where a string over several lines stands. -/
inductive Stretch where
  /-- In its text. -/
  | text
  /-- Behind a backslash at the end of a line, before the line break. -/
  | beforeBreak
  /-- Behind that line break, before the next character that is not blank. -/
  | afterBreak
  deriving DecidableEq, Repr

/-- Reads a string with escapes over several lines up to its closing quotes. -/
def basicLines? : Stretch → List Char → Option (List Char × List Char)
  | .beforeBreak, '\n' :: rest => basicLines? .afterBreak rest
  | .beforeBreak, '\r' :: '\n' :: rest => basicLines? .afterBreak rest
  | .beforeBreak, c :: rest => if isSpace c then basicLines? .beforeBreak rest else none
  | .afterBreak, ' ' :: rest => basicLines? .afterBreak rest
  | .afterBreak, '\t' :: rest => basicLines? .afterBreak rest
  | .afterBreak, '\n' :: rest => basicLines? .afterBreak rest
  | .afterBreak, '\r' :: '\n' :: rest => basicLines? .afterBreak rest
  | _, [] => none
  | _, '"' :: '"' :: '"' :: '"' :: '"' :: rest => some (['"', '"'], rest)
  | _, '"' :: '"' :: '"' :: '"' :: rest => some (['"'], rest)
  | _, '"' :: '"' :: '"' :: rest => some ([], rest)
  | _, '\n' :: rest => consTo '\n' (basicLines? .text rest)
  | _, '\r' :: '\n' :: rest => consTo '\n' (basicLines? .text rest)
  | _, '\\' :: 'u' :: a :: b :: c :: d :: rest => do
    consTo (← numbered? [a, b, c, d]) (basicLines? .text rest)
  | _, '\\' :: 'U' :: a :: b :: c :: d :: e :: f :: g :: h :: rest => do
    consTo (← numbered? [a, b, c, d, e, f, g, h]) (basicLines? .text rest)
  | _, '\\' :: '\n' :: rest => basicLines? .afterBreak rest
  | _, '\\' :: '\r' :: '\n' :: rest => basicLines? .afterBreak rest
  | _, '\\' :: c :: rest =>
    if isSpace c then basicLines? .beforeBreak rest
    else do consTo (← escaped? c) (basicLines? .text rest)
  | _, c :: rest => if c == '\\' || isControl c then none else consTo c (basicLines? .text rest)

/-- Reads a literal string over several lines up to its closing quotes. -/
def literalLines? : List Char → Option (List Char × List Char)
  | [] => none
  | '\'' :: '\'' :: '\'' :: '\'' :: '\'' :: rest => some (['\'', '\''], rest)
  | '\'' :: '\'' :: '\'' :: '\'' :: rest => some (['\''], rest)
  | '\'' :: '\'' :: '\'' :: rest => some ([], rest)
  | '\n' :: rest => consTo '\n' (literalLines? rest)
  | '\r' :: '\n' :: rest => consTo '\n' (literalLines? rest)
  | c :: rest => if isControl c then none else consTo c (literalLines? rest)

/-- Drops a line break behind opening quotes. -/
def dropBreak : List Char → List Char
  | '\n' :: rest => rest
  | '\r' :: '\n' :: rest => rest
  | cs => cs

/-- Takes a string off the front of a text that starts with a quote. -/
def readChars? : List Char → Option (List Char × List Char)
  | '"' :: '"' :: '"' :: rest => basicLines? .text (dropBreak rest)
  | '"' :: rest => basic? rest
  | '\'' :: '\'' :: '\'' :: rest => literalLines? (dropBreak rest)
  | '\'' :: rest => literal? rest
  | _ => none

/-- Takes a string on one line off the front of a text that starts with a quote. -/
def readLine? : List Char → Option (List Char × List Char)
  | '"' :: rest => basic? rest
  | '\'' :: rest => literal? rest
  | _ => none

/-! ## Writing -/

/-- A form of quoted strings. -/
inductive Form where
  | basic | literal | basicLines | literalLines
  deriving DecidableEq, Repr

/-- The longest run of a character that starts at the front, after `here` of them. -/
def longestRun (q : Char) (here : Nat) : List Char → Nat
  | [] => here
  | c :: rest => if c = q then longestRun q (here + 1) rest else max here (longestRun q 0 rest)

/-- The form that suits a string best: one without escapes if there is one, on one line if it can
be. -/
def Form.of (s : List Char) : Form :=
  let control := s.any fun c => isControl c && c != '\n'
  let backslash := s.contains '\\'
  let quotes := longestRun '"' 0 s
  let apostrophes := longestRun '\'' 0 s
  let lines := s.contains '\n'
  if !control && !backslash && quotes == 0 && !lines then .basic
  else if !control && apostrophes == 0 && !lines then .literal
  else if !control && !backslash && quotes ≤ 2 then .basicLines
  else if !control && apostrophes ≤ 2 then .literalLines
  else if lines then .basicLines
  else .basic

/-- A hexadecimal digit in upper case. -/
def upperHex (n : Nat) : Char := if n < 10 then Char.ofNat (48 + n) else Char.ofNat (55 + n)

/-- A character that no form can hold as it is, escaped. -/
def escape (c : Char) : List Char :=
  match c with
  | '\x08' => ['\\', 'b']
  | '\t' => ['\\', 't']
  | '\x0c' => ['\\', 'f']
  | '\r' => ['\\', 'r']
  | '\\' => ['\\', '\\']
  | c =>
    if isControl c then ['\\', 'u', '0', '0', upperHex (c.toNat / 16), upperHex (c.toNat % 16)]
    else [c]

/-- A character of a string with escapes on one line. -/
def escapeInLine (c : Char) : List Char :=
  match c with
  | '"' => ['\\', '"']
  | '\n' => ['\\', 'n']
  | c => escape c

/-- The characters of a string with escapes over several lines, behind a number of quotes: a third
quote in a row is escaped, line breaks are not. -/
def escapeLines (quotes : Nat) : List Char → List Char
  | [] => []
  | c :: rest =>
    if c = '"' then
      if quotes = 2 then '\\' :: '"' :: escapeLines 0 rest else '"' :: escapeLines (quotes + 1) rest
    else if c = '\n' then '\n' :: escapeLines 0 rest
    else escape c ++ escapeLines 0 rest

/-- A line break behind the opening quotes of a string that has line breaks. -/
def leadingBreak (s : List Char) : List Char := if s.contains '\n' then ['\n'] else []

/-- A string in a form. -/
def Form.write : Form → List Char → List Char
  | .basic, s => '"' :: s.flatMap escapeInLine ++ ['"']
  | .literal, s => '\'' :: s ++ ['\'']
  | .basicLines, s => ['"', '"', '"'] ++ leadingBreak s ++ escapeLines 0 s ++ ['"', '"', '"']
  | .literalLines, s => ['\'', '\'', '\''] ++ leadingBreak s ++ s ++ ['\'', '\'', '\'']

/-- A string in the form that suits it best. -/
def quote (s : String) : String := String.ofList ((Form.of s.toList).write s.toList)

end Vitals.Toml
