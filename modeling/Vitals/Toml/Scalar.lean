/-
  Numbers, dates and other plain words of TOML documents.

  A plain word is judged as a whole. Digits may be separated by single underscores. Integers have 64
  bits with a sign. Dates must exist, and a time of day may have a leap second.

  * `Scalar.ofWord?`: the value of a plain word.
  * `Scalar.timeOfDay?`: a time of day, which a space may divide from its date.
-/
import Vitals.Decimal.Rounding
import Vitals.Toml.Quoted
import Vitals.Toml.Value

namespace Vitals.Toml

namespace Scalar

/-! ## Integers -/

/-- The number of some digits, with single underscores between them, behind digits that make
`acc`. -/
def digitsFrom? (base : Nat) (acc : Nat) : List Char → Option Nat
  | [] => none
  | [c] => do return acc * base + (← digit? base c)
  | c :: '_' :: rest => do digitsFrom? base (acc * base + (← digit? base c)) rest
  | c :: rest => do digitsFrom? base (acc * base + (← digit? base c)) rest

/-- The number of some digits. -/
def digits? (base : Nat) (cs : List Char) : Option Nat := digitsFrom? base 0 cs

/-- A sign in front of a number, and the number. -/
def splitSign : List Char → Bool × List Char
  | '-' :: cs => (true, cs)
  | '+' :: cs => (false, cs)
  | cs => (false, cs)

/-- The number of decimal digits; only zero starts with a zero. -/
def decimal? : List Char → Option Nat
  | ['0'] => some 0
  | '0' :: _ => none
  | cs => digits? 10 cs

/-- An integer of 64 bits with a sign. -/
def bounded? (n : Int) : Option Int :=
  if Int64.minValue.toInt ≤ n ∧ n ≤ Int64.maxValue.toInt then some n else none

/-- The integer of a word. Only decimal ones have a sign. -/
def integer? : List Char → Option Int
  | '0' :: 'x' :: cs => do bounded? (← digits? 16 cs)
  | '0' :: 'o' :: cs => do bounded? (← digits? 8 cs)
  | '0' :: 'b' :: cs => do bounded? (← digits? 2 cs)
  | cs => do
    let (negative, cs) := splitSign cs
    let n ← decimal? cs
    bounded? (if negative then -(n : Int) else n)

/-! ## Fractions -/

/-- Whether a character starts the exponent of a number. -/
def startsExponent (c : Char) : Bool := c == 'e' || c == 'E'

/-- The exponent of a number, from its letter on; nothing stands for zero. -/
def exponent? : List Char → Option Int
  | [] => some 0
  | _ :: cs => do
    let (negative, cs) := splitSign cs
    let n ← digits? 10 cs
    return if negative then -(n : Int) else n

/-- Whether `digits · 10 ^ exponent` does not exceed by half a unit the largest fraction that 64
bits hold. -/
def finite (digits : Nat) (exponent : Int) : Bool :=
  let size : Int := (Nat.toDigits 10 digits).length + exponent
  digits == 0 || size < 309 ||
    (size == 309 && digits * Nat.pow 10 exponent.toNat <
      (Nat.pow 2 1024 - Nat.pow 2 970) * Nat.pow 10 (-exponent).toNat)

/-- The digits and the exponent of a word without sign that has a point, an exponent or both. -/
def fraction? (cs : List Char) : Option (Nat × Int) := do
  let whole := cs.takeWhile fun c => c != '.' && !startsExponent c
  let w ← decimal? whole
  match cs.drop whole.length with
  | [] => none
  | '.' :: rest =>
    let places := rest.takeWhile fun c => !startsExponent c
    let p ← digits? 10 places
    let e ← exponent? (rest.drop places.length)
    let count := (places.filter (· != '_')).length
    return (w * Nat.pow 10 count + p, e - count)
  | rest => return (w, ← exponent? rest)

/-- Whether a word is a fraction, an infinity or no number. A fraction without a minus must not be
too large. -/
def isFloat (cs : List Char) : Bool :=
  let (negative, cs) := splitSign cs
  if cs = "inf".toList ∨ cs = "nan".toList then true
  else
    match fraction? cs with
    | some (digits, exponent) => negative || finite digits exponent
    | none => false

/-! ## Dates and times -/

/-- The number of exactly two digits, not above a bound. -/
def twoDigits? (bound : Nat) : List Char → Option Nat
  | [a, b] => do
    let n := 10 * (← digit? 10 a) + (← digit? 10 b)
    if n ≤ bound then some n else none
  | _ => none

/-- How many days a month has. -/
def daysIn (year month : Nat) : Nat :=
  if month = 2 then
    if year % 4 = 0 ∧ (year % 100 ≠ 0 ∨ year % 400 = 0) then 29 else 28
  else if month = 4 ∨ month = 6 ∨ month = 9 ∨ month = 11 then 30
  else 31

/-- A date, in normal form. -/
def date? : List Char → Option String
  | [y₁, y₂, y₃, y₄, '-', m₁, m₂, '-', d₁, d₂] => do
    let century ← twoDigits? 99 [y₁, y₂]
    let year := 100 * century + (← twoDigits? 99 [y₃, y₄])
    let month ← twoDigits? 12 [m₁, m₂]
    let day ← twoDigits? (daysIn year month) [d₁, d₂]
    if month = 0 ∨ day = 0 then none
    else some s!"{Decimal.padded 4 year}-{Decimal.padded 2 month}-{Decimal.padded 2 day}"
  | _ => none

/-- The part of a second, nine places at most and none at the end that are zero. -/
def secondPart (places : List Char) : String :=
  let shown := ((places.take 9).reverse.dropWhile (· == '0')).reverse
  if shown.isEmpty then "" else "." ++ String.ofList shown

/-- A time of day and what stands behind it, in normal form. -/
def clock? : List Char → Option (String × List Char)
  | h₁ :: h₂ :: ':' :: m₁ :: m₂ :: ':' :: s₁ :: s₂ :: rest => do
    let hour ← twoDigits? 23 [h₁, h₂]
    let minute ← twoDigits? 59 [m₁, m₂]
    let second ← twoDigits? 60 [s₁, s₂]
    let text := s!"{Decimal.padded 2 hour}:{Decimal.padded 2 minute}:{Decimal.padded 2 second}"
    match rest with
    | '.' :: rest =>
      let places := rest.takeWhile (·.isDigit)
      if places.isEmpty then none
      else some (text ++ secondPart places, rest.drop places.length)
    | rest => some (text, rest)
  | _ => none

/-- A distance from UTC, in normal form. -/
def offset? : List Char → Option String
  | ['Z'] | ['z'] => some "Z"
  | [sign, h₁, h₂, ':', m₁, m₂] => do
    let hour ← twoDigits? 23 [h₁, h₂]
    let minute ← twoDigits? 59 [m₁, m₂]
    let text := s!"{Decimal.padded 2 hour}:{Decimal.padded 2 minute}"
    if sign == '+' then some ("+" ++ text)
    else if sign == '-' then some ((if hour = 0 ∧ minute = 0 then "+" else "-") ++ text)
    else none
  | _ => none

/-- A time of day on a date, with a distance from UTC or without, in normal form. -/
def timeOfDay? (cs : List Char) : Option String := do
  let (time, rest) ← clock? cs
  match rest with
  | [] => some time
  | rest => do return time ++ (← offset? rest)

/-- A date, a time of day, or both. -/
def dateTime? (cs : List Char) : Option String :=
  match date? cs, clock? cs, date? (cs.take 10), cs.drop 10 with
  | some date, _, _, _ => some date
  | none, some (time, []), _, _ => some time
  | none, _, some date, c :: rest =>
    if c == 'T' || c == 't' then (timeOfDay? rest).map fun time => s!"{date}T{time}" else none
  | none, _, _, _ => none

/-! ## Words -/

/-- Whether a character belongs to a plain word. -/
def isWordChar (c : Char) : Bool := c.isAlphanum || "_-+.:".toList.contains c

/-- The value of a plain word. -/
def ofWord? (cs : List Char) : Option Value :=
  if cs = "true".toList then some (.boolean true)
  else if cs = "false".toList then some (.boolean false)
  else if let some n := integer? cs then some (.integer n)
  else if isFloat cs then some .float
  else (dateTime? cs).map .dateTime

end Scalar

end Vitals.Toml
