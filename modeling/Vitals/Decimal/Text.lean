/-
  Decimal texts of binary fractions.

  `fixed` writes a set number of places, rounded from the exact value. The other texts use the
  fewest digits that read back as the same value: `plain` writes them positionally, `data` as
  numbers are written in JSON, with an exponent where the point lies far from the digits.

  * `fixed`
  * `Shortest.ofBinary64`: the fewest digits, and of those the nearest.
  * `plain`, `data`
-/
import Vitals.Decimal.Binary64

namespace Vitals.Decimal

/-- The text with `places` digits after the point; a half goes to the even neighbour. -/
def fixed (places : Nat) (x : Binary64) : String :=
  let (n, d) := x.quotient
  let scaled := divHalfEven (n * Nat.pow 10 places) d
  let whole := toString (scaled / Nat.pow 10 places)
  if places = 0 then whole else whole ++ "." ++ padded places (scaled % Nat.pow 10 places)

/-! ## The fewest digits -/

/-- The number `digits · 10 ^ exponent`. -/
structure Shortest where
  digits : Nat
  exponent : Int
  deriving DecidableEq, Repr

/-- The real numbers that round to a positive value: those between `low / den` and `high / den`, the
ends included when the significand is even. The value itself is `mid / den`. -/
structure Interval where
  low : Nat
  mid : Nat
  high : Nat
  den : Nat
  closed : Bool
  deriving Repr

/-- The interval of a positive value. Below a power of two the neighbours lie half as far apart. -/
def Interval.ofBinary64 (x : Binary64) : Interval :=
  let m := x.significand
  let unit := Nat.pow 2 (x.exponent - 2).toNat
  let below := if m = Nat.pow 2 52 then 4 * m - 1 else 4 * m - 2
  { low := below * unit
    mid := 4 * m * unit
    high := (4 * m + 2) * unit
    den := Nat.pow 2 (2 - x.exponent).toNat
    closed := m % 2 = 0 }

/-- Whether `num / den'` lies in an interval. -/
def Interval.contains (i : Interval) (num den' : Nat) : Bool :=
  let p := num * i.den
  if i.closed then i.low * den' ≤ p && p ≤ i.high * den' else i.low * den' < p && p < i.high * den'

/-- How many places a positive quotient below one must be moved to reach one. -/
def leadingPlaces (num den : Nat) : Nat → Nat
  | 0 => 0
  | fuel + 1 => if den ≤ num then 0 else leadingPlaces (num * 10) den fuel + 1

/-- The place of the first digit of a positive quotient: 0 for the ones. -/
def firstPlace (num den : Nat) : Int :=
  if den ≤ num then (Nat.toDigits 10 (num / den)).length - 1
  else -(leadingPlaces num den (den.log2 + 1) : Int)

/-- The factors of `c · 10 ^ s` as a quotient. -/
def gridPoint (c : Nat) (s : Int) : Nat × Nat := (c * Nat.pow 10 s.toNat, Nat.pow 10 (-s).toNat)

/-- The point of the grid of `count` digits that lies in the interval; of two the nearer, of two
equally near the even one. -/
def onGrid? (i : Interval) (count : Nat) : Option Shortest :=
  let s := firstPlace i.mid i.den - (count - 1 : Nat)
  let floor := i.mid * Nat.pow 10 (-s).toNat / (i.den * Nat.pow 10 s.toNat)
  let nearest := divHalfEven (i.mid * Nat.pow 10 (-s).toNat) (i.den * Nat.pow 10 s.toNat)
  let hit := fun c => let (p, q) := gridPoint c s; i.contains p q
  let other := if nearest = floor then floor + 1 else floor
  if hit nearest then some ⟨nearest, s⟩ else if hit other then some ⟨other, s⟩ else none

/-- The first grid with a hit, tried from `count` digits on. -/
def searchGrids (i : Interval) : Nat → Nat → Shortest
  | _, 0 => ⟨i.mid, 0⟩
  | count, fuel + 1 =>
    match onGrid? i count with
    | some r => r
    | none => searchGrids i (count + 1) fuel

/-- Drops zeros at the end of the digits. -/
def Shortest.trim (digits : Nat) (exponent : Int) : Nat → Shortest
  | 0 => ⟨digits, exponent⟩
  | fuel + 1 =>
    if digits % 10 = 0 then trim (digits / 10) (exponent + 1) fuel else ⟨digits, exponent⟩

/-- The fewest digits that read back as a value, and of those the nearest. Seventeen always do. -/
def Shortest.ofBinary64 (x : Binary64) : Shortest :=
  if x.significand = 0 then ⟨0, 0⟩
  else
    let r := searchGrids (.ofBinary64 x) 1 17
    trim r.digits r.exponent 20

/-! ## Texts -/

/-- Digits with `n` zeros behind them. -/
def withZeros (digits : String) (n : Nat) : String :=
  digits ++ String.ofList (List.replicate n '0')

/-- Digits written positionally, the point after `before` of them; a point in front of all digits is
preceded by a zero. -/
def positional (digits : String) (before : Int) : String :=
  if before ≤ 0 then "0." ++ withZeros "" (-before).toNat ++ digits
  else
    let cs := digits.toList
    String.ofList (cs.take before.toNat) ++ "." ++ String.ofList (cs.drop before.toNat)

/-- The fewest digits, positionally; whole numbers without a point. -/
def plain (x : Binary64) : String :=
  let r := Shortest.ofBinary64 x
  let digits := toString r.digits
  if 0 ≤ r.exponent then withZeros digits r.exponent.toNat
  else positional digits (digits.length + r.exponent)

/-- The fewest digits as a number in data: positional from 1e-5 up to 1e16, and then with a point;
otherwise with an exponent, which bears a sign either way. -/
def data (x : Binary64) : String :=
  let r := Shortest.ofBinary64 x
  let digits := toString r.digits
  let before : Int := digits.length + r.exponent
  if r.digits = 0 then "0.0"
  else if 0 ≤ r.exponent ∧ before ≤ 16 then withZeros digits r.exponent.toNat ++ ".0"
  else if -5 < before ∧ before ≤ 16 then positional digits before
  else
    let cs := digits.toList
    let mantissa := String.ofList (cs.take 1) ++
      if cs.length = 1 then "" else "." ++ String.ofList (cs.drop 1)
    let sign := if 0 < before then "+" else ""
    s!"{mantissa}e{sign}{before - 1}"

end Vitals.Decimal
