/-
  Non-negative binary fractions with 53 significant bits.

  A value is `significand · 2 ^ exponent`; it is zero, or its significand has exactly 53 bits. Every
  operation is exact up to one rounding to the nearest value, ties to the even significand.
  Exponents are not bounded: the quantities computed with them here lie between 2⁻⁶⁴ and 2⁷⁴.

  * `Binary64.ofQuotient`: the value nearest to a quotient of naturals.
  * `Binary64.ofNat`, `Binary64.div`, `Binary64.add`.
  * `Binary64.bits`: the usual 64-bit pattern.
-/
import Vitals.Decimal.Rounding

namespace Vitals

/-- A non-negative binary fraction. -/
structure Binary64 where
  significand : Nat
  exponent : Int
  deriving DecidableEq, Repr, Inhabited

namespace Binary64

/-- Zero. -/
def zero : Binary64 := ⟨0, 0⟩

/-- The factors by which to scale numerator and denominator of a quotient, so that it is divided by
`2 ^ e`. -/
def scale (num den : Nat) (e : Int) : Nat × Nat :=
  (num * Nat.pow 2 (-e).toNat, den * Nat.pow 2 e.toNat)

/-- Rounds `num / den` at the bit of weight `2 ^ e`. -/
def roundAt (num den : Nat) (e : Int) : Binary64 :=
  let (n, d) := scale num den e
  let q := Decimal.divHalfEven n d
  if q = Nat.pow 2 53 then ⟨Nat.pow 2 52, e + 1⟩ else ⟨q, e⟩

/-- The value nearest to `num / den`; zero when either is zero. -/
def ofQuotient (num den : Nat) : Binary64 :=
  if num = 0 ∨ den = 0 then zero
  else
    let e : Int := num.log2 - den.log2 - 52
    let (n, d) := scale num den e
    roundAt num den (if n < d * Nat.pow 2 52 then e - 1 else e)

/-- The value nearest to a natural. -/
def ofNat (n : Nat) : Binary64 := ofQuotient n 1

/-- A value as a quotient of naturals. -/
def quotient (x : Binary64) : Nat × Nat :=
  (x.significand * Nat.pow 2 x.exponent.toNat, Nat.pow 2 (-x.exponent).toNat)

/-- The value nearest to the quotient of two values. -/
def div (x y : Binary64) : Binary64 :=
  let (n, d) := x.quotient
  let (n', d') := y.quotient
  ofQuotient (n * d') (d * n')

/-- The value nearest to the sum of two values. -/
def add (x y : Binary64) : Binary64 :=
  let (n, d) := x.quotient
  let (n', d') := y.quotient
  ofQuotient (n * d' + n' * d) (d * d')

/-- Whether a value lies below a natural. -/
def below (x : Binary64) (n : Nat) : Bool := x.quotient.1 < n * x.quotient.2

/-- Whether a value is above zero. -/
def positive (x : Binary64) : Bool := 0 < x.significand

/-- The 64-bit pattern of a value: the biased exponent and the significand without its first bit. -/
def bits (x : Binary64) : Nat :=
  if x.significand = 0 then 0
  else (x.exponent + 1075).toNat * Nat.pow 2 52 + (x.significand - Nat.pow 2 52)

end Binary64

end Vitals
