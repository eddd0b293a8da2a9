/-
  Naturals read from decimal digits.

  * `natural?`: digits and nothing else.
  * `word64?`: a word of 64 bits, with or without a plus.
-/

namespace Vitals.Decimal

/-- The number that some digits make, behind digits that make `n`. -/
def digitsAfter? (n : Nat) : List Char → Option Nat
  | [] => some n
  | c :: cs => if c.isDigit then digitsAfter? (10 * n + (c.toNat - 48)) cs else none

/-- The number that some digits make, one at least. -/
def natural? : List Char → Option Nat
  | [] => none
  | cs => digitsAfter? 0 cs

/-- Characters without a plus in front. -/
def dropPlus : List Char → List Char
  | '+' :: cs => cs
  | cs => cs

/-- A word of 64 bits. -/
def word64? (s : String) : Option UInt64 := do
  let n ← natural? (dropPlus s.toList)
  if n < UInt64.size then some (UInt64.ofNat n) else none

end Vitals.Decimal
