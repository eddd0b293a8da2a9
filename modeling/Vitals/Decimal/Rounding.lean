/-
  Rounding a quotient of naturals, and the digits of a natural.

  * `divHalfEven`: the nearest natural; a tie goes to the even one.
  * `padded`: digits with zeros in front.
-/

namespace Vitals.Decimal

/-- The natural nearest to `n / d`; a half goes to the even neighbour. -/
def divHalfEven (n d : Nat) : Nat :=
  let q := n / d
  let r := n % d
  if 2 * r < d then q else if d < 2 * r then q + 1 else if q % 2 = 0 then q else q + 1

/-- The rounded quotient lies within half a unit. -/
theorem divHalfEven_near (n d : Nat) (h : 0 < d) :
    2 * n ≤ 2 * (divHalfEven n d * d) + d ∧ 2 * (divHalfEven n d * d) ≤ 2 * n + d := by
  have hn := Nat.div_add_mod n d
  have hr := Nat.mod_lt n h
  have hm : n / d * d = d * (n / d) := Nat.mul_comm _ _
  have hs : (n / d + 1) * d = d * (n / d) + d := by rw [Nat.add_mul, hm, Nat.one_mul]
  unfold divHalfEven
  dsimp only
  split
  · rw [hm]; omega
  · split
    · rw [hs]; omega
    · split
      · rw [hm]; omega
      · rw [hs]; omega

/-- The digits of `n`, with zeros in front up to `width` of them. -/
def padded (width n : Nat) : String :=
  let digits := Nat.toDigits 10 n
  String.ofList (List.replicate (width - digits.length) '0' ++ digits)

end Vitals.Decimal
