/-
  Rounding a quotient of naturals, against all other choices.

  * `divHalfEven_nearest`: no integer is nearer to the quotient.
  * `le_divHalfEven`, `divHalfEven_le`: an integer on one side of the quotient stays there.
  * `le_divHalfEven_iff`: where an even number is reached. Halfway below it is enough, since a tie
    goes to the even one.
  * `divHalfEven_congr`: the quotient alone counts, and not how it is written.
-/
import Mathlib.Algebra.Order.Ring.Rat
import Mathlib.Data.Rat.Cast.Order
import Mathlib.Tactic.Linarith
import Vitals.Decimal.Rounding

namespace Vitals.Decimal

variable {n d n' d' m : Nat}

theorem le_divHalfEven (hd : 0 < d) (h : m * d ≤ n) : m ≤ divHalfEven n d := by
  obtain ⟨hlow, -⟩ := divHalfEven_near n d hd
  by_contra hlt
  have hstep : (divHalfEven n d + 1) * d ≤ m * d := Nat.mul_le_mul_right d (by omega)
  rw [Nat.add_mul] at hstep
  omega

theorem divHalfEven_le (hd : 0 < d) (h : n ≤ m * d) : divHalfEven n d ≤ m := by
  obtain ⟨-, hhigh⟩ := divHalfEven_near n d hd
  by_contra hlt
  have hstep : (m + 1) * d ≤ divHalfEven n d * d := Nat.mul_le_mul_right d (by omega)
  rw [Nat.add_mul] at hstep
  omega

/-! ## Ties -/

theorem even_divHalfEven (hd : 0 < d) (h : 2 * n = (2 * m + 1) * d) :
    divHalfEven n d % 2 = 0 := by
  have hsum : 2 * n = 2 * (d * m) + d := by
    rw [h, Nat.add_mul, Nat.mul_assoc, Nat.mul_comm m]
    omega
  have hhalf : d = 2 * (d / 2) := by omega
  obtain ⟨hquotient, hrest⟩ := (Nat.div_mod_unique hd).2
    (⟨by omega, by omega⟩ : d / 2 + d * m = n ∧ d / 2 < d)
  unfold divHalfEven
  simp only [hquotient, hrest, ← hhalf, lt_irrefl, if_false]
  split <;> omega

/-- An even number is reached from halfway below it on. -/
theorem le_divHalfEven_iff (hd : 0 < d) (hm : m % 2 = 0) :
    m ≤ divHalfEven n d ↔ 2 * (m * d) ≤ 2 * n + d := by
  obtain ⟨hlow, hhigh⟩ := divHalfEven_near n d hd
  constructor
  · intro h
    have := Nat.mul_le_mul_right d h
    omega
  · intro h
    by_contra hlt
    -- Short of `m` the quotient is halfway to it, so the number taken is even and next to `m`.
    have hstep : (divHalfEven n d + 1) * d ≤ m * d := Nat.mul_le_mul_right d (by omega)
    have hnext : (divHalfEven n d + 1) * d = divHalfEven n d * d + d := Nat.succ_mul _ d
    have htie : 2 * n = (2 * divHalfEven n d + 1) * d := by
      rw [Nat.add_mul, Nat.mul_assoc]
      omega
    have heven := even_divHalfEven hd htie
    have hm' : m = divHalfEven n d + 1 := Nat.eq_of_mul_eq_mul_right hd (by omega)
    omega

/-! ## The quotient alone -/

theorem divHalfEven_mul {c : Nat} (hc : 0 < c) (n d : Nat) :
    divHalfEven (c * n) (c * d) = divHalfEven n d := by
  unfold divHalfEven
  simp only [Nat.mul_div_mul_left _ _ hc, Nat.mul_mod_mul_left, Nat.mul_left_comm 2 c,
    Nat.mul_lt_mul_left hc]

theorem divHalfEven_congr (hd : 0 < d) (hd' : 0 < d') (h : n * d' = n' * d) :
    divHalfEven n d = divHalfEven n' d' := by
  calc
    divHalfEven n d = divHalfEven (d' * n) (d' * d) := (divHalfEven_mul hd' n d).symm
    _ = divHalfEven (d * n') (d * d') := by
      rw [Nat.mul_comm d' n, h, Nat.mul_comm n' d, Nat.mul_comm d' d]
    _ = divHalfEven n' d' := divHalfEven_mul hd n' d'

/-! ## Among all integers -/

theorem abs_divHalfEven_sub_le (n : Nat) (hd : 0 < d) :
    |(divHalfEven n d : ℚ) - n / d| ≤ 1 / 2 := by
  obtain ⟨hlow, hhigh⟩ := divHalfEven_near n d hd
  have hpos : (0 : ℚ) < d := Nat.cast_pos.2 hd
  have hlow' : 2 * (n : ℚ) ≤ 2 * (divHalfEven n d * d) + d := by exact_mod_cast hlow
  have hhigh' : 2 * (divHalfEven n d * d : ℚ) ≤ 2 * n + d := by exact_mod_cast hhigh
  have habove : (n : ℚ) / d ≤ divHalfEven n d + 1 / 2 := by
    rw [div_le_iff₀ hpos]
    linarith
  have hbelow : (divHalfEven n d : ℚ) - 1 / 2 ≤ n / d := by
    rw [le_div_iff₀ hpos]
    linarith
  rw [abs_le]
  constructor <;> linarith

/-- **No integer is nearer to a quotient than the one it is rounded to.** -/
theorem divHalfEven_nearest (n : Nat) (hd : 0 < d) (k : ℤ) :
    |(divHalfEven n d : ℚ) - n / d| ≤ |(k : ℚ) - n / d| := by
  have hhalf := abs_divHalfEven_sub_le n hd
  by_cases hk : k = divHalfEven n d
  · simp [hk]
  · have hone : (1 : ℚ) ≤ |(k : ℚ) - divHalfEven n d| := by
      exact_mod_cast Int.one_le_abs (sub_ne_zero.2 hk)
    have hsum := abs_sub_le (k : ℚ) (n / d) (divHalfEven n d)
    rw [abs_sub_comm ((n : ℚ) / d)] at hsum
    linarith

end Vitals.Decimal
