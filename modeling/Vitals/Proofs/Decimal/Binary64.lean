/-
  Binary fractions as the numbers that they stand for.

  * `Binary64.toRat`: the number. `Binary64.Normal`: a significand of exactly 53 bits, or zero.
  * `Binary64.Rounds x q`: `x` is `q` rounded, so no binary fraction is nearer to `q`.
  * `rounds_ofQuotient`, `rounds_ofNat`, `rounds_div`: each operation rounds its result once.
  * `Representable`, `Rounds.exact`: what is a binary fraction already is not changed.
  * `Binary64.Close k x q`: how far `x` may be from `q` after `k` roundings; `Close.div`.
  * `Binary64.Divided r x y`: `r` is `x` divided by `y`, and not by zero.
-/
import Mathlib.Algebra.Order.Field.Power
import Mathlib.Algebra.Order.Ring.Rat
import Mathlib.Data.Rat.Cast.Order
import Mathlib.Tactic.FieldSimp
import Mathlib.Tactic.Linarith
import Mathlib.Tactic.Positivity
import Mathlib.Tactic.Ring
import Vitals.Decimal.Binary64
import Vitals.Proofs.Decimal.Rounding

namespace Vitals.Binary64

variable {x y : Binary64} {q : ℚ} {num den : Nat} {e : Int}

/-- A power of naturals as it is written in theories of numbers. -/
theorem natPow_eq (m n : Nat) : Nat.pow m n = m ^ n := rfl

/-- The number that a binary fraction stands for. -/
def toRat (x : Binary64) : ℚ := x.significand * 2 ^ x.exponent

/-- Zero, or a significand of exactly 53 bits. -/
def Normal (x : Binary64) : Prop := x = zero ∨ 2 ^ 52 ≤ x.significand ∧ x.significand < 2 ^ 53

@[simp] theorem toRat_zero : zero.toRat = 0 := by simp [toRat, zero]

theorem toRat_nonneg (x : Binary64) : 0 ≤ x.toRat := by
  unfold toRat
  positivity

theorem positive_iff : x.positive = true ↔ 0 < x.toRat := by
  have hpos : (0 : ℚ) < 2 ^ x.exponent := by positivity
  rw [positive, decide_eq_true_iff, toRat, mul_pos_iff_of_pos_right hpos, Nat.cast_pos]

/-! ## Quotients -/

theorem zpow_mul_toNat (e : Int) : (2 : ℚ) ^ e * 2 ^ (-e).toNat = 2 ^ e.toNat := by
  rw [← zpow_natCast, ← zpow_natCast, ← zpow_add₀ two_ne_zero]
  congr 1
  omega

theorem quotient_pos (x : Binary64) : 0 < x.quotient.2 := Nat.two_pow_pos _

theorem toRat_eq_quotient (x : Binary64) : x.toRat = x.quotient.1 / x.quotient.2 := by
  have hpos : ((x.quotient.2 : Nat) : ℚ) ≠ 0 := Nat.cast_ne_zero.2 x.quotient_pos.ne'
  rw [eq_div_iff hpos]
  simp only [quotient, natPow_eq, toRat]
  push_cast
  rw [mul_assoc, zpow_mul_toNat]

theorem below_iff {n : Nat} : x.below n = true ↔ x.toRat < n := by
  have hpos : (0 : ℚ) < x.quotient.2 := Nat.cast_pos.2 x.quotient_pos
  rw [below, decide_eq_true_iff, toRat_eq_quotient, div_lt_iff₀ hpos]
  exact_mod_cast Iff.rfl

theorem scale_pos (num : Nat) (hden : 0 < den) (e : Int) : 0 < (scale num den e).2 :=
  Nat.mul_pos hden (Nat.two_pow_pos _)

theorem scale_eq (num den : Nat) (e : Int) :
    ((scale num den e).1 : ℚ) / (scale num den e).2 = num / den / 2 ^ e := by
  have hpow := zpow_mul_toNat e
  have hne : (2 : ℚ) ^ (-e).toNat ≠ 0 := by positivity
  simp only [scale, natPow_eq]
  push_cast
  rw [← hpow, ← mul_assoc, mul_div_mul_right _ _ hne, div_div]

/-! ## The place of the last bit -/

/-- A positive quotient has 53 bits before the one of weight `2 ^ e`. -/
def Binade (q : ℚ) (e : Int) : Prop := 2 ^ 52 * 2 ^ e ≤ q ∧ q < 2 ^ 53 * 2 ^ e

theorem scale_lt_iff (hden : 0 < den) {n : Nat} :
    (scale num den e).1 < (scale num den e).2 * n ↔ (num / den : ℚ) < n * 2 ^ e := by
  have hpos : (0 : ℚ) < (scale num den e).2 := Nat.cast_pos.2 (scale_pos num hden e)
  have hpow : (0 : ℚ) < 2 ^ e := by positivity
  rw [← div_lt_iff₀ hpow, ← scale_eq, div_lt_iff₀ hpos, mul_comm (n : ℚ)]
  exact_mod_cast Iff.rfl

/-- The bounds on a quotient that the lengths of its parts give. -/
theorem quotient_bounds (hnum : 0 < num) (hden : 0 < den) :
    (2 : ℚ) ^ ((num.log2 : Int) - den.log2 - 1) ≤ num / den ∧
      (num / den : ℚ) < 2 ^ ((num.log2 : Int) - den.log2 + 1) := by
  have hpos : (0 : ℚ) < den := Nat.cast_pos.2 hden
  have hnumLow : (2 : ℚ) ^ (num.log2 : Int) ≤ num := by
    rw [zpow_natCast]
    exact_mod_cast Nat.log2_self_le hnum.ne'
  have hnumHigh : (num : ℚ) < 2 ^ ((num.log2 : Int) + 1) := by
    have : num < 2 ^ (num.log2 + 1) := Nat.lt_log2_self
    exact_mod_cast this
  have hdenLow : (2 : ℚ) ^ (den.log2 : Int) ≤ den := by
    rw [zpow_natCast]
    exact_mod_cast Nat.log2_self_le hden.ne'
  have hdenHigh : (den : ℚ) < 2 ^ ((den.log2 : Int) + 1) := by
    have : den < 2 ^ (den.log2 + 1) := Nat.lt_log2_self
    exact_mod_cast this
  constructor
  · rw [le_div_iff₀ hpos]
    calc (2 : ℚ) ^ ((num.log2 : Int) - den.log2 - 1) * den
        ≤ 2 ^ ((num.log2 : Int) - den.log2 - 1) * 2 ^ ((den.log2 : Int) + 1) := by gcongr
      _ = 2 ^ (num.log2 : Int) := by
        rw [← zpow_add₀ two_ne_zero]
        congr 1
        omega
      _ ≤ num := hnumLow
  · rw [div_lt_iff₀ hpos]
    calc (num : ℚ) < 2 ^ ((num.log2 : Int) + 1) := hnumHigh
      _ = 2 ^ ((num.log2 : Int) - den.log2 + 1) * 2 ^ (den.log2 : Int) := by
        rw [← zpow_add₀ two_ne_zero]
        congr 1
        omega
      _ ≤ 2 ^ ((num.log2 : Int) - den.log2 + 1) * den := by gcongr

theorem exists_binade (hnum : 0 < num) (hden : 0 < den) :
    ∃ e, ofQuotient num den = roundAt num den e ∧ Binade (num / den) e := by
  obtain ⟨hlow, hhigh⟩ := quotient_bounds hnum hden
  have hshift : ∀ k f : Int, (2 : ℚ) ^ k * 2 ^ f = 2 ^ (k + f) := fun k f =>
    (zpow_add₀ two_ne_zero k f).symm
  have h52 : (2 : ℚ) ^ 52 = 2 ^ (52 : Int) := by norm_cast
  have h53 : (2 : ℚ) ^ 53 = 2 ^ (53 : Int) := by norm_cast
  have hzero : ¬ (num = 0 ∨ den = 0) := by omega
  by_cases hless : (scale num den (num.log2 - den.log2 - 52)).1 <
      (scale num den (num.log2 - den.log2 - 52)).2 * 2 ^ 52
  · refine ⟨num.log2 - den.log2 - 52 - 1, ?_, ?_⟩
    · simp only [ofQuotient, hzero, if_false, natPow_eq, hless, if_true]
    · rw [scale_lt_iff hden, Nat.cast_pow, Nat.cast_ofNat, h52, hshift] at hless
      unfold Binade
      rw [h52, h53, hshift, hshift]
      constructor
      · convert hlow using 2
        omega
      · convert hless using 2
        omega
  · refine ⟨num.log2 - den.log2 - 52, ?_, ?_⟩
    · simp only [ofQuotient, hzero, if_false, natPow_eq, hless]
    · rw [scale_lt_iff hden, Nat.cast_pow, Nat.cast_ofNat] at hless
      unfold Binade
      rw [h53, hshift]
      constructor
      · exact not_lt.1 hless
      · convert hhigh using 2
        omega

theorem toRat_roundAt (num den : Nat) (e : Int) : (roundAt num den e).toRat =
    Decimal.divHalfEven (scale num den e).1 (scale num den e).2 * 2 ^ e := by
  simp only [roundAt, natPow_eq, toRat]
  split
  · next hcarry =>
    rw [hcarry, zpow_add₀ two_ne_zero]
    norm_num
    ring
  · rfl

theorem normal_roundAt (hden : 0 < den) (h : Binade (num / den) e) :
    (roundAt num den e).Normal := by
  obtain ⟨hlow, hhigh⟩ := h
  have hle : 2 ^ 52 * (scale num den e).2 ≤ (scale num den e).1 := by
    rw [mul_comm, ← not_lt, scale_lt_iff hden, not_lt]
    exact_mod_cast hlow
  have hlt : (scale num den e).1 < (scale num den e).2 * 2 ^ 53 := by
    rw [scale_lt_iff hden]
    exact_mod_cast hhigh
  have hpos := scale_pos num hden e
  have hmin := Decimal.le_divHalfEven hpos hle
  have hmax := Decimal.divHalfEven_le hpos (hlt.le.trans_eq (Nat.mul_comm _ _))
  simp only [roundAt, natPow_eq]
  right
  split
  · norm_num
  · constructor <;> dsimp only <;> omega

/-! ## Rounding -/

/-- A binary fraction is some number rounded: none is nearer to it. -/
structure Rounds (x : Binary64) (q : ℚ) : Prop where
  normal : x.Normal
  nearest : ∀ y : Binary64, y.Normal → |x.toRat - q| ≤ |y.toRat - q|

/-- A binary fraction is a multiple of the last bit, or else it is small. -/
theorem Normal.grid (h : y.Normal) (e : Int) :
    (∃ k : Int, y.toRat = k * 2 ^ e) ∨ y.toRat ≤ 2 ^ 52 * 2 ^ e := by
  rcases h with rfl | ⟨-, hhigh⟩
  · exact Or.inl ⟨0, by simp⟩
  · by_cases he : e ≤ y.exponent
    · refine Or.inl ⟨y.significand * 2 ^ (y.exponent - e).toNat, ?_⟩
      have hexp : y.exponent = ((y.exponent - e).toNat : Int) + e := by omega
      rw [toRat, hexp, zpow_add₀ two_ne_zero, zpow_natCast]
      push_cast
      have : ((y.exponent - e).toNat : Int) + e - e = ((y.exponent - e).toNat : Int) := by omega
      rw [this, Int.toNat_natCast, mul_assoc]
    · refine Or.inr ?_
      have hsig : (y.significand : ℚ) ≤ 2 ^ 53 := by exact_mod_cast hhigh.le
      calc y.toRat ≤ 2 ^ 53 * 2 ^ (e - 1) := by
            unfold toRat
            gcongr
            · norm_num
            · omega
        _ = 2 ^ 52 * 2 ^ e := by
          rw [zpow_sub₀ two_ne_zero]
          norm_num
          ring

/-- What is rounded off at a bit is what is rounded off of the scaled quotient. -/
theorem roundAt_sub (num den : Nat) (e : Int) : (roundAt num den e).toRat - num / den =
    (Decimal.divHalfEven (scale num den e).1 (scale num den e).2 -
      (scale num den e).1 / (scale num den e).2) * 2 ^ e := by
  have hpow : (2 : ℚ) ^ e ≠ 0 := zpow_ne_zero e two_ne_zero
  rw [toRat_roundAt, scale_eq, sub_mul, div_mul_cancel₀ _ hpow]

theorem roundAt_nearest_grid (num : Nat) (hden : 0 < den) (e k : Int) :
    |(roundAt num den e).toRat - num / den| ≤ |k * 2 ^ e - (num / den : ℚ)| := by
  have hpow : (2 : ℚ) ^ e ≠ 0 := zpow_ne_zero e two_ne_zero
  have hgrid : (k * 2 ^ e - num / den : ℚ) =
      (k - (scale num den e).1 / (scale num den e).2) * 2 ^ e := by
    rw [scale_eq, sub_mul, div_mul_cancel₀ _ hpow]
  have hnear := Decimal.divHalfEven_nearest (scale num den e).1 (scale_pos num hden e) k
  rw [roundAt_sub, hgrid, abs_mul, abs_mul]
  gcongr

theorem roundAt_near (num : Nat) (hden : 0 < den) (e : Int) :
    |(roundAt num den e).toRat - num / den| ≤ 2 ^ e / 2 := by
  have hpow : (0 : ℚ) < 2 ^ e := by positivity
  have hnear := Decimal.abs_divHalfEven_sub_le (scale num den e).1 (scale_pos num hden e)
  rw [roundAt_sub, abs_mul, abs_of_pos hpow]
  calc _ ≤ (1 / 2 : ℚ) * 2 ^ e := by gcongr
    _ = 2 ^ e / 2 := by ring

theorem rounds_roundAt (hden : 0 < den) (h : Binade (num / den) e) :
    (roundAt num den e).Rounds (num / den) where
  normal := normal_roundAt hden h
  nearest y hy := by
    rcases hy.grid e with ⟨k, hk⟩ | hsmall
    · rw [hk]
      exact roundAt_nearest_grid num hden e k
    · -- The least multiple with 53 bits lies between.
      have hbetween := roundAt_nearest_grid num hden e (2 ^ 52)
      rw [Int.cast_pow, Int.cast_ofNat, abs_of_nonpos (sub_nonpos.2 h.1)] at hbetween
      rw [abs_of_nonpos (sub_nonpos.2 (hsmall.trans h.1))]
      linarith

theorem rounds_zero : zero.Rounds 0 := ⟨Or.inl rfl, fun y _ => by simp⟩

/-- **The value of a quotient is the quotient rounded.** -/
theorem rounds_ofQuotient (num : Nat) (hden : 0 < den) :
    (ofQuotient num den).Rounds (num / den) := by
  rcases Nat.eq_zero_or_pos num with rfl | hnum
  · simpa [ofQuotient] using rounds_zero
  · obtain ⟨e, heq, hbinade⟩ := exists_binade hnum hden
    rw [heq]
    exact rounds_roundAt hden hbinade

theorem error_ofQuotient (num : Nat) (hden : 0 < den) :
    |(ofQuotient num den).toRat - num / den| ≤ num / den / 2 ^ 53 := by
  rcases Nat.eq_zero_or_pos num with rfl | hnum
  · simp [ofQuotient]
  · obtain ⟨e, heq, hbinade⟩ := exists_binade hnum hden
    rw [heq]
    calc _ ≤ (2 : ℚ) ^ e / 2 := roundAt_near num hden e
      _ = 2 ^ 52 * 2 ^ e / 2 ^ 53 := by ring
      _ ≤ _ := by
        gcongr
        exact hbinade.1

theorem rounds_ofNat (n : Nat) : (ofNat n).Rounds n := by
  simpa [ofNat] using rounds_ofQuotient n Nat.one_pos

theorem rounds_div (x : Binary64) (hy : 0 < y.toRat) : (x.div y).Rounds (x.toRat / y.toRat) := by
  have hx := toRat_eq_quotient x
  have hy' := toRat_eq_quotient y
  have hnum : 0 < y.quotient.1 := by
    rw [hy'] at hy
    by_contra h
    simp [Nat.eq_zero_of_not_pos h] at hy
  have h := rounds_ofQuotient (x.quotient.1 * y.quotient.2) (Nat.mul_pos x.quotient_pos hnum)
  push_cast at h
  rw [hx, hy', div_div_div_eq]
  exact h

namespace Rounds

/-- Rounding moves a number by half of its last bit at most. -/
theorem error_le (h : x.Rounds q) (hq : 0 ≤ q) : |x.toRat - q| ≤ q / 2 ^ 53 := by
  have hquotient : ((q.num.toNat : Nat) : ℚ) / q.den = q := by
    have hnum : ((q.num.toNat : Nat) : ℚ) = q.num := by
      exact_mod_cast Int.toNat_of_nonneg (Rat.num_nonneg.2 hq)
    rw [hnum, Rat.num_div_den]
  have hother := rounds_ofQuotient q.num.toNat q.den_pos
  have herror := error_ofQuotient q.num.toNat q.den_pos
  rw [hquotient] at herror
  exact (h.nearest _ hother.normal).trans herror

theorem pos (h : x.Rounds q) (hq : 0 < q) : 0 < x.toRat := by
  have herror := (abs_le.1 (h.error_le hq.le)).1
  have : q / 2 ^ 53 < q := div_lt_self hq (by norm_num)
  linarith

end Rounds

/-! ## Numbers that are binary fractions -/

/-- Some binary fraction stands for a number. -/
def Representable (q : ℚ) : Prop := ∃ x : Binary64, x.Normal ∧ x.toRat = q

theorem Rounds.exact (h : x.Rounds q) (hq : Representable q) : x.toRat = q := by
  obtain ⟨y, hy, rfl⟩ := hq
  have := h.nearest y hy
  rw [sub_self, abs_zero, abs_nonpos_iff, sub_eq_zero] at this
  exact this

theorem Normal.representable (h : x.Normal) : Representable x.toRat := ⟨x, h, rfl⟩

theorem Representable.mul_zpow (h : Representable q) (k : Int) : Representable (q * 2 ^ k) := by
  obtain ⟨x, hx, rfl⟩ := h
  rcases hx with rfl | hx
  · exact ⟨zero, Or.inl rfl, by simp⟩
  · refine ⟨⟨x.significand, x.exponent + k⟩, Or.inr hx, ?_⟩
    simp only [toRat]
    rw [zpow_add₀ two_ne_zero, mul_assoc]

theorem representable_natCast {n : Nat} (h : n < 2 ^ 53) : Representable n := by
  rcases Nat.eq_zero_or_pos n with rfl | hn
  · exact ⟨zero, Or.inl rfl, by simp⟩
  · have hlog : n.log2 ≤ 52 := Nat.lt_succ_iff.1 ((Nat.log2_lt hn.ne').2 h)
    have hlow := Nat.log2_self_le hn.ne'
    have hhigh : n < 2 ^ (n.log2 + 1) := Nat.lt_log2_self
    refine ⟨⟨n * 2 ^ (52 - n.log2), n.log2 - 52⟩, Or.inr ⟨?_, ?_⟩, ?_⟩
    · calc 2 ^ 52 = 2 ^ n.log2 * 2 ^ (52 - n.log2) := by rw [← Nat.pow_add]; congr 1; omega
        _ ≤ n * 2 ^ (52 - n.log2) := Nat.mul_le_mul_right _ hlow
    · calc n * 2 ^ (52 - n.log2) < 2 ^ (n.log2 + 1) * 2 ^ (52 - n.log2) :=
            Nat.mul_lt_mul_of_pos_right hhigh (Nat.two_pow_pos _)
        _ = 2 ^ 53 := by rw [← Nat.pow_add]; congr 1; omega
    · simp only [toRat]
      push_cast
      rw [mul_assoc, ← zpow_natCast, ← zpow_add₀ two_ne_zero]
      have : ((52 - n.log2 : Nat) : Int) + (n.log2 - 52) = 0 := by omega
      rw [this, zpow_zero, mul_one]

theorem toRat_ofNat {n : Nat} (h : n < 2 ^ 53) : (ofNat n).toRat = n :=
  (rounds_ofNat n).exact (representable_natCast h)

/-- Rounding keeps a natural on its side of every smaller one. -/
theorem toRat_ofNat_lt_iff {n k : Nat} (hk : k < 2 ^ 53) : (ofNat n).toRat < k ↔ n < k := by
  by_cases hn : n < 2 ^ 53
  · rw [toRat_ofNat hn, Nat.cast_lt]
  · have herror := (abs_le.1 ((rounds_ofNat n).error_le (Nat.cast_nonneg n))).1
    have hlarge : (2 : ℚ) ^ 53 ≤ n := by exact_mod_cast not_lt.1 hn
    have hsmall : (k : ℚ) + 1 ≤ 2 ^ 53 := by exact_mod_cast hk
    refine iff_of_false ?_ (by omega)
    rw [not_lt]
    linarith

/-- Division by a power of two is exact. -/
theorem toRat_div_two_pow (hx : x.Normal) {k : Nat} (hk : k < 53) :
    (x.div (ofNat (2 ^ k))).toRat = x.toRat / 2 ^ k := by
  have hpow : (ofNat (2 ^ k)).toRat = 2 ^ k := by
    rw [toRat_ofNat (Nat.pow_lt_pow_right (by omega) hk)]
    push_cast
    rfl
  have hrounds := rounds_div x (y := ofNat (2 ^ k)) (by rw [hpow]; positivity)
  rw [hpow] at hrounds
  refine hrounds.exact ?_
  have := hx.representable.mul_zpow (-k)
  rwa [zpow_neg, zpow_natCast, ← div_eq_mul_inv] at this

/-! ## Several roundings -/

/-- A binary fraction is as near to a number as `k` roundings leave it. -/
def Close (k : Nat) (x : Binary64) (q : ℚ) : Prop := |x.toRat - q| ≤ k * (q / 2 ^ 53)

/-- A binary fraction comes from a division, and not from one by zero. -/
def Divided (r x y : Binary64) : Prop := 0 < y.toRat ∧ r = x.div y

theorem Rounds.close (h : x.Rounds q) (hq : 0 ≤ q) : x.Close 1 q := by
  unfold Close
  simpa using h.error_le hq

theorem close_of_eq (h : x.toRat = q) : x.Close 0 q := by simp [Close, h]

/-- How far a quotient is moved when both of its parts are. -/
theorem abs_div_sub_le {a b c d r s : ℚ} (ha : 0 ≤ a) (hb : 0 < b) (hd : 0 < d)
    (hr : |c - a| ≤ r * a) (hs : |d - b| ≤ s * b) :
    |c / d - a / b| * (1 - s) ≤ (r + s) * (a / b) := by
  have hlow : b * (1 - s) ≤ d := by
    have := (abs_le.1 hs).1
    linarith
  have hsplit : (c / d - a / b) * d = (c - a) - a / b * (d - b) := by
    field_simp
    ring
  have hmoved : |c / d - a / b| * d ≤ (r + s) * a := by
    calc |c / d - a / b| * d = |(c / d - a / b) * d| := by rw [abs_mul, abs_of_pos hd]
      _ ≤ |c - a| + |a / b * (d - b)| := by rw [hsplit]; exact abs_sub _ _
      _ = |c - a| + a / b * |d - b| := by rw [abs_mul, abs_of_nonneg (div_nonneg ha hb.le)]
      _ ≤ r * a + a / b * (s * b) := by gcongr
      _ = (r + s) * a := by field_simp
  refine le_of_mul_le_mul_right ?_ hb
  calc |c / d - a / b| * (1 - s) * b = |c / d - a / b| * (b * (1 - s)) := by ring
    _ ≤ |c / d - a / b| * d := by gcongr
    _ ≤ (r + s) * a := hmoved
    _ = (r + s) * (a / b) * b := by field_simp

/-- **Roundings add up in a division**, and it has one of its own. What they do to each other comes
to less than another one. -/
theorem Close.div {j k : Nat} {a b : ℚ} (hx : x.Close j a) (hy : y.Close k b) (ha : 0 ≤ a)
    (hb : 0 < b) (hjk : (j + k + 1) * (k + 1) ≤ 2 ^ 53) : (x.div y).Close (j + k + 2) (a / b) := by
  unfold Close at hx hy ⊢
  have hjk' : ((j : ℚ) + k + 1) * (k + 1) ≤ 2 ^ 53 := by exact_mod_cast hjk
  have hk : (k : ℚ) < 2 ^ 53 := by
    have : k + 1 ≤ 2 ^ 53 := (Nat.le_mul_of_pos_left (k + 1) (by omega)).trans hjk
    exact_mod_cast this
  have hless : (0 : ℚ) < 1 - k / 2 ^ 53 := sub_pos.2 ((div_lt_one (by norm_num)).2 hk)
  have hypos : 0 < y.toRat := by
    have hlow := (abs_le.1 hy).1
    have : b - k * (b / 2 ^ 53) = b * (1 - k / 2 ^ 53) := by ring
    have := mul_pos hb hless
    linarith
  have hmoved := abs_div_sub_le (c := x.toRat) (d := y.toRat) (r := j / 2 ^ 53) (s := k / 2 ^ 53)
    ha hb hypos (by linarith) (by linarith)
  have hround := (rounds_div x hypos).error_le (div_nonneg x.toRat_nonneg hypos.le)
  have hstep : |x.toRat / y.toRat - a / b| * (1 + 1 / 2 ^ 53) ≤ (j + k + 1) * (a / b / 2 ^ 53) := by
    have hkey : (1 + 1 / 2 ^ 53) * ((j : ℚ) + k) ≤ (j + k + 1) * (1 - k / 2 ^ 53) := by linarith
    have hunit : 0 ≤ a / b / 2 ^ 53 := by positivity
    refine le_of_mul_le_mul_right ?_ hless
    calc |x.toRat / y.toRat - a / b| * (1 + 1 / 2 ^ 53) * (1 - k / 2 ^ 53)
        = (1 + 1 / 2 ^ 53) * (|x.toRat / y.toRat - a / b| * (1 - k / 2 ^ 53)) := by ring
      _ ≤ (1 + 1 / 2 ^ 53) * ((j / 2 ^ 53 + k / 2 ^ 53) * (a / b)) := by gcongr
      _ = (1 + 1 / 2 ^ 53) * ((j : ℚ) + k) * (a / b / 2 ^ 53) := by ring
      _ ≤ (j + k + 1) * (1 - k / 2 ^ 53) * (a / b / 2 ^ 53) := by gcongr
      _ = (j + k + 1) * (a / b / 2 ^ 53) * (1 - k / 2 ^ 53) := by ring
  have hsum := abs_sub_le (x.div y).toRat (x.toRat / y.toRat) (a / b)
  have hhigh := (le_abs_self (x.toRat / y.toRat - a / b))
  push_cast
  linarith

end Vitals.Binary64
