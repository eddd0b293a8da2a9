/-
  Sizes as reports write them.

  * `SizeUnit.Suits`: the largest unit that does not exceed a number of bytes.
  * `Size.Fits`: what holds of a size while its unit grows; `Fits.grow` is one step and `Fits.scale`
    all of them.
  * `Shows`: which number of which unit a text shows. `Shows.unique`: it is one of one only.
  * `size_written`: the unit suits and is reached by the number, which is rounded to one place last.
    So it is below 1024 or, next to the limit of a unit, 1024 itself: `size_at_limit`.
-/
import Mathlib.Data.List.Chain
import Vitals.Proofs.Decimal.Binary64
import Vitals.Proofs.Text.Json
import Vitals.Report.Quantity

namespace Vitals.Report

open Text.Json

namespace SizeUnit

/-- How many bytes a unit has. -/
def bytes : SizeUnit → Nat
  | byte => 1 | kibibyte => 2 ^ 10 | mebibyte => 2 ^ 20 | gibibyte => 2 ^ 30

/-- A unit is the next one after another. -/
def Follows (u v : SizeUnit) : Prop := v.bytes = u.bytes * 1024

/-- A unit is the one for a number of bytes: bytes below 1024 of them, and otherwise the largest
unit that does not exceed it. -/
structure Suits (u : SizeUnit) (n : Nat) : Prop where
  byte_iff : u = .byte ↔ n < 1024
  reached : u ≠ .byte → u.bytes ≤ n
  largest : ∀ v : SizeUnit, v.bytes ≤ n → v.bytes ≤ u.bytes

theorem bytes_pos (u : SizeUnit) : 0 < u.bytes := by cases u <;> decide

theorem bytes_le (u : SizeUnit) : u.bytes ≤ 2 ^ 30 := by cases u <;> decide

theorem isChain_above : (byte :: above).IsChain Follows := by
  simp [above, Follows, bytes]

end SizeUnit

/-! ## The unit grows -/

namespace Size

/-- A size is some number of bytes, and its unit is reached by it. -/
structure Fits (n : Nat) (s : Size) : Prop where
  normal : s.amount.Normal
  amount : s.amount.toRat = (Binary64.ofNat n).toRat / s.unit.bytes
  reached : s.unit = .byte ∨ s.unit.bytes ≤ n

variable {n : Nat} {s : Size} {v : SizeUnit} {us : List SizeUnit}

theorem Fits.below_iff (h : s.Fits n) : s.amount.below 1024 = true ↔ n < 1024 * s.unit.bytes := by
  have hle := s.unit.bytes_le
  have hpos : (0 : ℚ) < s.unit.bytes := Nat.cast_pos.2 s.unit.bytes_pos
  rw [Binary64.below_iff, h.amount, div_lt_iff₀ hpos, ← Nat.cast_mul,
    Binary64.toRat_ofNat_lt_iff (by omega)]

theorem Fits.grow (h : s.Fits n) (hv : s.unit.Follows v) (hlarge : ¬ s.amount.below 1024 = true) :
    (⟨s.amount.div (.ofNat 1024), v⟩ : Size).Fits n where
  normal := by
    have hpos : 0 < (Binary64.ofNat 1024).toRat := by
      rw [Binary64.toRat_ofNat (by norm_num)]
      norm_num
    exact (Binary64.rounds_div _ hpos).normal
  amount := by
    have hdiv := Binary64.toRat_div_two_pow h.normal (k := 10) (by norm_num)
    have hbytes : (v.bytes : ℚ) = s.unit.bytes * 2 ^ 10 := by
      rw [hv]
      push_cast
      norm_num
    have hunit : (1024 : Nat) = 2 ^ 10 := rfl
    simp only [hunit, hdiv, h.amount, hbytes, div_div]
  reached := by
    rw [h.below_iff] at hlarge
    rw [SizeUnit.Follows] at hv
    right
    dsimp only
    omega

/-- The unit grows until less than 1024 of it are left, or there is none above it. -/
theorem Fits.scale (h : s.Fits n) (hus : (s.unit :: us).IsChain SizeUnit.Follows) :
    (s.scale us).Fits n ∧
      ((s.scale us).amount.below 1024 = true ∨ (s.scale us).unit = us.getLastD s.unit) := by
  induction us generalizing s with
  | nil => exact ⟨h, Or.inr rfl⟩
  | cons v us ih =>
    unfold Size.scale
    rw [List.isChain_cons_cons] at hus
    split
    · next hbelow => exact ⟨h, Or.inl hbelow⟩
    · next hlarge =>
      obtain ⟨hfits, hlast⟩ := ih (h.grow hus.1 hlarge) hus.2
      rw [List.getLastD_cons]
      exact ⟨hfits, hlast⟩

theorem fits_ofBytes (bytes : UInt64) : (ofBytes bytes).Fits bytes.toNat ∧
    ((ofBytes bytes).amount.below 1024 = true ∨ (ofBytes bytes).unit = .gibibyte) := by
  have hstart : (⟨.ofNat bytes.toNat, .byte⟩ : Size).Fits bytes.toNat :=
    ⟨(Binary64.rounds_ofNat _).normal, by simp [SizeUnit.bytes], Or.inl rfl⟩
  exact hstart.scale SizeUnit.isChain_above

theorem suits_ofBytes (bytes : UInt64) : (ofBytes bytes).unit.Suits bytes.toNat := by
  obtain ⟨hfits, hend⟩ := fits_ofBytes bytes
  have hreached := hfits.reached
  rw [hfits.below_iff] at hend
  generalize (ofBytes bytes).unit = u at hreached hend
  refine ⟨?_, hreached.resolve_left, fun v hv => ?_⟩
  · cases u <;> simp [SizeUnit.bytes] at hreached hend ⊢ <;> omega
  · cases u <;> cases v <;> simp [SizeUnit.bytes] at hv hend ⊢ <;> omega

end Size

/-! ## What a text shows -/

/-- A text shows a number of some unit: a whole one, or one with a place after the point. -/
inductive Shows : String → ℚ → SizeUnit → Prop where
  | whole (n : Nat) (u : SizeUnit) : Shows s!"{n} {u.symbol}" n u
  | tenths (n d : Nat) (u : SizeUnit) : d < 10 → Shows s!"{n}.{d} {u.symbol}" (n + d / 10) u

variable {text : String} {a b : ℚ} {u v : SizeUnit}

theorem SizeUnit.symbol_inj (h : u.symbol.toList = v.symbol.toList) : u = v := by
  cases u <;> cases v <;> first | rfl | exact absurd h (by decide)

theorem Shows.chars (h : Shows text a u) :
    (∃ n : Nat, a = n ∧ text.toList = Nat.toDigits 10 n ++ ' ' :: u.symbol.toList) ∨
    ∃ n d : Nat, a = n + d / 10 ∧
      text.toList = Nat.toDigits 10 n ++ '.' :: (Nat.toDigits 10 d ++ ' ' :: u.symbol.toList) := by
  have htext : ∀ s : String, toString s = s := fun _ => rfl
  cases h with
  | whole n => exact Or.inl ⟨n, rfl, by simp [htext]⟩
  | tenths n d => exact Or.inr ⟨n, d, rfl, by simp [htext]⟩

/-- A text shows one number of one unit. -/
theorem Shows.unique (h : Shows text a u) (h' : Shows text b v) : a = b ∧ u = v := by
  have hblank : ∀ r, Stops (' ' :: r) := fun r => stops_cons rfl
  have hpoint : ∀ r, Stops ('.' :: r) := fun r => stops_cons rfl
  rcases h.chars with ⟨n, rfl, hn⟩ | ⟨n, d, rfl, hn⟩ <;>
    rcases h'.chars with ⟨m, rfl, hm⟩ | ⟨m, e, rfl, hm⟩ <;> rw [hn] at hm
  · obtain ⟨rfl, hrest⟩ := toDigits_append_inj (hblank _) (hblank _) hm
    exact ⟨rfl, SizeUnit.symbol_inj (List.cons.inj hrest).2⟩
  · obtain ⟨-, hrest⟩ := toDigits_append_inj (hblank _) (hpoint _) hm
    exact absurd (List.cons.inj hrest).1 (by decide)
  · obtain ⟨-, hrest⟩ := toDigits_append_inj (hpoint _) (hblank _) hm
    exact absurd (List.cons.inj hrest).1 (by decide)
  · obtain ⟨rfl, hrest⟩ := toDigits_append_inj (hpoint _) (hpoint _) hm
    obtain ⟨rfl, hsymbol⟩ := toDigits_append_inj (hblank _) (hblank _) (List.cons.inj hrest).2
    exact ⟨rfl, SizeUnit.symbol_inj (List.cons.inj hsymbol).2⟩

/-- The tenths in a binary fraction, rounded. -/
def tenthsOf (x : Binary64) : Nat := Decimal.divHalfEven (x.quotient.1 * 10) x.quotient.2

theorem fixed_one (x : Binary64) :
    Decimal.fixed 1 x = s!"{tenthsOf x / 10}.{tenthsOf x % 10}" := by
  have hlength : 1 - (Nat.toDigits 10 (tenthsOf x % 10)).length = 0 := by
    have := List.length_pos_iff.2 (Nat.toDigits_ne_nil (n := tenthsOf x % 10) (b := 10))
    omega
  have hpadded : Decimal.padded 1 (tenthsOf x % 10) = toString (tenthsOf x % 10) := by
    apply String.toList_injective
    simp [Decimal.padded, hlength]
  show toString (tenthsOf x / 10) ++ "." ++ Decimal.padded 1 (tenthsOf x % 10) = _
  rw [hpadded]
  rfl

variable {x : Binary64} {n d : Nat}

theorem tenthsOf_near (x : Binary64) : |(tenthsOf x : ℚ) / 10 - x.toRat| ≤ 1 / 20 := by
  have hnear := Decimal.abs_divHalfEven_sub_le (x.quotient.1 * 10) x.quotient_pos
  have hvalue : ((x.quotient.1 * 10 : Nat) : ℚ) / x.quotient.2 = x.toRat * 10 := by
    rw [Binary64.toRat_eq_quotient]
    push_cast
    ring
  rw [hvalue, abs_le] at hnear
  unfold tenthsOf
  rw [abs_le]
  constructor <;> linarith

theorem ten_le_tenthsOf (h : 1 ≤ x.toRat) : 10 ≤ tenthsOf x := by
  have hpos : (0 : ℚ) < x.quotient.2 := Nat.cast_pos.2 x.quotient_pos
  rw [Binary64.toRat_eq_quotient, one_le_div hpos, Nat.cast_le] at h
  exact Decimal.le_divHalfEven x.quotient_pos (by omega)

theorem tenthsOf_eq (hd : 0 < d) (h : x.toRat = n / d) :
    tenthsOf x = Decimal.divHalfEven (n * 10) d := by
  have hpos : ((x.quotient.2 : Nat) : ℚ) ≠ 0 := Nat.cast_ne_zero.2 x.quotient_pos.ne'
  rw [Binary64.toRat_eq_quotient, div_eq_div_iff hpos (Nat.cast_ne_zero.2 hd.ne')] at h
  have hcross : x.quotient.1 * d = n * x.quotient.2 := by exact_mod_cast h
  refine Decimal.divHalfEven_congr x.quotient_pos hd ?_
  rw [Nat.mul_right_comm, hcross, Nat.mul_right_comm]

theorem shows_tenths (x : Binary64) (u : SizeUnit) :
    Shows s!"{Decimal.fixed 1 x} {u.symbol}" (tenthsOf x / 10) u := by
  have h := Shows.tenths (tenthsOf x / 10) (tenthsOf x % 10) u (Nat.mod_lt _ (by omega))
  have hsum : ((tenthsOf x / 10 : Nat) : ℚ) + (tenthsOf x % 10 : Nat) / 10 = tenthsOf x / 10 := by
    have hdivision : ((10 * (tenthsOf x / 10) + tenthsOf x % 10 : Nat) : ℚ) = tenthsOf x :=
      congrArg _ (Nat.div_add_mod _ _)
    push_cast at hdivision
    linarith
  rw [hsum] at h
  rw [fixed_one]
  exact h

/-! ## The number of a size -/

/-- A number of a unit stands for some bytes. -/
structure Written (n : Nat) (number : ℚ) (u : SizeUnit) : Prop where
  suits : u.Suits n
  exact : u = .byte → number = n
  near : |number - n / u.bytes| ≤ 1 / 20 + n / u.bytes / 2 ^ 53
  one_le : u ≠ .byte → 1 ≤ number
  /-- The number does not go beyond 1024, and reaches it from a twentieth of a unit below on. -/
  le_limit : u ≠ .gibibyte → number ≤ 1024
  lt_limit_iff : u ≠ .gibibyte → (number < 1024 ↔ 20 * n + u.bytes < 20480 * u.bytes)

theorem written_byte (h : SizeUnit.byte.Suits n) : Written n n .byte where
  suits := h
  exact _ := rfl
  near := by
    simp only [SizeUnit.bytes, Nat.cast_one, div_one, sub_self, abs_zero]
    positivity
  one_le h := absurd rfl h
  le_limit _ := by exact_mod_cast (h.byte_iff.1 rfl).le
  lt_limit_iff _ := by
    have hn := h.byte_iff.1 rfl
    refine iff_of_true (by exact_mod_cast hn) ?_
    simp only [SizeUnit.bytes]
    omega

theorem written_tenths (bytes : UInt64) (hunit : (Size.ofBytes bytes).unit ≠ .byte) :
    Written bytes.toNat (tenthsOf (Size.ofBytes bytes).amount / 10) (Size.ofBytes bytes).unit := by
  obtain ⟨hfits, hend⟩ := Size.fits_ofBytes bytes
  have hsuits := Size.suits_ofBytes bytes
  generalize Size.ofBytes bytes = s at hunit hfits hend hsuits
  generalize bytes.toNat = n at hfits hsuits
  have hpos : (0 : ℚ) < s.unit.bytes := Nat.cast_pos.2 s.unit.bytes_pos
  have hbytes := s.unit.bytes_le
  -- Below the largest unit the number of bytes is small enough to be exact.
  have htenths : s.unit ≠ .gibibyte →
      n < 1024 * s.unit.bytes ∧ tenthsOf s.amount = Decimal.divHalfEven (n * 10) s.unit.bytes := by
    intro hgib
    have hn := hfits.below_iff.1 (hend.resolve_right hgib)
    refine ⟨hn, tenthsOf_eq s.unit.bytes_pos ?_⟩
    rw [hfits.amount, Binary64.toRat_ofNat (by omega)]
  refine ⟨hsuits, fun h => absurd h hunit, ?_, fun _ => ?_, fun hgib => ?_, fun hgib => ?_⟩
  · have hround := (Binary64.rounds_ofNat n).error_le (Nat.cast_nonneg n)
    have hamount : |s.amount.toRat - n / s.unit.bytes| ≤ n / s.unit.bytes / 2 ^ 53 := by
      rw [hfits.amount, ← sub_div, abs_div, abs_of_pos hpos, div_right_comm]
      gcongr
    calc _ ≤ |(tenthsOf s.amount : ℚ) / 10 - s.amount.toRat| +
          |s.amount.toRat - n / s.unit.bytes| := abs_sub_le _ _ _
      _ ≤ _ := add_le_add (tenthsOf_near _) hamount
  · have hreached : 1 ≤ s.amount.toRat := by
      rw [hfits.amount, one_le_div hpos, ← not_lt, Binary64.toRat_ofNat_lt_iff (by omega), not_lt]
      exact hsuits.reached hunit
    have : (10 : ℚ) ≤ tenthsOf s.amount := by exact_mod_cast ten_le_tenthsOf hreached
    linarith
  · obtain ⟨hn, heq⟩ := htenths hgib
    have hle : tenthsOf s.amount ≤ 10240 := by
      rw [heq]
      exact Decimal.divHalfEven_le s.unit.bytes_pos (by omega)
    have : (tenthsOf s.amount : ℚ) ≤ 10240 := by exact_mod_cast hle
    linarith
  · have hlimit : (tenthsOf s.amount : ℚ) / 10 < 1024 ↔ tenthsOf s.amount < 10240 := by
      rw [div_lt_iff₀ (by norm_num)]
      norm_num
    rw [hlimit, (htenths hgib).2, ← not_le, Decimal.le_divHalfEven_iff s.unit.bytes_pos
      (by norm_num)]
    omega

/-- **Sizes are written in the largest unit that does not exceed them.** The text shows one number
of one unit. The number is exact for bytes and otherwise rounded to one place, and at least one. It
stays below 1024 in all units but the largest, except within a twentieth of a unit below the next
one, where it is 1024. -/
theorem size_written (bytes : UInt64) : ∃ number unit, Shows (byteSize bytes) number unit ∧
    (∀ number' unit', Shows (byteSize bytes) number' unit' → number' = number ∧ unit' = unit) ∧
    Written bytes.toNat number unit := by
  by_cases hunit : (Size.ofBytes bytes).unit = .byte
  · have hshows : Shows (byteSize bytes) bytes.toNat .byte := by
      simp only [byteSize, hunit]
      exact .whole _ _
    refine ⟨_, _, hshows, fun _ _ h => h.unique hshows, written_byte ?_⟩
    exact hunit ▸ Size.suits_ofBytes bytes
  · have hshows : Shows (byteSize bytes) (tenthsOf (Size.ofBytes bytes).amount / 10)
        (Size.ofBytes bytes).unit := by
      unfold byteSize
      dsimp only
      split
      · exact absurd ‹_› hunit
      · exact shows_tenths _ _
    exact ⟨_, _, hshows, fun _ _ h => h.unique hshows, written_tenths bytes hunit⟩

/-- One byte less than a mebibyte, which is below 1024 kibibytes and written as 1024 of them. -/
theorem size_at_limit : byteSize 1048575 = "1024.0 KiB" ∧
    ∃ number unit, Shows (byteSize 1048575) number unit ∧ unit ≠ .gibibyte ∧ ¬ number < 1024 := by
  have htext : byteSize 1048575 = "1024.0 KiB" := by decide +kernel
  refine ⟨htext, 1024, .kibibyte, ?_, by decide, lt_irrefl _⟩
  have hshows := Shows.tenths 1024 0 .kibibyte (by decide)
  rw [Nat.cast_zero, zero_div, add_zero, Nat.cast_ofNat] at hshows
  rw [htext]
  exact hshows

end Vitals.Report
