/-
  Texts that come from any bytes.

  * `Lead.isScalar`: what a leading byte and a second byte in its range announce is a character, and
    none of the first 128.
  * `nul_notMem_lossyChars`: bytes without a zero make a text without NUL, well-formed or not.
  * `length_encodeChars_lossyChars`: replacing what is ill-formed triples the size at most.
  * `clipped_eq_fitting`: such a text is clipped by its capacity alone.
  * `paddedTextBytes_fitting`: what fits is written as the whole text is.
-/
import Mathlib
import Vitals.Proofs.Text.Utf8

namespace Vitals.Text

/-! ## Characters from pieces -/

theorem pushBits_le (value : Nat) {b : UInt8} (h : b ≤ 0xBF) :
    value * 64 ≤ pushBits value b ∧ pushBits value b + 1 ≤ (value + 1) * 64 := by
  have hb : b.toNat ≤ 191 := UInt8.le_iff_toNat_le.1 h
  unfold pushBits
  omega

/-- Where the number of a character starts with some bits, they are read before the others. -/
theorem continuation_eq_some {more value : Nat} {rest rest' : List UInt8} {c : Char}
    (h : continuation more value rest = (some c, rest')) :
    ∃ v, c = Char.ofNat v ∧ value * 64 ^ more ≤ v ∧ v < (value + 1) * 64 ^ more := by
  induction more generalizing value rest with
  | zero =>
    cases h
    exact ⟨value, rfl, by omega, by omega⟩
  | succ more ih =>
    cases rest with
    | nil => cases h
    | cons b rest =>
      unfold continuation at h
      split at h
      · next hb =>
        obtain ⟨v, rfl, hlow, hhigh⟩ := ih h
        obtain ⟨hle, hlt⟩ := pushBits_le value hb.2
        refine ⟨v, rfl, ?_, ?_⟩
        · calc value * 64 ^ (more + 1) = value * 64 * 64 ^ more := by
                rw [Nat.pow_succ', Nat.mul_assoc]
            _ ≤ pushBits value b * 64 ^ more := Nat.mul_le_mul_right _ hle
            _ ≤ v := hlow
        · calc v < (pushBits value b + 1) * 64 ^ more := hhigh
            _ ≤ (value + 1) * 64 * 64 ^ more := Nat.mul_le_mul_right _ hlt
            _ = (value + 1) * 64 ^ (more + 1) := by rw [Nat.pow_succ', Nat.mul_assoc]
      · cases h

/-- What a leading byte and a second byte in its range announce is a character and none of the first
128: neither an overlong form, nor a surrogate, nor beyond the last one. -/
theorem Lead.isScalar {b c : UInt8} {lead : Lead} (hlead : Lead.ofByte? b = some lead)
    (hlow : lead.low ≤ c) (hhigh : c ≤ lead.high) {v : Nat}
    (hle : pushBits lead.bits c * 64 ^ lead.more ≤ v)
    (hlt : v < (pushBits lead.bits c + 1) * 64 ^ lead.more) : 0x80 ≤ v ∧ v.isValidChar := by
  have hb := b.toNat_lt
  unfold pushBits at hle hlt
  unfold Lead.ofByte? at hlead
  simp only [UInt8.le_iff_toNat_le, ← UInt8.toNat_inj] at hlead hlow hhigh
  unfold Nat.isValidChar
  -- One case for each range of leading bytes, and the bounds on the second byte decide it.
  split_ifs at hlead
  all_goals
    obtain rfl := Option.some.inj hlead
    simp only [UInt8.reduceToNat, Nat.reducePow] at *
    omega

/-- A piece that is a NUL is a zero byte. -/
theorem eq_zero_of_piece_nul {b : UInt8} {rest rest' : List UInt8}
    (h : piece b rest = (some '\x00', rest')) : b = 0 := by
  have hnul {v : Nat} (hvalid : v.isValidChar) (hv : '\x00' = Char.ofNat v) : v = 0 := by
    have hn : (Char.ofNat v).toNat = v := (Char.toNat_ofNat v).trans (if_pos hvalid)
    rw [← hn, ← hv]
    rfl
  unfold piece at h
  split at h
  · next hb =>
    have hlt : b.toNat < 128 := UInt8.lt_iff_toNat_lt.1 hb
    have hchar : Char.ofNat b.toNat = '\x00' := Option.some.inj (Prod.mk.inj h).1
    exact UInt8.toNat_inj.1 (hnul (Or.inl (by omega)) hchar.symm)
  · split at h
    · next hlead =>
      split at h
      · next hrange =>
        obtain ⟨v, hchar, hle, hlt⟩ := continuation_eq_some h
        obtain ⟨hlarge, hvalid⟩ := Lead.isScalar hlead hrange.1 hrange.2 hle hlt
        have := hnul hvalid hchar
        omega
      · cases h
    · cases h

theorem continuation_suffix (more value : Nat) (rest : List UInt8) :
    (continuation more value rest).2 <:+ rest := by
  induction more generalizing value rest with
  | zero => exact List.suffix_rfl
  | succ more ih =>
    cases rest with
    | nil => exact List.suffix_rfl
    | cons b rest =>
      unfold continuation
      split
      · exact (ih _ _).trans (List.suffix_cons b rest)
      · exact List.suffix_rfl

theorem piece_suffix (b : UInt8) (rest : List UInt8) : (piece b rest).2 <:+ rest := by
  unfold piece
  split
  · exact List.suffix_rfl
  · split
    · split
      · exact (continuation_suffix _ _ _).trans (List.suffix_cons _ _)
      · exact List.suffix_rfl
    · exact List.suffix_rfl

/-- **Bytes without a zero make a text without NUL**, also where they are ill-formed. -/
theorem nul_notMem_lossyChars {bytes : List UInt8} (h : 0 ∉ bytes) :
    '\x00' ∉ lossyChars bytes := by
  induction bytes using pieces.induct with
  | case1 => simp [lossyChars]
  | case2 b rest ih =>
    have hrest : 0 ∉ (piece b rest).2 := fun hmem =>
      h (List.mem_cons_of_mem b ((piece_suffix b rest).subset hmem))
    rw [lossyChars, pieces_cons, List.map_cons, List.mem_cons, not_or]
    refine ⟨?_, ih hrest⟩
    cases hfirst : (piece b rest).1 with
    | none => decide
    | some c =>
      rintro rfl
      have hzero : b = 0 := eq_zero_of_piece_nul (Prod.ext hfirst rfl)
      exact h (hzero ▸ List.mem_cons_self)

/-! ## Sizes -/

theorem utf8Size_replacement : replacement.utf8Size = 3 := rfl

theorem utf8Size_of_ascii {n : Nat} (h : n < 128) : (Char.ofNat n).utf8Size = 1 := by
  have hvalue : (Char.ofNat n).val ≤ 127 := by
    have hn : (Char.ofNat n).toNat = n := (Char.toNat_ofNat n).trans (if_pos (Or.inl (by omega)))
    rw [UInt32.le_iff_toNat_le]
    exact hn.le.trans (Nat.le_of_lt_succ h)
  exact if_pos hvalue

/-- A piece of one byte stands for three bytes at most, and no character takes more than four. -/
theorem utf8Size_piece (b : UInt8) (rest : List UInt8) :
    ((piece b rest).1.getD replacement).utf8Size + 3 * (piece b rest).2.length ≤
      3 * (rest.length + 1) := by
  unfold piece
  split
  · next hb =>
    have hascii := utf8Size_of_ascii (UInt8.lt_iff_toNat_lt.1 hb)
    rw [Option.getD_some, hascii]
    dsimp only
    omega
  · split
    · next lead c rest' _ =>
      split
      · have hlength := continuation_length lead.more (pushBits lead.bits c) rest'
        have hsize := Char.utf8Size_le_four
          ((continuation lead.more (pushBits lead.bits c) rest').1.getD replacement)
        rw [List.length_cons]
        omega
      · rw [Option.getD_none, utf8Size_replacement]
        exact (Nat.add_comm _ _).le
    · rw [Option.getD_none, utf8Size_replacement]
      exact (Nat.add_comm _ _).le

/-- **Replacing what is ill-formed triples the size at most.** -/
theorem length_encodeChars_lossyChars (bytes : List UInt8) :
    (encodeChars (lossyChars bytes)).length ≤ 3 * bytes.length := by
  induction bytes using pieces.induct with
  | case1 => simp [lossyChars]
  | case2 b rest ih =>
    have hpiece := utf8Size_piece b rest
    rw [lossyChars] at ih
    rw [lossyChars, pieces_cons, List.map_cons, encodeChars_cons, List.length_append,
      String.length_utf8EncodeChar, List.length_cons]
    omega

/-! ## Fitting -/

theorem fittingChars_fittingChars (capacity : Nat) (cs : List Char) :
    fittingChars capacity (fittingChars capacity cs) = fittingChars capacity cs :=
  fittingChars_eq_self_iff.2 (length_encodeChars_fittingChars capacity cs)

/-- What fits fits again. -/
theorem fitting_fitting (capacity : Nat) (text : String) :
    fitting capacity (fitting capacity text) = fitting capacity text := by
  rw [fitting, fitting, String.toList_ofList, fittingChars_fittingChars]

end Vitals.Text

namespace Vitals.Wire

open Text

/-- **The text of a field has no NUL**, whatever its bytes are. -/
theorem nul_notMem_textOf (field : List UInt8) : '\x00' ∉ (textOf field).toList := by
  have hzero : (0 : UInt8) ∉ field.takeWhile (· ≠ 0) := fun hmem => by
    simpa using List.mem_takeWhile_imp hmem
  rw [textOf, lossy, String.toList_ofList]
  exact nul_notMem_lossyChars hzero

/-- A text without NUL is clipped by its capacity alone. -/
theorem clipped_eq_fitting {capacity : Nat} {text : String} (h : '\x00' ∉ text.toList) :
    clipped capacity text = fitting capacity text := by
  have hfront := (longestFitting_fittingChars capacity text.toList).isPrefix
  have hwhole : (fittingChars capacity text.toList).takeWhile (· ≠ '\x00') =
      fittingChars capacity text.toList := by
    rw [List.takeWhile_eq_self_iff]
    intro c hc
    simpa using fun heq : c = '\x00' => h (heq ▸ hfront.subset hc)
  rw [clipped, hwhole, fitting]

/-- What fits is written as the whole text is. -/
theorem paddedTextBytes_fitting (text : String) (capacity : Nat) :
    paddedTextBytes (fitting capacity text) capacity = paddedTextBytes text capacity := by
  rw [paddedTextBytes, paddedTextBytes, fitting_fitting]

end Vitals.Wire
