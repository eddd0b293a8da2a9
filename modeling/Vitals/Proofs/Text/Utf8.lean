/-
  Reading back what was encoded.

  * `piece_encode`: the first piece of an encoded text is its first character.
  * `lossy_encode`: the bytes of a text are read back as that text.
  * `takeWhile_encodeChars`: the first zero byte of an encoded text is its first NUL.
  * `longestFitting_fittingChars`: what fits is the longest front part whose bytes fit.
  * `textOf_paddedTextBytes`: a field gives back the clipped text.
  * `clipped_eq_self_iff`: which texts are given back whole.
-/
import Mathlib.Data.List.TakeWhile
import Vitals.Wire.Field

namespace Vitals.Text

/-! ## Bytes given by a number -/

theorem toNat_byte {n : Nat} (h : n < 256) : (UInt8.ofNat n).toNat = n :=
  UInt8.toNat_ofNat_of_lt' h

theorem byte_lt_iff {n : Nat} (h : n < 256) {b : UInt8} : UInt8.ofNat n < b ↔ n < b.toNat := by
  rw [UInt8.lt_iff_toNat_lt, toNat_byte h]

theorem le_byte_iff {n : Nat} (h : n < 256) {b : UInt8} : b ≤ UInt8.ofNat n ↔ b.toNat ≤ n := by
  rw [UInt8.le_iff_toNat_le, toNat_byte h]

theorem byte_le_iff {n : Nat} (h : n < 256) {b : UInt8} : UInt8.ofNat n ≤ b ↔ n ≤ b.toNat := by
  rw [UInt8.le_iff_toNat_le, toNat_byte h]

/-! ## Leading and continuation bytes -/

theorem pushBits_byte (value : Nat) {n : Nat} (h : n < 64) :
    pushBits value (UInt8.ofNat (n + 0x80)) = value * 64 + n := by
  unfold pushBits
  rw [toNat_byte (by omega)]
  omega

theorem continuation_byte (more value : Nat) {n : Nat} (h : n < 64) (rest : List UInt8) :
    continuation (more + 1) value (UInt8.ofNat (n + 0x80) :: rest) =
      continuation more (value * 64 + n) rest := by
  have hn : n + 0x80 < 256 := by omega
  have hrange : 0x80 ≤ UInt8.ofNat (n + 0x80) ∧ UInt8.ofNat (n + 0x80) ≤ 0xBF :=
    ⟨(le_byte_iff hn).2 (Nat.le_add_left _ _), (byte_le_iff hn).2 (by show n + 128 ≤ 191; omega)⟩
  rw [continuation, if_pos hrange, pushBits_byte _ h]

/-- A leading byte with the right second byte goes on with the bytes after that. -/
theorem piece_lead {n m : Nat} (hn : 0x80 ≤ n) (hn' : n < 256) (hm : m < 64) {lead : Lead}
    (hl : Lead.ofByte? (UInt8.ofNat n) = some lead) (hlow : lead.low.toNat ≤ m + 0x80)
    (hhigh : m + 0x80 ≤ lead.high.toNat) (rest : List UInt8) :
    piece (UInt8.ofNat n) (UInt8.ofNat (m + 0x80) :: rest) =
      continuation lead.more (lead.bits * 64 + m) rest := by
  have hm' : m + 0x80 < 256 := by omega
  have hb : ¬ UInt8.ofNat n < 0x80 := fun h => Nat.not_lt.2 hn ((byte_lt_iff hn').1 h)
  have hrange : lead.low ≤ UInt8.ofNat (m + 0x80) ∧ UInt8.ofNat (m + 0x80) ≤ lead.high :=
    ⟨(le_byte_iff hm').2 hlow, (byte_le_iff hm').2 hhigh⟩
  unfold piece
  rw [if_neg hb, hl]
  dsimp only
  rw [if_pos hrange, pushBits_byte _ hm]

theorem ofByte?_two {n : Nat} (h : 2 ≤ n) (h' : n < 32) :
    Lead.ofByte? (UInt8.ofNat (n + 0xC0)) = some ⟨n, 0x80, 0xBF, 0⟩ := by
  have : ∀ n : Fin 32, 2 ≤ n.val →
      Lead.ofByte? (UInt8.ofNat (n.val + 0xC0)) = some ⟨n.val, 0x80, 0xBF, 0⟩ := by
    decide
  exact this ⟨n, h'⟩ h

theorem ofByte?_three {n : Nat} (h : n < 16) :
    Lead.ofByte? (UInt8.ofNat (n + 0xE0)) =
      some ⟨n, if n = 0 then 0xA0 else 0x80, if n = 13 then 0x9F else 0xBF, 1⟩ := by
  have : ∀ n : Fin 16, Lead.ofByte? (UInt8.ofNat (n.val + 0xE0)) =
      some ⟨n.val, if n.val = 0 then 0xA0 else 0x80, if n.val = 13 then 0x9F else 0xBF, 1⟩ := by
    decide
  exact this ⟨n, h⟩

theorem ofByte?_four {n : Nat} (h : n < 5) :
    Lead.ofByte? (UInt8.ofNat (n + 0xF0)) =
      some ⟨n, if n = 0 then 0x90 else 0x80, if n = 4 then 0x8F else 0xBF, 2⟩ := by
  have : ∀ n : Fin 5, Lead.ofByte? (UInt8.ofNat (n.val + 0xF0)) =
      some ⟨n.val, if n.val = 0 then 0x90 else 0x80, if n.val = 4 then 0x8F else 0xBF, 2⟩ := by
    decide
  exact this ⟨n, h⟩

/-! ## Characters -/

/-- The bytes of a character, read as a piece, are that character again. -/
theorem piece_encode (c : Char) (rest : List UInt8) :
    ∃ b bs, String.utf8EncodeChar c = b :: bs ∧ piece b (bs ++ rest) = (some c, rest) := by
  obtain ⟨v, hv⟩ : ∃ v, v = c.val.toNat := ⟨_, rfl⟩
  have hvalid : v < 0xD800 ∨ 0xDFFF < v ∧ v < 0x110000 := hv ▸ c.valid
  have hc : Char.ofNat v = c := by rw [hv]; exact c.ofNat_toNat
  unfold String.utf8EncodeChar
  dsimp only
  rw [← hv]
  -- One case for each length of an encoding, from one byte to four.
  by_cases h1 : v ≤ 0x7F
  · refine ⟨UInt8.ofNat v, [], if_pos h1, ?_⟩
    have hb : UInt8.ofNat v < 0x80 := (byte_lt_iff (by omega)).2 (Nat.lt_succ_of_le h1)
    simp only [piece, if_pos hb, List.nil_append]
    rw [toNat_byte (by omega), hc]
  rw [if_neg h1]
  by_cases h2 : v ≤ 0x7FF
  · refine ⟨_, _, if_pos h2, ?_⟩
    have hlead := ofByte?_two (n := v / 64 % 32) (by omega) (by omega)
    rw [List.cons_append, piece_lead (by omega) (by omega) (by omega) hlead
      (Nat.le_add_left _ _) (by show v % 64 + 128 ≤ 191; omega), continuation]
    have : v / 64 % 32 * 64 + v % 64 = v := by omega
    rw [this, hc]
    rfl
  rw [if_neg h2]
  by_cases h3 : v ≤ 0xFFFF
  · refine ⟨_, _, if_pos h3, ?_⟩
    have hlead := ofByte?_three (n := v / 4096 % 16) (by omega)
    rw [List.cons_append, List.cons_append,
      piece_lead (by omega) (by omega) (by omega) hlead ?_ ?_,
      continuation_byte _ _ (by omega), continuation]
    · have : (v / 4096 % 16 * 64 + v / 64 % 64) * 64 + v % 64 = v := by omega
      rw [this, hc]
      rfl
    · dsimp only
      split
      · show 160 ≤ v / 64 % 64 + 128
        omega
      · exact Nat.le_add_left _ _
    · dsimp only
      split
      · show v / 64 % 64 + 128 ≤ 159
        omega
      · show v / 64 % 64 + 128 ≤ 191
        omega
  · refine ⟨_, _, if_neg h3, ?_⟩
    have hlead := ofByte?_four (n := v / 262144 % 8) (by omega)
    rw [List.cons_append, List.cons_append, List.cons_append,
      piece_lead (by omega) (by omega) (by omega) hlead ?_ ?_,
      continuation_byte _ _ (by omega), continuation_byte _ _ (by omega), continuation]
    · have : ((v / 262144 % 8 * 64 + v / 4096 % 64) * 64 + v / 64 % 64) * 64 + v % 64 = v := by
        omega
      rw [this, hc]
      rfl
    · dsimp only
      split
      · show 144 ≤ v / 4096 % 64 + 128
        omega
      · exact Nat.le_add_left _ _
    · dsimp only
      split
      · show v / 4096 % 64 + 128 ≤ 143
        omega
      · show v / 4096 % 64 + 128 ≤ 191
        omega

theorem pieces_encodeChar (c : Char) (rest : List UInt8) :
    pieces (String.utf8EncodeChar c ++ rest) = some c :: pieces rest := by
  obtain ⟨b, bs, he, hp⟩ := piece_encode c rest
  rw [he, List.cons_append, pieces_cons, hp]

theorem pieces_encodeChars (cs : List Char) : pieces (encodeChars cs) = cs.map some := by
  induction cs with
  | nil => exact pieces_nil
  | cons c cs ih => rw [encodeChars_cons, pieces_encodeChar, ih, List.map_cons]

/-- **The bytes of some characters are read back as these.** -/
theorem lossyChars_encodeChars (cs : List Char) : lossyChars (encodeChars cs) = cs := by
  simp [lossyChars, pieces_encodeChars, Function.comp_def]

/-- **The bytes of a text are read back as that text.** -/
theorem lossy_encode (s : String) : lossy (encode s) = s := by
  rw [lossy, encode, lossyChars_encodeChars, String.ofList_toList]

/-! ## NUL -/

theorem encodeChar_nul : String.utf8EncodeChar '\x00' = [0] := rfl

theorem zero_notMem_encodeChar {c : Char} (h : c ≠ '\x00') : 0 ∉ String.utf8EncodeChar c := by
  obtain ⟨v, hv⟩ : ∃ v, v = c.val.toNat := ⟨_, rfl⟩
  have hne : v ≠ 0 := by
    rintro rfl
    exact h (Char.toNat_inj.1 hv.symm)
  have hvalid : v < 0xD800 ∨ 0xDFFF < v ∧ v < 0x110000 := hv ▸ c.valid
  have hbyte : ∀ n, 0 < n → n < 256 → (0 : UInt8) ≠ UInt8.ofNat n := by
    intro n hpos hlt heq
    have := congrArg UInt8.toNat heq
    rw [toNat_byte hlt] at this
    exact absurd this.symm (Nat.ne_of_gt hpos)
  unfold String.utf8EncodeChar
  dsimp only
  rw [← hv]
  split
  · simpa using hbyte v (by omega) (by omega)
  · split
    · simp only [List.mem_cons, List.not_mem_nil, or_false, not_or]
      exact ⟨hbyte _ (by omega) (by omega), hbyte _ (by omega) (by omega)⟩
    · split
      · simp only [List.mem_cons, List.not_mem_nil, or_false, not_or]
        exact ⟨hbyte _ (by omega) (by omega), hbyte _ (by omega) (by omega),
          hbyte _ (by omega) (by omega)⟩
      · simp only [List.mem_cons, List.not_mem_nil, or_false, not_or]
        exact ⟨hbyte _ (by omega) (by omega), hbyte _ (by omega) (by omega),
          hbyte _ (by omega) (by omega), hbyte _ (by omega) (by omega)⟩

/-- **What comes before the first zero byte** of an encoded text is its part before the first NUL.
-/
theorem takeWhile_encodeChars (cs : List Char) (k : Nat) :
    (encodeChars cs ++ List.replicate k 0).takeWhile (· ≠ 0) =
      encodeChars (cs.takeWhile (· ≠ '\x00')) := by
  induction cs with
  | nil => cases k <;> simp [List.replicate_succ]
  | cons c cs ih =>
    rw [encodeChars_cons, List.append_assoc]
    by_cases hc : c = '\x00'
    · subst hc
      rw [encodeChar_nul]
      simp
    · have hall : ∀ b ∈ String.utf8EncodeChar c, decide (b ≠ 0) = true := by
        intro b hb
        simpa using fun h0 : b = 0 => zero_notMem_encodeChar hc (h0 ▸ hb)
      rw [List.takeWhile_append_of_pos hall, ih, List.takeWhile_cons_of_pos (by simpa using hc),
        encodeChars_cons]

/-! ## Fitting -/

/-- Of all front parts of some characters, the longest one whose bytes fit into a capacity. -/
structure LongestFitting (capacity : Nat) (cs front : List Char) : Prop where
  isPrefix : front <+: cs
  fits : (encodeChars front).length ≤ capacity
  longest : ∀ other, other <+: cs → (encodeChars other).length ≤ capacity → other <+: front

theorem longestFitting_fittingChars (capacity : Nat) (cs : List Char) :
    LongestFitting capacity cs (fittingChars capacity cs) := by
  induction cs generalizing capacity with
  | nil => exact ⟨List.prefix_rfl, by simp [fittingChars], fun other h _ => h⟩
  | cons c cs ih =>
    refine ⟨?_, length_encodeChars_fittingChars capacity _, ?_⟩
    · unfold fittingChars
      split
      · exact (List.prefix_cons_inj c).2 (ih _).isPrefix
      · exact List.nil_prefix
    · intro other hother hfit
      rcases other with _ | ⟨d, other⟩
      · exact List.nil_prefix
      · obtain ⟨rfl, htail⟩ := List.cons_prefix_cons.1 hother
        rw [encodeChars_cons, List.length_append, String.length_utf8EncodeChar] at hfit
        rw [fittingChars, if_pos (by omega)]
        exact (List.prefix_cons_inj d).2 ((ih _).longest other htail (by omega))

theorem fittingChars_eq_self_iff {capacity : Nat} {cs : List Char} :
    fittingChars capacity cs = cs ↔ (encodeChars cs).length ≤ capacity := by
  have h := longestFitting_fittingChars capacity cs
  constructor
  · intro heq
    rw [← heq]
    exact h.fits
  · intro hfit
    have hself := h.longest cs List.prefix_rfl hfit
    exact h.isPrefix.eq_of_length_le hself.length_le

end Vitals.Text

namespace Vitals.Wire

open Text

/-- The part of a text that a field of some capacity gives back: the longest front part that fits,
up to its first NUL. -/
def clipped (capacity : Nat) (text : String) : String :=
  String.ofList ((fittingChars capacity text.toList).takeWhile (· ≠ '\x00'))

/-- **A field gives back the clipped text.** -/
theorem textOf_paddedTextBytes (text : String) (capacity : Nat) :
    textOf (paddedTextBytes text capacity) = clipped capacity text := by
  have h := takeWhile_encodeChars (fittingChars capacity text.toList)
  simp only [textOf, paddedTextBytes, encode, fitting, String.toList_ofList]
  rw [h, lossy, lossyChars_encodeChars]
  rfl

/-- **A text is given back whole iff its bytes fit and none of its characters is NUL.** -/
theorem clipped_eq_self_iff {capacity : Nat} {text : String} :
    clipped capacity text = text ↔
      (encode text).length ≤ capacity ∧ '\x00' ∉ text.toList := by
  have hfront := (longestFitting_fittingChars capacity text.toList).isPrefix
  have hnul : text.toList.takeWhile (· ≠ '\x00') = text.toList ↔ '\x00' ∉ text.toList := by
    simp only [List.takeWhile_eq_self_iff, decide_eq_true_eq]
    exact ⟨fun h hc => h _ hc rfl, fun h c hc heq => h (heq ▸ hc)⟩
  rw [encode, ← fittingChars_eq_self_iff, ← hnul]
  constructor
  · intro h
    have hlist : (fittingChars capacity text.toList).takeWhile (· ≠ '\x00') = text.toList := by
      rw [← String.toList_inj, clipped, String.toList_ofList] at h
      exact h
    -- Both cuts only shorten, so neither of them has cut anything.
    have hwhole : fittingChars capacity text.toList = text.toList := by
      refine hfront.eq_of_length_le ?_
      calc text.toList.length
          = ((fittingChars capacity text.toList).takeWhile (· ≠ '\x00')).length := by rw [hlist]
        _ ≤ (fittingChars capacity text.toList).length := (List.takeWhile_prefix _).length_le
    rw [hwhole] at hlist
    exact ⟨hwhole, hlist⟩
  · rintro ⟨hfit, hwhile⟩
    rw [clipped, hfit, hwhile, String.ofList_toList]

end Vitals.Wire
