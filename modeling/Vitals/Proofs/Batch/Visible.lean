/-
  What of its bytes a batch of requests shows.

  A request keeps each of its texts in a field of its own, filled up behind a NUL with anything at
  all.

  * `Batch.run_congr`: payloads whose words are the same and whose slices are decoded to the same
    are decoded to the same.
  * `Request.sees_decode`: of its text fields, a request shows the texts.
  * `Batch.Hidden p n`: the byte at `n` lies in a text field, behind a NUL of that field.
  * `text_fields_sealed`: no text depends on what is around its field or behind its NUL, and no
    batch of requests depends on hidden bytes.
-/
import Vitals.Proofs.Batch
import Vitals.Proofs.Wire.Visible

namespace Vitals

open Wire

/-! ## Batches and their slices -/

namespace Batch

variable {p q : List UInt8}

theorem words_congr (h : p.take 16 = q.take 16) : timeOf p = timeOf q ∧ countOf p = countOf q := by
  have htime := congrArg (List.take 8) h
  have hcount := congrArg (List.drop 8) h
  rw [List.take_take, List.take_take] at htime
  rw [List.drop_take, List.drop_take] at hcount
  exact ⟨congrArg word64OfBytes htime, congrArg word64OfBytes hcount⟩

variable {α : Type} [Record α] [LawfulRecord α] [DecisiveRecord α]

theorem run_congr_of_holds (hp : Holds (Record.wireSize α) p) (hq : Holds (Record.wireSize α) q)
    (htime : timeOf p = timeOf q) (hcount : countOf p = countOf q)
    (hslices : ∀ i < (countOf p).toNat,
      (Record.decode (α := α)).run (recordSlice (Record.wireSize α) p i) =
        (Record.decode (α := α)).run (recordSlice (Record.wireSize α) q i)) :
    (Batch.decode (α := α)).run p = (Batch.decode (α := α)).run q := by
  cases hrun : (Batch.decode (α := α)).run p with
  | ok b =>
    obtain ⟨hb, hnumber, hrecords⟩ := (slicewise.ok_iff p hp b).1 hrun
    refine ((slicewise.ok_iff q hq b).2 ⟨hb.trans htime, hcount ▸ hnumber, ?_⟩).symm
    intro i hi
    rw [← hslices i (hnumber ▸ hi)]
    exact hrecords i hi
  | error e =>
    obtain ⟨i, hi, hbad, hbefore⟩ := (slicewise.error_iff p hp e).1 hrun
    refine ((slicewise.error_iff q hq e).2 ⟨i, hcount ▸ hi, ?_, ?_⟩).symm
    · rw [← hslices i hi]
      exact hbad
    · intro j hj
      rw [← hslices j (hj.trans hi)]
      exact hbefore j hj

theorem run_congr (hlength : p.length = q.length) (hwords : p.take 16 = q.take 16)
    (hslices : ∀ i, 16 + (i + 1) * Record.wireSize α ≤ p.length →
      (Record.decode (α := α)).run (recordSlice (Record.wireSize α) p i) =
        (Record.decode (α := α)).run (recordSlice (Record.wireSize α) q i)) :
    (Batch.decode (α := α)).run p = (Batch.decode (α := α)).run q := by
  by_cases hshort : p.length < 16
  · -- There is nothing but the words, or less.
    rw [List.take_of_length_le hshort.le, List.take_of_length_le (hlength ▸ hshort.le)] at hwords
    rw [hwords]
  have hp : 16 ≤ p.length := Nat.not_lt.1 hshort
  have hq : 16 ≤ q.length := hlength ▸ hp
  obtain ⟨htime, hcount⟩ := words_congr hwords
  by_cases hfit : (countOf p).toNat * Record.wireSize α ≤ p.length - 16
  · refine run_congr_of_holds ⟨hp, hfit⟩ ⟨hq, hcount ▸ hlength ▸ hfit⟩ htime hcount ?_
    intro i hi
    have hnext : i + 1 ≤ (countOf p).toNat := hi
    have hmul := Nat.mul_le_mul_right (Record.wireSize α) hnext
    exact hslices i (by omega)
  · have hover := Nat.not_le.1 hfit
    rw [slicewise.overflow p hp hover,
      slicewise.overflow q hq (hcount ▸ hlength ▸ hover), hcount, hlength]

end Batch

/-! ## Requests -/

/-- Of its fields, a request shows the texts. What is in front of them is all seen. -/
theorem Request.sees_decode : Decoder.Sees textCapacity Request.decode 28 5 := by
  unfold Request.decode
  refine Decoder.sees_bind Reader.decides_byte fun code => ?_
  split
  · refine Decoder.sees_bind Reader.decides_byte fun _ => ?_
    iterate 3 refine Decoder.sees_bind Reader.decides_word64 fun _ => ?_
    refine Decoder.sees_bind Reader.decides_word16 fun _ => ?_
    split
    · exact Decoder.sees_refuse _ _ _
    · iterate 5 refine Decoder.sees_text fun _ => ?_
      exact Decoder.sees_pure _
  · exact Decoder.sees_refuse _ _ _

namespace Batch

/-- Where text `k` of record `i` begins in a payload. -/
def textOffset (i k : Nat) : Nat := 16 + i * 668 + (28 + k * Request.textCapacity)

/-- A byte of a payload lies in a text field, behind a NUL of that field. -/
def Hidden (p : List UInt8) (n : Nat) : Prop :=
  ∃ i k m j, k < 5 ∧ m < j ∧ j < Request.textCapacity ∧ n = textOffset i k + j ∧
    p[textOffset i k + m]? = some 0

/-- Two payloads differ in hidden bytes only. -/
structure Alike (p q : List UInt8) : Prop where
  length : p.length = q.length
  hidden : ∀ n, p[n]? ≠ q[n]? → Hidden p n

variable {p q : List UInt8}

/-- The words of a batch are in front of all its texts. -/
theorem not_hidden_words {n : Nat} (h : n < 16) : ¬ Hidden p n := by
  rintro ⟨i, k, m, j, -, -, -, rfl, -⟩
  unfold textOffset at h
  omega

/-- So are the first bytes of each record. -/
theorem not_hidden_front (i : Nat) {n : Nat} (h : n < 28) : ¬ Hidden p (16 + i * 668 + n) := by
  rintro ⟨i', k, m, j, hk, -, hj, hn, -⟩
  simp only [textOffset, Request.textCapacity] at hn hj
  have hi : i' < i := by omega
  omega

/-- No two fields overlap. -/
theorem textOffset_inj {i i' k k' j j' : Nat} (hk : k < 5) (hk' : k' < 5)
    (hj : j < Request.textCapacity) (hj' : j' < Request.textCapacity)
    (h : textOffset i k + j = textOffset i' k' + j') : i = i' ∧ k = k' ∧ j = j' := by
  simp only [textOffset, Request.textCapacity] at h hj hj'
  have hi : i = i' := by omega
  omega

namespace Alike

theorem eq_of_not_hidden (h : Alike p q) {n : Nat} (hn : ¬ Hidden p n) : p[n]? = q[n]? :=
  Decidable.not_not.1 fun hne => hn (h.hidden n hne)

theorem words (h : Alike p q) : p.take 16 = q.take 16 := by
  refine take_drop_ext 0 fun n hn => ?_
  rw [Nat.zero_add]
  exact h.eq_of_not_hidden (not_hidden_words hn)

/-- Alike payloads are alike in each field. -/
theorem field (h : Alike p q) (i : Nat) {k : Nat} (hk : k < 5) :
    Field.Alike p q (textOffset i k) Request.textCapacity := by
  intro j hj hbefore
  refine h.eq_of_not_hidden ?_
  rintro ⟨i', k', m, j', hk', hm, hj', hn, hnul⟩
  obtain ⟨rfl, rfl, rfl⟩ := textOffset_inj hk hk' hj hj' hn
  exact hbefore m hm hnul

theorem front (h : Alike p q) (i : Nat) :
    (recordSlice 668 p i).take 28 = (recordSlice 668 q i).take 28 := by
  unfold recordSlice
  rw [List.take_take, List.take_take]
  exact take_drop_ext _ fun n hn => h.eq_of_not_hidden (not_hidden_front i hn)

end Alike

/-- The field of a text is a slice of its record. -/
theorem slice_recordSlice (p : List UInt8) (i : Nat) {k : Nat} (hk : k < 5) :
    slice Request.textCapacity ((recordSlice 668 p i).drop 28) k =
      (p.drop (textOffset i k)).take Request.textCapacity := by
  have hwidth : Request.textCapacity ≤ 668 - (28 + k * Request.textCapacity) := by
    unfold Request.textCapacity
    omega
  rw [slice, recordSlice, List.drop_drop, List.drop_take, List.drop_drop, List.take_take,
    Nat.min_eq_left hwidth]
  rfl

theorem Alike.similar (h : Alike p q) {i : Nat} (hi : 16 + (i + 1) * 668 ≤ p.length) :
    Similar Request.textCapacity 28 5 (recordSlice 668 p i) (recordSlice 668 q i) where
  length_left := by
    refine List.length_take_of_le ?_
    rw [List.length_drop]
    omega
  length_right := by
    refine List.length_take_of_le ?_
    rw [List.length_drop, ← h.length]
    omega
  front := h.front i
  text k hk := by
    rw [slice_recordSlice p i hk, slice_recordSlice q i hk]
    exact congrArg Text.lossy (h.field i hk).visible_eq

end Batch

/-- **Texts do not show what surrounds them.** Buffers that are the same in a field up to its first
NUL have the same text there, that of the bytes before the NUL, whatever is in front of the field,
behind the NUL or past the field. So two payloads that differ in hidden bytes only are decoded to
the same batch of requests, or refused with the same error. -/
theorem text_fields_sealed :
    (∀ a b offset capacity, offset + capacity ≤ a.length → offset + capacity ≤ b.length →
      Field.Alike a b offset capacity → ∃ text,
        text = Text.lossy (Field.visible a offset capacity) ∧
        Field.paddedText a offset capacity = .ok text ∧
        Field.paddedText b offset capacity = .ok text) ∧
    ∀ p q, Batch.Alike p q →
      (Batch.decode (α := Request)).run p = (Batch.decode (α := Request)).run q := by
  constructor
  · intro a b offset capacity ha hb halike
    refine ⟨_, rfl, Field.paddedText_of_le ha, ?_⟩
    rw [Field.paddedText_of_le hb, halike.visible_eq]
  · intro p q halike
    refine Batch.run_congr halike.length halike.words fun i hi => ?_
    exact (Request.sees_decode _ _ (halike.similar hi)).run_eq

/-- A field filled up with half of a character behind its NUL, between other bytes; and a request
whose first text is empty and has a byte of 255 behind that. -/
theorem text_fields_sealed_filled :
    let a : List UInt8 := [9, 0x61, 0, 0xC3]
    let b : List UInt8 := [8, 0x61, 0, 0x7A, 1]
    let p : List UInt8 := word64Bytes 5 ++ (word64Bytes 1 ++ List.replicate 668 0)
    (Field.paddedText a 1 3 = .ok "a" ∧ Field.paddedText b 1 3 = .ok "a") ∧
      (Batch.decode (α := Request)).run p = (Batch.decode (α := Request)).run (p.set 45 255) := by
  intro a b p
  obtain ⟨hfield, hbatch⟩ := text_fields_sealed
  have halike : Field.Alike a b 1 3 := by
    intro j hj hbefore
    match j with
    | 0 | 1 => rfl
    | 2 => exact absurd rfl (hbefore 1 Nat.one_lt_two)
  obtain ⟨text, -, ha, hb⟩ := hfield a b 1 3 (by decide) (by decide) halike
  have htext : Field.paddedText a 1 3 = .ok "a" := by decide +kernel
  have hpayload : Batch.Alike p (p.set 45 255) := by
    refine ⟨List.length_set.symm, fun n hn => ?_⟩
    by_cases hplace : 45 = n
    · exact ⟨0, 0, 0, 1, by decide, by decide, by decide, hplace.symm, rfl⟩
    · exact absurd (List.getElem?_set_ne hplace).symm hn
  refine ⟨⟨htext, ?_⟩, hbatch p _ hpayload⟩
  rw [hb, ← ha, htext]

end Vitals
