/-
  Batches, decoded slice by slice.

  A batch is two words and as many slices of one size as the second word says. Its decoder reads it
  from front to back; what comes of that is what comes of each slice on its own.

  * `DecisiveRecord`: a record is accepted or refused for what its bytes say, and for that alone. It
    holds of `Stat`, of `Request` and of `ChartPoint`.
  * `Batch.Slicewise`: what a decoder of batches makes of a payload, told by its slices.
  * `batch_slicewise`: so it is with all three types of record.
-/
import Vitals.Proofs.Record
import Vitals.Proofs.Wire.Language
import Vitals.Proofs.Wire.Slices

namespace Vitals

open Wire

/-! ## Records -/

/-- A record is accepted or refused for what the bytes of its size say, and for that alone. -/
class DecisiveRecord (α : Type) [Record α] : Prop where
  decides : (Record.decode (α := α)).Decides (Record.wireSize α)

instance : DecisiveRecord Stat where
  decides := by
    show Stat.decode.Decides 96
    unfold Stat.decode
    iterate 12 refine Decoder.decides_bind Reader.decides_word64 fun _ => ?_
    dsimp only
    split
    · exact Decoder.decides_pure _
    · exact Decoder.decides_refuse (.invalidRecord _) _

instance : DecisiveRecord Request where
  decides := by
    show Request.decode.Decides 668
    unfold Request.decode
    refine Decoder.decides_bind Reader.decides_byte fun code => ?_
    split
    · refine Decoder.decides_bind Reader.decides_byte fun _ => ?_
      iterate 3 refine Decoder.decides_bind Reader.decides_word64 fun _ => ?_
      refine Decoder.decides_bind Reader.decides_word16 fun _ => ?_
      split
      · exact Decoder.decides_refuse (.invalidRecord _) _
      · iterate 5 refine Decoder.decides_bind (Reader.decides_paddedText _) fun _ => ?_
        exact Decoder.decides_pure _
    · exact Decoder.decides_refuse (.unknownMethod _) _

instance : DecisiveRecord ChartPoint where
  decides := by
    show ChartPoint.decode.Decides 48
    unfold ChartPoint.decode
    iterate 6 refine Decoder.decides_bind Reader.decides_word64 fun _ => ?_
    exact Decoder.decides_pure _

/-! ## Batches -/

namespace Batch

/-- The first word of a payload. -/
def timeOf (payload : List UInt8) : UInt64 := word64OfBytes (payload.take 8)

/-- The second word of a payload, which says how many records come behind it. -/
def countOf (payload : List UInt8) : UInt64 := word64OfBytes ((payload.drop 8).take 8)

/-- The slice of a payload in which the `i`-th record of a batch lies. -/
def recordSlice (size : Nat) (payload : List UInt8) (i : Nat) : List UInt8 :=
  (payload.drop (16 + i * size)).take size

/-- A payload has its two words, and behind them as many records as the second one says. -/
def Holds (size : Nat) (payload : List UInt8) : Prop :=
  16 ≤ payload.length ∧ (countOf payload).toNat * size ≤ payload.length - 16

/-- What becomes of a payload, told by its slices. -/
structure Slicewise (α : Type) [Record α] (size : Nat) : Prop where
  /-- A word is missing. -/
  short : ∀ payload, payload.length < 16 → ∃ offset available,
    (Batch.decode (α := α)).run payload = .error (.truncated offset 8 available)
  /-- So many records cannot come behind the words. -/
  overflow : ∀ payload, 16 ≤ payload.length →
    payload.length - 16 < (countOf payload).toNat * size →
    (Batch.decode (α := α)).run payload =
      .error (.countOverflow (countOf payload) (payload.length - 16))
  /-- Otherwise it depends on the slices alone whether the payload is accepted. -/
  accepts_iff : ∀ payload, Holds size payload →
    ((∃ b, (Batch.decode (α := α)).run payload = .ok b) ↔ ∀ i < (countOf payload).toNat,
      ∃ x, (Record.decode (α := α)).run (recordSlice size payload i) = .ok x)
  /-- The records of a batch are those of the slices. -/
  ok_iff : ∀ payload, Holds size payload → ∀ b : Batch α,
    Batch.decode.run payload = .ok b ↔ b.serverTime = timeOf payload ∧
      b.records.length = (countOf payload).toNat ∧ ∀ i (hi : i < b.records.length),
        Record.decode.run (recordSlice size payload i) = .ok b.records[i]
  /-- What is reported is what is wrong with the first bad slice. -/
  error_iff : ∀ payload, Holds size payload → ∀ e,
    (Batch.decode (α := α)).run payload = .error e ↔ ∃ i < (countOf payload).toNat,
      (Record.decode (α := α)).run (recordSlice size payload i) = .error e ∧
        ∀ j < i, ∃ x, (Record.decode (α := α)).run (recordSlice size payload j) = .ok x
  /-- It is never that bytes are missing. -/
  flaw : ∀ payload, Holds size payload → ∀ e,
    (Batch.decode (α := α)).run payload = .error e → e.Flaw

theorem recordSlice_eq (size : Nat) (payload : List UInt8) (i : Nat) :
    recordSlice size payload i = slice size (payload.drop 16) i := by
  rw [recordSlice, slice, List.drop_drop]

theorem eq_words {payload : List UInt8} (h : 16 ≤ payload.length) :
    payload = word64Bytes (timeOf payload) ++
      (word64Bytes (countOf payload) ++ payload.drop 16) := by
  have htime : (payload.take 8).length = 8 := List.length_take_of_le (by omega)
  have hcount : ((payload.drop 8).take 8).length = 8 :=
    List.length_take_of_le (by rw [List.length_drop]; omega)
  rw [timeOf, countOf, word64Bytes_word64OfBytes htime, word64Bytes_word64OfBytes hcount]
  have hdrop : payload.drop 16 = (payload.drop 8).drop 8 := by rw [List.drop_drop]
  rw [hdrop, List.take_append_drop, List.take_append_drop]

variable {α : Type} [Record α]

theorem run_short {payload : List UInt8} (h : payload.length < 16) : ∃ offset available,
    (Batch.decode (α := α)).run payload = .error (.truncated offset 8 available) := by
  by_cases hfirst : payload.length < 8
  · refine ⟨0, payload.length, ?_⟩
    unfold Decoder.run Reader.start decode
    rw [Decoder.bind_of_error (Reader.word64_of_short hfirst)]
  · -- The first word is there and the second is not.
    have htime : (payload.take 8).length = 8 := List.length_take_of_le (Nat.not_lt.1 hfirst)
    have hrest : (payload.drop 8).length < 8 := by rw [List.length_drop]; omega
    have hword := Reader.reads_word64 (timeOf payload) 0 (payload.drop 8)
    rw [length_word64Bytes, timeOf, word64Bytes_word64OfBytes htime, List.take_append_drop] at hword
    refine ⟨0 + 8, (payload.drop 8).length, ?_⟩
    unfold Decoder.run Reader.start decode
    rw [Decoder.bind_of_ok hword, Decoder.bind_of_error (Reader.count_of_short hrest)]

/-- Behind its two words, a batch is its records. -/
theorem decode_eq_times {payload : List UInt8} (hsize : 0 < Record.wireSize α)
    (h : Holds (Record.wireSize α) payload) :
    (Batch.decode (α := α)) (.start payload) =
      (Decoder.times Record.decode (countOf payload).toNat >>= fun records =>
        pure ⟨timeOf payload, records⟩) ⟨16, payload.drop 16⟩ := by
  obtain ⟨hwords, hfit⟩ := h
  rw [← List.length_drop] at hfit
  have htime := Reader.reads_word64 (timeOf payload) 0
    (word64Bytes (countOf payload) ++ payload.drop 16)
  rw [← eq_words hwords, length_word64Bytes] at htime
  unfold decode Reader.start
  rw [Decoder.bind_of_ok htime, Decoder.bind_of_ok (Reader.count_of_fit hsize hfit _)]

theorem run_overflow {payload : List UInt8} (hsize : 0 < Record.wireSize α)
    (hwords : 16 ≤ payload.length)
    (h : payload.length - 16 < (countOf payload).toNat * Record.wireSize α) :
    (Batch.decode (α := α)).run payload =
      .error (.countOverflow (countOf payload) (payload.length - 16)) := by
  rw [← List.length_drop] at h ⊢
  have hcount := Reader.fails_count hsize h
  have hdecode : (Batch.decode (α := α)).Fails (word64Bytes (timeOf payload) ++
      (word64Bytes (countOf payload) ++ payload.drop 16))
      (.countOverflow (countOf payload) (payload.drop 16).length) := by
    unfold decode
    exact Decoder.fails_bind (Reader.reads_word64 _) (hcount.bind _)
  rw [← eq_words hwords] at hdecode
  exact hdecode.run

theorem eq_of_slices {size : Nat} {payload : List UInt8} {b b' : Batch α}
    (htime : b.serverTime = b'.serverTime) (hlength : b.records.length = b'.records.length)
    (hb : ∀ i (hi : i < b.records.length),
      Record.decode.run (recordSlice size payload i) = .ok b.records[i])
    (hb' : ∀ i (hi : i < b'.records.length),
      Record.decode.run (recordSlice size payload i) = .ok b'.records[i]) : b = b' := by
  obtain ⟨time, records⟩ := b
  obtain ⟨time', records'⟩ := b'
  obtain rfl : time = time' := htime
  have hrecords : records = records' := by
    refine List.ext_getElem hlength fun i hi hi' => ?_
    exact Except.ok.inj ((hb i hi).symm.trans (hb' i hi'))
  rw [hrecords]

variable [LawfulRecord α] [DecisiveRecord α]

open LawfulRecord

theorem run_cases {payload : List UInt8} (h : Holds (Record.wireSize α) payload) :
    (∃ b : Batch α, Batch.decode.run payload = .ok b ∧ b.serverTime = timeOf payload ∧
      b.records.length = (countOf payload).toNat ∧ ∀ i (hi : i < b.records.length),
        Record.decode.run (recordSlice (Record.wireSize α) payload i) = .ok b.records[i]) ∨
    ∃ i e, i < (countOf payload).toNat ∧ (Batch.decode (α := α)).run payload = .error e ∧ e.Flaw ∧
      (Record.decode (α := α)).run (recordSlice (Record.wireSize α) payload i) = .error e ∧
        ∀ j < i, ∃ x,
          (Record.decode (α := α)).run (recordSlice (Record.wireSize α) payload j) = .ok x := by
  have hfit := h.2
  rw [← List.length_drop] at hfit
  simp only [recordSlice_eq, Decoder.run, decode_eq_times wireSize_pos h]
  rcases Decoder.times_slices DecisiveRecord.decides (countOf payload).toNat 16 (payload.drop 16)
    hfit with ⟨xs, r, htimes, hlength, hslices⟩ | ⟨i, e, r, hi, htimes, he, hslice, hbefore⟩
  · rw [Decoder.bind_of_ok htimes]
    exact Or.inl ⟨⟨timeOf payload, xs⟩, rfl, rfl, hlength, hslices⟩
  · rw [Decoder.bind_of_error htimes]
    exact Or.inr ⟨i, e, hi, rfl, he, hslice, hbefore⟩

theorem slicewise : Slicewise α (Record.wireSize α) where
  short payload h := run_short h
  overflow payload hwords h := run_overflow wireSize_pos hwords h
  accepts_iff payload h := by
    rcases run_cases h with ⟨b, hrun, -, hlength, hslices⟩ | ⟨i, e, hi, hrun, -, hslice, -⟩
    · refine iff_of_true ⟨b, hrun⟩ fun i hi => ?_
      rw [← hlength] at hi
      exact ⟨_, hslices i hi⟩
    · refine iff_of_false ?_ fun hall => ?_
      · rintro ⟨b, hb⟩
        rw [hrun] at hb
        cases hb
      · obtain ⟨x, hx⟩ := hall i hi
        rw [hslice] at hx
        cases hx
  ok_iff payload h b := by
    rcases run_cases h with ⟨b', hrun, htime, hlength, hslices⟩ | ⟨i, e, hi, hrun, -, hslice, -⟩
    · rw [hrun]
      constructor
      · rintro ⟨⟩
        exact ⟨htime, hlength, hslices⟩
      · rintro ⟨htime', hlength', hslices'⟩
        rw [eq_of_slices (htime.trans htime'.symm) (hlength.trans hlength'.symm) hslices hslices']
    · rw [hrun]
      refine iff_of_false nofun ?_
      rintro ⟨-, hlength, hslices⟩
      rw [← hlength] at hi
      have hok := hslices i hi
      rw [hslice] at hok
      cases hok
  error_iff payload h e := by
    rcases run_cases h with ⟨b, hrun, -, hlength, hslices⟩ | ⟨i, e', hi, hrun, -, hslice, hbefore⟩
    · rw [hrun]
      refine iff_of_false nofun ?_
      rintro ⟨i, hi, hslice, -⟩
      rw [← hlength] at hi
      rw [hslices i hi] at hslice
      cases hslice
    · rw [hrun]
      constructor
      · rintro ⟨⟩
        exact ⟨i, hi, hslice, hbefore⟩
      · rintro ⟨j, hj, hslice', hbefore'⟩
        -- Both are the first bad slice.
        rcases Nat.lt_trichotomy i j with hlt | rfl | hlt
        · obtain ⟨x, hx⟩ := hbefore' i hlt
          rw [hslice] at hx
          cases hx
        · rw [hslice] at hslice'
          rw [Except.error.inj hslice']
        · obtain ⟨x, hx⟩ := hbefore j hlt
          rw [hslice'] at hx
          cases hx
  flaw payload h e he := by
    rcases run_cases h with ⟨b, hrun, -⟩ | ⟨i, e', -, hrun, hflaw, -⟩
    · rw [hrun] at he
      cases he
    · rw [hrun] at he
      cases he
      exact hflaw

end Batch

/-- **A batch is decoded slice by slice**, for all three types of record. -/
theorem batch_slicewise : Batch.Slicewise Stat 96 ∧ Batch.Slicewise Request 668 ∧
    Batch.Slicewise ChartPoint 48 :=
  ⟨Batch.slicewise, Batch.slicewise, Batch.slicewise⟩

end Vitals
