/-
  Rules, read back from their bytes in both layouts.

  * `Bounded`: the lengths that stand in front of a pattern and of a label are words.
  * `NewRule.decode_reads`, `RuleListing.decode_reads`: both layouts are read back.
  * `RuleListing.reads_list`: so is a counted list of rules.
-/
import Vitals.Proofs.Wire.Decoder
import Vitals.Rule

namespace Vitals

open Wire Rule

namespace Rule

theorem flagByte_ne_zero (b : Bool) : (flagByte b != 0) = b := by cases b <;> rfl

theorem Descriptor.decodeHead_reads {d : Descriptor} (h : d.pattern.length < 2 ^ 64) :
    decodeHead.Reads d.encodeHead d.pattern := by
  have htag := Reader.reads_byte patternTag
  exact Decoder.reads_bind htag (Reader.reads_prefixed h)

theorem Descriptor.decode_reads {d : Descriptor} (h : d.pattern.length < 2 ^ 64) :
    decode.Reads d.encode d := by
  have hflag := Decoder.reads_map (Reader.reads_byte d.flags) fun flag : UInt8 =>
    ({ pattern := d.pattern, multiLine := flag != 0 } : Descriptor)
  rw [flags, flagByte_ne_zero] at hflag
  exact Decoder.reads_bind (decodeHead_reads h) hflag

theorem labelText_reads {label : String} (h : (Text.encode label).length < 2 ^ 64) :
    labelText.Reads (encodeLabel label) label := by
  have hlabel := Decoder.reads_map (Reader.reads_prefixed h) Text.lossy
  rwa [Text.lossy_encode] at hlabel

end Rule

/-! ## The layout of a request -/

namespace NewRule

/-- The lengths of the pattern and of the label are words, as are all lengths in memory. -/
def Bounded (r : NewRule) : Prop :=
  r.descriptor.pattern.length < 2 ^ 64 ∧ (Text.encode r.label).length < 2 ^ 64

theorem encode_eq (r : NewRule) :
    r.encode = r.descriptor.encodeHead ++
      (word64Bytes r.id ++ ([r.descriptor.flags] ++ encodeLabel r.label)) := by
  simp [encode]

/-- **A new rule is read back.** -/
theorem decode_reads {r : NewRule} (h : r.Bounded) : NewRule.decode.Reads r.encode r := by
  obtain ⟨hpattern, hlabel⟩ := h
  have hlast := Decoder.reads_map (labelText_reads hlabel) fun label =>
    ({ r with label } : NewRule)
  rw [encode_eq]
  rw [decode_eq]
  refine Decoder.reads_bind (Descriptor.decodeHead_reads hpattern) ?_
  refine Decoder.reads_bind (Reader.reads_word64 _) ?_
  refine Decoder.reads_bind (Reader.reads_byte _) ?_
  simp only [Descriptor.flags, flagByte_ne_zero]
  exact hlast

end NewRule

/-! ## The layout of a listing -/

namespace RuleListing

/-- The lengths of the pattern and of the label are words, as are all lengths in memory. -/
def Bounded (r : RuleListing) : Prop :=
  r.descriptor.pattern.length < 2 ^ 64 ∧ (Text.encode r.label).length < 2 ^ 64

theorem encode_eq (r : RuleListing) :
    r.encode = word64Bytes r.id ++
      (r.descriptor.encode ++ ([flagByte r.active] ++ encodeLabel r.label)) := by
  simp [encode]

/-- **A listed rule is read back.** -/
theorem decode_reads {r : RuleListing} (h : r.Bounded) : RuleListing.decode.Reads r.encode r := by
  obtain ⟨hpattern, hlabel⟩ := h
  have hlast := Decoder.reads_map (labelText_reads hlabel) fun label =>
    ({ r with label } : RuleListing)
  rw [encode_eq]
  unfold decode
  refine Decoder.reads_bind (Reader.reads_word64 _) ?_
  refine Decoder.reads_bind (Descriptor.decode_reads hpattern) ?_
  refine Decoder.reads_bind (Reader.reads_byte _) ?_
  simp only [flagByte_ne_zero]
  exact hlast

theorem minimumSize_le_length_encode (r : RuleListing) : minimumSize ≤ r.encode.length := by
  simp only [encode, Descriptor.encode, Descriptor.encodeHead, encodeLabel, prefixedBytes,
    minimumSize, List.length_append, List.length_cons, List.length_nil, length_word64Bytes]
  omega

theorem minimumSize_mul_le (rs : List RuleListing) :
    rs.length * minimumSize ≤ (rs.flatMap encode).length := by
  induction rs with
  | nil => simp
  | cons r rs ih =>
    have := r.minimumSize_le_length_encode
    rw [List.flatMap_cons, List.length_append, List.length_cons, Nat.succ_mul]
    omega

/-- **A counted list of rules is read back.** -/
theorem reads_list {rs : List RuleListing} (hcount : rs.length < 2 ^ 64)
    (h : ∀ r ∈ rs, r.Bounded) :
    (Reader.count minimumSize >>= Decoder.times RuleListing.decode).Reads
      (word64Bytes (UInt64.ofNat rs.length) ++ rs.flatMap encode) rs := by
  have hword : (UInt64.ofNat rs.length).toNat = rs.length := UInt64.toNat_ofNat_of_lt' hcount
  have htimes := Decoder.reads_times fun r hr => decode_reads (h r hr)
  rw [List.map_id'] at htimes
  refine Reader.reads_count_bind (by decide) ?_ ?_
  · rw [hword]
    exact minimumSize_mul_le rs
  · rw [hword]
    exact htimes

end RuleListing

end Vitals
