/-
  Where a text may be cut.

  A text that is too long for its field is cut between two characters. Its bytes are searched from
  the last one that fits, back to one at which no character is under way.

  * `isBoundary`: no character is under way at an index. `isBoundary_iff`: these are the lengths of
    the front parts of a text.
  * `Indexed.lastBoundary`: the search by indices. `exists_lastBoundary`: it finds the last boundary
    and does not run past the start.
  * `Indexed.paddedTextBytes`: a text written by indices; `paddedTextBytes_eq`: it is written as any
    text is.
  * `fixed_text`: what a field holds of a text and gives back.
-/
import Vitals.Proofs.Wire.Indexed

namespace Vitals.Text

/-! ## Boundaries -/

/-- A byte does not go on with a character. -/
def leads (b : UInt8) : Bool := b < 0x80 || 0xC0 ≤ b

/-- No character is under way at an index: it is the start, the end, or that of a byte which does
not go on with one. -/
def isBoundary (bytes : List UInt8) (index : Nat) : Bool :=
  index == 0 || match bytes[index]? with
    | none => index == bytes.length
    | some b => leads b

theorem leads_ofNat_iff {n : Nat} (h : n < 256) :
    leads (UInt8.ofNat n) = true ↔ n < 0x80 ∨ 0xC0 ≤ n := by
  rw [leads, Bool.or_eq_true, decide_eq_true_eq, decide_eq_true_eq, byte_lt_iff h, le_byte_iff h]
  rfl

theorem leads_low {n : Nat} (h : n < 0x80) : leads (UInt8.ofNat n) = true :=
  (leads_ofNat_iff (by omega)).2 (Or.inl h)

theorem leads_high {n : Nat} (h : 0xC0 ≤ n) (h' : n < 256) : leads (UInt8.ofNat n) = true :=
  (leads_ofNat_iff h').2 (Or.inr h)

theorem not_leads_byte {n : Nat} (h : n < 64) : leads (UInt8.ofNat (n + 0x80)) = false := by
  rw [← Bool.not_eq_true, leads_ofNat_iff (by omega)]
  omega

/-- Of the bytes of a character the first one leads, and no other does. -/
theorem leads_encodeChar (c : Char) : ∃ b bs, String.utf8EncodeChar c = b :: bs ∧ leads b = true ∧
    ∀ d ∈ bs, leads d = false := by
  obtain ⟨v, hv⟩ : ∃ v, v = c.val.toNat := ⟨_, rfl⟩
  have hvalid : v < 0xD800 ∨ 0xDFFF < v ∧ v < 0x110000 := hv ▸ c.valid
  unfold String.utf8EncodeChar
  dsimp only
  rw [← hv]
  -- One case for each length of an encoding, from one byte to four.
  by_cases h1 : v ≤ 0x7F
  · exact ⟨_, _, if_pos h1, leads_low (by omega), nofun⟩
  rw [if_neg h1]
  have hlast : leads (UInt8.ofNat (v % 64 + 0x80)) = false := not_leads_byte (by omega)
  by_cases h2 : v ≤ 0x7FF
  · refine ⟨_, _, if_pos h2, leads_high (by omega) (by omega), ?_⟩
    exact List.forall_mem_singleton.2 hlast
  rw [if_neg h2]
  have hthird : leads (UInt8.ofNat (v / 64 % 64 + 0x80)) = false := not_leads_byte (by omega)
  by_cases h3 : v ≤ 0xFFFF
  · refine ⟨_, _, if_pos h3, leads_high (by omega) (by omega), ?_⟩
    exact List.forall_mem_cons.2 ⟨hthird, List.forall_mem_singleton.2 hlast⟩
  · refine ⟨_, _, if_neg h3, leads_high (by omega) (by omega), ?_⟩
    have hsecond : leads (UInt8.ofNat (v / 4096 % 64 + 0x80)) = false := not_leads_byte (by omega)
    exact List.forall_mem_cons.2
      ⟨hsecond, List.forall_mem_cons.2 ⟨hthird, List.forall_mem_singleton.2 hlast⟩⟩

/-! ## Boundaries of a text -/

theorem isBoundary_zero (bytes : List UInt8) : isBoundary bytes 0 = true := rfl

theorem isBoundary_of_getElem? {bytes : List UInt8} {index : Nat} {b : UInt8} (hindex : index ≠ 0)
    (h : bytes[index]? = some b) : isBoundary bytes index = leads b := by
  rw [isBoundary, h, beq_eq_false_iff_ne.2 hindex, Bool.false_or]

theorem isBoundary_of_getElem?_eq_none {bytes : List UInt8} {index : Nat}
    (h : bytes[index]? = none) :
    isBoundary bytes index = true ↔ index = 0 ∨ index = bytes.length := by
  rw [isBoundary, h, Bool.or_eq_true, beq_iff_eq, beq_iff_eq]

/-- The bytes of a text start with one that leads, if there are any. -/
theorem leads_of_mem_head? {cs : List Char} {b : UInt8} (h : (encodeChars cs)[0]? = some b) :
    leads b = true := by
  cases cs with
  | nil => cases h
  | cons c cs =>
    obtain ⟨b', bs, hc, hleads, -⟩ := leads_encodeChar c
    rw [encodeChars_cons, hc] at h
    cases h
    exact hleads

/-- Within a character there is no boundary. -/
theorem not_isBoundary_within (c : Char) (cs : List Char) {index : Nat} (hindex : index ≠ 0)
    (h : index < (String.utf8EncodeChar c).length) :
    isBoundary (encodeChars (c :: cs)) index = false := by
  obtain ⟨b, bs, hc, -, hrest⟩ := leads_encodeChar c
  obtain ⟨i, rfl⟩ := Nat.exists_eq_succ_of_ne_zero hindex
  rw [hc, List.length_cons, Nat.succ_lt_succ_iff] at h
  have hbyte : (encodeChars (c :: cs))[i + 1]? = some bs[i] := by
    rw [encodeChars_cons, hc, List.cons_append, List.getElem?_cons_succ,
      List.getElem?_append_left h, List.getElem?_eq_getElem h]
  rw [isBoundary_of_getElem? hindex hbyte]
  exact hrest _ (List.getElem_mem h)

/-- Behind a character the boundaries are those of what comes after it. -/
theorem isBoundary_behind (c : Char) (cs : List Char) (index : Nat) :
    isBoundary (encodeChars (c :: cs)) ((String.utf8EncodeChar c).length + index) =
      isBoundary (encodeChars cs) index := by
  have hpos : (String.utf8EncodeChar c).length + index ≠ 0 := by
    have := c.utf8Size_pos
    rw [String.length_utf8EncodeChar]
    omega
  have hbyte : (encodeChars (c :: cs))[(String.utf8EncodeChar c).length + index]? =
      (encodeChars cs)[index]? := by
    rw [encodeChars_cons, List.getElem?_append_right (Nat.le_add_right _ _),
      Nat.add_sub_cancel_left]
  cases hrest : (encodeChars cs)[index]? with
  | none =>
    -- Past the bytes of a text there is one boundary, its end.
    have hpast := List.getElem?_eq_none_iff.1 hrest
    rw [Bool.eq_iff_iff, isBoundary_of_getElem?_eq_none (hbyte.trans hrest),
      isBoundary_of_getElem?_eq_none hrest, encodeChars_cons, List.length_append]
    omega
  | some b =>
    rw [isBoundary_of_getElem? hpos (hbyte.trans hrest)]
    by_cases hzero : index = 0
    · subst hzero
      rw [leads_of_mem_head? hrest, isBoundary_zero]
    · rw [isBoundary_of_getElem? hzero hrest]

/-- **The boundaries of a text are the lengths of its front parts.** -/
theorem isBoundary_iff {cs : List Char} {index : Nat} :
    isBoundary (encodeChars cs) index = true ↔
      ∃ front, front <+: cs ∧ (encodeChars front).length = index := by
  induction cs generalizing index with
  | nil =>
    rw [encodeChars_nil, isBoundary_of_getElem?_eq_none rfl]
    simp [eq_comm]
  | cons c cs ih =>
    constructor
    · intro h
      by_cases hzero : index = 0
      · exact ⟨[], List.nil_prefix, hzero.symm⟩
      rcases Nat.lt_or_ge index (String.utf8EncodeChar c).length with hlt | hge
      · rw [not_isBoundary_within c cs hzero hlt] at h
        cases h
      · obtain ⟨behind, rfl⟩ := Nat.exists_eq_add_of_le hge
        obtain ⟨front, hfront, rfl⟩ := ih.1 ((isBoundary_behind c cs behind).symm.trans h)
        refine ⟨c :: front, (List.prefix_cons_inj c).2 hfront, ?_⟩
        rw [encodeChars_cons, List.length_append]
    · rintro ⟨front, hfront, rfl⟩
      cases front with
      | nil => exact isBoundary_zero _
      | cons d front =>
        obtain ⟨rfl, htail⟩ := List.cons_prefix_cons.1 hfront
        rw [encodeChars_cons d front, List.length_append, isBoundary_behind]
        exact ih.2 ⟨front, htail, rfl⟩

end Vitals.Text

namespace Vitals.Wire

open Text

/-! ## The search for a boundary -/

/-- An index is the last boundary up to a limit. -/
structure LastBoundary (bytes : List UInt8) (limit index : Nat) : Prop where
  boundary : isBoundary bytes index = true
  le : index ≤ limit
  last : ∀ other ≤ limit, isBoundary bytes other = true → other ≤ index

namespace Indexed

/-- The last boundary up to a limit, searched for by steps back from there. -/
def lastBoundary (bytes : List UInt8) : Nat → Except Stop Nat
  | 0 => if isBoundary bytes 0 then .ok 0 else sub 0 1
  | limit + 1 => if isBoundary bytes (limit + 1) then .ok (limit + 1) else lastBoundary bytes limit

/-- A text in a field of `capacity` bytes: its bytes up to the last boundary that fits, and NULs. -/
def paddedTextBytes (text : String) (capacity : Nat) : Except Stop (List UInt8) := do
  let bytes := encode text
  let stop ← lastBoundary bytes (min bytes.length capacity)
  let front ← between bytes 0 stop
  return front ++ List.replicate (← sub capacity stop) 0

/-- The bytes up to the length of a front part are that front part. -/
theorem between_front {front bytes : List UInt8} (h : front <+: bytes) :
    between bytes 0 front.length = .ok front := by
  obtain ⟨rest, rfl⟩ := h
  have hrange : 0 ≤ front.length ∧ front.length ≤ (front ++ rest).length :=
    ⟨Nat.zero_le _, (List.prefix_append front rest).length_le⟩
  rw [between, if_pos hrange, List.take_left, List.drop_zero]

/-- **The search finds the last boundary**: it ends at the start of the bytes, if not before. -/
theorem exists_lastBoundary (bytes : List UInt8) (limit : Nat) :
    ∃ index, lastBoundary bytes limit = .ok index ∧ LastBoundary bytes limit index := by
  induction limit with
  | zero =>
    refine ⟨0, if_pos (isBoundary_zero bytes), isBoundary_zero bytes, Nat.le_refl 0, ?_⟩
    exact fun other hother _ => hother
  | succ limit ih =>
    by_cases hhere : isBoundary bytes (limit + 1) = true
    · refine ⟨limit + 1, if_pos hhere, hhere, Nat.le_refl _, ?_⟩
      exact fun other hother _ => hother
    · obtain ⟨index, hfound, hindex⟩ := ih
      refine ⟨index, (if_neg hhere).trans hfound, hindex.boundary, Nat.le_succ_of_le hindex.le, ?_⟩
      intro other hother hboundary
      refine hindex.last other (Nat.le_of_lt_succ (Nat.lt_of_le_of_ne hother ?_)) hboundary
      rintro rfl
      exact hhere hboundary

end Indexed

/-! ## Texts in fields -/

theorem prefix_encodeChars {front cs : List Char} (h : front <+: cs) :
    encodeChars front <+: encodeChars cs := by
  obtain ⟨rest, rfl⟩ := h
  exact ⟨encodeChars rest, (encodeChars_append front rest).symm⟩

/-- Of the boundaries of a text that fit into a capacity, the last one ends the longest front part
that fits. -/
theorem LastBoundary.eq_length {cs front : List Char} {capacity index : Nat}
    (h : LastBoundary (encodeChars cs) (min (encodeChars cs).length capacity) index)
    (hfront : LongestFitting capacity cs front) : index = (encodeChars front).length := by
  refine Nat.le_antisymm ?_ (h.last _ ?_ (isBoundary_iff.2 ⟨front, hfront.isPrefix, rfl⟩))
  · obtain ⟨other, hother, rfl⟩ := isBoundary_iff.1 h.boundary
    have hfits := Nat.le_trans h.le (Nat.min_le_right _ _)
    exact (prefix_encodeChars (hfront.longest other hother hfits)).length_le
  · exact Nat.le_min.2 ⟨(prefix_encodeChars hfront.isPrefix).length_le, hfront.fits⟩

theorem paddedTextBytes_eq_encodeChars (text : String) (capacity : Nat) :
    let front := encodeChars (fittingChars capacity text.toList)
    paddedTextBytes text capacity = front ++ List.replicate (capacity - front.length) 0 := by
  simp only [paddedTextBytes, encode, fitting, String.toList_ofList]

/-- **A text is written by indices as any text is.** Neither the search nor the number of NULs runs
below zero. -/
theorem Indexed.paddedTextBytes_eq (text : String) (capacity : Nat) :
    Indexed.paddedTextBytes text capacity = .ok (Wire.paddedTextBytes text capacity) := by
  have hfront := longestFitting_fittingChars capacity text.toList
  obtain ⟨stop, hfound, hstop⟩ :=
    exists_lastBoundary (encode text) (min (encode text).length capacity)
  rw [hstop.eq_length hfront] at hfound
  have hbytes : encodeChars (fittingChars capacity text.toList) <+: encode text :=
    prefix_encodeChars hfront.isPrefix
  rw [paddedTextBytes_eq_encodeChars]
  show (lastBoundary _ _ >>= _) = _
  rw [hfound]
  show (between (encode text) 0 _ >>= _) = _
  rw [between_front hbytes]
  show (sub capacity _ >>= _) = _
  rw [sub_of_le hfront.fits]
  rfl

/-- **A field holds of a text as much as fits.** Writing ends and does not run below zero; it gives
as many bytes as the field has, those of the longest front part of the text that fits and then NULs.
Read at any place of any bytes, the field gives back that front part up to its first NUL. -/
theorem fixed_text (text : String) (capacity : Nat) :
    ∃ front, LongestFitting capacity text.toList front ∧
      LastBoundary (encode text) (min (encode text).length capacity) (encodeChars front).length ∧
      Indexed.paddedTextBytes text capacity = .ok (paddedTextBytes text capacity) ∧
      (paddedTextBytes text capacity).length = capacity ∧
      paddedTextBytes text capacity =
        encodeChars front ++ List.replicate (capacity - (encodeChars front).length) 0 ∧
      ∀ before after : List UInt8,
        Field.paddedText (before ++ paddedTextBytes text capacity ++ after) before.length capacity =
          .ok (String.ofList (front.takeWhile (· ≠ '\x00'))) := by
  have hfront := longestFitting_fittingChars capacity text.toList
  obtain ⟨stop, -, hstop⟩ :=
    Indexed.exists_lastBoundary (encode text) (min (encode text).length capacity)
  refine ⟨_, hfront, ?_, Indexed.paddedTextBytes_eq text capacity,
    length_paddedTextBytes text capacity, paddedTextBytes_eq_encodeChars text capacity, ?_⟩
  · rwa [hstop.eq_length hfront] at hstop
  · intro before after
    rw [Field.paddedText, Field.window_of_le (by simp), List.append_assoc, List.drop_left,
      List.take_append_of_le_length (by simp), List.take_of_length_le (by simp)]
    exact congrArg Except.ok (textOf_paddedTextBytes text capacity)

example : Indexed.paddedTextBytes "aé" 2 = .ok [0x61, 0] := by decide

end Vitals.Wire
