/-
  A word overwritten in place.

  `Field.getElem?_left` tells every byte of the buffer that a write leaves, whether it succeeds or
  not. That words which are apart do not touch each other follows byte by byte.

  * `Slot.getElem?_fill`: the bytes of a buffer once a slot has been filled.
  * `Field.Fits`: eight bytes from an offset on are there, and so are their indices.
  * `Field.overwriteWord64_of_fits`, `Field.overwriteWord64_of_not_fits`: a word is written exactly
    if it fits, and else nothing is.
  * `Field.left_comm`, `Field.word64_left_of_apart`: words that are apart do not touch each other.
  * `Field.leftBy_perm`, `Field.word64_leftBy`: many words that are apart may be written in any
    order, and all of them are read back.
  * `overwrite_exact`: when a write succeeds, what it changes and what it reports.
-/
import Mathlib.Data.List.Pairwise
import Vitals.Proofs.Wire.Indexed

namespace Vitals.Wire

/-! ## Slots -/

namespace Slot

variable {bytes content : List UInt8}

theorem between?_of_le {start stop : Nat} (hordered : start ≤ stop)
    (hinside : stop ≤ bytes.length) :
    between? bytes start stop = some ⟨start, stop, hordered, hinside⟩ :=
  dif_pos ⟨hordered, hinside⟩

theorem eq_of_between? {slot : Slot bytes} {start stop : Nat}
    (h : between? bytes start stop = some slot) : slot.start = start ∧ slot.stop = stop := by
  unfold between? at h
  split at h <;> cases h
  exact ⟨rfl, rfl⟩

theorem length_take_start (slot : Slot bytes) : (bytes.take slot.start).length = slot.start :=
  List.length_take_of_le (slot.ordered.trans slot.inside)

theorem getElem?_fill (slot : Slot bytes) (h : content.length = slot.size) (i : Nat) :
    (slot.fill content h)[i]? =
      if slot.start ≤ i ∧ i < slot.stop then content[i - slot.start]? else bytes[i]? := by
  have hordered := slot.ordered
  have hfront := slot.length_take_start
  have hcontent : slot.start + content.length = slot.stop := by
    rw [h, size]
    omega
  rw [fill, List.append_assoc]
  split
  case isTrue hi =>
    rw [List.getElem?_append_right (by omega), hfront, List.getElem?_append_left (by omega)]
  case isFalse hi =>
    rcases Nat.lt_or_ge i slot.start with hbefore | hbehind
    · rw [List.getElem?_append_left (by omega), List.getElem?_take_of_lt hbefore]
    · rw [List.getElem?_append_right (by omega), hfront, List.getElem?_append_right (by omega),
        List.getElem?_drop]
      congr 1
      omega

theorem take_drop_fill (slot : Slot bytes) (h : content.length = slot.size) {size : Nat}
    (hsize : slot.size = size) : ((slot.fill content h).drop slot.start).take size = content := by
  rw [fill, List.append_assoc, List.drop_left' slot.length_take_start,
    List.take_left' (h.trans hsize)]

end Slot

/-! ## Attempts -/

namespace Writer

variable {α β : Type}

/-- How an attempt to write ends, and the buffer that it leaves. -/
def attempt (w : Writer α) : StateM (List UInt8) (Except EncodeError α) := fun bytes =>
  match w bytes with
  | .ok x after => (.ok x, after)
  | .error e after => (.error e, after)

/-- Whichever of two writes is tried first, each of them ends in the same way, and the same buffer
is left. -/
def Commute (w : Writer α) (w' : Writer β) : Prop :=
  (do
    let x ← w.attempt
    let x' ← w'.attempt
    return (x, x')) =
  (do
    let x' ← w'.attempt
    let x ← w.attempt
    return (x, x'))

end Writer

/-! ## One word -/

namespace Field

theorem lastIndex_eq : lastIndex = 2 ^ 64 - 1 := rfl

/-- Eight bytes from an offset on lie within a buffer of some size, and the index past them does not
come after the last one. -/
def Fits (offset size : Nat) : Prop := offset + 8 ≤ size ∧ offset + 8 ≤ lastIndex

instance (offset size : Nat) : Decidable (Fits offset size) := inferInstanceAs (Decidable (_ ∧ _))

/-- No buffer reaches past the last index. -/
theorem fits_iff {offset size : Nat} (hsize : size < 2 ^ 64) :
    Fits offset size ↔ offset + 8 ≤ size := by
  rw [Fits, lastIndex_eq]
  omega

variable {value value' : UInt64} {bytes : List UInt8} {offset offset' : Nat}

/-- The slot of eight bytes from an offset on. -/
def Fits.slot (h : Fits offset bytes.length) : Slot bytes :=
  ⟨offset, offset + 8, Nat.le_add_right _ _, h.1⟩

theorem Fits.size_slot (h : Fits offset bytes.length) : h.slot.size = 8 :=
  Nat.add_sub_cancel_left _ _

/-- The buffer with a word in its slot. -/
def Fits.filled (h : Fits offset bytes.length) (value : UInt64) : List UInt8 :=
  h.slot.fill (word64Bytes value) ((length_word64Bytes value).trans h.size_slot.symm)

theorem overwriteWord64_of_fits (h : Fits offset bytes.length) :
    overwriteWord64 value offset bytes = .ok () (h.filled value) := by
  have hstop : saturatingAdd offset 8 = offset + 8 := Nat.min_eq_left h.2
  have hslot : Slot.between? bytes offset (saturatingAdd offset 8) = some h.slot := by
    rw [hstop]
    exact Slot.between?_of_le _ h.1
  rw [overwriteWord64, Writer.get_bind, hslot]
  exact congrFun (dif_pos h.size_slot) bytes

/-- A slot may be found all the same if the sum of indices stops at the last one. It is then too
short. -/
theorem overwriteWord64_of_not_fits (h : ¬ Fits offset bytes.length) :
    overwriteWord64 value offset bytes = .error (.outOfBounds offset 8 bytes.length) bytes := by
  rw [overwriteWord64, Writer.get_bind]
  cases hslot : Slot.between? bytes offset (saturatingAdd offset 8) with
  | none => rfl
  | some slot =>
    obtain ⟨hstart, hstop⟩ := Slot.eq_of_between? hslot
    have hinside : saturatingAdd offset 8 ≤ bytes.length := hstop ▸ slot.inside
    have hshort : slot.size ≠ 8 := by
      rw [Slot.size, hstart, hstop]
      simp only [Fits, saturatingAdd, lastIndex_eq] at h hinside ⊢
      omega
    exact congrFun (dif_neg hshort) bytes

/-- How an attempt to write a word ends. -/
def verdict (offset size : Nat) : Except EncodeError Unit :=
  if Fits offset size then .ok () else .error (.outOfBounds offset 8 size)

/-- The buffer that an attempt to write a word leaves. -/
def left (value : UInt64) (offset : Nat) (bytes : List UInt8) : List UInt8 :=
  ((overwriteWord64 value offset).attempt bytes).2

theorem left_of_fits (h : Fits offset bytes.length) : left value offset bytes = h.filled value := by
  rw [left, Writer.attempt, overwriteWord64_of_fits h]

theorem left_of_not_fits (h : ¬ Fits offset bytes.length) : left value offset bytes = bytes := by
  rw [left, Writer.attempt, overwriteWord64_of_not_fits h]

/-- How an attempt ends depends on the size of the buffer alone. -/
theorem attempt_overwriteWord64 (value : UInt64) (offset : Nat) (bytes : List UInt8) :
    (overwriteWord64 value offset).attempt bytes =
      (verdict offset bytes.length, left value offset bytes) := by
  refine Prod.ext ?_ rfl
  unfold Writer.attempt verdict
  by_cases h : Fits offset bytes.length
  · rw [overwriteWord64_of_fits h, if_pos h]
  · rw [overwriteWord64_of_not_fits h, if_neg h]

/-- The copy of a buffer is what an attempt on the buffer itself leaves, unless it is refused. -/
theorem writeWord64_eq (value : UInt64) (bytes : List UInt8) (offset : Nat) :
    writeWord64 value bytes offset =
      (verdict offset bytes.length).map fun _ => left value offset bytes := by
  unfold writeWord64 verdict
  by_cases h : Fits offset bytes.length
  · rw [overwriteWord64_of_fits h, if_pos h, left_of_fits h]
    rfl
  · rw [overwriteWord64_of_not_fits h, if_neg h]
    rfl

@[simp] theorem length_left (value : UInt64) (offset : Nat) (bytes : List UInt8) :
    (left value offset bytes).length = bytes.length := by
  by_cases h : Fits offset bytes.length
  · rw [left_of_fits h, Fits.filled, Slot.length_fill]
  · rw [left_of_not_fits h]

/-- An attempt ends as it would have ended without an earlier one. -/
theorem fst_attempt_left :
    ((overwriteWord64 value offset).attempt (left value' offset' bytes)).1 =
      ((overwriteWord64 value offset).attempt bytes).1 := by
  rw [attempt_overwriteWord64, attempt_overwriteWord64, length_left]

theorem getElem?_left (value : UInt64) (offset : Nat) (bytes : List UInt8) (i : Nat) :
    (left value offset bytes)[i]? =
      if Fits offset bytes.length ∧ offset ≤ i ∧ i < offset + 8 then
        (word64Bytes value)[i - offset]?
      else bytes[i]? := by
  by_cases h : Fits offset bytes.length
  · rw [left_of_fits h, Fits.filled, Slot.getElem?_fill]
    simp only [h, true_and]
    rfl
  · rw [left_of_not_fits h, if_neg fun hi => h hi.1]

/-- What has been written is read back. -/
theorem word64_filled (h : Fits offset bytes.length) :
    Field.word64 (h.filled value) offset = .ok value := by
  have hlength : (h.filled value).length = bytes.length := Slot.length_fill _ _ _
  have hwindow : ((h.filled value).drop offset).take 8 = word64Bytes value :=
    h.slot.take_drop_fill _ h.size_slot
  rw [word64, window_of_le (hlength ▸ h.1), hwindow]
  exact congrArg Except.ok (word64OfBytes_word64Bytes value)

/-! ## Words that are apart -/

/-- The eight bytes from one offset on and those from another have none in common. -/
def Apart (offset offset' : Nat) : Prop := offset + 8 ≤ offset' ∨ offset' + 8 ≤ offset

theorem Apart.symm (h : Apart offset offset') : Apart offset' offset := Or.symm h

theorem left_comm (h : Apart offset offset') :
    left value' offset' (left value offset bytes) =
      left value offset (left value' offset' bytes) := by
  unfold Apart at h
  refine List.ext_getElem? fun i => ?_
  simp only [getElem?_left, length_left]
  split
  · rw [if_neg (by omega)]
  · rfl

/-- Words that overlap do not commute. -/
example :
    left 2 1 (left 1 0 (List.replicate 9 0)) ≠ left 1 0 (left 2 1 (List.replicate 9 0)) := by
  decide

/-- A window depends on its own bytes only, once the size of the buffer is known. -/
theorem window_congr {bytes' : List UInt8} {needed : Nat} (hlength : bytes'.length = bytes.length)
    (h : ∀ i, offset ≤ i → i < offset + needed → bytes'[i]? = bytes[i]?) :
    window bytes' offset needed = window bytes offset needed := by
  have hfront : (bytes'.drop offset).take needed = (bytes.drop offset).take needed := by
    refine List.ext_getElem? fun i => ?_
    rw [List.getElem?_take, List.getElem?_take]
    split
    · rw [List.getElem?_drop, List.getElem?_drop]
      exact h _ (by omega) (by omega)
    · rfl
  unfold window
  rw [hlength, hfront]

theorem word64_left_of_apart (h : Apart offset offset') :
    Field.word64 (left value' offset' bytes) offset = Field.word64 bytes offset := by
  unfold Apart at h
  have hwindow : window (left value' offset' bytes) offset 8 = window bytes offset 8 :=
    window_congr (length_left value' offset' bytes) fun i hi hi' => by
      rw [getElem?_left, if_neg (by omega)]
  rw [word64, word64, hwindow]

/-! ## Many words -/

/-- The buffer that attempts to write words at offsets leave, one after another. -/
def leftBy (writes : List (UInt64 × Nat)) (bytes : List UInt8) : List UInt8 :=
  writes.foldl (fun bytes w => left w.1 w.2 bytes) bytes

variable {writes writes' : List (UInt64 × Nat)}

/-- **Words that are apart may be written in any order.** -/
theorem leftBy_perm (hperm : writes.Perm writes')
    (hapart : writes.Pairwise fun w w' => Apart w.2 w'.2) :
    leftBy writes bytes = leftBy writes' bytes := by
  have : Std.Symm fun w w' : UInt64 × Nat => Apart w.2 w'.2 := ⟨fun _ _ h => h.symm⟩
  refine hperm.foldl_eq' (fun w hw w' hw' bytes => ?_) bytes
  by_cases hne : w = w'
  · rw [hne]
  · exact left_comm (hapart.forall hw hw' hne)

theorem word64_leftBy_of_apart (h : ∀ w ∈ writes, Apart offset w.2) :
    Field.word64 (leftBy writes bytes) offset = Field.word64 bytes offset := by
  induction writes generalizing bytes with
  | nil => rfl
  | cons w writes ih =>
    obtain ⟨hw, hwrites⟩ := List.forall_mem_cons.1 h
    exact (ih hwrites).trans (word64_left_of_apart hw)

/-- **Of many words that are apart, all are read back.** -/
theorem word64_leftBy (hapart : writes.Pairwise fun w w' => Apart w.2 w'.2)
    (hmem : (value, offset) ∈ writes) (hfits : Fits offset bytes.length) :
    Field.word64 (leftBy writes bytes) offset = .ok value := by
  induction writes generalizing bytes with
  | nil => cases hmem
  | cons w writes ih =>
    obtain ⟨hw, hwrites⟩ := List.pairwise_cons.1 hapart
    rcases List.mem_cons.1 hmem with rfl | hmem
    · -- No later write touches the word.
      refine (word64_leftBy_of_apart hw).trans ?_
      show Field.word64 (left value offset bytes) offset = .ok value
      rw [left_of_fits hfits, word64_filled]
    · refine ih hwrites hmem ?_
      show Fits offset (left w.1 w.2 bytes).length
      rwa [length_left]

/-! ## How a write ends -/

/-- A write of a word at an offset of a buffer is exact and atomic: it succeeds if the bytes are
there, changes them to those of the word and no others, and is refused with the buffer as it was. -/
structure Exact (value : UInt64) (bytes : List UInt8) (offset : Nat)
    (result : EStateM.Result EncodeError (List UInt8) Unit) : Prop where
  succeeds : (∃ after, result = .ok () after) ↔ offset + 8 ≤ bytes.length
  reads_back : ∀ after, result = .ok () after → Field.word64 after offset = .ok value
  length_eq : ∀ after, result = .ok () after → after.length = bytes.length
  keeps : ∀ after, result = .ok () after →
    ∀ i, i < offset ∨ offset + 8 ≤ i → after[i]? = bytes[i]?
  refuses : bytes.length < offset + 8 →
    result = .error (.outOfBounds offset 8 bytes.length) bytes

theorem exact_overwriteWord64 (value : UInt64) (hsize : bytes.length < 2 ^ 64) (offset : Nat) :
    Exact value bytes offset (overwriteWord64 value offset bytes) := by
  by_cases h : Fits offset bytes.length
  · have hle := (fits_iff hsize).1 h
    have hleft : left value offset bytes = h.filled value := left_of_fits h
    rw [overwriteWord64_of_fits h]
    refine ⟨iff_of_true ⟨_, rfl⟩ hle, ?_, ?_, ?_, fun hlt => absurd hlt (by omega)⟩
    · rintro _ ⟨⟩
      exact word64_filled h
    · rintro _ ⟨⟩
      rw [← hleft, length_left]
    · rintro _ ⟨⟩ i hi
      rw [← hleft, getElem?_left, if_neg (by omega)]
  · have hlt : ¬ offset + 8 ≤ bytes.length := fun hle => h ((fits_iff hsize).2 hle)
    rw [overwriteWord64_of_not_fits h]
    exact ⟨iff_of_false nofun hlt, nofun, nofun, nofun, fun _ => rfl⟩

theorem commute_of_apart (value value' : UInt64) (h : Apart offset offset') :
    (overwriteWord64 value offset).Commute (overwriteWord64 value' offset') := by
  funext bytes
  refine Prod.ext (Prod.ext ?_ ?_) ?_
  · exact fst_attempt_left.symm
  · exact fst_attempt_left
  · exact left_comm h

end Field

/-- **Overwriting a word is exact and atomic.** A write succeeds if and only if its eight bytes are
there. It is then read back, and every other byte and the size are what they were; a write that is
refused reports the offset, eight and the size, and leaves the buffer as it was. Two words that are
apart may be written in either order. -/
theorem overwrite_exact (bytes : List UInt8) (hsize : bytes.length < 2 ^ 64) (value : UInt64)
    (offset : Nat) :
    Field.Exact value bytes offset (Field.overwriteWord64 value offset bytes) ∧
      ∀ value' offset', Field.Apart offset offset' →
        (Field.overwriteWord64 value offset).Commute (Field.overwriteWord64 value' offset') :=
  ⟨Field.exact_overwriteWord64 value hsize offset,
    fun value' _ hapart => Field.commute_of_apart value value' hapart⟩

/-- In the largest buffer there is, a word fits at the last place for it. One place on, a slot is
found as well, but up to the last index it has seven bytes. -/
theorem overwrite_exact_largest :
    let bytes : List UInt8 := List.replicate (2 ^ 64 - 1) 0xEE
    bytes.length < 2 ^ 64 ∧
      (∃ after, Field.overwriteWord64 0x0102030405060708 (2 ^ 64 - 9) bytes = .ok () after ∧
        Field.word64 after (2 ^ 64 - 9) = .ok 0x0102030405060708 ∧ after[0]? = some 0xEE) ∧
      Field.overwriteWord64 0x0102030405060708 (2 ^ 64 - 8) bytes =
        .error (.outOfBounds (2 ^ 64 - 8) 8 (2 ^ 64 - 1)) bytes ∧
      Field.Apart (2 ^ 64 - 9) 0 ∧
      (Field.overwriteWord64 1 (2 ^ 64 - 9)).Commute (Field.overwriteWord64 2 0) := by
  intro bytes
  have hlength : bytes.length = 2 ^ 64 - 1 := List.length_replicate
  have hsize : bytes.length < 2 ^ 64 := by
    rw [hlength]
    decide
  have hfirst : bytes[0]? = some 0xEE := List.getElem?_replicate_of_lt (by decide)
  have hapart : Field.Apart (2 ^ 64 - 9) 0 := Or.inr (by decide)
  obtain ⟨hlast, -⟩ := overwrite_exact bytes hsize 0x0102030405060708 (2 ^ 64 - 9)
  obtain ⟨hpast, -⟩ := overwrite_exact bytes hsize 0x0102030405060708 (2 ^ 64 - 8)
  obtain ⟨-, hcomm⟩ := overwrite_exact bytes hsize 1 (2 ^ 64 - 9)
  refine ⟨hsize, ?_, ?_, hapart, hcomm 2 0 hapart⟩
  · obtain ⟨after, hafter⟩ := hlast.succeeds.2 (by rw [hlength]; decide)
    have hkept := hlast.keeps after hafter 0 (Or.inl (by decide))
    exact ⟨after, hafter, hlast.reads_back after hafter, hkept.trans hfirst⟩
  · rw [hpast.refuses (by rw [hlength]; decide), hlength]

end Vitals.Wire
