/-
  Fields read by indices.

  The reads of a field, told once more by a machine whose indices are 64-bit words. It adds and
  subtracts indices, takes the bytes between two of them and copies bytes into arrays, and it traps
  where one of these is not possible.

  * `Trap`, `Stop`: what the machine traps at, and why a read stops.
  * `Indexed.byte`, `Indexed.word16`, `Indexed.word64`, `Indexed.paddedText`, `Indexed.prefixed`:
    the reads by indices.
  * `window_eq`: the window of a field is the window by indices, traps included; so are all reads.
  * `Field.Settled`, `Field.PrefixedSettled`: how a read ends, by the size of the buffer.
  * `reads_settled`: every read is settled, and the one trap is that of an empty text field which
    starts past the end.
-/
import Vitals.Proofs.Wire.Exact

namespace Vitals.Wire

/-! ## Machine indices -/

/-- What a machine of 64-bit indices traps at. -/
inductive Trap where
  /-- A sum of indices is not a word. -/
  | overflow (left right : Nat)
  /-- A difference of indices is negative. -/
  | underflow (left right : Nat)
  /-- Two indices do not lie in order within a buffer of some size. -/
  | range (start stop size : Nat)
  /-- An array of some size is filled with more bytes, or with fewer. -/
  | misfit (size given : Nat)
  deriving DecidableEq, Repr

/-- Why a read by indices yields nothing. -/
inductive Stop where
  /-- The bytes there are refused. -/
  | refused (cause : DecodeError)
  /-- The machine traps. -/
  | trapped (trap : Trap)
  deriving DecidableEq, Repr

/-- An empty window outside of its buffer is a range that does not lie within it. -/
def Stop.ofFault : ReadFault → Stop
  | .refused cause => .refused cause
  | .outside offset size => .trapped (.range offset offset size)

/-- A result as the machine has it. -/
def told {α : Type} (result : Except ReadFault α) : Except Stop α := result.mapError Stop.ofFault

namespace Indexed

/-- The sum of two indices. -/
def add (left right : Nat) : Except Stop Nat :=
  if left + right < 2 ^ 64 then .ok (left + right) else .error (.trapped (.overflow left right))

/-- The difference of two indices. -/
def sub (left right : Nat) : Except Stop Nat :=
  if right ≤ left then .ok (left - right) else .error (.trapped (.underflow left right))

/-- The bytes between two indices. -/
def between (bytes : List UInt8) (start stop : Nat) : Except Stop (List UInt8) :=
  if start ≤ stop ∧ stop ≤ bytes.length then .ok ((bytes.take stop).drop start)
  else .error (.trapped (.range start stop bytes.length))

/-- The first byte. -/
def first : List UInt8 → Except Stop UInt8
  | [] => .error (.trapped (.range 0 1 0))
  | b :: _ => .ok b

/-- An array of some size, filled with bytes. -/
def fill (size : Nat) (bytes : List UInt8) : Except Stop (List UInt8) :=
  if bytes.length = size then .ok bytes else .error (.trapped (.misfit size bytes.length))

/-- The `needed` bytes at `offset`. How many are available is a difference that stops at zero. -/
def window (bytes : List UInt8) (offset needed : Nat) : Except Stop (List UInt8) :=
  let available := bytes.length - offset
  if available < needed then .error (.refused (.truncated offset needed available))
  else do between bytes offset (← add offset needed)

/-- The byte at `offset`. -/
def byte (bytes : List UInt8) (offset : Nat) : Except Stop UInt8 := do
  first (← window bytes offset 1)

/-- The 16-bit word at `offset`. -/
def word16 (bytes : List UInt8) (offset : Nat) : Except Stop UInt16 := do
  return word16OfBytes (← fill 2 (← window bytes offset 2))

/-- The 64-bit word at `offset`. -/
def word64 (bytes : List UInt8) (offset : Nat) : Except Stop UInt64 := do
  return word64OfBytes (← fill 8 (← window bytes offset 8))

/-- The text in the field of `capacity` bytes at `offset`. It ends at the index of the first NUL, or
at `capacity` if there is none. -/
def paddedText (bytes : List UInt8) (offset capacity : Nat) : Except Stop String := do
  let field ← window bytes offset capacity
  let stop := (field.findIdx? (· = 0)).getD capacity
  return Text.lossy (← between field 0 stop)

/-- The bytes behind the length at `offset`, and the index just past them. -/
def prefixed (bytes : List UInt8) (offset : Nat) : Except Stop (List UInt8 × Nat) := do
  let declared ← word64 bytes offset
  let start ← add offset 8
  let remaining ← sub bytes.length start
  if remaining < declared.toNat then .error (.refused (.lengthOverflow declared remaining))
  else
    let stop ← add start declared.toNat
    return (← between bytes start stop, stop)

end Indexed

/-! ## Windows -/

namespace Field

variable {bytes : List UInt8} {offset needed : Nat}

theorem window_of_le (h : offset + needed ≤ bytes.length) :
    window bytes offset needed = .ok ((bytes.drop offset).take needed) := by
  have henough : ¬ bytes.length - offset < needed := by omega
  have hinside : ¬ bytes.length < offset := by omega
  rw [window, if_neg henough, if_neg hinside]

theorem window_of_lt (hneeded : 0 < needed ∨ offset ≤ bytes.length)
    (h : bytes.length < offset + needed) :
    window bytes offset needed =
      .error (.refused (.truncated offset needed (bytes.length - offset))) := by
  have hlacks : bytes.length - offset < needed := by omega
  rw [window, if_pos hlacks]

theorem window_outside (h : bytes.length < offset) :
    window bytes offset 0 = .error (.outside offset bytes.length) := by
  rw [window, if_neg (Nat.not_lt_zero _), if_pos h]

theorem window_eq_ok {front : List UInt8} (h : window bytes offset needed = .ok front) :
    front.length = needed ∧ offset + needed ≤ bytes.length := by
  by_cases hle : offset + needed ≤ bytes.length
  · rw [window_of_le hle] at h
    cases h
    refine ⟨List.length_take_of_le ?_, hle⟩
    rw [List.length_drop]
    omega
  · rw [Nat.not_le] at hle
    by_cases hneeded : 0 < needed ∨ offset ≤ bytes.length
    · rw [window_of_lt hneeded hle] at h
      cases h
    · obtain ⟨hzero, houtside⟩ := not_or.1 hneeded
      obtain rfl := Nat.eq_zero_of_not_pos hzero
      rw [window_outside (Nat.not_le.1 houtside)] at h
      cases h

variable {α : Type}

/-- What is made of a window is made of bytes that are there. -/
theorem le_of_map_window {f : List UInt8 → α} {x : α}
    (h : (window bytes offset needed).map f = .ok x) : offset + needed ≤ bytes.length := by
  cases hwindow : window bytes offset needed with
  | ok front => exact (window_eq_ok hwindow).2
  | error fault =>
    rw [hwindow] at h
    cases h

/-! A length is judged by what comes behind it. -/

variable {declared : UInt64}

theorem exists_word64 (h : offset + 8 ≤ bytes.length) :
    ∃ declared, word64 bytes offset = .ok declared := by
  refine ⟨word64OfBytes ((bytes.drop offset).take 8), ?_⟩
  rw [word64, window_of_le h]
  rfl

theorem prefixed_of_short (h : bytes.length < offset + 8) :
    prefixed bytes offset = .error (.refused (.truncated offset 8 (bytes.length - offset))) := by
  rw [prefixed, word64, window_of_lt (Or.inl (by decide)) h]
  rfl

theorem prefixed_of_lt (hw : word64 bytes offset = .ok declared)
    (h : bytes.length < offset + 8 + declared.toNat) : prefixed bytes offset =
      .error (.refused (.lengthOverflow declared (bytes.length - (offset + 8)))) := by
  have hle := le_of_map_window hw
  rw [prefixed, hw]
  exact if_pos (by omega)

theorem prefixed_of_le (hw : word64 bytes offset = .ok declared)
    (h : offset + 8 + declared.toNat ≤ bytes.length) : prefixed bytes offset =
      .ok ((bytes.drop (offset + 8)).take declared.toNat, offset + 8 + declared.toNat) := by
  rw [prefixed, hw]
  exact if_neg (by omega)

end Field

namespace Indexed

variable {bytes : List UInt8} {offset : Nat}

theorem add_of_lt {left right : Nat} (h : left + right < 2 ^ 64) :
    add left right = .ok (left + right) := if_pos h

theorem sub_of_le {left right : Nat} (h : right ≤ left) : sub left right = .ok (left - right) :=
  if_pos h

theorem between_of_le {start needed : Nat} (h : start + needed ≤ bytes.length) :
    between bytes start (start + needed) = .ok ((bytes.drop start).take needed) := by
  have hrange : start ≤ start + needed ∧ start + needed ≤ bytes.length :=
    ⟨Nat.le_add_right _ _, h⟩
  rw [between, if_pos hrange, List.drop_take, Nat.add_sub_cancel_left]

/-- **The window of a field is its window by indices.** A sum of indices is formed only once the
bytes are known to be there, or if there are none. -/
theorem window_eq (hsize : bytes.length < 2 ^ 64) (hoffset : offset < 2 ^ 64) (needed : Nat) :
    window bytes offset needed = told (Field.window bytes offset needed) := by
  unfold window
  by_cases hlacks : bytes.length - offset < needed
  · rw [if_pos hlacks, Field.window, if_pos hlacks]
    rfl
  rw [if_neg hlacks, add_of_lt (by omega)]
  by_cases hle : offset + needed ≤ bytes.length
  · rw [Field.window_of_le hle]
    exact between_of_le hle
  · -- Nothing is needed, and the offset is past the end.
    obtain rfl : needed = 0 := by omega
    have houtside : bytes.length < offset := by omega
    rw [Field.window_outside houtside]
    exact if_neg (by omega)

/-- A machine that goes on with a window of the right size and does not trap goes on as the field
does. -/
theorem window_bind {α : Type} {needed : Nat} {k : List UInt8 → Except Stop α} {f : List UInt8 → α}
    (hsize : bytes.length < 2 ^ 64) (hoffset : offset < 2 ^ 64)
    (hk : ∀ front, front.length = needed → k front = .ok (f front)) :
    window bytes offset needed >>= k = told ((Field.window bytes offset needed).map f) := by
  rw [window_eq hsize hoffset]
  cases h : Field.window bytes offset needed with
  | ok front => exact hk front (Field.window_eq_ok h).1
  | error fault => rfl

/-! ## Reads -/

theorem byte_eq (hsize : bytes.length < 2 ^ 64) (hoffset : offset < 2 ^ 64) :
    byte bytes offset = told (Field.byte bytes offset) := by
  refine window_bind hsize hoffset fun front hfront => ?_
  obtain ⟨b, rfl⟩ := List.length_eq_one_iff.1 hfront
  rfl

theorem word16_eq (hsize : bytes.length < 2 ^ 64) (hoffset : offset < 2 ^ 64) :
    word16 bytes offset = told (Field.word16 bytes offset) := by
  refine window_bind hsize hoffset fun front hfront => ?_
  rw [fill, if_pos hfront]
  rfl

theorem word64_eq (hsize : bytes.length < 2 ^ 64) (hoffset : offset < 2 ^ 64) :
    word64 bytes offset = told (Field.word64 bytes offset) := by
  refine window_bind hsize hoffset fun front hfront => ?_
  rw [fill, if_pos hfront]
  rfl

/-- The index of the first NUL lies in its field, and what is in front of it is what the text is
made of. -/
theorem between_findIdx? (field : List UInt8) :
    between field 0 ((field.findIdx? (· = 0)).getD field.length) =
      .ok (field.takeWhile (· ≠ 0)) := by
  have hvisible : field.takeWhile (· ≠ 0) = field.take (field.findIdx (· = 0)) := by
    rw [List.takeWhile_eq_take_findIdx_not]
    congr 2
    funext b
    simp
  rw [← List.findIdx_eq_getD_findIdx?, hvisible, between,
    if_pos ⟨Nat.zero_le _, List.findIdx_le_length⟩, List.drop_zero]

theorem paddedText_eq (hsize : bytes.length < 2 ^ 64) (hoffset : offset < 2 ^ 64) (capacity : Nat) :
    paddedText bytes offset capacity = told (Field.paddedText bytes offset capacity) := by
  refine window_bind hsize hoffset fun front hfront => ?_
  dsimp only
  rw [← hfront, between_findIdx?]
  rfl

/-- A length is read before anything is added to its offset, and it is judged before it is added. -/
theorem prefixed_eq (hsize : bytes.length < 2 ^ 64) (hoffset : offset < 2 ^ 64) :
    prefixed bytes offset = told (Field.prefixed bytes offset) := by
  unfold prefixed Field.prefixed
  rw [word64_eq hsize hoffset]
  cases hw : Field.word64 bytes offset with
  | error fault => rfl
  | ok declared =>
    have hle := Field.le_of_map_window hw
    show (add offset 8 >>= _) = told (if _ then _ else _)
    rw [add_of_lt (by omega)]
    show (sub bytes.length (offset + 8) >>= _) = _
    rw [sub_of_le hle]
    show (if _ then _ else _) = _
    by_cases hover : bytes.length - (offset + 8) < declared.toNat
    · rw [if_pos hover, if_pos hover]
      rfl
    · have hstop : offset + 8 + declared.toNat ≤ bytes.length := by omega
      rw [if_neg hover, if_neg hover, add_of_lt (by omega)]
      show (between bytes (offset + 8) (offset + 8 + declared.toNat) >>= _) = _
      rw [between_of_le hstop]
      rfl

end Indexed

/-! ## How reads end -/

namespace Field

/-- A read of the `size` bytes at an offset is settled: if they are all there it gives what they
spell, and if not it refuses them as truncated. By indices it is the same, without a trap. -/
structure Settled {α : Type} (bytes : List UInt8) (offset size : Nat)
    (Spells : α → List UInt8 → Prop) (read : Except ReadFault α) (machine : Except Stop α) :
    Prop where
  accepts : offset + size ≤ bytes.length →
    ∃ x, read = .ok x ∧ Spells x ((bytes.drop offset).take size)
  refuses : bytes.length < offset + size →
    read = .error (.refused (.truncated offset size (bytes.length - offset)))
  agrees : machine = told read
  safe : ∀ trap, machine ≠ .error (.trapped trap)

/-- A read of the bytes behind a length is settled: a length that is not there is truncated, one
that reaches past the end overflows, and behind any other there are its bytes. -/
structure PrefixedSettled (bytes : List UInt8) (offset : Nat)
    (read : Except ReadFault (List UInt8 × Nat)) (machine : Except Stop (List UInt8 × Nat)) :
    Prop where
  short : bytes.length < offset + 8 →
    read = .error (.refused (.truncated offset 8 (bytes.length - offset)))
  overflows : ∀ declared, word64 bytes offset = .ok declared →
    bytes.length < offset + 8 + declared.toNat →
      read = .error (.refused (.lengthOverflow declared (bytes.length - (offset + 8))))
  accepts : ∀ declared, word64 bytes offset = .ok declared →
    offset + 8 + declared.toNat ≤ bytes.length →
      read = .ok ((bytes.drop (offset + 8)).take declared.toNat, offset + 8 + declared.toNat)
  agrees : machine = told read
  safe : ∀ trap, machine ≠ .error (.trapped trap)

variable {α : Type} {bytes : List UInt8} {offset size : Nat}

/-- Whatever is made of a window is settled, unless the window is empty and starts past the end. -/
theorem settled_map {Spells : α → List UInt8 → Prop} {f : List UInt8 → α} {machine : Except Stop α}
    (hwindow : 0 < size ∨ offset ≤ bytes.length)
    (hf : ∀ front, front.length = size → Spells (f front) front)
    (hmachine : machine = told ((window bytes offset size).map f)) :
    Settled bytes offset size Spells ((window bytes offset size).map f) machine where
  accepts hle := by
    have hfront := window_of_le hle
    rw [hfront]
    exact ⟨_, rfl, hf _ (window_eq_ok hfront).1⟩
  refuses hlt := by
    rw [window_of_lt hwindow hlt]
    rfl
  agrees := hmachine
  safe trap := by
    rw [hmachine]
    rcases Nat.lt_or_ge bytes.length (offset + size) with hlt | hle
    · rw [window_of_lt hwindow hlt]
      nofun
    · rw [window_of_le hle]
      nofun

theorem prefixed_settled {machine : Except Stop (List UInt8 × Nat)}
    (hmachine : machine = told (prefixed bytes offset)) :
    PrefixedSettled bytes offset (prefixed bytes offset) machine where
  short := prefixed_of_short
  overflows _ := prefixed_of_lt
  accepts _ := prefixed_of_le
  agrees := hmachine
  safe trap := by
    rw [hmachine]
    rcases Nat.lt_or_ge bytes.length (offset + 8) with hshort | hword
    · rw [prefixed_of_short hshort]
      nofun
    · obtain ⟨declared, hw⟩ := exists_word64 hword
      rcases Nat.lt_or_ge bytes.length (offset + 8 + declared.toNat) with hlt | hle
      · rw [prefixed_of_lt hw hlt]
        nofun
      · rw [prefixed_of_le hw hle]
        nofun

end Field

/-- **Reads are total.** At any offset of any buffer, each read gives a value exactly if the bytes
it needs are there, and a refusal if they are not; indices do not overflow and no range is out of
bounds, with one exception. That is a text field of no bytes that starts past the end. -/
theorem reads_settled (bytes : List UInt8) (hsize : bytes.length < 2 ^ 64) (offset : Nat)
    (hoffset : offset < 2 ^ 64) :
    Field.Settled bytes offset 1 (fun b front => front = [b])
      (Field.byte bytes offset) (Indexed.byte bytes offset) ∧
    Field.Settled bytes offset 2 (fun w front => front = word16Bytes w)
      (Field.word16 bytes offset) (Indexed.word16 bytes offset) ∧
    Field.Settled bytes offset 8 (fun w front => front = word64Bytes w)
      (Field.word64 bytes offset) (Indexed.word64 bytes offset) ∧
    (∀ capacity, 0 < capacity ∨ offset ≤ bytes.length →
      Field.Settled bytes offset capacity
        (fun text front => text = Text.lossy (front.takeWhile (· ≠ 0)))
        (Field.paddedText bytes offset capacity) (Indexed.paddedText bytes offset capacity)) ∧
    Field.PrefixedSettled bytes offset (Field.prefixed bytes offset)
      (Indexed.prefixed bytes offset) ∧
    ∀ capacity trap, Indexed.paddedText bytes offset capacity = .error (.trapped trap) ↔
      capacity = 0 ∧ bytes.length < offset ∧ trap = .range offset offset bytes.length := by
  have htext (capacity) (hwindow : 0 < capacity ∨ offset ≤ bytes.length) :
      Field.Settled bytes offset capacity
        (fun text front => text = Text.lossy (front.takeWhile (· ≠ 0)))
        (Field.paddedText bytes offset capacity) (Indexed.paddedText bytes offset capacity) :=
    Field.settled_map hwindow (fun _ _ => rfl) (Indexed.paddedText_eq hsize hoffset capacity)
  refine ⟨?_, ?_, ?_, htext, Field.prefixed_settled (Indexed.prefixed_eq hsize hoffset), ?_⟩
  · refine Field.settled_map (Or.inl Nat.one_pos) ?_ (Indexed.byte_eq hsize hoffset)
    intro front hfront
    obtain ⟨b, rfl⟩ := List.length_eq_one_iff.1 hfront
    rfl
  · refine Field.settled_map (Or.inl Nat.two_pos) ?_ (Indexed.word16_eq hsize hoffset)
    exact fun front hfront => (word16Bytes_word16OfBytes hfront).symm
  · refine Field.settled_map (Or.inl (by decide)) ?_ (Indexed.word64_eq hsize hoffset)
    exact fun front hfront => (word64Bytes_word64OfBytes hfront).symm
  · intro capacity trap
    by_cases hwindow : 0 < capacity ∨ offset ≤ bytes.length
    · refine iff_of_false ((htext capacity hwindow).safe trap) ?_
      rintro ⟨rfl, hlt, -⟩
      omega
    · obtain ⟨hzero, houtside⟩ := not_or.1 hwindow
      obtain rfl := Nat.eq_zero_of_not_pos hzero
      rw [Nat.not_le] at houtside
      rw [Indexed.paddedText_eq hsize hoffset, Field.paddedText, Field.window_outside houtside]
      constructor
      · rintro ⟨⟩
        exact ⟨rfl, houtside, rfl⟩
      · rintro ⟨-, -, rfl⟩
        rfl

/-- A length of `2 ^ 64 - 1` in front of one byte, the last offset there is, and texts of no bytes
at the end and past it. -/
theorem reads_settled_hostile :
    let bytes := word64Bytes 0xFFFFFFFFFFFFFFFF ++ [0x61]
    Indexed.prefixed bytes 0 = .error (.refused (.lengthOverflow 0xFFFFFFFFFFFFFFFF 1)) ∧
      Indexed.word64 bytes (2 ^ 64 - 1) = .error (.refused (.truncated (2 ^ 64 - 1) 8 0)) ∧
      Indexed.paddedText bytes 9 0 = .ok "" ∧
      Indexed.paddedText bytes 10 0 = .error (.trapped (.range 10 10 9)) := by
  intro bytes
  have hsize : bytes.length < 2 ^ 64 := by decide
  obtain ⟨-, -, -, -, hprefixed, -⟩ := reads_settled bytes hsize 0 (by decide)
  obtain ⟨-, -, hword, -⟩ := reads_settled bytes hsize (2 ^ 64 - 1) (by decide)
  obtain ⟨-, -, -, htext, -⟩ := reads_settled bytes hsize 9 (by decide)
  obtain ⟨-, -, -, -, -, htraps⟩ := reads_settled bytes hsize 10 (by decide)
  refine ⟨?_, ?_, ?_, (htraps 0 _).2 ⟨rfl, by decide, rfl⟩⟩
  · rw [hprefixed.agrees, hprefixed.overflows 0xFFFFFFFFFFFFFFFF rfl (by decide)]
    rfl
  · have hnone : bytes.length - (2 ^ 64 - 1) = 0 := by decide
    rw [hword.agrees, hword.refuses (by decide), hnone]
    rfl
  · have hend := htext 0 (Or.inr (by decide))
    obtain ⟨text, hread, rfl⟩ := hend.accepts (by decide)
    rw [hend.agrees, hread, List.take_zero, List.takeWhile_nil, Text.lossy, Text.lossyChars,
      Text.pieces_nil]
    rfl

/-- A text field of no bytes is neither read nor refused if it starts past the end. -/
theorem text_past_end :
    Field.paddedText [0x61] 2 0 = .error (.outside 2 1) ∧
      Indexed.paddedText [0x61] 2 0 = .error (.trapped (.range 2 2 1)) ∧
      ¬ ((∃ text, Field.paddedText [0x61] 2 0 = .ok text) ∨
        ∃ cause, Field.paddedText [0x61] 2 0 = .error (.refused cause)) := by
  have houtside : Field.paddedText [0x61] 2 0 = .error (.outside 2 1) := rfl
  refine ⟨houtside, rfl, ?_⟩
  rw [houtside]
  rintro (⟨text, h⟩ | ⟨cause, h⟩) <;> cases h

end Vitals.Wire
