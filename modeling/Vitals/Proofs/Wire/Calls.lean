/-
  Calls on a reader, one after another.

  * `Call`, `Value`: the calls that a reader answers, and what they give.
  * `Call.field`: what is read of a whole payload at an offset; `Call.extent`: how many bytes a
    value covers there; `Call.covered`: how many several values do.
  * `Decoder.Fetches`: from any place, a decoder takes what is read there, or refuses it in place.
  * `Indexed.Cursor`, `Indexed.call`: a reader that keeps its whole payload and an index.
  * `Indexed.Mirrors`: such a reader does what a decoder does, and does not trap.
  * `Call.Answered`: how one call is answered; `answered` is the step and `within_after` the run.
  * `reader_invariant`: what holds of a reader after any calls, whether they were refused or not.
-/
import Vitals.Proofs.Wire.Indexed
import Vitals.Proofs.Wire.Language
import Vitals.Proofs.Wire.Slices

namespace Vitals.Wire

/-! ## Calls -/

/-- A call on a reader. -/
inductive Call where
  | byte
  | word16
  | word64
  | paddedText (capacity : Nat)
  | prefixed
  | count (size : Nat)
  deriving DecidableEq, Repr

/-- What a call gives. -/
inductive Value where
  | byte (value : UInt8)
  | word16 (value : UInt16)
  | word64 (value : UInt64)
  | text (value : String)
  | bytes (value : List UInt8)
  | count (value : Nat)
  deriving DecidableEq, Repr

namespace Call

/-- A call takes a value off the front of a reader. -/
def decoder : Call → Decoder Value
  | byte => return .byte (← Reader.byte)
  | word16 => return .word16 (← Reader.word16)
  | word64 => return .word64 (← Reader.word64)
  | paddedText capacity => return .text (← Reader.paddedText capacity)
  | prefixed => return .bytes (← Reader.prefixed)
  | count size => return .count (← Reader.count size)

/-- What a call is to give at an offset of a payload. A count is a word. -/
def field (payload : List UInt8) (offset : Nat) : Call → Except ReadFault Value
  | byte => (Field.byte payload offset).map .byte
  | word16 => (Field.word16 payload offset).map .word16
  | word64 => (Field.word64 payload offset).map .word64
  | paddedText capacity => (Field.paddedText payload offset capacity).map .text
  | prefixed => ((Field.prefixed payload offset).map (·.1)).map .bytes
  | count _ => (Field.word64 payload offset).map fun w => .count w.toNat

/-- How many bytes are covered by what a call gives. -/
def extent : Call → Value → Nat
  | byte, _ => 1
  | word16, _ => 2
  | word64, _ => 8
  | paddedText capacity, _ => capacity
  | prefixed, .bytes bytes => 8 + bytes.length
  | prefixed, _ => 8
  | count _, _ => 8

/-- How many bytes are covered by all that some calls give. -/
def covered : List Call → List Value → Nat
  | c :: calls, value :: values => c.extent value + covered calls values
  | _, _ => 0

/-- A reader after some calls, each made whether those before it were refused or not. -/
def after : List Call → Reader → Reader
  | [], r => r
  | c :: calls, r => after calls (c.decoder.stop r)

/-- Calls of which none is refused. -/
def all : List Call → Decoder (List Value)
  | [] => pure []
  | c :: calls => do
    let value ← c.decoder
    let values ← all calls
    return value :: values

/-- What calls are to give, each of them behind what those before it cover. -/
def fields (payload : List UInt8) : Nat → List Call → Except ReadFault (List Value)
  | _, [] => .ok []
  | offset, c :: calls => do
    let value ← c.field payload offset
    let values ← fields payload (offset + c.extent value) calls
    return value :: values

end Call

/-! ## Places -/

namespace Reader.Within

variable {payload : List UInt8} {r : Reader}

theorem length_eq (h : r.Within payload) : r.position + r.remaining = payload.length := by
  obtain ⟨front, hpayload, hposition⟩ := h
  rw [hpayload, List.length_append, hposition, remaining]

theorem position_le (h : r.Within payload) : r.position ≤ payload.length :=
  h.length_eq ▸ Nat.le_add_right _ _

theorem rest_eq (h : r.Within payload) : r.rest = payload.drop r.position := by
  obtain ⟨front, hpayload, hposition⟩ := h
  rw [hpayload, ← hposition, List.drop_left]

end Reader.Within

/-! ## What is fetched -/

namespace Decoder

variable {α β : Type} {payload : List UInt8} {r : Reader} {d : Decoder α}
  {read : Except ReadFault α}

/-- At a place of a payload a decoder takes what is read there, and so many bytes for it; or it
refuses what is refused there, and stays where it is. -/
def Fetches (payload : List UInt8) (r : Reader) (d : Decoder α) (read : Except ReadFault α)
    (extent : α → Nat) : Prop :=
  (∃ x, read = .ok x ∧ r.position + extent x ≤ payload.length ∧
    d r = .ok x ⟨r.position + extent x, r.rest.drop (extent x)⟩) ∨
  ∃ e, read = .error (.refused e) ∧ d r = .error e r

theorem fetches_map {f : α → β} {extent : β → Nat}
    (h : Fetches payload r d read fun x => extent (f x)) :
    Fetches payload r (d >>= fun x => pure (f x)) (read.map f) extent := by
  rcases h with ⟨x, rfl, hle, hd⟩ | ⟨e, rfl, hd⟩
  · refine Or.inl ⟨f x, rfl, hle, ?_⟩
    rw [bind_of_ok hd]
    rfl
  · exact Or.inr ⟨e, rfl, bind_of_error hd _⟩

end Decoder

namespace Reader

open Decoder

variable {payload : List UInt8} {r : Reader}

theorem fetches_take (hr : r.Within payload) (n : Nat) :
    Fetches payload r (take n) (Field.window payload r.position n) fun _ => n := by
  have hlength := hr.length_eq
  unfold remaining at hlength
  by_cases hlacks : r.rest.length < n
  · have hrest : r.rest.length = payload.length - r.position := by omega
    refine Or.inr ⟨.truncated r.position n r.rest.length, ?_, ?_⟩
    · rw [Field.window_of_lt (Or.inr hr.position_le) (by omega), hrest]
    · rw [take, if_pos (lacks_iff.2 hlacks), remaining]
  · have hle : r.position + n ≤ payload.length := by omega
    refine Or.inl ⟨r.rest.take n, ?_, hle, ?_⟩
    · rw [Field.window_of_le hle, hr.rest_eq]
    · rw [take, if_neg (mt lacks_iff.1 hlacks)]

theorem fetches_byte (hr : r.Within payload) :
    Fetches payload r byte (Field.byte payload r.position) fun _ => 1 :=
  fetches_map (fetches_take hr 1)

theorem fetches_word16 (hr : r.Within payload) :
    Fetches payload r word16 (Field.word16 payload r.position) fun _ => 2 :=
  fetches_map (fetches_take hr 2)

theorem fetches_word64 (hr : r.Within payload) :
    Fetches payload r word64 (Field.word64 payload r.position) fun _ => 8 :=
  fetches_map (fetches_take hr 8)

theorem fetches_paddedText (hr : r.Within payload) (capacity : Nat) :
    Fetches payload r (paddedText capacity) (Field.paddedText payload r.position capacity)
      fun _ => capacity :=
  fetches_map (fetches_take hr capacity)

/-- The bytes behind a length are fetched, and the offset past them is where the reader comes to. -/
theorem prefixed_cases (hr : r.Within payload) :
    (∃ bytes, Field.prefixed payload r.position = .ok (bytes, r.position + (8 + bytes.length)) ∧
      r.position + (8 + bytes.length) ≤ payload.length ∧
      Reader.prefixed r =
        .ok bytes ⟨r.position + (8 + bytes.length), r.rest.drop (8 + bytes.length)⟩) ∨
    ∃ e, Field.prefixed payload r.position = .error (.refused e) ∧
      Reader.prefixed r = .error e r := by
  have hlength := hr.length_eq
  unfold remaining at hlength
  rcases fetches_word64 hr with ⟨w, hw, hle, hword⟩ | ⟨e, hw, hword⟩
  · dsimp only at hle
    have hrest : (r.rest.drop 8).length = payload.length - (r.position + 8) := by
      rw [List.length_drop]
      omega
    by_cases hlacks : (r.rest.drop 8).length < w.toNat
    · refine Or.inr ⟨.lengthOverflow w (r.rest.drop 8).length, ?_, ?_⟩
      · rw [Field.prefixed_of_lt hw (by omega), hrest]
      · simp only [Reader.prefixed, hword, lacks_iff, if_pos hlacks, remaining]
    · have hbytes : ((r.rest.drop 8).take w.toNat).length = w.toNat :=
        List.length_take_of_le (Nat.not_lt.1 hlacks)
      refine Or.inl ⟨(r.rest.drop 8).take w.toNat, ?_, by omega, ?_⟩
      · rw [Field.prefixed_of_le hw (by omega), hbytes, hr.rest_eq, List.drop_drop, Nat.add_assoc]
      · simp only [Reader.prefixed, hword, take, lacks_iff, if_neg hlacks, hbytes, List.drop_drop,
          Nat.add_assoc]
  · refine Or.inr ⟨e, ?_, ?_⟩
    · rw [Field.prefixed, hw]
      rfl
    · simp only [Reader.prefixed, hword]

theorem fetches_prefixed (hr : r.Within payload) :
    Fetches payload r Reader.prefixed ((Field.prefixed payload r.position).map (·.1))
      fun bytes => 8 + bytes.length := by
  rcases prefixed_cases hr with ⟨bytes, hread, hle, hd⟩ | ⟨e, hread, hd⟩
  · exact Or.inl ⟨bytes, by rw [hread]; rfl, hle, hd⟩
  · exact Or.inr ⟨e, by rw [hread]; rfl, hd⟩

/-- A count is a word that is fetched and then judged by what is left behind it. -/
theorem count_eq (size : Nat) :
    count size r = match word64 r with
      | .ok w r' => if fits w size r'.remaining then .ok w.toNat r'
        else .error (.countOverflow w r'.remaining) r'
      | .error e r' => .error e r' := by
  unfold count
  cases hword : word64 r with
  | ok w r' =>
    rw [bind_of_ok hword]
    show (if fits w size r'.remaining = true then pure w.toNat
      else Decoder.refuse (.countOverflow w r'.remaining) : Decoder Nat) r' = _
    dsimp only
    split <;> rfl
  | error e r' => exact bind_of_error hword _

end Reader

/-! ## A reader by indices -/

namespace Indexed

/-- A place in a payload that is kept as a whole. -/
structure Cursor where
  payload : List UInt8
  /-- The index of the next byte. -/
  position : Nat
  deriving DecidableEq, Repr

variable {α β : Type}

/-- Reads at the position, and adds to it what is covered. -/
def advance (read : List UInt8 → Nat → Except Stop α) (width : Nat) : EStateM Stop Cursor α :=
  fun c => match read c.payload c.position with
  | .error stop => .error stop c
  | .ok x =>
    match add c.position width with
    | .error stop => .error stop c
    | .ok position => .ok x { c with position }

/-- Reads the bytes behind a length, and goes to the index past them. -/
def advancePrefixed : EStateM Stop Cursor (List UInt8) := fun c =>
  match prefixed c.payload c.position with
  | .error stop => .error stop c
  | .ok (bytes, position) => .ok bytes { c with position }

/-- Reads a count, and judges it by how many bytes are left. -/
def advanceCount (size : Nat) : EStateM Stop Cursor Nat := fun c =>
  match advance word64 8 c with
  | .error stop c' => .error stop c'
  | .ok w c' =>
    match sub c'.payload.length c'.position with
    | .error stop => .error stop c'
    | .ok remaining =>
      if Reader.fits w size remaining then .ok w.toNat c'
      else .error (.refused (.countOverflow w remaining)) c'

/-- What a call does to a cursor. -/
def call : Call → EStateM Stop Cursor Value
  | .byte => return .byte (← advance byte 1)
  | .word16 => return .word16 (← advance word16 2)
  | .word64 => return .word64 (← advance word64 8)
  | .paddedText capacity =>
    return .text (← advance (fun bytes offset => paddedText bytes offset capacity) capacity)
  | .prefixed => return .bytes (← advancePrefixed)
  | .count size => return .count (← advanceCount size)

/-- A cursor after some calls, each made whether those before it were refused or not; or the first
trap. -/
def after : List Call → Cursor → Except Trap Cursor
  | [], c => .ok c
  | first :: calls, c =>
    match call first c with
    | .ok _ c' => after calls c'
    | .error (.refused _) c' => after calls c'
    | .error (.trapped trap) _ => .error trap

/-- What becomes of a cursor where this becomes of a reader. -/
def mirror (payload : List UInt8) :
    EStateM.Result DecodeError Reader α → EStateM.Result Stop Cursor α
  | .ok x r => .ok x ⟨payload, r.position⟩
  | .error e r => .error (.refused e) ⟨payload, r.position⟩

/-- At a place of a payload, a cursor does what a decoder does. So it does not trap. -/
def Mirrors (payload : List UInt8) (r : Reader) (m : EStateM Stop Cursor α) (d : Decoder α) :
    Prop :=
  m ⟨payload, r.position⟩ = mirror payload (d r)

variable {payload : List UInt8} {r : Reader} {m : EStateM Stop Cursor α} {d : Decoder α}

theorem mirrors_map (h : Mirrors payload r m d) (f : α → β) :
    Mirrors payload r (m >>= fun x => pure (f x)) (d >>= fun x => pure (f x)) := by
  unfold Mirrors at h ⊢
  show EStateM.bind m _ _ = mirror payload (EStateM.bind d _ _)
  unfold EStateM.bind
  rw [h]
  cases d r <;> rfl

/-- Where the machine reads what is fetched, it comes to the same place. -/
theorem mirrors_advance {read : List UInt8 → Nat → Except Stop α} {field : Except ReadFault α}
    {width : Nat} (hsize : payload.length < 2 ^ 64)
    (hread : read payload r.position = told field)
    (h : d.Fetches payload r field fun _ => width) : Mirrors payload r (advance read width) d := by
  unfold Mirrors advance
  dsimp only
  rcases h with ⟨x, rfl, hle, hd⟩ | ⟨e, rfl, hd⟩
  · dsimp only at hle
    rw [hread, hd]
    show (match add r.position width with
      | .error stop => _
      | .ok position => _) = _
    rw [add_of_lt (by omega)]
    rfl
  · rw [hread, hd]
    rfl

variable (hsize : payload.length < 2 ^ 64) (hr : r.Within payload)

include hsize hr

theorem mirrors_advancePrefixed : Mirrors payload r advancePrefixed Reader.prefixed := by
  have hoffset : r.position < 2 ^ 64 := Nat.lt_of_le_of_lt hr.position_le hsize
  unfold Mirrors advancePrefixed
  rw [prefixed_eq hsize hoffset]
  rcases Reader.prefixed_cases hr with ⟨bytes, hread, hle, hd⟩ | ⟨e, hread, hd⟩
  · rw [hread, hd]
    rfl
  · rw [hread, hd]
    rfl

/-- Once its word is read, what is left is a difference of the length and an index before it. -/
theorem mirrors_advanceCount (size : Nat) :
    Mirrors payload r (advanceCount size) (Reader.count size) := by
  have hoffset : r.position < 2 ^ 64 := Nat.lt_of_le_of_lt hr.position_le hsize
  have hword := Reader.fetches_word64 hr
  have hadvance : Mirrors payload r (advance word64 8) Reader.word64 :=
    mirrors_advance hsize (word64_eq hsize hoffset) hword
  have hkeeps := Reader.keeps_word64 payload r hr
  unfold Mirrors at hadvance
  unfold Mirrors advanceCount
  rw [hadvance, Reader.count_eq]
  unfold Decoder.stop at hkeeps
  cases hw : Reader.word64 r with
  | error e r' => rfl
  | ok w r' =>
    rw [hw] at hkeeps
    have hremaining : payload.length - r'.position = r'.remaining := by
      rw [← hkeeps.length_eq, Nat.add_sub_cancel_left]
    dsimp only [mirror]
    rw [sub_of_le hkeeps.position_le, hremaining]
    dsimp only
    split <;> rfl

/-- **A reader by indices answers every call as the reader does**, and does not trap. -/
theorem mirrors_call (c : Call) : Mirrors payload r (call c) c.decoder := by
  have hoffset : r.position < 2 ^ 64 := Nat.lt_of_le_of_lt hr.position_le hsize
  cases c with
  | byte =>
    exact mirrors_map (mirrors_advance hsize (byte_eq hsize hoffset) (Reader.fetches_byte hr)) _
  | word16 =>
    exact mirrors_map (mirrors_advance hsize (word16_eq hsize hoffset) (Reader.fetches_word16 hr)) _
  | word64 =>
    exact mirrors_map (mirrors_advance hsize (word64_eq hsize hoffset) (Reader.fetches_word64 hr)) _
  | paddedText capacity =>
    exact mirrors_map (mirrors_advance hsize (paddedText_eq hsize hoffset capacity)
      (Reader.fetches_paddedText hr capacity)) _
  | prefixed => exact mirrors_map (mirrors_advancePrefixed hsize hr) _
  | count size => exact mirrors_map (mirrors_advanceCount hsize hr size) _

end Indexed

/-! ## One call -/

namespace Call

/-- A call is answered at a place of a payload: with what is read there, and then all that is
covered is passed; or it is refused in place, unless it is a count that does not fit, whose word is
passed. A reader by indices does the same. -/
structure Answered (payload : List UInt8) (r : Reader) (c : Call) : Prop where
  accepts : ∀ value r', c.decoder r = .ok value r' →
    c.field payload r.position = .ok value ∧ r'.position = r.position + c.extent value
  refuses : ∀ e r', c.decoder r = .error e r' →
    (c.field payload r.position = .error (.refused e) ∧ r' = r) ∨
    ∃ size w, c = .count size ∧ Field.word64 payload r.position = .ok w ∧
      Reader.fits w size r'.remaining = false ∧ e = .countOverflow w r'.remaining ∧
        r'.position = r.position + 8
  mirrors : Indexed.Mirrors payload r (Indexed.call c) c.decoder

variable {payload : List UInt8} {r : Reader}

theorem Answered.of_ok {c : Call} {value : Value} {r' : Reader}
    (hd : c.decoder r = .ok value r') (hfield : c.field payload r.position = .ok value)
    (hposition : r'.position = r.position + c.extent value)
    (hmirrors : Indexed.Mirrors payload r (Indexed.call c) c.decoder) : c.Answered payload r where
  accepts value' r'' h := by
    rw [hd] at h
    cases h
    exact ⟨hfield, hposition⟩
  refuses e r'' h := by
    rw [hd] at h
    cases h
  mirrors := hmirrors

theorem Answered.of_error {c : Call} {e : DecodeError} (hd : c.decoder r = .error e r)
    (hfield : c.field payload r.position = .error (.refused e))
    (hmirrors : Indexed.Mirrors payload r (Indexed.call c) c.decoder) : c.Answered payload r where
  accepts value r' h := by
    rw [hd] at h
    cases h
  refuses e' r' h := by
    rw [hd] at h
    cases h
    exact Or.inl ⟨hfield, rfl⟩
  mirrors := hmirrors

/-- What is fetched is what a call is to give, so it is answered. -/
theorem Answered.of_fetches {c : Call}
    (h : c.decoder.Fetches payload r (c.field payload r.position) c.extent)
    (hmirrors : Indexed.Mirrors payload r (Indexed.call c) c.decoder) : c.Answered payload r := by
  rcases h with ⟨x, hfield, -, hd⟩ | ⟨e, hfield, hd⟩
  · exact .of_ok hd hfield rfl hmirrors
  · exact .of_error hd hfield hmirrors

theorem decoder_count (size : Nat) :
    (count size).decoder r = match Reader.word64 r with
      | .ok w r' => if Reader.fits w size r'.remaining then .ok (.count w.toNat) r'
        else .error (.countOverflow w r'.remaining) r'
      | .error e r' => .error e r' := by
  show EStateM.bind (Reader.count size) _ r = _
  unfold EStateM.bind
  rw [Reader.count_eq]
  cases Reader.word64 r with
  | ok w r' =>
    dsimp only
    by_cases hfits : Reader.fits w size r'.remaining = true
    · rw [if_pos hfits, if_pos hfits]
      rfl
    · rw [if_neg hfits, if_neg hfits]
  | error e r' => rfl

/-- A count that is taken is its word, and one that does not fit is refused once its word is read.
-/
theorem answered_count (size : Nat) (hr : r.Within payload)
    (hmirrors : Indexed.Mirrors payload r (Indexed.call (count size)) (count size).decoder) :
    (count size).Answered payload r := by
  have hcount := decoder_count size (r := r)
  rcases Reader.fetches_word64 hr with ⟨w, hw, -, hword⟩ | ⟨e, hw, hword⟩
  · rw [hword] at hcount
    dsimp only at hcount
    cases hfits : Reader.fits w size (Reader.mk (r.position + 8) (r.rest.drop 8)).remaining with
    | true =>
      rw [hfits, if_pos rfl] at hcount
      exact .of_ok hcount (by rw [field, hw]; rfl) rfl hmirrors
    | false =>
      rw [hfits, if_neg Bool.false_ne_true] at hcount
      refine ⟨fun value r' h => ?_, fun e r' h => ?_, hmirrors⟩
      · rw [hcount] at h
        cases h
      · rw [hcount] at h
        cases h
        exact Or.inr ⟨size, w, rfl, hw, hfits, rfl, rfl⟩
  · rw [hword] at hcount
    exact .of_error hcount (by rw [field, hw]; rfl) hmirrors

/-- **Every call is answered**, at any place of a payload. -/
theorem answered (hsize : payload.length < 2 ^ 64) (hr : r.Within payload) (c : Call) :
    c.Answered payload r := by
  have hmirrors := Indexed.mirrors_call hsize hr c
  cases c with
  | byte => exact .of_fetches (Decoder.fetches_map (Reader.fetches_byte hr)) hmirrors
  | word16 => exact .of_fetches (Decoder.fetches_map (Reader.fetches_word16 hr)) hmirrors
  | word64 => exact .of_fetches (Decoder.fetches_map (Reader.fetches_word64 hr)) hmirrors
  | paddedText capacity =>
    exact .of_fetches (Decoder.fetches_map (Reader.fetches_paddedText hr capacity)) hmirrors
  | prefixed => exact .of_fetches (Decoder.fetches_map (Reader.fetches_prefixed hr)) hmirrors
  | count size => exact answered_count size hr hmirrors

theorem keeps_decoder (c : Call) : c.decoder.Keeps := by
  cases c with
  | byte => exact Decoder.keeps_map Reader.keeps_byte _
  | word16 => exact Decoder.keeps_map (Decoder.keeps_map (Reader.keeps_take 2) _) _
  | word64 => exact Decoder.keeps_map Reader.keeps_word64 _
  | paddedText capacity =>
    exact Decoder.keeps_map (Decoder.keeps_map (Reader.keeps_take capacity) _) _
  | prefixed => exact Decoder.keeps_map Reader.keeps_prefixed _
  | count size => exact Decoder.keeps_map (Reader.keeps_count size) _

/-! ## Any calls -/

/-- After any calls a reader is at a place of its payload. -/
theorem within_after (calls : List Call) (hr : r.Within payload) :
    (after calls r).Within payload := by
  induction calls generalizing r with
  | nil => exact hr
  | cons c calls ih => exact ih (c.keeps_decoder payload r hr)

/-- A reader by indices comes to the same place. -/
theorem indexed_after (hsize : payload.length < 2 ^ 64) (calls : List Call)
    (hr : r.Within payload) :
    Indexed.after calls ⟨payload, r.position⟩ = .ok ⟨payload, (after calls r).position⟩ := by
  induction calls generalizing r with
  | nil => rfl
  | cons c calls ih =>
    have hmirrors : Indexed.call c ⟨payload, r.position⟩ = Indexed.mirror payload (c.decoder r) :=
      Indexed.mirrors_call hsize hr c
    have hnext := ih (c.keeps_decoder payload r hr)
    unfold Decoder.stop at hnext
    unfold Indexed.after after Decoder.stop
    rw [hmirrors]
    cases hd : c.decoder r with
    | ok value r' =>
      rw [hd] at hnext
      exact hnext
    | error e r' =>
      rw [hd] at hnext
      exact hnext

/-- Calls of which none is refused give what is read behind all that those before them cover. -/
theorem fields_of_all (hsize : payload.length < 2 ^ 64) {calls : List Call} {values : List Value}
    {r' : Reader} (hr : r.Within payload) (h : all calls r = .ok values r') :
    fields payload r.position calls = .ok values ∧
      r'.position = r.position + covered calls values := by
  induction calls generalizing r values with
  | nil =>
    obtain ⟨rfl, rfl⟩ := Decoder.pure_eq_ok.1 h
    exact ⟨rfl, rfl⟩
  | cons c calls ih =>
    obtain ⟨value, r₁, hvalue, h⟩ := Decoder.bind_eq_ok.1 h
    obtain ⟨values, r₂, hvalues, h⟩ := Decoder.bind_eq_ok.1 h
    obtain ⟨rfl, rfl⟩ := Decoder.pure_eq_ok.1 h
    obtain ⟨hfield, hposition⟩ := (answered hsize hr c).accepts value r₁ hvalue
    have hkeeps := c.keeps_decoder payload r hr
    unfold Decoder.stop at hkeeps
    rw [hvalue] at hkeeps
    obtain ⟨hfields, hend⟩ := ih hkeeps hvalues
    rw [hposition] at hfields hend
    refine ⟨?_, ?_⟩
    · rw [fields, hfield]
      show (fields payload (r.position + c.extent value) calls >>= _) = _
      rw [hfields]
      rfl
    · rw [hend, covered, Nat.add_assoc]

end Call

/-- **What holds of a reader after any calls**, whether they were refused or not. What it has read
and what is left make up the payload; a reader by indices has come to the same place without a trap;
and the next call is answered, whatever it is. If none of the calls was refused, they have given
what is read at the offsets that they add up to. -/
theorem reader_invariant (payload : List UInt8) (hsize : payload.length < 2 ^ 64)
    (calls : List Call) :
    let r := Call.after calls (Reader.start payload)
    r.position ≤ payload.length ∧ r.position + r.remaining = payload.length ∧
      r.rest = payload.drop r.position ∧
      Indexed.after calls ⟨payload, 0⟩ = .ok ⟨payload, r.position⟩ ∧
      (∀ c : Call, c.Answered payload r) ∧
      ∀ values r', Call.all calls (Reader.start payload) = .ok values r' →
        Call.fields payload 0 calls = .ok values ∧
        r'.position = Call.covered calls values := by
  intro r
  have hstart := Reader.within_start payload
  have hr : r.Within payload := Call.within_after calls hstart
  refine ⟨hr.position_le, hr.length_eq, hr.rest_eq, Call.indexed_after hsize calls hstart,
    Call.answered hsize hr, ?_⟩
  intro values r' h
  obtain ⟨hfields, hposition⟩ := Call.fields_of_all hsize hstart h
  rw [hposition]
  exact ⟨hfields, Nat.zero_add _⟩

/-- Of three words only one is left behind their count, so it is passed and refused. A text of no
bytes is not in the way, and a length has its byte; then nothing is left. -/
theorem reader_invariant_overCount :
    let payload := word64Bytes 3 ++ (word64Bytes 1 ++ [0x61])
    let calls : List Call := [.count 8, .paddedText 0, .prefixed]
    Indexed.after calls ⟨payload, 0⟩ = .ok ⟨payload, 17⟩ ∧
      Indexed.call .byte ⟨payload, 17⟩ =
        .error (.refused (.truncated 17 1 0)) ⟨payload, 17⟩ := by
  intro payload calls
  have hend : Call.after calls (Reader.start payload) = ⟨17, []⟩ := by decide +kernel
  obtain ⟨-, -, -, hindexed, hanswered, -⟩ := reader_invariant payload (by decide) calls
  rw [hend] at hindexed hanswered
  exact ⟨hindexed, (hanswered .byte).mirrors⟩

end Vitals.Wire
