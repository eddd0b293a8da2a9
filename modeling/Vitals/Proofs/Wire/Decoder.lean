/-
  Decoders on the bytes that they are meant for.

  * `Decoder.Reads d bytes x`: `d` takes `x` off the front, and exactly these bytes.
  * `Decoder.Refuses d bytes e`: `d` refuses as soon as these bytes are in front.
  * `reads_bind`, `bind_refuses`: decoders in sequence.
  * `reads_times`, `times_refuses`: a decoder several times over.
  * `reads_byte`, `reads_word16`, `reads_word64`, `reads_paddedText`, `reads_prefixed`,
    `reads_count_bind`: fields. `Reader.count_word64Bytes`: a count is taken iff it fits.
  * `run_eq_ok`: what a decoder makes of a whole payload.
-/
import Mathlib.Algebra.Group.Nat.Defs
import Vitals.Proofs.Text.Utf8
import Vitals.Wire.Reader

namespace Vitals.Wire

namespace Decoder

variable {α β : Type}

/-- A decoder takes a value off the front of some bytes, whatever comes behind them. -/
def Reads (d : Decoder α) (bytes : List UInt8) (x : α) : Prop :=
  ∀ position rest, d ⟨position, bytes ++ rest⟩ = .ok x ⟨position + bytes.length, rest⟩

/-- A decoder refuses some bytes, whatever comes behind them. -/
def Refuses (d : Decoder α) (bytes : List UInt8) (e : DecodeError) : Prop :=
  ∀ position rest, ∃ r, d ⟨position, bytes ++ rest⟩ = .error e r

/-! ## In sequence -/

theorem bind_of_ok {d : Decoder α} {r r' : Reader} {x : α} (h : d r = .ok x r')
    (k : α → Decoder β) : (d >>= k) r = k x r' := by
  show EStateM.bind d k r = _
  unfold EStateM.bind
  rw [h]

theorem bind_of_error {d : Decoder α} {r r' : Reader} {e : DecodeError} (h : d r = .error e r')
    (k : α → Decoder β) : (d >>= k) r = .error e r' := by
  show EStateM.bind d k r = _
  unfold EStateM.bind
  rw [h]

theorem reads_pure (x : α) : (pure x : Decoder α).Reads [] x := fun _ _ => rfl

theorem refuse_refuses (e : DecodeError) (bytes : List UInt8) :
    (refuse e : Decoder α).Refuses bytes e := fun _ _ => ⟨_, rfl⟩

/-- **Decoders in sequence read bytes in sequence.** -/
theorem reads_bind {d : Decoder α} {k : α → Decoder β} {bs cs : List UInt8} {x : α} {y : β}
    (hd : d.Reads bs x) (hk : (k x).Reads cs y) : (d >>= k).Reads (bs ++ cs) y := by
  intro position rest
  rw [List.append_assoc, bind_of_ok (hd _ _), hk, List.length_append, Nat.add_assoc]

theorem bind_refuses {d : Decoder α} {k : α → Decoder β} {bs cs : List UInt8} {x : α}
    {e : DecodeError} (hd : d.Reads bs x) (hk : (k x).Refuses cs e) :
    (d >>= k).Refuses (bs ++ cs) e := by
  intro position rest
  rw [List.append_assoc, bind_of_ok (hd _ _)]
  exact hk _ _

theorem Refuses.bind {d : Decoder α} {bs : List UInt8} {e : DecodeError} (hd : d.Refuses bs e)
    (k : α → Decoder β) : (d >>= k).Refuses bs e := by
  intro position rest
  obtain ⟨r, hr⟩ := hd position rest
  exact ⟨r, bind_of_error hr k⟩

theorem Refuses.append {d : Decoder α} {bs : List UInt8} {e : DecodeError} (hd : d.Refuses bs e)
    (cs : List UInt8) : d.Refuses (bs ++ cs) e := by
  intro position rest
  rw [List.append_assoc]
  exact hd _ _

theorem reads_map {d : Decoder α} {bs : List UInt8} {x : α} (hd : d.Reads bs x) (f : α → β) :
    (d >>= fun x => pure (f x)).Reads bs (f x) := by
  have := reads_bind (k := fun x => pure (f x)) hd (reads_pure (f x))
  rwa [List.append_nil] at this

/-! ## Several times over -/

variable {encode : α → List UInt8} {d : Decoder β} {value : α → β}

theorem reads_times {xs : List α} (h : ∀ x ∈ xs, d.Reads (encode x) (value x)) :
    (times d xs.length).Reads (xs.flatMap encode) (xs.map value) := by
  induction xs with
  | nil => exact reads_pure []
  | cons x xs ih =>
    have hx := h x List.mem_cons_self
    have hxs := ih fun y hy => h y (List.mem_cons_of_mem x hy)
    exact reads_bind hx (reads_map hxs _)

/-- The first value that is refused decides. -/
theorem times_refuses {xs : List α} {x : α} {e : DecodeError}
    (hxs : ∀ x ∈ xs, d.Reads (encode x) (value x)) (hx : d.Refuses (encode x) e) (ys : List α) :
    (times d (xs ++ x :: ys).length).Refuses ((xs ++ x :: ys).flatMap encode) e := by
  induction xs with
  | nil => exact (hx.append _).bind _
  | cons y xs ih =>
    have hy := hxs y List.mem_cons_self
    have hrest := ih fun z hz => hxs z (List.mem_cons_of_mem y hz)
    exact bind_refuses hy (hrest.bind _)

/-! ## Whole payloads -/

theorem run_eq_ok {payload : List UInt8} {x : β} :
    d.run payload = .ok x ↔ ∃ r, d (Reader.start payload) = .ok x r := by
  unfold run
  cases d (Reader.start payload) <;> simp

theorem run_map (d : Decoder α) (f : α → β) (payload : List UInt8) :
    (d >>= fun x => pure (f x)).run payload = (d.run payload).map f := by
  unfold run
  cases h : d (Reader.start payload) with
  | ok x r =>
    rw [bind_of_ok h]
    rfl
  | error e r =>
    rw [bind_of_error h]
    rfl

theorem Reads.run {d : Decoder α} {bytes : List UInt8} {x : α} (h : d.Reads bytes x)
    (rest : List UInt8) : d.run (bytes ++ rest) = .ok x := by
  unfold Decoder.run Reader.start
  rw [h]

theorem Refuses.run {d : Decoder α} {bytes : List UInt8} {e : DecodeError} (h : d.Refuses bytes e)
    (rest : List UInt8) : d.run (bytes ++ rest) = .error e := by
  obtain ⟨r, hr⟩ := h 0 rest
  unfold Decoder.run Reader.start
  rw [hr]

theorem Reads.run_self {d : Decoder α} {bytes : List UInt8} {x : α} (h : d.Reads bytes x) :
    d.run bytes = .ok x := by
  have hrun := h.run []
  rwa [List.append_nil] at hrun

theorem Refuses.run_self {d : Decoder α} {bytes : List UInt8} {e : DecodeError}
    (h : d.Refuses bytes e) : d.run bytes = .error e := by
  have hrun := h.run []
  rwa [List.append_nil] at hrun

end Decoder

/-! ## Fields -/

namespace Reader

open Decoder

theorem reads_take (bytes : List UInt8) : (take bytes.length).Reads bytes bytes := by
  intro position rest
  have henough : Reader.lacks ⟨position, bytes ++ rest⟩ bytes.length = false := by
    simp [remaining]
  simp only [take, henough, Bool.false_eq_true, if_false, List.take_left, List.drop_left]

theorem reads_byte (b : UInt8) : byte.Reads [b] b := reads_map (reads_take [b]) _

theorem reads_word16 (w : UInt16) : word16.Reads (word16Bytes w) w := by
  have h := reads_map (reads_take (word16Bytes w)) word16OfBytes
  rwa [length_word16Bytes, word16OfBytes_word16Bytes] at h

theorem reads_word64 (w : UInt64) : word64.Reads (word64Bytes w) w := by
  have h := reads_map (reads_take (word64Bytes w)) word64OfBytes
  rwa [length_word64Bytes, word64OfBytes_word64Bytes] at h

theorem reads_paddedText (text : String) (capacity : Nat) :
    (paddedText capacity).Reads (paddedTextBytes text capacity) (clipped capacity text) := by
  have h := reads_map (reads_take (paddedTextBytes text capacity)) textOf
  rwa [length_paddedTextBytes, textOf_paddedTextBytes] at h

/-- Bytes are read back from behind their length, if it is a word. -/
theorem reads_prefixed {bytes : List UInt8} (h : bytes.length < 2 ^ 64) :
    Reader.prefixed.Reads (prefixedBytes bytes) bytes := by
  intro position rest
  have hword : (UInt64.ofNat bytes.length).toNat = bytes.length := UInt64.toNat_ofNat_of_lt' h
  have henough : lacks ⟨position + 8, bytes ++ rest⟩ bytes.length = false := by simp [remaining]
  have hlength := reads_word64 (UInt64.ofNat bytes.length) position (bytes ++ rest)
  rw [length_word64Bytes] at hlength
  simp only [Reader.prefixed, prefixedBytes, List.append_assoc, hlength, hword, henough,
    Bool.false_eq_true, if_false]
  rw [reads_take, List.length_append, length_word64Bytes, Nat.add_assoc]

/-- A count fits iff its records do. The quotient is rounded down and the product is never formed,
so none of this wraps. -/
theorem fits_iff {size : Nat} (hsize : 0 < size) {w : UInt64} {remaining : Nat} :
    fits w size remaining = true ↔ w.toNat * size ≤ remaining := by
  simp only [fits, Nat.ne_of_gt hsize, if_false, decide_eq_true_eq]
  exact Nat.le_div_iff_mul_le hsize

/-- A count is judged by what comes behind it. -/
theorem count_word64Bytes (size position : Nat) (w : UInt64) (rest : List UInt8) :
    count size ⟨position, word64Bytes w ++ rest⟩ =
      if fits w size rest.length then .ok w.toNat ⟨position + 8, rest⟩
      else .error (.countOverflow w rest.length) ⟨position + 8, rest⟩ := by
  unfold count
  rw [bind_of_ok (reads_word64 w position rest), length_word64Bytes]
  show (if fits w size rest.length = true then pure w.toNat
    else Decoder.refuse (.countOverflow w rest.length) : Decoder Nat) _ = _
  split <;> rfl

/-- A count is taken when so many records come behind it. -/
theorem count_of_fit {size : Nat} (hsize : 0 < size) {w : UInt64} {rest : List UInt8}
    (hfit : w.toNat * size ≤ rest.length) (position : Nat) :
    count size ⟨position, word64Bytes w ++ rest⟩ = .ok w.toNat ⟨position + 8, rest⟩ := by
  rw [count_word64Bytes, if_pos ((fits_iff hsize).2 hfit)]

variable {α : Type} {size : Nat} {w : UInt64} {k : Nat → Decoder α} {bytes : List UInt8}

theorem reads_count_bind {x : α} (hsize : 0 < size) (hfit : w.toNat * size ≤ bytes.length)
    (hk : (k w.toNat).Reads bytes x) : (count size >>= k).Reads (word64Bytes w ++ bytes) x := by
  intro position rest
  have hfit' : w.toNat * size ≤ (bytes ++ rest).length := by
    rw [List.length_append]
    omega
  rw [List.append_assoc, bind_of_ok (count_of_fit hsize hfit' position), hk,
    List.length_append, length_word64Bytes, Nat.add_assoc]

theorem count_bind_refuses {e : DecodeError} (hsize : 0 < size)
    (hfit : w.toNat * size ≤ bytes.length) (hk : (k w.toNat).Refuses bytes e) :
    (count size >>= k).Refuses (word64Bytes w ++ bytes) e := by
  intro position rest
  have hfit' : w.toNat * size ≤ (bytes ++ rest).length := by
    rw [List.length_append]
    omega
  rw [List.append_assoc, bind_of_ok (count_of_fit hsize hfit' position)]
  exact hk _ _

end Reader

end Vitals.Wire
