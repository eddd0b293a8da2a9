/-
  Values of one size, laid end to end.

  * `DecodeError.Flaw`: the refusals for what bytes say and not for how many there are.
  * `Decoder.Decides d n`: `d` accepts any `n` bytes, or refuses them for what they say, and looks
    at no others. So it never runs out of bytes if it is given `n` of them.
  * `decides_bind`: decoders in sequence.
  * `slice`, `times_slices`: several values are those of as many slices, each decoded on its own, or
    the first bad slice is refused as it would be on its own.
-/
import Vitals.Proofs.Wire.Exact

namespace Vitals.Wire

/-- The refusals for what bytes say, however many there are. -/
inductive DecodeError.Flaw : DecodeError → Prop
  | invalidRecord (fault : RecordFault) : Flaw (.invalidRecord fault)
  | unknownMethod (byte : UInt8) : Flaw (.unknownMethod byte)

/-- The `i`-th of the slices of one size that some bytes fall into. -/
def slice (size : Nat) (bytes : List UInt8) (i : Nat) : List UInt8 :=
  (bytes.drop (i * size)).take size

theorem slice_zero (size : Nat) (bytes : List UInt8) : slice size bytes 0 = bytes.take size := by
  rw [slice, Nat.zero_mul, List.drop_zero]

theorem slice_succ (size : Nat) (bytes : List UInt8) (i : Nat) :
    slice size bytes (i + 1) = slice size (bytes.drop size) i := by
  rw [slice, slice, List.drop_drop, Nat.succ_mul, Nat.add_comm]

namespace Decoder

variable {α β : Type} {d : Decoder α} {k : α → Decoder β} {n m : Nat}

/-- A decoder accepts any `n` bytes or refuses them for what they say. It looks at nothing behind
them. -/
def Decides (d : Decoder α) (n : Nat) : Prop :=
  ∀ front, front.length = n → (∃ x, d.Reads front x) ∨ ∃ e, e.Flaw ∧ d.Refuses front e

theorem decides_pure (x : α) : (pure x : Decoder α).Decides 0 := by
  intro front hfront
  obtain rfl := List.length_eq_zero_iff.1 hfront
  exact Or.inl ⟨x, reads_pure x⟩

theorem decides_refuse {e : DecodeError} (h : e.Flaw) (n : Nat) :
    (refuse e : Decoder α).Decides n := fun front _ => Or.inr ⟨e, h, refuse_refuses e front⟩

theorem decides_bind (hd : d.Decides n) (hk : ∀ x, (k x).Decides m) :
    (d >>= k).Decides (m + n) := by
  intro front hfront
  have hfirst : (front.take n).length = n := List.length_take_of_le (by omega)
  have hsecond : (front.drop n).length = m := by rw [List.length_drop]; omega
  rw [← List.take_append_drop n front]
  rcases hd _ hfirst with ⟨x, hx⟩ | ⟨e, he, hrefuses⟩
  · rcases hk x _ hsecond with ⟨y, hy⟩ | ⟨e, he, hrefuses⟩
    · exact Or.inl ⟨y, reads_bind hx hy⟩
    · exact Or.inr ⟨e, he, bind_refuses hx hrefuses⟩
  · exact Or.inr ⟨e, he, (hrefuses.bind k).append _⟩

theorem decides_map (hd : d.Decides n) (f : α → β) :
    (d >>= fun x => pure (f x)).Decides n := by
  have h := decides_bind hd fun x => decides_pure (f x)
  rwa [Nat.zero_add] at h

/-- **Several values are those of as many slices**, each decoded on its own; or the first slice that
is refused decides. -/
theorem times_slices (hd : d.Decides n) (count : Nat) (position : Nat) (bytes : List UInt8)
    (h : count * n ≤ bytes.length) :
    (∃ xs r, times d count ⟨position, bytes⟩ = .ok xs r ∧ xs.length = count ∧
      ∀ i (hi : i < xs.length), d.run (slice n bytes i) = .ok xs[i]) ∨
    ∃ i e r, i < count ∧ times d count ⟨position, bytes⟩ = .error e r ∧ e.Flaw ∧
      d.run (slice n bytes i) = .error e ∧ ∀ j < i, ∃ x, d.run (slice n bytes j) = .ok x := by
  induction count generalizing position bytes with
  | zero => exact Or.inl ⟨[], _, rfl, rfl, nofun⟩
  | succ count ih =>
    rw [Nat.succ_mul] at h
    have hfirst : (slice n bytes 0).length = n := by
      rw [slice_zero, List.length_take_of_le (by omega)]
    have hrest : count * n ≤ (bytes.drop n).length := by rw [List.length_drop]; omega
    have hbytes : bytes = slice n bytes 0 ++ bytes.drop n := by
      rw [slice_zero, List.take_append_drop]
    rcases hd _ hfirst with ⟨x, hx⟩ | ⟨e, he, hrefuses⟩
    · -- The first slice is taken off, and slice `i` of the rest is slice `i + 1` of the whole.
      have hstep := hx position (bytes.drop n)
      rw [← hbytes, hfirst] at hstep
      have hzero := hx.run_self
      rcases ih (position + n) (bytes.drop n) hrest with
        ⟨xs, r, htimes, hlength, hslices⟩ | ⟨i, e, r, hi, htimes, he, hslice, hbefore⟩
      · refine Or.inl ⟨x :: xs, r, ?_, by rw [List.length_cons, hlength], ?_⟩
        · rw [times, bind_of_ok hstep, bind_of_ok htimes]
          rfl
        · rintro (_ | i) hi
          · exact hzero
          · rw [slice_succ]
            exact hslices i (Nat.lt_of_succ_lt_succ hi)
      · refine Or.inr ⟨i + 1, e, r, Nat.succ_lt_succ hi, ?_, he, by rwa [slice_succ], ?_⟩
        · rw [times, bind_of_ok hstep]
          exact bind_of_error htimes _
        · rintro (_ | j) hj
          · exact ⟨x, hzero⟩
          · rw [slice_succ]
            exact hbefore j (Nat.lt_of_succ_lt_succ hj)
    · obtain ⟨r, hr⟩ := hrefuses position (bytes.drop n)
      rw [← hbytes] at hr
      exact Or.inr ⟨0, e, r, Nat.succ_pos count, bind_of_error hr _, he,
        hrefuses.run_self, nofun⟩

end Decoder

/-! ## Fields -/

namespace Reader

open Decoder

theorem decides_take (n : Nat) : (take n).Decides n := by
  rintro front rfl
  exact Or.inl ⟨front, reads_take front⟩

theorem decides_byte : byte.Decides 1 := decides_map (decides_take 1) _

theorem decides_word16 : word16.Decides 2 := decides_map (decides_take 2) _

theorem decides_word64 : word64.Decides 8 := decides_map (decides_take 8) _

theorem word64_of_short {position : Nat} {bytes : List UInt8} (h : bytes.length < 8) :
    word64 ⟨position, bytes⟩ = .error (.truncated position 8 bytes.length) ⟨position, bytes⟩ := by
  have hlacks : lacks ⟨position, bytes⟩ 8 = true := by rw [lacks_eq, decide_eq_true_eq]; exact h
  refine bind_of_error ?_ _
  rw [take, if_pos hlacks, remaining]

theorem count_of_short {size position : Nat} {bytes : List UInt8} (h : bytes.length < 8) :
    count size ⟨position, bytes⟩ =
      .error (.truncated position 8 bytes.length) ⟨position, bytes⟩ :=
  bind_of_error (word64_of_short h) _

theorem decides_paddedText (capacity : Nat) : (paddedText capacity).Decides capacity :=
  decides_map (decides_take capacity) _

end Reader

end Vitals.Wire
