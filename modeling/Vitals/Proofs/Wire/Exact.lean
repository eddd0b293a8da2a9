/-
  Decoders that take as many bytes as they are meant to.

  * `Decoder.bind_eq_ok`: what it means for decoders in sequence to accept.
  * `Decoder.Exact d n`: whatever `d` accepts, it takes `n` bytes for it, and would take the same
    bytes for the same value in front of anything else.
  * `exact_bind`, `exact_times`: decoders in sequence, and one several times over.
  * `word64Bytes_word64OfBytes`, `word16Bytes_word16OfBytes`: eight bytes are those of their word,
    and so are two.
-/
import Mathlib.Data.List.Induction
import Vitals.Proofs.Wire.Decoder

namespace Vitals.Wire

/-! ## The bytes of a number -/

theorem ofBigEndian_append_singleton (bytes : List UInt8) (b : UInt8) :
    ofBigEndian (bytes ++ [b]) = ofBigEndian bytes * 256 + b.toNat := by
  simp [ofBigEndian, List.foldl_append]

theorem ofBigEndian_lt (bytes : List UInt8) : ofBigEndian bytes < 256 ^ bytes.length := by
  induction bytes using List.reverseRecOn with
  | nil => decide
  | append_singleton bytes b ih =>
    have hb := b.toNat_lt
    rw [ofBigEndian_append_singleton, List.length_append, List.length_singleton, Nat.pow_succ]
    omega

theorem bigEndian_ofBigEndian (bytes : List UInt8) :
    bigEndian bytes.length (ofBigEndian bytes) = bytes := by
  induction bytes using List.reverseRecOn with
  | nil => rfl
  | append_singleton bytes b ih =>
    have hb := b.toNat_lt
    have hhigh : (ofBigEndian bytes * 256 + b.toNat) / 256 = ofBigEndian bytes := by omega
    have hlow : UInt8.ofNat (ofBigEndian bytes * 256 + b.toNat) = b := by
      rw [← UInt8.toNat_inj, UInt8.toNat_ofNat']
      omega
    rw [ofBigEndian_append_singleton, List.length_append, List.length_singleton, bigEndian, hhigh,
      ih, hlow]

theorem word64Bytes_word64OfBytes {bytes : List UInt8} (h : bytes.length = 8) :
    word64Bytes (word64OfBytes bytes) = bytes := by
  have hlt := ofBigEndian_lt bytes
  rw [h] at hlt
  rw [word64Bytes, word64OfBytes, UInt64.toNat_ofNat_of_lt' hlt, ← h, bigEndian_ofBigEndian]

theorem word16Bytes_word16OfBytes {bytes : List UInt8} (h : bytes.length = 2) :
    word16Bytes (word16OfBytes bytes) = bytes := by
  have hlt := ofBigEndian_lt bytes
  rw [h] at hlt
  rw [word16Bytes, word16OfBytes, UInt16.toNat_ofNat_of_lt' hlt, ← h, bigEndian_ofBigEndian]

namespace Decoder

variable {α β : Type}

theorem bind_eq_ok {d : Decoder α} {k : α → Decoder β} {r r' : Reader} {y : β} :
    (d >>= k) r = .ok y r' ↔ ∃ x r₁, d r = .ok x r₁ ∧ k x r₁ = .ok y r' := by
  constructor
  · intro h
    cases hd : d r with
    | ok x r₁ =>
      rw [bind_of_ok hd] at h
      exact ⟨x, r₁, rfl, h⟩
    | error e r₁ =>
      rw [bind_of_error hd] at h
      cases h
  · rintro ⟨x, r₁, hd, hk⟩
    rw [bind_of_ok hd, hk]

theorem pure_eq_ok {x y : α} {r r' : Reader} :
    (pure x : Decoder α) r = .ok y r' ↔ x = y ∧ r = r' := by
  show (EStateM.Result.ok x r : EStateM.Result DecodeError Reader α) = .ok y r' ↔ _
  simp

/-- A decoder takes `n` bytes for whatever it accepts. It looks at nothing behind them. -/
def Exact (d : Decoder α) (n : Nat) : Prop :=
  ∀ position bytes x r, d ⟨position, bytes⟩ = .ok x r →
    ∃ front, front.length = n ∧ bytes = front ++ r.rest ∧ r.position = position + n ∧
      d.Reads front x

theorem exact_pure (x : α) : (pure x : Decoder α).Exact 0 := by
  intro position bytes y r h
  obtain ⟨rfl, rfl⟩ := pure_eq_ok.1 h
  exact ⟨[], rfl, rfl, rfl, reads_pure x⟩

theorem exact_refuse (e : DecodeError) (n : Nat) : (refuse e : Decoder α).Exact n := nofun

variable {d : Decoder α} {k : α → Decoder β} {n m : Nat}

/-- **The bytes of decoders in sequence add up.** -/
theorem exact_bind (hd : d.Exact n) (hk : ∀ x, (k x).Exact m) : (d >>= k).Exact (m + n) := by
  intro position bytes y r h
  obtain ⟨x, ⟨position₁, rest⟩, hx, hy⟩ := bind_eq_ok.1 h
  obtain ⟨front, hfront, rfl, rfl, hreads⟩ := hd _ _ _ _ hx
  obtain ⟨next, hnext, rfl, hposition, hreads'⟩ := hk x _ _ _ _ hy
  refine ⟨front ++ next, ?_, by simp, by omega, reads_bind hreads hreads'⟩
  rw [List.length_append]
  omega

theorem exact_map (hd : d.Exact n) (f : α → β) : (d >>= fun x => pure (f x)).Exact n := by
  have h := exact_bind hd fun x => exact_pure (f x)
  rwa [Nat.zero_add] at h

theorem exact_times (hd : d.Exact n) (count : Nat) : (times d count).Exact (count * n) := by
  induction count with
  | zero =>
    rw [Nat.zero_mul]
    exact exact_pure []
  | succ count ih =>
    rw [Nat.succ_mul]
    exact exact_bind hd fun x => exact_map ih _

theorem length_of_times {count : Nat} {r r' : Reader} {xs : List α}
    (h : times d count r = .ok xs r') : xs.length = count := by
  induction count generalizing r r' xs with
  | zero =>
    obtain ⟨rfl, -⟩ := pure_eq_ok.1 h
    rfl
  | succ count ih =>
    obtain ⟨x, r₁, -, h⟩ := bind_eq_ok.1 h
    obtain ⟨ys, r₂, hys, h⟩ := bind_eq_ok.1 h
    obtain ⟨rfl, -⟩ := pure_eq_ok.1 h
    rw [List.length_cons, ih hys]

end Decoder

/-! ## Fields -/

namespace Reader

open Decoder

theorem exact_take (n : Nat) : (take n).Exact n := by
  intro position bytes x r h
  unfold take at h
  split at h
  · cases h
  · rename_i henough
    cases h
    rw [lacks_eq, decide_eq_true_eq] at henough
    have hlength : (bytes.take n).length = n :=
      List.length_take_of_le (Nat.not_lt.1 henough)
    refine ⟨bytes.take n, hlength, (List.take_append_drop n bytes).symm, rfl, ?_⟩
    have hreads := reads_take (bytes.take n)
    rwa [hlength] at hreads

theorem exact_byte : byte.Exact 1 := exact_map (exact_take 1) _

theorem exact_word16 : word16.Exact 2 := exact_map (exact_take 2) _

theorem exact_word64 : word64.Exact 8 := exact_map (exact_take 8) _

theorem exact_paddedText (capacity : Nat) : (paddedText capacity).Exact capacity :=
  exact_map (exact_take capacity) _

/-- The bytes of a word that is taken are in front. -/
theorem word64_eq_ok {position : Nat} {bytes : List UInt8} {w : UInt64} {r : Reader}
    (h : word64 ⟨position, bytes⟩ = .ok w r) :
    bytes = word64Bytes w ++ r.rest ∧ r.position = position + 8 := by
  obtain ⟨front, hlength, rfl, hposition, hreads⟩ := exact_word64 _ _ _ _ h
  refine ⟨?_, hposition⟩
  -- Eight bytes are those of some word, and so they are read as that word.
  have hword := reads_word64 (word64OfBytes front)
  rw [word64Bytes_word64OfBytes hlength] at hword
  have hsame := (hreads 0 []).symm.trans (hword 0 [])
  cases hsame
  rw [word64Bytes_word64OfBytes hlength]

/-- A count that is taken stands in front, and so many records fit behind it. -/
theorem count_eq_ok {size position n : Nat} {bytes : List UInt8} {r : Reader}
    (h : count size ⟨position, bytes⟩ = .ok n r) :
    ∃ w : UInt64, w.toNat = n ∧ bytes = word64Bytes w ++ r.rest ∧ r.position = position + 8 ∧
      fits w size r.rest.length = true := by
  obtain ⟨w, ⟨position₁, rest⟩, hw, hcount⟩ := bind_eq_ok.1 h
  obtain ⟨hbytes, hposition⟩ := word64_eq_ok hw
  change (if fits w size rest.length = true then pure w.toNat
    else Decoder.refuse (.countOverflow w rest.length) : Decoder Nat) _ = _ at hcount
  split at hcount
  · obtain ⟨hn, rfl⟩ := pure_eq_ok.1 hcount
    exact ⟨w, hn, hbytes, hposition, ‹_›⟩
  · cases hcount

end Reader

end Vitals.Wire
