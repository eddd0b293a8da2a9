/-
  Counts with and without their guard.

  * `Decoder.Consumes d n`: whatever `d` accepts, it takes `n` bytes for it at least.
  * `Reader.countIf`: a count whose guard can be left out.
  * `Decoder.Agrees d d'`: `d` and `d'` accept the same, with the same result.
  * `Reader.agrees_countIf_bind`: where each of the things counted takes so many bytes, the guard
    makes no difference to what is accepted.
  * `Reader.Guards size d`: what the guard of a count does for `d` several times over.
-/
import Vitals.Proofs.Wire.Language

namespace Vitals.Wire

/-! ## How many bytes a value takes -/

namespace Decoder

variable {α β : Type} {d : Decoder α} {k : α → Decoder β} {n m : Nat}

/-- A decoder takes `n` bytes at least for whatever it accepts. -/
def Consumes (d : Decoder α) (n : Nat) : Prop :=
  ∀ r x r', d r = .ok x r' → n + r'.rest.length ≤ r.rest.length

theorem Exact.consumes (h : d.Exact n) : d.Consumes n := by
  rintro ⟨position, bytes⟩ x r' hx
  obtain ⟨front, hfront, hbytes, -, -⟩ := h _ _ _ _ hx
  simp [hbytes, hfront]

theorem consumes_pure (x : α) : (pure x : Decoder α).Consumes 0 := (exact_pure x).consumes

theorem consumes_refuse (e : DecodeError) (n : Nat) : (refuse e : Decoder α).Consumes n := nofun

theorem consumes_bind (hd : d.Consumes n) (hk : ∀ x, (k x).Consumes m) :
    (d >>= k).Consumes (m + n) := by
  intro r y r' h
  obtain ⟨x, r₁, hx, hy⟩ := bind_eq_ok.1 h
  have hfirst := hd r x r₁ hx
  have hsecond := hk x r₁ y r' hy
  omega

theorem consumes_map (hd : d.Consumes n) (f : α → β) :
    (d >>= fun x => pure (f x)).Consumes n := by
  have h := consumes_bind hd fun x => consumes_pure (f x)
  rwa [Nat.zero_add] at h

theorem consumes_times (hd : d.Consumes n) (count : Nat) :
    (times d count).Consumes (count * n) := by
  induction count with
  | zero =>
    rw [Nat.zero_mul]
    exact consumes_pure []
  | succ count ih =>
    rw [Nat.succ_mul]
    exact consumes_bind hd fun x => consumes_map ih _

theorem Spells.consumes {L : α → List UInt8 → Prop} (h : d.Spells L)
    (hn : ∀ x front, L x front → n ≤ front.length) : d.Consumes n := by
  rintro ⟨position, bytes⟩ x r' hx
  obtain ⟨front, hfront, hbytes, -⟩ := (h _ _ _ _).1 hx
  have := hn x front hfront
  simp only [hbytes, List.length_append]
  omega

/-! ## The same accepted -/

/-- Two decoders accept the same, with the same result. Why they refuse the rest may differ. -/
def Agrees (d d' : Decoder α) : Prop := ∀ r x r', d r = .ok x r' ↔ d' r = .ok x r'

variable {d' : Decoder α} {k' : α → Decoder β}

theorem Agrees.refl (d : Decoder α) : d.Agrees d := fun _ _ _ => Iff.rfl

theorem agrees_bind (hd : d.Agrees d') (hk : ∀ x, (k x).Agrees (k' x)) :
    (d >>= k).Agrees (d' >>= k') := by
  intro r y r'
  rw [bind_eq_ok, bind_eq_ok]
  exact exists_congr fun x => exists_congr fun r₁ => and_congr (hd r x r₁) (hk x r₁ y r')

theorem Agrees.run (h : d.Agrees d') {payload : List UInt8} {x : α} :
    d.run payload = .ok x ↔ d'.run payload = .ok x := by
  rw [run_eq_ok, run_eq_ok]
  exact exists_congr fun r => h _ x r

end Decoder

/-! ## Counts -/

namespace Reader

open Decoder

theorem consumes_prefixed : Reader.prefixed.Consumes 8 := by
  refine spells_prefixed.consumes ?_
  rintro bytes front ⟨w, -, rfl⟩
  simp

/-- A 64-bit count, with its guard or without. -/
def countIf (guarded : Bool) (size : Nat) : Decoder Nat :=
  if guarded then count size else return (← word64).toNat

/-- A guarded count is a count that leaves room for its records. -/
theorem count_eq_ok_iff {size n : Nat} (hsize : 0 < size) {r r' : Reader} :
    count size r = .ok n r' ↔
      countIf false size r = .ok n r' ∧ n * size ≤ r'.rest.length := by
  obtain ⟨position, bytes⟩ := r
  constructor
  · intro h
    obtain ⟨w, rfl, rfl, hposition, hfits⟩ := count_eq_ok h
    have hword := reads_map (reads_word64 w) UInt64.toNat position r'.rest
    rw [length_word64Bytes, ← hposition] at hword
    exact ⟨hword, (fits_iff hsize).1 hfits⟩
  · rintro ⟨h, hroom⟩
    obtain ⟨w, r₁, hw, hn⟩ := bind_eq_ok.1 h
    obtain ⟨rfl, rfl⟩ := pure_eq_ok.1 hn
    obtain ⟨rfl, hposition⟩ := word64_eq_ok hw
    rw [count_of_fit hsize hroom, ← hposition]

theorem consumes_count (size : Nat) : (count size).Consumes 8 := by
  rintro ⟨position, bytes⟩ n r' h
  obtain ⟨w, -, rfl, -, -⟩ := count_eq_ok h
  simp

variable {α : Type} {size : Nat} {k k' : Nat → Decoder α}

/-- **The guard of a count makes no difference to what is accepted**, where each of the things
counted takes `size` bytes at least. -/
theorem agrees_countIf_bind (guarded : Bool) (hsize : 0 < size)
    (hk : ∀ n, (k n).Consumes (n * size)) :
    (countIf guarded size >>= k).Agrees (count size >>= k) := by
  cases guarded with
  | true => exact Agrees.refl _
  | false =>
    intro r y r'
    rw [bind_eq_ok, bind_eq_ok]
    refine exists_congr fun n => exists_congr fun r₁ => and_congr_left fun hy => ?_
    rw [count_eq_ok_iff hsize]
    have := hk n r₁ y r' hy
    exact (and_iff_left (by omega)).symm

/-- What the guard of a count does for a decoder several times over: it lets a count pass iff so
many values of `size` bytes fit into what is left, it refuses none that the decoder would not, and a
count that passes has a product that is a word. -/
structure Guards (size : Nat) (d : Decoder α) : Prop where
  fits : ∀ w remaining, Reader.fits w size remaining = true ↔ w.toNat * size ≤ remaining
  fails : ∀ w r, Reader.fits w size r.remaining = false → ∃ e r', times d w.toNat r = .error e r'
  leaves : ∀ r n r', count size r = .ok n r' → n * size ≤ r'.remaining
  product : ∀ w remaining, remaining < 2 ^ 64 → Reader.fits w size remaining = true →
    (w * UInt64.ofNat size).toNat = w.toNat * size

theorem guards {d : Decoder α} (hsize : 0 < size) (hword : size < 2 ^ 64) (hd : d.Consumes size) :
    Guards size d where
  fits w remaining := fits_iff hsize
  fails w r h := by
    have hroom : ¬ w.toNat * size ≤ r.rest.length := by
      rw [← fits_iff hsize]
      exact Bool.not_eq_true _ ▸ h
    cases htimes : times d w.toNat r with
    | error e r' => exact ⟨e, r', rfl⟩
    | ok xs r' =>
      have := consumes_times hd w.toNat r xs r' htimes
      omega
  leaves r n r' h := ((count_eq_ok_iff hsize).1 h).2
  product w remaining hremaining h := by
    have hroom := (fits_iff hsize).1 h
    rw [UInt64.toNat_mul, UInt64.toNat_ofNat_of_lt' hword]
    exact Nat.mod_eq_of_lt (by omega)

end Reader

end Vitals.Wire
