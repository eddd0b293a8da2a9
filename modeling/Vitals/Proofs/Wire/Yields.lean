/-
  What holds of all that a decoder accepts.

  * `Decoder.Yields d n P`: whatever `d` accepts of `n` bytes at most satisfies `P`, and so many are
    left at most.
  * `yields_bind`, `yields_skip`, `yields_times`: decoders in sequence, and one several times over.
  * `yields_count`, `yields_prefixed`, `yields_paddedText`: counts and lengths are words, and texts
    of fixed capacity have no NUL.
-/
import Vitals.Proofs.Text.Lossy
import Vitals.Proofs.Wire.Guard

namespace Vitals.Wire

namespace Decoder

variable {α β : Type} {d : Decoder α} {k : α → Decoder β} {n m : Nat} {P P' : α → Prop}
  {Q : β → Prop}

/-- Whatever a decoder accepts of `n` bytes at most has some property, and it leaves no more. -/
def Yields (d : Decoder α) (n : Nat) (P : α → Prop) : Prop :=
  ∀ r x r', r.rest.length ≤ n → d r = .ok x r' → P x ∧ r'.rest.length ≤ n

theorem Yields.imp (hd : d.Yields n P) (h : ∀ x, P x → P' x) : d.Yields n P' := by
  intro r x r' hn hx
  exact (hd r x r' hn hx).imp_left (h x)

theorem Consumes.yields (h : d.Consumes m) (n : Nat) : d.Yields n fun _ => True := by
  intro r x r' hn hx
  have := h r x r' hx
  exact ⟨trivial, by omega⟩

theorem yields_pure {x : α} (h : P x) : (pure x : Decoder α).Yields n P := by
  intro r y r' hn hy
  obtain ⟨rfl, rfl⟩ := pure_eq_ok.1 hy
  exact ⟨h, hn⟩

theorem yields_refuse (e : DecodeError) : (refuse e : Decoder α).Yields n P := nofun

theorem yields_bind (hd : d.Yields n P) (hk : ∀ x, P x → (k x).Yields n Q) :
    (d >>= k).Yields n Q := by
  intro r y r' hn h
  obtain ⟨x, r₁, hx, hy⟩ := bind_eq_ok.1 h
  obtain ⟨hp, hn₁⟩ := hd r x r₁ hn hx
  exact hk x hp r₁ y r' hn₁ hy

/-- Of what is not looked at, it matters only that it takes no bytes back. -/
theorem yields_skip (hd : d.Consumes m) (hk : ∀ x, (k x).Yields n Q) : (d >>= k).Yields n Q :=
  yields_bind (hd.yields n) fun x _ => hk x

theorem yields_map (hd : d.Yields n P) {f : α → β} (hf : ∀ x, P x → Q (f x)) :
    (d >>= fun x => pure (f x)).Yields n Q := yields_bind hd fun x hx => yields_pure (hf x hx)

theorem yields_times (hd : d.Yields n P) (count : Nat) :
    (times d count).Yields n fun xs => xs.length = count ∧ ∀ x ∈ xs, P x := by
  induction count with
  | zero => exact yields_pure ⟨rfl, nofun⟩
  | succ count ih =>
    refine yields_bind hd fun x hx => yields_map ih fun xs hxs => ?_
    exact ⟨by rw [List.length_cons, hxs.1], List.forall_mem_cons.2 ⟨hx, hxs.2⟩⟩

theorem Yields.run {payload : List UInt8} {x : α} (h : d.Yields payload.length P)
    (hx : d.run payload = .ok x) : P x := by
  obtain ⟨r, hr⟩ := run_eq_ok.1 hx
  exact (h (Reader.start payload) x r (Nat.le_refl _) hr).1

end Decoder

/-! ## Fields -/

namespace Reader

open Decoder

theorem yields_count (size n : Nat) : (count size).Yields n (· < 2 ^ 64) := by
  rintro ⟨position, bytes⟩ count r hn h
  obtain ⟨w, rfl, -⟩ := count_eq_ok h
  exact ⟨w.toNat_lt, ((consumes_count size).yields n _ _ _ hn h).2⟩

theorem yields_prefixed (n : Nat) :
    Reader.prefixed.Yields n fun bytes => bytes.length < 2 ^ 64 ∧ bytes.length ≤ n := by
  rintro ⟨position, bytes⟩ x r hn h
  obtain ⟨front, ⟨w, hw, rfl⟩, rfl, -⟩ := (spells_prefixed _ _ _ _).1 h
  simp only [List.length_append] at hn
  exact ⟨⟨hw ▸ w.toNat_lt, by omega⟩, by omega⟩

theorem yields_paddedText (capacity n : Nat) :
    (paddedText capacity).Yields n fun text => '\x00' ∉ text.toList :=
  yields_map ((exact_take capacity).consumes.yields n) fun field _ => nul_notMem_textOf field

end Reader

end Vitals.Wire
