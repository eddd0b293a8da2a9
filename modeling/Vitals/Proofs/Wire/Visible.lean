/-
  What of its bytes a text field shows.

  * `Field.visible`: the bytes of a field in front of its first NUL, of which its text is made.
  * `Field.Alike a b offset capacity`: two buffers have the same bytes in a field up to its first
    NUL, and that NUL too. So the field shows the same in both (`visible_eq`).
  * `Decoder.Same d f g`: `d` makes the same of two rows of bytes.
  * `Similar`: two rows of bytes begin with the same `n` bytes and go on with fields of the same
    texts. `Decoder.Sees d n texts`: `d` makes the same of any two of them.
  * `sees_bind`, `sees_text`: decoders in sequence, and one that takes a text.
-/
import Vitals.Proofs.Wire.Slices

namespace Vitals.Wire

/-! ## Fields -/

/-- What a field shows: its bytes in front of the first NUL among them. -/
def Field.visible (bytes : List UInt8) (offset capacity : Nat) : List UInt8 :=
  ((bytes.drop offset).take capacity).takeWhile (· ≠ 0)

/-- Up to the first NUL among them, and with it, two buffers have the same bytes in a field. -/
def Field.Alike (a b : List UInt8) (offset capacity : Nat) : Prop :=
  ∀ j < capacity, (∀ i < j, a[offset + i]? ≠ some 0) → a[offset + j]? = b[offset + j]?

theorem take_drop_ext {a b : List UInt8} (offset : Nat) {n : Nat}
    (h : ∀ j < n, a[offset + j]? = b[offset + j]?) :
    (a.drop offset).take n = (b.drop offset).take n := by
  refine List.ext_getElem? fun j => ?_
  by_cases hj : j < n
  · rw [List.getElem?_take_of_lt hj, List.getElem?_take_of_lt hj, List.getElem?_drop,
      List.getElem?_drop]
    exact h j hj
  · rw [List.getElem?_take_eq_none (Nat.not_lt.1 hj), List.getElem?_take_eq_none (Nat.not_lt.1 hj)]

/-- Rows of bytes that are the same as far as the first NUL of one have the same bytes before it. -/
theorem takeWhile_of_alike {f g : List UInt8}
    (h : ∀ j : Nat, (∀ i < j, f[i]? ≠ some 0) → f[j]? = g[j]?) :
    f.takeWhile (· ≠ 0) = g.takeWhile (· ≠ 0) := by
  induction f generalizing g with
  | nil =>
    have hnil := h 0 nofun
    rw [List.getElem?_nil, eq_comm, List.getElem?_eq_none_iff] at hnil
    obtain rfl := List.length_eq_zero_iff.1 (Nat.le_zero.1 hnil)
    rfl
  | cons x f ih =>
    cases g with
    | nil =>
      have hnil := h 0 nofun
      simp at hnil
    | cons y g =>
      have hhead := h 0 nofun
      simp only [List.getElem?_cons_zero, Option.some.injEq] at hhead
      subst hhead
      by_cases hx : x = 0
      · simp [hx]
      · have htail : f.takeWhile (· ≠ 0) = g.takeWhile (· ≠ 0) := by
          refine ih fun j hj => h (j + 1) ?_
          rintro (_ | i) hi
          · simpa using hx
          · exact hj i (Nat.lt_of_succ_lt_succ hi)
        rw [List.takeWhile_cons_of_pos (by simpa using hx),
          List.takeWhile_cons_of_pos (by simpa using hx), htail]

theorem Field.Alike.visible_eq {a b : List UInt8} {offset capacity : Nat}
    (h : Field.Alike a b offset capacity) :
    visible a offset capacity = visible b offset capacity := by
  have hbytes : ∀ j : Nat, (∀ i < j, ((a.drop offset).take capacity)[i]? ≠ some 0) →
      ((a.drop offset).take capacity)[j]? = ((b.drop offset).take capacity)[j]? := by
    intro j hj
    by_cases hlt : j < capacity
    · rw [List.getElem?_take_of_lt hlt, List.getElem?_take_of_lt hlt, List.getElem?_drop,
        List.getElem?_drop]
      refine h j hlt fun i hi => ?_
      have hi' := hj i hi
      rwa [List.getElem?_take_of_lt (hi.trans hlt), List.getElem?_drop] at hi'
    · rw [List.getElem?_take_eq_none (Nat.not_lt.1 hlt),
        List.getElem?_take_eq_none (Nat.not_lt.1 hlt)]
  exact takeWhile_of_alike hbytes

/-- A field that is there has a text, which is what it shows. -/
theorem Field.paddedText_of_le {a : List UInt8} {offset capacity : Nat}
    (h : offset + capacity ≤ a.length) :
    Field.paddedText a offset capacity = .ok (Text.lossy (visible a offset capacity)) := by
  have henough : ¬ a.length - offset < capacity := by omega
  have hinside : ¬ a.length < offset := by omega
  rw [paddedText, window, if_neg henough, if_neg hinside]
  rfl

/-! ## Decoders -/

namespace Decoder

variable {α β : Type} {d : Decoder α} {k : α → Decoder β} {f g : List UInt8} {n m : Nat}

/-- A decoder makes the same of two rows of bytes, whatever comes behind them. -/
def Same (d : Decoder α) (f g : List UInt8) : Prop :=
  (∃ x, d.Reads f x ∧ d.Reads g x) ∨ ∃ e, d.Refuses f e ∧ d.Refuses g e

theorem Same.run_eq (h : d.Same f g) : d.run f = d.run g := by
  rcases h with ⟨x, hf, hg⟩ | ⟨e, hf, hg⟩
  · rw [hf.run_self, hg.run_self]
  · rw [hf.run_self, hg.run_self]

theorem Decides.same (hd : d.Decides n) (hf : f.length = n) : d.Same f f := by
  rcases hd f hf with ⟨x, hx⟩ | ⟨e, -, he⟩
  · exact Or.inl ⟨x, hx, hx⟩
  · exact Or.inr ⟨e, he, he⟩

theorem same_refuse (e : DecodeError) (f g : List UInt8) : (refuse e : Decoder α).Same f g :=
  Or.inr ⟨e, refuse_refuses e f, refuse_refuses e g⟩

/-- Two rows of bytes are the same to decoders in sequence if their parts are to each of them. -/
theorem same_bind (n : Nat) (hd : d.Same (f.take n) (g.take n))
    (hk : ∀ x, (k x).Same (f.drop n) (g.drop n)) : (d >>= k).Same f g := by
  rw [← List.take_append_drop n f, ← List.take_append_drop n g]
  rcases hd with ⟨x, hf, hg⟩ | ⟨e, hf, hg⟩
  · rcases hk x with ⟨y, hf', hg'⟩ | ⟨e, hf', hg'⟩
    · exact Or.inl ⟨y, reads_bind hf hf', reads_bind hg hg'⟩
    · exact Or.inr ⟨e, bind_refuses hf hf', bind_refuses hg hg'⟩
  · exact Or.inr ⟨e, (hf.bind k).append _, (hg.bind k).append _⟩

end Decoder

/-- Two rows of bytes begin with the same `n` bytes and go on with fields of the same texts. -/
structure Similar (capacity n texts : Nat) (f g : List UInt8) : Prop where
  length_left : f.length = n + texts * capacity
  length_right : g.length = n + texts * capacity
  front : f.take n = g.take n
  text : ∀ k < texts, textOf (slice capacity (f.drop n) k) = textOf (slice capacity (g.drop n) k)

namespace Similar

variable {capacity n m texts : Nat} {f g : List UInt8}

theorem take (h : Similar capacity (m + n) texts f g) : f.take n = g.take n := by
  have hfront := congrArg (List.take n) h.front
  rwa [List.take_take, List.take_take, Nat.min_eq_left (Nat.le_add_left n m)] at hfront

/-- Without some of the bytes in front two rows are as similar. -/
theorem drop (h : Similar capacity (m + n) texts f g) :
    Similar capacity m texts (f.drop n) (g.drop n) where
  length_left := by
    rw [List.length_drop, h.length_left]
    omega
  length_right := by
    rw [List.length_drop, h.length_right]
    omega
  front := by
    have hfront := congrArg (List.drop n) h.front
    rwa [List.drop_take, List.drop_take, Nat.add_sub_cancel] at hfront
  text k hk := by
    rw [List.drop_drop, List.drop_drop, Nat.add_comm n m]
    exact h.text k hk

theorem textOf_take (h : Similar capacity 0 (texts + 1) f g) :
    textOf (f.take capacity) = textOf (g.take capacity) := by
  have htext := h.text 0 (Nat.succ_pos texts)
  rwa [slice_zero, slice_zero] at htext

/-- Without the first of their fields two rows are as similar. -/
theorem drop_field (h : Similar capacity 0 (texts + 1) f g) :
    Similar capacity 0 texts (f.drop capacity) (g.drop capacity) where
  length_left := by
    rw [List.length_drop, h.length_left, Nat.succ_mul]
    omega
  length_right := by
    rw [List.length_drop, h.length_right, Nat.succ_mul]
    omega
  front := rfl
  text k hk := by
    have htext := h.text (k + 1) (Nat.succ_lt_succ hk)
    rwa [slice_succ, slice_succ] at htext

end Similar

namespace Decoder

variable {α β : Type} {d : Decoder α} {k : α → Decoder β} {capacity n m texts : Nat}

/-- Of fields behind `n` bytes, a decoder sees no more than their texts. -/
def Sees (capacity : Nat) (d : Decoder α) (n texts : Nat) : Prop :=
  ∀ f g, Similar capacity n texts f g → d.Same f g

theorem sees_pure (x : α) : Sees capacity (pure x) 0 0 := by
  intro f g h
  obtain rfl : f = [] := List.length_eq_zero_iff.1 (by rw [h.length_left, Nat.zero_mul])
  obtain rfl : g = [] := List.length_eq_zero_iff.1 (by rw [h.length_right, Nat.zero_mul])
  exact Or.inl ⟨x, reads_pure x, reads_pure x⟩

theorem sees_refuse (e : DecodeError) (n texts : Nat) :
    Sees capacity (refuse e : Decoder α) n texts := fun f g _ => same_refuse e f g

/-- A decoder that decides on the bytes in front leaves the fields to the next one. -/
theorem sees_bind (hd : d.Decides n) (hk : ∀ x, Sees capacity (k x) m texts) :
    Sees capacity (d >>= k) (m + n) texts := by
  intro f g h
  refine same_bind n ?_ fun x => hk x _ _ h.drop
  rw [h.take]
  refine hd.same (List.length_take_of_le ?_)
  rw [h.length_right]
  omega

/-- Of its field, a text is all that is passed on. -/
theorem sees_text {k : String → Decoder α} (hk : ∀ text, Sees capacity (k text) 0 texts) :
    Sees capacity (Reader.paddedText capacity >>= k) 0 (texts + 1) := by
  intro f g h
  have hreads : ∀ f : List UInt8, f.length = 0 + (texts + 1) * capacity →
      (Reader.paddedText capacity).Reads (f.take capacity) (textOf (f.take capacity)) := by
    intro f hf
    have hlength : (f.take capacity).length = capacity := by
      refine List.length_take_of_le ?_
      rw [hf, Nat.succ_mul]
      omega
    have htake := reads_map (Reader.reads_take (f.take capacity)) textOf
    rwa [hlength] at htake
  refine same_bind capacity ?_ fun text => hk text _ _ h.drop_field
  refine Or.inl ⟨_, hreads f h.length_left, ?_⟩
  rw [h.textOf_take]
  exact hreads g h.length_right

end Decoder

end Vitals.Wire
