/-
  The bytes that a decoder takes, as a language, and the places it can come to.

  * `Decoder.Spells d L`: `d` takes a value off the front of some bytes iff these bytes are one of
    the value's spellings in `L`. So `L` says what is accepted and what it means, both ways.
  * `spells_bind`, `spells_map`, `spells_times`: the language of decoders in sequence.
  * `spells_byte`, `spells_word64`, `spells_prefixed`, `spells_count_bind`: fields. The guards of
    lengths and counts look at all that is left, but never turn down a spelling.
  * `Spells.run_eq_ok`: a payload is accepted iff a spelling is at its front.
  * `Decoder.Keeps d`: wherever `d` stops, it has read so many bytes of the payload and no more.
-/
import Vitals.Proofs.Wire.Extent

namespace Vitals.Wire

namespace Decoder

variable {α β : Type} {d : Decoder α} {k : α → Decoder β} {L : α → List UInt8 → Prop}
  {M : α → β → List UInt8 → Prop}

/-- A decoder takes a value off the front of some bytes iff they are spellings of it. -/
def Spells (d : Decoder α) (L : α → List UInt8 → Prop) : Prop :=
  ∀ position bytes x r, d ⟨position, bytes⟩ = .ok x r ↔
    ∃ front, L x front ∧ bytes = front ++ r.rest ∧ r.position = position + front.length

theorem Reads.unique {bytes : List UInt8} {x y : α} (hx : d.Reads bytes x) (hy : d.Reads bytes y) :
    x = y := by
  have h := (hx 0 []).symm.trans (hy 0 [])
  cases h
  rfl

theorem Spells.reads (h : d.Spells L) {x : α} {front : List UInt8} (hx : L x front) :
    d.Reads front x := fun _ _ => (h _ _ _ _).2 ⟨front, hx, rfl, rfl⟩

/-- What a decoder takes is spelled, and what is spelled it reads. -/
theorem spells_of (htakes : ∀ position bytes x r, d ⟨position, bytes⟩ = .ok x r →
      ∃ front, L x front ∧ bytes = front ++ r.rest ∧ r.position = position + front.length)
    (hreads : ∀ x front, L x front → d.Reads front x) : d.Spells L := by
  intro position bytes x r
  constructor
  · exact htakes position bytes x r
  · obtain ⟨position', rest⟩ := r
    rintro ⟨front, hx, rfl, rfl⟩
    exact hreads x front hx position rest

theorem Spells.congr {L' : α → List UInt8 → Prop} (h : d.Spells L)
    (hL : ∀ x front, L x front ↔ L' x front) : d.Spells L' := by
  intro position bytes x r
  simp only [h position bytes x r, hL]

theorem spells_pure (x : α) : (pure x : Decoder α).Spells fun y front => y = x ∧ front = [] := by
  refine spells_of ?_ ?_
  · intro position bytes y r h
    obtain ⟨rfl, rfl⟩ := pure_eq_ok.1 h
    exact ⟨[], ⟨rfl, rfl⟩, rfl, rfl⟩
  · rintro y front ⟨rfl, rfl⟩
    exact reads_pure y

theorem spells_refuse (e : DecodeError) : (refuse e : Decoder α).Spells fun _ _ => False := by
  refine spells_of ?_ ?_
  · intro position bytes x r h
    cases h
  · rintro x front ⟨⟩

/-- **Decoders in sequence spell in sequence.** -/
theorem spells_bind (hd : d.Spells L) (hk : ∀ x, (k x).Spells (M x)) :
    (d >>= k).Spells fun y front => ∃ x bs cs, L x bs ∧ M x y cs ∧ front = bs ++ cs := by
  refine spells_of ?_ ?_
  · intro position bytes y r h
    obtain ⟨x, ⟨position₁, rest⟩, hx, hy⟩ := bind_eq_ok.1 h
    obtain ⟨bs, hbs, rfl, rfl⟩ := (hd _ _ _ _).1 hx
    obtain ⟨cs, hcs, rfl, hposition⟩ := (hk x _ _ _ _).1 hy
    refine ⟨bs ++ cs, ⟨x, bs, cs, hbs, hcs, rfl⟩, by simp, ?_⟩
    rw [hposition, List.length_append, Nat.add_assoc]
  · rintro y front ⟨x, bs, cs, hbs, hcs, rfl⟩
    exact reads_bind (hd.reads hbs) ((hk x).reads hcs)

theorem spells_map (hd : d.Spells L) (f : α → β) :
    (d >>= fun x => pure (f x)).Spells fun y front => ∃ x, L x front ∧ y = f x := by
  refine (spells_bind hd fun x => spells_pure (f x)).congr fun y front => ?_
  constructor
  · rintro ⟨x, bs, cs, hbs, ⟨rfl, rfl⟩, rfl⟩
    exact ⟨x, by rwa [List.append_nil], rfl⟩
  · rintro ⟨x, hx, rfl⟩
    exact ⟨x, front, [], hx, ⟨rfl, rfl⟩, (List.append_nil front).symm⟩

/-- Where every value has one spelling, so have several of them. -/
theorem spells_times {encode : α → List UInt8} (hd : d.Spells fun x front => front = encode x)
    (n : Nat) :
    (times d n).Spells fun xs front => xs.length = n ∧ front = xs.flatMap encode := by
  induction n with
  | zero =>
    refine (spells_pure []).congr fun xs front => ?_
    constructor
    · rintro ⟨rfl, rfl⟩
      exact ⟨rfl, rfl⟩
    · rintro ⟨hlength, rfl⟩
      obtain rfl := List.length_eq_zero_iff.1 hlength
      exact ⟨rfl, rfl⟩
  | succ n ih =>
    refine (spells_bind hd fun x => spells_map ih (x :: ·)).congr fun xs front => ?_
    constructor
    · rintro ⟨x, bs, cs, rfl, ⟨ys, ⟨hlength, rfl⟩, rfl⟩, rfl⟩
      exact ⟨by rw [List.length_cons, hlength], rfl⟩
    · rintro ⟨hlength, rfl⟩
      obtain ⟨x, ys, rfl⟩ := List.exists_cons_of_length_eq_add_one hlength
      exact ⟨x, _, _, rfl, ⟨ys, ⟨Nat.succ.inj hlength, rfl⟩, rfl⟩, rfl⟩

/-- At any place, bytes are accepted iff a spelling is at their front. -/
theorem Spells.accepts_iff (h : d.Spells L) (position : Nat) {bytes : List UInt8} {x : α} :
    (∃ r, d ⟨position, bytes⟩ = .ok x r) ↔ ∃ front, L x front ∧ front <+: bytes := by
  constructor
  · rintro ⟨r, hr⟩
    obtain ⟨front, hx, hbytes, -⟩ := (h _ _ _ _).1 hr
    exact ⟨front, hx, r.rest, hbytes.symm⟩
  · rintro ⟨front, hx, rest, rfl⟩
    exact ⟨_, h.reads hx position rest⟩

/-- **A payload is accepted iff a spelling is at its front.** -/
theorem Spells.run_eq_ok (h : d.Spells L) {payload : List UInt8} {x : α} :
    d.run payload = .ok x ↔ ∃ front, L x front ∧ front <+: payload :=
  Decoder.run_eq_ok.trans (h.accepts_iff 0)

end Decoder

/-! ## Fields -/

namespace Reader

open Decoder

theorem spells_byte : byte.Spells fun b front => front = [b] := by
  refine spells_of ?_ ?_
  · intro position bytes b r h
    obtain ⟨front, hlength, hbytes, hposition, hreads⟩ := exact_byte _ _ _ _ h
    obtain ⟨c, rfl⟩ := List.length_eq_one_iff.1 hlength
    obtain rfl := hreads.unique (reads_byte c)
    exact ⟨[b], rfl, hbytes, hposition⟩
  · rintro b front rfl
    exact reads_byte b

theorem spells_word64 : word64.Spells fun w front => front = word64Bytes w := by
  refine spells_of ?_ ?_
  · intro position bytes w r h
    obtain ⟨hbytes, hposition⟩ := word64_eq_ok h
    exact ⟨word64Bytes w, rfl, hbytes, by rw [hposition, length_word64Bytes]⟩
  · rintro w front rfl
    exact reads_word64 w

/-- A length is judged by what comes behind it, and is not counted as read when it is refused. -/
theorem prefixed_word64Bytes (position : Nat) (w : UInt64) (rest : List UInt8) :
    Reader.prefixed ⟨position, word64Bytes w ++ rest⟩ =
      if rest.length < w.toNat then
        .error (.lengthOverflow w rest.length) ⟨position, word64Bytes w ++ rest⟩
      else .ok (rest.take w.toNat) ⟨position + 8 + w.toNat, rest.drop w.toNat⟩ := by
  have hword := reads_word64 w position rest
  rw [length_word64Bytes] at hword
  simp only [Reader.prefixed, hword, lacks_iff, remaining]
  by_cases hlacks : rest.length < w.toNat
  · rw [if_pos hlacks, if_pos hlacks]
  · have henough : ¬ lacks ⟨position + 8, rest⟩ w.toNat = true := fun h => hlacks (lacks_iff.1 h)
    rw [if_neg hlacks, if_neg hlacks, take, if_neg henough]

/-- Any length can stand in front of so many bytes. -/
theorem spells_prefixed : Reader.prefixed.Spells fun bytes front =>
    ∃ w : UInt64, w.toNat = bytes.length ∧ front = word64Bytes w ++ bytes := by
  refine spells_of ?_ ?_
  · intro position bytes x r h
    cases hw : word64 ⟨position, bytes⟩ with
    | error e r₁ => simp [Reader.prefixed, hw] at h
    | ok w r₁ =>
      obtain ⟨rfl, -⟩ := word64_eq_ok hw
      rw [prefixed_word64Bytes] at h
      split at h
      · cases h
      · rename_i henough
        cases h
        have hlength : (r₁.rest.take w.toNat).length = w.toNat :=
          List.length_take_of_le (Nat.not_lt.1 henough)
        refine ⟨word64Bytes w ++ r₁.rest.take w.toNat, ⟨w, hlength.symm, rfl⟩, ?_, ?_⟩
        · rw [List.append_assoc, List.take_append_drop]
        · rw [List.length_append, length_word64Bytes, hlength, Nat.add_assoc]
  · rintro bytes front ⟨w, hw, rfl⟩
    have hword : UInt64.ofNat bytes.length = w := by rw [← hw, UInt64.ofNat_toNat]
    have hlength : bytes.length < 2 ^ 64 := hw ▸ w.toNat_lt
    have h := reads_prefixed hlength
    rwa [prefixedBytes, hword] at h

variable {α : Type} {size : Nat} {k : Nat → Decoder α} {M : Nat → α → List UInt8 → Prop}

/-- **The guard of a count turns down no spelling**, where each of the things counted takes `size`
bytes at least. -/
theorem spells_count_bind (hsize : 0 < size) (hk : ∀ n, (k n).Spells (M n))
    (hfit : ∀ n x front, M n x front → n * size ≤ front.length) :
    (count size >>= k).Spells fun x front =>
      ∃ (w : UInt64) (bs : List UInt8), M w.toNat x bs ∧ front = word64Bytes w ++ bs := by
  refine spells_of ?_ ?_
  · intro position bytes x r h
    obtain ⟨n, ⟨position₁, rest⟩, hn, hx⟩ := bind_eq_ok.1 h
    obtain ⟨w, rfl, rfl, hposition₁, -⟩ := count_eq_ok hn
    obtain ⟨bs, hbs, hrest, hposition⟩ := (hk _ _ _ _ _).1 hx
    dsimp only at hrest hposition₁
    refine ⟨word64Bytes w ++ bs, ⟨w, bs, hbs, rfl⟩, by rw [hrest, List.append_assoc], ?_⟩
    rw [hposition, hposition₁, List.length_append, length_word64Bytes, Nat.add_assoc]
  · rintro x front ⟨w, bs, hbs, rfl⟩
    exact reads_count_bind hsize (hfit _ _ _ hbs) ((hk _).reads hbs)

end Reader

/-! ## Refusals for what is left -/

namespace Decoder

variable {α β : Type} {d : Decoder α} {k : α → Decoder β} {bs cs : List UInt8} {x : α}
  {e : DecodeError}

/-- A decoder refuses some bytes when nothing comes behind them. -/
def Fails (d : Decoder α) (bytes : List UInt8) (e : DecodeError) : Prop :=
  ∀ position, ∃ r, d ⟨position, bytes⟩ = .error e r

theorem Fails.bind (hd : d.Fails bs e) (k : α → Decoder β) : (d >>= k).Fails bs e := by
  intro position
  obtain ⟨r, hr⟩ := hd position
  exact ⟨r, bind_of_error hr k⟩

theorem fails_bind (hd : d.Reads bs x) (hk : (k x).Fails cs e) : (d >>= k).Fails (bs ++ cs) e := by
  intro position
  rw [bind_of_ok (hd position cs)]
  exact hk _

theorem Fails.run (h : d.Fails bs e) : d.run bs = .error e := by
  obtain ⟨r, hr⟩ := h 0
  unfold Decoder.run Reader.start
  rw [hr]

end Decoder

namespace Reader

theorem fails_prefixed {w : UInt64} {rest : List UInt8} (h : rest.length < w.toNat) :
    Reader.prefixed.Fails (word64Bytes w ++ rest) (.lengthOverflow w rest.length) := by
  intro position
  rw [prefixed_word64Bytes, if_pos h]
  exact ⟨_, rfl⟩

theorem fails_count {size : Nat} (hsize : 0 < size) {w : UInt64} {rest : List UInt8}
    (h : rest.length < w.toNat * size) :
    (count size).Fails (word64Bytes w ++ rest) (.countOverflow w rest.length) := by
  have hfits : ¬ fits w size rest.length = true := by
    rw [fits_iff hsize]
    omega
  intro position
  rw [count_word64Bytes, if_neg hfits]
  exact ⟨_, rfl⟩

end Reader

/-! ## Places in a payload -/

/-- A reader is at a place of a payload: what it has counted is read and what it holds is left. -/
def Reader.Within (payload : List UInt8) (r : Reader) : Prop :=
  ∃ front, payload = front ++ r.rest ∧ front.length = r.position

theorem Reader.within_start (payload : List UInt8) : (Reader.start payload).Within payload :=
  ⟨[], rfl, rfl⟩

namespace Decoder

variable {α β : Type} {d : Decoder α} {k : α → Decoder β}

/-- Where a decoder stops, whether it accepts or refuses. -/
def stop (d : Decoder α) (r : Reader) : Reader :=
  match d r with
  | .ok _ r' => r'
  | .error _ r' => r'

/-- From any place of any payload a decoder comes to another one. -/
def Keeps (d : Decoder α) : Prop :=
  ∀ payload r, r.Within payload → (d.stop r).Within payload

theorem keeps_pure (x : α) : (pure x : Decoder α).Keeps := fun _ _ h => h

theorem keeps_refuse (e : DecodeError) : (refuse e : Decoder α).Keeps := fun _ _ h => h

theorem keeps_bind (hd : d.Keeps) (hk : ∀ x, (k x).Keeps) : (d >>= k).Keeps := by
  intro payload r h
  have hstop := hd payload r h
  unfold stop at hstop ⊢
  cases hr : d r with
  | ok x r₁ =>
    rw [hr] at hstop
    rw [bind_of_ok hr]
    exact hk x payload r₁ hstop
  | error e r₁ =>
    rw [hr] at hstop
    rw [bind_of_error hr]
    exact hstop

theorem keeps_map (hd : d.Keeps) (f : α → β) : (d >>= fun x => pure (f x)).Keeps :=
  keeps_bind hd fun x => keeps_pure (f x)

theorem keeps_times (hd : d.Keeps) (n : Nat) : (times d n).Keeps := by
  induction n with
  | zero => exact keeps_pure []
  | succ n ih => exact keeps_bind hd fun x => keeps_map ih (x :: ·)

end Decoder

namespace Reader

open Decoder

theorem keeps_take (n : Nat) : (take n).Keeps := by
  rintro payload ⟨position, rest⟩ ⟨front, hpayload, hposition⟩
  unfold stop take
  dsimp only at hpayload hposition
  by_cases hlacks : lacks ⟨position, rest⟩ n = true
  · rw [if_pos hlacks]
    exact ⟨front, hpayload, hposition⟩
  · rw [if_neg hlacks]
    rw [lacks_iff] at hlacks
    refine ⟨front ++ rest.take n, ?_, ?_⟩
    · rw [List.append_assoc, List.take_append_drop, hpayload]
    · rw [List.length_append, List.length_take_of_le (Nat.not_lt.1 hlacks), hposition]

theorem keeps_byte : byte.Keeps := keeps_map (keeps_take 1) _

theorem keeps_word64 : word64.Keeps := keeps_map (keeps_take 8) _

theorem keeps_prefixed : Reader.prefixed.Keeps := by
  intro payload r h
  have hword := keeps_word64 payload r h
  unfold stop at hword
  unfold stop Reader.prefixed
  cases hw : word64 r with
  | error e r₁ =>
    rw [hw] at hword
    exact hword
  | ok w r₁ =>
    rw [hw] at hword
    dsimp only
    by_cases hlacks : r₁.lacks w.toNat = true
    · -- A length that is refused is not counted as read.
      rw [if_pos hlacks]
      exact h
    · rw [if_neg hlacks]
      exact keeps_take w.toNat payload r₁ hword

theorem keeps_count (size : Nat) : (count size).Keeps := by
  unfold count
  refine keeps_bind keeps_word64 fun w => ?_
  refine keeps_bind (fun _ _ h => h) fun r => ?_
  dsimp only
  split
  · exact keeps_pure _
  · exact keeps_refuse _

end Reader

end Vitals.Wire
