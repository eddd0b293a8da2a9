/-
  Decoders at the end of their bytes.

  * `Decoder.Inert d`: what `d` accepts it accepts with anything behind it, and leaves that over.
    Every `Exact` decoder is inert; `inert_prefixed` and `inert_count` look at how much is left, but
    more of it never hurts.
  * `DecodeError.Shortage`: the refusals that more bytes could have averted.
  * `Decoder.Starves d bytes`: cut short anywhere, these bytes are refused by `d` for a shortage.
  * `starves_bind`, `starves_times`, `starves_prefixed`, `starves_count_bind`,
    `starves_records`: how the fields of the wire starve.
-/
import Vitals.Proofs.Wire.Exact

namespace Vitals.Wire

/-! ## More bytes than enough -/

namespace Decoder

variable {α β : Type} {d : Decoder α} {k : α → Decoder β} {n : Nat}

/-- What a decoder accepts it accepts with anything behind it. -/
def Inert (d : Decoder α) : Prop :=
  ∀ position bytes x r, d ⟨position, bytes⟩ = .ok x r →
    ∀ rest, d ⟨position, bytes ++ rest⟩ = .ok x ⟨r.position, r.rest ++ rest⟩

theorem Exact.inert (h : d.Exact n) : d.Inert := by
  intro position bytes x r hx rest
  obtain ⟨front, rfl, rfl, hposition, hreads⟩ := h _ _ _ _ hx
  rw [List.append_assoc, hreads, hposition]

theorem inert_pure (x : α) : (pure x : Decoder α).Inert := (exact_pure x).inert

theorem inert_refuse (e : DecodeError) : (refuse e : Decoder α).Inert := nofun

theorem inert_bind (hd : d.Inert) (hk : ∀ x, (k x).Inert) : (d >>= k).Inert := by
  intro position bytes y r h rest
  obtain ⟨x, r₁, hx, hy⟩ := bind_eq_ok.1 h
  rw [bind_of_ok (hd _ _ _ _ hx rest)]
  exact hk x _ _ _ _ hy rest

theorem inert_map (hd : d.Inert) (f : α → β) : (d >>= fun x => pure (f x)).Inert :=
  inert_bind hd fun x => inert_pure (f x)

theorem inert_times (hd : d.Inert) (count : Nat) : (times d count).Inert := by
  induction count with
  | zero => exact inert_pure []
  | succ count ih => exact inert_bind hd fun x => inert_map ih _

theorem Inert.run (hd : d.Inert) {payload : List UInt8} {x : α} (h : d.run payload = .ok x)
    (rest : List UInt8) : d.run (payload ++ rest) = .ok x := by
  obtain ⟨r, hr⟩ := run_eq_ok.1 h
  exact run_eq_ok.2 ⟨_, hd _ _ _ _ hr rest⟩

end Decoder

namespace Reader

open Decoder

theorem lacks_iff {r : Reader} {needed : Nat} : r.lacks needed = true ↔ r.rest.length < needed := by
  rw [lacks_eq, decide_eq_true_eq, remaining]

theorem fits_mono {count : UInt64} {size remaining remaining' : Nat}
    (h : fits count size remaining = true) (hle : remaining ≤ remaining') :
    fits count size remaining' = true := by
  unfold fits at h ⊢
  split_ifs at h ⊢
  · simp only [decide_eq_true_eq] at h ⊢
    omega
  · simp only [decide_eq_true_eq] at h ⊢
    exact h.trans (Nat.div_le_div_right hle)

/-- A length that does not reach past the end does not reach past a later one. -/
theorem inert_prefixed : Reader.prefixed.Inert := by
  intro position bytes x r h rest
  unfold Reader.prefixed at h ⊢
  cases hw : word64 ⟨position, bytes⟩ with
  | error e r' => simp [hw] at h
  | ok declared r' =>
    rw [exact_word64.inert _ _ _ _ hw rest]
    simp only [hw, lacks_iff, List.length_append] at h ⊢
    split at h
    · cases h
    · rename_i henough
      rw [if_neg (by omega)]
      exact (exact_take _).inert _ _ _ _ h rest

theorem inert_count (size : Nat) : (count size).Inert := by
  intro position bytes n r h rest
  obtain ⟨w, rfl, rfl, hposition, hfits⟩ := count_eq_ok h
  have hmore : fits w size (r.rest ++ rest).length = true := by
    rw [List.length_append]
    exact fits_mono hfits (Nat.le_add_right _ _)
  rw [List.append_assoc, count_word64Bytes, if_pos hmore, hposition]

end Reader

/-! ## Fewer bytes than enough -/

/-- The refusals that more bytes could have averted. -/
inductive DecodeError.Shortage : DecodeError → Prop
  | emptyFrame : Shortage .emptyFrame
  | truncated {offset needed available : Nat} : Shortage (.truncated offset needed available)
  | lengthOverflow {declared : UInt64} {remaining : Nat} :
      Shortage (.lengthOverflow declared remaining)
  | countOverflow {count : UInt64} {remaining : Nat} : Shortage (.countOverflow count remaining)

namespace Decoder

variable {α β : Type} {d : Decoder α} {k : α → Decoder β} {bs cs : List UInt8} {x : α}

/-- A decoder needs all of some bytes: cut short anywhere, they are refused. -/
def Starves (d : Decoder α) (bytes : List UInt8) : Prop :=
  ∀ position front missing, missing ≠ [] → bytes = front ++ missing →
    ∃ e r, d ⟨position, front⟩ = .error e r ∧ e.Shortage

/-- Bytes that are cut short are cut within their first part or behind it. -/
theorem cut_append {bs cs front missing : List UInt8} (h : bs ++ cs = front ++ missing) :
    (∃ less, less ≠ [] ∧ bs = front ++ less) ∨
      ∃ more, front = bs ++ more ∧ cs = more ++ missing := by
  rcases List.append_eq_append_iff.1 h with ⟨more, hfront, hcs⟩ | ⟨less, hbs, hmissing⟩
  · exact Or.inr ⟨more, hfront, hcs⟩
  · by_cases hless : less = []
    · subst hless
      exact Or.inr ⟨[], by simpa using hbs.symm, by simpa using hmissing.symm⟩
    · exact Or.inl ⟨less, hless, hbs⟩

theorem starves_nil (d : Decoder α) : d.Starves [] := by
  intro position front missing hmissing hcut
  exact absurd (List.append_eq_nil_iff.1 hcut.symm).2 hmissing

theorem Starves.bind (hd : d.Starves bs) (k : α → Decoder β) : (d >>= k).Starves bs := by
  intro position front missing hmissing hcut
  obtain ⟨e, r, he, hshort⟩ := hd position front missing hmissing hcut
  exact ⟨e, r, bind_of_error he k, hshort⟩

/-- **Decoders in sequence starve in sequence.** -/
theorem starves_bind (hd : d.Starves bs) (hreads : d.Reads bs x) (hk : (k x).Starves cs) :
    (d >>= k).Starves (bs ++ cs) := by
  intro position front missing hmissing hcut
  rcases cut_append hcut with ⟨less, hless, hbs⟩ | ⟨more, rfl, hcs⟩
  · exact hd.bind k position front less hless hbs
  · rw [bind_of_ok (hreads position more)]
    exact hk (position + bs.length) more missing hmissing hcs

theorem starves_times {encode : α → List UInt8} {d : Decoder β} {value : α → β} {xs : List α}
    (hreads : ∀ x ∈ xs, d.Reads (encode x) (value x)) (hd : ∀ x ∈ xs, d.Starves (encode x)) :
    (times d xs.length).Starves (xs.flatMap encode) := by
  induction xs with
  | nil => exact starves_nil _
  | cons x xs ih =>
    have hrest := ih (fun y hy => hreads y (List.mem_cons_of_mem x hy))
      fun y hy => hd y (List.mem_cons_of_mem x hy)
    exact starves_bind (hd x List.mem_cons_self) (hreads x List.mem_cons_self) (hrest.bind _)

theorem Starves.run (h : d.Starves bs) {front missing : List UInt8} (hmissing : missing ≠ [])
    (hcut : bs = front ++ missing) : ∃ e, d.run front = .error e ∧ e.Shortage := by
  obtain ⟨e, r, he, hshort⟩ := h 0 front missing hmissing hcut
  refine ⟨e, ?_, hshort⟩
  unfold Decoder.run Reader.start
  rw [he]

end Decoder

namespace Reader

open Decoder

theorem starves_take (bytes : List UInt8) : (take bytes.length).Starves bytes := by
  rintro position front missing hmissing rfl
  have hlacks : Reader.lacks ⟨position, front⟩ (front ++ missing).length = true := by
    have := List.length_pos_iff.2 hmissing
    rw [lacks_iff, List.length_append]
    exact Nat.lt_add_of_pos_right this
  exact ⟨_, _, by rw [take, if_pos hlacks], .truncated⟩

theorem starves_byte (b : UInt8) : byte.Starves [b] := (starves_take [b]).bind _

theorem starves_word64 (w : UInt64) : word64.Starves (word64Bytes w) := by
  have h := starves_take (word64Bytes w)
  rw [length_word64Bytes] at h
  exact h.bind _

/-- Bytes that are not all there do not make up their length. -/
theorem starves_prefixed {bytes : List UInt8} (h : bytes.length < 2 ^ 64) :
    Reader.prefixed.Starves (prefixedBytes bytes) := by
  intro position front missing hmissing hcut
  have hword : (UInt64.ofNat bytes.length).toNat = bytes.length := UInt64.toNat_ofNat_of_lt' h
  unfold Reader.prefixed
  rcases cut_append hcut with ⟨less, hless, hlength⟩ | ⟨more, rfl, hbytes⟩
  · obtain ⟨e, r, he, hshort⟩ := starves_word64 _ position front less hless hlength
    simp only [he]
    exact ⟨e, r, rfl, hshort⟩
  · have hlacks : lacks ⟨position + 8, more⟩ bytes.length = true := by
      have := List.length_pos_iff.2 hmissing
      rw [lacks_iff, hbytes, List.length_append]
      exact Nat.lt_add_of_pos_right this
    have hw := reads_word64 (UInt64.ofNat bytes.length) position more
    rw [length_word64Bytes] at hw
    simp only [hw, hword, hlacks, if_true]
    exact ⟨_, _, rfl, .lengthOverflow⟩

variable {α : Type} {size : Nat} {w : UInt64} {k : Nat → Decoder α} {bytes : List UInt8}

/-- Cut short, counted records starve if so many cannot fit into less, or if they starve
themselves. -/
theorem starves_count_bind
    (h : (∀ n < bytes.length, fits w size n = false) ∨ (k w.toNat).Starves bytes) :
    (count size >>= k).Starves (word64Bytes w ++ bytes) := by
  intro position front missing hmissing hcut
  rcases cut_append hcut with ⟨less, hless, hword⟩ | ⟨more, rfl, hbytes⟩
  · exact ((starves_word64 w).bind _).bind k position front less hless hword
  · cases hfits : fits w size more.length with
    | false =>
      have hcount : count size ⟨position, word64Bytes w ++ more⟩ =
          .error (.countOverflow w more.length) ⟨position + 8, more⟩ := by
        rw [count_word64Bytes, if_neg (by simp [hfits])]
      exact ⟨_, _, bind_of_error hcount k, .countOverflow⟩
    | true =>
      have hcount : count size ⟨position, word64Bytes w ++ more⟩ =
          .ok w.toNat ⟨position + 8, more⟩ := by
        rw [count_word64Bytes, if_pos hfits]
      rw [bind_of_ok hcount]
      refine h.resolve_left ?_ (position + 8) more missing hmissing hbytes
      intro hnever
      have hlt : more.length < bytes.length := by
        have := List.length_pos_iff.2 hmissing
        rw [hbytes, List.length_append]
        omega
      rw [hnever more.length hlt] at hfits
      cases hfits

/-- Records of a fixed size do not fit into less than all their bytes. -/
theorem starves_records (hsize : 0 < size) (hlength : bytes.length = w.toNat * size) :
    (count size >>= k).Starves (word64Bytes w ++ bytes) := by
  refine starves_count_bind (Or.inl fun n hn => ?_)
  rw [← Bool.not_eq_true, fits_iff hsize]
  omega

end Reader

end Vitals.Wire
