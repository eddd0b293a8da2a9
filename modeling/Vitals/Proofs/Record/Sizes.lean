/-
  The sizes of records.

  The size of a record is written down once, for the guards of batches. How much of a payload a
  record takes is decided elsewhere, by the reads and the writes of its fields.

  * `Decoder.Judges d bytes flaw`: `d` accepts these bytes, or refuses them with the flaw given, and
    looks at no others. `judges_bind`: decoders in sequence.
  * `Stat.flaw?`, `Request.flaw?`: what is wrong with the bytes of a record, by their offsets.
  * `Record.Sized`: a size is right, for reads and for writes.
  * `record_sizes`: it is for all three types of record.
-/
import Vitals.Proofs.Record
import Vitals.Proofs.Wire.Slices

namespace Vitals

namespace Wire

/-- The word at an offset. -/
def wordAt (bytes : List UInt8) (offset : Nat) : UInt64 :=
  word64OfBytes ((bytes.drop offset).take 8)

namespace Decoder

variable {α β : Type} {d : Decoder α} {k : α → Decoder β} {value : List UInt8 → α}
  {bytes : List UInt8} {offset n : Nat} {flaw : Option DecodeError}

/-- A decoder makes a value of any `n` bytes. -/
def Makes (d : Decoder α) (n : Nat) (value : List UInt8 → α) : Prop :=
  ∀ front, front.length = n → d.Reads front (value front)

/-- From an offset on, a decoder accepts some bytes if no flaw is given, and refuses them for the
flaw if there is one. It looks at nothing behind them. -/
structure Judges (d : Decoder α) (bytes : List UInt8) (offset : Nat) (flaw : Option DecodeError) :
    Prop where
  accepts : flaw = none → ∃ x, d.Reads (bytes.drop offset) x
  refuses : ∀ e, flaw = some e → e.Flaw ∧ d.Refuses (bytes.drop offset) e

theorem judges_pure (x : α) (h : bytes.length ≤ offset) :
    (pure x : Decoder α).Judges bytes offset none where
  accepts _ := by
    rw [List.drop_of_length_le h]
    exact ⟨x, reads_pure x⟩
  refuses := nofun

theorem judges_refuse {e : DecodeError} (h : e.Flaw) :
    (refuse e : Decoder α).Judges bytes offset (some e) where
  accepts := nofun
  refuses e' he := by
    cases he
    exact ⟨h, refuse_refuses e _⟩

/-- What comes behind a value is judged from there on, knowing the value. -/
theorem judges_bind (hd : d.Makes n value) (h : offset + n ≤ bytes.length)
    (hk : (k (value ((bytes.drop offset).take n))).Judges bytes (offset + n) flaw) :
    (d >>= k).Judges bytes offset flaw := by
  have hfront : ((bytes.drop offset).take n).length = n :=
    List.length_take_of_le (by rw [List.length_drop]; omega)
  have hsplit : bytes.drop offset = (bytes.drop offset).take n ++ bytes.drop (offset + n) := by
    rw [← List.drop_drop, List.take_append_drop]
  refine ⟨fun hnone => ?_, fun e he => ?_⟩
  · obtain ⟨y, hy⟩ := hk.accepts hnone
    rw [hsplit]
    exact ⟨y, reads_bind (hd _ hfront) hy⟩
  · obtain ⟨hflaw, hrefuses⟩ := hk.refuses e he
    rw [hsplit]
    exact ⟨hflaw, bind_refuses (hd _ hfront) hrefuses⟩

/-- What is judged at the front of a reader is taken off it, or refused for its flaw. -/
theorem Judges.cases {r : Reader} (h : d.Judges (r.rest.take n) 0 flaw) (hn : n ≤ r.remaining) :
    (flaw = none ∧ ∃ x, d r = .ok x ⟨r.position + n, r.rest.drop n⟩) ∨
      ∃ e r', flaw = some e ∧ e.Flaw ∧ d r = .error e r' := by
  obtain ⟨position, rest⟩ := r
  have hfront : (rest.take n).length = n := List.length_take_of_le hn
  cases flaw with
  | none =>
    obtain ⟨x, hx⟩ := h.accepts rfl
    have hread := hx position (rest.drop n)
    rw [List.drop_zero, List.take_append_drop, hfront] at hread
    exact Or.inl ⟨rfl, x, hread⟩
  | some e =>
    obtain ⟨hflaw, hrefuses⟩ := h.refuses e rfl
    obtain ⟨r', hread⟩ := hrefuses position (rest.drop n)
    rw [List.drop_zero, List.take_append_drop] at hread
    exact Or.inr ⟨e, r', rfl, hflaw, hread⟩

end Decoder

namespace Reader

open Decoder

variable {α : Type}

/-- Whatever is made of bytes is made of as many as are taken. -/
theorem makes_map (n : Nat) (f : List UInt8 → α) :
    (take n >>= fun bytes => pure (f bytes)).Makes n f := by
  rintro front rfl
  exact reads_map (reads_take front) f

theorem makes_byte : byte.Makes 1 fun front => front.headD 0 := makes_map 1 _

theorem makes_word16 : word16.Makes 2 word16OfBytes := makes_map 2 _

theorem makes_word64 : word64.Makes 8 word64OfBytes := makes_map 8 _

theorem makes_paddedText (capacity : Nat) : (paddedText capacity).Makes capacity textOf :=
  makes_map capacity _

end Reader

end Wire

open Wire

/-! ## What is wrong with the bytes of a record -/

/-- What is wrong with the bytes of an interval: its instants may be out of order. -/
def Stat.flaw? (bytes : List UInt8) : Option DecodeError :=
  let stop := wordAt bytes 56
  let start := wordAt bytes 64
  let startup := wordAt bytes 72
  if start ≤ stop ∧ startup ≤ start then none
  else some (.invalidRecord (.intervalOutOfOrder startup start stop))

/-- What is wrong with the bytes of a request: its first byte may be no method, of which there are
nine, or else it may end before it starts. -/
def Request.flaw? (bytes : List UInt8) : Option DecodeError :=
  let code := bytes.headD 0
  let start := wordAt bytes 10
  let stop := wordAt bytes 18
  if 9 ≤ code.toNat then some (.unknownMethod code)
  else if stop < start then some (.invalidRecord (.endsBeforeStart start stop))
  else none

/-- An interval is judged once all its words are read. -/
theorem Stat.decode_judges {bytes : List UInt8} (h : bytes.length = 96) :
    Stat.decode.Judges bytes 0 (Stat.flaw? bytes) := by
  unfold Stat.decode
  iterate 12 refine Decoder.judges_bind Reader.makes_word64 (by omega) ?_
  dsimp only
  split
  · next hordered =>
    have hnone : Stat.flaw? bytes = none := if_pos hordered
    rw [hnone]
    exact Decoder.judges_pure _ (by omega)
  · next hordered =>
    have hsome : Stat.flaw? bytes = some _ := if_neg hordered
    rw [hsome]
    exact Decoder.judges_refuse (.invalidRecord _)

theorem Http.Method.ofCode?_eq_none_iff {b : UInt8} : ofCode? b = none ↔ 9 ≤ b.toNat := by
  unfold ofCode?
  split
  iterate 9 exact iff_of_false nofun (by omega)
  exact iff_of_true rfl (by grind)

/-- A method is judged at once, and the order of the instants before the texts are read. -/
theorem Request.decode_judges {bytes : List UInt8} (h : bytes.length = 668) :
    Request.decode.Judges bytes 0 (Request.flaw? bytes) := by
  unfold Request.decode
  refine Decoder.judges_bind Reader.makes_byte (by omega) ?_
  have hcode : ((bytes.drop 0).take 1).headD 0 = bytes.headD 0 := by cases bytes <;> rfl
  rw [hcode]
  cases hmethod : Http.Method.ofCode? (bytes.headD 0) with
  | none =>
    have hunknown := Http.Method.ofCode?_eq_none_iff.1 hmethod
    have hsome : Request.flaw? bytes = some _ := if_pos hunknown
    rw [hsome]
    exact Decoder.judges_refuse (.unknownMethod _)
  | some method =>
    have hknown : ¬ 9 ≤ (bytes.headD 0).toNat := by
      rw [← Http.Method.ofCode?_eq_none_iff, hmethod]
      nofun
    refine Decoder.judges_bind Reader.makes_byte (by omega) ?_
    iterate 3 refine Decoder.judges_bind Reader.makes_word64 (by omega) ?_
    refine Decoder.judges_bind Reader.makes_word16 (by omega) ?_
    split
    · next hends =>
      have hsome : Request.flaw? bytes = some _ := (if_neg hknown).trans (if_pos hends)
      rw [hsome]
      exact Decoder.judges_refuse (.invalidRecord _)
    · next hends =>
      have hnone : Request.flaw? bytes = none := (if_neg hknown).trans (if_neg hends)
      have hsize : 28 + 5 * textCapacity = bytes.length := h.symm
      rw [hnone]
      iterate 5 refine Decoder.judges_bind (Reader.makes_paddedText _) (by omega) ?_
      exact Decoder.judges_pure _ (by omega)

theorem ChartPoint.decode_judges {bytes : List UInt8} (h : bytes.length = 48) :
    ChartPoint.decode.Judges bytes 0 none := by
  unfold ChartPoint.decode
  iterate 6 refine Decoder.judges_bind Reader.makes_word64 (by omega) ?_
  exact Decoder.judges_pure _ (by omega)

/-! ## Sizes -/

/-- A size is right for a type of record. Every value takes so many bytes; and where so many are
left, a record takes all of them, or is refused for what is wrong with them. -/
structure Record.Sized (α : Type) [Record α] (size : Nat)
    (flaw? : List UInt8 → Option DecodeError) : Prop where
  wireSize : Record.wireSize α = size
  length_encode : ∀ x : α, (Record.encode x).length = size
  /-- Whether a record is accepted depends on its own bytes alone. -/
  accepts_iff : ∀ r : Reader, size ≤ r.remaining →
    ((∃ x r', Record.decode (α := α) r = .ok x r') ↔ flaw? (r.rest.take size) = none)
  advances : ∀ r : Reader, size ≤ r.remaining → ∀ x r', Record.decode (α := α) r = .ok x r' →
    r' = ⟨r.position + size, r.rest.drop size⟩
  /-- It is never that bytes are missing. -/
  refuses : ∀ r : Reader, size ≤ r.remaining → ∀ e r', Record.decode (α := α) r = .error e r' →
    flaw? (r.rest.take size) = some e ∧ e.Flaw

theorem Record.sized {α : Type} [Record α] [LawfulRecord α]
    {flaw? : List UInt8 → Option DecodeError}
    (hjudges : ∀ bytes, bytes.length = Record.wireSize α →
      (Record.decode (α := α)).Judges bytes 0 (flaw? bytes)) :
    Sized α (Record.wireSize α) flaw? := by
  have hcases (r : Reader) (hr : Record.wireSize α ≤ r.remaining) :=
    (hjudges _ (List.length_take_of_le hr)).cases hr
  refine ⟨rfl, LawfulRecord.length_encode, ?_, ?_, ?_⟩
  · intro r hr
    rcases hcases r hr with ⟨hnone, x, hread⟩ | ⟨e, r', hsome, -, hread⟩
    · exact iff_of_true ⟨x, _, hread⟩ hnone
    · rw [hread, hsome]
      exact iff_of_false nofun nofun
  · intro r hr x r' h
    rcases hcases r hr with ⟨-, y, hread⟩ | ⟨e, r'', -, -, hread⟩
    · rw [hread] at h
      cases h
      rfl
    · rw [hread] at h
      cases h
  · intro r hr e r' h
    rcases hcases r hr with ⟨-, y, hread⟩ | ⟨e', r'', hsome, hflaw, hread⟩
    · rw [hread] at h
      cases h
    · rw [hread] at h
      cases h
      exact ⟨hsome, hflaw⟩

/-- **The sizes of records are right**, for what is written and for what is read. An interval is
accepted iff its instants are in order, a request iff its method is known and it does not end before
it starts, and a point of the chart always. -/
theorem record_sizes :
    Record.Sized Stat 96 Stat.flaw? ∧
      Record.Sized Request (1 + 1 + 8 + 8 + 8 + 2 + 5 * Request.textCapacity) Request.flaw? ∧
      Record.Sized ChartPoint 48 fun _ => none :=
  ⟨Record.sized fun _ => Stat.decode_judges, Record.sized fun _ => Request.decode_judges,
    Record.sized fun _ => ChartPoint.decode_judges⟩

end Vitals
