/-
  Records and batches, read back from their bytes.

  * `LawfulRecord`: what the form of a record on the wire has to satisfy; it holds of `Stat`, of
    `Request` and of `ChartPoint`.
  * `Request.clip`: what is left of a request on the wire, and `Request.Unclipped`, when that is all
    of it.
  * `Batch.run_encode`: what is read back from the bytes of a batch.
  * `Batch.run_eq_ok_iff`: a payload passes for a batch iff the bytes of one are at its front.
-/
import Vitals.Proofs.Wire.Exact
import Vitals.Record

namespace Vitals

open Wire

/-- A record takes its size on the wire. Read back, it is clipped, or refused if it is at fault. -/
class LawfulRecord (α : Type) [Record α] where
  /-- What is wrong with a value, if anything is. -/
  fault? : α → Option RecordFault
  /-- What is read back. -/
  clip : α → α
  wireSize_pos : 0 < Record.wireSize α
  length_encode : ∀ x : α, (Record.encode x).length = Record.wireSize α
  reads : ∀ x : α, fault? x = none → (Record.decode (α := α)).Reads (Record.encode x) (clip x)
  refuses : ∀ (x : α) fault, fault? x = some fault →
    (Record.decode (α := α)).Refuses (Record.encode x) (.invalidRecord fault)

/-! ## Intervals -/

namespace Stat

/-- An interval in order is read back as it is. -/
theorem decode_reads {s : Stat} (h : s.Ordered) : Stat.decode.Reads s.encode s := by
  unfold encode words decode
  iterate 12 refine Decoder.reads_bind (Reader.reads_word64 _) ?_
  dsimp only
  rw [if_pos h]
  exact Decoder.reads_pure s

/-- An interval out of order is refused, once all of it is read. -/
theorem decode_refuses {s : Stat} (h : ¬ s.Ordered) :
    Stat.decode.Refuses s.encode (.invalidRecord s.fault) := by
  unfold encode words decode
  iterate 12 refine Decoder.bind_refuses (Reader.reads_word64 _) ?_
  dsimp only
  rw [if_neg h]
  exact Decoder.refuse_refuses _ _

end Stat

instance : LawfulRecord Stat where
  fault? s := if s.Ordered then none else some s.fault
  clip := id
  wireSize_pos := by decide
  length_encode s := by simp [Record.encode, Record.wireSize, Stat.encode, Stat.words]
  reads s h := Stat.decode_reads (by simpa using h)
  refuses s fault h := by
    obtain ⟨hs, rfl⟩ : ¬ s.Ordered ∧ s.fault = fault := by simpa using h
    exact Stat.decode_refuses hs

/-! ## Requests -/

namespace Request

/-- What is left of a request on the wire: each of its texts is clipped to its field. -/
def clip (r : Request) : Request :=
  { r with
    uri := clipped textCapacity r.uri
    query := clipped textCapacity r.query
    userAgent := clipped textCapacity r.userAgent
    referer := clipped textCapacity r.referer
    uriRequested := clipped textCapacity r.uriRequested }

/-- The texts of a request. -/
def texts (r : Request) : List String := [r.uri, r.query, r.userAgent, r.referer, r.uriRequested]

/-- Every text of a request fits its field, and has no NUL to end it early. -/
def Unclipped (r : Request) : Prop :=
  ∀ text ∈ r.texts, (Text.encode text).length ≤ textCapacity ∧ '\x00' ∉ text.toList

instance (r : Request) : Decidable r.Unclipped := inferInstanceAs (Decidable (∀ _ ∈ _, _ ∧ _))

/-- A request is all there after the wire iff none of its texts is clipped. -/
theorem clip_eq_self_iff {r : Request} : r.clip = r ↔ r.Unclipped := by
  have hself : r.Unclipped ↔ ∀ text ∈ r.texts, clipped textCapacity text = text :=
    forall₂_congr fun _ _ => clipped_eq_self_iff.symm
  rw [hself]
  cases r
  simp [clip, texts]

theorem clip_eq_self {r : Request} (h : r.Unclipped) : r.clip = r := clip_eq_self_iff.2 h

theorem not_endMicros_lt {r : Request} : ¬ r.endMicros < r.startMicros ↔ r.Ordered := UInt64.not_lt

theorem encode_eq (r : Request) :
    r.encode = [r.method.code] ++ ([r.version.code] ++ (word64Bytes r.contentLength ++
      (word64Bytes r.startMicros ++ (word64Bytes r.endMicros ++ (word16Bytes r.status ++
        (paddedTextBytes r.uri textCapacity ++ (paddedTextBytes r.query textCapacity ++
          (paddedTextBytes r.userAgent textCapacity ++ (paddedTextBytes r.referer textCapacity ++
            paddedTextBytes r.uriRequested textCapacity))))))))) := by
  simp [encode]

/-- A request in order is read back clipped. -/
theorem decode_reads {r : Request} (h : r.Ordered) : Request.decode.Reads r.encode r.clip := by
  rw [encode_eq]
  unfold decode
  refine Decoder.reads_bind (Reader.reads_byte _) ?_
  rw [Http.Method.ofCode?_code]
  refine Decoder.reads_bind (Reader.reads_byte _) ?_
  iterate 3 refine Decoder.reads_bind (Reader.reads_word64 _) ?_
  refine Decoder.reads_bind (Reader.reads_word16 _) ?_
  rw [if_neg (not_endMicros_lt.2 h)]
  -- The last text is not followed by a read, so it is mapped and not bound.
  iterate 4 refine Decoder.reads_bind (Reader.reads_paddedText _ _) ?_
  have hlast := Decoder.reads_map (Reader.reads_paddedText r.uriRequested textCapacity) fun text =>
    { r.clip with uriRequested := text }
  rw [Http.Version.ofCode_code]
  exact hlast

/-- A request out of order is refused before its texts are read. -/
theorem decode_refuses {r : Request} (h : ¬ r.Ordered) :
    Request.decode.Refuses r.encode (.invalidRecord r.fault) := by
  rw [encode_eq]
  unfold decode
  refine Decoder.bind_refuses (Reader.reads_byte _) ?_
  rw [Http.Method.ofCode?_code]
  refine Decoder.bind_refuses (Reader.reads_byte _) ?_
  iterate 3 refine Decoder.bind_refuses (Reader.reads_word64 _) ?_
  refine Decoder.bind_refuses (Reader.reads_word16 _) ?_
  rw [if_pos (UInt64.not_le.1 h)]
  exact Decoder.refuse_refuses _ _

end Request

instance : LawfulRecord Request where
  fault? r := if r.Ordered then none else some r.fault
  clip := Request.clip
  wireSize_pos := by decide
  length_encode r := by simp [Record.encode, Record.wireSize, Request.encode, Request.textCapacity]
  reads r h := Request.decode_reads (by simpa using h)
  refuses r fault h := by
    obtain ⟨hr, rfl⟩ : ¬ r.Ordered ∧ r.fault = fault := by simpa using h
    exact Request.decode_refuses hr

/-! ## Chart points -/

theorem ChartPoint.decode_reads (p : ChartPoint) : ChartPoint.decode.Reads p.encode p := by
  unfold encode words decode
  iterate 6 refine Decoder.reads_bind (Reader.reads_word64 _) ?_
  exact Decoder.reads_pure p

instance : LawfulRecord ChartPoint where
  fault? _ := none
  clip := id
  wireSize_pos := by decide
  length_encode p := by simp [Record.encode, Record.wireSize, ChartPoint.encode, ChartPoint.words]
  reads p _ := p.decode_reads
  refuses _ _ := nofun

/-! ## Batches -/

namespace Batch

/-- The records that the count of a batch speaks of: it wraps at 64 bits. -/
def counted {α : Type} (xs : List α) : List α := xs.take (xs.length % 2 ^ 64)

theorem counted_eq_self {α : Type} {xs : List α} (h : xs.length < 2 ^ 64) : counted xs = xs := by
  rw [counted, Nat.mod_eq_of_lt h, List.take_length]

theorem length_counted {α : Type} (xs : List α) :
    (counted xs).length = (UInt64.ofNat xs.length).toNat := by
  have := Nat.mod_le xs.length (2 ^ 64)
  rw [counted, List.length_take, UInt64.toNat_ofNat']
  omega

open LawfulRecord

variable {α : Type} [Record α]

theorem encode_eq (b : Batch α) :
    b.encode = (word64Bytes b.serverTime ++ (word64Bytes (UInt64.ofNat b.records.length) ++
      (counted b.records).flatMap Record.encode)) ++
        (b.records.drop (b.records.length % 2 ^ 64)).flatMap Record.encode := by
  simp only [encode, List.append_assoc, counted]
  rw [← List.flatMap_append, List.take_append_drop]

variable [LawfulRecord α]

theorem length_flatMap_encode (xs : List α) :
    (xs.flatMap Record.encode).length = xs.length * Record.wireSize α := by
  induction xs with
  | nil => simp
  | cons x xs ih =>
    rw [List.flatMap_cons, List.length_append, ih, length_encode, List.length_cons,
      Nat.succ_mul, Nat.add_comm]

theorem counted_fit (xs : List α) :
    (UInt64.ofNat xs.length).toNat * Record.wireSize α ≤
      ((counted xs).flatMap Record.encode).length := by
  rw [length_flatMap_encode, length_counted]

/-- **A batch without faults is read back**, its records clipped. -/
theorem run_decode_encode (b : Batch α) (h : ∀ x ∈ counted b.records, fault? x = none) :
    Batch.decode.run b.encode = .ok ⟨b.serverTime, (counted b.records).map clip⟩ := by
  have htimes := Decoder.reads_times fun x hx => reads x (h x hx)
  rw [length_counted] at htimes
  rw [encode_eq]
  refine Decoder.Reads.run ?_ _
  unfold decode
  refine Decoder.reads_bind (Reader.reads_word64 _) ?_
  refine Reader.reads_count_bind wireSize_pos (counted_fit _) ?_
  exact Decoder.reads_map htimes _

/-- **A batch with a fault is refused** for the first one. -/
theorem run_decode_encode_fault (b : Batch α) {fault : RecordFault}
    (h : (counted b.records).findSome? fault? = some fault) :
    (Batch.decode (α := α)).run b.encode = .error (.invalidRecord fault) := by
  obtain ⟨xs, x, ys, hcut, hx, hxs⟩ := List.findSome?_eq_some_iff.1 h
  have htimes := Decoder.times_refuses (fun y hy => reads y (hxs y hy)) (refuses x fault hx) ys
  rw [← hcut, length_counted] at htimes
  rw [encode_eq]
  refine Decoder.Refuses.run ?_ _
  unfold decode
  refine Decoder.bind_refuses (Reader.reads_word64 _) ?_
  refine Reader.count_bind_refuses wireSize_pos (counted_fit _) ?_
  exact htimes.bind _

/-- **What is read back from the bytes of a batch**: of the records counted, the first fault, or all
of them, clipped. -/
theorem run_encode (b : Batch α) :
    Batch.decode.run b.encode = match (counted b.records).findSome? fault? with
      | some fault => .error (.invalidRecord fault)
      | none => .ok ⟨b.serverTime, (counted b.records).map clip⟩ := by
  cases hf : (counted b.records).findSome? fault? with
  | some fault => exact run_decode_encode_fault b hf
  | none => exact run_decode_encode b (List.findSome?_eq_none_iff.1 hf)

end Batch

/-! ## Payloads that pass for a batch -/

/-- A record is taken from exactly its size on the wire, whatever the bytes are. -/
class ExactRecord (α : Type) [Record α] : Prop where
  exact : (Record.decode (α := α)).Exact (Record.wireSize α)

instance : ExactRecord Stat where
  exact := by
    show Stat.decode.Exact 96
    unfold Stat.decode
    iterate 12 refine Decoder.exact_bind Reader.exact_word64 fun _ => ?_
    dsimp only
    split
    · exact Decoder.exact_pure _
    · exact Decoder.exact_refuse _ _

instance : ExactRecord Request where
  exact := by
    show Request.decode.Exact 668
    unfold Request.decode
    refine Decoder.exact_bind Reader.exact_byte fun code => ?_
    split
    · refine Decoder.exact_bind Reader.exact_byte fun _ => ?_
      iterate 3 refine Decoder.exact_bind Reader.exact_word64 fun _ => ?_
      refine Decoder.exact_bind Reader.exact_word16 fun _ => ?_
      split
      · exact Decoder.exact_refuse _ _
      · iterate 5 refine Decoder.exact_bind (Reader.exact_paddedText _) fun _ => ?_
        exact Decoder.exact_pure _
    · exact Decoder.exact_refuse _ _

instance : ExactRecord ChartPoint where
  exact := by
    show ChartPoint.decode.Exact 48
    unfold ChartPoint.decode
    iterate 6 refine Decoder.exact_bind Reader.exact_word64 fun _ => ?_
    exact Decoder.exact_pure _

namespace Batch

variable {α : Type} [Record α]

/-- The bytes of a batch are at the front of a payload: they are read as this batch whatever comes
behind them, and they are two words and as many records as the batch has. -/
def Heads (b : Batch α) (payload : List UInt8) : Prop :=
  ∃ front rest, payload = front ++ rest ∧
    front.length = 16 + b.records.length * Record.wireSize α ∧ Batch.decode.Reads front b

variable [LawfulRecord α] [ExactRecord α]

/-- **A payload passes for a batch iff the bytes of that batch are at its front.** -/
theorem run_eq_ok_iff {b : Batch α} {payload : List UInt8} :
    Batch.decode.run payload = .ok b ↔ b.Heads payload := by
  constructor
  · intro h
    have hok : ∃ r, Batch.decode (Reader.start payload) = .ok b r := by
      unfold Decoder.run at h
      split at h
      · cases h
        exact ⟨_, ‹_›⟩
      · cases h
    obtain ⟨r, hdecode⟩ := hok
    unfold decode at hdecode
    obtain ⟨time, ⟨p₁, rest₁⟩, htime, hdecode⟩ := Decoder.bind_eq_ok.1 hdecode
    obtain ⟨count, ⟨p₂, rest₂⟩, hcount, hdecode⟩ := Decoder.bind_eq_ok.1 hdecode
    obtain ⟨records, ⟨p₃, rest₃⟩, htimes, hdecode⟩ := Decoder.bind_eq_ok.1 hdecode
    obtain ⟨rfl, -⟩ := Decoder.pure_eq_ok.1 hdecode
    obtain ⟨hpayload, -⟩ := Reader.word64_eq_ok htime
    obtain ⟨w, hw, hrest₁, -⟩ := Reader.count_eq_ok hcount
    obtain ⟨bytes, hbytes, hrest₂, -, hreads⟩ :=
      Decoder.exact_times ExactRecord.exact count _ _ _ _ htimes
    have hlength : records.length = count := Decoder.length_of_times htimes
    dsimp only at hpayload hrest₁ hrest₂
    refine ⟨word64Bytes time ++ (word64Bytes w ++ bytes), rest₃, ?_, ?_, ?_⟩
    · rw [hpayload, hrest₁, hrest₂]
      simp
    · simp only [List.length_append, length_word64Bytes, hbytes, hlength]
      omega
    · unfold decode
      refine Decoder.reads_bind (Reader.reads_word64 time) ?_
      refine Reader.reads_count_bind LawfulRecord.wireSize_pos ?_ ?_
      · rw [hbytes, hw]
      · rw [hw]
        exact Decoder.reads_map hreads _
  · rintro ⟨front, rest, rfl, -, hreads⟩
    exact hreads.run rest

end Batch

end Vitals
