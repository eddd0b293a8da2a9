/-
  Frames decoded and encoded again.

  A frame can be accepted that no server writes: with a reserved word, flags and a version byte of
  its own, with bytes behind the NULs of its texts, with ill-formed texts, and with more behind it.
  What it says is encoded in one way.

  * `Request.Read`, `ServerMessage.Read`: what is decoded is in order, and its texts have no NUL.
  * `ServerMessage.fitted`: what is decoded from the encoding of what was decoded.
  * `reencoding_canonical`: encoding what was decoded comes to rest after one round.
-/
import Vitals.Proofs.Framing
import Vitals.Proofs.Wire.Yields

namespace Vitals

open Wire Rule

/-! ## Records and rules -/

section

variable (n : Nat)

theorem Stat.yields_decode : Stat.decode.Yields n Stat.Ordered := by
  unfold decode
  iterate 12 refine Decoder.yields_skip Reader.exact_word64.consumes fun _ => ?_
  dsimp only
  split
  · exact Decoder.yields_pure ‹_›
  · exact Decoder.yields_refuse _

/-- A request that is decoded is in order, and its texts have no NUL. -/
def Request.Read (r : Request) : Prop := r.Ordered ∧ ∀ text ∈ r.texts, '\x00' ∉ text.toList

theorem Request.yields_decode : Request.decode.Yields n Request.Read := by
  have htext := Reader.yields_paddedText textCapacity n
  unfold decode
  refine Decoder.yields_skip Reader.exact_byte.consumes fun code => ?_
  split
  · refine Decoder.yields_skip Reader.exact_byte.consumes fun _ => ?_
    iterate 3 refine Decoder.yields_skip Reader.exact_word64.consumes fun _ => ?_
    refine Decoder.yields_skip Reader.exact_word16.consumes fun _ => ?_
    split
    · exact Decoder.yields_refuse _
    · next hordered =>
      refine Decoder.yields_bind htext fun uri huri => ?_
      refine Decoder.yields_bind htext fun query hquery => ?_
      refine Decoder.yields_bind htext fun userAgent hagent => ?_
      refine Decoder.yields_bind htext fun referer hreferer => ?_
      refine Decoder.yields_map htext fun uriRequested hrequested => ?_
      exact ⟨UInt64.not_lt.1 hordered, by simp [texts, *]⟩
  · exact Decoder.yields_refuse _

theorem Batch.yields_decode {α : Type} [Record α] {P : α → Prop}
    (h : (Record.decode (α := α)).Yields n P) :
    (Batch.decode (α := α)).Yields n fun b =>
      b.records.length < 2 ^ 64 ∧ ∀ x ∈ b.records, P x := by
  unfold decode
  refine Decoder.yields_skip Reader.exact_word64.consumes fun serverTime => ?_
  refine Decoder.yields_bind (Reader.yields_count _ n) fun count hcount => ?_
  refine Decoder.yields_map (Decoder.yields_times h count) fun records hrecords => ?_
  exact ⟨hrecords.1 ▸ hcount, hrecords.2⟩

/-- The length of a pattern that is decoded is a word. A label can be three times as long as its
bytes. -/
theorem RuleListing.yields_decode : RuleListing.decode.Yields n fun r =>
    r.descriptor.pattern.length < 2 ^ 64 ∧ (Text.encode r.label).length ≤ 3 * n := by
  have hdescriptor : Descriptor.decode.Yields n (·.pattern.length < 2 ^ 64) := by
    have hhead : Descriptor.decodeHead.Yields n (·.length < 2 ^ 64) := by
      unfold Descriptor.decodeHead
      refine Decoder.yields_skip Reader.exact_byte.consumes fun tag => ?_
      split
      · exact (Reader.yields_prefixed n).imp fun _ h => h.1
      · exact Decoder.yields_refuse _
    unfold Descriptor.decode
    exact Decoder.yields_bind hhead fun pattern h =>
      Decoder.yields_map (Reader.exact_byte.consumes.yields n) fun _ _ => h
  have hlabel : labelText.Yields n fun label => (Text.encode label).length ≤ 3 * n := by
    refine Decoder.yields_map (Reader.yields_prefixed n) fun bytes h => ?_
    have := Text.length_encodeChars_lossyChars bytes
    rw [Text.encode, Text.lossy, String.toList_ofList]
    omega
  unfold decode
  refine Decoder.yields_skip Reader.exact_word64.consumes fun id => ?_
  refine Decoder.yields_bind hdescriptor fun descriptor hpattern => ?_
  refine Decoder.yields_skip Reader.exact_byte.consumes fun active => ?_
  exact Decoder.yields_map hlabel fun label hlabel => ⟨hpattern, hlabel⟩

end

/-! ## What is left of a text -/

/-- What is left of a request whose texts have no NUL: the longest front part of each that fits. -/
def Request.fitted (r : Request) : Request :=
  { r with
    uri := Text.fitting textCapacity r.uri
    query := Text.fitting textCapacity r.query
    userAgent := Text.fitting textCapacity r.userAgent
    referer := Text.fitting textCapacity r.referer
    uriRequested := Text.fitting textCapacity r.uriRequested }

theorem Request.Read.clip_eq {r : Request} (h : r.Read) : r.clip = r.fitted := by
  have hfit : ∀ text ∈ r.texts, clipped textCapacity text = Text.fitting textCapacity text :=
    fun text ht => clipped_eq_fitting (h.2 text ht)
  simp only [texts, List.forall_mem_cons, List.not_mem_nil] at hfit
  simp [clip, fitted, hfit]

/-- A request is written as what is left of it. -/
theorem Request.encode_fitted (r : Request) : r.fitted.encode = r.encode := by
  simp only [encode, fitted, paddedTextBytes_fitting]

namespace ServerMessage

/-- The rules that a message lists. -/
def listings : ServerMessage → List RuleListing
  | rules listings => listings
  | _ => []

/-- What is left of a message whose texts have no NUL. -/
def fitted : ServerMessage → ServerMessage
  | recentRequests batch =>
    recentRequests { batch with records := batch.records.map Request.fitted }
  | m => m

theorem encode_fitted (m : ServerMessage) : m.fitted.encode = m.encode := by
  cases m with
  | recentRequests batch =>
    have hrecords : (batch.records.map Request.fitted).flatMap Record.encode =
        batch.records.flatMap Record.encode := by
      rw [List.flatMap_map]
      exact congrArg (batch.records.flatMap ·) (funext Request.encode_fitted)
    simp only [encode, opcode, payload, fitted, Batch.encode, List.length_map, hrecords]
  | _ => rfl

/-- What holds of a message that was decoded from `n` bytes: nothing is wrong with it, its texts
have no NUL, its labels are no longer than three times the bytes, and all its counts and lengths are
words if those of its labels are. -/
structure Read (n : Nat) (m : ServerMessage) : Prop where
  fault : m.fault? = none
  clip : m.clip = m.fitted
  labels : ∀ r ∈ m.listings, (Text.encode r.label).length ≤ 3 * n
  bounded : (∀ r ∈ m.listings, (Text.encode r.label).length < 2 ^ 64) → m.Bounded

theorem yields_payloadDecoder (n : Nat) (opcode : Opcode) :
    (payloadDecoder opcode).Yields n (Read n) := by
  have hnone : ∀ {P : RuleListing → Prop}, ∀ r ∈ ([] : List RuleListing), P r := by
    intro P r hr
    cases hr
  cases opcode with
  | stats | ping =>
    refine Decoder.yields_map (Batch.yields_decode n (Stat.yields_decode n)) fun batch h => ?_
    exact ⟨by simpa [fault?] using h.2, rfl, hnone, fun _ => h.1⟩
  | recentRequests =>
    refine Decoder.yields_map (Batch.yields_decode n (Request.yields_decode n)) fun batch h => ?_
    have hclip : batch.records.map Request.clip = batch.records.map Request.fitted :=
      List.map_congr_left fun r hr => (h.2 r hr).clip_eq
    exact ⟨by simpa [fault?] using fun r hr => (h.2 r hr).1, by rw [clip, fitted, hclip], hnone,
      fun _ => h.1⟩
  | chart =>
    have hpoint := (ExactRecord.exact (α := ChartPoint)).consumes.yields n
    exact Decoder.yields_map (Batch.yields_decode n hpoint) fun batch h =>
      ⟨rfl, rfl, hnone, fun _ => h.1⟩
  | createRule =>
    exact Decoder.yields_map (Reader.exact_word64.consumes.yields n) fun id _ =>
      ⟨rfl, rfl, hnone, fun _ => trivial⟩
  | listRules =>
    have hrules : decodeRules.Yields n fun listings => listings.length < 2 ^ 64 ∧ ∀ r ∈ listings,
        r.descriptor.pattern.length < 2 ^ 64 ∧ (Text.encode r.label).length ≤ 3 * n := by
      refine Decoder.yields_skip Reader.exact_word64.consumes fun reserved => ?_
      refine Decoder.yields_bind (Reader.yields_count _ n) fun count hcount => ?_
      exact (Decoder.yields_times (RuleListing.yields_decode n) count).imp fun listings h =>
        ⟨h.1 ▸ hcount, h.2⟩
    exact Decoder.yields_map hrules fun listings h => ⟨rfl, rfl, fun r hr => (h.2 r hr).2,
      fun hlabels => ⟨h.1, fun r hr => ⟨(h.2 r hr).1, hlabels r hr⟩⟩⟩
  | olderStats | setActiveRules => exact Decoder.yields_refuse _

theorem read_of_decode {bytes : List UInt8} {m : ServerMessage} (h : decode bytes = .ok m) :
    m.Read (bytes.length - 1) := by
  obtain ⟨opcode, payload, rfl⟩ := frame_of_decode h
  rw [decode_frame_eq] at h
  exact (yields_payloadDecoder payload.length opcode).run h

/-- A frame decoded and encoded again. -/
def reencode (bytes : List UInt8) : Except DecodeError (List UInt8) := (decode bytes).map encode

end ServerMessage

/-- **Encoding what was decoded comes to rest after one round.** However a frame that is accepted
came about, the encoding of what it says is accepted too. What that says differs only in the texts
of requests, of which the longest front part that fits into 128 bytes is left, and it is encoded in
the same way. The lengths of labels have to be words, as all lengths in memory are. Those of a frame
of less than `2 ^ 64 / 3` bytes are, and of all other lengths and counts it follows. -/
theorem reencoding_canonical (bytes : List UInt8) (m : ServerMessage)
    (h : ServerMessage.decode bytes = .ok m) :
    (3 * bytes.length < 2 ^ 64 →
      ∀ r ∈ m.listings, (Text.encode r.label).length < 2 ^ 64) ∧
    ((∀ r ∈ m.listings, (Text.encode r.label).length < 2 ^ 64) →
      ServerMessage.decode m.encode = .ok m.fitted ∧
      m.fitted.encode = m.encode ∧
      ServerMessage.reencode bytes = .ok m.encode ∧
      ServerMessage.reencode m.encode = .ok m.encode) ∧
    ∀ text, Text.LongestFitting 128 text.toList
      (Text.fitting Request.textCapacity text).toList := by
  have hread := ServerMessage.read_of_decode h
  refine ⟨fun hsize r hr => ?_, fun hlabels => ?_, fun text => ?_⟩
  · have := hread.labels r hr
    omega
  · have hdecode : ServerMessage.decode m.encode = .ok m.fitted := by
      rw [ServerMessage.decode_encode (hread.bounded hlabels), hread.fault, ← hread.clip]
    refine ⟨hdecode, m.encode_fitted, ?_, ?_⟩
    · rw [ServerMessage.reencode, h, Except.map]
    · rw [ServerMessage.reencode, hdecode, Except.map, m.encode_fitted]
  · rw [Text.fitting, String.toList_ofList]
    exact Text.longestFitting_fittingChars 128 text.toList

/-- So it is with a request of an unknown version, whose first text is ill-formed and no longer fits
once that is replaced, and with a listing whose reserved word, flags and label are not those that a
server writes. Both have bytes behind them. -/
theorem reencoding_canonical_hostile :
    let request := frame .recentRequests (word64Bytes 9 ++ word64Bytes 1 ++ [0, 77] ++
      word64Bytes 0 ++ word64Bytes 3 ++ word64Bytes 5 ++ word16Bytes 200 ++
      List.replicate 43 255 ++ List.replicate 85 0 ++ (0x61 :: 0 :: List.replicate 126 7) ++
      List.replicate 384 0 ++ [1, 2, 3])
    let log (marks : Nat) : ServerMessage := .recentRequests ⟨9, [⟨.get, .unknown, 0, 3, 5, 200,
      String.ofList (List.replicate marks '\uFFFD'), "a", "", "", ""⟩]⟩
    let listing := frame .listRules (word64Bytes 3 ++ word64Bytes 1 ++ word64Bytes 7 ++ [4] ++
      word64Bytes 0 ++ [9, 8] ++ word64Bytes 1 ++ [255] ++ [0, 255])
    let rules : ServerMessage := .rules [⟨7, ⟨[], true⟩, true, "\uFFFD"⟩]
    ServerMessage.decode request = .ok (log 43) ∧
      ServerMessage.decode (log 43).encode = .ok (log 42) ∧
      ServerMessage.reencode (log 43).encode = .ok (log 43).encode ∧
    ServerMessage.decode listing = .ok rules ∧
      (∀ r ∈ rules.listings, (Text.encode r.label).length < 2 ^ 64) ∧
      ServerMessage.decode rules.encode = .ok rules := by
  intro request log listing rules
  have hrequest : ServerMessage.decode request = .ok (log 43) := by decide +kernel
  have hlisting : ServerMessage.decode listing = .ok rules := by decide +kernel
  have hlabels : ∀ r ∈ rules.listings, (Text.encode r.label).length < 2 ^ 64 :=
    (reencoding_canonical listing rules hlisting).1 (by decide)
  have hfitted : (log 43).fitted = log 42 := by decide +kernel
  obtain ⟨hdecode, -, -, hreencode⟩ := (reencoding_canonical request (log 43) hrequest).2.1 nofun
  rw [hfitted] at hdecode
  exact ⟨hrequest, hdecode, hreencode, hlisting, hlabels,
    ((reencoding_canonical listing rules hlisting).2.1 hlabels).1⟩

end Vitals
