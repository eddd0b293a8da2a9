/-
  Where frames end.

  A frame does not carry its length; its payload says how long it is, field by field. Both decoders
  stop behind the last field and find out when they run out of bytes before it.

  * `Batch.starves_encode`, `NewRule.starves_encode`, `RuleListing.starves_encode`: the payloads of
    messages, cut short. Of a batch the count alone tells, so its records are never looked at.
  * `ServerMessage.payloadDecoder`: what takes the payload of an opcode; `decode_frame_eq`.
  * `truncated_refused`: no frame that is cut short is accepted, in either direction.
  * `trailing_inert`: whatever comes behind a frame that is accepted does not change it.
-/
import Vitals.Proofs.Dispatch
import Vitals.Proofs.Message
import Vitals.Proofs.Wire.Extent

namespace Vitals

open Wire Rule

/-! ## Batches -/

namespace Batch

variable {α : Type} [Record α]

theorem inert_decode [ExactRecord α] : (Batch.decode (α := α)).Inert := by
  unfold decode
  refine Decoder.inert_bind Reader.exact_word64.inert fun _ => ?_
  refine Decoder.inert_bind (Reader.inert_count _) fun count => ?_
  exact Decoder.inert_map (Decoder.inert_times ExactRecord.exact.inert count) _

/-- A batch that is cut short is refused by its count, whether or not its records are in order. -/
theorem starves_encode [LawfulRecord α] {b : Batch α} (h : b.records.length < 2 ^ 64) :
    (Batch.decode (α := α)).Starves b.encode := by
  have hcount : (UInt64.ofNat b.records.length).toNat = b.records.length :=
    UInt64.toNat_ofNat_of_lt' h
  rw [encode, List.append_assoc]
  unfold decode
  refine Decoder.starves_bind (Reader.starves_word64 _) (Reader.reads_word64 _) ?_
  refine Reader.starves_records LawfulRecord.wireSize_pos ?_
  rw [length_flatMap_encode, hcount]

end Batch

/-! ## Rules -/

namespace Rule

theorem Descriptor.inert_decodeHead : decodeHead.Inert := by
  unfold decodeHead
  refine Decoder.inert_bind Reader.exact_byte.inert fun tag => ?_
  split
  · exact Reader.inert_prefixed
  · exact Decoder.inert_refuse _

theorem inert_labelText : labelText.Inert := Decoder.inert_map Reader.inert_prefixed _

theorem Descriptor.starves_encodeHead {d : Descriptor} (h : d.pattern.length < 2 ^ 64) :
    decodeHead.Starves d.encodeHead := by
  have htag := Reader.reads_byte patternTag
  exact Decoder.starves_bind (Reader.starves_byte _) htag (Reader.starves_prefixed h)

theorem starves_encodeLabel {label : String} (h : (Text.encode label).length < 2 ^ 64) :
    labelText.Starves (encodeLabel label) := (Reader.starves_prefixed h).bind _

end Rule

namespace NewRule

theorem inert_decode : NewRule.decode.Inert := by
  rw [decode_eq]
  refine Decoder.inert_bind Descriptor.inert_decodeHead fun _ => ?_
  refine Decoder.inert_bind Reader.exact_word64.inert fun _ => ?_
  refine Decoder.inert_bind Reader.exact_byte.inert fun _ => ?_
  exact Decoder.inert_map inert_labelText _

theorem starves_encode {r : NewRule} (h : r.Bounded) : NewRule.decode.Starves r.encode := by
  obtain ⟨hpattern, hlabel⟩ := h
  have hhead := Descriptor.decodeHead_reads hpattern
  rw [encode_eq]
  rw [decode_eq]
  refine Decoder.starves_bind (Descriptor.starves_encodeHead hpattern) hhead ?_
  refine Decoder.starves_bind (Reader.starves_word64 _) (Reader.reads_word64 _) ?_
  refine Decoder.starves_bind (Reader.starves_byte _) (Reader.reads_byte _) ?_
  exact (starves_encodeLabel hlabel).bind _

end NewRule

namespace RuleListing

theorem inert_decode : RuleListing.decode.Inert := by
  unfold decode Descriptor.decode
  refine Decoder.inert_bind Reader.exact_word64.inert fun _ => ?_
  refine Decoder.inert_bind ?_ fun _ => ?_
  · refine Decoder.inert_bind Descriptor.inert_decodeHead fun _ => ?_
    exact Decoder.inert_map Reader.exact_byte.inert _
  · refine Decoder.inert_bind Reader.exact_byte.inert fun _ => ?_
    exact Decoder.inert_map inert_labelText _

theorem starves_encode {r : RuleListing} (h : r.Bounded) :
    RuleListing.decode.Starves r.encode := by
  obtain ⟨hpattern, hlabel⟩ := h
  have hdescriptor : Descriptor.decode.Starves r.descriptor.encode := by
    refine Decoder.starves_bind (Descriptor.starves_encodeHead hpattern)
      (Descriptor.decodeHead_reads hpattern) ?_
    exact (Reader.starves_byte _).bind _
  rw [encode_eq]
  unfold decode
  refine Decoder.starves_bind (Reader.starves_word64 _) (Reader.reads_word64 _) ?_
  refine Decoder.starves_bind hdescriptor (Descriptor.decode_reads hpattern) ?_
  refine Decoder.starves_bind (Reader.starves_byte _) (Reader.reads_byte _) ?_
  exact (starves_encodeLabel hlabel).bind _

/-- A list of rules that is cut short is refused by its count or by the rule where it is cut. -/
theorem starves_list {rs : List RuleListing} (hcount : rs.length < 2 ^ 64)
    (h : ∀ r ∈ rs, r.Bounded) :
    (Reader.count minimumSize >>= Decoder.times RuleListing.decode).Starves
      (word64Bytes (UInt64.ofNat rs.length) ++ rs.flatMap encode) := by
  have hword : (UInt64.ofNat rs.length).toNat = rs.length := UInt64.toNat_ofNat_of_lt' hcount
  refine Reader.starves_count_bind (Or.inr ?_)
  rw [hword]
  exact Decoder.starves_times (fun r hr => decode_reads (h r hr)) fun r hr =>
    starves_encode (h r hr)

end RuleListing

/-! ## Messages -/

/-- A frame is empty, or its byte is reserved, or it has an opcode. -/
theorem frame_cases (bytes : List UInt8) : bytes = [] ∨
    (∃ byte payload, bytes = byte :: payload ∧ Opcode.ofCode? byte = none) ∨
    ∃ opcode payload, bytes = frame opcode payload := by
  rcases bytes with _ | ⟨byte, payload⟩
  · exact Or.inl rfl
  · cases hbyte : Opcode.ofCode? byte with
    | none => exact Or.inr (Or.inl ⟨byte, payload, rfl, hbyte⟩)
    | some opcode =>
      obtain rfl := Opcode.ofCode?_eq_some.1 hbyte
      exact Or.inr (Or.inr ⟨opcode, payload, rfl⟩)

/-- A frame that is cut short has no byte at all, or its opcode and a payload that is cut short. -/
theorem frame_cut {opcode : Opcode} {payload front : List UInt8}
    (hfront : front <+: frame opcode payload) (hne : front ≠ frame opcode payload) :
    front = [] ∨ ∃ less missing, front = frame opcode less ∧ missing ≠ [] ∧
      payload = less ++ missing := by
  obtain ⟨missing, hcut⟩ := hfront
  have hmissing : missing ≠ [] := by
    rintro rfl
    exact hne (by simpa using hcut)
  rcases front with _ | ⟨byte, less⟩
  · exact Or.inl rfl
  · obtain ⟨rfl, hpayload⟩ := List.cons.inj hcut
    exact Or.inr ⟨less, missing, rfl, hmissing, hpayload.symm⟩

namespace ClientMessage

theorem frame_of_decode {bytes : List UInt8} {m : ClientMessage} (h : decode bytes = .ok m) :
    ∃ opcode payload, bytes = frame opcode payload := by
  rcases frame_cases bytes with rfl | ⟨byte, payload, rfl, hbyte⟩ | hframe
  · cases h
  · simp [decode, splitFrame, hbyte, bind, Except.bind] at h
  · exact hframe

theorem inert_ofPayload (opcode : Opcode) : (ofPayload opcode).Inert := by
  cases opcode with
  | stats | olderStats =>
    refine Decoder.inert_bind Reader.exact_word64.inert fun _ => ?_
    refine Decoder.inert_bind Reader.exact_word64.inert fun code => ?_
    split
    · exact Decoder.inert_pure _
    · exact Decoder.inert_refuse _
  | ping | chart | listRules => exact Decoder.inert_pure _
  | recentRequests => exact Decoder.inert_map Reader.exact_word64.inert _
  | createRule => exact Decoder.inert_map NewRule.inert_decode _
  | setActiveRules =>
    refine Decoder.inert_bind (Reader.inert_count 8) fun count => ?_
    exact Decoder.inert_map (Decoder.inert_times Reader.exact_word64.inert count) _

theorem starves_payload {m : ClientMessage} (h : m.Bounded) (hr : m.refusal? = none) :
    (ofPayload m.opcode).Starves m.payload := by
  cases m with
  | statsQuery cursor kind =>
    cases kind <;>
      exact Decoder.starves_bind (Reader.starves_word64 _) (Reader.reads_word64 _)
        ((Reader.starves_word64 _).bind _)
  | ping | chart | listRules => exact Decoder.starves_nil _
  | recentRequests cursor => exact (Reader.starves_word64 cursor).bind _
  | createRule rule => exact (NewRule.starves_encode h).bind _
  | setActiveRules ids =>
    have hsmall : ids.length < 2 ^ 64 := by
      by_contra hlarge
      have : 255 < ids.length := by omega
      simp [refusal?, maxActiveRules, this] at hr
    refine Reader.starves_records (by decide) ?_
    rw [UInt64.toNat_ofNat_of_lt' hsmall]
    simp [List.map_const']

end ClientMessage

namespace ServerMessage

/-- Takes the payload of a server's message off the front. -/
def payloadDecoder : Opcode → Decoder ServerMessage
  | .stats => return stats (← Batch.decode)
  | .ping => return pong (← Batch.decode)
  | .recentRequests => return recentRequests (← Batch.decode)
  | .chart => return chart (← Batch.decode)
  | .createRule => return ruleCreated (← Reader.word64)
  | .listRules => return rules (← decodeRules)
  | opcode@.olderStats | opcode@.setActiveRules => Decoder.refuse (.unknownOpcode opcode.code)

theorem decode_frame_eq (opcode : Opcode) (payload : List UInt8) :
    decode (frame opcode payload) = (payloadDecoder opcode).run payload := by
  cases opcode with
  | stats => exact (carries_stats.decode_frame payload).trans (Decoder.run_map _ _ _).symm
  | ping => exact (carries_pong.decode_frame payload).trans (Decoder.run_map _ _ _).symm
  | recentRequests =>
    exact (carries_recentRequests.decode_frame payload).trans (Decoder.run_map _ _ _).symm
  | chart => exact (carries_chart.decode_frame payload).trans (Decoder.run_map _ _ _).symm
  | createRule => exact (decode_frame_createRule payload).trans (Decoder.run_map _ _ _).symm
  | listRules => exact (decode_frame_listRules payload).trans (Decoder.run_map _ _ _).symm
  | olderStats | setActiveRules => rfl

theorem frame_of_decode {bytes : List UInt8} {m : ServerMessage} (h : decode bytes = .ok m) :
    ∃ opcode payload, bytes = frame opcode payload := by
  rcases frame_cases bytes with rfl | ⟨byte, payload, rfl, hbyte⟩ | hframe
  · cases h
  · simp [decode, splitFrame, ofPayload, hbyte, bind, Except.bind] at h
  · exact hframe

theorem inert_payloadDecoder (opcode : Opcode) : (payloadDecoder opcode).Inert := by
  cases opcode with
  | stats | ping | recentRequests | chart => exact Decoder.inert_map Batch.inert_decode _
  | createRule => exact Decoder.inert_map Reader.exact_word64.inert _
  | listRules =>
    refine Decoder.inert_map ?_ _
    refine Decoder.inert_bind Reader.exact_word64.inert fun _ => ?_
    refine Decoder.inert_bind (Reader.inert_count _) fun count => ?_
    exact Decoder.inert_times RuleListing.inert_decode count
  | olderStats | setActiveRules => exact Decoder.inert_refuse _

theorem starves_payload {m : ServerMessage} (h : m.Bounded) :
    (payloadDecoder m.opcode).Starves m.payload := by
  cases m with
  | stats batch | pong batch | recentRequests batch | chart batch =>
    exact (Batch.starves_encode h).bind _
  | ruleCreated id => exact (Reader.starves_word64 id).bind _
  | rules listings =>
    refine Decoder.Starves.bind ?_ _
    rw [payload, List.append_assoc]
    refine Decoder.starves_bind (Reader.starves_word64 0) (Reader.reads_word64 0) ?_
    exact RuleListing.starves_list h.1 h.2

end ServerMessage

/-- **No frame that is cut short is accepted**, whether a server or a client wrote it and whether or
not its records are in order. It is refused because it is empty, or because a field, a length or a
count asks for more bytes than there are. -/
theorem truncated_refused :
    (∀ m : ServerMessage, m.Bounded → ∀ front, front <+: m.encode → front ≠ m.encode →
      ∃ e, ServerMessage.decode front = .error e ∧ e.Shortage) ∧
    ∀ m : ClientMessage, m.Bounded → ∀ bytes, m.encode? = .ok bytes →
      ∀ front, front <+: bytes → front ≠ bytes →
        ∃ e, ClientMessage.decode front = .error e ∧ e.Shortage := by
  constructor
  · intro m h front hfront hne
    rcases frame_cut hfront hne with rfl | ⟨less, missing, rfl, hmissing, hcut⟩
    · exact ⟨_, rfl, .emptyFrame⟩
    · rw [ServerMessage.decode_frame_eq]
      exact (ServerMessage.starves_payload h).run hmissing hcut
  · intro m h bytes hm front hfront hne
    obtain ⟨hr, rfl⟩ := ClientMessage.encode?_eq_ok.1 hm
    rcases frame_cut hfront hne with rfl | ⟨less, missing, rfl, hmissing, hcut⟩
    · exact ⟨_, rfl, .emptyFrame⟩
    · rw [ClientMessage.decode_frame]
      exact (ClientMessage.starves_payload h hr).run hmissing hcut

/-- So it is with a pong whose first interval is out of order, cut in the second one, and with a new
rule that is cut within the last character of its label. -/
theorem truncated_refused_midway :
    let faulty : Stat := { (default : Stat) with timestamp := 2, prevTimestamp := 3 }
    let pong : ServerMessage := .pong ⟨9, [faulty, default]⟩
    let rule : ClientMessage := .createRule ⟨7, ⟨[0x5E], true⟩, "é"⟩
    pong.Bounded ∧ pong.fault? = some faulty.fault ∧
      (∃ e, ServerMessage.decode (pong.encode.take 150) = .error e ∧ e.Shortage) ∧
      rule.Bounded ∧ ∃ bytes, rule.encode? = .ok bytes ∧
        ∃ e, ClientMessage.decode (bytes.take 29) = .error e ∧ e.Shortage := by
  intro faulty pong rule
  have hpong : pong.Bounded := show 2 < 2 ^ 64 by decide
  have hrule : rule.Bounded := ⟨by decide, by decide⟩
  refine ⟨hpong, by decide, ?_, hrule, _, rfl, ?_⟩
  · exact truncated_refused.1 pong hpong _ (List.take_prefix 150 _) (by decide +kernel)
  · exact truncated_refused.2 rule hrule _ rfl _ (List.take_prefix 29 _) (by decide +kernel)

/-- **What comes behind a frame that is accepted does not change it**, in either direction and
however the frame came about. -/
theorem trailing_inert (bytes rest : List UInt8) :
    (∀ m, ServerMessage.decode bytes = .ok m → ServerMessage.decode (bytes ++ rest) = .ok m) ∧
    ∀ m, ClientMessage.decode bytes = .ok m → ClientMessage.decode (bytes ++ rest) = .ok m := by
  constructor
  · intro m h
    obtain ⟨opcode, payload, rfl⟩ := ServerMessage.frame_of_decode h
    rw [ServerMessage.decode_frame_eq] at h
    have hmore := (ServerMessage.inert_payloadDecoder opcode).run h rest
    rw [← ServerMessage.decode_frame_eq] at hmore
    exact hmore
  · intro m h
    obtain ⟨opcode, payload, rfl⟩ := ClientMessage.frame_of_decode h
    rw [ClientMessage.decode_frame] at h
    have hmore := (ClientMessage.inert_ofPayload opcode).run h rest
    rw [← ClientMessage.decode_frame] at hmore
    exact hmore

/-- So it is with a listing whose reserved word and flags are not those that a server writes, and
with a query for an older page under the opcode of a first one. -/
theorem trailing_inert_uncanonical :
    let listing := frame .listRules (word64Bytes 3 ++ word64Bytes 1 ++ word64Bytes 7 ++ [4] ++
      word64Bytes 0 ++ [9, 8] ++ word64Bytes 0)
    let query := frame .stats (word64Bytes 5 ++ word64Bytes 30)
    let rules : ServerMessage := .rules [⟨7, ⟨[], true⟩, true, ""⟩]
    ServerMessage.decode listing = .ok rules ∧
      ServerMessage.decode (listing ++ [0, 255]) = .ok rules ∧
      ClientMessage.decode query = .ok (.statsQuery 5 .older) ∧
      ClientMessage.decode (query ++ [0, 255]) = .ok (.statsQuery 5 .older) := by
  intro listing query rules
  have hlisting : ServerMessage.decode listing = .ok rules := by decide +kernel
  have hquery : ClientMessage.decode query = .ok (.statsQuery 5 .older) := by
    decide +kernel
  exact ⟨hlisting, (trailing_inert listing [0, 255]).1 rules hlisting, hquery,
    (trailing_inert query [0, 255]).2 _ hquery⟩

end Vitals
