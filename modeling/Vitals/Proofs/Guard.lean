/-
  The guards of counts in messages.

  A count is refused up front when what it counts cannot fit into what is left. Here each guard can
  be left out, by the size that it goes by: 96, 668 and 48 bytes for records, 8 for ids, and 27 for
  the smallest listing of a rule.

  * `RuleListing.consumes_decode`: a listing takes at least the bytes of one whose pattern and label
    are empty.
  * `decodeFrame`: decoding by opcode; `ServerMessage.decodeIf`, `ClientMessage.decodeIf`: decoding
    with some of the guards.
  * `guards_exact`: no guard makes a difference to what is accepted.
-/
import Vitals.Proofs.Framing
import Vitals.Proofs.Wire.Guard

namespace Vitals

open Wire Rule

/-! ## Rules -/

theorem Rule.Descriptor.consumes_decode : Descriptor.decode.Consumes 10 := by
  have hhead : Descriptor.decodeHead.Consumes 9 := by
    unfold decodeHead
    refine Decoder.consumes_bind Reader.exact_byte.consumes fun tag => ?_
    split
    · exact Reader.consumes_prefixed
    · exact Decoder.consumes_refuse _ _
  unfold decode
  exact Decoder.consumes_bind hhead fun _ => Decoder.consumes_map Reader.exact_byte.consumes _

/-- A listing takes an id, a tag, two flags and two lengths, whatever the lengths are. -/
theorem RuleListing.consumes_decode : RuleListing.decode.Consumes RuleListing.minimumSize := by
  have hlabel : labelText.Consumes 8 := Decoder.consumes_map Reader.consumes_prefixed _
  show RuleListing.decode.Consumes 27
  unfold decode
  refine Decoder.consumes_bind Reader.exact_word64.consumes fun _ => ?_
  refine Decoder.consumes_bind Descriptor.consumes_decode fun _ => ?_
  refine Decoder.consumes_bind Reader.exact_byte.consumes fun _ => ?_
  exact Decoder.consumes_map hlabel _

/-! ## Batches -/

namespace Batch

variable {α : Type} [Record α]

/-- Takes a batch off the front of a payload, with the guard of its count or without. -/
def decodeIf (guarded : Nat → Bool) : Decoder (Batch α) := do
  let serverTime ← Reader.word64
  let count ← Reader.countIf (guarded (Record.wireSize α)) (Record.wireSize α)
  let records ← Decoder.times Record.decode count
  return { serverTime, records }

theorem agrees_decodeIf [LawfulRecord α] [ExactRecord α] (guarded : Nat → Bool) :
    (Batch.decodeIf (α := α) guarded).Agrees Batch.decode := by
  refine Decoder.agrees_bind (.refl _) fun serverTime => ?_
  refine Reader.agrees_countIf_bind _ LawfulRecord.wireSize_pos fun count => ?_
  exact Decoder.consumes_map (Decoder.consumes_times ExactRecord.exact.consumes count) _

end Batch

/-! ## Frames -/

/-- What a frame says if its opcode decides how the payload is decoded. -/
def decodeFrame {α : Type} (decoder : Opcode → Decoder α) (bytes : List UInt8) :
    Except DecodeError α := do
  let (byte, payload) ← splitFrame bytes
  match Opcode.ofCode? byte with
  | some opcode => (decoder opcode).run payload
  | none => .error (.unknownOpcode byte)

section

variable {α : Type} {decoder decoder' : Opcode → Decoder α}

theorem decodeFrame_frame (opcode : Opcode) (payload : List UInt8) :
    decodeFrame decoder (frame opcode payload) = (decoder opcode).run payload := by
  simp [decodeFrame, frame, splitFrame, bind, Except.bind]

theorem decodeFrame_eq_ok_iff (h : ∀ opcode, (decoder opcode).Agrees (decoder' opcode))
    {bytes : List UInt8} {x : α} :
    decodeFrame decoder bytes = .ok x ↔ decodeFrame decoder' bytes = .ok x := by
  rcases frame_cases bytes with rfl | ⟨byte, payload, rfl, hbyte⟩ | ⟨opcode, payload, rfl⟩
  · exact Iff.rfl
  · simp [decodeFrame, splitFrame, hbyte, bind, Except.bind]
  · rw [decodeFrame_frame, decodeFrame_frame]
    exact (h opcode).run

end

theorem ClientMessage.decode_eq (bytes : List UInt8) :
    decode bytes = decodeFrame ofPayload bytes := by
  rcases frame_cases bytes with rfl | ⟨byte, payload, rfl, hbyte⟩ | ⟨opcode, payload, rfl⟩
  · rfl
  · simp [decodeFrame, decode, splitFrame, hbyte, bind, Except.bind]
  · rw [decodeFrame_frame, decode_frame]

theorem ServerMessage.decode_eq (bytes : List UInt8) :
    decode bytes = decodeFrame payloadDecoder bytes := by
  rcases frame_cases bytes with rfl | ⟨byte, payload, rfl, hbyte⟩ | ⟨opcode, payload, rfl⟩
  · rfl
  · simp [decodeFrame, decode, ofPayload, splitFrame, hbyte, bind, Except.bind]
  · rw [decodeFrame_frame, decode_frame_eq]

/-! ## Messages -/

namespace ClientMessage

/-- Takes the payload of a client's message off the front, with the guard of its count or
without. -/
def ofPayloadIf (guarded : Nat → Bool) : Opcode → Decoder ClientMessage
  | .setActiveRules => do
    let count ← Reader.countIf (guarded 8) 8
    return setActiveRules (← Decoder.times Reader.word64 count)
  | opcode => ofPayload opcode

/-- The message of a frame that a client wrote, with the guard of its count or without. -/
def decodeIf (guarded : Nat → Bool) : List UInt8 → Except DecodeError ClientMessage :=
  decodeFrame (ofPayloadIf guarded)

theorem agrees_ofPayloadIf (guarded : Nat → Bool) (opcode : Opcode) :
    (ofPayloadIf guarded opcode).Agrees (ofPayload opcode) := by
  cases opcode with
  | setActiveRules =>
    refine Reader.agrees_countIf_bind _ (by decide) fun count => ?_
    exact Decoder.consumes_map (Decoder.consumes_times Reader.exact_word64.consumes count) _
  | _ => exact .refl _

theorem ofPayloadIf_true : ofPayloadIf (fun _ => true) = ofPayload := by
  funext opcode
  cases opcode <;> rfl

end ClientMessage

namespace ServerMessage

/-- Takes a list of rules off the front of a payload, with the guard of its count or without. -/
def decodeRulesIf (guarded : Nat → Bool) : Decoder (List RuleListing) := do
  let _ ← Reader.word64
  let count ← Reader.countIf (guarded RuleListing.minimumSize) RuleListing.minimumSize
  Decoder.times RuleListing.decode count

/-- Takes the payload of a server's message off the front, with the guard of its count or
without. -/
def payloadDecoderIf (guarded : Nat → Bool) : Opcode → Decoder ServerMessage
  | .stats => return stats (← Batch.decodeIf guarded)
  | .ping => return pong (← Batch.decodeIf guarded)
  | .recentRequests => return recentRequests (← Batch.decodeIf guarded)
  | .chart => return chart (← Batch.decodeIf guarded)
  | .listRules => return rules (← decodeRulesIf guarded)
  | opcode => payloadDecoder opcode

/-- The message of a frame that a server wrote, with the guards that are left. -/
def decodeIf (guarded : Nat → Bool) : List UInt8 → Except DecodeError ServerMessage :=
  decodeFrame (payloadDecoderIf guarded)

theorem agrees_decodeRulesIf (guarded : Nat → Bool) :
    (decodeRulesIf guarded).Agrees decodeRules := by
  refine Decoder.agrees_bind (.refl _) fun reserved => ?_
  refine Reader.agrees_countIf_bind _ (by decide) fun count => ?_
  exact Decoder.consumes_times RuleListing.consumes_decode count

theorem agrees_payloadDecoderIf (guarded : Nat → Bool) (opcode : Opcode) :
    (payloadDecoderIf guarded opcode).Agrees (payloadDecoder opcode) := by
  cases opcode with
  | stats | ping | recentRequests | chart =>
    exact Decoder.agrees_bind (Batch.agrees_decodeIf guarded) fun _ => .refl _
  | listRules => exact Decoder.agrees_bind (agrees_decodeRulesIf guarded) fun _ => .refl _
  | createRule | olderStats | setActiveRules => exact .refl _

theorem payloadDecoderIf_true : payloadDecoderIf (fun _ => true) = payloadDecoder := by
  funext opcode
  cases opcode <;> rfl

end ServerMessage

/-- **The guards of counts are exact.** Whichever of them are left out, the same frames are accepted
in both directions, and as the same messages. Each guard lets a count pass iff so many records fit
into what is left, for any count that is a word and without any product that wraps, and it refuses
none whose records would not be refused anyway. A listing cannot be smaller than its guard takes it
to be, and one of that size there is. -/
theorem guards_exact :
    (∀ bytes, ServerMessage.decodeIf (fun _ => true) bytes = ServerMessage.decode bytes) ∧
    (∀ bytes, ClientMessage.decodeIf (fun _ => true) bytes = ClientMessage.decode bytes) ∧
    (∀ guarded bytes m,
      ServerMessage.decodeIf guarded bytes = .ok m ↔ ServerMessage.decode bytes = .ok m) ∧
    (∀ guarded bytes m,
      ClientMessage.decodeIf guarded bytes = .ok m ↔ ClientMessage.decode bytes = .ok m) ∧
    Reader.Guards 96 Stat.decode ∧ Reader.Guards 668 Request.decode ∧
    Reader.Guards 48 ChartPoint.decode ∧ Reader.Guards 8 Reader.word64 ∧
    Reader.Guards 27 RuleListing.decode ∧
    RuleListing.decode.Consumes 27 ∧ ∃ r : RuleListing, r.encode.length = 27 := by
  refine ⟨fun bytes => ?_, fun bytes => ?_, fun guarded bytes m => ?_, fun guarded bytes m => ?_,
    ?_, ?_, ?_, ?_, ?_, RuleListing.consumes_decode, ⟨⟨0, ⟨[], false⟩, false, ""⟩, by decide⟩⟩
  · rw [ServerMessage.decodeIf, ServerMessage.payloadDecoderIf_true, ServerMessage.decode_eq]
  · rw [ClientMessage.decodeIf, ClientMessage.ofPayloadIf_true, ClientMessage.decode_eq]
  · rw [ServerMessage.decode_eq]
    exact decodeFrame_eq_ok_iff (ServerMessage.agrees_payloadDecoderIf guarded)
  · rw [ClientMessage.decode_eq]
    exact decodeFrame_eq_ok_iff (ClientMessage.agrees_ofPayloadIf guarded)
  · exact Reader.guards (by decide) (by decide) (ExactRecord.exact (α := Stat)).consumes
  · exact Reader.guards (by decide) (by decide) (ExactRecord.exact (α := Request)).consumes
  · exact Reader.guards (by decide) (by decide) (ExactRecord.exact (α := ChartPoint)).consumes
  · exact Reader.guards (by decide) (by decide) Reader.exact_word64.consumes
  · exact Reader.guards (by decide) (by decide) RuleListing.consumes_decode

end Vitals
