/-
  Messages, read back from their frames.

  * `Bounded`: the lengths and counts in a message are words.
  * `ClientMessage.decode_of_encode?`: a message that can be sent is read back.
  * `ServerMessage.fault?`, `ServerMessage.clip`: what keeps a message from being read back, and
    what is left of it otherwise.
  * `ServerMessage.decode_encode`: what is read back of a message.
  * `clientMessage_roundTrip`, `serverMessage_roundTrip`: the round trips of both directions.
-/
import Vitals.Message
import Vitals.Proofs.Record
import Vitals.Proofs.Rule

namespace Vitals

open Wire

/-! ## From the client -/

namespace ClientMessage

theorem decode_frame (opcode : Opcode) (payload : List UInt8) :
    decode (frame opcode payload) = (ofPayload opcode).run payload := by
  cases opcode <;> rfl

theorem refusal?_eq_some {m : ClientMessage} {e : TooManyIds} :
    m.refusal? = some e ↔
      ∃ ids, m = .setActiveRules ids ∧ 255 < ids.length ∧ e = ⟨ids.length, 255⟩ := by
  cases m with
  | setActiveRules ids =>
    by_cases h : 255 < ids.length <;> simp [refusal?, maxActiveRules, h, eq_comm]
  | _ => simp [refusal?]

theorem encode?_eq_error {m : ClientMessage} {e : TooManyIds} :
    m.encode? = .error e ↔ m.refusal? = some e := by
  unfold encode?
  cases m.refusal? <;> simp

theorem encode?_eq_ok {m : ClientMessage} {bytes : List UInt8} :
    m.encode? = .ok bytes ↔ m.refusal? = none ∧ bytes = frame m.opcode m.payload := by
  unfold encode?
  cases m.refusal? <;> simp [eq_comm]

/-- The lengths in a message are words, as are all lengths in memory; only a new rule has any. -/
def Bounded : ClientMessage → Prop
  | createRule rule => rule.Bounded
  | _ => True

/-- **The payload of a message is read back.** -/
theorem ofPayload_reads {m : ClientMessage} (h : m.Bounded) (hr : m.refusal? = none) :
    (ofPayload m.opcode).Reads m.payload m := by
  cases m with
  | statsQuery cursor kind =>
    simp only [payload]
    rw [← List.append_nil (word64Bytes kind.code)]
    cases kind <;>
      exact Decoder.reads_bind (Reader.reads_word64 _)
        (Decoder.reads_bind (Reader.reads_word64 _) (Decoder.reads_pure _))
  | ping => exact Decoder.reads_pure _
  | recentRequests cursor => exact Decoder.reads_map (Reader.reads_word64 cursor) recentRequests
  | chart => exact Decoder.reads_pure _
  | createRule rule => exact Decoder.reads_map (NewRule.decode_reads h) createRule
  | listRules => exact Decoder.reads_pure _
  | setActiveRules ids =>
    have hsmall : ids.length ≤ 255 := by
      by_contra hlarge
      simp [refusal?, maxActiveRules, Nat.not_le.1 hlarge] at hr
    have hword : (UInt64.ofNat ids.length).toNat = ids.length :=
      UInt64.toNat_ofNat_of_lt' (Nat.lt_of_le_of_lt hsmall (by decide))
    have hids : ∀ x ∈ ids, Reader.word64.Reads (word64Bytes x) (id x) := fun x _ =>
      Reader.reads_word64 x
    have htimes := Decoder.reads_times hids
    have hlength : (ids.flatMap word64Bytes).length = ids.length * 8 := by
      simp [List.map_const']
    rw [List.map_id] at htimes
    refine Reader.reads_count_bind (by decide) ?_ ?_
    · rw [hword, hlength]
    · rw [hword]
      exact Decoder.reads_map htimes _

/-- **A message that can be sent is read back.** -/
theorem decode_of_encode? {m : ClientMessage} (h : m.Bounded) {bytes : List UInt8}
    (he : m.encode? = .ok bytes) : decode bytes = .ok m := by
  obtain ⟨hr, rfl⟩ := encode?_eq_ok.1 he
  rw [decode_frame]
  exact (ofPayload_reads h hr).run_self

end ClientMessage

/-- **What a client sends is read back.** A message is refused iff it is an active set of more than
255 ids, and then with their number. The frame of any other starts with its opcode, and is decoded
to that message. -/
theorem clientMessage_roundTrip (m : ClientMessage) (h : m.Bounded) :
    (∀ e, m.encode? = .error e ↔
      ∃ ids, m = .setActiveRules ids ∧ 255 < ids.length ∧ e = ⟨ids.length, 255⟩) ∧
    ∀ bytes, m.encode? = .ok bytes →
      ClientMessage.decode bytes = .ok m ∧ bytes.head? = some m.opcode.code := by
  refine ⟨fun e => ?_, fun bytes he => ⟨ClientMessage.decode_of_encode? h he, ?_⟩⟩
  · rw [ClientMessage.encode?_eq_error, ClientMessage.refusal?_eq_some]
  · obtain ⟨-, rfl⟩ := ClientMessage.encode?_eq_ok.1 he
    rfl

theorem clientMessage_roundTrip_createRule :
    let m : ClientMessage := .createRule ⟨7, ⟨[0x5E, 0xFF, 0x00], true⟩, "é✓"⟩
    m.Bounded ∧ ∃ bytes, m.encode? = .ok bytes ∧ ClientMessage.decode bytes = .ok m ∧
      bytes.head? = some 9 := by
  intro m
  have hb : m.Bounded := ⟨by decide, by decide⟩
  exact ⟨hb, _, rfl, (clientMessage_roundTrip m hb).2 _ rfl⟩

/-! ## From the server -/

namespace ServerMessage

theorem decode_frame_createRule (payload : List UInt8) :
    decode (frame .createRule payload) = (Reader.word64.run payload).map ruleCreated :=
  bind_pure_comp ruleCreated (Reader.word64.run payload)

theorem decode_frame_listRules (payload : List UInt8) :
    decode (frame .listRules payload) = (decodeRules.run payload).map rules :=
  bind_pure_comp rules (decodeRules.run payload)

/-- Under an opcode stands a batch, which makes up a message. -/
structure Carries {α : Type} [Record α] (opcode : Opcode) (mk : Batch α → ServerMessage) :
    Prop where
  decode_frame : ∀ payload, decode (frame opcode payload) = (Batch.decode.run payload).map mk
  injective : ∀ b b', mk b = mk b' → b = b'

theorem carries_stats : Carries .stats stats :=
  ⟨fun payload => bind_pure_comp stats (Batch.decode.run payload), fun _ _ => stats.inj⟩

theorem carries_pong : Carries .ping pong :=
  ⟨fun payload => bind_pure_comp pong (Batch.decode.run payload), fun _ _ => pong.inj⟩

theorem carries_recentRequests : Carries .recentRequests recentRequests :=
  ⟨fun payload => bind_pure_comp recentRequests (Batch.decode.run payload),
    fun _ _ => recentRequests.inj⟩

theorem carries_chart : Carries .chart chart :=
  ⟨fun payload => bind_pure_comp chart (Batch.decode.run payload), fun _ _ => chart.inj⟩

namespace Carries

variable {α : Type} [Record α] [LawfulRecord α] {opcode : Opcode} {mk : Batch α → ServerMessage}
  {batch batch' : Batch α}

/-- What is read back of the records counted: their first fault, or all of them, clipped. -/
theorem decode_encode (h : Carries opcode mk) (batch : Batch α) :
    decode (frame opcode batch.encode) =
      match (Batch.counted batch.records).findSome? LawfulRecord.fault? with
      | some fault => .error (.invalidRecord fault)
      | none =>
        .ok (mk ⟨batch.serverTime, (Batch.counted batch.records).map LawfulRecord.clip⟩) := by
  rw [h.decode_frame, Batch.run_encode]
  cases (Batch.counted batch.records).findSome? LawfulRecord.fault? <;> rfl

theorem records_of_decode (h : Carries opcode mk)
    (hd : decode (frame opcode batch.encode) = .ok (mk batch')) :
    batch'.records = (Batch.counted batch.records).map LawfulRecord.clip := by
  rw [h.decode_encode] at hd
  split at hd
  · cases hd
  · rw [← h.injective _ _ (Except.ok.inj hd)]

end Carries

/-- The records of a stats response that is read back are those written. -/
theorem records_of_decode_stats {batch batch' : Batch Stat}
    (h : decode (stats batch).encode = .ok (stats batch')) :
    batch'.records = Batch.counted batch.records :=
  (carries_stats.records_of_decode h).trans (List.map_id _)

theorem records_of_decode_recentRequests {batch batch' : Batch Request}
    (h : decode (recentRequests batch).encode = .ok (recentRequests batch')) :
    batch'.records = (Batch.counted batch.records).map Request.clip :=
  carries_recentRequests.records_of_decode h

theorem decode_recentRequests (batch : Batch Request)
    (h : ∀ r ∈ Batch.counted batch.records, r.Ordered) :
    decode (recentRequests batch).encode =
      .ok (recentRequests ⟨batch.serverTime, (Batch.counted batch.records).map Request.clip⟩) := by
  have hnone : (Batch.counted batch.records).findSome? LawfulRecord.fault? = none :=
    List.findSome?_eq_none_iff.2 fun r hr => if_pos (h r hr)
  have hdecode := carries_recentRequests.decode_encode batch
  rw [hnone] at hdecode
  exact hdecode

/-- The counts and lengths in a message are words, as are all lengths in memory. -/
def Bounded : ServerMessage → Prop
  | stats batch => batch.records.length < 2 ^ 64
  | pong batch => batch.records.length < 2 ^ 64
  | recentRequests batch => batch.records.length < 2 ^ 64
  | chart batch => batch.records.length < 2 ^ 64
  | ruleCreated _ => True
  | rules listings => listings.length < 2 ^ 64 ∧ ∀ r ∈ listings, r.Bounded

/-- What is wrong with the first record of a message that contradicts itself, if one does. -/
def fault? : ServerMessage → Option RecordFault
  | stats batch | pong batch => (batch.records.find? fun s => ¬ s.Ordered).map Stat.fault
  | recentRequests batch => (batch.records.find? fun r => ¬ r.Ordered).map Request.fault
  | chart _ | ruleCreated _ | rules _ => none

/-- The requests that a message carries. -/
def requests : ServerMessage → List Request
  | recentRequests batch => batch.records
  | _ => []

/-- What is left of a message on the wire: its requests are clipped. -/
def clip : ServerMessage → ServerMessage
  | recentRequests batch => recentRequests { batch with records := batch.records.map Request.clip }
  | m => m

theorem findSome?_fault {α β : Type} (p : α → Prop) [DecidablePred p] (f : α → β) (xs : List α) :
    xs.findSome? (fun x => if p x then none else some (f x)) = (xs.find? fun x => ¬ p x).map f := by
  induction xs with
  | nil => rfl
  | cons x xs ih =>
    by_cases h : p x <;> simp [h, ih]

/-- **What is read back of a message**: its first fault, or all of it, clipped. -/
theorem decode_encode {m : ServerMessage} (h : m.Bounded) :
    decode m.encode = match m.fault? with
      | some fault => .error (.invalidRecord fault)
      | none => .ok m.clip := by
  cases m with
  | stats batch =>
    have hbatch := carries_stats.decode_encode batch
    simp only [Batch.counted_eq_self h, LawfulRecord.fault?, LawfulRecord.clip, List.map_id,
      findSome?_fault] at hbatch
    exact hbatch
  | pong batch =>
    have hbatch := carries_pong.decode_encode batch
    simp only [Batch.counted_eq_self h, LawfulRecord.fault?, LawfulRecord.clip, List.map_id,
      findSome?_fault] at hbatch
    exact hbatch
  | recentRequests batch =>
    have hbatch := carries_recentRequests.decode_encode batch
    simp only [Batch.counted_eq_self h, LawfulRecord.fault?, LawfulRecord.clip,
      findSome?_fault] at hbatch
    exact hbatch
  | chart batch =>
    have hnone : batch.records.findSome? (LawfulRecord.fault? (α := ChartPoint)) = none :=
      List.findSome?_eq_none_iff.2 fun _ _ => rfl
    have hbatch := carries_chart.decode_encode batch
    simp only [Batch.counted_eq_self h, hnone, LawfulRecord.clip, List.map_id] at hbatch
    exact hbatch
  | ruleCreated id =>
    rw [encode, opcode, decode_frame_createRule, payload, (Reader.reads_word64 id).run_self]
    rfl
  | rules listings =>
    have hreads : decodeRules.Reads (rules listings).payload listings := by
      simp only [payload, List.append_assoc]
      exact Decoder.reads_bind (Reader.reads_word64 0) (RuleListing.reads_list h.1 h.2)
    rw [encode, opcode, decode_frame_listRules, hreads.run_self]
    rfl

theorem clip_eq_self_iff {m : ServerMessage} : m.clip = m ↔ ∀ r ∈ m.requests, r.Unclipped := by
  cases m with
  | recentRequests batch =>
    obtain ⟨serverTime, records⟩ := batch
    have hmap : records.map Request.clip = records.map id ↔ ∀ r ∈ records, r.clip = r :=
      List.map_inj_left
    simpa [clip, requests, Request.clip_eq_self_iff] using hmap
  | _ => simp [clip, requests]

end ServerMessage

/-- **What a server sends is read back.** If a record of a message contradicts itself, the first one
that does is reported. Otherwise the message is read back with each text of its requests clipped:
the longest front part that fits into 128 bytes is kept, up to its first NUL. So a message without
faults is read back as it was iff each of these texts fits and has no NUL. -/
theorem serverMessage_roundTrip (m : ServerMessage) (h : m.Bounded) :
    (ServerMessage.decode m.encode = match m.fault? with
      | some fault => .error (.invalidRecord fault)
      | none => .ok m.clip) ∧
    (∀ text, ∃ front, Text.LongestFitting 128 text.toList front ∧
      clipped Request.textCapacity text = String.ofList (front.takeWhile (· ≠ '\x00'))) ∧
    (m.fault? = none →
      (ServerMessage.decode m.encode = .ok m ↔ ∀ r ∈ m.requests, r.Unclipped)) := by
  refine ⟨ServerMessage.decode_encode h, fun text => ?_, fun hf => ?_⟩
  · exact ⟨_, Text.longestFitting_fittingChars 128 text.toList, rfl⟩
  · simp only [ServerMessage.decode_encode h, hf, Except.ok.injEq]
    exact ServerMessage.clip_eq_self_iff

/-- A text with a NUL is cut there, and the second of two intervals is the one at fault. -/
theorem serverMessage_roundTrip_cut :
    let entry (uri : String) : Request := ⟨.get, .http11, 0, 3, 5, 200, uri, "", "", "", "/"⟩
    let stat (timestamp : UInt64) : Stat :=
      { (default : Stat) with timestamp, prevTimestamp := 4, startupTime := 1 }
    let log (uri : String) : ServerMessage := .recentRequests ⟨9, [entry uri]⟩
    let pong : ServerMessage := .pong ⟨9, [stat 5, stat 3, stat 2]⟩
    (log "a\x00b").Bounded ∧ ServerMessage.decode (log "a\x00b").encode = .ok (log "a") ∧
      pong.Bounded ∧ ServerMessage.decode pong.encode =
        .error (.invalidRecord (.intervalOutOfOrder 1 4 3)) := by
  intro entry stat log pong
  have hlog : (log "a\x00b").Bounded := show 1 < 2 ^ 64 by decide
  have hpong : pong.Bounded := show 3 < 2 ^ 64 by decide
  have hnone : (log "a\x00b").fault? = none := by decide
  have hcut : (log "a\x00b").clip = log "a" := by decide
  have hfault : pong.fault? = some (.intervalOutOfOrder 1 4 3) := by decide
  refine ⟨hlog, ?_, hpong, ?_⟩
  · rw [(serverMessage_roundTrip _ hlog).1, hnone, hcut]
  · rw [(serverMessage_roundTrip _ hpong).1, hfault]

end Vitals
