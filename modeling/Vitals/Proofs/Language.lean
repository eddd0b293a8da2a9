/-
  The language of a client's frames.

  * `ClientMessage.Spelling m frame`: the layouts, byte for byte, and what each of them says. A
    frame's cursor, ids, flag and lengths are free; a kind goes by its word and not by the opcode.
  * `ClientMessage.spells_ofPayload`: the decoder of each opcode takes these layouts and no others.
  * `clientMessage_language`: a frame is accepted iff one of them is at its front.
  * `ClientMessage.decode_overlong`: what is reported of lengths and counts past the end.
  * `accepted_reencoding`, `accepted_overlong_set`: the limit of an active set is kept by those who
    write and not by those who read.
-/
import Vitals.Proofs.Framing
import Vitals.Proofs.Wire.Language

namespace Vitals

open Wire Rule

/-! ## Rules -/

namespace Rule

theorem Descriptor.spells_decodeHead : decodeHead.Spells fun pattern front =>
    ∃ w : UInt64, w.toNat = pattern.length ∧ front = patternTag :: (word64Bytes w ++ pattern) := by
  have hrest : ∀ tag, (if tag = patternTag then Reader.prefixed
      else Decoder.refuse (.unknownRuleTag tag)).Spells fun pattern front => tag = patternTag ∧
        ∃ w : UInt64, w.toNat = pattern.length ∧ front = word64Bytes w ++ pattern := by
    intro tag
    by_cases htag : tag = patternTag
    · rw [if_pos htag]
      exact Reader.spells_prefixed.congr fun _ _ => (and_iff_right htag).symm
    · rw [if_neg htag]
      exact (Decoder.spells_refuse _).congr fun _ _ => iff_of_false not_false fun h => htag h.1
  refine (Decoder.spells_bind Reader.spells_byte hrest).congr fun pattern front => ?_
  constructor
  · rintro ⟨tag, bs, cs, rfl, ⟨rfl, w, hw, rfl⟩, rfl⟩
    exact ⟨w, hw, rfl⟩
  · rintro ⟨w, hw, rfl⟩
    exact ⟨patternTag, [patternTag], _, rfl, ⟨rfl, w, hw, rfl⟩, rfl⟩

theorem spells_labelText : labelText.Spells fun label front =>
    ∃ (w : UInt64) (text : List UInt8), w.toNat = text.length ∧ label = Text.lossy text ∧
      front = word64Bytes w ++ text := by
  refine (Decoder.spells_map Reader.spells_prefixed Text.lossy).congr fun label front => ?_
  constructor
  · rintro ⟨text, ⟨w, hw, rfl⟩, rfl⟩
    exact ⟨w, text, hw, rfl, rfl⟩
  · rintro ⟨w, text, hw, rfl, rfl⟩
    exact ⟨text, ⟨w, hw, rfl⟩, rfl⟩

end Rule

/-- The bytes of a new rule: a tag, a pattern behind its length, an id, a flag, and the bytes of a
label behind their length. -/
inductive NewRule.Spelling : NewRule → List UInt8 → Prop
  | mk {m n : UInt64} {pattern label : List UInt8} (id : UInt64) (flag : UInt8) :
      m.toNat = pattern.length → n.toNat = label.length →
      Spelling ⟨id, ⟨pattern, flag != 0⟩, Text.lossy label⟩
        (4 :: (word64Bytes m ++ pattern) ++ word64Bytes id ++ [flag] ++ (word64Bytes n ++ label))

theorem NewRule.spells_decode : NewRule.decode.Spells NewRule.Spelling := by
  rw [decode_eq]
  refine (Decoder.spells_bind Descriptor.spells_decodeHead fun pattern =>
    Decoder.spells_bind Reader.spells_word64 fun id =>
    Decoder.spells_bind Reader.spells_byte fun flag =>
    Decoder.spells_map spells_labelText _).congr fun r front => ?_
  constructor
  · rintro ⟨pattern, _, _, ⟨m, hm, rfl⟩, ⟨id, _, _, rfl, ⟨flag, _, _, rfl,
      ⟨_, ⟨n, label, hn, rfl, rfl⟩, rfl⟩, rfl⟩, rfl⟩, rfl⟩
    have h := Spelling.mk id flag hm hn
    simp only [List.append_assoc] at h
    exact h
  · rintro @⟨m, n, pattern, label, id, flag, hm, hn⟩
    refine ⟨pattern, _, _, ⟨m, hm, rfl⟩, ⟨id, _, _, rfl, ⟨flag, _, _, rfl,
      ⟨_, ⟨n, label, hn, rfl, rfl⟩, rfl⟩, rfl⟩, rfl⟩, ?_⟩
    simp only [List.append_assoc, patternTag]

theorem NewRule.keeps_decode : NewRule.decode.Keeps := by
  rw [decode_eq]
  unfold Descriptor.decodeHead
  refine Decoder.keeps_bind (Decoder.keeps_bind Reader.keeps_byte fun tag => ?_) fun pattern => ?_
  · split
    · exact Reader.keeps_prefixed
    · exact Decoder.keeps_refuse _
  · refine Decoder.keeps_bind Reader.keeps_word64 fun id => ?_
    refine Decoder.keeps_bind Reader.keeps_byte fun flag => ?_
    exact Decoder.keeps_map (Decoder.keeps_map Reader.keeps_prefixed _) _

/-! ## Frames -/

/-- The two words that tell a query for the newest page from one for an older page. -/
inductive QueryKind.Spelling : QueryKind → UInt64 → Prop
  | initial : Spelling .initial 29
  | older : Spelling .older 30

theorem QueryKind.spelling_iff {kind : QueryKind} {w : UInt64} :
    kind.Spelling w ↔ ofCode? w = some kind := by
  constructor
  · rintro (_ | _) <;> rfl
  · intro h
    unfold ofCode? at h
    split_ifs at h with h29 h30 <;> cases h
    · exact h29 ▸ .initial
    · exact h30 ▸ .older

namespace ClientMessage

/-- The frames of a client and what they say. -/
inductive Spelling : ClientMessage → List UInt8 → Prop
  | stats {kind : QueryKind} {word : UInt64} (cursor : UInt64) : kind.Spelling word →
      Spelling (.statsQuery cursor kind) (0 :: (word64Bytes cursor ++ word64Bytes word))
  | olderStats {kind : QueryKind} {word : UInt64} (cursor : UInt64) : kind.Spelling word →
      Spelling (.statsQuery cursor kind) (2 :: (word64Bytes cursor ++ word64Bytes word))
  | ping : Spelling .ping [1]
  | recentRequests (cursor : UInt64) :
      Spelling (.recentRequests cursor) (3 :: word64Bytes cursor)
  | chart : Spelling .chart [4]
  | createRule {rule : NewRule} {bytes : List UInt8} : rule.Spelling bytes →
      Spelling (.createRule rule) (9 :: bytes)
  | listRules : Spelling .listRules [10]
  | setActiveRules {count : UInt64} {ids : List UInt64} : count.toNat = ids.length →
      Spelling (.setActiveRules ids) (12 :: (word64Bytes count ++ ids.flatMap word64Bytes))

/-- A query is read as its cursor and its kind, whichever of its opcodes it bears. -/
theorem spells_query {opcode : Opcode} (h : opcode = .stats ∨ opcode = .olderStats) :
    (ofPayload opcode).Spells fun m front => ∃ cursor word kind, kind.Spelling word ∧
      m = statsQuery cursor kind ∧ front = word64Bytes cursor ++ word64Bytes word := by
  have hquery : (ofPayload opcode).Spells fun m front => ∃ cursor bs cs, bs = word64Bytes cursor ∧
      (∃ word bs' cs', bs' = word64Bytes word ∧ (∃ kind, kind.Spelling word ∧
        m = statsQuery cursor kind ∧ cs' = []) ∧ cs = bs' ++ cs') ∧ front = bs ++ cs := by
    have hsame : ofPayload opcode = ofPayload .stats := by rcases h with rfl | rfl <;> rfl
    rw [hsame]
    refine Decoder.spells_bind Reader.spells_word64 fun cursor =>
      Decoder.spells_bind Reader.spells_word64 fun word => ?_
    simp only [QueryKind.spelling_iff]
    cases hword : QueryKind.ofCode? word with
    | some kind =>
      refine (Decoder.spells_pure (statsQuery cursor kind)).congr fun m front => ?_
      simp
    | none => exact (Decoder.spells_refuse _).congr fun m front => by simp
  refine hquery.congr fun m front => ?_
  constructor
  · rintro ⟨cursor, _, _, rfl, ⟨word, _, _, rfl, ⟨kind, hkind, rfl, rfl⟩, rfl⟩, rfl⟩
    exact ⟨cursor, word, kind, hkind, rfl, by rw [List.append_nil]⟩
  · rintro ⟨cursor, word, kind, hkind, rfl, rfl⟩
    exact ⟨cursor, _, _, rfl, ⟨word, _, _, rfl, ⟨kind, hkind, rfl, rfl⟩, rfl⟩,
      by rw [List.append_nil]⟩

theorem spells_ofPayload (opcode : Opcode) :
    (ofPayload opcode).Spells fun m front => m.Spelling (frame opcode front) := by
  cases opcode with
  | stats =>
    refine (spells_query (Or.inl rfl)).congr fun m front => ?_
    constructor
    · rintro ⟨cursor, word, kind, hkind, rfl, rfl⟩
      exact .stats cursor hkind
    · intro h
      cases h with
      | stats cursor hkind => exact ⟨cursor, _, _, hkind, rfl, rfl⟩
  | olderStats =>
    refine (spells_query (Or.inr rfl)).congr fun m front => ?_
    constructor
    · rintro ⟨cursor, word, kind, hkind, rfl, rfl⟩
      exact .olderStats cursor hkind
    · intro h
      cases h with
      | olderStats cursor hkind => exact ⟨cursor, _, _, hkind, rfl, rfl⟩
  | ping | chart | listRules =>
    refine (Decoder.spells_pure _).congr fun m front => ?_
    constructor
    · rintro ⟨rfl, rfl⟩
      constructor
    · intro h
      cases h
      exact ⟨rfl, rfl⟩
  | recentRequests =>
    refine (Decoder.spells_map Reader.spells_word64 recentRequests).congr fun m front => ?_
    constructor
    · rintro ⟨cursor, rfl, rfl⟩
      exact .recentRequests cursor
    · intro h
      cases h with
      | recentRequests cursor => exact ⟨cursor, rfl, rfl⟩
  | createRule =>
    refine (Decoder.spells_map NewRule.spells_decode createRule).congr fun m front => ?_
    constructor
    · rintro ⟨rule, h, rfl⟩
      exact .createRule h
    · intro h
      cases h with
      | createRule h => exact ⟨_, h, rfl⟩
  | setActiveRules =>
    have hids := fun n =>
      Decoder.spells_map (Decoder.spells_times Reader.spells_word64 n) setActiveRules
    have hfit : ∀ (n : Nat) (m : ClientMessage) (front : List UInt8),
        (∃ ids, (ids.length = n ∧ front = ids.flatMap word64Bytes) ∧ m = setActiveRules ids) →
          n * 8 ≤ front.length := by
      rintro n m front ⟨ids, ⟨rfl, rfl⟩, rfl⟩
      simp [List.map_const']
    refine (Reader.spells_count_bind (by decide) hids hfit).congr fun m front => ?_
    constructor
    · rintro ⟨count, _, ⟨ids, ⟨hlength, rfl⟩, rfl⟩, rfl⟩
      exact .setActiveRules hlength.symm
    · intro h
      cases h with
      | setActiveRules hlength => exact ⟨_, _, ⟨_, ⟨hlength.symm, rfl⟩, rfl⟩, rfl⟩

theorem Spelling.eq_frame {m : ClientMessage} {front : List UInt8} (h : m.Spelling front) :
    ∃ opcode payload, front = frame opcode payload := by
  cases h with
  | stats => exact ⟨.stats, _, rfl⟩
  | olderStats => exact ⟨.olderStats, _, rfl⟩
  | ping => exact ⟨.ping, _, rfl⟩
  | recentRequests => exact ⟨.recentRequests, _, rfl⟩
  | chart => exact ⟨.chart, _, rfl⟩
  | createRule => exact ⟨.createRule, _, rfl⟩
  | listRules => exact ⟨.listRules, _, rfl⟩
  | setActiveRules => exact ⟨.setActiveRules, _, rfl⟩

/-- **A frame is accepted iff one of the layouts is at its front.** -/
theorem decode_eq_ok_iff {bytes : List UInt8} {m : ClientMessage} :
    decode bytes = .ok m ↔ ∃ front, m.Spelling front ∧ front <+: bytes := by
  constructor
  · intro h
    obtain ⟨opcode, payload, rfl⟩ := frame_of_decode h
    rw [decode_frame, (spells_ofPayload opcode).run_eq_ok] at h
    obtain ⟨front, hm, hfront⟩ := h
    exact ⟨frame opcode front, hm, List.prefix_cons_inj opcode.code |>.2 hfront⟩
  · rintro ⟨front, hm, rest, rfl⟩
    obtain ⟨opcode, payload, rfl⟩ := hm.eq_frame
    show decode (frame opcode (payload ++ rest)) = .ok m
    rw [decode_frame, (spells_ofPayload opcode).run_eq_ok]
    exact ⟨payload, hm, List.prefix_append payload rest⟩

/-! ## What is refused -/

theorem keeps_ofPayload (opcode : Opcode) : (ofPayload opcode).Keeps := by
  cases opcode with
  | stats | olderStats =>
    refine Decoder.keeps_bind Reader.keeps_word64 fun cursor => ?_
    refine Decoder.keeps_bind Reader.keeps_word64 fun word => ?_
    split
    · exact Decoder.keeps_pure _
    · exact Decoder.keeps_refuse _
  | ping | chart | listRules => exact Decoder.keeps_pure _
  | recentRequests => exact Decoder.keeps_map Reader.keeps_word64 _
  | createRule => exact Decoder.keeps_map NewRule.keeps_decode _
  | setActiveRules =>
    refine Decoder.keeps_bind (Reader.keeps_count 8) fun count => ?_
    exact Decoder.keeps_map (Decoder.keeps_times Reader.keeps_word64 count) _

/-- The frames in which a length or a count reaches past the end, and what is reported of them. -/
inductive Overlong : List UInt8 → DecodeError → Prop
  | pattern {n : UInt64} {rest : List UInt8} : rest.length < n.toNat →
      Overlong (9 :: 4 :: (word64Bytes n ++ rest)) (.lengthOverflow n rest.length)
  | label {m n : UInt64} {pattern rest : List UInt8} (id : UInt64) (flag : UInt8) :
      m.toNat = pattern.length → rest.length < n.toNat →
      Overlong (9 :: (4 :: (word64Bytes m ++ pattern) ++ word64Bytes id ++ [flag] ++
        (word64Bytes n ++ rest))) (.lengthOverflow n rest.length)
  | ids {n : UInt64} {rest : List UInt8} : rest.length < n.toNat * 8 →
      Overlong (12 :: (word64Bytes n ++ rest)) (.countOverflow n rest.length)

theorem decode_overlong {bytes : List UInt8} {e : DecodeError} (h : Overlong bytes e) :
    decode bytes = .error e := by
  cases h with
  | @pattern n rest hshort =>
    have hhead : Descriptor.decodeHead.Fails ([4] ++ (word64Bytes n ++ rest))
        (.lengthOverflow n rest.length) :=
      Decoder.fails_bind (Reader.reads_byte 4) (Reader.fails_prefixed hshort)
    have hrule : NewRule.decode.Fails ([4] ++ (word64Bytes n ++ rest))
        (.lengthOverflow n rest.length) := by
      rw [NewRule.decode_eq]
      exact hhead.bind _
    exact (decode_frame .createRule _).trans (hrule.bind _).run
  | @label m n pattern rest id flag hm hshort =>
    have hhead := Descriptor.spells_decodeHead.reads ⟨m, hm, rfl⟩
    have hlabel : NewRule.decode.Fails (4 :: (word64Bytes m ++ pattern) ++ (word64Bytes id ++
        ([flag] ++ (word64Bytes n ++ rest)))) (.lengthOverflow n rest.length) := by
      rw [NewRule.decode_eq]
      refine Decoder.fails_bind hhead ?_
      refine Decoder.fails_bind (Reader.reads_word64 id) ?_
      refine Decoder.fails_bind (Reader.reads_byte flag) ?_
      exact ((Reader.fails_prefixed hshort).bind _).bind _
    rw [List.append_assoc, List.append_assoc]
    exact (decode_frame .createRule _).trans (hlabel.bind _).run
  | @ids n rest hshort =>
    have hcount := Reader.fails_count (by decide) hshort
    exact (decode_frame .setActiveRules _).trans (hcount.bind _).run

end ClientMessage

/-- **The frames that a client may write.** A frame is accepted iff one of the layouts of
`ClientMessage.Spelling` is at its front, and then it says what that layout says; any other frame is
refused. No decoder reads past the end of a payload, and a length or a count that reaches past it is
reported before anything behind it is read. -/
theorem clientMessage_language (bytes : List UInt8) :
    (∀ m, ClientMessage.decode bytes = .ok m ↔ ∃ front, m.Spelling front ∧ front <+: bytes) ∧
    ((∃ e, ClientMessage.decode bytes = .error e) ↔
      ¬ ∃ m front, ClientMessage.Spelling m front ∧ front <+: bytes) ∧
    (∀ e, ClientMessage.Overlong bytes e → ClientMessage.decode bytes = .error e) ∧
    ∀ opcode payload, bytes = frame opcode payload →
      ((ClientMessage.ofPayload opcode).stop (.start payload)).Within payload := by
  refine ⟨fun m => ClientMessage.decode_eq_ok_iff, ?_, fun e => ClientMessage.decode_overlong, ?_⟩
  · simp only [← ClientMessage.decode_eq_ok_iff]
    cases ClientMessage.decode bytes <;> simp
  · intro opcode payload _
    exact ClientMessage.keeps_ofPayload opcode payload _ (Reader.within_start payload)

/-- An older page may be asked for under the opcode of a first one, and a byte behind the query is
not looked at. A count of all ones and a label of half the address space are refused. -/
theorem clientMessage_language_hostile :
    let query : List UInt8 := 0 :: (word64Bytes 5 ++ word64Bytes 30)
    let ids : List UInt8 := 12 :: (word64Bytes 0xFFFFFFFFFFFFFFFF ++ [1, 2, 3])
    let rule : List UInt8 := 9 :: (4 :: (word64Bytes 1 ++ [0x5E]) ++ word64Bytes 7 ++ [2] ++
      (word64Bytes 0x8000000000000000 ++ [0xC3]))
    ClientMessage.decode (query ++ [255]) = .ok (.statsQuery 5 .older) ∧
      ClientMessage.decode ids = .error (.countOverflow 0xFFFFFFFFFFFFFFFF 3) ∧
      ClientMessage.decode rule = .error (.lengthOverflow 0x8000000000000000 1) := by
  intro query ids rule
  have hquery : ClientMessage.Spelling (.statsQuery 5 .older) query := .stats 5 .older
  refine ⟨((clientMessage_language _).1 _).2 ⟨query, hquery, List.prefix_append _ _⟩, ?_, ?_⟩
  · exact (clientMessage_language ids).2.2.1 _ (.ids (by decide +kernel))
  · exact (clientMessage_language rule).2.2.1 _ (.label 7 2 rfl (by decide +kernel))

/-! ## The limit of an active set -/

namespace ClientMessage

/-- Frames with as many ids as their count says are accepted, however many these are. -/
theorem decode_activeSet {count : UInt64} {ids : List UInt64} (h : count.toNat = ids.length)
    (rest : List UInt8) :
    decode (12 :: (word64Bytes count ++ ids.flatMap word64Bytes) ++ rest) =
      .ok (setActiveRules ids) :=
  decode_eq_ok_iff.2 ⟨_, .setActiveRules h, List.prefix_append _ _⟩

theorem encode?_activeSet {count : UInt64} {ids : List UInt64} (h : count.toNat = ids.length)
    (hfew : ids.length ≤ 255) :
    (setActiveRules ids).encode? = .ok (12 :: (word64Bytes count ++ ids.flatMap word64Bytes)) := by
  have hcount : UInt64.ofNat ids.length = count := by rw [← h, UInt64.ofNat_toNat]
  have hrefusal : (setActiveRules ids).refusal? = none := if_neg (Nat.not_lt.2 hfew)
  rw [encode?_eq_ok, payload, hcount]
  exact ⟨hrefusal, rfl⟩

/-- What is accepted as an active set has as many ids as its count says. -/
theorem decode_eq_setActiveRules {count : UInt64} {rest : List UInt8} {m : ClientMessage}
    (h : decode (12 :: (word64Bytes count ++ rest)) = .ok m) :
    ∃ ids, m = setActiveRules ids ∧ ids.length = count.toNat := by
  obtain ⟨front, hm, hfront⟩ := decode_eq_ok_iff.1 h
  cases hm with
  | @setActiveRules count' ids hlength =>
    -- The count that was read is the one that stands in the frame.
    obtain ⟨more, hbytes⟩ := hfront
    rw [List.cons_append, List.append_assoc] at hbytes
    have hcount : word64Bytes count' = word64Bytes count :=
      List.append_inj_left (List.cons.inj hbytes).2 (by simp only [length_word64Bytes])
    have hsame := congrArg word64OfBytes hcount
    rw [word64OfBytes_word64Bytes, word64OfBytes_word64Bytes] at hsame
    exact ⟨ids, rfl, by rw [← hsame, hlength]⟩
  | _ => simp at hfront

end ClientMessage

/-- **The limit of an active set is kept by those who write and not by those who read.** A message
that was accepted cannot be sent on iff it is an active set whose count is beyond the limit; any
other can, and is read back as it was. -/
theorem accepted_reencoding (bytes : List UInt8) (m : ClientMessage)
    (h : ClientMessage.decode bytes = .ok m) :
    (∀ e, m.encode? = .error e ↔ ∃ count rest, bytes = 12 :: (word64Bytes count ++ rest) ∧
      255 < count.toNat ∧ e = ⟨count.toNat, 255⟩) ∧
    (m.Bounded → ∀ frame, m.encode? = .ok frame → ClientMessage.decode frame = .ok m) := by
  constructor
  · intro e
    rw [ClientMessage.encode?_eq_error, ClientMessage.refusal?_eq_some]
    constructor
    · rintro ⟨ids, rfl, hmany, rfl⟩
      obtain ⟨front, hm, rest, rfl⟩ := ClientMessage.decode_eq_ok_iff.1 h
      cases hm with
      | @setActiveRules count ids hlength =>
        refine ⟨count, ids.flatMap word64Bytes ++ rest, ?_, ?_, ?_⟩
        · simp
        · omega
        · rw [hlength]
    · rintro ⟨count, rest, rfl, hmany, rfl⟩
      obtain ⟨ids, rfl, hlength⟩ := ClientMessage.decode_eq_setActiveRules h
      exact ⟨ids, rfl, by omega, by rw [hlength]⟩
  · intro hbounded frame hframe
    exact ClientMessage.decode_of_encode? hbounded hframe

/-- An active set of 255 ids is sent on without what came behind it. -/
theorem accepted_reencoding_full :
    let ids : List UInt64 := List.replicate 255 7
    let frame := 12 :: (word64Bytes 255 ++ ids.flatMap word64Bytes)
    ClientMessage.decode (frame ++ [1]) = .ok (.setActiveRules ids) ∧
      (ClientMessage.setActiveRules ids).encode? = .ok frame ∧
      ClientMessage.decode frame = .ok (.setActiveRules ids) := by
  -- For any such ids, so that their words are not computed.
  have hall : ∀ ids : List UInt64, ids.length = 255 →
      let frame := 12 :: (word64Bytes 255 ++ ids.flatMap word64Bytes)
      ClientMessage.decode (frame ++ [1]) = .ok (.setActiveRules ids) ∧
        (ClientMessage.setActiveRules ids).encode? = .ok frame ∧
        ClientMessage.decode frame = .ok (.setActiveRules ids) := by
    intro ids hids frame
    have hcount : (255 : UInt64).toNat = ids.length := by rw [hids]; rfl
    have hdecode := ClientMessage.decode_activeSet hcount [1]
    have hencode := ClientMessage.encode?_activeSet hcount hids.le
    exact ⟨hdecode, hencode, (accepted_reencoding _ _ hdecode).2 trivial _ hencode⟩
  exact hall _ List.length_replicate

/-- **One id more is accepted and cannot be sent on.** -/
theorem accepted_overlong_set :
    let ids : List UInt64 := List.replicate 256 0
    ClientMessage.decode (12 :: (word64Bytes 256 ++ ids.flatMap word64Bytes)) =
        .ok (.setActiveRules ids) ∧
      (ClientMessage.setActiveRules ids).encode? = .error ⟨256, 255⟩ := by
  have hall : ∀ ids : List UInt64, ids.length = 256 →
      ClientMessage.decode (12 :: (word64Bytes 256 ++ ids.flatMap word64Bytes)) =
          .ok (.setActiveRules ids) ∧
        (ClientMessage.setActiveRules ids).encode? = .error ⟨256, 255⟩ := by
    intro ids hids
    have hcount : (256 : UInt64).toNat = ids.length := by rw [hids]; rfl
    have hdecode := ClientMessage.decode_activeSet hcount []
    rw [List.append_nil] at hdecode
    refine ⟨hdecode, ClientMessage.encode?_eq_error.2 ?_⟩
    exact ClientMessage.refusal?_eq_some.2 ⟨ids, rfl, by omega, by rw [hids]⟩
  exact hall _ List.length_replicate

end Vitals
