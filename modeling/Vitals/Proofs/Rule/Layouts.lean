/-
  The two layouts of a rule.

  A rule travels in a request with its id between pattern and flag, and in a listing with its id in
  front and a byte for the active set behind the flag. Each layout has a decoder of its own.

  * `Rule.Parts`: the fields that both layouts are made of, with the bytes of a label as they come;
    `Parts.request` and `Parts.listing` are the two arrangements.
  * `Decoder.Becomes d bytes d'`: what is left of `d` once it has taken these bytes. Both decoders
    become the decoder of the label.
  * `rule_layouts_agree`: both accept the same parts and read the same from them.
-/
import Vitals.Proofs.Language

namespace Vitals

open Wire Rule

/-! ## What is left of a decoder -/

namespace Wire.Decoder

variable {α β : Type} {d d' : Decoder α}

/-- Once it has taken some bytes, a decoder goes on as another one. -/
def Becomes (d : Decoder α) (bytes : List UInt8) (d' : Decoder α) : Prop :=
  ∀ position rest, d ⟨position, bytes ++ rest⟩ = d' ⟨position + bytes.length, rest⟩

variable {c : Decoder β} {k : β → Decoder α} {bs cs : List UInt8} {x : β}

theorem Reads.becomes (hc : c.Reads bs x) (k : β → Decoder α) : (c >>= k).Becomes bs (k x) := by
  intro position rest
  rw [bind_of_ok (hc _ _)]

theorem becomes_bind (hc : c.Reads bs x) (hk : (k x).Becomes cs d') :
    (c >>= k).Becomes (bs ++ cs) d' := by
  intro position rest
  rw [List.append_assoc, bind_of_ok (hc _ _), hk, List.length_append, Nat.add_assoc]

/-- What comes in front of the bytes of the other decoder does not matter to what it accepts. -/
theorem Becomes.run_eq_ok {L : α → List UInt8 → Prop} (h : d.Becomes bs d') (hd' : d'.Spells L)
    {rest : List UInt8} {y : α} : d.run (bs ++ rest) = .ok y ↔ d'.run rest = .ok y := by
  rw [Decoder.run_eq_ok, hd'.run_eq_ok, ← hd'.accepts_iff (0 + bs.length), ← h 0 rest]
  rfl

/-- So if that one only makes something of what it takes, it is up to what it takes. -/
theorem Becomes.run_map_eq_ok {L : β → List UInt8 → Prop} {f : β → α}
    (h : d.Becomes bs (c >>= fun x => pure (f x))) (hc : c.Spells L) {rest : List UInt8} {y : α} :
    d.run (bs ++ rest) = .ok y ↔ ∃ x, c.run rest = .ok x ∧ f x = y := by
  rw [h.run_eq_ok (spells_map hc f), run_map]
  cases c.run rest <;> simp [Except.map]

end Wire.Decoder

/-! ## The parts of a rule -/

/-- What both layouts of a rule are made of. Nothing is asked of the tag, of the flag or of the
bytes of the label. -/
structure Rule.Parts where
  tag : UInt8
  /-- The length that is declared of the pattern. -/
  length : UInt64
  pattern : List UInt8
  id : UInt64
  flag : UInt8
  /-- All that comes behind the flags. -/
  label : List UInt8
  deriving DecidableEq, Repr

namespace Rule.Parts

/-- The tag and the pattern behind its length. -/
def head (p : Parts) : List UInt8 := p.tag :: (word64Bytes p.length ++ p.pattern)

/-- The layout of a request: the id is between the pattern and the flag. -/
def request (p : Parts) : List UInt8 := p.head ++ (word64Bytes p.id ++ [p.flag]) ++ p.label

/-- The layout of a listing: the id is in front, and a byte for the active set is behind the
flag. -/
def listing (p : Parts) (active : UInt8) : List UInt8 :=
  word64Bytes p.id ++ (p.head ++ [p.flag] ++ [active]) ++ p.label

/-- The descriptor that the parts say. -/
def descriptor (p : Parts) : Descriptor := ⟨p.pattern, p.flag != 0⟩

/-- The rule that the parts say, under a label. -/
def rule (p : Parts) (label : String) : NewRule := ⟨p.id, p.descriptor, label⟩

end Rule.Parts

/-- The parts of a rule. -/
def NewRule.parts (r : NewRule) : Parts where
  tag := r.descriptor.tag
  length := UInt64.ofNat r.descriptor.pattern.length
  pattern := r.descriptor.pattern
  id := r.id
  flag := r.descriptor.flags
  label := encodeLabel r.label

/-- A rule as the server lists it, in the active set or not. -/
def NewRule.listed (r : NewRule) (active : Bool) : RuleListing :=
  ⟨r.id, r.descriptor, active, r.label⟩

/-! ## What is written -/

theorem NewRule.encode_eq_request (r : NewRule) : r.encode = r.parts.request := by
  rw [Parts.request, ← List.append_assoc]
  rfl

theorem NewRule.encode_listed (r : NewRule) (active : Bool) :
    (r.listed active).encode = r.parts.listing (flagByte active) := by
  rw [Parts.listing, ← List.append_assoc (word64Bytes _)]
  rfl

/-! ## What is read -/

namespace Rule.Parts

variable {p : Parts}

theorem reads_head (htag : p.tag = patternTag) (h : p.length.toNat = p.pattern.length) :
    Descriptor.decodeHead.Reads p.head p.pattern := by
  refine Descriptor.spells_decodeHead.reads ⟨p.length, h, ?_⟩
  rw [head, htag]

/-- Behind the flag of a request there is the label to be read. -/
theorem becomes_newRule (htag : p.tag = patternTag) (h : p.length.toNat = p.pattern.length) :
    NewRule.decode.Becomes (p.head ++ (word64Bytes p.id ++ [p.flag]))
      (labelText >>= fun label => pure (p.rule label)) := by
  rw [NewRule.decode_eq]
  refine Decoder.becomes_bind (reads_head htag h) ?_
  refine Decoder.becomes_bind (Reader.reads_word64 p.id) ?_
  exact (Reader.reads_byte p.flag).becomes _

/-- Behind the flags of a listing there is the label to be read. -/
theorem becomes_ruleListing (htag : p.tag = patternTag) (h : p.length.toNat = p.pattern.length)
    (active : UInt8) :
    RuleListing.decode.Becomes (word64Bytes p.id ++ (p.head ++ [p.flag] ++ [active]))
      (labelText >>= fun label => pure ((p.rule label).listed (active != 0))) := by
  have hdescriptor : Descriptor.decode.Reads (p.head ++ [p.flag]) p.descriptor :=
    Decoder.reads_bind (reads_head htag h) (Decoder.reads_map (Reader.reads_byte p.flag) _)
  unfold RuleListing.decode
  refine Decoder.becomes_bind (Reader.reads_word64 p.id) ?_
  refine Decoder.becomes_bind hdescriptor ?_
  exact (Reader.reads_byte active).becomes _

theorem decodeHead_refuses (htag : p.tag ≠ patternTag) :
    Descriptor.decodeHead.Refuses p.head (.unknownRuleTag p.tag) := by
  refine Decoder.bind_refuses (Reader.reads_byte p.tag) ?_
  rw [if_neg htag]
  exact Decoder.refuse_refuses _ _

/-- A tag that is not known is reported of a request, before anything behind it is read. -/
theorem run_request_of_tag (htag : p.tag ≠ patternTag) :
    NewRule.decode.run p.request = .error (.unknownRuleTag p.tag) := by
  have hdecode : NewRule.decode.Refuses p.head (.unknownRuleTag p.tag) := by
    rw [NewRule.decode_eq]
    exact (decodeHead_refuses htag).bind _
  exact ((hdecode.append _).append _).run_self

/-- So it is of a listing, once the id is read. -/
theorem run_listing_of_tag (htag : p.tag ≠ patternTag) (active : UInt8) :
    RuleListing.decode.run (p.listing active) = .error (.unknownRuleTag p.tag) := by
  have hdescriptor := (decodeHead_refuses htag).bind fun pattern => do
    let flag ← Reader.byte
    return (⟨pattern, flag != 0⟩ : Descriptor)
  have hdecode : RuleListing.decode.Refuses (word64Bytes p.id ++ (p.head ++ [p.flag] ++ [active]))
      (.unknownRuleTag p.tag) := by
    unfold RuleListing.decode
    exact Decoder.bind_refuses (Reader.reads_word64 p.id)
      (((hdescriptor.append _).append _).bind _)
  exact hdecode.run _

/-- A request is accepted iff its tag is known and its label can be read. -/
theorem run_request_eq_ok (h : p.length.toNat = p.pattern.length) {r : NewRule} :
    NewRule.decode.run p.request = .ok r ↔
      p.tag = patternTag ∧ ∃ label, labelText.run p.label = .ok label ∧ p.rule label = r := by
  by_cases htag : p.tag = patternTag
  · rw [and_iff_right htag]
    exact (becomes_newRule htag h).run_map_eq_ok spells_labelText
  · rw [run_request_of_tag htag]
    exact iff_of_false nofun fun hr => htag hr.1

/-- So is a listing, whatever its byte for the active set. -/
theorem run_listing_eq_ok (h : p.length.toNat = p.pattern.length) {active : UInt8}
    {l : RuleListing} :
    RuleListing.decode.run (p.listing active) = .ok l ↔ p.tag = patternTag ∧
      ∃ label, labelText.run p.label = .ok label ∧ (p.rule label).listed (active != 0) = l := by
  by_cases htag : p.tag = patternTag
  · rw [and_iff_right htag]
    exact (becomes_ruleListing htag h active).run_map_eq_ok spells_labelText
  · rw [run_listing_of_tag htag]
    exact iff_of_false nofun fun hl => htag hl.1

end Rule.Parts

/-- **The two layouts of a rule agree.** A request is accepted iff the listing with the same parts
is, whatever the byte for the active set; then the listing says the rule of the request and that
byte. It takes a known tag and a label that can be read. An unknown tag is all that is reported, of
either. What is written of one rule in both layouts has the same parts too. -/
theorem rule_layouts_agree (p : Parts) (h : p.length.toNat = p.pattern.length) :
    (∀ r, NewRule.decode.run p.request = .ok r ↔
      p.tag = patternTag ∧ ∃ label, labelText.run p.label = .ok label ∧ p.rule label = r) ∧
    (∀ active l, RuleListing.decode.run (p.listing active) = .ok l ↔
      ∃ r, NewRule.decode.run p.request = .ok r ∧ r.listed (active != 0) = l) ∧
    (p.tag ≠ patternTag → NewRule.decode.run p.request = .error (.unknownRuleTag p.tag) ∧
      ∀ active, RuleListing.decode.run (p.listing active) = .error (.unknownRuleTag p.tag)) ∧
    ∀ r : NewRule, r.encode = r.parts.request ∧
      ∀ active, (r.listed active).encode = r.parts.listing (flagByte active) := by
  refine ⟨fun r => Parts.run_request_eq_ok h, ?_, ?_, ?_⟩
  · intro active l
    rw [Parts.run_listing_eq_ok h]
    constructor
    · rintro ⟨htag, label, hlabel, rfl⟩
      exact ⟨p.rule label, (Parts.run_request_eq_ok h).2 ⟨htag, label, hlabel, rfl⟩, rfl⟩
    · rintro ⟨r, hr, rfl⟩
      obtain ⟨htag, label, hlabel, rfl⟩ := (Parts.run_request_eq_ok h).1 hr
      exact ⟨htag, label, hlabel, rfl⟩
  · intro htag
    exact ⟨Parts.run_request_of_tag htag, Parts.run_listing_of_tag htag⟩
  · intro r
    exact ⟨r.encode_eq_request, r.encode_listed⟩

/-- Of the flags it only counts whether they are zero, and a label need not be UTF-8. One tag higher
there is nothing to be read. -/
theorem rule_layouts_agree_illFormed :
    let p : Parts := ⟨4, 1, [0x5E], 7, 2, word64Bytes 1 ++ [0xC3, 0]⟩
    let q : Parts := { p with tag := 5 }
    NewRule.decode.run p.request = .ok ⟨7, ⟨[0x5E], true⟩, "\uFFFD"⟩ ∧
      RuleListing.decode.run (p.listing 255) = .ok ⟨7, ⟨[0x5E], true⟩, true, "\uFFFD"⟩ ∧
      NewRule.decode.run q.request = .error (.unknownRuleTag 5) ∧
      RuleListing.decode.run (q.listing 255) = .error (.unknownRuleTag 5) := by
  intro p q
  obtain ⟨haccepts, hlisting, -⟩ := rule_layouts_agree p rfl
  obtain ⟨-, -, htag, -⟩ := rule_layouts_agree q rfl
  have hlabel : labelText.run p.label = .ok "\uFFFD" := by
    refine spells_labelText.run_eq_ok.2 ⟨word64Bytes 1 ++ [0xC3], ⟨1, [0xC3], rfl, ?_, rfl⟩, ?_⟩
    · decide +kernel
    · exact ⟨[0], rfl⟩
  have hrequest := (haccepts _).2 ⟨rfl, _, hlabel, rfl⟩
  obtain ⟨hq, hq'⟩ := htag (by decide)
  exact ⟨hrequest, (hlisting 255 _).2 ⟨_, hrequest, rfl⟩, hq, hq' 255⟩

end Vitals
