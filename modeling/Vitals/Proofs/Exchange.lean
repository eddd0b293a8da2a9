/-
  What an exchange returns.

  * `Exchange.Skipped`, `Exchange.Settles`: everything that arrives is passed over, or ends the wait
    for a response.
  * `Exchange.Ends`, `Exchange.EndsAt`: the wait ends with the first arrival that is not passed over,
    and when.
  * `Exchange.outcome_await`: so does the wait of a client without a limit.
  * `Exchange.expected_await`: a response bears the opcode that was awaited, whatever the limit.
  * `Exchange.HandsOn`: a caller that returns what the response carries.
  * `exchange_result`: what comes of a wait, and what those who wait make of it.
-/
import Vitals.Proofs.Message
import Vitals.RuleExchange

namespace Vitals

open Wire

/-- A response bears the opcode that its frame begins with. -/
theorem ServerMessage.opcode_of_decode {opcode : Opcode} {payload : List UInt8} {m : ServerMessage}
    (h : decode (frame opcode payload) = .ok m) : m.opcode = opcode := by
  have hmap : ∀ {α : Type} {mk : α → ServerMessage} {r : Except DecodeError α},
      decode (frame opcode payload) = r.map mk → (∀ x, (mk x).opcode = opcode) →
        m.opcode = opcode := by
    intro α mk r hr hmk
    rw [h] at hr
    cases r with
    | error e => cases hr
    | ok x => exact (Except.ok.inj hr) ▸ hmk x
  cases opcode with
  | stats => exact hmap (carries_stats.decode_frame payload) fun _ => rfl
  | ping => exact hmap (carries_pong.decode_frame payload) fun _ => rfl
  | recentRequests => exact hmap (carries_recentRequests.decode_frame payload) fun _ => rfl
  | chart => exact hmap (carries_chart.decode_frame payload) fun _ => rfl
  | createRule => exact hmap (decode_frame_createRule payload) fun _ => rfl
  | listRules => exact hmap (decode_frame_listRules payload) fun _ => rfl
  | olderStats => cases h
  | setActiveRules => cases h

namespace Exchange

/-- What is passed over while a response under `expect` is awaited. -/
inductive Skipped (expect : Opcode) : Arrival → Prop
  | empty : Skipped expect (.frame [])
  | other {byte : UInt8} {payload : List UInt8} : byte ≠ expect.code →
      Skipped expect (.frame (byte :: payload))
  | undecodable {payload : List UInt8} {e : DecodeError} :
      ServerMessage.decode (frame expect payload) = .error e →
      Skipped expect (.frame (frame expect payload))

/-- What ends the wait for a response under `expect`, and with which result. -/
inductive Settles (expect : Opcode) : Arrival → Except ExchangeError ServerMessage → Prop
  | response {payload : List UInt8} {m : ServerMessage} :
      ServerMessage.decode (frame expect payload) = .ok m →
      Settles expect (.frame (frame expect payload)) (.ok m)
  | failed (e : Channel.Error) : Settles expect (.failed e) (.error (.transport e))
  | ended : Settles expect .ended (.error .channelClosed)

/-- The first arrival that is not passed over ends the wait with this result. -/
def Ends (expect : Opcode) (arrivals : List (Nat × Arrival))
    (result : Except ExchangeError ServerMessage) : Prop :=
  ∃ before time a after, arrivals = before ++ (time, a) :: after ∧
    (∀ x ∈ before, Skipped expect x.2) ∧ Settles expect a result

/-- The same with the time at which that one arrives. -/
def EndsAt (expect : Opcode) (arrivals : List (Nat × Arrival)) (time : Nat)
    (result : Except ExchangeError ServerMessage) : Prop :=
  ∃ before a after, arrivals = before ++ (time, a) :: after ∧
    (∀ x ∈ before, Skipped expect x.2) ∧ Settles expect a result

variable {expect : Opcode}

theorem ends_iff {arrivals : List (Nat × Arrival)} {result : Except ExchangeError ServerMessage} :
    Ends expect arrivals result ↔ ∃ time, EndsAt expect arrivals time result := exists_comm

theorem judge_cases (expect : Opcode) (bytes : List UInt8) :
    (∃ m, judge expect bytes = .ok m ∧ Settles expect (.frame bytes) (.ok m)) ∨
      ∃ note, judge expect bytes = .error note ∧ Skipped expect (.frame bytes) := by
  rcases bytes with _ | ⟨byte, payload⟩
  · exact Or.inr ⟨_, rfl, .empty⟩
  · by_cases hbyte : byte = expect.code
    · subst hbyte
      rw [judge, if_pos rfl]
      cases hdecode : ServerMessage.ofPayload expect.code payload with
      | ok m => exact Or.inl ⟨m, rfl, .response hdecode⟩
      | error e => exact Or.inr ⟨_, rfl, .undecodable hdecode⟩
    · rw [judge, if_neg hbyte]
      exact Or.inr ⟨_, rfl, .other hbyte⟩

theorem Skipped.not_settles {a : Arrival} {result : Except ExchangeError ServerMessage}
    (h : Skipped expect a) : ¬ Settles expect a result := by
  intro hsettles
  cases hsettles with
  | response hm =>
    cases h with
    | other hbyte => exact hbyte rfl
    | undecodable he =>
      rw [hm] at he
      cases he
  | failed e => cases h
  | ended => cases h

theorem Settles.unique {a : Arrival} {result result' : Except ExchangeError ServerMessage}
    (h : Settles expect a result) (h' : Settles expect a result') : result = result' := by
  cases h with
  | response hm =>
    cases h' with
    | response hm' => rw [Except.ok.inj (hm.symm.trans hm')]
  | failed e =>
    cases h'
    rfl
  | ended =>
    cases h'
    rfl

theorem skipped_or_settles (expect : Opcode) (a : Arrival) :
    Skipped expect a ∨ ∃ result, Settles expect a result := by
  cases a with
  | frame bytes =>
    rcases judge_cases expect bytes with ⟨m, -, hm⟩ | ⟨note, -, hskipped⟩
    · exact Or.inr ⟨_, hm⟩
    · exact Or.inl hskipped
  | failed e => exact Or.inr ⟨_, .failed e⟩
  | ended => exact Or.inr ⟨_, .ended⟩

/-! ## Waiting -/

section

variable {a : Arrival} {now time : Nat} {rest : List (Nat × Arrival)}
  {result : Except ExchangeError ServerMessage}

theorem await_expired {limit : Option Nat} (h : late limit time = true) :
    await limit expect now ((time, a) :: rest) = expired limit now := by
  unfold await
  exact if_pos h

theorem await_settles (limit : Option Nat) (h : Settles expect a result)
    (hin : late limit time = false) :
    await limit expect now ((time, a) :: rest) = ⟨.done result, [.receive], time, []⟩ := by
  unfold await
  rw [if_neg (by simp [hin])]
  cases a with
  | frame bytes =>
    rcases judge_cases expect bytes with ⟨m, hjudge, hm⟩ | ⟨note, -, hskipped⟩
    · simp only [hjudge, h.unique hm]
    · exact absurd h hskipped.not_settles
  | failed e =>
    cases h
    rfl
  | ended =>
    cases h
    rfl

/-- What is passed over in time is noted, and the wait goes on under the same limit. -/
theorem await_skipped (h : Skipped expect a) : ∃ skipped, ∀ limit now time rest,
    late limit time = false → await limit expect now ((time, a) :: rest) =
      { await limit expect time rest with
        actions := .receive :: (await limit expect time rest).actions
        notes := skipped :: (await limit expect time rest).notes } := by
  cases a with
  | frame bytes =>
    rcases judge_cases expect bytes with ⟨m, -, hm⟩ | ⟨skipped, hjudge, -⟩
    · exact absurd hm h.not_settles
    · refine ⟨skipped, fun limit now time rest hin => ?_⟩
      rw [await, if_neg (by simp [hin])]
      simp only [hjudge]
  | failed e => cases h
  | ended => cases h

theorem outcome_await_skipped (h : Skipped expect a) (now time : Nat)
    (rest : List (Nat × Arrival)) :
    (await none expect now ((time, a) :: rest)).outcome =
      (await none expect time rest).outcome := by
  obtain ⟨skipped, hawait⟩ := await_skipped h
  rw [hawait none now time rest rfl]

theorem outcome_await_settles (h : Settles expect a result) (now time : Nat)
    (rest : List (Nat × Arrival)) :
    (await none expect now ((time, a) :: rest)).outcome = .done result := by
  rw [await_settles none h rfl]

theorem endsAt_cons_skipped (h : Skipped expect a) :
    EndsAt expect ((now, a) :: rest) time result ↔ EndsAt expect rest time result := by
  constructor
  · rintro ⟨_ | ⟨x, before⟩, a', after, hcut, hbefore, hsettles⟩
    · cases hcut
      exact absurd hsettles h.not_settles
    · obtain ⟨rfl, rfl⟩ := List.cons.inj hcut
      exact ⟨before, a', after, rfl, fun y hy => hbefore y (List.mem_cons_of_mem _ hy), hsettles⟩
  · rintro ⟨before, a', after, rfl, hbefore, hsettles⟩
    refine ⟨(now, a) :: before, a', after, rfl, fun y hy => ?_, hsettles⟩
    rcases List.mem_cons.1 hy with rfl | hy
    · exact h
    · exact hbefore y hy

theorem endsAt_cons_settles {result' : Except ExchangeError ServerMessage}
    (h : Settles expect a result) :
    EndsAt expect ((now, a) :: rest) time result' ↔ time = now ∧ result = result' := by
  constructor
  · rintro ⟨_ | ⟨x, before⟩, a', after, hcut, hbefore, hsettles⟩
    · cases hcut
      exact ⟨rfl, h.unique hsettles⟩
    · obtain ⟨rfl, rfl⟩ := List.cons.inj hcut
      exact absurd h (hbefore _ List.mem_cons_self).not_settles
  · rintro ⟨rfl, rfl⟩
    exact ⟨[], a, rest, rfl, nofun, h⟩

theorem not_endsAt_nil : ¬ EndsAt expect [] time result := by
  rintro ⟨before, a, after, hcut, -⟩
  cases before <;> cases hcut

end

/-- **A wait without a limit ends with the first arrival that is not passed over.** -/
theorem outcome_await (expect : Opcode) (now : Nat) (arrivals : List (Nat × Arrival)) :
    (∀ result, (await none expect now arrivals).outcome = .done result ↔
      Ends expect arrivals result) ∧
    ((await none expect now arrivals).outcome = .waiting ↔ ∀ x ∈ arrivals, Skipped expect x.2) := by
  induction arrivals generalizing now with
  | nil =>
    refine ⟨fun result => iff_of_false nofun fun h => ?_, iff_of_true rfl nofun⟩
    obtain ⟨time, h⟩ := ends_iff.1 h
    exact not_endsAt_nil h
  | cons x rest ih =>
    obtain ⟨time, a⟩ := x
    rcases skipped_or_settles expect a with hskipped | ⟨result, hsettles⟩
    · obtain ⟨hdone, hwaiting⟩ := ih time
      rw [outcome_await_skipped hskipped]
      refine ⟨fun result => ?_, ?_⟩
      · simp only [hdone, ends_iff, endsAt_cons_skipped hskipped]
      rw [hwaiting, List.forall_mem_cons]
      exact (and_iff_right hskipped).symm
    · rw [outcome_await_settles hsettles]
      refine ⟨fun result' => ?_, iff_of_false nofun fun hall => ?_⟩
      · simp only [ends_iff, endsAt_cons_settles hsettles, exists_eq_left, Ending.done.injEq]
      · exact (hall _ List.mem_cons_self).not_settles hsettles

/-- Two lists of arrivals that differ in what is passed over, in when it comes, and in what comes
behind the end of the wait. -/
inductive SameSettling (expect : Opcode) : List (Nat × Arrival) → List (Nat × Arrival) → Prop
  | nil : SameSettling expect [] []
  | settled {time time' : Nat} {a : Arrival} {result : Except ExchangeError ServerMessage}
      {xs ys : List (Nat × Arrival)} : Settles expect a result →
      SameSettling expect ((time, a) :: xs) ((time', a) :: ys)
  | left {time : Nat} {a : Arrival} {xs ys : List (Nat × Arrival)} : Skipped expect a →
      SameSettling expect xs ys → SameSettling expect ((time, a) :: xs) ys
  | right {time : Nat} {a : Arrival} {xs ys : List (Nat × Arrival)} : Skipped expect a →
      SameSettling expect xs ys → SameSettling expect xs ((time, a) :: ys)

/-- **What is passed over changes nothing.** -/
theorem SameSettling.outcome {xs ys : List (Nat × Arrival)} (h : SameSettling expect xs ys)
    (now now' : Nat) :
    (await none expect now xs).outcome = (await none expect now' ys).outcome := by
  induction h generalizing now now' with
  | nil => rfl
  | settled hsettles => rw [outcome_await_settles hsettles, outcome_await_settles hsettles]
  | left hskipped _ ih => rw [outcome_await_skipped hskipped, ih _ now']
  | right hskipped _ ih => rw [outcome_await_skipped hskipped, ih now _]

/-! ## Responses -/

/-- A wait that is over was ended by one of the arrivals, or by its limit. -/
theorem settles_of_await {limit : Option Nat} {now : Nat} {arrivals : List (Nat × Arrival)}
    {result : Except ExchangeError ServerMessage}
    (h : (await limit expect now arrivals).outcome = .done result) :
    (∃ d, result = .error (.timeout d)) ∨ ∃ x ∈ arrivals, Settles expect x.2 result := by
  have hexpired : ∀ {now}, (expired limit now).outcome = .done result →
      ∃ d, result = .error (.timeout d) := by
    intro now h
    cases limit with
    | none => cases h
    | some d => exact ⟨d, (Ending.done.inj h).symm⟩
  induction arrivals generalizing now with
  | nil => exact Or.inl (hexpired h)
  | cons x rest ih =>
    obtain ⟨time, a⟩ := x
    cases hin : late limit time with
    | true =>
      rw [await_expired hin] at h
      exact Or.inl (hexpired h)
    | false =>
      rcases skipped_or_settles expect a with hskipped | ⟨result', hsettles⟩
      · -- It is passed over, and the wait goes on under the same limit.
        obtain ⟨skipped, hawait⟩ := await_skipped hskipped
        rw [hawait limit now time rest hin] at h
        exact (ih h).imp_right fun ⟨x, hx, hsettles⟩ => ⟨x, List.mem_cons_of_mem _ hx, hsettles⟩
      · rw [await_settles limit hsettles hin] at h
        exact Or.inr ⟨_, List.mem_cons_self, Ending.done.inj h ▸ hsettles⟩

/-- An ending without a response of another kind than the one expected. -/
structure Expected (expect : Opcode) (outcome : Ending ServerMessage) : Prop where
  opcode : ∀ m, outcome = .done (.ok m) → m.opcode = expect
  error : ∀ byte, outcome ≠ .done (.error (.unexpectedResponse byte))

/-- **A response bears the opcode that was awaited**, whatever the limit. -/
theorem expected_await (limit : Option Nat) (expect : Opcode) (now : Nat)
    (arrivals : List (Nat × Arrival)) :
    Expected expect (await limit expect now arrivals).outcome where
  opcode m h := by
    rcases settles_of_await h with ⟨d, hd⟩ | ⟨⟨_, a⟩, -, hsettles⟩
    · cases hd
    · cases hsettles with
      | response hdecode => exact ServerMessage.opcode_of_decode hdecode
  error byte h := by
    rcases settles_of_await h with ⟨d, hd⟩ | ⟨⟨_, a⟩, -, hsettles⟩
    · cases hd
    · cases hsettles

theorem outcome_closing {α : Type} (link : Link) (c : Course α) :
    (closing link c).outcome = c.outcome := by
  rw [closing]
  split <;> rfl

/-- What comes of a request: it is refused, or the link fails, or it comes to what follows. -/
theorem outcome_converse {α : Type} (link : Link) (request : ClientMessage) (after : Course α) :
    (converse link request after).outcome =
      match request.refusal?, link.connectFault, link.sendFault with
      | some e, _, _ => .done (.error (.tooManyIds e))
      | none, some e, _ => .done (.error (.transport e))
      | none, none, some e => .done (.error (.transport e))
      | none, none, none => after.outcome := by
  rw [converse, ClientMessage.encode?]
  cases request.refusal? with
  | some e => rfl
  | none =>
    cases link.connectFault with
    | some e => rfl
    | none =>
      cases link.sendFault with
      | some e => exact outcome_closing ..
      | none => exact outcome_closing ..

theorem expected_run (link : Link) (request : ClientMessage) (expect : Opcode)
    (limit : Option Nat) : Expected expect (run link request expect limit).outcome := by
  rw [run, outcome_converse]
  -- What keeps the client from waiting at all is no response.
  split
  · exact ⟨nofun, nofun⟩
  · exact ⟨nofun, nofun⟩
  · exact ⟨nofun, nofun⟩
  · exact expected_await ..

/-! ## Those who wait -/

/-- A caller sends a request and hands on what comes of it: of a response `mk x` the value, and an
error as it is. -/
structure HandsOn {α β : Type} (request : ClientMessage) (expect : Opcode)
    (mk : α → ServerMessage) (value : α → β) (caller : Link → Option Nat → Course β) : Prop where
  refusal : request.refusal? = none
  ok : ∀ link limit v, (caller link limit).outcome = .done (.ok v) ↔
    ∃ x, (run link request expect limit).outcome = .done (.ok (mk x)) ∧ v = value x
  error : ∀ link limit e, (caller link limit).outcome = .done (.error e) ↔
    (run link request expect limit).outcome = .done (.error e)
  waiting : ∀ link limit, (caller link limit).outcome = .waiting ↔
    (run link request expect limit).outcome = .waiting

/-- A caller that has a value for `mk x` alone hands on every response, since no other message bears
the opcode. -/
theorem handsOn_of_andThen {α β : Type} {request : ClientMessage} {mk : α → ServerMessage}
    {value : α → β} {caller : Link → Option Nat → Course β}
    {f : ServerMessage → Except ExchangeError β × List Note}
    (hrefusal : request.refusal? = none)
    (hcarries : ∀ m : ServerMessage, m.opcode = expect → ∃ x, m = mk x)
    (hinjective : mk.Injective)
    (hcaller : ∀ link limit,
      (caller link limit).outcome = ((run link request expect limit).andThen f).outcome)
    (hvalue : ∀ x, (f (mk x)).1 = .ok (value x)) :
    HandsOn request expect mk value caller := by
  -- The branch for other messages is never taken, since the wait ends with none.
  have hcases : ∀ link limit,
      let asked := (run link request expect limit).outcome
      let told := (caller link limit).outcome
      (asked = .waiting ∧ told = .waiting) ∨
        (∃ e, asked = .done (.error e) ∧ told = .done (.error e)) ∨
        ∃ x, asked = .done (.ok (mk x)) ∧ told = .done (.ok (value x)) := by
    intro link limit
    simp only [hcaller, Course.andThen]
    cases hrun : (run link request expect limit).outcome with
    | waiting => simp
    | done result =>
      cases result with
      | error e => simp
      | ok m =>
        obtain ⟨x, rfl⟩ := hcarries m ((expected_run link request expect limit).opcode m hrun)
        exact Or.inr (Or.inr ⟨x, rfl, by rw [← hvalue]⟩)
  refine ⟨hrefusal, fun link limit v => ?_, fun link limit e => ?_, fun link limit => ?_⟩ <;>
    rcases hcases link limit with ⟨hasked, htold⟩ | ⟨e', hasked, htold⟩ | ⟨x, hasked, htold⟩ <;>
    simp [hasked, htold, hinjective.eq_iff, eq_comm]

theorem handsOn_chart : HandsOn .chart .chart ServerMessage.chart
    (fun batch => ChartSeries.ofPoints batch.records) chart :=
  handsOn_of_andThen rfl (fun m h => by cases m <;> first | exact ⟨_, rfl⟩ | cases h)
    (fun _ _ => ServerMessage.chart.inj) (fun _ _ => rfl) fun _ => rfl

theorem handsOn_create (rule : NewRule) : HandsOn (.createRule rule) .createRule
    ServerMessage.ruleCreated id (fun link limit => RuleExchange.create link limit rule) :=
  handsOn_of_andThen rfl (fun m h => by cases m <;> first | exact ⟨_, rfl⟩ | cases h)
    (fun _ _ => ServerMessage.ruleCreated.inj) (fun _ _ => rfl) fun _ => rfl

theorem handsOn_list : HandsOn .listRules .listRules ServerMessage.rules id RuleExchange.list :=
  handsOn_of_andThen rfl (fun m h => by cases m <;> first | exact ⟨_, rfl⟩ | cases h)
    (fun _ _ => ServerMessage.rules.inj) (fun _ _ => rfl) fun _ => rfl

/-- The link opens and takes a request. -/
def Opens (link : Link) : Prop := link.connectFault = none ∧ link.sendFault = none

/-- An ending that hands on how the wait over some arrivals ends. -/
structure Relays {α β : Type} (expect : Opcode) (mk : α → ServerMessage) (value : α → β)
    (arrivals : List (Nat × Arrival)) (outcome : Ending β) : Prop where
  ok : ∀ v, outcome = .done (.ok v) ↔ ∃ x, Ends expect arrivals (.ok (mk x)) ∧ v = value x
  error : ∀ e, outcome = .done (.error e) ↔ Ends expect arrivals (.error e)
  waiting : outcome = .waiting ↔ ∀ x ∈ arrivals, Skipped expect x.2

namespace HandsOn

variable {α β : Type} {request : ClientMessage} {mk : α → ServerMessage} {value : α → β}
  {caller : Link → Option Nat → Course β}

theorem relays (h : HandsOn request expect mk value caller) {link : Link} (hlink : Opens link) :
    Relays expect mk value link.arrivals (caller link none).outcome := by
  have hrun : (run link request expect none).outcome =
      (await none expect 0 link.arrivals).outcome := by
    rw [run, outcome_converse, h.refusal, hlink.1, hlink.2]
  obtain ⟨hdone, hwaiting⟩ := outcome_await expect 0 link.arrivals
  exact
    { ok := fun v => by simp only [h.ok, hrun, hdone]
      error := fun e => by rw [h.error, hrun, hdone]
      waiting := by rw [h.waiting, hrun, hwaiting] }

/-- No caller reports an unexpected response, however the link behaves. -/
theorem ne_unexpected (h : HandsOn request expect mk value caller) (link : Link)
    (limit : Option Nat) (byte : UInt8) :
    (caller link limit).outcome ≠ .done (.error (.unexpectedResponse byte)) := by
  rw [ne_eq, h.error]
  exact (expected_run link request expect limit).error byte

end HandsOn

end Exchange

theorem RuleError.ofExchange_eq_unexpected {e : ExchangeError} {byte : UInt8} :
    ofExchange e = .unexpectedResponse byte ↔ e = .unexpectedResponse byte := by
  cases e <;> simp [ofExchange]

open Exchange in
/-- **The result of an exchange.** Without a limit, the first arrival that is not passed over ends
the wait: the first frame under the opcode that decodes, with its message, or a failure of the
channel or its end, with an error. What is passed over on the way changes nothing. A message bears
the opcode awaited, so those who wait hand on what it carries, and no link makes them report an
unexpected response. -/
theorem exchange_result (expect : Opcode) :
    (∀ now arrivals,
      (∀ result, (await none expect now arrivals).outcome = .done result ↔
        Ends expect arrivals result) ∧
      ((await none expect now arrivals).outcome = .waiting ↔
        ∀ x ∈ arrivals, Skipped expect x.2)) ∧
    (∀ xs ys, SameSettling expect xs ys → ∀ now now',
      (await none expect now xs).outcome = (await none expect now' ys).outcome) ∧
    (∀ limit now arrivals m, (await limit expect now arrivals).outcome = .done (.ok m) →
      m.opcode = expect) ∧
    (∀ link, Opens link →
      Relays .chart ServerMessage.chart (fun batch => ChartSeries.ofPoints batch.records)
        link.arrivals (chart link none).outcome ∧
      (∀ rule, Relays .createRule ServerMessage.ruleCreated id
        link.arrivals (RuleExchange.create link none rule).outcome) ∧
      Relays .listRules ServerMessage.rules id
        link.arrivals (RuleExchange.list link none).outcome) ∧
    ∀ link limit byte,
      (chart link limit).outcome ≠ .done (.error (.unexpectedResponse byte)) ∧
      (∀ rule e, (RuleExchange.create link limit rule).outcome = .done (.error e) →
        RuleError.ofExchange e ≠ .unexpectedResponse byte) ∧
      ∀ e, (RuleExchange.list link limit).outcome = .done (.error e) →
        RuleError.ofExchange e ≠ .unexpectedResponse byte := by
  refine ⟨fun now arrivals => outcome_await expect now arrivals,
    fun xs ys h now now' => h.outcome now now',
    fun limit now arrivals => (expected_await limit expect now arrivals).opcode,
    fun link hlink => ⟨handsOn_chart.relays hlink, fun rule => (handsOn_create rule).relays hlink,
      handsOn_list.relays hlink⟩,
    fun link limit byte => ⟨handsOn_chart.ne_unexpected link limit byte,
      fun rule e he hbyte => ?_, fun e he hbyte => ?_⟩⟩
  · rw [RuleError.ofExchange_eq_unexpected.1 hbyte] at he
    exact (handsOn_create rule).ne_unexpected link limit byte he
  · rw [RuleError.ofExchange_eq_unexpected.1 hbyte] at he
    exact handsOn_list.ne_unexpected link limit byte he

open Exchange in
theorem exchange_result_junk :
    let answer : Nat × Arrival := (5, .frame (ServerMessage.ruleCreated 8).encode)
    let link : Link := ⟨none, none, none, [(0, .frame []), (1, .frame [9, 1]),
      (2, .frame (ServerMessage.rules []).encode), answer, (6, .ended)]⟩
    Opens link ∧ SameSettling .createRule link.arrivals [answer] ∧
      (await none .createRule 0 [answer]).outcome = .done (.ok (.ruleCreated 8)) ∧
      (await none .createRule 0 link.arrivals).outcome = .done (.ok (.ruleCreated 8)) ∧
      (RuleExchange.create link none ⟨7, ⟨[0x5E], false⟩, "é"⟩).outcome = .done (.ok 8) := by
  intro answer link
  have hanswer : Settles .createRule answer.2 (.ok (.ruleCreated 8)) :=
    show Settles .createRule (.frame (frame .createRule (word64Bytes 8))) _ from .response rfl
  have hsame : SameSettling .createRule link.arrivals [answer] :=
    .left .empty <| .left (.undecodable rfl) <| .left (.other (by decide)) <| .settled hanswer
  have hends : Ends .createRule [answer] (.ok (.ruleCreated 8)) :=
    ⟨[], 5, _, [], rfl, nofun, hanswer⟩
  obtain ⟨hwait, hjunk, -, hcallers, -⟩ := exchange_result .createRule
  have hawait := ((hwait 0 [answer]).1 _).2 hends
  have hall := (hjunk _ _ hsame 0 0).trans hawait
  refine ⟨⟨rfl, rfl⟩, hsame, hawait, hall, ?_⟩
  exact (((hcallers link ⟨rfl, rfl⟩).2.1 _).ok 8).2 ⟨8, ((hwait 0 _).1 _).1 hall, rfl⟩

end Vitals
