/-
  What a client does to the channel of an exchange.

  * `Ending.farewell`: what is left to do to a channel when a course is over.
  * `Exchange.Disciplined request listens caller`: a caller that deals with its channel in order,
    however the link behaves.
  * `Exchange.disciplined_converse`, `Exchange.Disciplined.andThen`: a request and what follows it
    is such a caller, and so is who goes on with the result.
  * `Exchange.WaitsFor request expect limit caller`: when a caller waits without end.
  * `RuleError.Restates`: a failure in the words of rule administration.
  * `channel_discipline`: every exchange is disciplined, and its failures are handed on as they are.
-/
import Vitals.Proofs.Exchange

namespace Vitals

open Wire

/-- What is left to do to a channel: it is closed, unless the course does not end. -/
def Ending.farewell {α : Type} : Ending α → List Action
  | .done _ => [.close]
  | .waiting => []

namespace Course

variable {α β : Type} {c : Course α} {f : α → Except ExchangeError β × List Note}

theorem actions_andThen : (c.andThen f).actions = c.actions := by
  unfold andThen
  split <;> rfl

theorem farewell_andThen : (c.andThen f).outcome.farewell = c.outcome.farewell := by
  unfold andThen
  split <;> simp_all [Ending.farewell]

theorem outcome_andThen_error {e : ExchangeError} (h : c.outcome = .done (.error e)) :
    (c.andThen f).outcome = .done (.error e) := by
  unfold andThen
  simp [h]

theorem outcome_andThen_waiting : (c.andThen f).outcome = .waiting ↔ c.outcome = .waiting := by
  unfold andThen
  split <;> simp_all

/-- How a course goes on hangs on its outcome alone. -/
theorem outcome_andThen_congr {d : Course α} (h : c.outcome = d.outcome) :
    (c.andThen f).outcome = (d.andThen f).outcome := by
  unfold andThen
  rw [h]
  split <;> rfl

end Course

namespace Exchange

variable {α β : Type} {request : ClientMessage} {listens : Bool} {expect : Opcode}

/-- However the link behaves, the channel is dealt with in order. It is opened only for a request
that has a frame, and this is offered once. Something is received only if the channel has taken the
frame and the caller listens. In the end the channel is closed, once and whatever has come of it,
and a fault in closing it changes nothing. -/
structure Disciplined (request : ClientMessage) (listens : Bool) (caller : Link → Course α) :
    Prop where
  refused : ∀ link e, request.encode? = .error e →
    (caller link).outcome = .done (.error (.tooManyIds e)) ∧ (caller link).actions = []
  unopened : ∀ link frame e, request.encode? = .ok frame → link.connectFault = some e →
    (caller link).outcome = .done (.error (.transport e)) ∧ (caller link).actions = [.connect]
  unsent : ∀ link frame e, request.encode? = .ok frame → link.connectFault = none →
    link.sendFault = some e →
    (caller link).outcome = .done (.error (.transport e)) ∧
      (caller link).actions = [.connect, .send frame false, .close]
  sent : ∀ link frame, request.encode? = .ok frame → Opens link →
    ∃ n, (0 < n ↔ listens = true) ∧ (caller link).actions =
      [.connect, .send frame true] ++ List.replicate n .receive ++ (caller link).outcome.farewell
  closing : ∀ link fault,
    (caller { link with closeFault := fault }).outcome = (caller link).outcome ∧
      (caller { link with closeFault := fault }).actions = (caller link).actions

/-- A caller waits without end iff the channel takes its request, no limit is set, and all that
arrives is passed over. -/
def WaitsFor (request : ClientMessage) (expect : Opcode) (limit : Option Nat)
    (caller : Link → Course α) : Prop :=
  ∀ link, (caller link).outcome = .waiting ↔ (∃ frame, request.encode? = .ok frame) ∧ Opens link ∧
    limit = none ∧ ∀ x ∈ link.arrivals, Skipped expect x.2

/-! ## A request and what follows -/

theorem actions_closing (link : Link) (c : Course α) :
    (closing link c).actions = c.actions ++ c.outcome.farewell := by
  unfold closing
  split <;> simp_all [Ending.farewell]

/-- Nothing is done to a channel while waiting but to receive from it. -/
theorem actions_await (limit : Option Nat) (expect : Opcode) (now : Nat)
    (arrivals : List (Nat × Arrival)) :
    ∃ n, (await limit expect now arrivals).actions = List.replicate (n + 1) .receive := by
  have hexpired : ∀ now, (expired limit now).actions = [.receive] := by
    intro now
    cases limit <;> rfl
  -- Each frame that is skipped makes for one more.
  induction arrivals generalizing now with
  | nil => exact ⟨0, hexpired now⟩
  | cons x rest ih =>
    obtain ⟨time, a⟩ := x
    cases hin : late limit time with
    | true =>
      rw [await_expired hin]
      exact ⟨0, hexpired now⟩
    | false =>
      rcases skipped_or_settles expect a with hskipped | ⟨result, hsettles⟩
      · obtain ⟨skipped, hawait⟩ := await_skipped hskipped
        obtain ⟨n, hn⟩ := ih time
        rw [hawait limit now time rest hin, hn]
        exact ⟨n + 1, List.replicate_succ.symm⟩
      · rw [await_settles limit hsettles hin]
        exact ⟨0, rfl⟩

/-- Only a wait without a limit may go on for ever. -/
theorem limit_of_waiting {limit : Option Nat} {now : Nat} {arrivals : List (Nat × Arrival)}
    (h : (await limit expect now arrivals).outcome = .waiting) : limit = none := by
  cases limit with
  | none => rfl
  | some d =>
    exfalso
    induction arrivals generalizing now with
    | nil => cases h
    | cons x rest ih =>
      obtain ⟨time, a⟩ := x
      cases hin : late (some d) time with
      | true =>
        rw [await_expired hin] at h
        cases h
      | false =>
        rcases skipped_or_settles expect a with hskipped | ⟨result, hsettles⟩
        · obtain ⟨skipped, hawait⟩ := await_skipped hskipped
          rw [hawait (some d) now time rest hin] at h
          exact ih h
        · rw [await_settles (some d) hsettles hin] at h
          cases h

/-- **A request is dealt with in order**, if nothing follows but to receive, and closing the channel
has no part in it. -/
theorem disciplined_converse {after : Link → Course α}
    (hreceive : ∀ link, ∃ n, (0 < n ↔ listens = true) ∧
      (after link).actions = List.replicate n .receive)
    (hclose : ∀ link fault, after { link with closeFault := fault } = after link) :
    Disciplined request listens fun link => converse link request (after link) where
  refused link e he := by
    simp only [converse, he, and_self]
  unopened link frame e hf he := by
    simp only [converse, hf, he, and_self]
  unsent link frame e hf hc he := by
    simp only [converse, hf, hc, he, outcome_closing, actions_closing, true_and]
    rfl
  sent link frame hf hopens := by
    obtain ⟨n, hn, hactions⟩ := hreceive link
    refine ⟨n, hn, ?_⟩
    simp only [converse, hf, hopens.1, hopens.2, outcome_closing, actions_closing, hactions]
    rfl
  closing link fault := by
    rw [outcome_converse, outcome_converse, hclose]
    refine ⟨rfl, ?_⟩
    cases hf : request.encode? with
    | error e => simp only [converse, hf]
    | ok frame =>
      cases hc : link.connectFault with
      | some e => simp only [converse, hf, hc]
      | none => cases hs : link.sendFault <;> simp only [converse, hf, hc, hs, actions_closing]

theorem disciplined_run (request : ClientMessage) (expect : Opcode) (limit : Option Nat) :
    Disciplined request true fun link => run link request expect limit := by
  refine disciplined_converse (fun link => ?_) fun link fault => rfl
  obtain ⟨n, hn⟩ := actions_await limit expect 0 link.arrivals
  exact ⟨n + 1, by simp, hn⟩

/-- **A request is waited for without end** only on purpose. -/
theorem waitsFor_run (request : ClientMessage) (expect : Opcode) (limit : Option Nat) :
    WaitsFor request expect limit fun link => run link request expect limit := by
  intro link
  dsimp only
  constructor
  · intro hwaiting
    rw [run, outcome_converse] at hwaiting
    split at hwaiting
    · cases hwaiting
    · cases hwaiting
    · cases hwaiting
    · next hrefusal hconnect hsend =>
      obtain rfl := limit_of_waiting hwaiting
      exact ⟨⟨_, ClientMessage.encode?_eq_ok.2 ⟨hrefusal, rfl⟩⟩, ⟨hconnect, hsend⟩, rfl,
        (outcome_await expect 0 link.arrivals).2.1 hwaiting⟩
  · rintro ⟨⟨frame, hframe⟩, ⟨hconnect, hsend⟩, rfl, hskipped⟩
    rw [run, outcome_converse, (ClientMessage.encode?_eq_ok.1 hframe).1, hconnect, hsend]
    exact (outcome_await expect 0 link.arrivals).2.2 hskipped

/-- Without an answer there is nothing to wait for. -/
theorem outcome_post_ne_waiting (link : Link) (request : ClientMessage) :
    (post link request).outcome ≠ .waiting := by
  rw [post, outcome_converse]
  split <;> exact nofun

theorem disciplined_post (request : ClientMessage) :
    Disciplined request false fun link => post link request :=
  disciplined_converse (fun _ => ⟨0, by simp, rfl⟩) fun _ _ => rfl

/-! ## Those who go on with the result -/

/-- What a caller notes, and when it is done, is not looked at. -/
theorem Disciplined.congr {caller caller' : Link → Course α}
    (h : Disciplined request listens caller)
    (hsame : ∀ link, (caller' link).outcome = (caller link).outcome ∧
      (caller' link).actions = (caller link).actions) : Disciplined request listens caller' := by
  constructor
  all_goals simp only [hsame]
  exacts [h.refused, h.unopened, h.unsent, h.sent, h.closing]

/-- **Who goes on with the result of an exchange leaves its channel alone.** -/
theorem Disciplined.andThen {caller : Link → Course α} (h : Disciplined request listens caller)
    (f : α → Except ExchangeError β × List Note) :
    Disciplined request listens fun link => (caller link).andThen f where
  refused link e he := by
    obtain ⟨houtcome, hactions⟩ := h.refused link e he
    exact ⟨Course.outcome_andThen_error houtcome, Course.actions_andThen.trans hactions⟩
  unopened link frame e hf he := by
    obtain ⟨houtcome, hactions⟩ := h.unopened link frame e hf he
    exact ⟨Course.outcome_andThen_error houtcome, Course.actions_andThen.trans hactions⟩
  unsent link frame e hf hc he := by
    obtain ⟨houtcome, hactions⟩ := h.unsent link frame e hf hc he
    exact ⟨Course.outcome_andThen_error houtcome, Course.actions_andThen.trans hactions⟩
  sent link frame hf hopens := by
    obtain ⟨n, hn, hactions⟩ := h.sent link frame hf hopens
    exact ⟨n, hn, by rw [Course.actions_andThen, Course.farewell_andThen, hactions]⟩
  closing link fault := by
    obtain ⟨houtcome, hactions⟩ := h.closing link fault
    exact ⟨Course.outcome_andThen_congr houtcome,
      by rw [Course.actions_andThen, Course.actions_andThen, hactions]⟩

theorem WaitsFor.andThen {limit : Option Nat} {caller : Link → Course α}
    (h : WaitsFor request expect limit caller) (f : α → Except ExchangeError β × List Note) :
    WaitsFor request expect limit fun link => (caller link).andThen f :=
  fun link => Course.outcome_andThen_waiting.trans (h link)

theorem disciplined_chart (limit : Option Nat) :
    Disciplined .chart true fun link => chart link limit :=
  (disciplined_run .chart .chart limit).andThen _

theorem disciplined_create (limit : Option Nat) (rule : NewRule) :
    Disciplined (.createRule rule) true fun link => RuleExchange.create link limit rule :=
  ((disciplined_run (.createRule rule) .createRule limit).andThen _).congr fun _ => ⟨rfl, rfl⟩

theorem disciplined_list (limit : Option Nat) :
    Disciplined .listRules true fun link => RuleExchange.list link limit :=
  (disciplined_run .listRules .listRules limit).andThen _

end Exchange

/-- A set that is refused beforehand would be refused by the exchange. -/
theorem RuleExchange.activate_eq (link : Link) (ids : List UInt64) :
    activate link ids = (Exchange.post link (.setActiveRules ids)).andThen fun () =>
      (.ok (), [note .info "Active rule set sent" [("count", .number ids.length)]]) := by
  unfold activate
  split_ifs with hlarge
  · simp only [Exchange.post, Exchange.converse, ClientMessage.encode?, ClientMessage.refusal?,
      hlarge, if_true, Course.andThen]
  · rfl

theorem Exchange.disciplined_activate (ids : List UInt64) :
    Disciplined (.setActiveRules ids) false fun link => RuleExchange.activate link ids := by
  simp only [RuleExchange.activate_eq]
  exact (disciplined_post (.setActiveRules ids)).andThen _

theorem RuleExchange.outcome_activate_ne_waiting (link : Link) (ids : List UInt64) :
    (activate link ids).outcome ≠ .waiting := by
  rw [activate_eq, Ne, Course.outcome_andThen_waiting]
  exact Exchange.outcome_post_ne_waiting link _

/-- A failure to administer rules that tells of a failed exchange, of the same kind and with the
same data. -/
structure RuleError.Restates (r : RuleError) (e : ExchangeError) : Prop where
  transport : ∀ fault, r = .transport fault ↔ e = .transport fault
  tooManyRules : ∀ count max, r = .tooManyRules count max ↔ e = .tooManyIds ⟨count, max⟩
  timeout : ∀ millis, r = .timeout millis ↔ e = .timeout millis
  channelClosed : r = .channelClosed ↔ e = .channelClosed
  unexpectedResponse : ∀ byte, r = .unexpectedResponse byte ↔ e = .unexpectedResponse byte

theorem RuleError.restates_ofExchange (e : ExchangeError) : (ofExchange e).Restates e := by
  cases e with
  | tooManyIds refusal =>
    obtain ⟨count, max⟩ := refusal
    constructor <;> simp [ofExchange]
  | transport | timeout | channelClosed | unexpectedResponse => constructor <;> simp [ofExchange]

open Exchange in
/-- **The channel of an exchange is always dealt with in order.** A request is refused iff it is an
active set of more than 255 ids, and then no channel is opened. The frame of any other means the
request; it is offered once to a channel that opens, and nothing is received if it is not taken, or
if no answer is awaited. The channel is closed last and once, unless a wait without a limit goes on
for ever since all that arrives is passed over, and it does not matter if that fails. So it is with
all who use exchanges, and rule administration restates the failures. -/
theorem channel_discipline (request : ClientMessage) (h : request.Bounded) :
    (∀ e, request.encode? = .error e ↔
      ∃ ids, request = .setActiveRules ids ∧ 255 < ids.length ∧ e = ⟨ids.length, 255⟩) ∧
    (∀ frame, request.encode? = .ok frame → ClientMessage.decode frame = .ok request) ∧
    (∀ expect limit, Disciplined request true (fun link => run link request expect limit) ∧
      WaitsFor request expect limit fun link => run link request expect limit) ∧
    (Disciplined request false (fun link => post link request) ∧
      ∀ link, (post link request).outcome ≠ .waiting) ∧
    (∀ limit, Disciplined .chart true (fun link => chart link limit) ∧
      WaitsFor .chart .chart limit fun link => chart link limit) ∧
    (∀ limit rule,
      Disciplined (.createRule rule) true (fun link => RuleExchange.create link limit rule) ∧
      WaitsFor (.createRule rule) .createRule limit
        fun link => RuleExchange.create link limit rule) ∧
    (∀ limit, Disciplined .listRules true (fun link => RuleExchange.list link limit) ∧
      WaitsFor .listRules .listRules limit fun link => RuleExchange.list link limit) ∧
    (∀ ids, Disciplined (.setActiveRules ids) false (fun link => RuleExchange.activate link ids) ∧
      ∀ link, (RuleExchange.activate link ids).outcome ≠ .waiting) ∧
    ∀ e, (RuleError.ofExchange e).Restates e := by
  refine ⟨fun e => ?_, fun frame hf => ClientMessage.decode_of_encode? h hf,
    fun expect limit => ⟨disciplined_run request expect limit, waitsFor_run request expect limit⟩,
    ⟨disciplined_post request, fun link => outcome_post_ne_waiting link request⟩,
    fun limit => ⟨disciplined_chart limit, (waitsFor_run .chart .chart limit).andThen _⟩,
    fun limit rule => ⟨disciplined_create limit rule,
      (waitsFor_run (.createRule rule) .createRule limit).andThen _⟩,
    fun limit => ⟨disciplined_list limit, (waitsFor_run .listRules .listRules limit).andThen _⟩,
    fun ids => ⟨disciplined_activate ids,
      fun link => RuleExchange.outcome_activate_ne_waiting link ids⟩,
    RuleError.restates_ofExchange⟩
  rw [ClientMessage.encode?_eq_error, ClientMessage.refusal?_eq_some]

open Exchange in
/-- So it is when the channel does not take the request, and what arrives then comes too late. -/
theorem channel_discipline_unsent :
    let request : ClientMessage := .createRule ⟨7, ⟨[0x5E], false⟩, "é"⟩
    let link : Link := ⟨none, some (.send "gone"), some .closed, [(3, .ended)]⟩
    let course := run link request .createRule (some 5)
    request.Bounded ∧ ∃ frame, request.encode? = .ok frame ∧
      ClientMessage.decode frame = .ok request ∧
      course.actions = [.connect, .send frame false, .close] ∧
      course.outcome = .done (.error (.transport (.send "gone"))) ∧
      RuleError.ofExchange (.transport (.send "gone")) = .transport (.send "gone") := by
  intro request link course
  have hbounded : request.Bounded := ⟨by decide, by decide⟩
  obtain ⟨-, hdecode, hrun, -, -, -, -, -, hrestates⟩ := channel_discipline request hbounded
  obtain ⟨houtcome, hactions⟩ := (hrun .createRule (some 5)).1.unsent link _ _ rfl rfl rfl
  exact ⟨hbounded, _, rfl, hdecode _ rfl, hactions, houtcome, ((hrestates _).transport _).2 rfl⟩

end Vitals
