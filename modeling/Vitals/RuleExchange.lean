/-
  Administration of the server's rules, by single exchanges.

  * `RuleExchange.create`, `RuleExchange.list`, `RuleExchange.activate`.
  * `RuleError.ofExchange`: the failures of an exchange in the words of rule administration.
-/
import Vitals.Exchange

namespace Vitals

/-- Why rules could not be administered. -/
inductive RuleError where
  /-- The active set is larger than one request can carry. -/
  | tooManyRules (count max : Nat)
  | transport (e : Channel.Error)
  /-- No response within so many milliseconds. -/
  | timeout (millis : Nat)
  | channelClosed
  | unexpectedResponse (byte : UInt8)
  deriving DecidableEq, Repr

namespace RuleError

/-- The wording of a rule error. -/
def message : RuleError → String
  | tooManyRules count max => s!"too many rules to activate: {count} (max {max})"
  | transport e => e.message
  | timeout millis => s!"no response from server within {secondsText millis}s"
  | channelClosed => "channel closed before the server responded"
  | unexpectedResponse byte => s!"unexpected response with opcode {byte}"

/-- A failed exchange as a failure to administer rules. -/
def ofExchange : ExchangeError → RuleError
  | .transport e => transport e
  | .tooManyIds e => tooManyRules e.count e.max
  | .timeout millis => timeout millis
  | .channelClosed => channelClosed
  | .unexpectedResponse byte => unexpectedResponse byte

end RuleError

namespace RuleExchange

/-- A log event of rule administration. -/
def note (level : Level) (message : String) (fields : List (String × FieldValue)) : Note :=
  .log ⟨level, "telewire::rules", message, fields⟩

/-- Asks the server to create a rule, and returns the id that it reports. -/
def create (link : Link) (limit : Option Nat) (rule : NewRule) : Course UInt64 :=
  let asked := note .debug "Creating rule" [("id", .number rule.id.toNat),
    ("label", .text rule.label), ("pattern", .text rule.descriptor.patternText)]
  let c := (Exchange.run link (.createRule rule) .createRule limit).andThen fun
    | .ruleCreated id =>
      let differs := if id = rule.id then [] else
        [note .warn "Server assigned a different rule id" [
          ("requested", .number rule.id.toNat), ("created", .number id.toNat)]]
      (.ok id, differs ++ [note .info "Rule created" [("id", .number id.toNat)]])
    | other => (.error (.unexpectedResponse other.opcode.code), [])
  { c with notes := asked :: c.notes }

/-- Asks for all rules. -/
def list (link : Link) (limit : Option Nat) : Course (List RuleListing) :=
  (Exchange.run link .listRules .listRules limit).andThen fun
    | .rules listings =>
      (.ok listings, [note .debug "Rules listed" [("count", .number listings.length)]])
    | other => (.error (.unexpectedResponse other.opcode.code), [])

/-- Replaces the active set. One that is too large is refused before there is an exchange. That the
request was sent is all there is to know. -/
def activate (link : Link) (ids : List UInt64) : Course Unit :=
  if maxActiveRules < ids.length then
    ⟨.done (.error (.tooManyIds ⟨ids.length, maxActiveRules⟩)), [], 0, []⟩
  else
    (Exchange.post link (.setActiveRules ids)).andThen fun () =>
      (.ok (), [note .info "Active rule set sent" [("count", .number ids.length)]])

end RuleExchange

end Vitals
