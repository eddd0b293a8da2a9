/-
  What an invocation of the program comes to.

  Nothing is read or written here: what is found at the path that a command looks at is given, and
  what is to be written is part of the outcome. No channel can be opened; an endpoint that could be
  dialed counts as out of reach. What is shown goes to standard output, the report of a failure to
  standard error.

  * `Outcome`: the exit code, what is shown, and what is written.
  * `Command.outcome`: the outcome of a command.
  * `Outcome.ofUsage`: the outcome of arguments that make no command.
-/
import Vitals.Channel.Uri
import Vitals.CommandLine.Command
import Vitals.CommandLine.Help
import Vitals.Config.Template
import Vitals.Report.Progress
import Vitals.RuleExchange

namespace Vitals.CommandLine

/-- A file to be written, its directories made first if they are missing. -/
structure FileWrite where
  path : String
  text : String
  deriving DecidableEq, Repr

/-- What an invocation comes to. -/
structure Outcome where
  code : Nat
  /-- What is shown if the file, if any, was written. -/
  output : String
  /-- Why the command failed, if it did. -/
  report : Option String
  /-- What is to be said to a user who asked for no command. -/
  advice : Option String
  write : Option FileWrite
  deriving DecidableEq, Repr

namespace Outcome

/-- A command that shows something and succeeds. -/
def shown (output : String) : Outcome := ⟨0, output, none, none, none⟩

/-- A command that shows something and fails. -/
def failed (output reason : String) : Outcome := ⟨1, output, some s!"Error: {reason}", none, none⟩

/-- A command that stops where a number overflows, with what it has shown until then. -/
def crashed (output : String) : Outcome := ⟨101, output, none, none, none⟩

end Outcome

/-! ## Usage -/

/-- The wording of a usage error. -/
def UsageError.message (env : Environment) : UsageError → String
  | unknownArgument arg => s!"error: unexpected argument '{arg}' found"
  | unknownCommand name => s!"error: unrecognized subcommand '{name}'"
  | missingValue name => s!"error: a value is required for '{name}' but none was supplied"
  | notAllowed name value => s!"error: invalid value '{value}' for '{name}'"
  | badNumber name value => s!"error: invalid value '{value}' for '{name}': not a number in range"
  | missingOperand name => s!"error: the required argument '{name}' was not provided"
  | repeated name => s!"error: the argument '{name}' cannot be used multiple times"
  | needlessValue name => s!"error: unexpected value for '{name}' found; no more were expected"
  | commandMissing path => helpText env path
  | help path => helpText env path
  | version => versionText

/-- The outcome of arguments that make no command: what they ask for, or a refusal. -/
def Outcome.ofUsage (env : Environment) : UsageError → Outcome
  | .help path => shown (helpText env path)
  | .version => shown versionText
  | e => { code := 2, output := "", report := none, advice := some (e.message env), write := none }

/-! ## Commands -/

/-- A channel that cannot be opened. -/
def refusedLink (e : Channel.Error) : Link := ⟨some e, none, none, []⟩

/-- Why the channel to an endpoint cannot be opened. -/
def refusal (endpoint : String) : Channel.Error :=
  (Channel.dial? endpoint).getD (.connect endpoint "no network")

/-- What is found at the path of a command, and the environment. -/
structure Surroundings where
  file : FileContent
  env : Environment
  deriving DecidableEq, Repr

/-- The configuration of a command that talks to a server, and the endpoint that it names. -/
def Connection.prepare (c : Connection) (s : Surroundings) :
    Except ConfigError (Config × String) := do
  let config ← Config.layered c.config s.file s.env ⟨c.url, c.level⟩
  return (config, ← config.endpoint)

/-- Goes on with a prepared connection. -/
def Connection.use (c : Connection) (s : Surroundings) (next : Config → Channel.Error → Outcome) :
    Outcome :=
  match c.prepare s with
  | .error e => .failed "" e.message
  | .ok (config, endpoint) => next config (refusal endpoint)

/-- The events that effects publish. -/
def published (effects : List Effect) : List Event :=
  effects.filterMap fun
    | .published e => some e
    | _ => none

/-- What events show one after the other: all of it, or what comes before an overflow. -/
def display (shown : Event → Except Report.Overflow (List String)) :
    List Event → Except (List String) (List String)
  | [] => .ok []
  | e :: es =>
    match shown e, display shown es with
    | .error _, _ => .error []
    | .ok now, .ok later => .ok (now ++ later)
    | .ok now, .error later => .error (now ++ later)

/-- Follows a session whose channel cannot be opened: what its events show, then why it failed. -/
def follow (settings : Settings) (e : Channel.Error)
    (shown : Event → Except Report.Overflow (List String)) : Outcome :=
  let begun := Session.begin .usual settings "" (.error e) ⟨none, none⟩
  match display shown (published begun.effects) with
  | .ok output => .failed (lines output) e.message
  | .error output => .crashed (lines output)

/-- The outcome of a single exchange. One that does not end shows nothing. -/
def ofCourse {α ε : Type} (message : ε → String) (cause : ExchangeError → ε) (shown : α → String)
    (c : Course α) : Outcome :=
  match c.outcome with
  | .done (.ok a) => .shown (shown a ++ "\n")
  | .done (.error e) => .failed "" (message (cause e))
  | .waiting => .shown ""

/-- A chart as it is shown. -/
def chartText (json : Bool) (s : ChartSeries) : String :=
  if json then Report.chartDocument s
  else if s.size = 0 then "No chart data"
  else (Report.chartTable s).render

/-- A list of rules as it is shown. -/
def rulesText (json : Bool) (rules : List RuleListing) : String :=
  if json then Report.ruleDocument rules
  else if rules.isEmpty then "No rules defined"
  else (Report.ruleTable false rules).render

/-- What is shown once a set of rules was sent. -/
def activatedText (ids : List UInt64) : String :=
  if ids.isEmpty then "Active rule set cleared" else s!"Active rule set sent: {ids.length} rules"

/-- What is shown once a configuration was written. -/
def writtenText (output : String) (url : Option String) : String :=
  lines (s!"✓ Configuration file created: {output}" ::
    if url.isNone then ["  Set [connection] url to your server's admin address."] else [])

/-- Writes the file in which a configuration starts. A file is replaced only by force. -/
def initOutcome (output : String) (force : Bool) (url : Option String) (file : FileContent) :
    Outcome :=
  if file ≠ .absent ∧ !force then
    .failed "" s!"File already exists: {output}. Use --force to overwrite."
  else
    match Config.render url with
    | .error e => .failed "" e.message
    | .ok text => { Outcome.shown (writtenText output url) with write := some ⟨output, text⟩ }

namespace Command

/-- The path that a command looks at. -/
def path : Command → String
  | stats c _ _ | requests c _ _ | chart c _ | listRules c _ | createRule c _ _ _ _
  | activateRules c _ => c.config
  | initConfig output _ _ => output
  | completions _ => usualPath

/-- The outcome of a command. A rule without an id of its own gets `freshId`. -/
def outcome (freshId : UInt64) (s : Surroundings) : Command → Outcome
  | stats c _ json =>
    c.use s fun config e =>
      follow (config.session .stats) e fun event =>
        Option.toList <$> Report.statsProgress ⟨json, false⟩ event
  | requests c capacity json =>
    c.use s fun config e =>
      if capacity = some 0 then .failed "" "--capacity must be non-zero"
      else
        let usual := config.session .requests
        follow { usual with capacity := (capacity.map UInt64.toNat).getD usual.capacity } e
          fun event => .ok (Report.requestsProgress ⟨json, false⟩ event)
  | chart c json =>
    c.use s fun config e =>
      ofCourse ExchangeError.message id (chartText json)
        (Exchange.chart (refusedLink e) config.responseTimeout)
  | listRules c json =>
    c.use s fun config e =>
      ofCourse RuleError.message RuleError.ofExchange (rulesText json)
        (RuleExchange.list (refusedLink e) config.responseTimeout)
  | createRule c pattern label multiLine id =>
    if pattern = "" then .failed "" "pattern cannot be empty"
    else
      c.use s fun config e =>
        let rule : NewRule := ⟨id.getD freshId, ⟨Text.encode pattern, multiLine⟩, label⟩
        ofCourse RuleError.message RuleError.ofExchange (fun id => s!"✓ Rule created: {id.toNat}")
          (RuleExchange.create (refusedLink e) config.responseTimeout rule)
  | activateRules c ids =>
    c.use s fun _ e =>
      ofCourse RuleError.message RuleError.ofExchange (fun () => activatedText ids)
        (RuleExchange.activate (refusedLink e) ids)
  | initConfig output force url => initOutcome output force url s.file
  | completions shell => .shown shell.completions

end Command

end Vitals.CommandLine
