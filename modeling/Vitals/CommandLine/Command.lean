/-
  The commands of the program.

  * `Command`: a command with all that it needs to know.
  * `Command.ofArguments`: the command that arguments and environment ask for.
-/
import Vitals.CommandLine.Usage
import Vitals.Config.Layers

namespace Vitals.CommandLine

/-- How a server is found. -/
structure Connection where
  /-- The path of the configuration file. -/
  config : String
  url : Option String
  level : Option String
  deriving DecidableEq, Repr

/-- A command. -/
inductive Command where
  /-- Follows the stats history, after so many older pages. -/
  | stats (c : Connection) (pages : Nat) (json : Bool)
  /-- Follows the request log. -/
  | requests (c : Connection) (capacity : Option UInt64) (json : Bool)
  | chart (c : Connection) (json : Bool)
  | listRules (c : Connection) (json : Bool)
  | createRule (c : Connection) (pattern label : String) (multiLine : Bool) (id : Option UInt64)
  | activateRules (c : Connection) (ids : List UInt64)
  /-- Writes the file in which a configuration starts. -/
  | initConfig (output : String) (force : Bool) (url : Option String)
  | completions (shell : Shell)
  deriving DecidableEq, Repr

namespace Scan

/-- Whether a flag was given. -/
def flag (s : Scan) (name : String) : Bool := (s.values? name).isSome

/-- The text given under a name. -/
def text? (s : Scan) (name : String) : Option String :=
  match s.values? name with
  | some (.text t :: _) => some t
  | _ => none

/-- The numbers given under a name. -/
def counts (s : Scan) (name : String) : List Nat :=
  ((s.values? name).getD []).filterMap fun
    | .count n => some n
    | _ => none

/-- The number given under a name. -/
def count? (s : Scan) (name : String) : Option Nat := (s.counts name).head?

/-- The word given under a name. -/
def word? (s : Scan) (name : String) : Option UInt64 := (s.count? name).map UInt64.ofNat

/-- How the server is found. The environment stands in for options that are not given. -/
def connection (s : Scan) (env : Environment) : Connection where
  config := (s.text? "config").getD usualPath
  url := (s.text? "url").or env.url
  level := (s.text? "log-level").or env.level

/-- The command of a complete scan. -/
def command? (s : Scan) (env : Environment) : Option Command :=
  let c := s.connection env
  match s.path with
  | ["stats"] => some (.stats c ((s.count? "pages").getD 0) (s.flag "json"))
  | ["requests"] => some (.requests c (s.word? "capacity") (s.flag "json"))
  | ["chart"] => some (.chart c (s.flag "json"))
  | ["rules", "list"] => some (.listRules c (s.flag "json"))
  | ["rules", "create"] => do
    let pattern ← s.text? "pattern"
    return .createRule c pattern ((s.text? "label").getD "") (s.flag "multi-line") (s.word? "id")
  | ["rules", "activate"] => some (.activateRules c ((s.counts "ids").map UInt64.ofNat))
  | ["config", "init"] =>
    some (.initConfig ((s.text? "output").getD usualPath) (s.flag "force") (s.text? "url"))
  | ["completions"] =>
    match s.values? "shell" with
    | some (.shell shell :: _) => some (.completions shell)
    | _ => none
  | _ => none

end Scan

/-- The command that some arguments ask for. -/
def Command.ofArguments (args : List String) (env : Environment) : Except UsageError Command := do
  let s ← Scan.ofArguments args
  match s.command? env with
  | some command => return command
  | none => .error (.commandMissing s.path)

end Vitals.CommandLine
