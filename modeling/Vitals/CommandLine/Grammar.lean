/-
  The grammar of the command line: its commands with their options and operands.

  A command is known by its path, the names that lead to it; the path of the program itself is
  empty. A command either has commands below it or does something.

  * `Spec`: what one command takes.
  * `grammar`: all commands.
-/
import Vitals.Config.Environment

namespace Vitals.CommandLine

/-- The shells that completions can be made for. -/
inductive Shell where
  | bash | elvish | fish | powershell | zsh
  deriving DecidableEq, Repr

namespace Shell

/-- All shells. -/
def all : List Shell := [bash, elvish, fish, powershell, zsh]

/-- The name of a shell. -/
def name : Shell → String
  | bash => "bash" | elvish => "elvish" | fish => "fish" | powershell => "powershell" | zsh => "zsh"

/-- The shell of a name. -/
def ofName? (s : String) : Option Shell := all.find? fun shell => shell.name = s

end Shell

/-- What a value has to be. -/
inductive ValueKind where
  | text
  /-- The path of a file, which is not empty. -/
  | path
  /-- A number up to a bound. If it is `signed`, even a zero with a minus is one. -/
  | count (max : Nat) (signed : Bool)
  | shell
  deriving DecidableEq, Repr

/-- What an option does. -/
inductive Role where
  | flag
  /-- It has a value. If it is not given, a variable of the environment stands in for it, and then
  what is usual. -/
  | value (kind : ValueKind) (standIn : Option Variable) (usual : Option String)
  | help
  | version
  deriving DecidableEq, Repr

/-- An option. -/
structure Opt where
  long : String
  short : Option Char
  role : Role
  about : String
  deriving DecidableEq, Repr

/-- An operand: a value known by its place. -/
structure Operand where
  name : String
  kind : ValueKind
  required : Bool
  /-- Whether it takes any number of values. -/
  repeated : Bool
  about : String
  deriving DecidableEq, Repr

/-- What one command takes. -/
structure Spec where
  path : List String
  about : String
  options : List Opt
  operand : Option Operand
  deriving DecidableEq, Repr

/-! ## Options -/

/-- An option with a value that only the command line gives. -/
def valued (long : String) (short : Option Char) (kind : ValueKind) (usual : Option String)
    (about : String) : Opt := ⟨long, short, .value kind none usual, about⟩

/-- Asks for help. -/
def helpOption : Opt := ⟨"help", some 'h', .help, "Print help"⟩

/-- Asks for the version. -/
def versionOption : Opt := ⟨"version", some 'V', .version, "Print version"⟩

/-- A flag without a short form. -/
def flag (long about : String) : Opt := ⟨long, none, .flag, about⟩

/-- Where a configuration is unless said otherwise. -/
def usualPath : String := "telewire.toml"

/-- The options of every command that talks to a server. -/
def connectionOptions : List Opt := [
  valued "config" (some 'c') .path (some usualPath) "Path to configuration file",
  ⟨"url", some 'u', .value .text (some .url) none, "Server base URL (http, https, ws or wss)"⟩,
  ⟨"log-level", some 'l', .value .text (some .level) none,
    "Set log level (trace, debug, info, warn, error)"⟩]

/-- The largest word of 32 bits. -/
def max32 : Nat := UInt32.size - 1

/-- The largest word of 64 bits. -/
def max64 : Nat := UInt64.size - 1

/-- A command that talks to a server, with options of its own. -/
def serverCommand (path : List String) (about : String) (own : List Opt)
    (operand : Option Operand) : Spec :=
  ⟨path, about, connectionOptions ++ own ++ [helpOption], operand⟩

/-- A command with commands below it. -/
def group (path : List String) (about : String) : Spec := ⟨path, about, [helpOption], none⟩

/-! ## Commands -/

/-- The name of the program. -/
def program : String := "telewire"

/-- The version of the program. -/
def version : String := "0.3.0"

/-- All commands. -/
def grammar : List Spec := [
  ⟨[], "Client for binary admin telemetry channels", [helpOption, versionOption], none⟩,
  serverCommand ["stats"] "Follow the stats history" [
    valued "pages" (some 'p') (.count max32 true) (some "0")
      "Older pages to load after the snapshot",
    flag "json" "Print events as JSON lines"] none,
  serverCommand ["requests"] "Tail the request log" [
    valued "capacity" none (.count max64 false) none "Request log entries to keep",
    flag "json" "Print events as JSON lines"] none,
  serverCommand ["chart"] "Fetch the aggregated chart once" [flag "json" "Output as JSON"] none,
  group ["rules"] "Administer rules",
  serverCommand ["rules", "list"] "List rules and their active flag" [
    flag "json" "Output as JSON"] none,
  serverCommand ["rules", "create"] "Create a pattern rule" [
    valued "label" none .text (some "") "Human-readable label",
    flag "multi-line" "Match across lines",
    valued "id" none (.count max64 false) none "Use this id instead of a random one"]
    (some ⟨"pattern", .text, true, false, "Pattern the server matches requests against"⟩),
  serverCommand ["rules", "activate"] "Replace the active rule set" []
    (some ⟨"ids", .count max64 false, false, true,
      "Rule ids; any rule not listed is deactivated"⟩),
  group ["config"] "Configuration utilities",
  ⟨["config", "init"], "Initialize a new configuration file", [
    valued "output" (some 'o') .path (some usualPath) "Output file path",
    ⟨"force", some 'f', .flag, "Overwrite existing file"⟩,
    valued "url" (some 'u') .text none "Server base URL to write into `[connection]`",
    helpOption], none⟩,
  ⟨["completions"], "Generate shell completions", [helpOption],
    some ⟨"shell", .shell, true, false, "Shell to generate completions for"⟩⟩]

/-- The command of a path. -/
def spec? (path : List String) : Option Spec := grammar.find? fun s => s.path = path

/-- The commands right below a path. -/
def below (path : List String) : List Spec :=
  grammar.filter fun s => s.path ≠ [] ∧ s.path.dropLast = path

/-- The command that shows help, below every command with others below it. -/
def helpName : String := "help"

/-- What it takes below a path: the names that lead on from there. -/
def helpSpec (path : List String) : Spec :=
  ⟨path ++ [helpName], "Print this message or the help of the given subcommand(s)", [],
    some ⟨"command", .text, false, true, "Print help for the subcommand(s)"⟩⟩

/-- The last name of a path. -/
def Spec.name (s : Spec) : String := s.path.getLast?.getD program

/-- The names that may follow a path. -/
def namesBelow (path : List String) : List String :=
  match below path with
  | [] => []
  | specs => specs.map Spec.name ++ [helpName]

end Vitals.CommandLine
