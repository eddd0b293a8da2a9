/-
  The layers of a configuration: what is usual, then a file, the environment and the command line,
  each of which goes over the ones before it.

  * `Config.load`: a file alone.
  * `Config.withEnvironment`, `Config.withFlags`: the layers above it.
  * `Config.layered`: all of them; what comes of it has no fault.
-/
import Vitals.Config.Environment
import Vitals.Config.Reading
import Vitals.Decimal.Reading
import Vitals.Text.Utf8

namespace Vitals

/-- The flags of a command that settings may be given by. -/
structure ConfigFlags where
  url : Option String
  level : Option String
  deriving DecidableEq, Repr

namespace Config

/-- The configuration of a file. -/
def load (path : String) : FileContent → Except ConfigError Config
  | .absent => .error (.notFound path)
  | .directory => .error (.unreadable .isDirectory)
  | .bytes b =>
    match Text.decode? b with
    | none => .error (.unreadable .notText)
    | some text =>
      match parse? text with
      | none => .error .malformed
      | some c => .ok c

/-- Goes over a configuration with the environment. A capacity or format that cannot be read counts
as not set. -/
def withEnvironment (c : Config) (env : Environment) : Config :=
  { c with
    url := env.url.getD c.url
    requestCapacity := (env.requestCapacity.bind Decimal.word64?).getD c.requestCapacity
    level := env.level.getD c.level
    format := (env.format.bind LogFormat.ofText?).getD c.format }

/-- Goes over a configuration with the flags of a command. -/
def withFlags (c : Config) (flags : ConfigFlags) : Config :=
  { c with
    url := flags.url.getD c.url
    level := flags.level.getD c.level }

/-- The configuration of a file, if there is one, or else the usual one. -/
def loadOrUsual (path : String) (file : FileContent) : Except ConfigError Config :=
  if file = .absent then .ok usual else load path file

/-- The configuration that all layers make, if it has no fault. -/
def layered (path : String) (file : FileContent) (env : Environment) (flags : ConfigFlags) :
    Except ConfigError Config := do
  let c := ((← loadOrUsual path file).withEnvironment env).withFlags flags
  c.validate
  return c

end Config

end Vitals
