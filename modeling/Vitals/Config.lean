/-
  The configuration of the client.

  * `Config`: the settings; `Config.usual` holds those that apply unless set otherwise.
  * `Config.validate`: the first setting, in a fixed order, that cannot be used.
  * `Config.endpoint`: the endpoint of the admin channel.
  * `Config.directives`: which log events are recorded.
  * `Config.session`: the settings of a session.
-/
import Vitals.Channel.Endpoint
import Vitals.Files.Content
import Vitals.Session

namespace Vitals

/-- How log lines are written. -/
inductive LogFormat where
  | pretty | json
  deriving DecidableEq, Repr

namespace LogFormat

/-- The name of a format. -/
def name : LogFormat → String
  | pretty => "pretty" | json => "json"

/-- The format of a name. -/
def ofName? (s : String) : Option LogFormat := [pretty, json].find? fun f => f.name = s

/-- The format of a name in any case. The letters of the names are ASCII, and no other character has
one of them as its lower case. -/
def ofText? (s : String) : Option LogFormat :=
  ofName? (String.ofList (s.toList.map Char.toLower))

/-- What is wrong with a text that names no format. -/
def faultMessage (s : String) : String := s!"Invalid log format: {s}"

end LogFormat

/-- The settings of the client. -/
structure Config where
  /-- The URL of the server. -/
  url : String
  /-- Seconds between pings. -/
  probeSeconds : UInt64
  /-- Seconds between pulls of the request log. -/
  tailSeconds : UInt64
  /-- How many requests are kept. -/
  requestCapacity : UInt64
  /-- How many seconds a response is waited for; without end if not set. -/
  responseTimeoutSeconds : Option UInt64
  /-- The least level of log events that are recorded. -/
  level : String
  format : LogFormat
  /-- Levels of single components. -/
  componentLevels : Option (List (String × String))
  deriving DecidableEq, Repr

/-- What makes a configuration unusable. -/
inductive ConfigFault where
  | blankUrl
  | endpoint (e : Channel.Error)
  | zeroProbe
  | zeroTail
  | zeroCapacity
  | zeroTimeout
  deriving DecidableEq, Repr

namespace ConfigFault

/-- The setting at fault. -/
def setting : ConfigFault → String
  | blankUrl | endpoint _ => "connection.url"
  | zeroProbe => "connection.probe_interval_seconds"
  | zeroTail => "connection.tail_interval_seconds"
  | zeroCapacity => "sync.request_log_capacity"
  | zeroTimeout => "rules.response_timeout_seconds"

/-- What is wrong with it. -/
def reason : ConfigFault → String
  | blankUrl => "URL cannot be empty"
  | endpoint e => e.message
  | zeroProbe | zeroTail => "interval must be non-zero"
  | zeroCapacity => "capacity must be non-zero"
  | zeroTimeout => "timeout must be non-zero when set"

end ConfigFault

/-- Why there is no configuration. -/
inductive ConfigError where
  | unreadable (fault : FileFault)
  | notFound (path : String)
  /-- The file breaks a rule of its format, or a setting has a value of another type. -/
  | malformed
  | invalid (fault : ConfigFault)
  deriving DecidableEq, Repr

/-- The wording of a configuration error. -/
def ConfigError.message : ConfigError → String
  | unreadable fault => s!"IO error: {fault.message}"
  | notFound path => s!"Config file not found: {path}"
  | malformed => "Failed to parse config"
  | invalid fault => s!"Invalid value for '{fault.setting}': {fault.reason}"

namespace Config

/-- What applies unless set otherwise. -/
def usual : Config where
  url := "http://127.0.0.1:8080/admin"
  probeSeconds := 3
  tailSeconds := 3
  requestCapacity := UInt64.ofNat Telemetry.defaultCapacity
  responseTimeoutSeconds := none
  level := "info"
  format := .pretty
  componentLevels := none

/-- The endpoint of the admin channel. -/
def endpoint (c : Config) : Except ConfigError String :=
  match Channel.endpointOfUrl c.url with
  | .ok e => .ok e
  | .error e => .error (.invalid (.endpoint e))

/-- The first fault of a configuration, if it has any. -/
def fault? (c : Config) : Option ConfigFault :=
  if Text.trim c.url = "" then some .blankUrl
  else
    match Channel.endpointOfUrl c.url with
    | .error e => some (.endpoint e)
    | .ok _ =>
      if c.probeSeconds = 0 then some .zeroProbe
      else if c.tailSeconds = 0 then some .zeroTail
      else if c.requestCapacity = 0 then some .zeroCapacity
      else if c.responseTimeoutSeconds = some 0 then some .zeroTimeout
      else none

/-- Accepts a configuration that has no fault. -/
def validate (c : Config) : Except ConfigError Unit :=
  match c.fault? with
  | some fault => .error (.invalid fault)
  | none => .ok ()

/-- How many milliseconds a response is waited for. -/
def responseTimeout (c : Config) : Option Nat :=
  c.responseTimeoutSeconds.map fun s => s.toNat * 1000

/-- Which log events are recorded: those of a level, and those of single components from levels of
their own, in the order of their names. -/
def directives (c : Config) : String :=
  let components := (c.componentLevels.getD []).mergeSort fun a b => !(b.1 < a.1)
  components.foldl (fun text (component, level) => s!"{text},telewire::{component}={level}") c.level

/-- The settings of a session. -/
def session (c : Config) (mode : Mode) : Settings where
  mode
  probePeriod := Duration.seconds c.probeSeconds.toNat
  tailPeriod := Duration.seconds c.tailSeconds.toNat
  capacity := c.requestCapacity.toNat

end Config

end Vitals
