/-
  The file in which a configuration starts.

  It holds every setting with its usual value or as an example, explained by comments. Only the URL
  of the server is written in, in place of the line that gives the usual one.

  * `Config.exampleLines`: the lines of the file.
  * `Config.setUrl`: lines with a URL written in.
  * `Config.render`: the file for a URL, if a configuration with it has no fault.
-/
import Vitals.Config.Reading

namespace Vitals.Config

/-- The lines of the file, with the usual URL. -/
def exampleLines : List String := [
  "# telewire configuration",
  "#",
  "# Every value can be overridden by TELEWIRE_* environment variables",
  "# or command line flags.",
  "",
  "[connection]",
  "# Server base URL. http/https become ws/wss; \"?ws\" is appended when",
  "# the URL has no query.",
  "url = \"http://127.0.0.1:8080/admin\"",
  "",
  "# Seconds between pings (new stats intervals)",
  "probe_interval_seconds = 3",
  "",
  "# Seconds between request log pulls",
  "tail_interval_seconds = 3",
  "",
  "[sync]",
  "# Request log entries kept, newest first",
  "request_log_capacity = 100",
  "",
  "[rules]",
  "# Seconds to wait for a rule response. Leave unset to wait indefinitely.",
  "# response_timeout_seconds = 10",
  "",
  "[logging]",
  "# trace, debug, info, warn, error",
  "level = \"info\"",
  "",
  "# pretty or json",
  "format = \"pretty\"",
  "",
  "# Per-module levels",
  "# [logging.component_levels]",
  "# session = \"debug\"",
  "# dispatch = \"trace\""]

/-- A text that ends each line with a line break. -/
def unlines (lines : List String) : String := String.join (lines.map (· ++ "\n"))

/-- Whether a line starts with a text, behind the blanks in front. -/
def startsWith (text line : String) : Bool :=
  text.toList.isPrefixOf (line.toList.dropWhile Text.isBlank)

/-- Lines in which a written URL takes the place of the first line that gives one in the section of
the connection. `inside` says that the lines before have opened this section last. -/
def setUrl (written : String) (inside : Bool) : List String → List String
  | [] => []
  | line :: lines =>
    let inside := if startsWith "[" line then startsWith "[connection]" line else inside
    if inside && startsWith "url =" line then s!"url = {written}" :: lines
    else line :: setUrl written inside lines

/-- The text of the file, with a URL written in if one is given. -/
def template : Option String → String
  | some url => unlines (setUrl (Toml.quote url) false exampleLines)
  | none => unlines exampleLines

/-- The file for a URL, the usual one if none is given. It must hold a configuration without fault.
-/
def render (url : Option String) : Except ConfigError String :=
  match parse? (template url) with
  | none => .error .malformed
  | some c => do
    c.validate
    return template url

end Vitals.Config
