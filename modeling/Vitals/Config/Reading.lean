/-
  Configurations read from TOML documents.

  A document has a section for each kind of settings. What it leaves out is as usual, and what it
  holds besides is ignored; a setting of another type than the one expected spoils the document. A
  section may also be written as an array of its settings in their order.

  * `Config.parse?`: the configuration of a document.
-/
import Vitals.Config
import Vitals.Toml.Document

namespace Vitals.Config

open Toml

/-! ## Settings -/

/-- A count: an integer that is not negative. -/
def count? : Value → Option UInt64
  | .integer n => if 0 ≤ n then some (UInt64.ofNat n.toNat) else none
  | _ => none

/-- A text. -/
def text? : Value → Option String
  | .string s => some s
  | _ => none

/-- Whether a value has no parts, where it could have some. -/
def isEmptyValue : Value → Bool
  | .table _ [] | .array [] | .tables [] => true
  | _ => false

/-- A log format: its name, or a table with an empty field of that name and no other. -/
def format? : Value → Option LogFormat
  | .string s => LogFormat.ofName? s
  | .table _ [(name, v)] => if isEmptyValue v then LogFormat.ofName? name else none
  | _ => none

/-- The field under which a date stands when it is taken for a table. -/
def dateField : String := "$__toml_private_datetime"

/-- The levels of components: a table of texts. -/
def levels? : Value → Option (List (String × String))
  | .table _ fields =>
    fields.mapM fun (component, v) => (text? v).map fun level => (component, level)
  | .dateTime s => some [(dateField, s)]
  | _ => none

/-! ## Sections -/

/-- Finds a setting of a section, by its place in the section or by its name. -/
abbrev Section := Nat → String → Option Value

/-- The settings of a value that is a section. A date is one without any that are known. -/
def section? : Value → Option Section
  | .table _ fields => some fun _ name => Fields.get? fields name
  | .array items => some fun place _ => items[place]?
  | .tables items => some fun place _ => items[place]?.map (.table .header)
  | .dateTime _ => some fun _ _ => none
  | _ => none

/-- A setting of a section, as usual if the section leaves it out. -/
def setting {α : Type} (s : Section) (place : Nat) (name : String) (usual : α)
    (read? : Value → Option α) : Option α :=
  match s place name with
  | none => some usual
  | some v => read? v

/-- The section of a name; one without settings if the document leaves it out. -/
def sectionOf? (document : Fields) (name : String) : Option Section :=
  match document.get? name with
  | none => some fun _ _ => none
  | some v => section? v

/-- The configuration of a document. -/
def ofFields? (document : Fields) : Option Config := do
  let connection ← sectionOf? document "connection"
  let sync ← sectionOf? document "sync"
  let rules ← sectionOf? document "rules"
  let logging ← sectionOf? document "logging"
  return {
    url := ← setting connection 0 "url" usual.url text?
    probeSeconds := ← setting connection 1 "probe_interval_seconds" usual.probeSeconds count?
    tailSeconds := ← setting connection 2 "tail_interval_seconds" usual.tailSeconds count?
    requestCapacity := ← setting sync 0 "request_log_capacity" usual.requestCapacity count?
    responseTimeoutSeconds := ←
      setting rules 0 "response_timeout_seconds" usual.responseTimeoutSeconds
        fun v => (count? v).map some
    level := ← setting logging 0 "level" usual.level text?
    format := ← setting logging 1 "format" usual.format format?
    componentLevels := ←
      setting logging 2 "component_levels" usual.componentLevels fun v => (levels? v).map some }

/-- The configuration of the text of a document. -/
def parse? (text : String) : Option Config := (Toml.parse? text).bind ofFields?

end Vitals.Config
