/-
  Values of TOML documents.

  * `Toml.Value`: the values; tables keep their fields in the order in which they were written.
  * `Toml.Origin`: how a table came to be, which decides what may be added to it later.
-/
namespace Vitals.Toml

/-- How a table came to be. -/
inductive Origin where
  /-- Written between braces, and complete. -/
  | inline
  /-- Opened by a header of its own. -/
  | header
  /-- Implied by the header of a table within it. -/
  | implied
  /-- Implied by a dotted key. -/
  | dotted
  deriving DecidableEq, Repr

/-- A value. -/
inductive Value where
  | string (s : String)
  | integer (n : Int)
  | float
  | boolean (b : Bool)
  /-- A date, a time or both, in normal form. -/
  | dateTime (s : String)
  | array (items : List Value)
  | table (origin : Origin) (fields : List (String × Value))
  /-- Tables that were opened one after the other by headers of one name. -/
  | tables (items : List (List (String × Value)))

/-- The fields of a table, in the order in which they were written. -/
abbrev Fields := List (String × Value)

namespace Fields

/-- The value under a key. -/
def get? (fields : Fields) (key : String) : Option Value := fields.lookup key

/-- Sets the value under a key, in its place if the key is there, else at the end. -/
def set (key : String) (v : Value) : Fields → Fields
  | [] => [(key, v)]
  | (k, w) :: rest => if k = key then (k, v) :: rest else (k, w) :: set key v rest

end Fields

end Vitals.Toml
