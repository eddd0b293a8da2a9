/-
  TOML documents.

  * `Toml.parse?`: the fields of a document; none if it breaks a rule of the format.
-/
import Vitals.Toml.Statement

namespace Vitals.Toml

/-- A document while it is read. -/
structure Document where
  fields : Fields
  /-- The path of the last header. -/
  path : List String

namespace Document

/-- Nothing is read yet. -/
def empty : Document := ⟨[], []⟩

/-- What a statement adds. -/
def add? (d : Document) : Statement → Option Document
  | .blank => some d
  | .field path v => do return { d with fields := ← d.fields.within? (·.put? path v) d.path }
  | .header path => do return ⟨← d.fields.openTable? path, path⟩
  | .element path => do return ⟨← d.fields.openElement? path, path⟩

end Document

/-- A text without the mark that may stand in front of a document. -/
def dropMark : List Char → List Char
  | '\uFEFF' :: rest => rest
  | cs => cs

/-- The fields of a document. -/
def parse? (text : String) : Option Fields := do
  let statements ← Statement.readAll? (dropMark text.toList)
  let d ← statements.foldlM Document.add? Document.empty
  return d.fields

end Vitals.Toml
