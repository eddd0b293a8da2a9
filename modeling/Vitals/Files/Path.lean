/-
  Paths.

  A path is what stands between its slashes. Empty parts mean nothing, nor do single dots, except
  for one that a relative path starts with. Two dots mean the directory above; what they take back
  is only known from the files themselves, so a path keeps them.

  * `Path`, `Path.ofText`
  * `Path.lineage`: a path and those above it.
-/
namespace Vitals.Files

/-- A path by its parts. -/
structure Path where
  /-- Whether it starts at the root. -/
  absolute : Bool
  /-- What stands between the slashes, behind the one at the start. -/
  parts : List String
  deriving DecidableEq, Repr

namespace Path

/-- The path of a text. -/
def ofText (text : String) : Path :=
  match text.splitOn "/" with
  | "" :: part :: rest => ⟨true, part :: rest⟩
  | parts => ⟨false, parts⟩

/-- The text of a path. -/
def text (p : Path) : String := (if p.absolute then "/" else "") ++ "/".intercalate p.parts

/-- How many bytes a path has. -/
def size (p : Path) : Nat := p.text.utf8ByteSize

/-- The longest path, in bytes. -/
def maxSize : Nat := 4095

/-- The longest name, in bytes. -/
def maxNameSize : Nat := 255

/-- The parts that lead somewhere, or to where they start. -/
def steps (p : Path) : List String := p.parts.filter (· ≠ "")

/-- Whether a path ends in a slash behind its last name, and so can only name a directory. -/
def endsInSlash (p : Path) : Bool := p.parts.getLast? = some ""

/-- Whether a part counts, given whether the path is absolute and the parts before it. -/
def counts (absolute : Bool) (part : String) (before : List String) : Bool :=
  part ≠ "" && (part ≠ "." || (before.isEmpty && !absolute))

/-- The paths that end in the parts that count, the longest first, of parts that are given last
first. The root is above all absolute paths. -/
def lineageOf (absolute : Bool) : List String → List Path
  | [] => if absolute then [⟨true, []⟩] else []
  | part :: before =>
    let above := lineageOf absolute before
    if counts absolute part before then ⟨absolute, (part :: before).reverse⟩ :: above else above

/-- A path and those above it, up to the root or to where it starts. -/
def lineage (p : Path) : List Path := lineageOf p.absolute p.parts.reverse

/-- The paths above a path. -/
def above (p : Path) : List Path := p.lineage.drop 1

end Path

end Vitals.Files
