/-
  How many cells of a terminal a line of text takes.

  A character takes one cell, two or none; a control character takes one. What a character adds
  depends on what stands behind it, so a line is measured from its end.
-/
import Vitals.Text.Width.Follower

namespace Vitals.Text

/-- Puts a character in front of those that were measured. -/
def extend (c : Char) (measured : Int × Behind) : Int × Behind :=
  let (cells, behind) := measured.2.take c
  (measured.1 + cells, behind)

/-- The cells of a line. -/
def width (line : String) : Nat := (line.toList.foldr extend (0, .of .plain)).1.toNat

end Vitals.Text
