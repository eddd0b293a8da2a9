/-
  Styled text on a terminal.

  * `Style`: what a piece of text can be given.
  * `Style.paint`: a text between the sequence that sets a style and the one that resets it.
-/
namespace Vitals.Text

/-- A style of text. -/
inductive Style where
  | bold | dimmed | red | green | yellow | cyan
  deriving DecidableEq, Repr

namespace Style

/-- The number of a style in terminal sequences. -/
def code : Style → Nat
  | bold => 1 | dimmed => 2 | red => 31 | green => 32 | yellow => 33 | cyan => 36

/-- The character that starts a terminal sequence. -/
def escape : Char := '\x1b'

/-- A text in a style; without `color`, the text alone. -/
def paint (color : Bool) (style : Style) (s : String) : String :=
  if color then s!"{escape}[{style.code}m{s}{escape}[0m" else s

end Style

end Vitals.Text
