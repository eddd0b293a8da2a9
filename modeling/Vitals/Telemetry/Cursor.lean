/-
  High-water marks.

  A `Cursor` is the largest key merged so far in one stream. A record is new when its key lies
  strictly above the cursor, and then moves the cursor up to its key.

  * `Cursor.accepts`, `Cursor.advance`: one key.
  * `Cursor.fresh`: the new ones of some records, each judged after those before it.
  * `Cursor.advanceAll`: the cursor after some keys.
-/
namespace Vitals

/-- The largest key merged so far. -/
structure Cursor where
  position : UInt64
  deriving DecidableEq, Repr, Inhabited

namespace Cursor

/-- The cursor of a stream of which nothing is merged. -/
def start : Cursor := ⟨0⟩

/-- Whether a key is new. -/
def accepts (c : Cursor) (key : UInt64) : Bool := c.position < key

/-- Moves up to a key that is new. -/
def advance (c : Cursor) (key : UInt64) : Cursor := if c.accepts key then ⟨key⟩ else c

/-- The order of two cursors is that of their keys. -/
def compare (c d : Cursor) : Ordering := compareOfLessAndEq c.position d.position

/-- The records with a new key, in order. -/
def fresh {α : Type} (key : α → UInt64) : Cursor → List α → List α
  | _, [] => []
  | c, x :: xs =>
    if c.accepts (key x) then x :: fresh key (c.advance (key x)) xs else fresh key c xs

/-- The cursor after some keys. -/
def advanceAll (c : Cursor) (keys : List UInt64) : Cursor := keys.foldl advance c

end Cursor

end Vitals
