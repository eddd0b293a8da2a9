/-
  How the statements of a document build its tables.

  A value may be added where none is. A path of keys leads from table to table and makes those that
  are missing; whether it may pass a table depends on how that came to be. A path through tables of
  one name leads through the last of them.

  * `Fields.put?`: adds a value under a dotted key.
  * `Fields.openTable?`, `Fields.openElement?`: what a header does.
  * `Fields.within?`: changes the table that a header has opened.
-/
import Vitals.Toml.Value

namespace Vitals.Toml

/-- Whether a path passes a table. `via` says how the path makes tables; `last` that the table is
the one to which the path leads. A dotted key leads to no table but those that dotted keys have
made. -/
def Origin.admits (o via : Origin) (last : Bool) : Bool :=
  match via, o with
  | _, .inline => false
  | .dotted, .header => false
  | .dotted, .implied => !last
  | _, _ => true

namespace Fields

/-- Changes the last of some tables. -/
def alterLast? (f : Fields → Option Fields) : List Fields → Option (List Fields)
  | [] => none
  | [t] => (f t).map fun t => [t]
  | t :: ts => (alterLast? f ts).map (t :: ·)

/-- Changes what stands under a path. -/
def alter? (via : Origin) (f : Option Value → Option Value) : List String → Fields → Option Fields
  | [], _ => none
  | [k], fields => (f (fields.get? k)).map fun v => fields.set k v
  | k :: next :: rest, fields =>
    let last := rest.isEmpty
    match fields.get? k with
    | none => (alter? via f (next :: rest) []).map fun t => fields.set k (.table via t)
    | some (.table o t) =>
      if o.admits via last then
        (alter? via f (next :: rest) t).map fun t => fields.set k (.table o t)
      else none
    | some (.tables ts) =>
      if via = .dotted ∧ last then none
      else (alterLast? (alter? via f (next :: rest)) ts).map fun ts => fields.set k (.tables ts)
    | some _ => none

/-- Adds a value under a dotted key. -/
def put? (path : List String) (v : Value) (fields : Fields) : Option Fields :=
  fields.alter? .dotted (fun
    | none => some v
    | some _ => none) path

/-- Opens a table by its header. It must be new, or only implied so far. -/
def openTable? (path : List String) (fields : Fields) : Option Fields :=
  fields.alter? .implied (fun
    | none => some (.table .header [])
    | some (.table .implied t) => some (.table .header t)
    | some _ => none) path

/-- Opens one more table of a name by its header. -/
def openElement? (path : List String) (fields : Fields) : Option Fields :=
  fields.alter? .implied (fun
    | none => some (.tables [[]])
    | some (.tables ts) => some (.tables (ts ++ [[]]))
    | some _ => none) path

/-- Changes the table under the path of a header. -/
def within? (f : Fields → Option Fields) : List String → Fields → Option Fields
  | [], fields => f fields
  | k :: rest, fields =>
    match fields.get? k with
    | some (.table o t) => (within? f rest t).map fun t => fields.set k (.table o t)
    | some (.tables ts) => (alterLast? (within? f rest) ts).map fun ts => fields.set k (.tables ts)
    | _ => none

end Fields

end Vitals.Toml
