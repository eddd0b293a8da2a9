/-
  Invocations among files: the outcome of some arguments, and the files after it.
-/
import Vitals.CommandLine.Invocation
import Vitals.Files.Tree

namespace Vitals.CommandLine

open Files

/-- Writes the file of an outcome, if it has one. A file that cannot be written fails the command,
and what was to be shown is not. -/
def Outcome.settle (o : Outcome) (t : Tree) : Outcome × Tree :=
  match o.write with
  | none => (o, t)
  | some f =>
    match t.save (.ofText f.path) f.text with
    | .ok after => (o, after)
    | .error fault => (.failed "" fault.message, t)

/-- The outcome of some arguments, and the files after it. -/
def invoke (t : Tree) (args : List String) (env : Environment) : Outcome × Tree :=
  match Command.ofArguments args env with
  | .error e => (.ofUsage env e, t)
  | .ok command => (command.outcome 0 ⟨t.look (.ofText command.path), env⟩).settle t

end Vitals.CommandLine
