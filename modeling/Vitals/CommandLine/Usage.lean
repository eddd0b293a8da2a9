/-
  Arguments read by the grammar.

  Arguments are taken one by one. The value of an option may be attached to it or be the next
  argument, unless that looks like an option; behind `--` every argument is an operand. Values are
  judged when the next option or operand begins, or at the end. So a fault that shows in an argument
  itself comes before a fault in the value behind it.

  * `UsageError`: why arguments are refused, or what they ask for in place of a command.
  * `Scan`: what is known after some arguments.
  * `Scan.ofArguments`: what is known after all of them.
-/
import Vitals.CommandLine.Grammar
import Vitals.Decimal.Reading

namespace Vitals.CommandLine

/-- Why arguments are refused, or what they ask for in place of a command. -/
inductive UsageError where
  | unknownArgument (arg : String)
  | unknownCommand (name : String)
  /-- A value is missing, or empty where it must not be. -/
  | missingValue (name : String)
  /-- A value is none of those allowed. -/
  | notAllowed (name value : String)
  /-- A value is no number, or out of range. -/
  | badNumber (name value : String)
  | missingOperand (name : String)
  /-- An option was given twice. -/
  | repeated (name : String)
  /-- A flag was given a value. -/
  | needlessValue (name : String)
  /-- A command with others below it was given without one. -/
  | commandMissing (path : List String)
  | help (path : List String)
  | version
  deriving DecidableEq, Repr

/-- A value that was judged. -/
inductive Argument where
  | text (s : String)
  | count (n : Nat)
  | shell (s : Shell)
  deriving DecidableEq, Repr

/-- The number that a value makes, if it is one. -/
def number? (signed : Bool) : List Char → Option Nat
  | '-' :: cs => if signed then (Decimal.natural? cs).bind fun n => if n = 0 then some 0 else none
    else none
  | cs => Decimal.natural? (Decimal.dropPlus cs)

/-- Judges a value. -/
def ValueKind.read (kind : ValueKind) (name value : String) : Except UsageError Argument :=
  match kind with
  | .text => .ok (.text value)
  | .path => if value = "" then .error (.missingValue name) else .ok (.text value)
  | .count max signed =>
    match number? signed value.toList with
    | some n => if n ≤ max then .ok (.count n) else .error (.badNumber name value)
    | none => .error (.badNumber name value)
  | .shell =>
    match Shell.ofName? value with
    | some found => .ok (.shell found)
    | none => .error (.notAllowed name value)

/-- Values that were taken and are still to be judged. -/
inductive Pending where
  | nothing
  /-- An option with the value behind it, if that was taken. -/
  | option (name : String) (kind : ValueKind) (value : Option String)
  | operand (o : Operand) (values : List String)
  deriving DecidableEq, Repr

/-- What is known after some arguments. -/
structure Scan where
  /-- The path of the command so far. -/
  path : List String
  /-- The options and operands given so far, with their values. -/
  given : List (String × List Argument)
  pending : Pending
  /-- Whether `--` was taken. -/
  escaped : Bool
  deriving DecidableEq, Repr

namespace Scan

/-- No argument of a command is taken yet. -/
def start (path : List String) : Scan := ⟨path, [], .nothing, false⟩

/-- The values of a name, if it was given. -/
def values? (s : Scan) (name : String) : Option (List Argument) := s.given.lookup name

/-- The options of the command. -/
def options (s : Scan) : List Opt := ((spec? s.path).map (·.options)).getD []

/-- The operand of the command. -/
def operand? (s : Scan) : Option Operand := (spec? s.path).bind (·.operand)

/-- Adds an option, which must not have been given. -/
def give (s : Scan) (name : String) (values : Except UsageError (List Argument)) :
    Except UsageError Scan :=
  if (s.values? name).isSome then .error (.repeated name)
  else do return { s with given := s.given ++ [(name, ← values)], pending := .nothing }

/-- Adds values of the operand to those given before. -/
def giveOperand (s : Scan) (name : String) (values : List Argument) : Scan :=
  let before := (s.values? name).getD []
  let others := s.given.filter fun (k, _) => k ≠ name
  { s with given := others ++ [(name, before ++ values)], pending := .nothing }

/-- Judges what is pending. -/
def settle (s : Scan) : Except UsageError Scan :=
  match s.pending with
  | .nothing => .ok s
  | .option name _ none => .error (.missingValue name)
  | .option name kind (some value) => s.give name ((kind.read name value).map ([·]))
  | .operand o values => do return s.giveOperand o.name (← values.mapM (o.kind.read o.name))

/-! ## Options -/

/-- Takes an option, with the value attached to it if there is one. -/
def takeOption (s : Scan) (o : Opt) (attached : Option String) : Except UsageError Scan :=
  match o.role, attached with
  | .value kind .., none => do return { ← s.settle with pending := .option o.long kind none }
  | .value kind .., some value => do (← s.settle).give o.long ((kind.read o.long value).map ([·]))
  | _, some _ => .error (.needlessValue o.long)
  | .flag, none => do (← s.settle).give o.long (.ok [])
  | .help, none => do
    let s ← s.settle
    .error (.help s.path)
  | .version, none => do
    let _ ← s.settle
    .error .version

/-- Takes what stands behind two hyphens: a name, with a value behind an equals sign or without. -/
def takeLong (s : Scan) (cs : List Char) : Except UsageError Scan :=
  let name := String.ofList (cs.takeWhile (· ≠ '='))
  let attached := match cs.dropWhile (· ≠ '=') with
    | [] => none
    | _ :: value => some (String.ofList value)
  match s.options.find? fun o => o.long = name with
  | some o => s.takeOption o attached
  | none => .error (.unknownArgument s!"--{name}")

/-- Takes what stands behind one hyphen: flags, and at last an option with its value. -/
def takeShort (s : Scan) : List Char → Except UsageError Scan
  | [] => .ok s
  | c :: cs =>
    match s.options.find? fun o => o.short = some c with
    | none => .error (.unknownArgument s!"-{c}")
    | some o =>
      match o.role, cs with
      | .value .., '=' :: value => s.takeOption o (some (String.ofList value))
      | .value .., [] => s.takeOption o none
      | .value .., value => s.takeOption o (some (String.ofList value))
      | _, cs => do (← s.takeOption o none).takeShort cs

/-! ## Operands -/

/-- The fault of an argument that no place is left for. -/
def strayFault (s : Scan) (arg : String) : UsageError :=
  let names := namesBelow s.path
  if names.isEmpty || (s.escaped && names.contains arg) then .unknownArgument arg
  else .unknownCommand arg

/-- Takes a value of the operand. -/
def takeOperand (s : Scan) (arg : String) : Except UsageError Scan :=
  match s.operand?, s.pending with
  | none, _ => .error (s.strayFault arg)
  | some o, .operand o' values =>
    if o.repeated then .ok { s with pending := .operand o' (values ++ [arg]) }
    else .error (s.strayFault arg)
  | some o, _ =>
    if !o.repeated && (s.values? o.name).isSome then .error (s.strayFault arg)
    else do return { ← s.settle with pending := .operand o [arg] }

/-! ## All arguments -/

/-- What a command that shows help finds behind a path. The help about itself is the last it finds.
-/
def helpFor (path : List String) : List String → UsageError
  | [] => .help path
  | name :: names =>
    if (spec? (path ++ [name])).isSome then helpFor (path ++ [name]) names
    else if name = helpName ∧ !(below path).isEmpty then
      match names with
      | [] => .help (path ++ [helpName])
      | stray :: _ => .unknownCommand stray
    else .unknownCommand name

/-- Takes an argument that is no name of a command. -/
def take (s : Scan) (arg : String) : Except UsageError Scan :=
  if s.escaped then s.takeOperand arg
  else
    match arg.toList with
    | ['-', '-'] => .ok { s with escaped := true }
    | '-' :: '-' :: cs => s.takeLong cs
    | '-' :: c :: cs => s.takeShort (c :: cs)
    | _ =>
      match s.pending with
      | .option name kind none => .ok { s with pending := .option name kind (some arg) }
      | _ => s.takeOperand arg

/-- Takes arguments in order. -/
def takeAll (s : Scan) : List String → Except UsageError Scan
  | [] => .ok s
  | arg :: args =>
    if !s.escaped && (namesBelow s.path).contains arg then
      if arg = helpName then .error (helpFor s.path args)
      else (start (s.path ++ [arg])).takeAll args
    else do (← s.take arg).takeAll args

/-- Judges what is pending at the end, and whether anything is missing. -/
def finish (s : Scan) : Except UsageError Scan := do
  let s ← s.settle
  if !(below s.path).isEmpty then .error (.commandMissing s.path)
  else
    match s.operand? with
    | some o =>
      if o.required && (s.values? o.name).isNone then .error (.missingOperand o.name) else .ok s
    | none => .ok s

/-- What is known after all arguments. -/
def ofArguments (args : List String) : Except UsageError Scan := do
  (← (start []).takeAll args).finish

end Scan

end Vitals.CommandLine
