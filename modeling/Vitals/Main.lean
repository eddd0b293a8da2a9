/-
  The program: arguments, environment and files in; text, a file and an exit code out.
-/
import Vitals.CommandLine.Invocation
import Vitals.Files.Path

namespace Vitals.CommandLine

/-- The environment variables that are heeded. -/
def readEnvironment : IO Environment := do
  return {
    url := ← IO.getEnv Variable.url.name
    requestCapacity := ← IO.getEnv Variable.requestCapacity.name
    level := ← IO.getEnv Variable.level.name
    format := ← IO.getEnv Variable.format.name }

/-- The fault behind an error of the operating system, by its number. Some calls negate it. -/
def faultOf? : IO.Error → Option FileFault
  | .noFileOrDirectory _ code _ | .alreadyExists _ code _ | .inappropriateType _ code _
  | .invalidArgument _ code _ =>
    match (min code (-code)).toNat with
    | 2 => some .missing
    | 17 => some .occupied
    | 20 => some .notDirectory
    | 21 => some .isDirectory
    | 36 => some .nameTooLong
    | _ => none
  | _ => none

/-- What is found at a path. A path that cannot be followed leads to nothing; what is there and
cannot be read counts as a directory. -/
def lookAt (path : String) : IO FileContent := do
  try
    return .bytes (← IO.FS.readBinFile path).toList
  catch e =>
    match faultOf? e with
    | some .missing | some .notDirectory | some .nameTooLong => return .absent
    | _ => return .directory

/-- Makes a directory that may be there already. -/
def needDirectory (p : Files.Path) : IO Unit := do
  try IO.FS.createDir p.text
  catch e => unless (← lookAt p.text) = .directory do throw e

/-- Makes the first of some directories, each of which lies in the next one; those in which it lies
are made first if they are missing. -/
def makeDirectories : List Files.Path → IO Unit
  | [] => return
  | p :: above => do
    try needDirectory p
    catch e =>
      if faultOf? e ≠ some .missing then throw e
      makeDirectories above
      needDirectory p

/-- Writes a file and makes its directories first. -/
def writeOut (f : FileWrite) : IO Unit := do
  makeDirectories (Files.Path.ofText f.path).above
  IO.FS.writeFile f.path f.text

/-- An id for a rule that was given none. -/
def drawId : IO UInt64 := do
  return UInt64.ofNat (← IO.rand 0 max64)

/-- Shows an outcome and returns the exit code. -/
def present (o : Outcome) : IO UInt32 := do
  (← IO.getStdout).putStr o.output
  for line in o.report.toList ++ o.advice.toList do
    IO.eprintln line
  return UInt32.ofNat o.code

/-- Writes the file of an outcome, if it has one, and shows the outcome. -/
def carryOut (o : Outcome) : IO UInt32 := do
  match o.write with
  | none => present o
  | some f =>
    try
      writeOut f
      present o
    catch e => present (.failed "" (((faultOf? e).map (·.message)).getD (toString e)))

end Vitals.CommandLine

open Vitals.CommandLine in
/-- Runs the command that the arguments ask for. -/
def main (args : List String) : IO UInt32 := do
  let env ← readEnvironment
  match Command.ofArguments args env with
  | .error e => present (.ofUsage env e)
  | .ok command => carryOut (command.outcome (← drawId) ⟨← lookAt command.path, env⟩)
