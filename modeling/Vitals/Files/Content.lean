/-
  What is found at the path of a file, and why a file cannot be read or written.
-/
namespace Vitals

/-- Why a file or directory cannot be read, made or written. -/
inductive FileFault where
  | notText
  /-- A name on the way stands for nothing. -/
  | missing
  | isDirectory
  /-- A file stands where a directory is needed, on the way or at its end. -/
  | notDirectory
  /-- A file stands where a directory is to be made. -/
  | occupied
  /-- A name on the way, or the path as a whole, is longer than names or paths can be. -/
  | nameTooLong
  deriving DecidableEq, Repr

/-- The wording of a file fault. -/
def FileFault.message : FileFault → String
  | notText => "stream did not contain valid UTF-8"
  | missing => "No such file or directory (os error 2)"
  | isDirectory => "Is a directory (os error 21)"
  | notDirectory => "Not a directory (os error 20)"
  | occupied => "File exists (os error 17)"
  | nameTooLong => "File name too long (os error 36)"

/-- What is found at the path of a file. -/
inductive FileContent where
  | absent
  | directory
  | bytes (b : List UInt8)
  deriving DecidableEq, Repr

end Vitals
