/-
  The two HTTP notions that a request log entry names by a byte.

  * `Method`: nine methods, numbered from zero; other bytes name none.
  * `Version`: a byte that names no version is read as `unknown`.
-/
namespace Vitals.Http

/-- A request method. -/
inductive Method where
  | get | post | put | delete | head | options | connect | patch | trace
  deriving DecidableEq, Repr, Inhabited

namespace Method

/-- The byte of a method. -/
def code : Method → UInt8
  | get => 0 | post => 1 | put => 2 | delete => 3 | head => 4
  | options => 5 | connect => 6 | patch => 7 | trace => 8

/-- The method of a byte. -/
def ofCode? (b : UInt8) : Option Method :=
  match b.toNat with
  | 0 => some get | 1 => some post | 2 => some put | 3 => some delete | 4 => some head
  | 5 => some options | 6 => some connect | 7 => some patch | 8 => some trace
  | _ => none

/-- The name of a method. -/
def name : Method → String
  | get => "GET" | post => "POST" | put => "PUT" | delete => "DELETE" | head => "HEAD"
  | options => "OPTIONS" | connect => "CONNECT" | patch => "PATCH" | trace => "TRACE"

@[simp] theorem ofCode?_code (m : Method) : ofCode? m.code = some m := by cases m <;> rfl

end Method

/-- A protocol version. -/
inductive Version where
  | unknown | http10 | http11 | http20
  deriving DecidableEq, Repr, Inhabited

namespace Version

/-- The byte of a version. -/
def code : Version → UInt8
  | unknown => 0 | http10 => 1 | http11 => 2 | http20 => 3

/-- The version of a byte. -/
def ofCode (b : UInt8) : Version :=
  match b.toNat with
  | 1 => http10 | 2 => http11 | 3 => http20 | _ => unknown

/-- How a version is shown to people. -/
def display : Version → String
  | unknown => "UNKNOWN" | http10 => "HTTP/1.0" | http11 => "HTTP/1.1" | http20 => "HTTP/2.0"

/-- How a version is written in data. -/
def name : Version → String
  | unknown => "Unknown" | http10 => "Http10" | http11 => "Http11" | http20 => "Http20"

@[simp] theorem ofCode_code (v : Version) : ofCode v.code = v := by cases v <;> rfl

end Version

end Vitals.Http
