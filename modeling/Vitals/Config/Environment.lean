/-
  The environment variables that settings may be given by.

  * `Variable`: the variables that are heeded.
  * `Environment`: the values of those that are set.
-/
namespace Vitals

/-- An environment variable that is heeded. -/
inductive Variable where
  | url | requestCapacity | level | format
  deriving DecidableEq, Repr

/-- The name of a variable. -/
def Variable.name : Variable → String
  | url => "TELEWIRE_URL"
  | requestCapacity => "TELEWIRE_REQUEST_LOG_CAPACITY"
  | level => "TELEWIRE_LOG_LEVEL"
  | format => "TELEWIRE_LOG_FORMAT"

/-- The values of the variables that are set. One that is set may be empty. -/
structure Environment where
  url : Option String
  requestCapacity : Option String
  level : Option String
  format : Option String
  deriving DecidableEq, Repr

/-- The value of a variable, if it is set. -/
def Environment.get? (env : Environment) : Variable → Option String
  | .url => env.url
  | .requestCapacity => env.requestCapacity
  | .level => env.level
  | .format => env.format

end Vitals
