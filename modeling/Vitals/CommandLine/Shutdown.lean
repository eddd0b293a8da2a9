/-
  Shutdown on a signal.

  * `Shutdown.ofSignal`: what comes of waiting for a signal.
-/
import Vitals.Journal

namespace Vitals.CommandLine

/-- A signal that ends a session. -/
inductive Signal where
  | interrupt | terminate
  deriving DecidableEq, Repr

/-- The name of a signal. -/
def Signal.name : Signal → String
  | interrupt => "SIGINT" | terminate => "SIGTERM"

/-- What comes of waiting for a signal. -/
structure Shutdown where
  /-- Whether the session was cancelled, which ends the wait. -/
  cancelled : Bool
  notes : List Note
  deriving DecidableEq, Repr

/-- A signal is noted and cancels the session; without one the wait goes on. -/
def Shutdown.ofSignal : Option Signal → Shutdown
  | none => ⟨false, []⟩
  | some s =>
    ⟨true, [.log ⟨.info, "telewire::cli::session", s!"Received {s.name}, shutting down...", []⟩]⟩

end Vitals.CommandLine
