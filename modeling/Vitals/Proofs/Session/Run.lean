/-
  Runs of a session.

  A run gives every input a line of its own, since the channel may behave otherwise each time.

  * `Session.follow`: takes in some inputs, each over its line; `run_eq_follow` ties it to
    `Session.run`, over a line that does not change.
  * `follow_append`: a run is cut anywhere into two.
  * `follow_induction`, `follow_events`: what a step keeps, with its effects or its events, a run
    keeps.
  * `follow_over`: a session that is over takes in nothing.
  * `telemetry_follow`: one that is not has merged all that it took in.
-/
import Vitals.Proofs.Session.Step

namespace Vitals

namespace Session

/-- Takes in some inputs in order, each over the line beside it. -/
def follow (s : Session) : List (Line × Input) → Session × List Effect
  | [] => (s, [])
  | (line, input) :: rest =>
    let r := s.step line input
    let r' := r.1.follow rest
    (r'.1, r.2 ++ r'.2)

variable (s : Session)

@[simp] theorem follow_nil : s.follow [] = (s, []) := rfl

theorem follow_cons (line : Line) (input : Input) (rest : List (Line × Input)) :
    s.follow ((line, input) :: rest) =
      (((s.step line input).1.follow rest).1,
        (s.step line input).2 ++ ((s.step line input).1.follow rest).2) := rfl

theorem follow_append (xs ys : List (Line × Input)) :
    s.follow (xs ++ ys) =
      (((s.follow xs).1.follow ys).1, (s.follow xs).2 ++ ((s.follow xs).1.follow ys).2) := by
  induction xs generalizing s with
  | nil => rfl
  | cons x xs ih =>
    obtain ⟨line, input⟩ := x
    rw [List.cons_append, follow_cons, follow_cons, ih, List.append_assoc]

/-- Over a line that does not change. -/
theorem run_eq_follow (line : Line) (inputs : List Input) :
    s.run line inputs = s.follow (inputs.map (line, ·)) := by
  induction inputs generalizing s with
  | nil => rfl
  | cons input inputs ih =>
    rw [List.map_cons, follow_cons, ← ih]
    rfl

/-- **What every step keeps, a run keeps.** The property may speak of all that was given out so far.
-/
theorem follow_induction {P : Session → List Effect → Prop}
    (hstep : ∀ (s : Session) past line input, P s past →
      P (s.step line input).1 (past ++ (s.step line input).2))
    {past : List Effect} (h : P s past) (xs : List (Line × Input)) :
    P (s.follow xs).1 (past ++ (s.follow xs).2) := by
  induction xs generalizing s past with
  | nil => simpa using h
  | cons x xs ih =>
    obtain ⟨line, input⟩ := x
    have := ih _ (hstep s past line input h)
    rwa [follow_cons, ← List.append_assoc]

/-- So it is with a property that speaks of the events alone. -/
theorem follow_events {P : Session → List Event → Prop}
    (hstep : ∀ (s : Session) past line input, P s past →
      P (s.step line input).1 (past ++ Effect.events (s.step line input).2))
    {past : List Event} (h : P s past) (xs : List (Line × Input)) :
    P (s.follow xs).1 (past ++ Effect.events (s.follow xs).2) := by
  have hstep' : ∀ (u : Session) effects line input, P u (past ++ Effect.events effects) →
      P (u.step line input).1 (past ++ Effect.events (effects ++ (u.step line input).2)) := by
    intro u effects line input hu
    rw [Effect.events_append, ← List.append_assoc]
    exact hstep u _ line input hu
  have hstart : P s (past ++ Effect.events []) := by simpa using h
  exact follow_induction s hstep' hstart xs

/-! ## Sessions that are over -/

variable {s : Session}

theorem step_over (h : s.running = false) (line : Line) (input : Input) :
    s.step line input = (s, []) := by
  unfold step
  rw [h]
  rfl

/-- A session that is over takes in nothing. -/
theorem follow_over (h : s.running = false) (xs : List (Line × Input)) : s.follow xs = (s, []) := by
  induction xs with
  | nil => rfl
  | cons x xs ih =>
    obtain ⟨line, input⟩ := x
    rw [follow_cons, step_over h, ih]
    rfl

/-- A session that is not over has never been. -/
theorem running_of_follow {xs : List (Line × Input)} (h : (s.follow xs).1.running = true) :
    s.running = true := by
  by_contra hs
  rw [follow_over (eq_false_of_ne_true hs)] at h
  exact hs h

end Session

/-! ## What a run merges -/

/-- The operation that an input is in a mode. -/
def Input.operation? (mode : Mode) : Input → Option Operation
  | .frame bytes => Feed.operation? mode bytes
  | .command (.setPaused paused) => some (.setPaused paused)
  | _ => none

/-- The operations that some inputs are in a mode. -/
def Input.operations (mode : Mode) (xs : List (Line × Input)) : List Operation :=
  xs.filterMap (·.2.operation? mode)

namespace Session

theorem operation?_of_running {s : Session} (h : s.running = true) (input : Input) :
    s.operation? input = input.operation? s.mode := by
  unfold operation?
  rw [if_pos h]
  cases input with
  | command c => cases c <;> rfl
  | _ => rfl

/-- **As long as a session is not over, all that it takes in is merged.** -/
theorem telemetry_follow {s : Session} {xs : List (Line × Input)}
    (h : (s.follow xs).1.running = true) :
    (s.follow xs).1.telemetry =
      (s.telemetry.performAll (Input.operations s.mode xs)).state := by
  induction xs generalizing s with
  | nil => rfl
  | cons x xs ih =>
    obtain ⟨line, input⟩ := x
    have hstep := s.step_stepped line input
    have hops : Input.operations s.mode ((line, input) :: xs) =
        (s.operation? input).toList ++ Input.operations s.mode xs := by
      rw [operation?_of_running (running_of_follow h)]
      unfold Input.operations
      cases ho : input.operation? s.mode <;> simp [ho]
    rw [follow_cons] at h ⊢
    rw [hops, Telemetry.state_performAll_append, ← hstep.telemetry, ← hstep.mode]
    exact ih h

end Session

end Vitals
