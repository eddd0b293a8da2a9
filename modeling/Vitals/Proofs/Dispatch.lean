/-
  What becomes of a frame.

  * `Dispatcher.dispatch_cases`: a frame is empty, or has no handler, or goes to one.
  * `Dispatcher.handled_iff`: a frame is handled iff its handler takes the payload.
  * `Handler.Atomic`: a handler that decodes the whole payload before it touches the state.
  * `Dispatcher.state_of_unhandled`: among such handlers a frame that is not handled leaves the
    state as it was.
-/
import Vitals.Dispatch

namespace Vitals

theorem Opcode.ofCode?_eq_some {byte : UInt8} {opcode : Opcode} :
    ofCode? byte = some opcode ↔ byte = opcode.code := by
  constructor
  · intro h
    unfold ofCode? at h
    -- Every byte that has an opcode is known by its number.
    split at h <;> cases h <;> exact UInt8.toNat_inj.1 ‹_›
  · rintro rfl
    exact ofCode?_code opcode

theorem Outcome.isHandled_iff {o : Outcome} :
    o.isHandled = true ↔ ∃ opcode, o = .handled opcode := by
  cases o <;> simp [isHandled]

/-- What becomes of a frame with this opcode, after the reply of its handler. -/
def Reply.outcome {σ : Type} (r : Reply σ) (opcode : Opcode) : Outcome :=
  match r.refusal with
  | none => .handled opcode
  | some e => .malformed e

theorem Reply.outcome_eq_handled {σ : Type} {r : Reply σ} {opcode opcode' : Opcode} :
    r.outcome opcode = .handled opcode' ↔ r.refusal = none ∧ opcode = opcode' := by
  unfold outcome
  cases r.refusal <;> simp

/-- A handler decodes the whole payload before it touches the state. -/
def Handler.Atomic {σ : Type} (handler : Handler σ) : Prop :=
  ∀ payload s, (handler payload s).refusal ≠ none → (handler payload s).state = s

namespace Dispatcher

variable {σ : Type} {d : Dispatcher σ} {opcode : Opcode} {handler : Handler σ}

theorem handlerOfByte?_eq_some {byte : UInt8} :
    d.handlerOfByte? byte = some (opcode, handler) ↔
      byte = opcode.code ∧ d.handler? opcode = some handler := by
  unfold handlerOfByte?
  rw [Option.bind_eq_some_iff]
  constructor
  · rintro ⟨found, hbyte, h⟩
    obtain ⟨_, hhandler, h⟩ := Option.map_eq_some_iff.1 h
    cases h
    exact ⟨Opcode.ofCode?_eq_some.1 hbyte, hhandler⟩
  · rintro ⟨rfl, h⟩
    exact ⟨opcode, Opcode.ofCode?_code opcode, by rw [h]; rfl⟩

theorem register_eq_some {opcode' : Opcode} {handler' : Handler σ} :
    (d.register opcode handler).handler? opcode' = some handler' ↔
      opcode' = opcode ∧ handler' = handler ∨
        opcode' ≠ opcode ∧ d.handler? opcode' = some handler' := by
  unfold register
  dsimp only
  by_cases h : opcode' = opcode <;> simp [h, eq_comm]

/-- A frame goes to the handler of its first byte. -/
theorem dispatch_of_handler (h : d.handler? opcode = some handler) (s : σ)
    (payload : List UInt8) :
    (d.dispatch s (opcode.code :: payload)).state = (handler payload s).state ∧
      (d.dispatch s (opcode.code :: payload)).outcome = (handler payload s).outcome opcode := by
  have hbyte : d.handlerOfByte? opcode.code = some (opcode, handler) :=
    handlerOfByte?_eq_some.2 ⟨rfl, h⟩
  cases hr : (handler payload s).refusal <;> simp [dispatch, hbyte, hr, Reply.outcome]

/-- **A frame is empty, or has no handler, or goes to one.** -/
theorem dispatch_cases (d : Dispatcher σ) (s : σ) (frame : List UInt8) :
    ((d.dispatch s frame).outcome.isHandled = false ∧ (d.dispatch s frame).state = s) ∨
    ∃ opcode payload handler, frame = opcode.code :: payload ∧ d.handler? opcode = some handler ∧
      (d.dispatch s frame).state = (handler payload s).state ∧
      (d.dispatch s frame).outcome = (handler payload s).outcome opcode := by
  rcases frame with _ | ⟨byte, payload⟩
  · exact Or.inl ⟨rfl, rfl⟩
  rcases hbyte : d.handlerOfByte? byte with _ | ⟨opcode, handler⟩
  · refine Or.inl ?_
    simp only [dispatch, hbyte, Outcome.isHandled, and_self]
  · obtain ⟨rfl, h⟩ := handlerOfByte?_eq_some.1 hbyte
    exact Or.inr ⟨opcode, payload, handler, rfl, h, dispatch_of_handler h s payload⟩

/-- **A frame is handled iff its handler takes the payload.** -/
theorem handled_iff {s s' : σ} {frame : List UInt8} :
    (d.dispatch s frame).outcome = .handled opcode ∧ (d.dispatch s frame).state = s' ↔
      ∃ payload handler, frame = opcode.code :: payload ∧ d.handler? opcode = some handler ∧
        (handler payload s).refusal = none ∧ (handler payload s).state = s' := by
  constructor
  · rintro ⟨hout, rfl⟩
    rcases d.dispatch_cases s frame with ⟨hno, -⟩ | ⟨opcode', payload, handler, hf, hh, hs, ho⟩
    · rw [hout] at hno
      cases hno
    · obtain ⟨hr, rfl⟩ := Reply.outcome_eq_handled.1 (ho.symm.trans hout)
      exact ⟨payload, handler, hf, hh, hr, hs.symm⟩
  · rintro ⟨payload, handler, rfl, hh, hr, rfl⟩
    obtain ⟨hs, ho⟩ := dispatch_of_handler hh s payload
    exact ⟨ho.trans (Reply.outcome_eq_handled.2 ⟨hr, rfl⟩), hs⟩

/-- Every handler of a table is atomic. -/
def Atomic (d : Dispatcher σ) : Prop :=
  ∀ opcode handler, d.handler? opcode = some handler → Handler.Atomic handler

theorem atomic_empty : (empty : Dispatcher σ).Atomic := nofun

theorem Atomic.register (hd : d.Atomic) (opcode : Opcode) (h : Handler.Atomic handler) :
    (d.register opcode handler).Atomic := by
  intro opcode' handler' h'
  rcases register_eq_some.1 h' with ⟨-, rfl⟩ | ⟨-, h'⟩
  · exact h
  · exact hd opcode' handler' h'

/-- **A frame that atomic handlers do not handle leaves the state as it was.** -/
theorem state_of_unhandled (hd : d.Atomic) {s : σ} {frame : List UInt8}
    (h : (d.dispatch s frame).outcome.isHandled = false) : (d.dispatch s frame).state = s := by
  rcases d.dispatch_cases s frame with ⟨-, hs⟩ | ⟨opcode, payload, handler, -, hh, hs, ho⟩
  · exact hs
  · refine hs.trans (hd opcode handler hh payload s fun hr => ?_)
    rw [ho.trans (Reply.outcome_eq_handled.2 ⟨hr, rfl⟩)] at h
    cases h

end Dispatcher

end Vitals
