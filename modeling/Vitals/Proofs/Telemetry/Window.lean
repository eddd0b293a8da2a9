/-
  The window of the request log, after any run of operations.

  * `Operation.logged`: the entries that arrive in a run while it is not paused.
  * `Window t past events`: the request log of `t` is what the entries `past` make of it, and
    `events` tell of the same entries.
  * `Window.perform`, `Window.performAll`: operations keep this.
  * `window_eq_highs`: the window holds the newest highs of all entries logged, cut to the
    capacity. How the entries were cut into batches does not show.
-/
import Vitals.Proofs.Telemetry.Cursor
import Vitals.Proofs.Telemetry.Outcome

namespace Vitals

namespace Operation

/-- The log entries of an operation, which are lost while the copy is paused. -/
def entries (paused : Bool) : Operation → List Request
  | requests batch => if paused then [] else batch.records
  | _ => []

/-- The log entries that arrive in a run while it is not paused, in order. -/
def logged (paused : Bool) : List Operation → List Request
  | [] => []
  | op :: ops => op.entries paused ++ logged (op.pausedAfter paused) ops

end Operation

/-- The request log of a copy is what the entries `past` make of it: the cursor has passed them, the
window holds the newest of those let through, and the events tell of all of those. -/
structure Window (t : Telemetry) (past : List Request) (events : List Event) : Prop where
  tail : t.requestTail = Cursor.start.advanceAll (past.map (·.endMicros))
  requests : t.requests = (Cursor.start.fresh (·.endMicros) past).reverse.take t.capacity
  told : (Event.logs events).flatMap List.reverse = Cursor.start.fresh (·.endMicros) past

namespace Window

variable {t u : Telemetry} {past : List Request} {events : List Event}

theorem fresh (capacity : Nat) : Window (.fresh capacity) [] [] :=
  ⟨rfl, by simp [Telemetry.fresh], rfl⟩

/-- What leaves the request log alone keeps the window. -/
theorem congr (h : Window t past events) (hs : SameLog t u) {es : List Event}
    (he : Event.NoLog es) : Window u past (events ++ es) := by
  obtain ⟨h1, h2, h3⟩ := hs
  refine ⟨h3.trans h.tail, by rw [h2, h1]; exact h.requests, ?_⟩
  rw [Event.logs_append, he, List.append_nil]
  exact h.told

theorem stale (h : Window t past events) {rs : List Request}
    (hr : t.requestTail.fresh (·.endMicros) rs = []) : Window t (past ++ rs) events := by
  have hf : Cursor.start.fresh (·.endMicros) (past ++ rs) =
      Cursor.start.fresh (·.endMicros) past := by
    rw [Cursor.fresh_append, ← h.tail, hr, List.append_nil]
  have hp : (t.requestTail.advanceAll (rs.map (·.endMicros))).position =
      t.requestTail.position := by
    rw [Cursor.position_advanceAll, hr]
    rfl
  refine ⟨?_, by rw [hf]; exact h.requests, by rw [hf]; exact h.told⟩
  rw [List.map_append, Cursor.advanceAll_append, ← h.tail]
  exact congrArg Cursor.mk hp.symm

theorem applyLog (h : Window t past events) (hp : t.paused = false) (rs : List Request) :
    Window (t.applyLog rs).state (past ++ rs) (events ++ (t.applyLog rs).events) := by
  rcases t.applyLog_cases rs with ⟨hno, hm⟩ | ⟨-, -, hs, he⟩
  · rw [hm, List.append_nil]
    exact h.stale (hno.resolve_left (by simp [hp]))
  · have hf : Cursor.start.fresh (·.endMicros) (past ++ rs) =
        Cursor.start.fresh (·.endMicros) past ++ t.requestTail.fresh (·.endMicros) rs := by
      rw [Cursor.fresh_append, ← h.tail]
    rw [hs, he]
    refine ⟨?_, ?_, ?_⟩
    · dsimp only
      rw [List.map_append, Cursor.advanceAll_append, ← h.tail]
    · dsimp only
      -- A window that was cut before is cut to the same entries again.
      rw [hf, List.reverse_append, h.requests, List.take_append, List.take_append, List.take_take]
      congr 2
      omega
    · rw [hf, Event.logs_append, List.flatMap_append, h.told]
      simp

theorem perform_other (h : Window t past events) {op : Operation}
    (hop : ∀ batch, op ≠ .requests batch) :
    Window (t.perform op).state (past ++ op.entries t.paused)
      (events ++ (t.perform op).events) := by
  have he : op.entries t.paused = [] := by
    cases op with
    | requests batch => exact absurd rfl (hop batch)
    | _ => rfl
  obtain ⟨hs, hn⟩ := t.sameLog_perform hop
  rw [he, List.append_nil]
  exact h.congr hs hn

/-- **An operation adds the entries that it logs.** -/
theorem perform (h : Window t past events) (op : Operation) :
    Window (t.perform op).state (past ++ op.entries t.paused)
      (events ++ (t.perform op).events) := by
  cases op with
  | requests batch =>
    obtain ⟨hs, hn⟩ := t.sameLog_observe batch.serverTime
    have ho := h.congr hs hn
    cases hp : t.paused with
    | false =>
      have := ho.applyLog hp batch.records
      rw [List.append_assoc] at this
      exact this
    | true =>
      rcases (t.observe batch.serverTime).applyLog_cases batch.records with ⟨-, hm⟩ | ⟨hp', -⟩
      · simp only [Telemetry.perform, Telemetry.mergeRequests, Telemetry.applyBatch, hm,
          Operation.entries, if_true, List.append_nil]
        exact ho
      · exact absurd (hp.symm.trans hp') (by decide)
  | stats batch | pong batch | setPaused paused | clock millis =>
    exact h.perform_other fun _ => Operation.noConfusion

theorem performAll (h : Window t past events) (ops : List Operation) :
    Window (t.performAll ops).state (past ++ Operation.logged t.paused ops)
      (events ++ (t.performAll ops).events) := by
  induction ops generalizing t past events with
  | nil => simpa [Operation.logged] using h
  | cons op ops ih =>
    have := ih (h.perform op)
    rw [Telemetry.paused_perform, List.append_assoc, List.append_assoc] at this
    exact this

theorem pairwise (h : Window t past events) :
    t.requests.Pairwise fun a b => b.endMicros < a.endMicros := by
  rw [h.requests]
  exact (List.pairwise_reverse.2 (Cursor.pairwise_fresh _ _)).sublist (List.take_sublist _ _)

theorem position (h : Window t past events) :
    t.requestTail.position =
      ((Cursor.start.fresh (·.endMicros) past).getLast?.map (·.endMicros)).getD 0 := by
  rw [h.tail, Cursor.position_advanceAll]
  rfl

end Window

/-- **The window after any run holds the newest highs of the entries logged**, newest first and cut
to the capacity, and the cursor stands at the newest one. Two runs that log the same entries agree,
however these were cut into batches and whatever else happened. -/
theorem window_eq_highs (capacity : Nat) (ops : List Operation) :
    let t := ((Telemetry.fresh capacity).performAll ops).state
    let highs := Cursor.highs Request.endMicros 0 (Operation.logged false ops)
    t.requests = highs.reverse.take capacity ∧
      t.requestTail.position = (highs.getLast?.map Request.endMicros).getD 0 ∧
      t.requests.Pairwise (fun a b => b.endMicros < a.endMicros) ∧
      ∀ ops', Operation.logged false ops' = Operation.logged false ops →
        ((Telemetry.fresh capacity).performAll ops').state.requests = t.requests ∧
        ((Telemetry.fresh capacity).performAll ops').state.requestTail = t.requestTail := by
  intro t highs
  have key : ∀ ops, Window ((Telemetry.fresh capacity).performAll ops).state
      (Operation.logged false ops) ((Telemetry.fresh capacity).performAll ops).events := by
    intro ops
    exact (Window.fresh capacity).performAll ops
  have hc : ∀ ops, ((Telemetry.fresh capacity).performAll ops).state.capacity = capacity :=
    Telemetry.capacity_performAll _
  have hw := key ops
  have hf : Cursor.start.fresh Request.endMicros (Operation.logged false ops) = highs :=
    Cursor.fresh_eq_highs _ _
  refine ⟨?_, ?_, hw.pairwise, fun ops' heq => ?_⟩
  · rw [hw.requests, hf, hc ops]
  · rw [hw.position, hf]
  · have hw' := key ops'
    rw [heq] at hw'
    refine ⟨?_, hw'.tail.trans hw.tail.symm⟩
    rw [hw'.requests, hw.requests, hc ops, hc ops']

end Vitals
