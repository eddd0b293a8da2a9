/-
  What one step of a session does.

  * `ServerMessage.operation?`: the operation on the telemetry that a message of the server is.
  * `Feed.dispatch_eq`: a frame is either such an operation or nothing to the telemetry.
  * `Session.operation?`, `Session.request?`: what an input does to the telemetry, and what it makes
    a session ask for.
  * `Session.step_stepped`: a step does that, and no more.
  * `Session.Fits`: what a session asks of its machine; `startFault?_eq_none_iff`: that it has it.
  * `Session.begin_eq`: how a session starts; `begin_stepped`: this too is a step, from nothing.
-/
import Vitals.Proofs.Message
import Vitals.Proofs.Telemetry.Operation
import Vitals.Session.Timeline

namespace Vitals

open Wire

/-! ## Frames as operations -/

/-- The operation that a message of the server is in a mode, if it means something there. -/
def ServerMessage.operation? : Mode → ServerMessage → Option Operation
  | .stats, .stats batch => some (.stats batch)
  | .stats, .pong batch => some (.pong batch)
  | .requests, .pong batch => some (.clock batch.serverTime)
  | .requests, .recentRequests batch => some (.requests batch)
  | _, _ => none

namespace Feed

/-- The operation that a frame is in a mode. -/
def operation? (mode : Mode) (frame : List UInt8) : Option Operation :=
  match ServerMessage.decode frame with
  | .ok m => m.operation? mode
  | .error _ => none

/-- The state that a feed is left in by an operation, if there is one. -/
def perform (t : Telemetry) (op? : Option Operation) : Feed :=
  ⟨(t.performAll op?.toList).state, (t.performAll op?.toList).events⟩

theorem dispatch_state {σ : Type} (d : Dispatcher σ) (s : σ) (byte : UInt8)
    (payload : List UInt8) :
    (d.dispatch s (byte :: payload)).state = match d.handlerOfByte? byte with
      | none => s
      | some (_, handler) => (handler payload s).state := by
  unfold Dispatcher.dispatch
  dsimp only
  cases d.handlerOfByte? byte with
  | none => rfl
  | some found =>
    dsimp only
    split <;> rfl

/-- A handler performs the operation of the batch that it decodes. -/
theorem batchHandler_state {α : Type} [Record α] (apply : Telemetry → Batch α → Merge)
    (operation : Batch α → Operation) (h : ∀ t b, apply t b = Telemetry.perform t (operation b))
    (payload : List UInt8) (t : Telemetry) :
    (batchHandler apply payload ⟨t, []⟩).state =
      perform t ((Batch.decode.run payload).toOption.map operation) := by
  unfold batchHandler
  cases (Batch.decode (α := α)).run payload with
  | error e => rfl
  | ok batch =>
    show (⟨(apply t batch).state, (apply t batch).events⟩ : Feed) =
      ⟨(t.perform (operation batch)).state, (t.perform (operation batch)).events ++ []⟩
    rw [h, List.append_nil]

/-- **A frame is the operation that it is decoded to**, and otherwise it changes nothing. -/
theorem dispatch_eq (mode : Mode) (t : Telemetry) (frame : List UInt8) :
    ((dispatcher mode).dispatch ⟨t, []⟩ frame).state = perform t (operation? mode frame) := by
  rcases frame with _ | ⟨byte, payload⟩
  · rfl
  have hop : operation? mode (byte :: payload) =
      (ServerMessage.ofPayload byte payload).toOption.bind (·.operation? mode) := by
    unfold operation?
    show (match ServerMessage.ofPayload byte payload with
      | .ok m => m.operation? mode
      | .error _ => none) = _
    cases ServerMessage.ofPayload byte payload <;> rfl
  rw [dispatch_state, hop]
  unfold Dispatcher.handlerOfByte? ServerMessage.ofPayload
  rcases Opcode.ofCode? byte with _ | opcode
  · rfl
  cases mode with
  | stats =>
    cases opcode with
    | stats =>
      refine (batchHandler_state _ Operation.stats (fun _ _ => rfl) payload t).trans ?_
      cases (Batch.decode (α := Stat)).run payload <;> rfl
    | ping =>
      refine (batchHandler_state _ Operation.pong (fun _ _ => rfl) payload t).trans ?_
      cases (Batch.decode (α := Stat)).run payload <;> rfl
    | recentRequests => cases (Batch.decode (α := Request)).run payload <;> rfl
    | chart => cases (Batch.decode (α := ChartPoint)).run payload <;> rfl
    | createRule => cases Reader.word64.run payload <;> rfl
    | listRules => cases ServerMessage.decodeRules.run payload <;> rfl
    | olderStats | setActiveRules => rfl
  | requests =>
    cases opcode with
    | recentRequests =>
      refine (batchHandler_state _ Operation.requests (fun _ _ => rfl) payload t).trans ?_
      cases (Batch.decode (α := Request)).run payload <;> rfl
    | ping =>
      refine (batchHandler_state _ (fun b : Batch Stat => .clock b.serverTime) (fun _ _ => rfl)
        payload t).trans ?_
      cases (Batch.decode (α := Stat)).run payload <;> rfl
    | stats => cases (Batch.decode (α := Stat)).run payload <;> rfl
    | chart => cases (Batch.decode (α := ChartPoint)).run payload <;> rfl
    | createRule => cases Reader.word64.run payload <;> rfl
    | listRules => cases ServerMessage.decodeRules.run payload <;> rfl
    | olderStats | setActiveRules => rfl

theorem decode_of_operation?_stats {mode : Mode} {frame : List UInt8} {batch : Batch Stat}
    (h : operation? mode frame = some (.stats batch)) :
    ServerMessage.decode frame = .ok (.stats batch) := by
  unfold operation? at h
  split at h
  · rename_i m hm
    cases mode <;> cases m <;> cases h
    exact hm
  · cases h

theorem decode_of_operation?_requests {mode : Mode} {frame : List UInt8} {batch : Batch Request}
    (h : operation? mode frame = some (.requests batch)) :
    ServerMessage.decode frame = .ok (.recentRequests batch) := by
  unfold operation? at h
  split at h
  · rename_i m hm
    cases mode <;> cases m <;> cases h
    exact hm
  · cases h

end Feed

/-! ## Effects -/

namespace Effect

attribute [simp] frame? event?

/-- The frames sent, in order. -/
def frames (effects : List Effect) : List (List UInt8) := effects.filterMap frame?

/-- The events published, in order. -/
def events (effects : List Effect) : List Event := effects.filterMap event?

variable (e : Effect) (xs ys : List Effect)

@[simp] theorem frames_nil : frames [] = [] := rfl

@[simp] theorem events_nil : events [] = [] := rfl

@[simp] theorem frames_cons : frames (e :: xs) = e.frame?.toList ++ frames xs := by
  cases e <;> rfl

@[simp] theorem events_cons : events (e :: xs) = e.event?.toList ++ events xs := by
  cases e <;> rfl

@[simp] theorem frames_append : frames (xs ++ ys) = frames xs ++ frames ys := List.filterMap_append

@[simp] theorem events_append : events (xs ++ ys) = events xs ++ events ys := List.filterMap_append

@[simp] theorem frames_noted (notes : List Note) : frames (notes.map .noted) = [] := by
  induction notes with
  | nil => rfl
  | cons n notes ih => exact ih

@[simp] theorem events_noted (notes : List Note) : events (notes.map .noted) = [] := by
  induction notes with
  | nil => rfl
  | cons n notes ih => exact ih

@[simp] theorem frames_published (es : List Event) : frames (es.map .published) = [] := by
  induction es with
  | nil => rfl
  | cons e es ih => exact ih

@[simp] theorem events_published (es : List Event) : events (es.map .published) = es := by
  induction es with
  | nil => rfl
  | cons e es ih =>
    rw [List.map_cons, events_cons, ih]
    rfl

end Effect

/-! ## Steps -/

/-- A page before the history held is asked for once there is a history that may go on. -/
theorem Telemetry.olderRequest?_eq_some {t : Telemetry} {m : ClientMessage} :
    t.olderRequest? = some m ↔
      t.seeded = true ∧ t.exhausted = false ∧ m = .statsQuery t.statsPage.position .older := by
  unfold olderRequest?
  cases t.seeded <;> cases t.exhausted <;> simp [eq_comm]

namespace Session

/-- The operation that an input is on the telemetry of a session. -/
def operation? (s : Session) (input : Input) : Option Operation :=
  if s.running then
    match input with
    | .frame bytes => Feed.operation? s.mode bytes
    | .command (.setPaused paused) => some (.setPaused paused)
    | _ => none
  else none

/-- The request that an input makes a session send. -/
def request? (s : Session) (input : Input) : Option ClientMessage :=
  if s.running then
    match input, s.mode with
    | .probe, _ => some .ping
    | .tail, .requests => some s.telemetry.tailRequest
    | .command .loadOlder, _ => s.telemetry.olderRequest?
    | _, _ => none
  else none

/-- What a step comes to: an operation on the telemetry, whose events are published, and a request
that is sent unless the channel fails, and that the server understands. The end of the session may
be told of besides. -/
structure Stepped (s : Session) (r : Session × List Effect) (op? : Option Operation)
    (request? : Option ClientMessage) : Prop where
  mode : r.1.mode = s.mode
  telemetry : r.1.telemetry = (s.telemetry.performAll op?.toList).state
  events : ∃ es, (es = [] ∨ es = [.closed]) ∧
    Effect.events r.2 = (s.telemetry.performAll op?.toList).events ++ es
  frames : Effect.frames r.2 = [] ∨ ∃ m frame, request? = some m ∧ m.encode? = .ok frame ∧
    ClientMessage.decode frame = .ok m ∧ Effect.frames r.2 = [frame]

namespace Stepped

variable {s : Session} {r : Session × List Effect} {op : Operation}
  {request? : Option ClientMessage}

theorem of_none (h : Stepped s r none request?) :
    r.1.telemetry = s.telemetry ∧ (Effect.events r.2 = [] ∨ Effect.events r.2 = [.closed]) := by
  obtain ⟨es, hes, he⟩ := h.events
  exact ⟨h.telemetry, he ▸ hes⟩

theorem of_some (h : Stepped s r (some op) request?) :
    r.1.telemetry = (s.telemetry.perform op).state ∧ ∃ es, (es = [] ∨ es = [.closed]) ∧
      Effect.events r.2 = (s.telemetry.perform op).events ++ es := by
  obtain ⟨es, hes, he⟩ := h.events
  refine ⟨h.telemetry, es, hes, he.trans ?_⟩
  show (s.telemetry.perform op).events ++ [] ++ es = _
  rw [List.append_nil]

/-- **What operations keep, and the end of the session, a step keeps**, with the events that it
publishes. -/
theorem keeps {op? : Option Operation} {Q : Telemetry → List Event → Prop}
    (hperform : ∀ t past op, Q t past →
      Q (t.perform op).state (past ++ (t.perform op).events))
    (hclosed : ∀ t past, Q t past → Q t (past ++ [.closed]))
    (h : Stepped s r op? request?) {past : List Event} (hq : Q s.telemetry past) :
    Q r.1.telemetry (past ++ Effect.events r.2) := by
  have hop : Q r.1.telemetry (past ++ (s.telemetry.performAll op?.toList).events) := by
    rw [h.telemetry]
    cases op? with
    | none => simpa using hq
    | some op => simpa [Telemetry.performAll] using hperform _ _ op hq
  obtain ⟨es, hes, he⟩ := h.events
  rw [he, ← List.append_assoc]
  rcases hes with rfl | rfl
  · rwa [List.append_nil]
  · exact hclosed _ _ hop

end Stepped

variable (s : Session) (line : Line)

theorem stepped_note (level : Level) (message : String) (fields : List (String × FieldValue))
    (request? : Option ClientMessage) :
    Stepped s (s, [note level message fields]) none request? where
  mode := rfl
  telemetry := rfl
  events := ⟨[], Or.inl rfl, rfl⟩
  frames := Or.inl rfl

theorem stepped_nothing (request? : Option ClientMessage) : Stepped s (s, []) none request? where
  mode := rfl
  telemetry := rfl
  events := ⟨[], Or.inl rfl, rfl⟩
  frames := Or.inl rfl

theorem finish_effects :
    Effect.frames (s.finish line).2 = [] ∧ Effect.events (s.finish line).2 = [.closed] := by
  unfold finish
  cases line.closeFault <;> simp [stateEffects, note]

theorem stepped_finish (level : Level) (message : String) (fields : List (String × FieldValue))
    (request? : Option ClientMessage) :
    Stepped s ((s.finish line).1, note level message fields :: (s.finish line).2) none
      request? where
  mode := rfl
  telemetry := rfl
  events := ⟨[.closed], Or.inr rfl, (s.finish_effects line).2⟩
  frames := Or.inl (s.finish_effects line).1

/-- A request that the server understands is sent, or ends the session. -/
theorem stepped_send {m : ClientMessage} (hm : m.Bounded) :
    Stepped s (s.send line m) none (some m) := by
  unfold send
  cases he : m.encode? with
  | error e => exact s.stepped_note _ _ _ _
  | ok frame =>
    cases line.sendFault with
    | none =>
      have hdecode := ClientMessage.decode_of_encode? hm he
      exact ⟨rfl, rfl, ⟨[], Or.inl rfl, rfl⟩, Or.inr ⟨m, frame, rfl, he, hdecode, rfl⟩⟩
    | some e => exact s.stepped_finish line _ _ _ _

theorem stepped_receive (frame : List UInt8) :
    Stepped s (s.receive frame) (Feed.operation? s.mode frame) none := by
  have hd := Feed.dispatch_eq s.mode s.telemetry frame
  refine ⟨rfl, congrArg Feed.telemetry hd, ⟨[], Or.inl rfl, ?_⟩, Or.inl ?_⟩
  · simp only [receive, Effect.events_append, Effect.events_noted, Effect.events_published,
      List.nil_append, List.append_nil]
    exact congrArg Feed.outbox hd
  · simp [receive]

theorem stepped_setPaused (paused : Bool) :
    Stepped s (s.obey line (.setPaused paused)) (some (.setPaused paused)) none := by
  refine ⟨rfl, rfl, ⟨[], Or.inl rfl, ?_⟩, Or.inl ?_⟩
  · simp [obey, mergeEffects, Telemetry.performAll, Telemetry.perform]
  · simp [obey, mergeEffects]

/-- **A step performs the operation of its input, sends the request of its input, and no more.** -/
theorem step_stepped (input : Input) :
    Stepped s (s.step line input) (s.operation? input) (s.request? input) := by
  unfold step operation? request?
  cases s.running with
  | false => exact s.stepped_nothing _
  | true =>
    simp only [if_true]
    cases input with
    | frame bytes => exact s.stepped_receive bytes
    | failed e => exact s.stepped_finish line _ _ _ _
    | ended => exact s.stepped_finish line _ _ _ _
    | probe => exact s.stepped_send line trivial
    | tail =>
      cases hm : s.mode with
      | stats => exact s.stepped_nothing _
      | requests => exact s.stepped_send line trivial
    | command c =>
      cases c with
      | loadOlder =>
        simp only [obey]
        cases ho : s.telemetry.olderRequest? with
        | none => exact s.stepped_note _ _ _ _
        | some m =>
          obtain ⟨-, -, rfl⟩ := Telemetry.olderRequest?_eq_some.1 ho
          exact s.stepped_send line trivial
      | setPaused paused => exact s.stepped_setPaused line paused
      | close => exact s.stepped_finish line _ _ _ _
    | cancelled => exact s.stepped_finish line _ _ _ _

theorem operation?_stats {input : Input} {batch : Batch Stat}
    (h : s.operation? input = some (.stats batch)) :
    ∃ bytes, input = .frame bytes ∧ ServerMessage.decode bytes = .ok (.stats batch) := by
  unfold operation? at h
  split at h
  · cases input with
    | frame bytes => exact ⟨bytes, rfl, Feed.decode_of_operation?_stats h⟩
    | command c => cases c <;> cases h
    | _ => cases h
  · cases h

theorem operation?_requests {input : Input} {batch : Batch Request}
    (h : s.operation? input = some (.requests batch)) :
    ∃ bytes, input = .frame bytes ∧ ServerMessage.decode bytes = .ok (.recentRequests batch) := by
  unfold operation? at h
  split at h
  · cases input with
    | frame bytes => exact ⟨bytes, rfl, Feed.decode_of_operation?_requests h⟩
    | command c => cases c <;> cases h
    | _ => cases h
  · cases h

/-- What a session may ask for after its start. -/
theorem request?_cases {input : Input} {m : ClientMessage} (h : s.request? input = some m) :
    m = .ping ∨ (m = s.telemetry.tailRequest ∧ s.mode = .requests) ∨
      s.telemetry.olderRequest? = some m := by
  unfold request? at h
  split at h
  · split at h
    · cases h
      exact Or.inl rfl
    · cases h
      exact Or.inr (Or.inl ⟨rfl, ‹_›⟩)
    · exact Or.inr (Or.inr h)
    · cases h
  · cases h

theorem Stepped.prepend {s : Session} {r : Session × List Effect} {op? : Option Operation}
    {request? : Option ClientMessage} (h : Stepped s r op? request?) {effects : List Effect}
    (hf : Effect.frames effects = []) (he : Effect.events effects = []) :
    Stepped s (r.1, effects ++ r.2) op? request? where
  mode := h.mode
  telemetry := h.telemetry
  events := by
    rw [Effect.events_append, he]
    exact h.events
  frames := by
    rw [Effect.frames_append, hf]
    exact h.frames

/-! ## The start -/

/-- A session whose channel has just been opened. -/
def opened (settings : Settings) : Session :=
  ⟨settings.mode, ⟨.opened, 1⟩, true, .fresh settings.capacity⟩

theorem encode?_handshake (mode : Mode) : ∃ frame, mode.handshake.encode? = .ok frame := by
  cases mode <;> exact ⟨_, rfl⟩

theorem bounded_handshake (mode : Mode) : mode.handshake.Bounded := by cases mode <;> trivial

/-- A machine has room for the requests that are to be kept, its clock reaches the first deadlines
of both timers, and neither of them is without a period. -/
structure Fits (host : Host) (settings : Settings) : Prop where
  room : settings.capacity ≤ host.room
  probe : settings.probePeriod ≤ host.probeReach
  tail : settings.tailPeriod ≤ host.tailReach
  probe_pos : 0 < settings.probePeriod
  tail_pos : 0 < settings.tailPeriod

section Start

variable {host : Host} {settings : Settings} {endpoint : String} {line : Line} {s : Session}
  {failure : Failure}

theorem timerFault?_eq_none_iff {reach period : Nat} :
    timerFault? reach period = none ↔ period ≤ reach ∧ 0 < period := by
  unfold timerFault?
  split
  · next hreach => exact iff_of_false nofun (by omega)
  · next hreach =>
    split
    · next hzero => exact iff_of_false nofun (by omega)
    · next hzero => exact iff_of_true rfl (by omega)

/-- **Nothing keeps a session from its start iff it fits its machine.** -/
theorem startFault?_eq_none_iff : startFault? host settings = none ↔ Fits host settings := by
  unfold startFault?
  split
  · next hroom => exact iff_of_false nofun fun h => absurd h.room (by omega)
  · next hroom =>
    rw [Option.or_eq_none_iff, timerFault?_eq_none_iff, timerFault?_eq_none_iff]
    constructor
    · rintro ⟨⟨hprobe, hprobePos⟩, htail, htailPos⟩
      exact ⟨by omega, hprobe, htail, hprobePos, htailPos⟩
    · intro h
      exact ⟨⟨h.probe, h.probe_pos⟩, h.tail, h.tail_pos⟩

/-- A session that fits its machine is open once it is connected, which is noted, and sends the
request of its mode. -/
theorem begin_of_fits (h : Fits host settings) (endpoint : String) (line : Line) :
    let begun := begin host settings endpoint (.ok ()) line
    let r := (opened settings).send line settings.mode.handshake
    begun.outcome = .ok r.1 ∧ ∃ before after : List Note,
      begun.effects = (before.map .noted ++ .state .opened :: after.map .noted) ++ r.2 := by
  unfold begin
  simp only [Lifecycle.opened, Lifecycle.start, startFault?_eq_none_iff.2 h]
  exact ⟨rfl, [_], [_, _], rfl⟩

/-- Any other session stops short with its channel open, which is noted, and sends nothing. -/
theorem begin_of_startFault? (h : startFault? host settings = some failure) (endpoint : String)
    (line : Line) :
    let begun := begin host settings endpoint (.ok ()) line
    begun.outcome = .error failure ∧ begun.lifecycle.state = .opened ∧
      ∃ before after : List Note,
        begun.effects = before.map .noted ++ .state .opened :: after.map .noted := by
  unfold begin
  simp only [Lifecycle.opened, Lifecycle.start, h]
  exact ⟨trivial, trivial, [_], [_, _], rfl⟩

theorem fits_of_begin (h : (begin host settings endpoint (.ok ()) line).outcome = .ok s) :
    Fits host settings := by
  rw [← startFault?_eq_none_iff]
  cases hfault : startFault? host settings with
  | none => rfl
  | some failure =>
    have hfailed := (begin_of_startFault? hfault endpoint line).1
    cases h.symm.trans hfailed

theorem begin_eq (h : (begin host settings endpoint (.ok ()) line).outcome = .ok s) :
    let r := (opened settings).send line settings.mode.handshake
    s = r.1 ∧ ∃ before after : List Note, (begin host settings endpoint (.ok ()) line).effects =
      (before.map .noted ++ .state .opened :: after.map .noted) ++ r.2 := by
  obtain ⟨ho, heffects⟩ := begin_of_fits (fits_of_begin h) endpoint line
  exact ⟨Except.ok.inj (h.symm.trans ho), heffects⟩

/-- **A session starts from nothing**, with the request of its mode. -/
theorem begin_stepped (h : (begin host settings endpoint (.ok ()) line).outcome = .ok s) :
    ∃ s₀ : Session, s₀.mode = settings.mode ∧ s₀.telemetry = .fresh settings.capacity ∧
      Stepped s₀ (s, (begin host settings endpoint (.ok ()) line).effects) none
        (some settings.mode.handshake) := by
  obtain ⟨rfl, before, after, he⟩ := begin_eq h
  refine ⟨opened settings, rfl, rfl, ?_⟩
  rw [he]
  exact (stepped_send _ line (bounded_handshake settings.mode)).prepend (by simp) (by simp)

end Start

end Session

end Vitals
