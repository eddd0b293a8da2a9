/-
  How a session ends.

  * `Effect.signals`: the effects that belong to the opening or the closing of a session.
  * `Session.Ends`: an input that ends a session. `step_of_ends`: it makes the session finish, and
    does nothing else; `step_of_not_ends`: with any other the session goes on.
  * `Session.Standing`: the invariant. A session is open or has shut down, and its signals say so.
  * `Session.EndsFirst`: the first input to end a session; a session that is over had one.
  * `session_shutdown`: all this, for every connection, line and order of inputs, and that a session
    which does not fit its machine never gets to its end.
-/
import Vitals.Config
import Vitals.Proofs.Session.Timeline
import Vitals.Proofs.Telemetry.Replay

namespace Vitals

/-! ## Signals -/

namespace Effect

/-- The state of the lifecycle that an effect publishes. -/
@[simp] def state? : Effect → Option ConnectionState
  | state s => some s
  | _ => none

/-- The states published, in order. -/
def states (effects : List Effect) : List ConnectionState := effects.filterMap state?

/-- Whether an effect belongs to the opening or the closing of a session. -/
@[simp] def isSignal : Effect → Bool
  | state _ | closed | published .closed => true
  | _ => false

/-- The effects that belong to the opening or the closing of a session. -/
def signals (effects : List Effect) : List Effect := effects.filter isSignal

variable (e : Effect) (xs ys : List Effect)

@[simp] theorem signals_nil : signals [] = [] := rfl

@[simp] theorem signals_cons :
    signals (e :: xs) = if e.isSignal then e :: signals xs else signals xs := List.filter_cons

@[simp] theorem signals_append : signals (xs ++ ys) = signals xs ++ signals ys :=
  List.filter_append _ _

@[simp] theorem signals_noted (notes : List Note) : signals (notes.map .noted) = [] := by
  induction notes with
  | nil => rfl
  | cons n notes ih => exact ih

theorem signals_published {events : List Event} (h : .closed ∉ events) :
    signals (events.map .published) = [] := by
  refine List.filter_eq_nil_iff.2 fun x hx => ?_
  obtain ⟨e, he, rfl⟩ := List.mem_map.1 hx
  cases e with
  | closed => exact absurd he h
  | _ => simp

/-- States are signals, and so are the end of the channel and the news of it. -/
theorem states_signals : states (signals xs) = states xs := by
  unfold states signals
  rw [List.filterMap_filter]
  congr 1
  funext x
  cases x with
  | published e => cases e <;> rfl
  | _ => rfl

theorem count_closed_signals : (signals xs).count .closed = xs.count .closed :=
  List.count_filter rfl

theorem count_published_closed :
    (events xs).count .closed = (signals xs).count (.published .closed) := by
  unfold signals
  rw [List.count_filter rfl]
  induction xs with
  | nil => rfl
  | cons x xs ih =>
    rw [events_cons, List.count_append, ih, List.count_cons]
    cases x with
    | published e => cases e <;> simp [Nat.add_comm]
    | _ => simp

end Effect

namespace Session

variable {s : Session} {line : Line} {input : Input} {m : ClientMessage}

/-! ## The inputs that end a session -/

/-- An input that ends a session: its owner or its channel does, or a request cannot be sent. -/
inductive Ends (s : Session) (line : Line) : Input → Prop
  | cancelled : Ends s line .cancelled
  | close : Ends s line (.command .close)
  | failed {e : Channel.Error} : Ends s line (.failed e)
  | ended : Ends s line .ended
  | unsent {input : Input} {m : ClientMessage} {e : Channel.Error} :
      s.request? input = some m → line.sendFault = some e → Ends s line input

/-- A session finishes with a note of the reason, and does nothing else. -/
def Finishes (s : Session) (line : Line) (r : Session × List Effect) : Prop :=
  ∃ reason, r = ((s.finish line).1, .noted reason :: (s.finish line).2)

/-- A session goes on as before, without a signal. -/
structure GoesOn (s : Session) (r : Session × List Effect) : Prop where
  running : r.1.running = s.running
  lifecycle : r.1.lifecycle = s.lifecycle
  signals : Effect.signals r.2 = []

theorem send_of_line (h : line.sendFault = none) {frame : List UInt8}
    (hm : m.encode? = .ok frame) (s : Session) :
    s.send line m = (s, [.sent frame, sentNote m]) := by
  unfold send
  rw [hm, h]

theorem send_of_fault {e : Channel.Error} (h : line.sendFault = some e) {frame : List UInt8}
    (hm : m.encode? = .ok frame) (s : Session) : s.Finishes line (s.send line m) := by
  unfold send
  rw [hm, h]
  exact ⟨_, rfl⟩

theorem encode?_of_request? (h : s.request? input = some m) : ∃ frame, m.encode? = .ok frame := by
  rcases s.request?_cases h with rfl | ⟨rfl, -⟩ | ho
  · exact ⟨_, rfl⟩
  · exact ⟨_, rfl⟩
  · obtain ⟨-, -, rfl⟩ := Telemetry.olderRequest?_eq_some.1 ho
    exact ⟨_, rfl⟩

/-- An input that makes a session ask for something does nothing else. -/
theorem step_of_request? (h : s.request? input = some m) : s.step line input = s.send line m := by
  unfold request? at h
  unfold step
  split at h
  · rw [if_pos ‹_›]
    split at h
    · cases h
      rfl
    · cases h
      simp [*]
    · simp only [obey, h]
    · cases h
  · cases h

/-- **An input that ends a session makes it finish.** -/
theorem step_of_ends (hs : s.running = true) (h : s.Ends line input) :
    s.Finishes line (s.step line input) := by
  cases h with
  | unsent hr hf =>
    obtain ⟨frame, hm⟩ := encode?_of_request? hr
    rw [step_of_request? hr]
    exact send_of_fault hf hm s
  | cancelled | close | failed | ended =>
    simp only [step, hs, if_true]
    exact ⟨_, rfl⟩

/-- **With any other input the session goes on.** -/
theorem step_of_not_ends (hs : s.running = true) (h : ¬ s.Ends line input) :
    s.GoesOn (s.step line input) := by
  cases hr : s.request? input with
  | some m =>
    have hf : line.sendFault = none := by
      cases hf : line.sendFault with
      | none => rfl
      | some e => exact absurd (.unsent hr hf) h
    obtain ⟨frame, hm⟩ := encode?_of_request? hr
    rw [step_of_request? hr, send_of_line hf hm]
    exact ⟨rfl, rfl, rfl⟩
  | none =>
    have hops := s.telemetry.closed_not_mem_performAll (s.operation? input).toList
    unfold operation? at hops
    unfold request? at hr
    simp only [step, hs, if_true] at hr hops ⊢
    cases input with
    | frame bytes =>
      have hd := Feed.dispatch_eq s.mode s.telemetry bytes
      refine ⟨rfl, rfl, ?_⟩
      simp only [receive, hd, Effect.signals_append, Effect.signals_noted, List.nil_append]
      exact Effect.signals_published hops
    | probe => cases hr
    | tail =>
      cases hm : s.mode with
      | stats => exact ⟨rfl, rfl, rfl⟩
      | requests => simp [hm] at hr
    | command c =>
      cases c with
      | loadOlder =>
        simp only [obey, hr]
        exact ⟨rfl, rfl, rfl⟩
      | setPaused paused =>
        have hops : .closed ∉ (s.telemetry.setPaused paused).events := by
          simpa [Telemetry.performAll, Telemetry.perform] using hops
        refine ⟨rfl, rfl, ?_⟩
        simp only [obey, mergeEffects, Effect.signals_append, Effect.signals_noted,
          List.nil_append]
        exact Effect.signals_published hops
      | close => exact absurd .close h
    | failed e => exact absurd .failed h
    | ended => exact absurd .ended h
    | cancelled => exact absurd .cancelled h

/-! ## How a session stands -/

/-- What a session has given out until it has shut down: one signal after the other, and nothing
behind them. -/
structure ShutDown (effects : List Effect) : Prop where
  signals : Effect.signals effects = [.state .opened, .state .closed, .closed, .published .closed]
  last : ∃ front, effects = front ++ [.published .closed]

/-- A session is open or has shut down, and what it has given out says so. -/
inductive Standing (s : Session) (effects : List Effect) : Prop
  | ongoing : s.running = true → s.lifecycle.state = .opened →
      Effect.signals effects = [.state .opened] → Standing s effects
  | ended : s.running = false → s.lifecycle.state = .closed → ShutDown effects → Standing s effects

theorem finish_signals (s : Session) (line : Line) :
    (s.finish line).1.running = false ∧ (s.finish line).1.lifecycle.state = .closed ∧
      Effect.signals (s.finish line).2 = [.state .closed, .closed, .published .closed] ∧
      ∃ front, (s.finish line).2 = front ++ [.published .closed] := by
  have hclosed : s.lifecycle.closed.1.state = .closed := by
    unfold Lifecycle.closed
    split
    · assumption
    · rfl
  refine ⟨rfl, hclosed, ?_, ⟨_, rfl⟩⟩
  unfold finish stateEffects
  cases line.closeFault <;> simp [hclosed, note]

variable {effects : List Effect}

theorem Finishes.standing {r : Session × List Effect} (h : s.Finishes line r)
    (he : Effect.signals effects = [.state .opened]) : Standing r.1 (effects ++ r.2) := by
  obtain ⟨reason, rfl⟩ := h
  obtain ⟨hs, hl, hsig, front, hlast⟩ := s.finish_signals line
  refine .ended hs hl ⟨?_, effects ++ .noted reason :: front, ?_⟩
  · have : Effect.signals (.noted reason :: (s.finish line).2) =
        Effect.signals (s.finish line).2 := rfl
    rw [Effect.signals_append, he, this, hsig]
    rfl
  · simp [hlast]

theorem Standing.shutDown (h : Standing s effects) (hs : s.running = false) :
    s.lifecycle.state = .closed ∧ ShutDown effects := by
  cases h with
  | ongoing hon => exact absurd (hs.symm.trans hon) (by decide)
  | ended _ hl he => exact ⟨hl, he⟩

/-- **Every step keeps this.** -/
theorem Standing.step (h : Standing s effects) (line : Line) (input : Input) :
    Standing (s.step line input).1 (effects ++ (s.step line input).2) := by
  cases h with
  | ongoing hs hl he =>
    by_cases hends : s.Ends line input
    · exact (step_of_ends hs hends).standing he
    · have hon := step_of_not_ends hs hends
      refine .ongoing (hon.running.trans hs) (hon.lifecycle ▸ hl) ?_
      rw [Effect.signals_append, he, hon.signals]
      rfl
  | ended hs hl he =>
    rw [step_over hs, List.append_nil]
    exact .ended hs hl he

theorem Standing.follow (h : Standing s effects) (xs : List (Line × Input)) :
    Standing (s.follow xs).1 (effects ++ (s.follow xs).2) :=
  follow_induction s (fun _ _ line input h => h.step line input) h xs

/-! ## The first end -/

variable {before xs : List (Line × Input)}

/-- The first input to end a session is one after the inputs `before`. -/
structure EndsFirst (s : Session) (before : List (Line × Input)) (line : Line) (input : Input) :
    Prop where
  ends : (s.follow before).1.Ends line input
  first : ∀ earlier line input later, before = earlier ++ (line, input) :: later →
    ¬ (s.follow earlier).1.Ends line input

/-- What ends a session is not among the inputs that leave it open. -/
theorem not_ends_of_running (h : (s.follow before).1.running = true)
    {earlier later : List (Line × Input)} (hcut : before = earlier ++ (line, input) :: later) :
    ¬ (s.follow earlier).1.Ends line input := by
  intro hends
  rw [hcut, follow_append] at h
  obtain ⟨reason, hr⟩ := step_of_ends (running_of_follow h) hends
  rw [follow_cons, hr] at h
  exact absurd (running_of_follow h) Bool.false_ne_true

/-- **A session that is over had a first end**, after inputs that left it open. -/
theorem exists_endsFirst (hs : s.running = true) (h : (s.follow xs).1.running = false) :
    ∃ before line input after, xs = before ++ (line, input) :: after ∧
      (s.follow before).1.running = true ∧ s.EndsFirst before line input := by
  suffices hend : ∃ before line input after, xs = before ++ (line, input) :: after ∧
      (s.follow before).1.running = true ∧ (s.follow before).1.Ends line input by
    obtain ⟨before, line, input, after, hcut, hb, hends⟩ := hend
    exact ⟨before, line, input, after, hcut, hb, hends, fun _ _ _ _ => not_ends_of_running hb⟩
  induction xs generalizing s with
  | nil => exact absurd (hs.symm.trans h) (by decide)
  | cons x xs ih =>
    obtain ⟨line, input⟩ := x
    by_cases hends : s.Ends line input
    · exact ⟨[], line, input, xs, rfl, hs, hends⟩
    · have hs' := (step_of_not_ends hs hends).running.trans hs
      obtain ⟨before, line', input', after, rfl, hb, hends'⟩ := ih hs' h
      exact ⟨(line, input) :: before, line', input', after, rfl, hb, hends'⟩

/-- One of some inputs ends a session. -/
def EndsWithin (s : Session) (xs : List (Line × Input)) : Prop :=
  ∃ before line input after, xs = before ++ (line, input) :: after ∧
    (s.follow before).1.Ends line input

/-- **A session is over iff something has ended it.** -/
theorem running_follow_eq_false_iff (hs : s.running = true) :
    (s.follow xs).1.running = false ↔ s.EndsWithin xs := by
  constructor
  · intro h
    obtain ⟨before, line, input, after, hcut, -, hfirst⟩ := exists_endsFirst hs h
    exact ⟨before, line, input, after, hcut, hfirst.ends⟩
  · rintro ⟨before, line, input, after, hcut, hends⟩
    exact eq_false_of_ne_true fun h => not_ends_of_running h hcut hends

/-- **From its end on a session neither sends nor merges anything.** -/
theorem follow_of_ends {after : List (Line × Input)} (hb : (s.follow before).1.running = true)
    (h : (s.follow before).1.Ends line input) :
    let r := s.follow (before ++ (line, input) :: after)
    r.1.telemetry = (s.follow before).1.telemetry ∧
      Effect.frames r.2 = Effect.frames (s.follow before).2 ∧
      Effect.events r.2 = Effect.events (s.follow before).2 ++ [.closed] := by
  intro r
  obtain ⟨reason, hr⟩ := step_of_ends hb h
  obtain ⟨hf, he⟩ := (s.follow before).1.finish_effects line
  have hover : ((s.follow before).1.finish line).1.running = false := rfl
  have hr' : r = (((s.follow before).1.finish line).1,
      (s.follow before).2 ++ .noted reason :: ((s.follow before).1.finish line).2) := by
    simp only [r, follow_append, follow_cons, hr, follow_over hover, List.append_nil]
  rw [hr']
  refine ⟨rfl, ?_, ?_⟩
  · simp [hf]
  · simp [he]

/-! ## The start -/

variable {host : Host} {settings : Settings} {endpoint : String}

theorem Standing.begin (h : (begin host settings endpoint (.ok ()) line).outcome = .ok s) :
    Standing s (begin host settings endpoint (.ok ()) line).effects := by
  obtain ⟨rfl, before, after, he⟩ := begin_eq h
  obtain ⟨frame, hm⟩ := encode?_handshake settings.mode
  rw [he]
  cases hf : line.sendFault with
  | none =>
    rw [send_of_line hf hm]
    exact .ongoing rfl rfl (by simp [sentNote, note])
  | some e => exact (send_of_fault hf hm _).standing (by simp)

/-- A session whose first request is sent is open. -/
theorem begin_of_line (h : (begin host settings endpoint (.ok ()) line).outcome = .ok s)
    (hf : line.sendFault = none) :
    s = opened settings ∧ ∃ frame, settings.mode.handshake.encode? = .ok frame ∧
      Effect.frames (begin host settings endpoint (.ok ()) line).effects = [frame] := by
  obtain ⟨hs, before, after, he⟩ := begin_eq h
  obtain ⟨frame, hm⟩ := encode?_handshake settings.mode
  rw [send_of_line hf hm] at hs he
  exact ⟨hs, frame, hm, by simp [he, sentNote, note]⟩

/-- A session whose first request cannot be sent is over at once. -/
theorem begin_of_fault (h : (begin host settings endpoint (.ok ()) line).outcome = .ok s)
    (hf : line.sendFault ≠ none) :
    s.running = false ∧ s.telemetry = .fresh settings.capacity ∧
      Effect.frames (begin host settings endpoint (.ok ()) line).effects = [] ∧
      Effect.events (begin host settings endpoint (.ok ()) line).effects = [.closed] := by
  obtain ⟨rfl, before, after, he⟩ := begin_eq h
  obtain ⟨frame, hm⟩ := encode?_handshake settings.mode
  obtain ⟨e, hf⟩ := Option.ne_none_iff_exists'.1 hf
  obtain ⟨reason, hr⟩ := send_of_fault hf hm (opened settings)
  obtain ⟨hframes, hevents⟩ := (opened settings).finish_effects line
  rw [hr] at he ⊢
  exact ⟨rfl, rfl, by simp [he, hframes], by simp [he, hevents]⟩

/-- **A session is over iff its first request could not be sent, or something has ended it.** -/
theorem over_iff_of_begin (h : (begin host settings endpoint (.ok ()) line).outcome = .ok s)
    (xs : List (Line × Input)) :
    (s.follow xs).1.running = false ↔ line.sendFault ≠ none ∨ s.EndsWithin xs := by
  by_cases hf : line.sendFault = none
  · obtain ⟨rfl, -⟩ := begin_of_line h hf
    simpa [hf] using running_follow_eq_false_iff rfl
  · have hover := (begin_of_fault h hf).1
    simpa [hf, follow_over hover] using hover

/-- A session whose first request was sent has merged all that came before its first end. -/
theorem endsFirst_of_begin (h : (begin host settings endpoint (.ok ()) line).outcome = .ok s)
    (hf : line.sendFault = none) (hover : (s.follow xs).1.running = false) :
    ∃ before line' input after, xs = before ++ (line', input) :: after ∧
      s.EndsFirst before line' input ∧
      Effect.frames (s.follow xs).2 = Effect.frames (s.follow before).2 ∧
      Effect.events (s.follow xs).2 = Effect.events (s.follow before).2 ++ [.closed] ∧
      (s.follow xs).1.telemetry = ((Telemetry.fresh settings.capacity).performAll
        (Input.operations settings.mode before)).state := by
  obtain ⟨rfl, -⟩ := begin_of_line h hf
  obtain ⟨before, line', input, after, rfl, hb, hfirst⟩ := exists_endsFirst rfl hover
  obtain ⟨ht, hframes, hevents⟩ := follow_of_ends hb hfirst.ends
  exact ⟨before, line', input, after, rfl, hfirst, hframes, hevents,
    ht.trans (telemetry_follow hb)⟩

/-- A session that stops short has told of nothing but its opening. -/
theorem begin_silent {failure : Failure} (h : startFault? host settings = some failure)
    (endpoint : String) (line : Line) :
    let begun := begin host settings endpoint (.ok ()) line
    Effect.states begun.effects = [.opened] ∧ Effect.events begun.effects = [] ∧
      Effect.frames begun.effects = [] ∧ .closed ∉ begun.effects := by
  intro begun
  obtain ⟨-, -, before, after, he⟩ := begin_of_startFault? h endpoint line
  have hsignals : Effect.signals begun.effects = [.state .opened] := by simp [begun, he]
  refine ⟨?_, by simp [begun, he], by simp [begun, he], by simp [begun, he]⟩
  rw [← Effect.states_signals, hsignals]
  rfl

/-- What a session that is over comes to. -/
theorem ShutDown.outcome {effects : List Effect} (h : ShutDown effects) :
    Effect.states effects = [.opened, .closed] ∧ effects.count .closed = 1 ∧
      ∃ told, Effect.events effects = told ++ [.closed] ∧ .closed ∉ told := by
  obtain ⟨front, hlast⟩ := h.last
  have hcount := Effect.count_published_closed effects
  rw [h.signals] at hcount
  refine ⟨?_, ?_, Effect.events front, ?_, ?_⟩
  · rw [← Effect.states_signals, h.signals]
    rfl
  · rw [← Effect.count_closed_signals, h.signals]
    rfl
  · simp [hlast]
  · intro hmem
    have : 0 < (Effect.events front).count .closed := List.count_pos_iff.2 hmem
    rw [hlast, Effect.events_append, List.count_append] at hcount
    have hone : (Effect.events [.published .closed]).count .closed = 1 := rfl
    have hone' : [Effect.state .opened, .state .closed, .closed, .published .closed].count
        (.published .closed) = 1 := rfl
    omega

/-- Whatever comes before it, cancelling ends a session. -/
theorem running_follow_cancelled (s : Session) (xs : List (Line × Input)) (line : Line) :
    (s.follow (xs ++ [(line, .cancelled)])).1.running = false :=
  eq_false_of_ne_true fun h => not_ends_of_running h rfl .cancelled

end Session

/-- **However a session ends, it ends in the same way**, if it fits its machine. If it cannot be
connected, that error is its result, and it sends nothing. Otherwise it is over as soon as its first
request cannot be sent or an input ends it. Then it has gone through all states of its lifecycle,
closed its channel once, and told of its end once and last. Its result is what it merged up to the
first input that ended it, and nothing is sent or merged from there on. A session that does not fit
fails once it is connected: it sends nothing, and leaves its lifecycle and its channel open with
nobody told. -/
theorem session_shutdown (host : Host) (settings : Settings) (endpoint : String) (line : Line) :
    (∀ e : Channel.Error,
      let begun := Session.begin host settings endpoint (.error e) line
      begun.outcome = .error (.transport e) ∧ begun.lifecycle.state = .closed ∧
        Lifecycle.start.state :: Effect.states begun.effects = [.connecting, .closed] ∧
        Effect.events begun.effects = [.closed] ∧ Effect.frames begun.effects = [] ∧
        .closed ∉ begun.effects ∧
        ∀ script, (Playback.ofScript host settings endpoint (.error e) line script).result =
          .error (.transport e)) ∧
    let begun := Session.begin host settings endpoint (.ok ()) line
    (Session.Fits host settings → ∃ s, begun.outcome = .ok s ∧
      (∀ inputs, (s.follow inputs).1.running = false ↔
        line.sendFault ≠ none ∨ s.EndsWithin inputs) ∧
      (∀ inputs, (s.follow inputs).1.running = false →
        let r := s.follow inputs
        let all := begun.effects ++ r.2
        Lifecycle.start.state :: Effect.states all = [.connecting, .opened, .closed] ∧
          r.1.lifecycle.state = .closed ∧
          (∃ told, Effect.events all = told ++ [.closed] ∧ .closed ∉ told) ∧
          all.count .closed = 1 ∧
          (line.sendFault ≠ none → Effect.frames all = [] ∧ Effect.events all = [.closed] ∧
            r.1.telemetry = .fresh settings.capacity) ∧
          (line.sendFault = none →
            ∃ before line' input after, inputs = before ++ (line', input) :: after ∧
              s.EndsFirst before line' input ∧
              Effect.frames r.2 = Effect.frames (s.follow before).2 ∧
              Effect.events r.2 = Effect.events (s.follow before).2 ++ [.closed] ∧
              r.1.telemetry = ((Telemetry.fresh settings.capacity).performAll
                (Input.operations settings.mode before)).state)) ∧
      ∀ script, ∃ inputs, (s.follow inputs).1.running = false ∧
        let p := Playback.ofScript host settings endpoint (.ok ()) line script
        p.result = .ok (s.follow inputs).1.telemetry ∧ p.closes = 1) ∧
    (¬ Session.Fits host settings → ∃ failure, Session.startFault? host settings = some failure ∧
      begun.outcome = .error failure ∧ begun.lifecycle.state = .opened ∧
      Lifecycle.start.state :: Effect.states begun.effects = [.connecting, .opened] ∧
      Effect.events begun.effects = [] ∧ Effect.frames begun.effects = [] ∧
      .closed ∉ begun.effects ∧
      ∀ script, let p := Playback.ofScript host settings endpoint (.ok ()) line script
        p.result = .error failure ∧ p.closes = 0) := by
  have hrefused : ∀ e : Channel.Error,
      .closed ∉ (Session.begin host settings endpoint (.error e) line).effects := by
    intro e
    simp [Session.begin, Session.stateEffects, Session.note]
  refine ⟨fun e => ⟨rfl, rfl, rfl, rfl, rfl, hrefused e, fun script => rfl⟩, ?_⟩
  intro begun
  refine ⟨fun hfits => ?_, fun hfits => ?_⟩
  · obtain ⟨s, hs⟩ : ∃ s, begun.outcome = .ok s :=
      ⟨_, (Session.begin_of_fits hfits endpoint line).1⟩
    have hstands := Session.Standing.begin hs
    refine ⟨s, hs, fun inputs => ?_, fun inputs hover => ?_, fun script => ?_⟩
    · exact Session.over_iff_of_begin hs inputs
    · intro r all
      obtain ⟨hclosed, hdown⟩ := (hstands.follow inputs).shutDown hover
      obtain ⟨hstates, hcount, htold⟩ := hdown.outcome
      refine ⟨by rw [hstates]; rfl, hclosed, htold, hcount, fun hf => ?_, fun hf => ?_⟩
      · obtain ⟨hs', ht, hframes, hevents⟩ := Session.begin_of_fault hs hf
        simp only [all, r, Session.follow_over hs', List.append_nil]
        exact ⟨hframes, hevents, ht⟩
      · exact Session.endsFirst_of_begin hs hf hover
    · obtain ⟨inputs, line', hresult, hcloses⟩ := Playback.ofScript_connected hs script
      have hover := s.running_follow_cancelled inputs line'
      refine ⟨_, hover, hresult, hcloses.trans ?_⟩
      exact ((hstands.follow _).shutDown hover).2.outcome.2.1
  · obtain ⟨failure, hfault⟩ : ∃ failure, Session.startFault? host settings = some failure :=
      Option.ne_none_iff_exists'.1 fun h => hfits (Session.startFault?_eq_none_iff.1 h)
    obtain ⟨hfailed, hopen, -⟩ := Session.begin_of_startFault? hfault endpoint line
    obtain ⟨hstates, hevents, hframes, hclosed⟩ := Session.begin_silent hfault endpoint line
    exact ⟨failure, hfault, hfailed, hopen, congrArg _ hstates, hevents, hframes, hclosed,
      Playback.ofScript_failed hfailed⟩

/-- So it is when a pull of the request log cannot be sent, nor the channel be closed in good order:
the pong behind it comes too late. -/
theorem session_shutdown_unsent :
    let settings : Settings := .usual .requests
    let line : Line := ⟨none, none⟩
    let gone : Line := ⟨some (.send "gone"), some .closed⟩
    let log := ServerMessage.recentRequests ⟨1, [{ (default : Request) with endMicros := 5 }]⟩
    let inputs := [(line, Input.tail), (line, .frame log.encode), (gone, .tail),
      (line, .frame (ServerMessage.pong ⟨9, []⟩).encode)]
    let begun := Session.begin .usual settings "" (.ok ()) line
    Session.Fits .usual settings ∧
      ∃ s, begun.outcome = .ok s ∧ (s.follow inputs).1.running = false ∧
        (begun.effects ++ (s.follow inputs).2).count .closed = 1 ∧
        Lifecycle.start.state :: Effect.states (begun.effects ++ (s.follow inputs).2) =
          [.connecting, .opened, .closed] ∧
        Effect.events (s.follow inputs).2 =
          [.serverTime 1, .requestsPrepended [{ (default : Request) with endMicros := 5 }],
            .closed] ∧
        (Effect.frames (s.follow inputs).2).length = 1 ∧
        (s.follow inputs).1.telemetry.serverTime = some 1 := by
  intro settings line gone log inputs begun
  have hfits : Session.Fits .usual settings := Session.startFault?_eq_none_iff.1 rfl
  obtain ⟨s, hs, -, hend, -⟩ := (session_shutdown .usual settings "" line).2.1 hfits
  obtain rfl : s = ⟨.requests, ⟨.opened, 1⟩, true, .fresh 100⟩ := Except.ok.inj hs.symm
  have hover : (Session.follow ⟨.requests, ⟨.opened, 1⟩, true, .fresh 100⟩ inputs).1.running =
      false := by
    decide +kernel
  obtain ⟨hstates, -, -, hcount, -⟩ := hend inputs hover
  refine ⟨hfits, _, hs, hover, hcount, hstates, ?_, ?_, ?_⟩
  · decide +kernel
  · decide +kernel
  · decide +kernel

/-- A period that is positive and that validation lets through can still be longer than the clock
goes on. Then a session ends without a word: its last state is open, and its channel stays so. -/
theorem session_shutdown_beyondClock :
    let config : Config := { Config.usual with probeSeconds := 9223372036854775807 }
    let settings := config.session .requests
    let line : Line := ⟨none, none⟩
    let begun := Session.begin .usual settings "" (.ok ()) line
    config.validate = .ok () ∧ 0 < settings.probePeriod ∧ 0 < settings.tailPeriod ∧
      begun.outcome = .error .beyondClock ∧
      Lifecycle.start.state :: Effect.states begun.effects = [.connecting, .opened] ∧
      Effect.events begun.effects = [] ∧ .closed ∉ begun.effects ∧
      ∀ script, let p := Playback.ofScript .usual settings "" (.ok ()) line script
        p.result = .error .beyondClock ∧ p.closes = 0 := by
  intro config settings line begun
  have hfault : Session.startFault? .usual settings = some .beyondClock := by decide +kernel
  obtain ⟨hfailed, -⟩ := Session.begin_of_startFault? hfault "" line
  obtain ⟨hstates, hevents, -, hclosed⟩ := Session.begin_silent hfault "" line
  refine ⟨?_, ?_, ?_, hfailed, congrArg _ hstates, hevents, hclosed,
    Playback.ofScript_failed hfailed⟩
  · decide +kernel
  · decide +kernel
  · decide +kernel

end Vitals
