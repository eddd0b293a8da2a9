/-
  What the watchers of a session are told.

  * `Session.Stepped.account`: the events of a step are all that there is to know of it.
  * `Feed.Takes.clockFirst`: a frame that is taken tells of its clock first, and once.
  * `broadcast_replay`: the events of a whole session rebuild what it holds.
-/
import Vitals.Proofs.Session.Inbound
import Vitals.Proofs.Telemetry.Replay

namespace Vitals

/-! ## The clock of a frame -/

/-- Some events tell of the clock first, and then no more. -/
def Event.ClockFirst (events : List Event) : Prop :=
  ∃ millis rest, events = .serverTime millis :: rest ∧ ∀ millis', .serverTime millis' ∉ rest

/-- A frame that is taken tells of its clock first. -/
theorem Feed.Takes.clockFirst {f g : Feed} {mode : Mode} {bytes : List UInt8} {opcode : Opcode}
    (h : f.Takes mode bytes opcode g) :
    ∃ events, g.outbox = f.outbox ++ events ∧ Event.ClockFirst events := by
  cases h with
  | @page _ batch _ =>
    exact ⟨_, rfl, batch.serverTime, _, rfl, fun _ h =>
      nomatch Telemetry.ofRecords_applyPage _ _ _ h⟩
  | @pong _ batch _ =>
    exact ⟨_, rfl, batch.serverTime, _, rfl, fun _ h =>
      nomatch Telemetry.ofRecords_applyTail _ _ _ h⟩
  | @clock _ batch _ => exact ⟨_, rfl, batch.serverTime, [], rfl, fun _ => List.not_mem_nil⟩
  | @log _ batch _ =>
    exact ⟨_, rfl, batch.serverTime, _, rfl, fun _ h =>
      nomatch Telemetry.ofRecords_applyLog _ _ _ h⟩

namespace Session

variable {s : Session}

/-- **A frame that is handled tells of its clock first**, and once. -/
theorem clockFirst_of_handles {bytes : List UInt8} (hs : s.running = true) (h : s.Handles bytes)
    (line : Line) : Event.ClockFirst (Effect.events (s.step line (.frame bytes)).2) := by
  obtain ⟨opcode, ho⟩ := Outcome.isHandled_iff.1 h
  obtain ⟨events, hout, hfirst⟩ := (Feed.handled_iff_takes.1 ⟨ho, rfl⟩).clockFirst
  have hevents : Effect.events (s.step line (.frame bytes)).2 = events := by
    simp only [step, hs, if_true, receive, Effect.events_append, Effect.events_noted,
      Effect.events_published, hout, List.nil_append]
  exact hevents ▸ hfirst

/-! ## Accounts of a session -/

variable {capacity : Nat} {past : List Event}

theorem Stepped.account {r : Session × List Effect} {op? : Option Operation}
    {request? : Option ClientMessage} (h : Stepped s r op? request?)
    (hp : Account capacity s.telemetry past) :
    Account capacity r.1.telemetry (past ++ Effect.events r.2) :=
  h.keeps (fun _ _ op hp => hp.perform op) (fun _ _ hp => hp.closed) hp

/-- A session starts with nothing to tell. -/
theorem account_begin {host : Host} {settings : Settings} {endpoint : String} {line : Line}
    (h : (begin host settings endpoint (.ok ()) line).outcome = .ok s) :
    Account settings.capacity s.telemetry
      (Effect.events (begin host settings endpoint (.ok ()) line).effects) := by
  obtain ⟨s₀, -, ht, h₀⟩ := begin_stepped h
  have hfresh : Account settings.capacity s₀.telemetry [] := ht ▸ .fresh settings.capacity
  exact h₀.account hfresh

/-- The events of a run are all that there is to know of it. -/
theorem account_follow (h : Account capacity s.telemetry past) (inputs : List (Line × Input)) :
    Account capacity (s.follow inputs).1.telemetry
      (past ++ Effect.events (s.follow inputs).2) := by
  have hstep : ∀ (u : Session) past line input, Account capacity u.telemetry past →
      Account capacity (u.step line input).1.telemetry
        (past ++ Effect.events (u.step line input).2) := by
    intro u past line input hu
    exact (u.step_stepped line input).account hu
  exact follow_events s hstep h inputs

end Session

/-- **What a session publishes is enough to rebuild what it holds**: from its start on, whatever it
takes in, folding its events from nothing gives the stats, the requests, the clock and the end of
the history that it is left with. Each frame that is handled tells of its clock once, before
anything else, and the seed and the end of the history are each told of at most once. -/
theorem broadcast_replay {host : Host} {settings : Settings} {endpoint : String} {line : Line}
    {s : Session} (h : (Session.begin host settings endpoint (.ok ()) line).outcome = .ok s)
    (inputs : List (Line × Input)) :
    let started := (Session.begin host settings endpoint (.ok ()) line).effects
    let r := s.follow inputs
    let events := Effect.events (started ++ r.2)
    events.foldl (View.tell settings.capacity) .blank = .of r.1.telemetry ∧
      (∀ before line bytes after, inputs = before ++ (line, .frame bytes) :: after →
        let u := (s.follow before).1
        let told := Effect.events (u.step line (.frame bytes)).2
        u.running = true → u.Handles bytes → Event.ClockFirst told ∧
          Effect.events r.2 = Effect.events (s.follow before).2 ++ told ++
            Effect.events ((u.step line (.frame bytes)).1.follow after).2) ∧
      (Event.seeds events).length ≤ 1 ∧ events.count .historyExhausted ≤ 1 := by
  intro started r events
  have account : Account settings.capacity r.1.telemetry events := by
    have := Session.account_follow (Session.account_begin h) inputs
    rwa [← Effect.events_append] at this
  refine ⟨account.view, ?_, account.length_seeds_le, account.count_historyExhausted_le⟩
  intro before line bytes after hcut u told hrun hu
  refine ⟨Session.clockFirst_of_handles hrun hu line, ?_⟩
  show Effect.events (s.follow inputs).2 = _
  rw [hcut, Session.follow_append, Session.follow_cons, Effect.events_append,
    Effect.events_append, List.append_assoc]

/-- So it is after a first page and an empty one before it. -/
theorem broadcast_replay_paged :
    let line : Line := ⟨none, none⟩
    let page : List Stat := [{ (default : Stat) with timestamp := 7 }]
    let inputs := [ServerMessage.stats ⟨1, page⟩, .stats ⟨2, []⟩].map fun m =>
      (line, Input.frame m.encode)
    ∃ s, (Session.begin .usual (.usual .stats) "" (.ok ()) line).outcome = .ok s ∧
      Effect.events (s.follow inputs).2 =
        [.serverTime 1, .statsSeeded page, .serverTime 2, .historyExhausted] ∧
      View.of (s.follow inputs).1.telemetry = ⟨page, [], some 2, true⟩ := by
  intro line page inputs
  have hs : (Session.begin .usual (.usual .stats) "" (.ok ()) line).outcome =
      .ok ⟨.stats, ⟨.opened, 1⟩, true, .fresh 100⟩ := rfl
  have hevents : Effect.events
      (Session.follow ⟨.stats, ⟨.opened, 1⟩, true, .fresh 100⟩ inputs).2 =
        [.serverTime 1, .statsSeeded page, .serverTime 2, .historyExhausted] := by
    decide +kernel
  have hview := (broadcast_replay hs inputs).1
  rw [Effect.events_append, hevents] at hview
  exact ⟨_, hs, hevents, hview.symm⟩

end Vitals
