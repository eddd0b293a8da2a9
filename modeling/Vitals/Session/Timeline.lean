/-
  A session on a clock that a script moves.

  A `Ticker` is a timer that fires again and again. Its deadlines are exact, but it wakes up with
  the clock, which counts milliseconds. Fired at most `Ticker.tolerance` late it keeps to its beat;
  fired later it starts a new one. A `Timeline` is a session with its two tickers, a clock and a
  channel whose behaviour the script decides. A script is a list of `Cue`s; the timeline plays each
  of them, and lets the session run until it has nothing more to do at the time reached.

  * `Ticker.fire`: the deadline after a tick.
  * `Timeline.runTo`: lets time pass, serving every timer on the way; `runTo_of_none` and
    `runTo_of_some` unfold it.
  * `Timeline.play`: one cue.
  * `Playback.ofScript`: what a whole script makes of a session.
-/
import Vitals.Session

namespace Vitals

/-! ## Tickers -/

/-- A timer that fires again and again. -/
structure Ticker where
  /-- Nanoseconds between two deadlines. -/
  period : Nat
  /-- How many nanoseconds after time zero it should fire next. -/
  deadline : Nat
  period_pos : 0 < period

namespace Ticker

/-- How many nanoseconds late a tick may be without moving the beat. -/
def tolerance : Nat := Duration.millis 5

/-- A timer set at the millisecond `now`. -/
def set (now period : Nat) (h : 0 < period) : Ticker := ⟨period, Duration.millis now + period, h⟩

/-- The millisecond at which a timer fires next, the first one that is not before its deadline. -/
def due (t : Ticker) : Nat :=
  t.deadline / 1000000 + if t.deadline % 1000000 = 0 then 0 else 1

/-- The timer after it has fired at the millisecond `now`. -/
def fire (t : Ticker) (now : Nat) : Ticker :=
  let now := Duration.millis now
  let base := if t.deadline + tolerance < now then now else t.deadline
  { t with deadline := base + t.period }

theorem due_le_iff {t : Ticker} {now : Nat} : t.due ≤ now ↔ t.deadline ≤ Duration.millis now := by
  unfold due Duration.millis
  split <;> omega

theorem deadline_lt_fire (t : Ticker) (now : Nat) : t.deadline < (t.fire now).deadline := by
  have := t.period_pos
  unfold fire
  dsimp only
  split <;> omega

/-- Fired when it is due, a timer keeps to its beat. -/
theorem deadline_fire_on_time (t : Ticker) : (t.fire t.due).deadline = t.deadline + t.period := by
  have hdue : Duration.millis t.due ≤ t.deadline + tolerance := by
    unfold due tolerance Duration.millis
    split <;> omega
  unfold fire
  dsimp only
  rw [if_neg (by omega)]

end Ticker

/-! ## Timelines -/

/-- A session on a clock. -/
structure Timeline where
  /-- The time in milliseconds. -/
  now : Nat
  session : Session
  probe : Ticker
  tail : Ticker
  line : Line
  /-- Whether the server has closed the channel, or the channel has failed. -/
  hungUp : Bool

/-- An effect and when it took place. -/
abbrev Timed := Nat × Effect

namespace Timeline

/-- Takes in one input now. -/
def input (t : Timeline) (i : Input) : Timeline × List Timed :=
  let r := t.session.step t.line i
  ({ t with session := r.1 }, r.2.map fun e => (t.now, e))

@[simp] theorem input_probe (t : Timeline) (i : Input) : (t.input i).1.probe = t.probe := rfl

@[simp] theorem input_tail (t : Timeline) (i : Input) : (t.input i).1.tail = t.tail := rfl

/-- Whether the session listens to the ticker that pulls the request log. -/
def tails (t : Timeline) : Bool := t.session.mode = .requests

/-- Serves the ticker for pings, when it is due or now if that has passed. -/
def serveProbe (t : Timeline) : Timeline × List Timed :=
  let now := max t.now t.probe.due
  { t with now, probe := t.probe.fire now }.input .probe

/-- Serves the ticker that pulls the request log, when it is due or now if that has passed. -/
def serveTail (t : Timeline) : Timeline × List Timed :=
  let now := max t.now t.tail.due
  { t with now, tail := t.tail.fire now }.input .tail

theorem serveProbe_later (t : Timeline) :
    t.probe.deadline < t.serveProbe.1.probe.deadline ∧ t.serveProbe.1.tail = t.tail :=
  ⟨Ticker.deadline_lt_fire _ _, rfl⟩

theorem serveTail_later (t : Timeline) :
    t.tail.deadline < t.serveTail.1.tail.deadline ∧ t.serveTail.1.probe = t.probe :=
  ⟨Ticker.deadline_lt_fire _ _, rfl⟩

/-- Serves the timer that fires first, if it fires by `target`. With a session that is over its
timers are gone. -/
def serve? (target : Nat) (t : Timeline) : Option (Timeline × List Timed) :=
  if !t.session.running then none
  else if t.probe.due ≤ target ∧ (t.tails → t.probe.due ≤ t.tail.due) then some t.serveProbe
  else if t.tails ∧ t.tail.due ≤ target then some t.serveTail
  else none

/-- How many more nanoseconds up to `target` the timers cover. -/
def ahead (target : Nat) (t : Timeline) : Nat :=
  (Duration.millis target + 1 - t.probe.deadline) + (Duration.millis target + 1 - t.tail.deadline)

theorem ahead_serve? {target : Nat} {t : Timeline} {served : Timeline × List Timed}
    (h : t.serve? target = some served) : served.1.ahead target < t.ahead target := by
  unfold serve? at h
  split at h
  · cases h
  · split at h
    · rename_i hdue
      obtain rfl := Option.some.inj h
      have hbefore := Ticker.due_le_iff.1 hdue.1
      have hlater := t.serveProbe_later
      unfold ahead
      rw [hlater.2]
      omega
    · split at h
      · rename_i hdue
        obtain rfl := Option.some.inj h
        have hbefore := Ticker.due_le_iff.1 hdue.2
        have hlater := t.serveTail_later
        unfold ahead
        rw [hlater.2]
        omega
      · cases h

/-- Lets time pass until `target`, serving every timer that fires on the way, the earliest first.
What took place before is given, and kept, with the newest in front. -/
def runOn (target : Nat) (t : Timeline) (before : List Timed) : Timeline × List Timed :=
  match _ : t.serve? target with
  | some served => runOn target served.1 (served.2.reverseAux before)
  | none => ({ t with now := max t.now target }, before)
  termination_by t.ahead target
  decreasing_by exact ahead_serve? ‹_›

/-- Lets time pass until `target`, serving every timer that fires on the way, the earliest first.
-/
def runTo (target : Nat) (t : Timeline) : Timeline × List Timed :=
  let r := t.runOn target []
  (r.1, r.2.reverse)

theorem runOn_of_none {target : Nat} {t : Timeline} (h : t.serve? target = none)
    (before : List Timed) :
    t.runOn target before = ({ t with now := max t.now target }, before) := by
  rw [runOn.eq_def]
  split
  · rename_i hs
    rw [h] at hs
    cases hs
  · rfl

theorem runOn_of_some {target : Nat} {t : Timeline} {served : Timeline × List Timed}
    (h : t.serve? target = some served) (before : List Timed) :
    t.runOn target before = runOn target served.1 (served.2.reverseAux before) := by
  rw [runOn.eq_def]
  split
  · rename_i hs
    obtain rfl := Option.some.inj (h.symm.trans hs)
    rfl
  · rename_i hs
    rw [h] at hs
    cases hs

theorem runOn_eq (target : Nat) (t : Timeline) (before : List Timed) :
    t.runOn target before =
      ((t.runTo target).1, (t.runTo target).2.reverseAux before) := by
  simp only [runTo, List.reverseAux_eq, List.reverse_reverse]
  induction h : t.ahead target using Nat.strongRecOn generalizing t before with
  | _ n ih =>
    subst h
    cases hs : t.serve? target with
    | none => simp [runOn_of_none hs]
    | some served =>
      have hserved := fun before => ih _ (ahead_serve? hs) served.1 before rfl
      rw [runOn_of_some hs, runOn_of_some hs, hserved, hserved (served.2.reverseAux [])]
      simp [List.reverseAux_eq]

/-- When no timer fires by `target`, nothing takes place. -/
theorem runTo_of_none {target : Nat} {t : Timeline} (h : t.serve? target = none) :
    t.runTo target = ({ t with now := max t.now target }, []) := by
  rw [runTo, runOn_of_none h]
  rfl

/-- A timer that fires by `target` is served, and time passes on. -/
theorem runTo_of_some {target : Nat} {t : Timeline} {served : Timeline × List Timed}
    (h : t.serve? target = some served) :
    t.runTo target =
      ((served.1.runTo target).1, served.2 ++ (served.1.runTo target).2) := by
  rw [runTo, runOn_of_some h, runOn_eq]
  simp [List.reverseAux_eq]

/-- Takes in some inputs now, in order. -/
def inputs (t : Timeline) : List Input → Timeline × List Timed
  | [] => (t, [])
  | i :: is =>
    let (t, effects) := t.input i
    let (t, effects') := t.inputs is
    (t, effects ++ effects')

end Timeline

/-! ## Scripts -/

/-- One thing that happens to a session. -/
inductive Cue where
  /-- The server sends some frames at once. -/
  | frames (frames : List (List UInt8))
  /-- Receiving fails. -/
  | receiveError (e : Channel.Error)
  /-- The server closes the channel. -/
  | hangUp
  | cancel
  /-- From now on sending fails so, or works. -/
  | sendFault (e : Option Channel.Error)
  | command (c : Command)
  /-- Time passes, and no timer is late. -/
  | advance (millis : Nat)
  /-- Time passes at once, then the timers that are due are served. -/
  | jump (millis : Nat)
  deriving DecidableEq, Repr

namespace Timeline

/-- Plays one cue. After the server has hung up, its frames reach nobody. -/
def play (t : Timeline) : Cue → Timeline × List Timed
  | .frames frames => if t.hungUp then (t, []) else t.inputs (frames.map .frame)
  | .receiveError e =>
    if t.hungUp then (t, []) else { t with hungUp := true }.input (.failed e)
  | .hangUp => if t.hungUp then (t, []) else { t with hungUp := true }.input .ended
  | .cancel => t.input .cancelled
  | .sendFault e => ({ t with line := { t.line with sendFault := e } }, [])
  | .command c => t.input (.command c)
  | .advance millis => t.runTo (t.now + millis)
  | .jump millis => { t with now := t.now + millis }.runTo (t.now + millis)

/-- Plays some cues; the effects of each are kept apart. -/
def playAll (t : Timeline) : List Cue → Timeline × List (ConnectionState × List Timed)
  | [] => (t, [])
  | c :: cs =>
    let (t, effects) := t.play c
    let (t', rest) := t.playAll cs
    (t', (t.session.lifecycle.state, effects) :: rest)

end Timeline

/-! ## What a watcher sees -/

/-- How many events are kept for a watcher who does not look. -/
def eventBacklog : Nat := 256

/-- What a watcher finds when it looks: the events kept, and how many were lost before them. -/
structure Backlog where
  lost : Nat
  events : List Event
  deriving DecidableEq, Repr

/-- The newest events are kept. -/
def Backlog.ofEvents (events : List Event) : Backlog :=
  let lost := events.length - eventBacklog
  ⟨lost, events.drop lost⟩

/-- What one cue has brought about. -/
structure Entry where
  state : ConnectionState
  /-- The frames sent and when. Those of one millisecond are in the order of their opcodes. -/
  sent : List (Nat × List UInt8)
  backlog : Backlog
  deriving DecidableEq, Repr

/-- The order of frames in an entry. -/
def Entry.sentBefore (a b : Nat × List UInt8) : Bool :=
  a.1 < b.1 || (a.1 == b.1 && a.2.headD 0 ≤ b.2.headD 0)

/-- The frame of an effect. -/
def Effect.frame? : Effect → Option (List UInt8)
  | sent frame => some frame
  | _ => none

/-- The event of an effect. -/
def Effect.event? : Effect → Option Event
  | published event => some event
  | _ => none

/-- The note of an effect. -/
def Effect.note? : Effect → Option Note
  | noted note => some note
  | _ => none

/-- What some effects amount to. -/
def Entry.ofEffects (state : ConnectionState) (effects : List Timed) : Entry where
  state
  sent := (effects.filterMap fun (at', e) => e.frame?.map fun f => (at', f)).mergeSort sentBefore
  backlog := .ofEvents (effects.filterMap fun (_, e) => e.event?)

/-- What a script has made of a session. -/
structure Playback where
  /-- One entry for the start and one for each cue. -/
  entries : List Entry
  /-- Whether the session outlived the script. -/
  outlived : Bool
  /-- What cancelling it then brought about. -/
  last : Entry
  result : Except Session.Failure Telemetry
  /-- How often the channel was closed. -/
  closes : Nat
  notes : List Note

namespace Playback

/-- Plays a script of cues, and cancels a session that outlives it. -/
def ofTimeline (t : Timeline) (started : List Timed) (script : List Cue) : Playback :=
  let first := (t.session.lifecycle.state, started)
  let (t, played) := t.playAll script
  let (t', cancelled) := t.input .cancelled
  let parts := first :: played
  let effects := (parts.flatMap (·.2) ++ cancelled).map (·.2)
  { entries := parts.map fun (state, effects) => .ofEffects state effects
    outlived := t.session.running
    last := .ofEffects t'.session.lifecycle.state cancelled
    result := .ok t'.session.telemetry
    closes := effects.countP (· == .closed)
    notes := effects.filterMap Effect.note? }

/-- Plays a script to a session that did not come about. -/
def ofFailure (failure : Session.Failure) (lifecycle : Lifecycle) (started : List Timed)
    (script : List Cue) : Playback :=
  let idle := Entry.ofEffects lifecycle.state []
  { entries := .ofEffects lifecycle.state started :: script.map fun _ => idle
    outlived := false
    last := idle
    result := .error failure
    closes := 0
    notes := started.filterMap fun (_, e) => e.note? }

/-- Starts a session at time zero and plays a script. -/
def ofScript (host : Host) (settings : Settings) (endpoint : String)
    (connected : Except Channel.Error Unit) (line : Line) (script : List Cue) : Playback :=
  let begun := Session.begin host settings endpoint connected line
  let started := begun.effects.map fun e => (0, e)
  match begun.outcome with
  | .error failure => ofFailure failure begun.lifecycle started script
  | .ok session =>
    if hp : 0 < settings.probePeriod then
      if ht : 0 < settings.tailPeriod then
        ofTimeline
          { now := 0, session, line, hungUp := false
            probe := .set 0 settings.probePeriod hp
            tail := .set 0 settings.tailPeriod ht }
          started script
      else ofFailure .zeroPeriod begun.lifecycle started script
    else ofFailure .zeroPeriod begun.lifecycle started script

end Playback

end Vitals
