/-
  What a script makes of a session is a run of it.

  * `Timeline.Runs`: what takes place on a timeline is a run of its session.
  * `runs_runTo`: so it is while time passes; `runs_play`, `runs_playAll`: with every cue.
  * `Playback.ofScript_connected`: a script is a run that ends with the session cancelled;
    `ofScript_failed`: of a session that did not come about it makes nothing.
-/
import Vitals.Proofs.Session.Run

namespace Vitals

namespace Timeline

/-- What takes place on a timeline is a run of its session. -/
def Runs (t : Timeline) (r : Timeline × List Timed) : Prop :=
  ∃ inputs, r.1.session = (t.session.follow inputs).1 ∧
    r.2.map (·.2) = (t.session.follow inputs).2

variable {t u : Timeline} {r : Timeline × List Timed}

theorem runs_nothing (h : u.session = t.session) : t.Runs (u, []) := ⟨[], h, rfl⟩

theorem Runs.congr (h : u.Runs r) (hs : u.session = t.session) : t.Runs r := by
  unfold Runs at h ⊢
  rwa [hs] at h

/-- One run after the other is a run. -/
theorem Runs.append (h : t.Runs r) {r' : Timeline × List Timed} (h' : r.1.Runs r') :
    t.Runs (r'.1, r.2 ++ r'.2) := by
  obtain ⟨inputs, hs, he⟩ := h
  obtain ⟨inputs', hs', he'⟩ := h'
  rw [hs] at hs' he'
  refine ⟨inputs ++ inputs', ?_, ?_⟩
  · rw [Session.follow_append]
    exact hs'
  · rw [Session.follow_append, List.map_append, he, he']

theorem input_eq_follow (t : Timeline) (i : Input) :
    (t.input i).1.session = (t.session.follow [(t.line, i)]).1 ∧
      (t.input i).2.map (·.2) = (t.session.follow [(t.line, i)]).2 := by
  simp [input, Session.follow_cons, Function.comp_def]

theorem runs_input (t : Timeline) (i : Input) : t.Runs (t.input i) :=
  ⟨[(t.line, i)], t.input_eq_follow i⟩

theorem runs_serve? {target : Nat} (h : t.serve? target = some r) : t.Runs r := by
  unfold serve? at h
  split at h
  · cases h
  · split at h
    · cases h
      exact (runs_input _ .probe).congr rfl
    · split at h
      · cases h
        exact (runs_input _ .tail).congr rfl
      · cases h

/-- **While time passes the session runs.** -/
theorem runs_runTo (target : Nat) (t : Timeline) : t.Runs (t.runTo target) := by
  -- Each timer that is served leaves less time for the timers to cover.
  induction h : t.ahead target using Nat.strongRecOn generalizing t with
  | _ n ih =>
    subst h
    cases hs : t.serve? target with
    | none =>
      rw [runTo_of_none hs]
      exact runs_nothing rfl
    | some served =>
      rw [runTo_of_some hs]
      exact (runs_serve? hs).append (ih _ (ahead_serve? hs) _ rfl)

theorem runs_inputs (t : Timeline) (is : List Input) : t.Runs (t.inputs is) := by
  induction is generalizing t with
  | nil => exact runs_nothing rfl
  | cons i is ih => exact (t.runs_input i).append (ih _)

/-- **With every cue the session runs.** -/
theorem runs_play (t : Timeline) (c : Cue) : t.Runs (t.play c) := by
  have hunless : ∀ {r : Timeline × List Timed}, t.Runs r →
      t.Runs (if t.hungUp then (t, []) else r) := by
    intro r hr
    split
    · exact runs_nothing rfl
    · exact hr
  cases c with
  | frames frames => exact hunless (t.runs_inputs _)
  | receiveError e => exact hunless ((runs_input _ _).congr rfl)
  | hangUp => exact hunless ((runs_input _ _).congr rfl)
  | cancel => exact t.runs_input _
  | sendFault e => exact runs_nothing rfl
  | command c => exact t.runs_input _
  | advance millis => exact runs_runTo _ t
  | jump millis => exact (runs_runTo _ _).congr rfl

theorem runs_playAll (t : Timeline) (cs : List Cue) :
    t.Runs ((t.playAll cs).1, (t.playAll cs).2.flatMap (·.2)) := by
  induction cs generalizing t with
  | nil => exact runs_nothing rfl
  | cons c cs ih => exact (t.runs_play c).append (ih _)

end Timeline

namespace Playback

section Started

variable {host : Host} {settings : Settings} {endpoint : String} {line : Line} {s : Session}

/-- A script is played on a timeline that starts at time zero. -/
theorem ofScript_eq (h : (Session.begin host settings endpoint (.ok ()) line).outcome = .ok s)
    (script : List Cue) :
    let begun := Session.begin host settings endpoint (.ok ()) line
    let hfits := Session.fits_of_begin h
    ofScript host settings endpoint (.ok ()) line script =
      ofTimeline
        { now := 0, session := s, line, hungUp := false
          probe := .set 0 settings.probePeriod hfits.probe_pos
          tail := .set 0 settings.tailPeriod hfits.tail_pos }
        (begun.effects.map fun e => (0, e)) script := by
  intro begun hfits
  unfold ofScript
  simp only [h, hfits.probe_pos, hfits.tail_pos, dif_pos]
  rfl

/-- **A script is a run that ends with the session cancelled.** Its result is what the run merged.
-/
theorem ofScript_connected
    (h : (Session.begin host settings endpoint (.ok ()) line).outcome = .ok s)
    (script : List Cue) :
    let begun := Session.begin host settings endpoint (.ok ()) line
    ∃ inputs line',
      let r := s.follow (inputs ++ [(line', .cancelled)])
      let p := ofScript host settings endpoint (.ok ()) line script
      p.result = .ok r.1.telemetry ∧
        p.closes = (begun.effects ++ r.2).count .closed := by
  intro begun
  have hfits := Session.fits_of_begin h
  let t : Timeline :=
    { now := 0, session := s, line, hungUp := false
      probe := .set 0 settings.probePeriod hfits.probe_pos
      tail := .set 0 settings.tailPeriod hfits.tail_pos }
  obtain ⟨inputs, hs, he⟩ := t.runs_playAll script
  obtain ⟨hs', he'⟩ := (t.playAll script).1.input_eq_follow .cancelled
  refine ⟨inputs, (t.playAll script).1.line, ?_⟩
  rw [ofScript_eq h, Session.follow_append, ← hs, ← he, ← hs', ← he']
  refine ⟨rfl, ?_⟩
  simp [ofTimeline, t, begun, List.count, List.countP_append, Function.comp_def]

end Started

/-- A script makes nothing of a session that did not come about. -/
theorem ofScript_failed {host : Host} {settings : Settings} {endpoint : String} {line : Line}
    {connected : Except Channel.Error Unit} {failure : Session.Failure}
    (h : (Session.begin host settings endpoint connected line).outcome = .error failure)
    (script : List Cue) :
    let p := ofScript host settings endpoint connected line script
    p.result = .error failure ∧ p.closes = 0 := by
  unfold ofScript
  simp only [h]
  exact ⟨rfl, rfl⟩

end Playback

end Vitals
