/-
  When a session polls its server.

  A timeline whose timers are never late goes from one `Timeline.Moment` to the next: something
  arrives, a timer that is due is served, or time passes up to the next deadline. What is ready at
  one moment may be served in any order.

  * `Timeline.Course t u effects`: some moments lead from `t` to `u`.
  * `beats p T`: the times before `T` at which a timer of period `p` fires.
  * `Ticker.Keeps`: the invariant of a ticker and of the times at which it was served;
    `Timeline.Punctual`: that of a session and its two tickers.
  * `Timeline.course_playAll`: a script of frames, commands and passing time is such a course.
  * `polling_regular`: the session polls at the beats of its tickers, whatever else takes place.
-/
import Vitals.Proofs.Session.Outbound

namespace Vitals

/-! ## When messages are sent -/

namespace Timed

/-- The times at which some effects send a message of some kind, in order. -/
def times (kind : ClientMessage → Bool) (effects : List Timed) : List Nat :=
  effects.flatMap fun e => ((Effect.messages [e.2]).filter kind).map fun _ => e.1

variable {kind : ClientMessage → Bool}

@[simp] theorem times_append (xs ys : List Timed) :
    times kind (xs ++ ys) = times kind xs ++ times kind ys := List.flatMap_append

theorem times_at (now : Nat) (effects : List Effect) :
    times kind (effects.map fun e => (now, e)) =
      ((Effect.messages effects).filter kind).map fun _ => now := by
  induction effects with
  | nil => rfl
  | cons e effects ih =>
    have hcons : e :: effects = [e] ++ effects := rfl
    rw [hcons, List.map_append, times_append, ih, Effect.messages_append, List.filter_append,
      List.map_append]
    simp [times]

theorem le_of_mem_times {effects : List Timed} {now at' : Nat} (h : ∀ e ∈ effects, now ≤ e.1)
    (ha : at' ∈ times kind effects) : now ≤ at' := by
  obtain ⟨e, he, hm⟩ := List.mem_flatMap.1 ha
  obtain ⟨_, -, rfl⟩ := List.mem_map.1 hm
  exact h e he

end Timed

def ClientMessage.isPing : ClientMessage → Bool
  | ping => true
  | _ => false

def ClientMessage.isPull : ClientMessage → Bool
  | recentRequests _ => true
  | _ => false

open ClientMessage (isPing isPull)

/-! ## Beats -/

/-- The times before `T` at which a timer of period `p`, set at time zero, fires. -/
def beats (p T : Nat) : List Nat := (List.range T).filter fun t => 0 < t ∧ p ∣ t

theorem beats_append (p T k : Nat) : beats p (T + k) =
    beats p T ++ (List.range' T k).filter fun t => decide (0 < t ∧ p ∣ t) := by
  rw [beats, beats, List.range_eq_range', List.range_eq_range', ← List.range'_append_1,
    List.filter_append, Nat.zero_add]

theorem filter_beats {p T d : Nat} (h : T ≤ d) : (beats p d).filter (· < T) = beats p T := by
  obtain ⟨k, rfl⟩ := Nat.exists_eq_add_of_le h
  have hearly : (beats p T).filter (· < T) = beats p T := by
    refine List.filter_eq_self.2 fun t ht => ?_
    exact decide_eq_true (List.mem_range.1 (List.mem_filter.1 ht).1)
  have hlate : ((List.range' T k).filter fun t => decide (0 < t ∧ p ∣ t)).filter (· < T) = [] := by
    refine List.filter_eq_nil_iff.2 fun t ht => ?_
    have := List.mem_range'_1.1 (List.mem_filter.1 ht).1
    simp only [decide_eq_true_eq]
    omega
  rw [beats_append, List.filter_append, hearly, hlate, List.append_nil]

/-- Within a period that starts at a beat there is no other. -/
theorem beats_add {p d : Nat} (hd : 0 < d) (hp : 0 < p) (h : p ∣ d) :
    beats p (d + p) = beats p d ++ [d] := by
  obtain ⟨k, rfl⟩ := Nat.exists_eq_succ_of_ne_zero hp.ne'
  have hnone : (List.range' (d + 1) k).filter (fun t => decide (0 < t ∧ k.succ ∣ t)) = [] := by
    refine List.filter_eq_nil_iff.2 fun t ht => ?_
    have hbetween := List.mem_range'_1.1 ht
    simp only [decide_eq_true_eq, not_and]
    intro _ hdvd
    have := Nat.le_of_dvd (by omega) (Nat.dvd_sub hdvd h)
    omega
  rw [beats_append, List.range'_succ, List.filter_cons, hnone, if_pos (by simp [hd, h])]

/-! ## Tickers -/

/-- A ticker set at time zero that is not late at `now`, and that was served at `times`, keeps to
its beats. Its deadlines are on the clock. -/
structure Ticker.Keeps (k : Ticker) (period now : Nat) (times : List Nat) : Prop where
  beat : k.period = Duration.millis period
  deadline : k.deadline = Duration.millis k.due
  ahead : 0 < k.due
  dvd : period ∣ k.due
  notLate : now ≤ k.due
  times : times = beats period k.due

namespace Ticker

variable {k : Ticker} {period now : Nat} {times : List Nat}

/-- A timer whose deadline is on the clock fires just then. -/
theorem due_of_deadline {d : Nat} (h : k.deadline = Duration.millis d) : k.due = d := by
  have hlate : k.due ≤ d := due_le_iff.2 (Nat.le_of_eq h)
  have hearly : k.deadline ≤ Duration.millis k.due := due_le_iff.1 (Nat.le_refl _)
  exact Nat.le_antisymm hlate (Duration.millis_le_millis.1 (h ▸ hearly))

theorem due_le_fire (k : Ticker) (now : Nat) : k.due ≤ (k.fire now).due := by
  have hlater : (k.fire now).deadline ≤ Duration.millis (k.fire now).due :=
    due_le_iff.1 (Nat.le_refl _)
  exact due_le_iff.2 (Nat.le_trans (Nat.le_of_lt (k.deadline_lt_fire now)) hlater)

theorem keeps_set {p : Nat} (h : 0 < p) (hp : p = Duration.millis period) :
    (set 0 p h).Keeps period 0 [] := by
  have hdeadline : (set 0 p h).deadline = Duration.millis period := by
    simp [set, Duration.millis, hp]
  have hdue := due_of_deadline hdeadline
  have hpos : 0 < period := Duration.pos_of_millis (hp ▸ h)
  refine ⟨hp, by rw [hdue, hdeadline], ?_, ?_, Nat.zero_le _, ?_⟩
  · rwa [hdue]
  · exact hdue ▸ Nat.dvd_refl _
  · -- The first period has no beat but its end.
    rw [hdue]
    refine (List.filter_eq_nil_iff.2 fun t ht => ?_).symm
    have hlt : t < period := List.mem_range.1 ht
    simp only [decide_eq_true_eq, not_and]
    intro hpos hdvd
    have := Nat.le_of_dvd hpos hdvd
    omega

theorem Keeps.passes (h : k.Keeps period now times) {later : Nat} (hl : later ≤ k.due) :
    k.Keeps period later times := { h with notLate := hl }

/-- Served as soon as it is due, a ticker is served at its next beat. -/
theorem Keeps.fire (h : k.Keeps period now times) (hdue : k.due ≤ now) :
    (k.fire now).Keeps period now (times ++ [now]) := by
  obtain ⟨hbeat, hdeadline, hahead, hdvd, hlate, rfl⟩ := h
  obtain rfl : now = k.due := Nat.le_antisymm hlate hdue
  have hfire : (k.fire k.due).deadline = Duration.millis (k.due + period) := by
    rw [k.deadline_fire_on_time, hbeat, Duration.millis_add, ← hdeadline]
  have hnext := due_of_deadline hfire
  have hpos : 0 < period := Duration.pos_of_millis (hbeat ▸ k.period_pos)
  refine ⟨hbeat, by rw [hnext, hfire], by omega, ?_, by omega, ?_⟩
  · rw [hnext]
    exact Nat.dvd_add hdvd (Nat.dvd_refl _)
  · rw [hnext, beats_add hahead hpos hdvd]

theorem Keeps.filter (h : k.Keeps period now times) {T : Nat} (hT : T ≤ now) :
    times.filter (· < T) = beats period T := by
  rw [h.times]
  exact filter_beats (Nat.le_trans hT h.notLate)

end Ticker

/-! ## Moments -/

namespace Timeline

/-- No timer that the session listens to is late. -/
def OnTime (t : Timeline) : Prop :=
  t.session.running = true →
    t.now ≤ t.probe.due ∧ (t.tails = true → t.now ≤ t.tail.due)

/-- What may take place next on a timeline whose timers are never late. -/
inductive Moment (t : Timeline) : Timeline × List Timed → Prop where
  /-- Something arrives: a frame, a command, or what ends the session. -/
  | arrives {i : Input} (hprobe : i ≠ .probe) (htail : i ≠ .tail) : Moment t (t.input i)
  /-- The ticker for pings is due, and served. -/
  | probe (hrun : t.session.running = true) (hdue : t.probe.due ≤ t.now) :
      Moment t t.serveProbe
  /-- The ticker that pulls the request log is due, and served. -/
  | tail (hrun : t.session.running = true) (htails : t.tails = true)
      (hdue : t.tail.due ≤ t.now) : Moment t t.serveTail
  /-- Time passes, up to the next deadline at most. -/
  | passes {now : Nat} (hnow : t.now ≤ now) (hontime : { t with now }.OnTime) :
      Moment t ({ t with now }, [])

/-- Some moments lead from one timeline to another, with these effects. -/
inductive Course (t : Timeline) : Timeline → List Timed → Prop where
  | start : Course t t []
  | next {u : Timeline} {effects : List Timed} {r : Timeline × List Timed} :
      Course t u effects → u.Moment r → Course t r.1 (effects ++ r.2)

variable {t u v : Timeline} {effects more : List Timed} {r : Timeline × List Timed}

theorem Course.append (h : t.Course u effects) (h' : u.Course v more) :
    t.Course v (effects ++ more) := by
  induction h' with
  | start => rwa [List.append_nil]
  | next _ hm ih =>
    rw [← List.append_assoc]
    exact ih.next hm

theorem Course.single (h : t.Moment r) : t.Course r.1 r.2 := by
  have := Course.start.next h
  rwa [List.nil_append] at this

/-! ## Scripts -/

theorem onTime_input (h : t.OnTime) (i : Input) : (t.input i).1.OnTime := by
  intro hrun
  have hfollow : (t.session.follow [(t.line, i)]).1.running = true := hrun
  have hmode := (t.session.step_stepped t.line i).mode
  obtain ⟨hprobe, htail⟩ := h (Session.running_of_follow hfollow)
  refine ⟨hprobe, fun htails => htail ?_⟩
  unfold tails at htails ⊢
  exact hmode ▸ htails

/-- **At every moment the timers stay on time.** -/
theorem Moment.onTime (h : t.OnTime) (hm : t.Moment r) : r.1.OnTime := by
  cases hm with
  | arrives => exact onTime_input h _
  | probe hrun hdue =>
    refine onTime_input (fun hrun' => ⟨?_, fun htails => ?_⟩) _
    · rw [Nat.max_eq_left hdue]
      exact Nat.le_trans (h hrun).1 (Ticker.due_le_fire _ _)
    · dsimp only
      rw [Nat.max_eq_left hdue]
      exact (h hrun).2 htails
  | tail hrun htails hdue =>
    refine onTime_input (fun hrun' => ⟨?_, fun _ => ?_⟩) _
    · dsimp only
      rw [Nat.max_eq_left hdue]
      exact (h hrun).1
    · rw [Nat.max_eq_left hdue]
      exact Nat.le_trans ((h hrun).2 htails) (Ticker.due_le_fire _ _)
  | passes hnow hontime => exact hontime

theorem Course.onTime (h : t.OnTime) (hc : t.Course u effects) : u.OnTime := by
  induction hc with
  | start => exact h
  | next _ hm ih => exact hm.onTime ih

theorem serveProbe_eq (hnow : t.now ≤ t.probe.due) :
    t.serveProbe = { t with now := t.probe.due }.serveProbe := by
  simp only [serveProbe, Nat.max_eq_right hnow, Nat.max_self]

theorem serveTail_eq (hnow : t.now ≤ t.tail.due) :
    t.serveTail = { t with now := t.tail.due }.serveTail := by
  simp only [serveTail, Nat.max_eq_right hnow, Nat.max_self]

/-- The timer that fires first is served after time has passed up to its deadline. -/
theorem course_serve? {target : Nat} (h : t.OnTime) (hnow : t.now ≤ target)
    (hs : t.serve? target = some r) : t.Course r.1 r.2 ∧ r.1.now ≤ target := by
  unfold serve? at hs
  split at hs
  · cases hs
  rename_i hrun
  have hrun : t.session.running = true := by simpa using hrun
  obtain ⟨hprobe, htail⟩ := h hrun
  split at hs
  · rename_i hfirst
    obtain rfl := Option.some.inj hs
    refine ⟨?_, Nat.max_le.2 ⟨hnow, hfirst.1⟩⟩
    rw [serveProbe_eq hprobe]
    have hpasses : t.Moment ({ t with now := t.probe.due }, []) :=
      .passes hprobe fun _ => ⟨Nat.le_refl _, hfirst.2⟩
    exact (Course.single hpasses).next (.probe hrun (Nat.le_refl _))
  · rename_i hlater
    split at hs
    · rename_i hfirst
      obtain rfl := Option.some.inj hs
      refine ⟨?_, Nat.max_le.2 ⟨hnow, hfirst.2⟩⟩
      rw [serveTail_eq (htail hfirst.1)]
      have hbefore : t.tail.due ≤ t.probe.due := by
        by_contra hlt
        exact hlater ⟨by omega, fun _ => by omega⟩
      have hpasses : t.Moment ({ t with now := t.tail.due }, []) :=
        .passes (htail hfirst.1) fun _ => ⟨hbefore, fun _ => Nat.le_refl _⟩
      exact (Course.single hpasses).next (.tail hrun hfirst.1 (Nat.le_refl _))
    · cases hs

/-- **While time passes, timers are served as they come due.** -/
theorem course_runTo {target : Nat} (h : t.OnTime) (hnow : t.now ≤ target) :
    t.Course (t.runTo target).1 (t.runTo target).2 := by
  -- Each timer that is served leaves less time for the timers to cover.
  induction hn : t.ahead target using Nat.strongRecOn generalizing t with
  | _ n ih =>
    subst hn
    cases hs : t.serve? target with
    | some served =>
      obtain ⟨hc, hnow'⟩ := course_serve? h hnow hs
      rw [runTo_of_some hs]
      exact hc.append (ih _ (ahead_serve? hs) (hc.onTime h) hnow' rfl)
    | none =>
      rw [runTo_of_none hs, Nat.max_eq_right hnow]
      refine Course.single (.passes hnow fun hrun => ?_)
      unfold serve? at hs
      rw [if_neg (by simpa using hrun)] at hs
      split at hs
      · cases hs
      rename_i hprobe
      split at hs
      · cases hs
      rename_i htail
      have htails : t.tails = true → target ≤ t.tail.due := by
        intro ht
        by_contra hlt
        exact htail ⟨ht, by omega⟩
      refine ⟨?_, htails⟩
      by_contra hlt
      exact hprobe ⟨Nat.le_of_lt (Nat.lt_of_not_le hlt), fun ht =>
        Nat.le_trans (Nat.le_of_lt (Nat.lt_of_not_le hlt)) (htails ht)⟩

theorem course_inputs (h : t.OnTime) (frames : List (List UInt8)) :
    t.Course (t.inputs (frames.map .frame)).1 (t.inputs (frames.map .frame)).2 := by
  induction frames generalizing t with
  | nil => exact .start
  | cons bytes frames ih =>
    have hm : t.Moment (t.input (.frame bytes)) := .arrives nofun nofun
    exact (Course.single hm).append (ih (hm.onTime h))

end Timeline

/-- Whether a cue brings frames or a command, or lets time pass. -/
def Cue.isTraffic : Cue → Bool
  | frames _ | command _ | advance _ => true
  | _ => false

namespace Timeline

theorem course_play {t : Timeline} {c : Cue} (h : t.OnTime) (hc : c.isTraffic = true) :
    t.Course (t.play c).1 (t.play c).2 := by
  cases c with
  | frames frames =>
    unfold play
    dsimp only
    split
    · exact .start
    · exact course_inputs h frames
  | command c => exact Course.single (.arrives nofun nofun)
  | advance millis => exact course_runTo h (Nat.le_add_right _ _)
  | _ => cases hc

/-- **A script of frames, commands and passing time is a course.** -/
theorem course_playAll {t : Timeline} {script : List Cue} (h : t.OnTime)
    (hs : ∀ c ∈ script, c.isTraffic = true) :
    t.Course (t.playAll script).1 ((t.playAll script).2.flatMap (·.2)) := by
  induction script generalizing t with
  | nil => exact .start
  | cons c script ih =>
    have hplay := course_play h (hs c List.mem_cons_self)
    exact hplay.append (ih (hplay.onTime h) fun c' hc' => hs c' (List.mem_cons_of_mem c hc'))

end Timeline

/-! ## What is sent at a moment -/

namespace Session

variable {s : Session} {line : Line} {input : Input} {m : ClientMessage}

theorem messages_of_request? (h : s.request? input = some m) (hm : m.Bounded)
    (hline : line.sendFault = none) : Effect.messages (s.step line input).2 = [m] := by
  obtain ⟨frame, he⟩ := encode?_of_request? h
  rw [step_of_request? h, send_of_line hline he]
  exact Effect.messages_of_frame _ rfl (ClientMessage.decode_of_encode? hm he)

/-- Only the ticks of its timers make a session poll. -/
theorem not_poll_of_mem (hprobe : input ≠ .probe) (htail : input ≠ .tail)
    (hm : m ∈ Effect.messages (s.step line input).2) : m.isPing = false ∧ m.isPull = false := by
  have hr := (s.step_stepped line input).request?_of_mem hm
  unfold request? at hr
  split at hr
  · split at hr
    · exact absurd rfl hprobe
    · exact absurd rfl htail
    · obtain ⟨-, -, rfl⟩ := Telemetry.olderRequest?_eq_some.1 hr
      exact ⟨rfl, rfl⟩
    · cases hr
  · cases hr

end Session

namespace Timeline

variable {mode : Mode} {p q : Nat} {t u v : Timeline} {past effects more : List Timed}
  {r : Timeline × List Timed}

/-- A timeline on which nothing has gone wrong, with all effects so far: each ticker that the
session listens to has been served at its beats, of period `p` or `q`, and nothing else has made it
poll. -/
structure Punctual (mode : Mode) (p q : Nat) (t : Timeline) (past : List Timed) : Prop where
  line : t.line.sendFault = none
  mode_eq : t.session.mode = mode
  probe : t.probe.Keeps p t.now (Timed.times isPing past)
  tail : mode = .requests → t.tail.Keeps q t.now (Timed.times isPull past)
  silent : mode = .stats → Timed.times isPull past = []

theorem times_input (kind : ClientMessage → Bool) (t : Timeline) (i : Input) :
    Timed.times kind (t.input i).2 =
      ((Effect.messages (t.session.step t.line i).2).filter kind).map fun _ => t.now :=
  Timed.times_at t.now _

theorem times_serveProbe (hline : t.line.sendFault = none) (hrun : t.session.running = true)
    (hdue : t.probe.due ≤ t.now) (kind : ClientMessage → Bool) :
    Timed.times kind t.serveProbe.2 = ([.ping].filter kind).map fun _ => t.now := by
  have hsent : Effect.messages (t.session.step t.line .probe).2 = [.ping] := by
    refine Session.messages_of_request? ?_ trivial hline
    simp only [Session.request?, hrun, if_true]
  rw [serveProbe, times_input, hsent, Nat.max_eq_left hdue]

theorem times_serveTail (hline : t.line.sendFault = none) (hrun : t.session.running = true)
    (hmode : t.session.mode = .requests) (hdue : t.tail.due ≤ t.now)
    (kind : ClientMessage → Bool) : Timed.times kind t.serveTail.2 =
      ([t.session.telemetry.tailRequest].filter kind).map fun _ => t.now := by
  have hsent : Effect.messages (t.session.step t.line .tail).2 =
      [t.session.telemetry.tailRequest] := by
    refine Session.messages_of_request? ?_ trivial hline
    simp only [Session.request?, hrun, hmode, if_true]
  rw [serveTail, times_input, hsent, Nat.max_eq_left hdue]

theorem Moment.running (hm : t.Moment r) (h : r.1.session.running = true) :
    t.session.running = true := by
  have hinput : ∀ {w : Timeline} {i : Input}, (w.input i).1.session.running = true →
      w.session.running = true := by
    intro w i hw
    have hfollow : (w.session.follow [(w.line, i)]).1.running = true := hw
    exact Session.running_of_follow hfollow
  cases hm with
  | arrives => exact hinput h
  | probe hrun => exact hrun
  | tail hrun => exact hrun
  | passes => exact h

/-- **Every moment that leaves the session open keeps it punctual.** -/
theorem Moment.punctual (h : t.Punctual mode p q past) (hm : t.Moment r)
    (hrun : r.1.session.running = true) : r.1.Punctual mode p q (past ++ r.2) := by
  have hmode : ∀ w : Timeline, w.session = t.session → ∀ i,
      (w.input i).1.session.mode = mode := by
    intro w hw i
    exact (w.session.step_stepped w.line i).mode.trans (hw ▸ h.mode_eq)
  cases hm with
  | @arrives i hprobe htail =>
    -- Nothing that arrives makes the session poll.
    have hnone : ∀ kind, (∀ m, m.isPing = false ∧ m.isPull = false → kind m = false) →
        Timed.times kind (past ++ (t.input i).2) = Timed.times kind past := by
      intro kind hkind
      rw [Timed.times_append, times_input, List.filter_eq_nil_iff.2, List.map_nil, List.append_nil]
      intro m hm
      simpa using hkind m (Session.not_poll_of_mem hprobe htail hm)
    have hpings := hnone isPing fun m hm => hm.1
    have hpulls := hnone isPull fun m hm => hm.2
    exact ⟨h.line, hmode t rfl i, hpings ▸ h.probe, fun hr => hpulls ▸ h.tail hr,
      fun hs => hpulls ▸ h.silent hs⟩
  | probe hopen hdue =>
    have htimes : ∀ kind, Timed.times kind (past ++ t.serveProbe.2) =
        Timed.times kind past ++ ([.ping].filter kind).map fun _ => t.now := by
      intro kind
      rw [Timed.times_append, times_serveProbe h.line hopen hdue]
    have hpings : Timed.times isPing (past ++ t.serveProbe.2) =
        Timed.times isPing past ++ [t.now] := htimes isPing
    have hpulls : Timed.times isPull (past ++ t.serveProbe.2) = Timed.times isPull past :=
      (htimes isPull).trans (List.append_nil _)
    refine ⟨h.line, hmode _ rfl _, ?_, fun hr => ?_, fun hs => hpulls ▸ h.silent hs⟩
    · rw [hpings]
      simp only [serveProbe, input, Nat.max_eq_left hdue]
      exact h.probe.fire hdue
    · rw [hpulls]
      simp only [serveProbe, input, Nat.max_eq_left hdue]
      exact h.tail hr
  | tail hopen htails hdue =>
    have hrequests : t.session.mode = .requests := by simpa [tails] using htails
    have hpulling : mode = .requests := h.mode_eq.symm.trans hrequests
    have htimes : ∀ kind, Timed.times kind (past ++ t.serveTail.2) = Timed.times kind past ++
        ([t.session.telemetry.tailRequest].filter kind).map fun _ => t.now := by
      intro kind
      rw [Timed.times_append, times_serveTail h.line hopen hrequests hdue]
    have hpings : Timed.times isPing (past ++ t.serveTail.2) = Timed.times isPing past :=
      (htimes isPing).trans (List.append_nil _)
    have hpulls : Timed.times isPull (past ++ t.serveTail.2) =
        Timed.times isPull past ++ [t.now] := htimes isPull
    refine ⟨h.line, hmode _ rfl _, ?_, fun hr => ?_, fun hs => ?_⟩
    · rw [hpings]
      simp only [serveTail, input, Nat.max_eq_left hdue]
      exact h.probe
    · rw [hpulls]
      simp only [serveTail, input, Nat.max_eq_left hdue]
      exact (h.tail hr).fire hdue
    · exact absurd (hs.symm.trans hpulling) (by decide)
  | passes hnow hontime =>
    obtain ⟨hprobe, htail⟩ := hontime hrun
    rw [List.append_nil]
    refine ⟨h.line, h.mode_eq, h.probe.passes hprobe, fun hr => ?_, h.silent⟩
    have htails : t.tails = true := decide_eq_true (h.mode_eq.trans hr)
    exact (h.tail hr).passes (htail htails)

theorem Course.punctual (h : t.Punctual mode p q []) (hc : t.Course u effects)
    (hrun : u.session.running = true) : u.Punctual mode p q effects := by
  induction hc with
  | start => exact h
  | next _ hm ih => exact hm.punctual (ih (hm.running hrun)) hrun

theorem Moment.now_le (hm : t.Moment r) : t.now ≤ r.1.now ∧ ∀ e ∈ r.2, t.now ≤ e.1 := by
  have hinput : ∀ {w : Timeline} {i : Input}, t.now ≤ w.now →
      t.now ≤ (w.input i).1.now ∧ ∀ e ∈ (w.input i).2, t.now ≤ e.1 := by
    intro w i hw
    refine ⟨hw, fun e he => ?_⟩
    obtain ⟨_, -, rfl⟩ := List.mem_map.1 he
    exact hw
  cases hm with
  | arrives => exact hinput (Nat.le_refl _)
  | probe => exact hinput (Nat.le_max_left _ _)
  | tail => exact hinput (Nat.le_max_left _ _)
  | passes hnow => exact ⟨hnow, nofun⟩

theorem Course.now_le (hc : t.Course u effects) : t.now ≤ u.now ∧ ∀ e ∈ effects, t.now ≤ e.1 := by
  induction hc with
  | start => exact ⟨Nat.le_refl _, nofun⟩
  | next _ hm ih =>
    obtain ⟨hnow, hlater⟩ := hm.now_le
    refine ⟨Nat.le_trans ih.1 hnow, fun e he => ?_⟩
    rcases List.mem_append.1 he with he | he
    · exact ih.2 e he
    · exact Nat.le_trans ih.1 (hlater e he)

/-- What a course adds does not show before its start. -/
theorem Course.filter_times {kind : ClientMessage → Bool} {T : Nat} (hc : u.Course v more)
    (hT : T ≤ u.now) : (Timed.times kind (effects ++ more)).filter (· < T) =
      (Timed.times kind effects).filter (· < T) := by
  have hlater : (Timed.times kind more).filter (· < T) = [] := by
    refine List.filter_eq_nil_iff.2 fun at' ha => ?_
    have := Timed.le_of_mem_times hc.now_le.2 ha
    simp only [decide_eq_true_eq]
    omega
  rw [Timed.times_append, List.filter_append, hlater, List.append_nil]

/-- A session that has just sent its first request, at time zero. -/
def start (settings : Settings) (line : Line) (hprobe : 0 < settings.probePeriod)
    (htail : 0 < settings.tailPeriod) : Timeline where
  now := 0
  session := .opened settings
  probe := .set 0 settings.probePeriod hprobe
  tail := .set 0 settings.tailPeriod htail
  line
  hungUp := false

theorem punctual_start {settings : Settings} {line : Line} (hline : line.sendFault = none)
    (hprobe : 0 < settings.probePeriod) (htail : 0 < settings.tailPeriod)
    (hp : settings.probePeriod = Duration.millis p)
    (hq : settings.tailPeriod = Duration.millis q) :
    (start settings line hprobe htail).Punctual settings.mode p q [] :=
  ⟨hline, rfl, Ticker.keeps_set hprobe hp, fun _ => Ticker.keeps_set htail hq, fun _ => rfl⟩

end Timeline

/-- **A session polls regularly, whatever else takes place.** As long as nothing fails to be sent,
it sends its pings at the multiples of their period. With the request log it pulls at the multiples
of that period, and with the stats never. So it is before any time that the session lives to see, in
whatever order things are served that are ready at once; every script of frames, commands and
passing time is such a course. The periods are whole milliseconds, since the clock counts these. -/
theorem polling_regular {host : Host} {settings : Settings} {p q : Nat}
    (hfits : Session.Fits host settings) (hp : settings.probePeriod = Duration.millis p)
    (hq : settings.tailPeriod = Duration.millis q) (endpoint : String) {line : Line}
    (hline : line.sendFault = none) :
    let begun := Session.begin host settings endpoint (.ok ()) line
    let t := Timeline.start settings line hfits.probe_pos hfits.tail_pos
    begun.outcome = .ok t.session ∧
    Effect.messages begun.effects = [settings.mode.handshake] ∧
    (∀ u effects v more T, t.Course u effects → u.session.running = true → T ≤ u.now →
      u.Course v more →
      (Timed.times isPing (effects ++ more)).filter (· < T) = beats p T ∧
        (Timed.times isPull (effects ++ more)).filter (· < T) =
          if settings.mode = .requests then beats q T else []) ∧
    ∀ script,
      Playback.ofScript host settings endpoint (.ok ()) line script =
        .ofTimeline t (begun.effects.map fun e => (0, e)) script ∧
      ((∀ c ∈ script, c.isTraffic = true) →
        t.Course (t.playAll script).1 ((t.playAll script).2.flatMap (·.2))) := by
  intro begun t
  have houtcome : begun.outcome = .ok t.session := by
    obtain ⟨frame, hm⟩ := Session.encode?_handshake settings.mode
    have hout := (Session.begin_of_fits hfits endpoint line).1
    rw [Session.send_of_line hline hm] at hout
    exact hout
  refine ⟨houtcome, Session.messages_begin houtcome hline, ?_, fun script => ⟨?_, ?_⟩⟩
  · intro u effects v more T hc hrun hT hlater
    have hstart := Timeline.punctual_start hline hfits.probe_pos hfits.tail_pos hp hq
    have hpunctual := hc.punctual hstart hrun
    rw [hlater.filter_times hT, hlater.filter_times hT]
    refine ⟨hpunctual.probe.filter hT, ?_⟩
    cases hmode : settings.mode with
    | stats =>
      rw [hpunctual.silent hmode]
      rfl
    | requests => exact (hpunctual.tail hmode).filter hT
  · exact Playback.ofScript_eq houtcome script
  · exact Timeline.course_playAll fun _ => ⟨Nat.zero_le _, fun _ => Nat.zero_le _⟩

/-- Settings of a session that follows the request log and pings twice as often as it pulls. -/
def Settings.brisk : Settings := ⟨.requests, Duration.millis 1, Duration.millis 2, 1⟩

/-- So it is in a crowd: a frame that means nothing, commands between the ticks, and two timers that
are due at once, of which the second one is served first. -/
theorem polling_regular_crowded :
    let t := Timeline.start .brisk ⟨none, none⟩ (by decide +kernel) (by decide +kernel)
    ∃ u effects, t.Course u effects ∧ u.session.running = true ∧ u.now = 3 ∧
      (Timed.times isPing effects).filter (· < 3) = [1, 2] ∧
      (Timed.times isPull effects).filter (· < 3) = [2] := by
  intro t
  have hone := (Timeline.Course.start (t := t)).next (.arrives (i := .frame [77]) nofun nofun)
    |>.next (@Timeline.Moment.passes _ 1 (by decide +kernel) fun _ => by decide +kernel)
    |>.next (.arrives (i := .command (.setPaused true)) nofun nofun)
    |>.next (.probe rfl (by decide +kernel))
  have htwo := hone
    |>.next (@Timeline.Moment.passes _ 2 (by decide +kernel) fun _ => by decide +kernel)
    |>.next (.tail rfl rfl (by decide +kernel))
    |>.next (.arrives (i := .command .loadOlder) nofun nofun)
    |>.next (.probe rfl (by decide +kernel))
    |>.next (@Timeline.Moment.passes _ 3 (by decide +kernel) fun _ => by decide +kernel)
  have hline : (⟨none, none⟩ : Line).sendFault = none := rfl
  have hfits : Session.Fits .usual .brisk := Session.startFault?_eq_none_iff.1 (by decide +kernel)
  obtain ⟨-, -, hregular, -⟩ := polling_regular hfits rfl rfl "" hline
  obtain ⟨hpings, hpulls⟩ := hregular _ _ _ _ 3 htwo rfl (by decide +kernel) .start
  rw [List.append_nil] at hpings hpulls
  exact ⟨_, _, htwo, rfl, rfl, hpings.trans (by decide +kernel), hpulls.trans (by decide +kernel)⟩

end Vitals
