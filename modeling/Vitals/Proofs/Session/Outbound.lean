/-
  What a session asks its server for.

  * `Effect.messages`: the messages that the frames sent carry.
  * `Asks t told mode m`: what a session may ask for when it holds `t` and has told of `told`.
  * `Session.Composed`: the invariant behind this; `Composed.asks`: every step asks accordingly.
  * `ClientMessage.Follows`: later questions ask for older pages, and for newer requests.
  * `outbound_discipline`: the first message of a session, and every later one.
-/
import Vitals.Proofs.Session.Broadcast
import Vitals.Proofs.Session.Duplex
import Vitals.Proofs.Session.Shutdown

namespace Vitals

/-! ## Messages -/

namespace Effect

/-- The messages that the frames sent carry, in order. -/
def messages (effects : List Effect) : List ClientMessage :=
  (frames effects).filterMap fun frame => (ClientMessage.decode frame).toOption

variable (xs ys : List Effect)

@[simp] theorem messages_nil : messages [] = [] := rfl

@[simp] theorem messages_append : messages (xs ++ ys) = messages xs ++ messages ys := by
  simp [messages]

theorem messages_of_frame {frame : List UInt8} {m : ClientMessage} (h : frames xs = [frame])
    (hm : ClientMessage.decode frame = .ok m) : messages xs = [m] := by
  simp [messages, h, hm, Except.toOption]

end Effect

namespace ClientMessage

/-- The cursor of a query for an older page. -/
@[simp] def olderCursor? : ClientMessage → Option UInt64
  | statsQuery cursor .older => some cursor
  | _ => none

/-- The cursor of a pull of the request log. -/
@[simp] def pullCursor? : ClientMessage → Option UInt64
  | recentRequests cursor => some cursor
  | _ => none

/-- A message may come after another one: queries go down the history, pulls go up the log. -/
def Follows : ClientMessage → ClientMessage → Prop
  | statsQuery cursor .older, statsQuery cursor' .older => cursor' ≤ cursor
  | recentRequests cursor, recentRequests cursor' => cursor ≤ cursor'
  | _, _ => True

namespace Follows

variable {m m' : ClientMessage}

theorem older (h : m.Follows m') : ∀ cursor, m.olderCursor? = some cursor →
    ∀ cursor', m'.olderCursor? = some cursor' → cursor ≥ cursor' := by
  intro cursor hc cursor' hc'
  unfold olderCursor? at hc hc'
  split at hc <;> cases hc
  split at hc' <;> cases hc'
  exact h

theorem pull (h : m.Follows m') : ∀ cursor, m.pullCursor? = some cursor →
    ∀ cursor', m'.pullCursor? = some cursor' → cursor ≤ cursor' := by
  intro cursor hc cursor' hc'
  unfold pullCursor? at hc hc'
  split at hc <;> cases hc
  split at hc' <;> cases hc'
  exact h

end Follows

end ClientMessage

/-! ## What may be asked for -/

/-- The greatest end of some requests, zero if there are none. -/
def Request.newestEnd (xs : List Request) : UInt64 := (xs.map (·.endMicros)).max?.getD 0

/-- What a session may ask for after its first request, when it holds `t` and has told of `told`. -/
inductive Asks (t : Telemetry) (told : List Event) : Mode → ClientMessage → Prop
  | ping {mode : Mode} : Asks t told mode .ping
  /-- The page before the oldest interval held, once a page was told of that has any, and as long as
  the end of the history was not. -/
  | older {page : List Stat} {cursor : UInt64} : page ≠ [] → .statsSeeded page ∈ told →
      .historyExhausted ∉ told → (t.stats.map (·.timestamp)).min? = some cursor →
      Asks t told .stats (.statsQuery cursor .older)
  /-- The requests after the newest one told of. -/
  | newer : Asks t told .requests (.recentRequests (Request.newestEnd (Event.logs told).flatten))

theorem Request.newestEnd_lt {xs : List Request} {k : UInt64} :
    newestEnd xs < k ↔ 0 < k ∧ ∀ x ∈ xs, x.endMicros < k := by
  simp [newestEnd, max?_getD_lt]

/-- The cursor of the request log stands at the newest request told of. -/
theorem Window.position_eq_newestEnd {t : Telemetry} {past : List Request} {events : List Event}
    (h : Window t past events) :
    t.requestTail.position = Request.newestEnd (Event.logs events).flatten := by
  refine Stat.eq_of_forall_gt_iff fun k => ?_
  rw [h.tail, Cursor.position_advanceAll_lt_iff_fresh, ← h.told, Request.newestEnd_lt]
  simp [Cursor.start]

/-- A copy whose history may go on has told of a page that has any interval. -/
def Founded (t : Telemetry) (past : List Event) : Prop :=
  t.seeded = true → t.exhausted = true ∨ Event.seeds past ≠ []

theorem Founded.perform {t : Telemetry} {past : List Event} (h : Founded t past)
    (hist : History t past) (op : Operation) :
    Founded (t.perform op).state (past ++ (t.perform op).events) := by
  intro hs'
  cases hs : t.seeded with
  | true =>
    obtain ⟨-, hno, hex⟩ := Telemetry.perform_seeded hist hs op
    rw [Event.seeds_append, hno, List.append_nil]
    exact (h hs).imp_left hex
  | false =>
    rcases Telemetry.perform_unseeded hs op with ⟨page, -, hby⟩ | ⟨hno, -⟩
    · by_cases hp : page = []
      · exact Or.inl (by simp [hby.exhausted, hp])
      · exact Or.inr (by simp [hby.seeds, hp])
    · exact absurd (hs'.symm.trans hno) (by decide)

namespace Session

variable {host : Host} {settings : Settings} {s u : Session} {told : List Event}
  {m m' : ClientMessage} {xs : List (Line × Input)}

/-! ## Steps -/

namespace Stepped

variable {r : Session × List Effect} {op? : Option Operation} {request? : Option ClientMessage}

theorem messages_cases (h : Stepped s r op? request?) :
    Effect.messages r.2 = [] ∨ ∃ m, request? = some m ∧ Effect.messages r.2 = [m] := by
  rcases h.frames with hf | ⟨m, frame, hr, -, hd, hf⟩
  · exact Or.inl (by simp [Effect.messages, hf])
  · exact Or.inr ⟨m, hr, Effect.messages_of_frame _ hf hd⟩

theorem request?_of_mem (h : Stepped s r op? request?) (hm : m ∈ Effect.messages r.2) :
    request? = some m := by
  rcases h.messages_cases with hnone | ⟨m', hr, hone⟩
  · simp [hnone] at hm
  · obtain rfl : m = m' := by simpa [hone] using hm
    exact hr

/-- What is sent is the messages, as they are encoded. -/
theorem encoded (h : Stepped s r op? request?) :
    (Effect.messages r.2).map ClientMessage.encode? = (Effect.frames r.2).map .ok := by
  rcases h.frames with hf | ⟨m, frame, -, he, hd, hf⟩
  · simp [Effect.messages, hf]
  · simp [Effect.messages_of_frame _ hf hd, hf, he]

end Stepped

/-- A session in the mode of its settings, whose events account for all that it asks for. One that
follows the request log holds nothing of the stats. -/
structure Composed (settings : Settings) (s : Session) (told : List Event) : Prop where
  mode : s.mode = settings.mode
  account : Account settings.capacity s.telemetry told
  founded : Founded s.telemetry told
  log : ∃ past, Window s.telemetry past told
  blank : settings.mode = .requests → s.telemetry.seeded = false ∧ s.telemetry.held = none

theorem operation?_ne_stats (hm : s.mode = .requests) (input : Input) (batch : Batch Stat) :
    s.operation? input ≠ some (.stats batch) := by
  have hframe : ∀ bytes, Feed.operation? .requests bytes ≠ some (.stats batch) := by
    intro bytes h
    unfold Feed.operation? at h
    split at h
    · rename_i message _
      cases message <;> cases h
    · cases h
  intro h
  unfold operation? at h
  rw [hm] at h
  split at h
  · split at h
    · exact hframe _ h
    · cases h
    · cases h
  · cases h

namespace Composed

theorem stepped {r : Session × List Effect} {op? : Option Operation}
    {request? : Option ClientMessage} (h : Composed settings s told)
    (hs : Stepped s r op? request?)
    (hop : settings.mode = .requests → ∀ batch, op? ≠ some (.stats batch)) :
    Composed settings r.1 (told ++ Effect.events r.2) where
  mode := hs.mode.trans h.mode
  account := hs.account h.account
  founded := by
    let Q (t : Telemetry) (past : List Event) : Prop := History t past ∧ Founded t past
    have hperform : ∀ t past op, Q t past →
        Q (t.perform op).state (past ++ (t.perform op).events) :=
      fun _ _ op hq => ⟨hq.1.perform op, hq.2.perform hq.1 op⟩
    have hclosed : ∀ t past, Q t past → Q t (past ++ [.closed]) := by
      intro t past hq
      refine ⟨hq.1.closed, fun ht => ?_⟩
      simpa using hq.2 ht
    exact (hs.keeps hperform hclosed ⟨h.account.history, h.founded⟩).2
  log := by
    obtain ⟨past, hw⟩ := h.log
    exact ⟨_, hs.window hw⟩
  blank hm := by
    obtain ⟨hseeded, hheld⟩ := h.blank hm
    rw [hs.telemetry]
    cases op? with
    | none => exact ⟨hseeded, hheld⟩
    | some op =>
      have hstats : ∀ batch, op ≠ .stats batch := fun batch he => hop hm batch (congrArg some he)
      rcases Telemetry.perform_unseeded hseeded op with ⟨page, hb, -⟩ | ⟨hs', -, hh | hh⟩
      · cases op with
        | stats batch => exact absurd rfl (hstats batch)
        | setPaused paused => exact absurd (hheld.symm.trans hb.2) nofun
        | _ => exact hb.elim
      · exact ⟨hs', hh.trans hheld⟩
      · obtain ⟨batch, he, -⟩ := hh
        exact absurd he (hstats batch)

theorem step (h : Composed settings s told) (line : Line) (input : Input) :
    Composed settings (s.step line input).1 (told ++ Effect.events (s.step line input).2) :=
  h.stepped (s.step_stepped line input) fun hm =>
    operation?_ne_stats (h.mode.trans hm) input

theorem follow (h : Composed settings s told) (xs : List (Line × Input)) :
    Composed settings (s.follow xs).1 (told ++ Effect.events (s.follow xs).2) :=
  follow_events s (fun _ _ line input hu => hu.step line input) h xs

/-- A session starts composed. -/
theorem begin {endpoint : String} {line : Line}
    (h : (begin host settings endpoint (.ok ()) line).outcome = .ok s) :
    Composed settings s (Effect.events (begin host settings endpoint (.ok ()) line).effects) := by
  obtain ⟨s₀, hm, ht, h₀⟩ := begin_stepped h
  have hfresh : Composed settings s₀ [] :=
    { mode := hm
      account := ht ▸ .fresh settings.capacity
      founded := fun hs => by simp [ht, Telemetry.fresh] at hs
      log := ⟨[], ht ▸ .fresh settings.capacity⟩
      blank := fun _ => by simp [ht, Telemetry.fresh] }
  refine hfresh.stepped h₀ fun _ batch hop => ?_
  cases hop

/-- **A session asks only for what it may.** -/
theorem asks (h : Composed settings s told) {input : Input} (hm : s.request? input = some m) :
    Asks s.telemetry told settings.mode m := by
  rcases s.request?_cases hm with rfl | ⟨rfl, hmode⟩ | ho
  · exact .ping
  · obtain ⟨past, hw⟩ := h.log
    rw [h.mode.symm.trans hmode, Telemetry.tailRequest, hw.position_eq_newestEnd]
    exact .newer
  · obtain ⟨hseeded, hex, rfl⟩ := Telemetry.olderRequest?_eq_some.1 ho
    have hstats : settings.mode = .stats := by
      cases hmode : settings.mode with
      | stats => rfl
      | requests => exact absurd (hseeded.symm.trans (h.blank hmode).1) (by decide)
    have hseeds : Event.seeds told ≠ [] :=
      (h.founded hseeded).resolve_left (by simp [hex])
    obtain ⟨page, hne, hpage⟩ := h.account.history.seeds.resolve_left hseeds
    obtain ⟨e, he, hseed⟩ : ∃ e ∈ told, e.seed? = some page :=
      List.mem_filterMap.1 (hpage ▸ List.mem_singleton.2 rfl : page ∈ Event.seeds told)
    have htold : .statsSeeded page ∈ told := by
      cases e <;> cases hseed
      exact he
    have hnone : .historyExhausted ∉ told := by
      refine List.count_eq_zero.1 ?_
      rw [h.account.exhaustion.count, hex]
      rfl
    rw [hstats]
    refine .older hne htold hnone ?_
    rw [h.account.history.page, if_neg hseeds]
    exact Stat.min?_timestamp (h.account.history.stats_ne_nil hseeds)

end Composed

/-! ## Runs -/

theorem encoded_follow (s : Session) (xs : List (Line × Input)) :
    (Effect.messages (s.follow xs).2).map ClientMessage.encode? =
      (Effect.frames (s.follow xs).2).map .ok := by
  induction xs generalizing s with
  | nil => rfl
  | cons x xs ih =>
    obtain ⟨line, input⟩ := x
    rw [follow_cons, Effect.messages_append, Effect.frames_append, List.map_append,
      List.map_append, ih, (s.step_stepped line input).encoded]

/-- Every message of a run was sent by one of its steps. -/
theorem exists_of_mem_messages (h : m ∈ Effect.messages (s.follow xs).2) :
    ∃ before line input after, xs = before ++ (line, input) :: after ∧
      m ∈ Effect.messages ((s.follow before).1.step line input).2 := by
  induction xs generalizing s with
  | nil => cases h
  | cons x xs ih =>
    obtain ⟨line, input⟩ := x
    rw [follow_cons, Effect.messages_append, List.mem_append] at h
    rcases h with h | h
    · exact ⟨[], line, input, xs, rfl, h⟩
    · obtain ⟨before, line', input', after, rfl, hm⟩ := ih h
      exact ⟨(line, input) :: before, line', input', after, rfl, hm⟩

theorem advances_follow (hist : History s.telemetry told) (xs : List (Line × Input)) :
    s.telemetry.Advances (s.follow xs).1.telemetry := by
  let P (u : Session) (past : List Event) : Prop :=
    History u.telemetry past ∧ s.telemetry.Advances u.telemetry
  have hstep : ∀ (u : Session) past line input, P u past →
      P (u.step line input).1 (past ++ Effect.events (u.step line input).2) := by
    intro u past line input hu
    have hs := u.step_stepped line input
    exact ⟨hs.history hu.1, hu.2.trans (hs.advances hu.1)⟩
  have hstart : P s told := ⟨hist, .refl _⟩
  exact (follow_events s hstep hstart xs).2

/-- What a session asks for after it has moved on comes after what it asked for before. -/
theorem follows_of_advances {input input' : Input} (h : s.request? input = some m)
    (h' : u.request? input' = some m') (hu : s.telemetry.Advances u.telemetry) : m.Follows m' := by
  rcases s.request?_cases h with rfl | ⟨rfl, -⟩ | ho
  · trivial
  · rcases u.request?_cases h' with rfl | ⟨rfl, -⟩ | ho'
    · trivial
    · exact hu.tail
    · obtain ⟨-, -, rfl⟩ := Telemetry.olderRequest?_eq_some.1 ho'
      trivial
  · obtain ⟨hseeded, -, rfl⟩ := Telemetry.olderRequest?_eq_some.1 ho
    rcases u.request?_cases h' with rfl | ⟨rfl, -⟩ | ho'
    · trivial
    · trivial
    · obtain ⟨-, -, rfl⟩ := Telemetry.olderRequest?_eq_some.1 ho'
      exact hu.page hseeded

/-- **The questions of a run go down the history and up the log.** -/
theorem pairwise_follow (hist : History s.telemetry told) (xs : List (Line × Input)) :
    (Effect.messages (s.follow xs).2).Pairwise ClientMessage.Follows := by
  induction xs generalizing s told with
  | nil => exact .nil
  | cons x xs ih =>
    obtain ⟨line, input⟩ := x
    have hs := s.step_stepped line input
    rw [follow_cons, Effect.messages_append, List.pairwise_append]
    refine ⟨?_, ih (hs.history hist), fun m hm m' hm' => ?_⟩
    · rcases hs.messages_cases with h | ⟨m, -, h⟩ <;> rw [h]
      · exact .nil
      · exact List.pairwise_singleton _ _
    · obtain ⟨before, line', input', after, rfl, hlater⟩ := exists_of_mem_messages hm'
      have hs' := ((s.step line input).1.follow before).1.step_stepped line' input'
      refine follows_of_advances (hs.request?_of_mem hm) (hs'.request?_of_mem hlater) ?_
      exact (hs.advances hist).trans (advances_follow (hs.history hist) before)

/-- Whatever a session asks for may come after its first request. -/
theorem handshake_follows (mode : Mode) (m : ClientMessage) : mode.handshake.Follows m := by
  cases mode with
  | stats => cases m <;> trivial
  | requests =>
    cases m with
    | recentRequests cursor => exact UInt64.zero_le
    | _ => trivial

/-- A session that follows the request log has no older page to ask for. -/
theorem frames_loadOlder (hs : s.telemetry.seeded = false) (line : Line) :
    Effect.frames (s.step line (.command .loadOlder)).2 = [] := by
  rcases (s.step_stepped line (.command .loadOlder)).frames with hf | ⟨m, -, hm, -⟩
  · exact hf
  · unfold request? at hm
    split at hm
    · have := (Telemetry.olderRequest?_eq_some.1 hm).1
      exact absurd (hs.symm.trans this) (by decide)
    · cases hm

/-- The first request of a session is its first message, if it can be sent. -/
theorem messages_begin {endpoint : String} {line : Line}
    (h : (begin host settings endpoint (.ok ()) line).outcome = .ok s)
    (hf : line.sendFault = none) :
    Effect.messages (begin host settings endpoint (.ok ()) line).effects =
      [settings.mode.handshake] := by
  obtain ⟨-, frame, hm, hframes⟩ := begin_of_line h hf
  exact Effect.messages_of_frame _ hframes
    (ClientMessage.decode_of_encode? (bounded_handshake settings.mode) hm)

end Session

/-- **A session asks only for what it can use next.** Each frame that it sends encodes a message.
The first one is the request of its mode, and it sends nothing if that fails. With the stats it
never repeats this: all that follows are pings and queries for the page before the oldest interval
held, at ever older cursors, after a first page with any interval and before the end of the history
is told of. With the request log all that follows are pings and pulls of the requests after the
newest one merged, at ever newer cursors; no stats are held, and asking for an older page sends
nothing. -/
theorem outbound_discipline {host : Host} {settings : Settings} {endpoint : String} {line : Line}
    {s : Session} (h : (Session.begin host settings endpoint (.ok ()) line).outcome = .ok s)
    (inputs : List (Line × Input)) :
    let started := (Session.begin host settings endpoint (.ok ()) line).effects
    let r := s.follow inputs
    let all := started ++ r.2
    (Effect.messages all).map ClientMessage.encode? = (Effect.frames all).map .ok ∧
      (line.sendFault ≠ none → Effect.frames all = []) ∧
      (∀ before line' input after, inputs = before ++ (line', input) :: after →
        let u := (s.follow before).1
        ∀ m ∈ Effect.messages (u.step line' input).2,
          Asks u.telemetry (Effect.events (started ++ (s.follow before).2)) settings.mode m) ∧
      (settings.mode = .stats →
        (line.sendFault = none →
          Effect.messages all = .statsQuery 0 .initial :: Effect.messages r.2) ∧
        .statsQuery 0 .initial ∉ Effect.messages r.2 ∧
        ((Effect.messages all).filterMap ClientMessage.olderCursor?).Pairwise (· ≥ ·)) ∧
      (settings.mode = .requests →
        (line.sendFault = none →
          Effect.messages all = .recentRequests 0 :: Effect.messages r.2) ∧
        ((Effect.messages all).filterMap ClientMessage.pullCursor?).Pairwise (· ≤ ·) ∧
        r.1.telemetry.stats = [] ∧ r.1.telemetry.held = none ∧
        ∀ line', Effect.frames (r.1.step line' (.command .loadOlder)).2 = []) := by
  intro started r all
  have hc : Session.Composed settings s (Effect.events started) := .begin h
  have hr := hc.follow inputs
  have hall : Effect.messages all = Effect.messages started ++ Effect.messages r.2 :=
    Effect.messages_append _ _
  have hasks : ∀ before line' input after, inputs = before ++ (line', input) :: after →
      let u := (s.follow before).1
      ∀ m ∈ Effect.messages (u.step line' input).2,
        Asks u.telemetry (Effect.events (started ++ (s.follow before).2)) settings.mode m := by
    intro before line' input after _ u m hm
    rw [Effect.events_append]
    exact (hc.follow before).asks ((u.step_stepped line' input).request?_of_mem hm)
  obtain ⟨s₀, -, -, h₀⟩ := Session.begin_stepped h
  have hpairs : (Effect.messages all).Pairwise ClientMessage.Follows := by
    have hlater := Session.pairwise_follow hc.account.history inputs
    rw [hall]
    rcases h₀.messages_cases with he | ⟨m, hm, he⟩
    · rwa [he]
    · cases hm
      rw [he]
      exact .cons (fun m _ => Session.handshake_follows _ m) hlater
  refine ⟨?_, fun hf => ?_, hasks, fun hmode => ⟨fun hf => ?_, ?_, ?_⟩,
    fun hmode => ⟨fun hf => ?_, ?_, ?_, ?_, ?_⟩⟩
  · rw [hall, Effect.frames_append, List.map_append, List.map_append, h₀.encoded,
      s.encoded_follow inputs]
  · obtain ⟨hover, -, hframes, -⟩ := Session.begin_of_fault h hf
    simp only [all, r, Session.follow_over hover, List.append_nil]
    exact hframes
  · rw [hall, Session.messages_begin h hf, hmode]
    rfl
  · intro hm
    obtain ⟨before, line', input, after, hcut, hm⟩ := Session.exists_of_mem_messages hm
    have hask := hasks before line' input after hcut _ hm
    rw [hmode] at hask
    cases hask
  · exact hpairs.filterMap ClientMessage.olderCursor? fun _ _ hm => hm.older
  · rw [hall, Session.messages_begin h hf, hmode]
    rfl
  · exact hpairs.filterMap ClientMessage.pullCursor? fun _ _ hm => hm.pull
  · exact hr.account.history.stats_of_unseeded (hr.blank hmode).1
  · exact (hr.blank hmode).2
  · exact Session.frames_loadOlder (hr.blank hmode).1

/-- So it is with a session that pages back from a first page, and stops at the end of the history. -/
theorem outbound_discipline_paging :
    let line : Line := ⟨none, none⟩
    let bring (timestamps : List UInt64) : Line × Input :=
      (line, .frame (ServerMessage.stats
        ⟨0, timestamps.map fun t => { (default : Stat) with timestamp := t }⟩).encode)
    let ask : Line × Input := (line, .command .loadOlder)
    let inputs := [ask, bring [7, 9], ask, bring [3, 5], (line, .probe), ask, bring [], ask]
    let begun := Session.begin .usual (.usual .stats) "" (.ok ()) line
    ∃ s, begun.outcome = .ok s ∧ Effect.messages (begun.effects ++ (s.follow inputs).2) =
        [.statsQuery 0 .initial, .statsQuery 7 .older, .ping, .statsQuery 3 .older] ∧
      .statsQuery 0 .initial ∉ Effect.messages (s.follow inputs).2 ∧
      ((Effect.messages (begun.effects ++ (s.follow inputs).2)).filterMap
        ClientMessage.olderCursor?).Pairwise (· ≥ ·) := by
  intro line bring ask inputs begun
  have hs : begun.outcome = .ok ⟨.stats, ⟨.opened, 1⟩, true, .fresh 100⟩ := rfl
  obtain ⟨-, -, -, hstats, -⟩ := outbound_discipline hs inputs
  obtain ⟨hfirst, honce, holder⟩ := hstats rfl
  refine ⟨_, hs, (hfirst rfl).trans ?_, honce, holder⟩
  have hlater : Effect.messages
      (Session.follow ⟨.stats, ⟨.opened, 1⟩, true, .fresh 100⟩ inputs).2 =
        [.statsQuery 7 .older, .ping, .statsQuery 3 .older] := by
    decide +kernel
  rw [hlater]

end Vitals
