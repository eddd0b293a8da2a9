/-
  A session that follows a request log agrees with it.

  * `RequestLog`: a log whose entries end one after the other and are not clipped on the wire.
  * `RequestLog.server`: it only grows, and a pull is answered with all entries after its cursor.
  * `RequestLog.Agrees`: the invariant. The entries let through so far are a front part of the log;
    every pull and every response under way may be stale, but never ahead of the session.
  * `requestLog_caught_up`: the answer to a pull makes it all of the log.
  * `requestLog_agreement`: what the session holds and has published is a front part of the log.
-/
import Vitals.Proofs.Session.Duplex

namespace Vitals

open Wire

/-- A request for the root of a server that ended at a given time. -/
def Request.plain (time : UInt64) : Request :=
  ⟨.get, .http11, 0, 0, time, 200, "/", "", "", "", "/"⟩

theorem Request.unclipped_plain (time : UInt64) : (plain time).Unclipped := by
  -- The texts are the same at any time.
  have hzero : (plain 0).Unclipped := by decide
  exact hzero

/-- The request log of a server. -/
structure RequestLog where
  entries : List Request
  ascending : entries.Pairwise (·.endMicros < ·.endMicros)
  positive : ∀ r ∈ entries, 0 < r.endMicros
  /-- No entry loses anything on the wire. -/
  unclipped : ∀ r ∈ entries, r.Unclipped

namespace RequestLog

/-- The log of plain requests that ended at given times. -/
def plain (times : List UInt64) (ascending : times.Pairwise (· < ·))
    (positive : ∀ t ∈ times, 0 < t) : RequestLog where
  entries := times.map Request.plain
  ascending := List.pairwise_map.2 ascending
  positive := List.forall_mem_map.2 positive
  unclipped := List.forall_mem_map.2 fun t _ => Request.unclipped_plain t

/-- The entries after a cursor. -/
def after (log : RequestLog) (cursor : UInt64) : List Request :=
  log.entries.filter (cursor < ·.endMicros)

/-- A pull is answered with the entries after its cursor; nothing else is answered with any. -/
inductive Answers (log : RequestLog) : ClientMessage → List (List UInt8) → Prop
  | entries (cursor time : UInt64) : Answers log (.recentRequests cursor)
      [(ServerMessage.recentRequests ⟨time, log.after cursor⟩).encode]
  | nothing {m : ClientMessage} : (∀ cursor, m ≠ .recentRequests cursor) → Answers log m []

/-- A server that keeps a request log. Whatever does not pass for a response to a pull may come
unasked: pongs, other responses, and junk. -/
def server : Server RequestLog where
  Grows log log' := log.entries <+: log'.entries
  Answers := Answers
  Volunteers bytes := ∀ batch, ServerMessage.decode bytes ≠ .ok (.recentRequests batch)

theorem length_after_lt (log : RequestLog) (cursor : UInt64) :
    (log.after cursor).length < 2 ^ 64 := by
  have hpos : ∀ r ∈ log.after cursor, 1 ≤ r.endMicros.toNat := fun r hr =>
    UInt64.lt_iff_toNat_lt.1 (log.positive r (List.mem_filter.1 hr).1)
  have hasc : (log.after cursor).Pairwise (·.endMicros < ·.endMicros) := log.ascending.filter _
  have := Cursor.length_le_of_ascending hasc (by decide) hpos
  omega

theorem records_of_answer (log : RequestLog) {cursor time : UInt64} {batch : Batch Request}
    (h : ServerMessage.decode (ServerMessage.recentRequests ⟨time, log.after cursor⟩).encode =
      .ok (.recentRequests batch)) : batch.records = log.after cursor := by
  have hclip : ∀ r ∈ log.after cursor, r.clip = r := fun r hr =>
    Request.clip_eq_self (log.unclipped r (List.mem_filter.1 hr).1)
  rw [ServerMessage.records_of_decode_recentRequests h,
    Batch.counted_eq_self (log.length_after_lt cursor), List.map_congr_left hclip]
  exact List.map_id _

section Responses

variable (log : RequestLog) {t : Telemetry} {past seen : List Request} {events : List Event}
  {cursor : UInt64}

theorem tail_lt_iff (hw : Window t past events) : ∀ r ∈ log.entries,
    t.requestTail.position < r.endMicros ↔
      ∀ q ∈ Cursor.start.fresh (·.endMicros) past, q.endMicros < r.endMicros := by
  intro r hr
  rw [hw.tail, Cursor.position_advanceAll_lt_iff_fresh]
  exact and_iff_right (log.positive r hr)

/-- It does not matter how stale a pull was: what its response adds is new to the session now. -/
theorem fresh_response (hw : Window t past events) (hs : seen <+: log.entries)
    (hc : cursor ≤ t.requestTail.position) :
    Cursor.start.fresh (·.endMicros) (past ++ seen.filter (cursor < ·.endMicros)) =
      Cursor.start.fresh (·.endMicros) past ++
        seen.filter (t.requestTail.position < ·.endMicros) := by
  have hasc : (seen.filter (cursor < ·.endMicros)).Pairwise (·.endMicros < ·.endMicros) :=
    (log.ascending.sublist hs.sublist).filter _
  rw [Cursor.fresh_append, ← hw.tail, Cursor.fresh_eq_filter _ hasc, List.filter_filter]
  congr 1
  refine List.filter_congr fun r _ => ?_
  simpa using fun hr => UInt64.lt_of_le_of_lt hc hr

end Responses

/-! ## The invariant -/

/-- A session agrees with a log: the entries that it has let through are a front part of the log,
and whatever is under way was asked for at a cursor that it has reached since. -/
structure Agrees (d : Duplex RequestLog) : Prop where
  window : ∃ past, Window d.session.telemetry past d.published ∧
    Cursor.start.fresh (·.endMicros) past <+: d.server.entries
  asked : ∀ bytes ∈ d.outgoing, ∀ cursor,
    ClientMessage.decode bytes = .ok (.recentRequests cursor) →
      cursor ≤ d.session.telemetry.requestTail.position
  answered : ∀ bytes ∈ d.incoming, ∀ batch,
    ServerMessage.decode bytes = .ok (.recentRequests batch) →
      ∃ seen cursor, seen <+: d.server.entries ∧
        cursor ≤ d.session.telemetry.requestTail.position ∧
        batch.records = seen.filter (cursor < ·.endMicros)

namespace Agrees

variable {d : Duplex RequestLog}

theorem grow (h : Agrees d) {log : RequestLog} (hg : d.server.entries <+: log.entries) :
    Agrees { d with server := log } where
  window := by
    obtain ⟨past, hw, hp⟩ := h.window
    exact ⟨past, hw, hp.trans hg⟩
  asked := h.asked
  answered bytes hb batch hd := by
    obtain ⟨seen, cursor, hs, hc, hr⟩ := h.answered bytes hb batch hd
    exact ⟨seen, cursor, hs.trans hg, hc, hr⟩

theorem answer (h : Agrees d) {bytes : List UInt8} {rest replies : List (List UInt8)}
    {m : ClientMessage} (hq : d.outgoing = bytes :: rest) (hm : ClientMessage.decode bytes = .ok m)
    (ha : Answers d.server m replies) :
    Agrees { d with outgoing := rest, incoming := d.incoming ++ replies } where
  window := h.window
  asked b hb := h.asked b (hq ▸ List.mem_cons_of_mem _ hb)
  answered b hb batch hd := by
    rcases List.mem_append.1 hb with hb | hb
    · exact h.answered b hb batch hd
    · cases ha with
      | entries cursor time =>
        obtain rfl := List.mem_singleton.1 hb
        have hc := h.asked bytes (hq ▸ List.mem_cons_self) cursor hm
        exact ⟨d.server.entries, cursor, List.prefix_refl _, hc, d.server.records_of_answer hd⟩
      | nothing _ => cases hb

theorem volunteer (h : Agrees d) {bytes : List UInt8} (hv : server.Volunteers bytes) :
    Agrees { d with incoming := d.incoming ++ [bytes] } where
  window := h.window
  asked := h.asked
  answered b hb batch hd := by
    rcases List.mem_append.1 hb with hb | hb
    · exact h.answered b hb batch hd
    · obtain rfl := List.mem_singleton.1 hb
      exact absurd hd (hv batch)

/-- **Any step of the session keeps the invariant**, if the response that it takes in was under way
and the pull that it sends is its own. -/
theorem stepped (h : Agrees d) {r : Session × List Effect} {op? : Option Operation}
    {request? : Option ClientMessage} (hs : d.session.Stepped r op? request?)
    (hop : ∀ batch, op? = some (.requests batch) → ∃ seen cursor, seen <+: d.server.entries ∧
      cursor ≤ d.session.telemetry.requestTail.position ∧
      batch.records = seen.filter (cursor < ·.endMicros))
    (hrequest : ∀ cursor, request? = some (.recentRequests cursor) →
      cursor ≤ d.session.telemetry.requestTail.position) : Agrees (d.after r) := by
  obtain ⟨past, hw, hp⟩ := h.window
  have hw' := hs.window hw
  -- What is under way stays good, because the cursor only moves up.
  have hmono : d.session.telemetry.requestTail.position ≤ r.1.telemetry.requestTail.position := by
    rw [hw'.tail, List.map_append, Cursor.advanceAll_append, ← hw.tail]
    exact Cursor.position_le_advanceAll _ _
  refine ⟨⟨_, hw', ?_⟩, fun bytes hb cursor hd => ?_, fun bytes hb batch hd => ?_⟩
  · have hsame : Cursor.start.fresh (·.endMicros) (past ++ []) <+: d.server.entries := by
      rwa [List.append_nil]
    rcases op? with _ | op
    · exact hsame
    · cases op with
      | requests batch =>
        obtain ⟨seen, cursor, hseen, hc, hr⟩ := hop batch rfl
        cases hpaused : d.session.telemetry.paused with
        | true => exact hsame
        | false =>
          show Cursor.start.fresh (·.endMicros) (past ++ (batch.records ++ [])) <+: _
          rw [List.append_nil, hr]
          -- The response may have been asked for long ago: only its part above the cursor counts.
          rw [d.server.fresh_response hw hseen hc]
          exact Cursor.append_newer_prefix d.server.ascending hp hseen (d.server.tail_lt_iff hw)
      | stats batch | pong batch | setPaused paused | clock millis => exact hsame
  · rcases List.mem_append.1 hb with hb | hb
    · exact UInt64.le_trans (h.asked bytes hb cursor hd) hmono
    · rcases hs.frames with hnone | ⟨m, frame, hm, -, hdecode, hone⟩
      · rw [hnone] at hb
        cases hb
      · rw [hone] at hb
        obtain rfl := List.mem_singleton.1 hb
        cases hdecode.symm.trans hd
        exact UInt64.le_trans (hrequest cursor hm) hmono
  · obtain ⟨seen, cursor, hseen, hc, hr⟩ := h.answered bytes hb batch hd
    exact ⟨seen, cursor, hseen, UInt64.le_trans hc hmono, hr⟩

theorem request_le {s : Session} {input : Input} {cursor : UInt64}
    (h : s.request? input = some (.recentRequests cursor)) :
    cursor ≤ s.telemetry.requestTail.position := by
  rcases s.request?_cases h with hping | ⟨htail, -⟩ | ho
  · cases hping
  · cases htail
    exact UInt64.le_refl _
  · cases (Telemetry.olderRequest?_eq_some.1 ho).2.2

theorem deliver (h : Agrees d) {bytes : List UInt8} {rest : List (List UInt8)}
    (hq : d.incoming = bytes :: rest) (line : Line) :
    Agrees ({ d with incoming := rest }.after (d.session.step line (.frame bytes))) := by
  have hrest : Agrees { d with incoming := rest } :=
    ⟨h.window, h.asked, fun b hb => h.answered b (hq ▸ List.mem_cons_of_mem _ hb)⟩
  refine hrest.stepped (d.session.step_stepped line (.frame bytes)) ?_ fun _ => request_le
  intro batch hop
  obtain ⟨b, hb, hd⟩ := d.session.operation?_requests hop
  cases hb
  exact h.answered bytes (hq ▸ List.mem_cons_self) batch hd

theorem act (h : Agrees d) {input : Input} (hf : ∀ bytes, input ≠ .frame bytes) (line : Line) :
    Agrees (d.after (d.session.step line input)) := by
  refine h.stepped (d.session.step_stepped line input) ?_ fun _ => request_le
  intro batch hop
  obtain ⟨b, hb, -⟩ := d.session.operation?_requests hop
  exact absurd hb (hf b)

/-- **Every reachable session agrees with the log of its server.** -/
theorem of_reachable {settings : Settings} (h : Duplex.Reachable server settings d) : Agrees d := by
  induction h with
  | start log host endpoint line hs =>
    obtain ⟨s₀, -, ht, h₀⟩ := Session.begin_stepped hs
    have hstart : Agrees ⟨log, s₀, [], [], []⟩ := by
      refine ⟨⟨[], ht ▸ Window.fresh settings.capacity, List.nil_prefix⟩, nofun, nofun⟩
    refine hstart.stepped h₀ nofun fun cursor hm => ?_
    cases hmode : settings.mode with
    | stats =>
      rw [hmode] at hm
      cases hm
    | requests =>
      rw [hmode] at hm
      cases hm
      exact UInt64.zero_le
  | step _ hs ih =>
    cases hs with
    | grow hg => exact ih.grow hg
    | answer hq hm ha => exact ih.answer hq hm ha
    | volunteer hv => exact ih.volunteer hv
    | deliver line hq => exact ih.deliver hq line
    | act line hf => exact ih.act hf line

end Agrees

theorem operation?_answer (log : RequestLog) (hord : ∀ r ∈ log.entries, r.Ordered)
    (cursor time : UInt64) :
    Feed.operation? .requests (ServerMessage.recentRequests ⟨time, log.after cursor⟩).encode =
      some (.requests ⟨time, log.after cursor⟩) := by
  have hcounted := Batch.counted_eq_self (log.length_after_lt cursor)
  have hclip : ∀ r ∈ log.after cursor, r.clip = r := fun r hr =>
    Request.clip_eq_self (log.unclipped r (List.mem_filter.1 hr).1)
  have hdecode := ServerMessage.decode_recentRequests ⟨time, log.after cursor⟩
    (by rw [hcounted]; exact fun r hr => hord r (List.mem_filter.1 hr).1)
  rw [hcounted, List.map_congr_left hclip, List.map_id'] at hdecode
  unfold Feed.operation?
  rw [hdecode]
  rfl

end RequestLog

variable {settings : Settings} {d : Duplex RequestLog}

/-- **The answer to a pull brings a session up to date** with the log, even if the pull was stale,
while the session is not paused and all entries are in order. -/
theorem requestLog_caught_up (h : Duplex.Reachable RequestLog.server settings d)
    (hmode : settings.mode = .requests) (hrun : d.session.running = true)
    (hpaused : d.session.telemetry.paused = false) (hord : ∀ r ∈ d.server.entries, r.Ordered)
    {cursor : UInt64} (hc : cursor ≤ d.session.telemetry.requestTail.position) (time : UInt64)
    (line : Line) :
    let answer := (ServerMessage.recentRequests ⟨time, d.server.after cursor⟩).encode
    let published := d.published ++ Effect.events (d.session.step line (.frame answer)).2
    (Event.logs published).flatMap List.reverse = d.server.entries := by
  intro answer published
  obtain ⟨past, hw, hp⟩ := (RequestLog.Agrees.of_reachable h).window
  have hop : d.session.operation? (.frame answer) =
      some (.requests ⟨time, d.server.after cursor⟩) := by
    simp only [Session.operation?, hrun, if_true, h.mode, hmode]
    exact d.server.operation?_answer hord cursor time
  have hs := (d.session.step_stepped line (.frame answer)).window hw
  have hlogged : Operation.logged d.session.telemetry.paused
      (d.session.operation? (.frame answer)).toList = d.server.after cursor := by
    rw [hop, hpaused]
    exact List.append_nil _
  rw [hlogged] at hs
  have hfresh := d.server.fresh_response hw (List.prefix_refl _) hc
  exact hs.told.trans (hfresh.trans
    (Cursor.append_newer d.server.ascending hp (List.prefix_refl _) (d.server.tail_lt_iff hw)))

/-- **A session agrees with the request log of its server.** In every state that it can reach there
is a front part of the log such that the cursor stands at the last entry of it, the window holds its
newest entries, newest first and as many as the capacity allows, and the requests published so far
are exactly its entries: none is lost, repeated or out of order. -/
theorem requestLog_agreement
    (h : Duplex.Reachable RequestLog.server settings d) :
    ∃ taken, taken <+: d.server.entries ∧
      d.session.telemetry.requestTail.position =
        (taken.getLast?.map Request.endMicros).getD 0 ∧
      d.session.telemetry.requests = taken.reverse.take settings.capacity ∧
      (Event.logs d.published).flatMap List.reverse = taken := by
  obtain ⟨past, hw, hp⟩ := (RequestLog.Agrees.of_reachable h).window
  refine ⟨_, hp, hw.position, ?_, hw.told⟩
  rw [hw.requests, h.capacity]

/-- So it is when two pulls at one cursor are under way and the log grows between their answers:
what the second one repeats is left out, and the oldest entry leaves the window. -/
theorem requestLog_agreement_pull :
    let settings : Settings := { Settings.usual .requests with capacity := 2 }
    ∃ d d' : Duplex RequestLog, Duplex.Reachable RequestLog.server settings d ∧
      d.server.entries = [.plain 5] ∧
      d.outgoing.map ClientMessage.decode = [.ok (.recentRequests 0), .ok (.recentRequests 0)] ∧
      Relation.ReflTransGen (Duplex.Step RequestLog.server) d d' ∧
      d'.server.entries = [.plain 5, .plain 7, .plain 9] ∧
      d'.session.telemetry.requestTail.position = 9 ∧
      d'.session.telemetry.requests = [.plain 9, .plain 7] ∧
      Event.logs d'.published = [[.plain 5], [.plain 9, .plain 7]] := by
  intro settings
  let short := RequestLog.plain [5] (by decide) (by simp)
  let long := RequestLog.plain [5, 7, 9] (by decide) (by simp)
  let line : Line := ⟨none, none⟩
  let pull : List UInt8 := [3, 0, 0, 0, 0, 0, 0, 0, 0]
  have hpull : ClientMessage.decode pull = .ok (.recentRequests 0) :=
    ClientMessage.decode_of_encode? (m := .recentRequests 0) trivial rfl
  let d₀ : Duplex RequestLog := ⟨short, .opened settings, [pull], [], []⟩
  let d := d₀.after (d₀.session.step line .tail)
  have started : Duplex.Reachable RequestLog.server settings d₀ := .start short .usual "" line rfl
  have asked : Duplex.Reachable RequestLog.server settings d := started.step (.act line nofun)
  have hsent : d.outgoing = [pull, pull] := by decide +kernel
  have answered : Relation.ReflTransGen (Duplex.Step RequestLog.server) d _ :=
    .head (.answer hsent hpull (.entries 0 1)) <|
      .head (@Duplex.Step.grow _ _ _ long ⟨[.plain 7, .plain 9], rfl⟩) <|
      .head (.answer rfl hpull (.entries 0 2)) <|
      .single (.deliver line rfl)
  have delivered := answered.tail (.deliver line rfl)
  obtain ⟨taken, -, hposition, hwindow, htold⟩ := requestLog_agreement (asked.trans delivered)
  have hordered : ∀ r ∈ long.entries, r.Ordered := by decide
  have hall := requestLog_caught_up (asked.trans answered) rfl (by decide +kernel)
    (by decide +kernel) hordered UInt64.zero_le 2 line
  have htaken : taken = long.entries := htold.symm.trans hall
  refine ⟨d, _, asked, rfl, ?_, delivered, rfl, ?_, ?_, ?_⟩
  · rw [hsent, List.map_cons, List.map_cons, hpull]
    rfl
  · rw [hposition, htaken]
    rfl
  · rw [hwindow, htaken]
    rfl
  · decide +kernel

end Vitals
