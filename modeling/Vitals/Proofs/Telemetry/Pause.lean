/-
  Pauses.

  * `Telemetry.perform_paused`, `Telemetry.performAll_paused`: while a copy is paused its clock
    moves, and the last page that comes is taken in hand if there is no history. Nothing else
    happens.
  * `Telemetry.performAll_pause`: so a pause leaves no trace but the clock, or the seed.
  * `Event.news`: what some events tell of besides the clock.
  * `pause_semantics`: a copy after a pause is what it would be without one, given the last page.
-/
import Vitals.Proofs.Telemetry.History

namespace Vitals

/-- The events that are no news of the server's clock. -/
def Event.news (events : List Event) : List Event :=
  events.filter fun
    | .serverTime _ => false
    | _ => true

theorem Event.news_append (xs ys : List Event) : news (xs ++ ys) = news xs ++ news ys :=
  List.filter_append ..

theorem Event.news_serverTime (clocks : List UInt64) : news (clocks.map .serverTime) = [] := by
  refine List.filter_eq_nil_iff.2 fun e he => ?_
  obtain ⟨millis, -, rfl⟩ := List.mem_map.1 he
  simp

namespace Telemetry

variable {s t : Telemetry} {op : Operation} {ops : List Operation}

/-- **While paused an operation only moves the clock**, and takes a page in hand. -/
theorem perform_paused (hp : t.paused = true) (hop : ∀ paused, op ≠ .setPaused paused) :
    ∃ millis, op.clock? = some millis ∧ (t.perform op).events = [.serverTime millis] ∧
      (t.perform op).state = { t with
        serverTime := some millis
        held := if t.seeded then t.held else op.response?.or t.held } := by
  cases op with
  | stats batch =>
    refine ⟨batch.serverTime, rfl, ?_⟩
    cases hs : t.seeded <;>
      simp [perform, mergeStats, applyBatch, applyPage, observe, Operation.response?, hs, hp]
  | pong batch =>
    exact ⟨batch.serverTime, rfl,
      by simp [perform, mergePong, applyBatch, applyTail, observe, Operation.response?, hp]⟩
  | requests batch =>
    exact ⟨batch.serverTime, rfl,
      by simp [perform, mergeRequests, applyBatch, applyLog, observe, Operation.response?, hp]⟩
  | setPaused paused => exact absurd rfl (hop paused)
  | clock millis => exact ⟨millis, rfl, rfl, by simp [perform, observe, Operation.response?]⟩

/-- **A pause holds on to the last page and to the last clock**, and to nothing else. -/
theorem performAll_paused (hp : t.paused = true) (hops : ∀ paused, .setPaused paused ∉ ops) :
    (t.performAll ops).events = (Operation.clocks ops).map .serverTime ∧
      (t.performAll ops).state = { t with
        serverTime := (Operation.clocks ops).getLast?.or t.serverTime
        held := if t.seeded then t.held else (Operation.responses ops).getLast?.or t.held } := by
  induction ops generalizing t with
  | nil => simp
  | cons op ops ih =>
    have hop : ∀ paused, op ≠ .setPaused paused := by
      rintro paused rfl
      exact hops paused List.mem_cons_self
    obtain ⟨millis, hclock, hev, hst⟩ := perform_paused hp hop
    have hrest := ih (t := (t.perform op).state) (by rw [hst]; exact hp)
      fun paused hm => hops paused (List.mem_cons_of_mem _ hm)
    rw [hst] at hrest
    obtain ⟨hevents, hstate⟩ := hrest
    constructor
    · show (t.perform op).events ++ ((t.perform op).state.performAll ops).events = _
      rw [hst, hev, hevents, Operation.clocks_cons, hclock]
      rfl
    · show ((t.perform op).state.performAll ops).state = _
      rw [hst, hstate, Operation.clocks_cons, Operation.responses_cons, hclock]
      -- The last of some is the last of the rest, or else the first.
      cases hs : t.seeded <;> cases op.response? <;>
        simp [List.getLast?_cons]

/-- What the clock shows has no part in the seed. -/
theorem seed_clock (t : Telemetry) (clock : Option UInt64) (page : List Stat) :
    ({ t with serverTime := clock }.seed page).state =
        { (t.seed page).state with serverTime := clock } ∧
      ({ t with serverTime := clock }.seed page).events = (t.seed page).events := by
  unfold seed
  dsimp only
  split <;> exact ⟨rfl, rfl⟩

theorem setPaused_true (t : Telemetry) :
    (t.setPaused true).state = { t with paused := true } ∧ (t.setPaused true).events = [] := by
  rcases t.setPaused_cases true with ⟨_, _, h, _⟩ | ⟨-, hst, hev⟩
  · cases h
  · exact ⟨hst, hev⟩

theorem setPaused_false_of_none (h : t.held = none) :
    (t.setPaused false).state = { t with paused := false } ∧ (t.setPaused false).events = [] := by
  rcases t.setPaused_cases false with ⟨page, hpage, -⟩ | ⟨-, hst, hev⟩
  · rw [h] at hpage
    cases hpage
  · exact ⟨hst, hev⟩

theorem setPaused_false_of_some {page : List Stat} (h : t.held = some page) :
    (t.setPaused false).state = ({ t with paused := false, held := none }.seed page).state ∧
      (t.setPaused false).events =
        ({ t with paused := false, held := none }.seed page).events := by
  rcases t.setPaused_cases false with ⟨page', hpage, -, hst, hev⟩ | ⟨hno, -⟩
  · obtain rfl := Option.some.inj (h.symm.trans hpage)
    exact ⟨hst, hev⟩
  · rw [h] at hno
    rcases hno with hno | hno <;> cases hno

theorem mergeStats_of_unseeded (hs : t.seeded = false) (hp : t.paused = false)
    (batch : Batch Stat) :
    (t.mergeStats batch).state = ((t.observe batch.serverTime).seed batch.records).state ∧
      (t.mergeStats batch).events =
        .serverTime batch.serverTime ::
          ((t.observe batch.serverTime).seed batch.records).events := by
  simp [mergeStats, applyBatch, applyPage, observe, hs, hp]

/-- **What a pause comes to** for a copy that holds no page: only the clock has moved, or else the
last page seeds the copy. -/
theorem performAll_pause (hp : s.paused = false) (hh : s.held = none)
    (hops : ∀ paused, .setPaused paused ∉ ops) :
    let r := s.performAll (.setPaused true :: (ops ++ [.setPaused false]))
    let now := { s with serverTime := (Operation.clocks ops).getLast?.or s.serverTime }
    let clocks := (Operation.clocks ops).map Event.serverTime
    (s.seeded = true ∨ Operation.responses ops = [] → r.state = now ∧ r.events = clocks) ∧
    (s.seeded = false → ∀ page, (Operation.responses ops).getLast? = some page →
      r.state = (now.seed page).state ∧ r.events = clocks ++ (now.seed page).events) := by
  intro r now clocks
  obtain ⟨hst, hev⟩ := s.setPaused_true
  obtain ⟨hevents, hstate⟩ := performAll_paused (t := { s with paused := true }) rfl hops
  generalize hu : ({ s with paused := true }.performAll ops).state = u at hstate
  have hrun : r.state = (u.setPaused false).state ∧
      r.events = clocks ++ (u.setPaused false).events := by
    constructor
    · show ((s.setPaused true).state.performAll (ops ++ [.setPaused false])).state = _
      rw [hst, state_performAll_append, hu]
      rfl
    · show (s.setPaused true).events ++
        ((s.setPaused true).state.performAll (ops ++ [.setPaused false])).events = _
      rw [hst, hev, events_performAll_append, hevents, hu, events_performAll_singleton]
      rfl
  have hnow : { now with paused := false, held := none } = now := by rw [← hp, ← hh]
  constructor
  · intro hidle
    have hnone : u.held = none := by
      rw [hstate]
      rcases hidle with hs | hnone <;> simp [*]
    obtain ⟨hst', hev'⟩ := setPaused_false_of_none hnone
    rw [hrun.1, hrun.2, hst', hev', List.append_nil]
    refine ⟨Eq.trans ?_ hnow, rfl⟩
    rw [← hnone, hstate]
  · intro hs page hpage
    have hsome : u.held = some page := by
      rw [hstate]
      simp [hs, hpage]
    obtain ⟨hst', hev'⟩ := setPaused_false_of_some hsome
    have hback : { u with paused := false, held := none } = now := by
      rw [← hnow, hstate]
    rw [hrun.1, hrun.2, hst', hev', hback]
    exact ⟨rfl, rfl⟩

end Telemetry

/-- **A pause only postpones.** While a copy is paused, each response is news of the clock and
nothing else. Afterwards the copy is as it was, with the last clock, if it had a history before or
there was no stats response. The last stats response of a pause does what it would have done without
the pause to a copy that had no history, wherever in the pause it came. -/
theorem pause_semantics (capacity : Nat) (before ops : List Operation)
    (hp : ((Telemetry.fresh capacity).performAll before).state.paused = false)
    (hops : ∀ paused, .setPaused paused ∉ ops) :
    let s := ((Telemetry.fresh capacity).performAll before).state
    let r := s.performAll (.setPaused true :: (ops ++ [.setPaused false]))
    let clock := (Operation.clocks ops).getLast?.or s.serverTime
    (∀ earlier op later, ops = earlier ++ op :: later → ∃ millis, op.clock? = some millis ∧
      ((s.performAll (.setPaused true :: earlier)).state.perform op).events =
        [.serverTime millis]) ∧
    (s.seeded = true ∨ Operation.responses ops = [] →
      r.state = { s with serverTime := clock } ∧ Event.news r.events = []) ∧
    (s.seeded = false → ∀ batch earlier later, ops = earlier ++ .stats batch :: later →
      Operation.responses later = [] →
        r.state = { (s.mergeStats batch).state with serverTime := clock } ∧
        Event.news r.events = Event.news (s.mergeStats batch).events) := by
  intro s r clock
  have hist := History.of_fresh capacity before
  have hheld : s.held = none := by
    by_contra hne
    exact absurd (hp.symm.trans (hist.held hne).2) (by decide)
  obtain ⟨hidle, hseed⟩ := Telemetry.performAll_pause hp hheld hops
  refine ⟨fun earlier op later hcut => ?_, fun h => ?_, fun hs batch earlier later hcut hlast => ?_⟩
  · have hmem : ∀ paused, .setPaused paused ∉ earlier ∧ op ≠ .setPaused paused := by
      intro paused
      have := hops paused
      simp only [hcut, List.mem_append, List.mem_cons, not_or] at this
      exact ⟨this.1, fun h => this.2.1 h.symm⟩
    have hpaused : (s.performAll (.setPaused true :: earlier)).state.paused = true := by
      show ((s.setPaused true).state.performAll earlier).state.paused = true
      rw [s.setPaused_true.1, (Telemetry.performAll_paused rfl fun p => (hmem p).1).2]
    obtain ⟨millis, hclock, hev, -⟩ := Telemetry.perform_paused hpaused fun p => (hmem p).2
    exact ⟨millis, hclock, hev⟩
  · obtain ⟨hstate, hevents⟩ := hidle h
    exact ⟨hstate, by rw [hevents, Event.news_serverTime]⟩
  · have hpage : (Operation.responses ops).getLast? = some batch.records := by
      rw [hcut, Operation.responses_append, Operation.responses_cons, hlast]
      simp [Operation.response?]
    obtain ⟨hstate, hevents⟩ := hseed hs _ hpage
    obtain ⟨hst, hev⟩ := Telemetry.mergeStats_of_unseeded hs hp batch
    rw [hstate, hevents, hst, hev]
    obtain ⟨hst', hev'⟩ := s.seed_clock clock batch.records
    obtain ⟨hst'', hev''⟩ := s.seed_clock (some batch.serverTime) batch.records
    refine ⟨?_, ?_⟩
    · rw [hst', Telemetry.observe, hst'']
    · rw [Event.news_append, Event.news_serverTime, hev', Telemetry.observe, hev'']
      rfl

theorem pause_semantics_late_page :
    let stat (timestamp : UInt64) : Stat := { (default : Stat) with timestamp }
    let request (endMicros : UInt64) : Request := { (default : Request) with endMicros }
    let before : List Operation := [.pong ⟨1, [stat 3]⟩, .requests ⟨2, [request 8]⟩]
    let page : Batch Stat := ⟨4, [stat 5, stat 6]⟩
    let ops : List Operation := [.pong ⟨3, [stat 9]⟩, .stats page, .requests ⟨7, [request 9]⟩]
    let s := ((Telemetry.fresh 1).performAll before).state
    let r := s.performAll (.setPaused true :: (ops ++ [.setPaused false]))
    s.paused = false ∧ (∀ paused, .setPaused paused ∉ ops) ∧
      r.state = { (s.mergeStats page).state with serverTime := some 7 } ∧
      Event.news r.events = [.statsSeeded [stat 5, stat 6]] := by
  intro stat request before page ops s r
  have hops : ∀ paused, .setPaused paused ∉ ops := by decide
  obtain ⟨-, -, hseed⟩ := pause_semantics 1 before ops rfl hops
  obtain ⟨hstate, hnews⟩ :=
    hseed rfl page [.pong ⟨3, [stat 9]⟩] [.requests ⟨7, [request 9]⟩] rfl rfl
  exact ⟨rfl, hops, hstate, hnews⟩

end Vitals
