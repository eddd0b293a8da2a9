/-
  The order in which records are merged.

  * `Event.intervals`, `Event.entries`: the records of each stream that some events tell of.
  * `Event.Outlies past e`: the records of `e` lie beyond all of their stream that were merged
    before; `Event.Orderly`: so it is with each of some events.
  * `Telemetry.outlies_perform`, `Telemetry.orderly_performAll`: an operation outlies all before it,
    and so every run is orderly.
  * `PageBudget t past`: each older page has moved the start of the history down, so there are no
    more of them than keys below the seed.
  * `Telemetry.stats_infix_performAll`: what is held stays as it is.
  * `merge_monotone`: all of this of every run.
-/
import Vitals.Proofs.Telemetry.Redelivery
import Vitals.Proofs.Telemetry.Seed

namespace Vitals

open Stat

/-! ## The records merged -/

namespace Event

/-- The intervals that some events tell of. -/
def intervals (events : List Event) : List Stat :=
  (pages events).flatten ++ (seeds events).flatten ++ (appends events).flatten

/-- The entries of the request log that some events tell of. -/
def entries (events : List Event) : List Request := (logs events).flatten

/-- The records of an event lie beyond all of their stream that were merged before, in the direction
in which they join it. -/
def Outlies (past : List Event) : Event → Prop
  | statsSeeded _ => intervals past = []
  | statsPrepended page => ∀ s ∈ page, ∀ x ∈ intervals past, s.timestamp < x.timestamp
  | statsAppended new =>
    (∀ s ∈ new, ∀ x ∈ intervals past, x.timestamp < s.timestamp) ∧ Ascending new
  | requestsPrepended new =>
    (∀ r ∈ new, ∀ x ∈ entries past, x.endMicros < r.endMicros) ∧
      new.Pairwise fun a b => b.endMicros < a.endMicros
  | historyExhausted | serverTime _ | closed => True

/-- Every event outlies those before it. -/
def Orderly (events : List Event) : Prop :=
  ∀ before e after, events = before ++ e :: after → e.Outlies before

variable {past xs ys : List Event} {e : Event}

theorem orderly_nil : Orderly [] := fun before _ _ h =>
  absurd h.symm (List.append_ne_nil_of_right_ne_nil before (List.cons_ne_nil _ _))

theorem Orderly.append (h : Orderly xs)
    (hys : ∀ before e after, ys = before ++ e :: after → e.Outlies (xs ++ before)) :
    Orderly (xs ++ ys) := by
  intro before e after hcut
  rcases List.append_eq_append_iff.1 hcut with ⟨more, rfl, hmore⟩ | ⟨less, hxs, hless⟩
  · exact hys more e after hmore
  · rcases less with _ | ⟨x, less⟩
    · rw [List.append_nil] at hxs
      have := hys [] e after hless.symm
      rwa [List.append_nil, hxs] at this
    · obtain ⟨rfl, -⟩ := List.cons.inj hless
      exact h before e less hxs

/-- News of the clock does not matter. -/
theorem Outlies.clock (h : e.Outlies past) (millis : UInt64) :
    e.Outlies (past ++ [.serverTime millis]) := by
  have hintervals : intervals (past ++ [.serverTime millis]) = intervals past := by
    simp [intervals]
  have hentries : entries (past ++ [.serverTime millis]) = entries past := by simp [entries]
  cases e <;> simp only [Outlies, hintervals, hentries] <;> exact h

end Event

namespace Telemetry

variable {t : Telemetry} {past : List Event}

/-- What is held is what the events tell of. -/
theorem mem_stats_iff (hist : History t past) {s : Stat} :
    s ∈ t.stats ↔ s ∈ Event.intervals past := by
  rw [hist.stats]
  simp [Event.intervals]

theorem mem_entries {logged : List Request} (hw : Window t logged past) {r : Request}
    (hr : r ∈ t.requests) : r ∈ Event.entries past := by
  rw [hw.requests] at hr
  have hmem := List.mem_reverse.1 (List.mem_of_mem_take hr)
  rw [← hw.told] at hmem
  simpa [Event.entries] using hmem

/-! ## One operation -/

theorem length_events_seed (t : Telemetry) (page : List Stat) :
    (t.seed page).events.length ≤ 1 := by
  rcases t.seed_cases page with ⟨-, -, he⟩ | ⟨-, -, he⟩ <;> rw [he] <;> exact Nat.le_refl 1

theorem length_events_applyPage (t : Telemetry) (page : List Stat) :
    (t.applyPage page).events.length ≤ 1 := by
  rcases t.applyPage_cases page with ⟨-, -, h⟩ | ⟨-, -, h⟩ | ⟨-, -, -, he⟩ | ⟨-, -, h⟩
  · simp [h]
  · rw [h]
    rcases t.prepend_cases page with ⟨-, -, he⟩ | ⟨-, -, -, he⟩ | ⟨-, -, -, he⟩ <;> rw [he]
    · split <;> decide
    · decide
    · exact Nat.le_refl 1
  · simp [he]
  · rw [h]
    exact t.length_events_seed page

theorem length_events_applyTail (t : Telemetry) (stats : List Stat) :
    (t.applyTail stats).events.length ≤ 1 := by
  rcases t.applyTail_cases stats with ⟨-, h⟩ | ⟨-, -, -, -, he⟩
  · simp [h]
  · simp [he]

theorem length_events_applyLog (t : Telemetry) (requests : List Request) :
    (t.applyLog requests).events.length ≤ 1 := by
  rcases t.applyLog_cases requests with ⟨-, h⟩ | ⟨-, -, -, he⟩
  · simp [h]
  · simp [he]

theorem length_events_setPaused (t : Telemetry) (paused : Bool) :
    (t.setPaused paused).events.length ≤ 1 := by
  rcases t.setPaused_cases paused with ⟨page, -, -, -, he⟩ | ⟨-, -, he⟩ <;> rw [he]
  · exact length_events_seed _ _
  · exact Nat.zero_le 1

/-- An operation tells of one thing at most, besides the clock. -/
theorem events_perform (t : Telemetry) (op : Operation) : ∃ news, news.length ≤ 1 ∧
    ((t.perform op).events = news ∨
      ∃ millis, (t.perform op).events = .serverTime millis :: news) := by
  cases op with
  | stats batch => exact ⟨_, length_events_applyPage _ _, Or.inr ⟨batch.serverTime, rfl⟩⟩
  | pong batch => exact ⟨_, length_events_applyTail _ _, Or.inr ⟨batch.serverTime, rfl⟩⟩
  | requests batch => exact ⟨_, length_events_applyLog _ _, Or.inr ⟨batch.serverTime, rfl⟩⟩
  | setPaused paused => exact ⟨_, t.length_events_setPaused paused, Or.inl rfl⟩
  | clock millis => exact ⟨[], Nat.zero_le 1, Or.inr ⟨millis, rfl⟩⟩

/-- Only a request log adds entries, and these lie beyond those that the window is made of. -/
theorem outlies_log {logged : List Request} (hw : Window t logged past) {op : Operation}
    {new : List Request} (hn : .requestsPrepended new ∈ (t.perform op).events) :
    (Event.requestsPrepended new).Outlies past := by
  have hlog : new ∈ Event.logs (t.perform op).events := List.mem_filterMap.2 ⟨_, hn, rfl⟩
  by_cases hop : ∃ batch, op = .requests batch
  · obtain ⟨batch, rfl⟩ := hop
    simp only [perform, mergeRequests, applyBatch, Event.logs_cons, Event.log?,
      Option.toList_none, List.nil_append] at hlog
    rcases (t.observe batch.serverTime).applyLog_cases batch.records with ⟨-, hm⟩ | ⟨-, -, -, he⟩
    · simp [hm] at hlog
    · rw [he] at hlog
      obtain rfl := List.mem_singleton.1 hlog
      refine ⟨fun r hr x hx => ?_, List.pairwise_reverse.2 (Cursor.pairwise_fresh _ _)⟩
      have hlt := Cursor.position_lt_of_mem_fresh (List.mem_reverse.1 hr)
      have htail : (t.observe batch.serverTime).requestTail = _ := hw.tail
      rw [htail, Cursor.position_advanceAll_lt_iff_fresh, ← hw.told] at hlt
      exact hlt.2 x (by simpa [Event.entries] using hx)
  · have hnone : Event.logs (t.perform op).events = [] :=
      (t.sameLog_perform fun batch he => hop ⟨batch, he⟩).2
    rw [hnone] at hlog
    cases hlog

/-- **What an operation tells of outlies all that was merged before it.** -/
theorem outlies_perform {logged : List Request} (hist : History t past)
    (hw : Window t logged past) {op : Operation} {e : Event} (he : e ∈ (t.perform op).events) :
    e.Outlies past := by
  have hbeyond := hist.beyond op
  cases e with
  | statsSeeded page =>
    have hseed : page ∈ Event.seeds (t.perform op).events := List.mem_filterMap.2 ⟨_, he, rfl⟩
    cases hs : t.seeded with
    | true =>
      rw [(perform_seeded hist hs op).2.1] at hseed
      cases hseed
    | false =>
      obtain ⟨h1, h2, h3⟩ := hist.unseeded hs
      simp [Event.Outlies, Event.intervals, h1, h2, h3]
  | statsPrepended page =>
    obtain ⟨-, hlt⟩ := hbeyond.below page (List.mem_filterMap.2 ⟨_, he, rfl⟩)
    exact fun s hs x hx => hlt s hs x ((mem_stats_iff hist).2 hx)
  | statsAppended new =>
    obtain ⟨⟨batch, -, hnew⟩, hlt⟩ := hbeyond.above new (List.mem_filterMap.2 ⟨_, he, rfl⟩)
    refine ⟨fun s hs x hx => ?_, ?_⟩
    · obtain ⟨earlier, later, hcut⟩ := List.append_of_mem hs
      exact hlt earlier s later hcut x (List.mem_append_left _ ((mem_stats_iff hist).2 hx))
    · rw [hnew, ← Cursor.fresh_eq_highs ⟨newest t.stats⟩]
      exact Cursor.pairwise_fresh _ _
  | requestsPrepended new => exact outlies_log hw he
  | historyExhausted | serverTime millis | closed => trivial

/-! ## Runs -/

/-- **Every run tells of its records in order.** -/
theorem orderly_performAll {logged : List Request} (hist : History t past)
    (hw : Window t logged past) (ho : Event.Orderly past) (ops : List Operation) :
    Event.Orderly (past ++ (t.performAll ops).events) := by
  induction ops generalizing t past logged with
  | nil => rwa [performAll_nil, List.append_nil]
  | cons op ops ih =>
    have hstep : Event.Orderly (past ++ (t.perform op).events) := by
      refine ho.append fun before e after hcut => ?_
      have he : e ∈ (t.perform op).events := by simp [hcut]
      have hout := outlies_perform hist hw he
      -- There is one piece of news at most, so before it there is only the clock.
      have hfirst : ∀ {news more : List Event}, news.length ≤ 1 → news = more ++ e :: after →
          more = [] := by
        rintro _ more hone rfl
        rw [List.length_append, List.length_cons] at hone
        exact List.length_eq_zero_iff.1 (by omega)
      obtain ⟨news, hone, hevents | ⟨millis, hevents⟩⟩ := t.events_perform op
      · obtain rfl := hfirst hone (hevents.symm.trans hcut)
        rwa [List.append_nil]
      · rw [hevents] at hcut
        rcases List.cons_eq_append_iff.1 hcut with ⟨rfl, hclock⟩ | ⟨more, rfl, hnews⟩
        · obtain ⟨rfl, -⟩ := List.cons.inj hclock
          trivial
        · obtain rfl := hfirst hone hnews
          exact hout.clock millis
    have := ih (hist.perform op) (hw.perform op) hstep
    rwa [List.append_assoc] at this

/-- **What is held stays**, as one piece of what is held later. -/
theorem stats_infix_performAll (hist : History t past) (ops : List Operation) :
    t.stats <:+: (t.performAll ops).state.stats := by
  cases hs : t.seeded with
  | true =>
    have hseeds := (performAll_seeded hist hs ops).2
    have hnow := (hist.performAll ops).stats
    refine ⟨(Event.pages (t.performAll ops).events).reverse.flatten,
      (Event.appends (t.performAll ops).events).flatten, ?_⟩
    rw [hist.stats, hnow]
    simp [hseeds]
  | false =>
    rw [hist.stats_of_unseeded hs]
    exact List.nil_infix

/-- An older page moves the start of the history down. -/
theorem position_lt_of_prepended (hist : History t past) {op : Operation} {page : List Stat}
    (hp : .statsPrepended page ∈ (t.perform op).events) :
    (t.perform op).state.statsPage.position < t.statsPage.position := by
  have hmem : page ∈ Event.pages (t.perform op).events := List.mem_filterMap.2 ⟨_, hp, rfl⟩
  obtain ⟨batch, rfl, -⟩ := hist.pages_perform hmem
  simp only [perform, mergeStats, applyBatch, Event.pages_cons, Event.page?, Option.toList_none,
    List.nil_append] at hmem ⊢
  have hold : t.statsPage = (t.observe batch.serverTime).statsPage := rfl
  rw [hold]
  generalize t.observe batch.serverTime = u at hmem ⊢
  obtain ⟨hne, -⟩ := u.mem_pages_applyPage hmem
  rcases u.applyPage_cases batch.records with ⟨-, -, h⟩ | ⟨-, -, h⟩ | ⟨-, -, -, he⟩ | ⟨-, -, h⟩
  · simp [h] at hmem
  · rw [h]
    rcases u.prepend_cases batch.records with ⟨hnil, -⟩ | ⟨-, hnil, -⟩ | ⟨-, -, hst, -⟩
    · simp [older, hnil] at hne
    · exact absurd hnil hne
    · rw [hst]
      obtain ⟨s, hs⟩ := List.exists_mem_of_ne_nil _ hne
      have hbelow : s.timestamp < u.statsPage.position := by simpa using (List.mem_filter.1 hs).2
      exact UInt64.lt_of_le_of_lt (oldest_le hs) hbelow
  · simp [he] at hmem
  · rw [h, (u.blocks_seed batch.records).1] at hmem
    cases hmem

end Telemetry

/-! ## The number of older pages -/

/-- There have been no more older pages than keys between the start of the history and that of its
seed. -/
def PageBudget (t : Telemetry) (past : List Event) : Prop :=
  (Event.pages past).length + t.statsPage.position.toNat ≤
    (oldest (Event.seeds past).flatten).toNat

namespace PageBudget

variable {capacity : Nat} {t : Telemetry} {past : List Event}

theorem fresh (capacity : Nat) : PageBudget (.fresh capacity) [] := Nat.zero_le _

/-- The seed opens the budget: until then there are no pages. -/
theorem perform_unseeded (hacc : Account capacity t past) (hs : t.seeded = false)
    (op : Operation) : PageBudget (t.perform op).state (past ++ (t.perform op).events) := by
  have hnow := (hacc.perform op).history
  obtain ⟨-, hpages, -⟩ := hacc.history.unseeded hs
  rcases Telemetry.perform_unseeded hs op with ⟨page, hbrings, hseed⟩ | ⟨hs', -⟩
  · have hop : ∀ batch, op ≠ .pong batch := by
      rintro batch rfl
      exact hbrings
    have hopens := hseed.opens hacc hs hop
    have hnone : Event.pages (past ++ (t.perform op).events) = [] := by
      rw [Event.pages_append, hpages, hseed.pages, List.append_nil]
    rw [PageBudget, hnone, List.length_nil, Nat.zero_add, hnow.page, hopens.stats, hopens.seeds]
    by_cases hnil : page = [] <;> simp [hnil]
  · obtain ⟨hseeds, hnone, -⟩ := hnow.unseeded hs'
    rw [PageBudget, hnone, hnow.page, if_pos hseeds]
    exact Nat.zero_le _

theorem perform_seeded (h : PageBudget t past) (hist : History t past) (hs : t.seeded = true)
    (op : Operation) : PageBudget (t.perform op).state (past ++ (t.perform op).events) := by
  have hseeds := (Telemetry.perform_seeded hist hs op).2.1
  have hspent : (Event.pages (t.perform op).events).length +
      (t.perform op).state.statsPage.position.toNat ≤ t.statsPage.position.toNat := by
    obtain ⟨news, hone, hevents⟩ := t.events_perform op
    have hfew : (Event.pages (t.perform op).events).length ≤ 1 := by
      have hle : (Event.pages news).length ≤ news.length := List.length_filterMap_le _ _
      rcases hevents with he | ⟨millis, he⟩ <;> rw [he] <;> simp <;> omega
    by_cases hnone : Event.pages (t.perform op).events = []
    · rw [hnone, List.length_nil, Nat.zero_add]
      exact UInt64.le_iff_toNat_le.1 (Telemetry.position_perform_le hist hs op)
    · obtain ⟨page, hpage⟩ := List.exists_mem_of_ne_nil _ hnone
      obtain ⟨e, he, hep⟩ := List.mem_filterMap.1 hpage
      obtain rfl : e = .statsPrepended page := by cases e <;> simp_all
      have hlt := UInt64.lt_iff_toNat_lt.1 (Telemetry.position_lt_of_prepended hist he)
      omega
  rw [PageBudget, Event.pages_append, Event.seeds_append, hseeds, List.append_nil,
    List.length_append]
  unfold PageBudget at h
  omega

theorem performAll (h : PageBudget t past) (hacc : Account capacity t past)
    (ops : List Operation) :
    PageBudget (t.performAll ops).state (past ++ (t.performAll ops).events) := by
  induction ops generalizing t past with
  | nil => rwa [Telemetry.performAll_nil, List.append_nil]
  | cons op ops ih =>
    have hstep : PageBudget (t.perform op).state (past ++ (t.perform op).events) := by
      cases hs : t.seeded with
      | true => exact h.perform_seeded hacc.history hs op
      | false => exact perform_unseeded hacc hs op
    have := ih hstep (hacc.perform op)
    rwa [List.append_assoc] at this

end PageBudget

/-- **Merging only goes on.** Whatever arrives, and in whatever order: the newest interval and the
newest request merged never move back, a history that has begun is never begun again and never
starts later, its end is not forgotten, and what is held stays as it is. Each older page moves the
start of the history down, so there are no more of them than keys below the seed, and none without
one. The records that an event tells of lie beyond all of their stream that were merged before; what
is held was told of so. -/
theorem merge_monotone (capacity : Nat) (ops : List Operation) :
    let run := (Telemetry.fresh capacity).performAll ops
    let t := run.state
    (∀ later, let u := (t.performAll later).state
      t.statsTail.position ≤ u.statsTail.position ∧
      t.requestTail.position ≤ u.requestTail.position ∧
      (t.seeded = true → u.seeded = true ∧ u.statsPage.position ≤ t.statsPage.position) ∧
      (t.exhausted = true → u.exhausted = true) ∧
      t.stats <:+: u.stats) ∧
    (∀ op page, .statsPrepended page ∈ (t.perform op).events →
      (t.perform op).state.statsPage.position < t.statsPage.position) ∧
    (∀ seed ∈ Event.seeds run.events,
      (Event.pages run.events).length ≤ (oldest seed).toNat) ∧
    (Event.seeds run.events = [] → Event.pages run.events = []) ∧
    Event.Orderly run.events ∧
    (∀ s, s ∈ t.stats ↔ s ∈ Event.intervals run.events) ∧
    ∀ r ∈ t.requests, r ∈ Event.entries run.events := by
  intro run t
  have hacc : Account capacity t run.events := .of_fresh capacity ops
  have hw : Window t _ run.events := (Window.fresh capacity).performAll ops
  have hbudget : PageBudget t run.events :=
    (PageBudget.fresh capacity).performAll (.fresh capacity) ops
  refine ⟨fun later => ?_, fun op page => Telemetry.position_lt_of_prepended hacc.history,
    fun seed hseed => ?_, fun hnone => ?_, ?_, fun s => Telemetry.mem_stats_iff hacc.history,
    fun r => Telemetry.mem_entries hw⟩
  · have h := Telemetry.progresses_performAll hacc.history later
    refine ⟨h.statsTail, h.tail, fun hs => ⟨h.seeded hs, h.page hs⟩, fun hx => ?_, ?_⟩
    · exact h.exhausted (hacc.exhaustion.seeded hx) hx
    · exact Telemetry.stats_infix_performAll hacc.history later
  · unfold PageBudget at hbudget
    obtain ⟨page, -, hone⟩ := hacc.history.seeds.resolve_left (List.ne_nil_of_mem hseed)
    rw [hone] at hseed hbudget
    obtain rfl := List.mem_singleton.1 hseed
    rw [List.flatten_singleton] at hbudget
    omega
  · rw [PageBudget, hnone] at hbudget
    have hzero : (Event.pages run.events).length ≤ 0 :=
      Nat.le_trans (Nat.le_add_right _ _) hbudget
    exact List.length_eq_zero_iff.1 (Nat.le_zero.1 hzero)
  · exact Telemetry.orderly_performAll (.fresh capacity) (.fresh capacity) Event.orderly_nil ops

/-- A seed that starts at 2 leaves room for two older pages, each of one key. -/
example :
    let stat (timestamp : UInt64) : Stat := { (default : Stat) with timestamp }
    let page (timestamps : List UInt64) : Operation := .stats ⟨0, timestamps.map stat⟩
    Event.pages ((Telemetry.fresh 0).performAll
        [page [2, 3], page [1, 2], page [1], page [1, 0], page [0]]).events =
      [[stat 1], [stat 0]] := by
  decide

end Vitals
