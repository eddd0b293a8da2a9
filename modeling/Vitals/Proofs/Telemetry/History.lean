/-
  The stats history, after any run of operations.

  * `Stat.Ascending`: intervals in strictly ascending order.
  * `History t past`: the history of `t` is made of the blocks that the events `past` carry, older
    pages in front of the seed and newer intervals behind it, and its two cursors stand at the ends.
  * `Beyond held op events`: what an operation adds lies beyond the intervals held.
  * `History.perform`, `History.performAll`: operations keep the blocks.
  * `history_blocks`: what this says of a run from the start, and that a history is ascending as
    soon as its seed and its pages are.
-/
import Vitals.Proofs.Telemetry.Outcome

namespace Vitals

open Stat

/-- Intervals in strictly ascending order. -/
def Stat.Ascending (xs : List Stat) : Prop := xs.Pairwise (·.timestamp < ·.timestamp)

/-- The history of a copy is made of the blocks that some events carry, and its cursors stand at its
ends. A page is held only before the history is seeded, and only while paused. -/
structure History (t : Telemetry) (past : List Event) : Prop where
  seeds : Event.seeds past = [] ∨ ∃ page, page ≠ [] ∧ Event.seeds past = [page]
  stats : t.stats = (Event.pages past).reverse.flatten ++ (Event.seeds past).flatten ++
    (Event.appends past).flatten
  tail : t.statsTail.position = newest t.stats
  page : t.statsPage.position = if Event.seeds past = [] then 0 else oldest t.stats
  unseeded : t.seeded = false → Event.NoStats past
  held : t.held ≠ none → t.seeded = false ∧ t.paused = true
  ascending : Ascending t.stats ↔ (∀ page ∈ Event.seeds past, Ascending page) ∧
    ∀ page ∈ Event.pages past, Ascending page

/-- What an operation adds to the intervals held: of a stats response all that lies below them, and
of a pong each interval that lies above them and above those before it. -/
structure Beyond (held : List Stat) (op : Operation) (events : List Event) : Prop where
  below : ∀ page ∈ Event.pages events,
    (∃ batch, op = .stats batch ∧
      page = batch.records.filter fun s => ∀ x ∈ held, s.timestamp < x.timestamp) ∧
    ∀ s ∈ page, ∀ x ∈ held, s.timestamp < x.timestamp
  above : ∀ new ∈ Event.appends events,
    (∃ batch, op = .pong batch ∧
      new = Cursor.highs (·.timestamp) (newest held) batch.records) ∧
    ∀ earlier s later, new = earlier ++ s :: later →
      ∀ x ∈ held ++ earlier, x.timestamp < s.timestamp

namespace History

variable {t u : Telemetry} {past : List Event}

theorem fresh (capacity : Nat) : History (.fresh capacity) [] where
  seeds := Or.inl rfl
  stats := rfl
  tail := rfl
  page := rfl
  unseeded _ := ⟨rfl, rfl, rfl⟩
  held h := absurd rfl h
  ascending := by simp [Telemetry.fresh, Ascending, Event.seeds, Event.pages]

/-- What leaves the stats history alone keeps its blocks. -/
theorem congr (h : History t past) (hs : SameHistory t u)
    (hu : u.held ≠ none → u.seeded = false ∧ u.paused = true) {es : List Event}
    (he : Event.NoStats es) : History u (past ++ es) := by
  obtain ⟨h1, h2, h3, h4⟩ := hs
  obtain ⟨e1, e2, e3⟩ := he
  have hseeds : Event.seeds (past ++ es) = Event.seeds past := by simp [e1]
  have hpages : Event.pages (past ++ es) = Event.pages past := by simp [e2]
  have happends : Event.appends (past ++ es) = Event.appends past := by simp [e3]
  refine ⟨by rw [hseeds]; exact h.seeds, ?_, by rw [h1, h2]; exact h.tail, ?_, ?_, hu, ?_⟩
  · rw [h1, hseeds, hpages, happends]
    exact h.stats
  · rw [h1, h3, hseeds]
    exact h.page
  · intro hf
    rw [Event.NoStats, hseeds, hpages, happends]
    exact h.unseeded (h4 ▸ hf)
  · rw [h1, hseeds, hpages]
    exact h.ascending

theorem stats_of_unseeded (h : History t past) (hs : t.seeded = false) : t.stats = [] := by
  obtain ⟨h1, h2, h3⟩ := h.unseeded hs
  rw [h.stats, h1, h2, h3]
  rfl

theorem stats_ne_nil (h : History t past) (hs : Event.seeds past ≠ []) : t.stats ≠ [] := by
  obtain ⟨page, hp, he⟩ := h.seeds.resolve_left hs
  rw [h.stats, he]
  simp [hp]

theorem seed (h : History t past) (hs : t.seeded = false) (hh : t.held = none) (page : List Stat) :
    History (t.seed page).state (past ++ (t.seed page).events) := by
  obtain ⟨e1, e2, e3⟩ := h.unseeded hs
  have hnil := h.stats_of_unseeded hs
  rcases t.seed_cases page with ⟨-, hst, hev⟩ | ⟨hp, hst, hev⟩ <;> rw [hst, hev]
  · refine ⟨by simp [e1], by simp [hnil, e1, e2, e3], h.tail, ?_, nofun, fun hn => absurd hh hn, ?_⟩
    · simpa [e1] using h.page
    · simpa [e1, e2] using h.ascending
  · refine ⟨by simp [e1, hp], by simp [e1, e2, e3], ?_, by simp [e1], nofun,
      fun hn => absurd hh hn, by simp [e1, e2]⟩
    -- A cursor is known by the keys above it, and so is the newest of some intervals.
    refine eq_of_forall_gt_iff fun k => ?_
    rw [Cursor.position_advance_lt, h.tail, hnil, newest_lt, newest_lt]
    simp

/-- The older intervals of a page lie below all held. Without a seed there are none. -/
theorem older_lt (h : History t past) {page : List Stat} (ho : t.older page ≠ []) :
    Event.seeds past ≠ [] ∧ ∀ x ∈ t.older page, ∀ y ∈ t.stats, x.timestamp < y.timestamp := by
  have hpos : ∀ x ∈ t.older page, x.timestamp < t.statsPage.position := by
    intro x hx
    simpa using (List.mem_filter.1 hx).2
  have hseeds : Event.seeds past ≠ [] := by
    intro hnil
    obtain ⟨x, hx⟩ := List.exists_mem_of_ne_nil _ ho
    have := hpos x hx
    rw [h.page, if_pos hnil] at this
    exact absurd this UInt64.not_lt_zero
  refine ⟨hseeds, fun x hx => ?_⟩
  have := hpos x hx
  rw [h.page, if_neg hseeds] at this
  exact (lt_oldest (h.stats_ne_nil hseeds)).1 this

theorem prepend (h : History t past) (hs : t.seeded = true) (page : List Stat) :
    History (t.prepend page).state (past ++ (t.prepend page).events) := by
  rcases t.prepend_cases page with ⟨-, hst, hev⟩ | ⟨-, -, hst, hev⟩ | ⟨-, ho, hst, hev⟩ <;>
    rw [hst, hev]
  · have hsame : SameHistory t { t with exhausted := true } := ⟨rfl, rfl, rfl, rfl⟩
    refine h.congr hsame h.held ?_
    split <;> exact ⟨rfl, rfl, rfl⟩
  · rw [List.append_nil]
    exact h
  · obtain ⟨hseeds, hlt⟩ := h.older_lt ho
    have hne := h.stats_ne_nil hseeds
    refine ⟨by simpa using h.seeds, by simp [h.stats], ?_, ?_, ?_, h.held, ?_⟩
    · exact h.tail.trans (newest_append hne hlt).symm
    · simp [hseeds, oldest_append ho hlt]
    · rw [hs]
      nofun
    · have hcat : Ascending (t.older page ++ t.stats) ↔
          Ascending (t.older page) ∧ Ascending t.stats := by
        unfold Ascending
        rw [List.pairwise_append]
        exact ⟨fun ⟨h1, h2, _⟩ => ⟨h1, h2⟩, fun ⟨h1, h2⟩ => ⟨h1, h2, hlt⟩⟩
      rw [hcat, h.ascending]
      simp only [Event.seeds_append, Event.pages_append, Event.seeds_cons, Event.pages_cons,
        Event.seed?, Event.page?, Option.toList_none, Option.toList_some, Event.seeds_nil,
        Event.pages_nil, List.append_nil, List.mem_append, List.mem_singleton]
      constructor
      · rintro ⟨ho', hseed, hpages⟩
        refine ⟨hseed, fun p hp => ?_⟩
        rcases hp with hp | rfl
        · exact hpages p hp
        · exact ho'
      · rintro ⟨hseed, hpages⟩
        exact ⟨hpages _ (Or.inr rfl), hseed, fun p hp => hpages p (Or.inl hp)⟩

theorem lt_fresh (h : History t past) {stats : List Stat} {s : Stat}
    (hs : s ∈ t.statsTail.fresh (·.timestamp) stats) :
    ∀ x ∈ t.stats, x.timestamp < s.timestamp := by
  have := Cursor.position_lt_of_mem_fresh hs
  rw [h.tail, newest_lt] at this
  exact this.2

theorem applyTail (h : History t past) (stats : List Stat) :
    History (t.applyTail stats).state (past ++ (t.applyTail stats).events) := by
  rcases t.applyTail_cases stats with ⟨-, hm⟩ | ⟨-, hs, hf, hst, hev⟩
  · rw [hm, List.append_nil]
    exact h
  · rw [hst, hev]
    have hlt : ∀ x ∈ t.stats, ∀ y ∈ t.statsTail.fresh (·.timestamp) stats,
        x.timestamp < y.timestamp := fun x hx y hy => h.lt_fresh hy x hx
    refine ⟨by simpa using h.seeds, by simp [h.stats], ?_, ?_, ?_, h.held, ?_⟩
    · refine eq_of_forall_gt_iff fun k => ?_
      rw [Cursor.position_advanceAll_lt_iff_fresh, h.tail, newest_lt, newest_lt]
      simp [or_imp, forall_and, and_assoc]
    · have hpage := h.page
      simp only [Event.seeds_append, Event.seeds_cons, Event.seed?, Option.toList_none,
        Event.seeds_nil, List.append_nil]
      split
      · rw [hpage, if_pos ‹_›]
      · rw [hpage, if_neg ‹_›, oldest_append (h.stats_ne_nil ‹_›) hlt]
    · rw [hs]
      nofun
    · have hcat : Ascending (t.stats ++ t.statsTail.fresh (·.timestamp) stats) ↔
          Ascending t.stats := by
        unfold Ascending
        rw [List.pairwise_append]
        exact ⟨And.left, fun h1 => ⟨h1, Cursor.pairwise_fresh _ _, hlt⟩⟩
      rw [hcat, h.ascending]
      simp

theorem observe (h : History t past) (millis : UInt64) :
    History (t.observe millis) (past ++ [.serverTime millis]) := by
  have hsame : SameHistory t (t.observe millis) := ⟨rfl, rfl, rfl, rfl⟩
  have hno : Event.NoStats [.serverTime millis] := ⟨rfl, rfl, rfl⟩
  exact h.congr hsame h.held hno

/-- The end of a session leaves its history alone. -/
theorem closed (h : History t past) : History t (past ++ [.closed]) :=
  h.congr ⟨rfl, rfl, rfl, rfl⟩ h.held ⟨rfl, rfl, rfl⟩

theorem applyPage (h : History t past) (page : List Stat) :
    History (t.applyPage page).state (past ++ (t.applyPage page).events) := by
  have hnone : Event.NoStats [] := ⟨rfl, rfl, rfl⟩
  rcases t.applyPage_cases page with ⟨-, -, hm⟩ | ⟨hs, -, hm⟩ | ⟨hs, hp, hst, hev⟩ | ⟨hs, hp, hm⟩
  · rw [hm, List.append_nil]
    exact h
  · rw [hm]
    exact h.prepend hs page
  · have hsame : SameHistory t { t with held := some page } := ⟨rfl, rfl, rfl, rfl⟩
    rw [hst, hev]
    exact h.congr hsame (fun _ => ⟨hs, hp⟩) hnone
  · have hheld : t.held = none := by
      by_contra hne
      exact absurd (hp.symm.trans (h.held hne).2) (by decide)
    rw [hm]
    exact h.seed hs hheld page

theorem applyLog (h : History t past) (requests : List Request) :
    History (t.applyLog requests).state (past ++ (t.applyLog requests).events) := by
  obtain ⟨hsame, hno⟩ := t.sameHistory_applyLog requests
  refine h.congr hsame ?_ hno
  rcases t.applyLog_cases requests with ⟨-, hm⟩ | ⟨-, -, hst, -⟩
  · rw [hm]
    exact h.held
  · rw [hst]
    exact h.held

theorem setPaused (h : History t past) (paused : Bool) :
    History (t.setPaused paused).state (past ++ (t.setPaused paused).events) := by
  have hnone : Event.NoStats [] := ⟨rfl, rfl, rfl⟩
  rcases t.setPaused_cases paused with ⟨page, hheld, -, hst, hev⟩ | ⟨hno, hst, hev⟩ <;>
    rw [hst, hev]
  · have hseeded := (h.held (by simp [hheld])).1
    have hsame : SameHistory t { t with paused := false, held := none } := ⟨rfl, rfl, rfl, rfl⟩
    have hu := h.congr hsame (fun hn => absurd rfl hn) hnone
    rw [List.append_nil] at hu
    exact hu.seed hseeded rfl page
  · have hsame : SameHistory t { t with paused } := ⟨rfl, rfl, rfl, rfl⟩
    refine h.congr hsame (fun hn => ⟨(h.held hn).1, ?_⟩) hnone
    exact hno.resolve_left hn

/-- **An operation keeps the blocks of the history**, with those that it adds. -/
theorem perform (h : History t past) (op : Operation) :
    History (t.perform op).state (past ++ (t.perform op).events) := by
  cases op with
  | stats batch =>
    have := (h.observe batch.serverTime).applyPage batch.records
    rwa [List.append_assoc] at this
  | pong batch =>
    have := (h.observe batch.serverTime).applyTail batch.records
    rwa [List.append_assoc] at this
  | requests batch =>
    have := (h.observe batch.serverTime).applyLog batch.records
    rwa [List.append_assoc] at this
  | setPaused paused => exact h.setPaused paused
  | clock millis => exact h.observe millis

theorem performAll (h : History t past) (ops : List Operation) :
    History (t.performAll ops).state (past ++ (t.performAll ops).events) := by
  induction ops generalizing t past with
  | nil => simpa using h
  | cons op ops ih =>
    have := ih (h.perform op)
    rwa [List.append_assoc] at this

theorem of_fresh (capacity : Nat) (ops : List Operation) :
    History ((Telemetry.fresh capacity).performAll ops).state
      ((Telemetry.fresh capacity).performAll ops).events :=
  (History.fresh capacity).performAll ops

/-- The block that a stats response puts in front is what lies below all held. -/
theorem pages_perform (h : History t past) {op : Operation} {page : List Stat}
    (hp : page ∈ Event.pages (t.perform op).events) :
    ∃ batch, op = .stats batch ∧
      page = batch.records.filter fun s => ∀ x ∈ t.stats, s.timestamp < x.timestamp := by
  cases op with
  | stats batch =>
    have ho := h.observe batch.serverTime
    obtain ⟨hne, hpage⟩ := (t.observe batch.serverTime).mem_pages_applyPage hp
    have hseeds := (ho.older_lt hne).1
    have hbelow : ∀ s : Stat, s.timestamp < (t.observe batch.serverTime).statsPage.position ↔
        ∀ x ∈ t.stats, s.timestamp < x.timestamp := by
      intro s
      rw [ho.page, if_neg hseeds, lt_oldest (ho.stats_ne_nil hseeds)]
      rfl
    refine ⟨batch, rfl, ?_⟩
    rw [hpage]
    exact List.filter_congr fun s _ => decide_eq_decide.2 (hbelow s)
  | pong batch =>
    have := (t.observe batch.serverTime).pages_applyTail batch.records
    exact absurd (this ▸ hp : page ∈ []) List.not_mem_nil
  | requests batch =>
    have := ((t.observe batch.serverTime).sameHistory_applyLog batch.records).2.2.1
    exact absurd (this ▸ hp : page ∈ []) List.not_mem_nil
  | setPaused paused =>
    have := (t.blocks_setPaused paused).1
    exact absurd (this ▸ hp : page ∈ []) List.not_mem_nil
  | clock millis => cases hp

/-- The block that a pong puts behind is the highs above all held. -/
theorem appends_perform (h : History t past) {op : Operation} {new : List Stat}
    (hn : new ∈ Event.appends (t.perform op).events) :
    ∃ batch, op = .pong batch ∧
      new = Cursor.highs (·.timestamp) (newest t.stats) batch.records := by
  cases op with
  | pong batch =>
    have hnew := (t.observe batch.serverTime).mem_appends_applyTail hn
    refine ⟨batch, rfl, ?_⟩
    rw [hnew, Cursor.fresh_eq_highs, ← h.tail]
    rfl
  | stats batch =>
    have := (t.observe batch.serverTime).appends_applyPage batch.records
    exact absurd (this ▸ hn : new ∈ []) List.not_mem_nil
  | requests batch =>
    have := ((t.observe batch.serverTime).sameHistory_applyLog batch.records).2.2.2
    exact absurd (this ▸ hn : new ∈ []) List.not_mem_nil
  | setPaused paused =>
    have := (t.blocks_setPaused paused).2
    exact absurd (this ▸ hn : new ∈ []) List.not_mem_nil
  | clock millis => cases hn

/-- An operation adds only what lies beyond the intervals held. -/
theorem beyond (h : History t past) (op : Operation) : Beyond t.stats op (t.perform op).events where
  below page hp := by
    obtain ⟨batch, hop, hpage⟩ := h.pages_perform hp
    refine ⟨⟨batch, hop, hpage⟩, fun s hs => ?_⟩
    rw [hpage] at hs
    simpa using (List.mem_filter.1 hs).2
  above new hn := by
    obtain ⟨batch, hop, hnew⟩ := h.appends_perform hn
    refine ⟨⟨batch, hop, hnew⟩, fun earlier s later hcut x hx => ?_⟩
    have hfresh : new = (⟨newest t.stats⟩ : Cursor).fresh (·.timestamp) batch.records := by
      rw [hnew, Cursor.fresh_eq_highs]
    rcases List.mem_append.1 hx with hx | hx
    · have hs : s ∈ (⟨newest t.stats⟩ : Cursor).fresh (·.timestamp) batch.records := by
        rw [← hfresh, hcut]
        simp
      exact (newest_lt.1 (Cursor.position_lt_of_mem_fresh hs)).2 x hx
    · have hall : new.Pairwise (·.timestamp < ·.timestamp) := by
        rw [hfresh]
        exact Cursor.pairwise_fresh _ _
      rw [hcut, List.pairwise_append] at hall
      exact hall.2.2 x hx s (by simp)

end History

/-- **The history after any run is made of blocks**: the older pages that were taken, the latest in
front, then the seed, then the intervals that pongs added. Its cursors stand at its ends. What an
operation adds lies beyond all that is held, and so the history is strictly ascending iff its seed
and its pages are. -/
theorem history_blocks (capacity : Nat) (ops : List Operation) :
    let r := (Telemetry.fresh capacity).performAll ops
    let seed := (Event.seeds r.events).flatten
    r.state.stats =
        (Event.pages r.events).reverse.flatten ++ seed ++ (Event.appends r.events).flatten ∧
      (Event.seeds r.events).length ≤ 1 ∧
      r.state.statsTail.position = newest r.state.stats ∧
      r.state.statsPage.position = (if seed = [] then 0 else oldest r.state.stats) ∧
      (∀ before op after, ops = before ++ op :: after →
        let u := ((Telemetry.fresh capacity).performAll before).state
        Beyond u.stats op (u.perform op).events) ∧
      (Ascending r.state.stats ↔
        Ascending seed ∧ ∀ page ∈ Event.pages r.events, Ascending page) := by
  intro r seed
  have h : History r.state r.events := History.of_fresh capacity ops
  refine ⟨h.stats, ?_, h.tail, ?_, fun before op after _ => ?_, ?_⟩
  · rcases h.seeds with he | ⟨page, -, he⟩ <;> simp [he]
  · rw [h.page]
    rcases h.seeds with he | ⟨page, hp, he⟩
    · simp [seed, he]
    · simp [seed, he, hp]
  · exact (History.of_fresh capacity before).beyond op
  · rw [h.ascending]
    rcases h.seeds with he | ⟨page, -, he⟩ <;> simp [seed, he, Ascending]

/-- Pages that overlap what is held, repeat or are out of order are cut down to what is older. -/
example :
    let stat (timestamp : UInt64) : Stat := { (default : Stat) with timestamp }
    let page (timestamps : List UInt64) : Operation := .stats ⟨0, timestamps.map stat⟩
    ((Telemetry.fresh 0).performAll
        [page [7, 9], page [8, 5, 4, 7], page [9, 4, 2]]).state.stats.map (·.timestamp) =
      [2, 5, 4, 7, 9] := by
  decide

end Vitals
