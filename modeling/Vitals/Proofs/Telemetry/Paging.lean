/-
  Paging back through a server's history.

  * `Event.paged`: the intervals that came with stats responses, not with pongs.
  * `Reaches history cursor page`: a page that leaves no gap below a cursor.
  * `Segment history t past`: the invariant. The intervals paged are a segment of the history, and
    start at its first one if the copy takes it to be exhausted.
  * `Telemetry.Advances`: a copy moves on, its cursors in one direction each;
    `Advances.perform`: with every operation.
  * `Segment.perform`: operations keep the segment, if every page that they bring reaches the
    cursor.
  * `Segment.filter_newest`: what is held up to the newest interval of the seed is that segment.
-/
import Vitals.Proofs.Telemetry.History

namespace Vitals

open Stat

/-- The intervals that stats responses brought, oldest first. -/
def Event.paged (events : List Event) : List Stat := (pages events).reverse.flatten ++
  (seeds events).flatten

/-- A block of the history behind which nothing is missing up to a cursor. It is empty only if
nothing lies below the cursor. -/
def Reaches (history : List Stat) (cursor : UInt64) (page : List Stat) : Prop :=
  ∃ before after, history = before ++ page ++ after ∧ (∀ s ∈ after, cursor ≤ s.timestamp) ∧
    (page = [] → before = [])

theorem le_getLast {xs : List Stat} (h : Ascending xs) {s : Stat} (hs : xs.getLast? = some s) :
    ∀ x ∈ xs, x.timestamp ≤ s.timestamp := by
  obtain ⟨ys, rfl⟩ := List.getLast?_eq_some_iff.1 hs
  intro x hx
  rcases List.mem_append.1 hx with hx | hx
  · exact UInt64.le_of_lt ((List.pairwise_append.1 h).2.2 x hx s (List.mem_singleton.2 rfl))
  · rw [List.mem_singleton.1 hx]
    exact UInt64.le_refl _

theorem newest_eq_getLast {xs : List Stat} (h : Ascending xs) {s : Stat}
    (hs : xs.getLast? = some s) : newest xs = s.timestamp := by
  have hmem := List.mem_of_getLast? hs
  obtain ⟨hin, hmax⟩ := List.max?_eq_some_iff.1 (max?_timestamp (List.ne_nil_of_mem hmem))
  obtain ⟨x, hx, hxs⟩ := List.mem_map.1 hin
  refine UInt64.le_antisymm ?_ (hmax _ (List.mem_map_of_mem hmem))
  rw [← hxs]
  exact le_getLast h hs x hx

namespace Reaches

variable {history page : List Stat} {cursor : UInt64}

theorem mono (h : Reaches history cursor page) {cursor' : UInt64} (hc : cursor' ≤ cursor) :
    Reaches history cursor' page := by
  obtain ⟨before, after, hcut, hafter, hempty⟩ := h
  exact ⟨before, after, hcut, fun s hs => UInt64.le_trans hc (hafter s hs), hempty⟩

/-- A history that goes on beyond the cursor may grow at its end. -/
theorem grow (h : Reaches history cursor page) {history' : List Stat} (hg : history <+: history')
    (hasc : Ascending history') (hc : ∃ s ∈ history, cursor ≤ s.timestamp) :
    Reaches history' cursor page := by
  obtain ⟨before, after, hcut, hafter, hempty⟩ := h
  obtain ⟨newer, rfl⟩ := hg
  obtain ⟨s, hs, hle⟩ := hc
  refine ⟨before, after ++ newer, by rw [hcut]; simp, fun x hx => ?_, hempty⟩
  rcases List.mem_append.1 hx with hx | hx
  · exact hafter x hx
  · have hlt := (List.pairwise_append.1 hasc).2.2 s hs x hx
    exact UInt64.le_trans hle (UInt64.le_of_lt hlt)

theorem le_of_nil (h : Reaches history cursor []) : ∀ s ∈ history, cursor ≤ s.timestamp := by
  obtain ⟨before, after, hcut, hafter, hempty⟩ := h
  rw [hempty rfl] at hcut
  rw [hcut]
  exact hafter

/-- **The intervals of a page below a cursor that it reaches are the last ones below it.** -/
theorem filter_lt (h : Reaches history cursor page) (hasc : Ascending history)
    (hne : page.filter (·.timestamp < cursor) ≠ []) :
    ∃ before, history.filter (·.timestamp < cursor) =
      before ++ page.filter (·.timestamp < cursor) := by
  obtain ⟨before, after, rfl, hafter, -⟩ := h
  obtain ⟨s, hs⟩ := List.exists_mem_of_ne_nil _ hne
  obtain ⟨hs, hlt⟩ := List.mem_filter.1 hs
  -- In front of the page all lies below the cursor, as a part of the page does; behind it nothing.
  have hbefore : before.filter (·.timestamp < cursor) = before := by
    refine List.filter_eq_self.2 fun x hx => ?_
    have hall := (List.pairwise_append.1 (List.pairwise_append.1 hasc).1).2.2 x hx s hs
    exact decide_eq_true (UInt64.lt_trans hall (of_decide_eq_true hlt))
  have hnone : after.filter (·.timestamp < cursor) = [] := by
    refine List.filter_eq_nil_iff.2 fun x hx => ?_
    simpa using hafter x hx
  exact ⟨before, by rw [List.filter_append, List.filter_append, hbefore, hnone, List.append_nil]⟩

end Reaches

/-- The intervals paged are a segment of the history. -/
structure Segment (history : List Stat) (t : Telemetry) (past : List Event) : Prop where
  seeded : t.seeded = true
  seeds : Event.seeds past ≠ []
  cut : ∃ before after, history = before ++ Event.paged past ++ after ∧
    (t.exhausted = true → before = [])

namespace Segment

variable {history : List Stat} {t u : Telemetry} {past : List Event}

theorem grow (h : Segment history t past) {history' : List Stat} (hg : history <+: history') :
    Segment history' t past := by
  obtain ⟨before, after, rfl, hex⟩ := h.cut
  obtain ⟨newer, rfl⟩ := hg
  exact ⟨h.seeded, h.seeds, before, after ++ newer, by simp, hex⟩

/-- Events without pages leave the segment as it is. The history may turn out to be exhausted only
where the segment starts at its first interval. -/
theorem congr (h : Segment history t past) (hs : u.seeded = t.seeded) {es : List Event}
    (hno : Event.seeds es = [] ∧ Event.pages es = [])
    (hex : ∀ before after, history = before ++ Event.paged past ++ after →
      u.exhausted = true → t.exhausted = true ∨ before = []) : Segment history u (past ++ es) := by
  have hseeds : Event.seeds (past ++ es) = Event.seeds past := by simp [hno.1]
  have hpaged : Event.paged (past ++ es) = Event.paged past := by simp [Event.paged, hno]
  obtain ⟨before, after, hcut, hold⟩ := h.cut
  refine ⟨hs.trans h.seeded, hseeds ▸ h.seeds, before, after, hpaged ▸ hcut, fun he => ?_⟩
  exact (hex before after hcut he).elim hold id

/-- The paged intervals are in order, and so is all that is held. -/
theorem ascending (h : Segment history t past) (hist : History t past)
    (hasc : Ascending history) : Ascending t.stats := by
  obtain ⟨before, after, rfl, -⟩ := h.cut
  have hpaged : Ascending (Event.paged past) :=
    (List.pairwise_append.1 (List.pairwise_append.1 hasc).1).2.1
  obtain ⟨hpages, hseeds, -⟩ := List.pairwise_append.1 hpaged
  refine hist.ascending.2 ⟨fun page hp => ?_, fun page hp => ?_⟩
  · exact hseeds.sublist (List.sublist_flatten_of_mem hp)
  · exact hpages.sublist (List.sublist_flatten_of_mem (List.mem_reverse.2 hp))

theorem stats_eq (hist : History t past) :
    t.stats = Event.paged past ++ (Event.appends past).flatten := hist.stats

theorem paged_ne_nil (h : Segment history t past) (hist : History t past) :
    Event.paged past ≠ [] := by
  obtain ⟨page, hne, he⟩ := hist.seeds.resolve_left h.seeds
  simp [Event.paged, he, hne]

theorem lt_position (h : Segment history t past) (hist : History t past) {k : UInt64} :
    k < t.statsPage.position ↔ ∀ s ∈ t.stats, k < s.timestamp := by
  rw [hist.page, if_neg h.seeds, lt_oldest (hist.stats_ne_nil h.seeds)]

theorem position_le (h : Segment history t past) (hist : History t past) :
    ∀ s ∈ t.stats, t.statsPage.position ≤ s.timestamp := fun s hs =>
  UInt64.not_lt.1 fun hlt => UInt64.lt_irrefl _ ((h.lt_position hist).1 hlt s hs)

/-- **What comes before the segment is what lies below the cursor.** -/
theorem filter_lt (h : Segment history t past) (hist : History t past) (hasc : Ascending history)
    {before after : List Stat} (hcut : history = before ++ Event.paged past ++ after) :
    history.filter (·.timestamp < t.statsPage.position) = before := by
  obtain ⟨s, hs⟩ := List.exists_mem_of_ne_nil _ (h.paged_ne_nil hist)
  have hstats : ∀ x ∈ Event.paged past, x ∈ t.stats := fun x hx =>
    stats_eq hist ▸ List.mem_append_left _ hx
  have hheld := h.ascending hist hasc
  rw [stats_eq hist] at hheld
  rw [hcut] at hasc
  obtain ⟨hleft, -, hright⟩ := List.pairwise_append.1 hasc
  have hbefore : before.filter (·.timestamp < t.statsPage.position) = before := by
    refine List.filter_eq_self.2 fun x hx => decide_eq_true ((h.lt_position hist).2 fun y hy => ?_)
    have hxs := (List.pairwise_append.1 hleft).2.2 x hx
    rcases List.mem_append.1 (stats_eq hist ▸ hy) with hy | hy
    · exact hxs y hy
    · exact UInt64.lt_trans (hxs s hs) ((List.pairwise_append.1 hheld).2.2 s hs y hy)
  have hpaged : (Event.paged past).filter (·.timestamp < t.statsPage.position) = [] := by
    refine List.filter_eq_nil_iff.2 fun x hx => ?_
    simpa using h.position_le hist x (hstats x hx)
  have hafter : after.filter (·.timestamp < t.statsPage.position) = [] := by
    refine List.filter_eq_nil_iff.2 fun x hx => ?_
    have hlt := hright s (List.mem_append_right _ hs) x hx
    simpa using UInt64.le_of_lt (UInt64.lt_of_le_of_lt (h.position_le hist s (hstats s hs)) hlt)
  rw [hcut, List.filter_append, List.filter_append, hbefore, hpaged, hafter, List.append_nil,
    List.append_nil]

/-- **A page that reaches the cursor extends the segment**, or shows that it starts at the first
interval. -/
theorem prepend (h : Segment history t past) (hist : History t past) (hasc : Ascending history)
    {page : List Stat} (hp : Reaches history t.statsPage.position page) :
    Segment history (t.prepend page).state (past ++ (t.prepend page).events) := by
  obtain ⟨before, after, hcut, hex⟩ := h.cut
  have hbelow := h.filter_lt hist hasc hcut
  rcases t.prepend_cases page with ⟨rfl, hst, hev⟩ | ⟨-, -, hst, hev⟩ | ⟨-, ho, hst, hev⟩ <;>
    rw [hst, hev]
  · refine h.congr (u := { t with exhausted := true }) rfl ?_ fun before after hcut _ => Or.inr ?_
    · split <;> exact ⟨rfl, rfl⟩
    · rw [← h.filter_lt hist hasc hcut]
      refine List.filter_eq_nil_iff.2 fun s hs => ?_
      simpa using hp.le_of_nil s hs
  · rw [List.append_nil]
    exact h
  -- What the page adds is the end of what came before the segment.
  · obtain ⟨older, hlast⟩ := hp.filter_lt hasc ho
    rw [hbelow] at hlast
    refine ⟨h.seeded, by simpa using h.seeds, older, after, ?_, fun he => ?_⟩
    · rw [hcut, hlast]
      simp [Event.paged, Telemetry.older]
    · have := hex he
      rw [hlast] at this
      exact (List.append_eq_nil_iff.1 this).1

end Segment

/-! ## Operations -/

/-- A seeded copy is as before, as far as its pages go. -/
structure Idle (t : Telemetry) (m : Merge) : Prop where
  seeded : m.state.seeded = t.seeded
  exhausted : m.state.exhausted = t.exhausted
  page : m.state.statsPage = t.statsPage
  noPages : Event.seeds m.events = [] ∧ Event.pages m.events = []

/-- A copy is seeded by a page. An empty one only ends the history. -/
structure SeededBy (page : List Stat) (t : Telemetry) (m : Merge) : Prop where
  seeded : m.state.seeded = true
  exhausted : m.state.exhausted = (t.exhausted || page.isEmpty)
  seeds : Event.seeds m.events = if page = [] then [] else [page]
  pages : Event.pages m.events = []

/-- An operation brings the page that seeds a copy. -/
def Operation.Brings (t : Telemetry) (page : List Stat) : Operation → Prop
  | stats batch => t.paused = false ∧ batch.records = page
  | setPaused paused => paused = false ∧ t.held = some page
  | _ => False

namespace Telemetry

variable {t : Telemetry} {past : List Event} {op : Operation}

theorem idle_applyBatch {α : Type} {apply : Telemetry → List α → Merge} {batch : Batch α}
    (h : Idle (t.observe batch.serverTime) (apply (t.observe batch.serverTime) batch.records)) :
    Idle t (t.applyBatch apply batch) where
  seeded := h.seeded
  exhausted := h.exhausted
  page := h.page
  noPages := by simpa [applyBatch] using h.noPages

/-- Once there is a history, only a stats response pages. -/
theorem perform_idle (hist : History t past) (hs : t.seeded = true)
    (hop : ∀ batch, op ≠ .stats batch) : Idle t (t.perform op) := by
  cases op with
  | stats batch => exact absurd rfl (hop batch)
  | pong batch =>
    refine idle_applyBatch ?_
    rcases (t.observe batch.serverTime).applyTail_cases batch.records with
      ⟨-, h⟩ | ⟨-, -, -, hst, hev⟩
    · rw [h]
      exact ⟨rfl, rfl, rfl, rfl, rfl⟩
    · exact ⟨by rw [hst], by rw [hst], by rw [hst], by rw [hev]; exact ⟨rfl, rfl⟩⟩
  | requests batch =>
    refine idle_applyBatch ?_
    rcases (t.observe batch.serverTime).applyLog_cases batch.records with ⟨-, h⟩ | ⟨-, -, hst, hev⟩
    · rw [h]
      exact ⟨rfl, rfl, rfl, rfl, rfl⟩
    · exact ⟨by rw [hst], by rw [hst], by rw [hst], by rw [hev]; exact ⟨rfl, rfl⟩⟩
  | setPaused paused =>
    rcases t.setPaused_cases paused with ⟨page, hheld, -⟩ | ⟨-, hst, hev⟩
    · have := (hist.held (by simp [hheld])).1
      exact absurd (hs.symm.trans this) (by decide)
    · exact ⟨by rw [perform, hst], by rw [perform, hst], by rw [perform, hst],
        by rw [perform, hev]; exact ⟨rfl, rfl⟩⟩
  | clock millis => exact ⟨rfl, rfl, rfl, rfl, rfl⟩

/-- **Once there is a history, no page seeds it again**, and it stays exhausted if it is. -/
theorem perform_seeded (hist : History t past) (hs : t.seeded = true) (op : Operation) :
    (t.perform op).state.seeded = true ∧ Event.seeds (t.perform op).events = [] ∧
      (t.exhausted = true → (t.perform op).state.exhausted = true) := by
  by_cases hstats : ∃ batch, op = .stats batch
  · obtain ⟨batch, rfl⟩ := hstats
    rcases (t.observe batch.serverTime).applyPage_cases batch.records with
      ⟨-, -, hm⟩ | ⟨-, -, hm⟩ | ⟨hs', -⟩ | ⟨hs', -⟩
    · simp only [perform, mergeStats, applyBatch, hm]
      exact ⟨hs, rfl, id⟩
    · simp only [perform, mergeStats, applyBatch, hm]
      rcases (t.observe batch.serverTime).prepend_cases batch.records with
        ⟨-, hst, hev⟩ | ⟨-, -, hst, hev⟩ | ⟨-, -, hst, hev⟩ <;> rw [hst, hev]
      · refine ⟨hs, ?_, fun _ => rfl⟩
        split <;> rfl
      · exact ⟨hs, rfl, id⟩
      · exact ⟨hs, rfl, id⟩
    · exact absurd (hs.symm.trans hs') (by decide)
    · exact absurd (hs.symm.trans hs') (by decide)
  · have hidle := perform_idle hist hs fun batch he => hstats ⟨batch, he⟩
    exact ⟨hidle.seeded.trans hs, hidle.noPages.1, fun he => hidle.exhausted.trans he⟩

theorem position_prepend_le (t : Telemetry) (page : List Stat) :
    (t.prepend page).state.statsPage.position ≤ t.statsPage.position := by
  rcases t.prepend_cases page with ⟨-, hst, -⟩ | ⟨-, -, hst, -⟩ | ⟨-, ho, hst, -⟩ <;> rw [hst]
  · exact UInt64.le_refl _
  · exact UInt64.le_refl _
  · refine UInt64.not_lt.1 fun hlt => ?_
    obtain ⟨s, hs⟩ := List.exists_mem_of_ne_nil _ ho
    have hbelow : s.timestamp < t.statsPage.position := by
      simpa using (List.mem_filter.1 hs).2
    exact UInt64.lt_irrefl _ (UInt64.lt_trans hbelow ((lt_oldest ho).1 hlt s hs))

/-- **Once there is a history, its first interval never moves to a later one.** -/
theorem position_perform_le (hist : History t past) (hs : t.seeded = true) (op : Operation) :
    (t.perform op).state.statsPage.position ≤ t.statsPage.position := by
  by_cases hstats : ∃ batch, op = .stats batch
  · obtain ⟨batch, rfl⟩ := hstats
    rcases (t.observe batch.serverTime).applyPage_cases batch.records with
      ⟨-, -, hm⟩ | ⟨-, -, hm⟩ | ⟨hs', -⟩ | ⟨hs', -⟩
    · simp only [perform, mergeStats, applyBatch, hm]
      exact UInt64.le_refl _
    · simp only [perform, mergeStats, applyBatch, hm]
      exact position_prepend_le _ _
    · exact absurd (hs.symm.trans hs') (by decide)
    · exact absurd (hs.symm.trans hs') (by decide)
  · rw [(perform_idle hist hs fun batch he => hstats ⟨batch, he⟩).page]
    exact UInt64.le_refl _

/-- The newest request merged never moves to an earlier one. -/
theorem tail_le_perform (t : Telemetry) (op : Operation) :
    t.requestTail.position ≤ (t.perform op).state.requestTail.position := by
  by_cases hlog : ∃ batch, op = .requests batch
  · obtain ⟨batch, rfl⟩ := hlog
    simp only [perform, mergeRequests, applyBatch]
    rcases (t.observe batch.serverTime).applyLog_cases batch.records with ⟨-, h⟩ | ⟨-, -, hst, -⟩
    · rw [h]
      exact UInt64.le_refl _
    · rw [hst]
      exact Cursor.position_le_advanceAll _ _
  · rw [(t.sameLog_perform fun batch he => hlog ⟨batch, he⟩).1.tail]
    exact UInt64.le_refl _

/-- A copy that has moved on keeps its history, which starts no later than before, and its newest
request is no earlier one. -/
structure Advances (t u : Telemetry) : Prop where
  seeded : t.seeded = true → u.seeded = true
  page : t.seeded = true → u.statsPage.position ≤ t.statsPage.position
  tail : t.requestTail.position ≤ u.requestTail.position

namespace Advances

theorem refl (t : Telemetry) : Advances t t := ⟨id, fun _ => UInt64.le_refl _, UInt64.le_refl _⟩

theorem trans {t u v : Telemetry} (h : Advances t u) (h' : Advances u v) : Advances t v where
  seeded hs := h'.seeded (h.seeded hs)
  page hs := UInt64.le_trans (h'.page (h.seeded hs)) (h.page hs)
  tail := UInt64.le_trans h.tail h'.tail

/-- **Every operation moves a copy on.** -/
theorem perform (hist : History t past) (op : Operation) : Advances t (t.perform op).state where
  seeded hs := (perform_seeded hist hs op).1
  page hs := position_perform_le hist hs op
  tail := t.tail_le_perform op

end Advances

theorem seededBy_seed (t : Telemetry) (page : List Stat) : SeededBy page t (t.seed page) := by
  rcases t.seed_cases page with ⟨rfl, hst, hev⟩ | ⟨hp, hst, hev⟩
  · exact ⟨by rw [hst], by simp [hst], by simp [hev], by simp [hev]⟩
  · exact ⟨by rw [hst], by simp [hst, hp], by simp [hev, hp], by simp [hev]⟩

/-- **A copy without a history is seeded by the page that an operation brings**, or keeps waiting,
with the page in hand if it is paused. -/
theorem perform_unseeded (hs : t.seeded = false) (op : Operation) :
    (∃ page, op.Brings t page ∧ SeededBy page t (t.perform op)) ∨
    ((t.perform op).state.seeded = false ∧ (t.perform op).state.exhausted = t.exhausted ∧
      ((t.perform op).state.held = t.held ∨
        ∃ batch, op = .stats batch ∧ (t.perform op).state.held = some batch.records)) := by
  cases op with
  | stats batch =>
    rcases (t.observe batch.serverTime).applyPage_cases batch.records with
      ⟨hs', -⟩ | ⟨hs', -⟩ | ⟨-, -, hst, -⟩ | ⟨-, hp, h⟩
    · exact absurd (hs.symm.trans hs') (by decide)
    · exact absurd (hs.symm.trans hs') (by decide)
    · refine Or.inr ?_
      simp only [perform, mergeStats, applyBatch, hst]
      exact ⟨hs, rfl, Or.inr ⟨batch, rfl, rfl⟩⟩
    · refine Or.inl ⟨batch.records, ⟨hp, rfl⟩, ?_⟩
      simp only [perform, mergeStats, applyBatch, h]
      obtain ⟨h1, h2, h3, h4⟩ := seededBy_seed (t.observe batch.serverTime) batch.records
      exact ⟨h1, h2, by simpa using h3, by simpa using h4⟩
  | pong batch =>
    refine Or.inr ?_
    rcases (t.observe batch.serverTime).applyTail_cases batch.records with ⟨-, h⟩ | ⟨-, hs', -⟩
    · simp only [perform, mergePong, applyBatch, h]
      exact ⟨hs, rfl, Or.inl rfl⟩
    · exact absurd (hs.symm.trans hs') (by decide)
  | requests batch =>
    refine Or.inr ?_
    rcases (t.observe batch.serverTime).applyLog_cases batch.records with ⟨-, h⟩ | ⟨-, -, hst, -⟩
    · simp only [perform, mergeRequests, applyBatch, h]
      exact ⟨hs, rfl, Or.inl rfl⟩
    · simp only [perform, mergeRequests, applyBatch, hst]
      exact ⟨hs, rfl, Or.inl rfl⟩
  | setPaused paused =>
    rcases t.setPaused_cases paused with ⟨page, hheld, hp, hst, hev⟩ | ⟨-, hst, -⟩
    · refine Or.inl ⟨page, ⟨hp, hheld⟩, ?_⟩
      obtain ⟨h1, h2, h3, h4⟩ := seededBy_seed { t with paused := false, held := none } page
      exact ⟨hst ▸ h1, hst ▸ h2, hev ▸ h3, hev ▸ h4⟩
    · refine Or.inr ?_
      simp only [perform, hst]
      exact ⟨hs, trivial, Or.inl trivial⟩
  | clock millis => exact Or.inr ⟨hs, rfl, Or.inl rfl⟩

end Telemetry

namespace Segment

variable {history : List Stat} {t : Telemetry} {past : List Event}

theorem of_seededBy {page : List Stat} {m : Merge} (hist : History t past)
    (hs : t.seeded = false) (hex : t.exhausted = false) (h : SeededBy page t m) (hp : page ≠ [])
    (hsub : page <:+: history) : Segment history m.state (past ++ m.events) := by
  obtain ⟨e1, e2, -⟩ := hist.unseeded hs
  obtain ⟨before, after, hcut⟩ := hsub
  have hseeds : Event.seeds m.events = [page] := by rw [h.seeds, if_neg hp]
  refine ⟨h.seeded, by simp [hseeds], before, after, ?_, fun he => ?_⟩
  · simp [Event.paged, e1, e2, hseeds, h.pages, ← hcut]
  · rw [h.exhausted, hex] at he
    exact absurd (by simpa using he) hp

/-- **An operation keeps the segment**, if the page that it brings reaches the cursor. -/
theorem perform (h : Segment history t past) (hist : History t past) (hasc : Ascending history)
    {op : Operation}
    (hop : ∀ batch, op = .stats batch → Reaches history t.statsPage.position batch.records) :
    Segment history (t.perform op).state (past ++ (t.perform op).events) := by
  by_cases hstats : ∃ batch, op = .stats batch
  · obtain ⟨batch, rfl⟩ := hstats
    have hclock : Segment history (t.observe batch.serverTime)
        (past ++ [.serverTime batch.serverTime]) :=
      h.congr (u := t.observe batch.serverTime) rfl ⟨rfl, rfl⟩ fun _ _ _ he => Or.inl he
    rcases (t.observe batch.serverTime).applyPage_cases batch.records with
      ⟨-, -, hm⟩ | ⟨-, -, hm⟩ | ⟨hs, -⟩ | ⟨hs, -⟩
    · simp only [Telemetry.perform, Telemetry.mergeStats, Telemetry.applyBatch, hm]
      exact hclock
    · have hnext := hclock.prepend (hist.observe batch.serverTime) hasc (hop batch rfl)
      rw [List.append_assoc] at hnext
      simp only [Telemetry.perform, Telemetry.mergeStats, Telemetry.applyBatch, hm]
      exact hnext
    · exact absurd (h.seeded.symm.trans hs) (by decide)
    · exact absurd (h.seeded.symm.trans hs) (by decide)
  · have hidle := Telemetry.perform_idle hist h.seeded fun batch he => hstats ⟨batch, he⟩
    exact h.congr hidle.seeded hidle.noPages fun _ _ _ he => Or.inl (hidle.exhausted ▸ he)

/-- **What is held up to the newest interval of the seed** is the segment, and that interval is its
last. -/
theorem filter_newest (h : Segment history t past) (hist : History t past)
    (hasc : Ascending history) {seed : List Stat} (hseed : seed ∈ Event.seeds past) :
    t.stats.filter (·.timestamp ≤ newest seed) = Event.paged past ∧
      ∃ s ∈ seed, s.timestamp = newest seed ∧ (Event.paged past).getLast? = some s := by
  obtain ⟨page, hne, hone⟩ := hist.seeds.resolve_left h.seeds
  rw [hone] at hseed
  obtain rfl := List.mem_singleton.1 hseed
  have hheld := h.ascending hist hasc
  rw [stats_eq hist] at hheld
  obtain ⟨hpaged, -, hbeyond⟩ := List.pairwise_append.1 hheld
  obtain ⟨s, hlast⟩ : ∃ s, seed.getLast? = some s := ⟨_, List.getLast?_eq_some_getLast hne⟩
  have hlast' : (Event.paged past).getLast? = some s := by simp [Event.paged, hone, hlast]
  have hsub : seed.Sublist (Event.paged past) := by
    rw [Event.paged, hone, List.flatten_singleton]
    exact List.sublist_append_right _ _
  have hnewest := newest_eq_getLast (hpaged.sublist hsub) hlast
  refine ⟨?_, s, List.mem_of_getLast? hlast, hnewest.symm, hlast'⟩
  have hall : (Event.paged past).filter (·.timestamp ≤ newest seed) = Event.paged past := by
    refine List.filter_eq_self.2 fun x hx => decide_eq_true ?_
    rw [hnewest]
    exact le_getLast hpaged hlast' x hx
  have hnone : (Event.appends past).flatten.filter (·.timestamp ≤ newest seed) = [] := by
    refine List.filter_eq_nil_iff.2 fun x hx => ?_
    rw [hnewest]
    simpa using hbeyond s (List.mem_of_getLast? hlast') x hx
  rw [stats_eq hist, List.filter_append, hall, hnone, List.append_nil]

end Segment

end Vitals
