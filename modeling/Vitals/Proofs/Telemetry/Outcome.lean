/-
  What each operation on a client's telemetry can do, and which part of it it leaves alone.

  * `Stat.oldest`, `Stat.newest`: the ends of some intervals.
  * `seed_cases`, `prepend_cases`, `applyPage_cases`, `applyTail_cases`, `applyLog_cases`,
    `setPaused_cases`: every outcome of an operation, with the state and the events it ends in.
  * `SameLog`, `SameHistory`: two copies agree on the request log, on the stats history.
  * `sameLog_perform`: only the entries of a request log touch the request log.
-/
import Vitals.Proofs.Telemetry.Cursor
import Vitals.Proofs.Telemetry.Operation

namespace Vitals

/-! ## The ends of some intervals -/

namespace Stat

theorem eq_of_forall_lt_iff {a b : UInt64} (h : ∀ k, k < a ↔ k < b) : a = b :=
  UInt64.le_antisymm (UInt64.not_lt.1 fun hk => UInt64.lt_irrefl _ ((h b).1 hk))
    (UInt64.not_lt.1 fun hk => UInt64.lt_irrefl _ ((h a).2 hk))

theorem eq_of_forall_gt_iff {a b : UInt64} (h : ∀ k, a < k ↔ b < k) : a = b :=
  UInt64.le_antisymm (UInt64.not_lt.1 fun hk => UInt64.lt_irrefl _ ((h a).2 hk))
    (UInt64.not_lt.1 fun hk => UInt64.lt_irrefl _ ((h b).1 hk))

/-- The least timestamp of some intervals, zero if there are none. -/
def oldest (xs : List Stat) : UInt64 := (xs.map (·.timestamp)).min?.getD 0

/-- The greatest timestamp of some intervals, zero if there are none. -/
def newest (xs : List Stat) : UInt64 := (xs.map (·.timestamp)).max?.getD 0

theorem min?_timestamp {xs : List Stat} (h : xs ≠ []) :
    (xs.map (·.timestamp)).min? = some (oldest xs) := by
  rcases hm : (xs.map (·.timestamp)).min? with _ | a
  · exact absurd (List.map_eq_nil_iff.1 (List.min?_eq_none_iff.1 hm)) h
  · simp [oldest, hm]

theorem max?_timestamp {xs : List Stat} (h : xs ≠ []) :
    (xs.map (·.timestamp)).max? = some (newest xs) := by
  rcases hm : (xs.map (·.timestamp)).max? with _ | a
  · exact absurd (List.map_eq_nil_iff.1 (List.max?_eq_none_iff.1 hm)) h
  · simp [newest, hm]

/-- A word lies below some intervals iff it lies below the oldest. -/
theorem lt_oldest {xs : List Stat} (h : xs ≠ []) {k : UInt64} :
    k < oldest xs ↔ ∀ s ∈ xs, k < s.timestamp := by
  obtain ⟨hmem, hle⟩ := List.min?_eq_some_iff.1 (min?_timestamp h)
  constructor
  · exact fun hk s hs => UInt64.lt_of_lt_of_le hk (hle _ (List.mem_map_of_mem hs))
  · intro hall
    obtain ⟨s, hs, hst⟩ := List.mem_map.1 hmem
    exact hst ▸ hall s hs

theorem newest_lt {xs : List Stat} {k : UInt64} :
    newest xs < k ↔ 0 < k ∧ ∀ s ∈ xs, s.timestamp < k := by
  simp [newest, max?_getD_lt]

theorem oldest_append {xs ys : List Stat} (hx : xs ≠ [])
    (h : ∀ x ∈ xs, ∀ y ∈ ys, x.timestamp < y.timestamp) : oldest (xs ++ ys) = oldest xs := by
  refine eq_of_forall_lt_iff fun k => ?_
  rw [lt_oldest (List.append_ne_nil_of_left_ne_nil hx _), lt_oldest hx]
  constructor
  · exact fun hall s hs => hall s (List.mem_append_left _ hs)
  · intro hall s hs
    rcases List.mem_append.1 hs with hs | hs
    · exact hall s hs
    · obtain ⟨x, hx⟩ := List.exists_mem_of_ne_nil _ hx
      exact UInt64.lt_trans (hall x hx) (h x hx s hs)

theorem newest_append {xs ys : List Stat} (hy : ys ≠ [])
    (h : ∀ x ∈ xs, ∀ y ∈ ys, x.timestamp < y.timestamp) : newest (xs ++ ys) = newest ys := by
  refine eq_of_forall_gt_iff fun k => ?_
  rw [newest_lt, newest_lt]
  refine and_congr_right fun _ => ⟨fun hall s hs => hall s (List.mem_append_right _ hs), ?_⟩
  intro hall s hs
  rcases List.mem_append.1 hs with hs | hs
  · obtain ⟨y, hy⟩ := List.exists_mem_of_ne_nil _ hy
    exact UInt64.lt_trans (h s hs y hy) (hall y hy)
  · exact hall s hs

end Stat

/-! ## Outcomes -/

namespace Telemetry

variable (t : Telemetry)

/-- An empty page ends the history before it began; any other becomes the history. -/
theorem seed_cases (page : List Stat) :
    (page = [] ∧ (t.seed page).state = { t with seeded := true, exhausted := true } ∧
      (t.seed page).events = [.historyExhausted]) ∨
    (page ≠ [] ∧
      (t.seed page).state = { t with
        seeded := true, stats := page, statsPage := ⟨Stat.oldest page⟩
        statsTail := t.statsTail.advance (Stat.newest page) } ∧
      (t.seed page).events = [.statsSeeded page]) := by
  by_cases h : page = []
  · subst h
    exact Or.inl ⟨rfl, rfl, rfl⟩
  · refine Or.inr ⟨h, ?_, ?_⟩ <;> simp only [seed, Stat.min?_timestamp h, Stat.max?_timestamp h]

/-- The intervals of a page before the oldest one held. -/
def older (page : List Stat) : List Stat :=
  page.filter fun s => s.timestamp < t.statsPage.position

/-- An empty page ends the history, once; of any other the older intervals are put in front. -/
theorem prepend_cases (page : List Stat) :
    (page = [] ∧ (t.prepend page).state = { t with exhausted := true } ∧
      (t.prepend page).events = if t.exhausted then [] else [.historyExhausted]) ∨
    (page ≠ [] ∧ t.older page = [] ∧ (t.prepend page).state = t ∧ (t.prepend page).events = []) ∨
    (page ≠ [] ∧ t.older page ≠ [] ∧
      (t.prepend page).state = { t with
        statsPage := ⟨Stat.oldest (t.older page)⟩, stats := t.older page ++ t.stats } ∧
      (t.prepend page).events = [.statsPrepended (t.older page)]) := by
  by_cases h : page = []
  · subst h
    refine Or.inl ⟨rfl, ?_⟩
    cases he : t.exhausted with
    | false => simp [prepend, he]
    | true =>
      have ht : t = { t with exhausted := true } := by rw [← he]
      simp only [prepend, he]
      exact ⟨ht, rfl⟩
  · have hp : page.isEmpty = false := by simpa using h
    refine Or.inr ?_
    by_cases ho : t.older page = []
    · refine Or.inl ⟨h, ho, ?_⟩
      unfold older at ho
      simp [prepend, hp, ho]
    · refine Or.inr ⟨h, ho, ?_⟩
      have := Stat.min?_timestamp ho
      unfold older at this ⊢
      simp [prepend, hp, this]

/-- A page is an older one once there is a history, and seeds it before; while paused it is dropped
or held. -/
theorem applyPage_cases (page : List Stat) :
    (t.seeded = true ∧ t.paused = true ∧ t.applyPage page = ⟨t, [], []⟩) ∨
    (t.seeded = true ∧ t.paused = false ∧ t.applyPage page = t.prepend page) ∨
    (t.seeded = false ∧ t.paused = true ∧ (t.applyPage page).state = { t with held := some page } ∧
      (t.applyPage page).events = []) ∨
    (t.seeded = false ∧ t.paused = false ∧ t.applyPage page = t.seed page) := by
  cases hs : t.seeded <;> cases hp : t.paused <;> simp [applyPage, hs, hp]

theorem applyPage_of_seeded (hs : t.seeded = true) (page : List Stat) :
    t.applyPage page = if t.paused then ⟨t, [], []⟩ else t.prepend page := by
  simp [applyPage, hs]

theorem applyPage_of_unpaused (hp : t.paused = false) (page : List Stat) :
    t.applyPage page = if t.seeded then t.prepend page else t.seed page := by
  simp [applyPage, hp]

/-- The intervals of a pong after all held join the history, once there is one, if not paused. -/
theorem applyTail_cases (stats : List Stat) :
    ((t.paused = true ∨ t.seeded = false ∨ t.statsTail.fresh (·.timestamp) stats = []) ∧
      t.applyTail stats = ⟨t, [], []⟩) ∨
    (t.paused = false ∧ t.seeded = true ∧ t.statsTail.fresh (·.timestamp) stats ≠ [] ∧
      (t.applyTail stats).state = { t with
        statsTail := t.statsTail.advanceAll (stats.map (·.timestamp))
        stats := t.stats ++ t.statsTail.fresh (·.timestamp) stats } ∧
      (t.applyTail stats).events = [.statsAppended (t.statsTail.fresh (·.timestamp) stats)]) := by
  by_cases h : t.paused = false ∧ t.seeded = true ∧ t.statsTail.fresh (·.timestamp) stats ≠ []
  · obtain ⟨hp, hs, hf⟩ := h
    refine Or.inr ⟨hp, hs, hf, ?_⟩
    simp [applyTail, hp, hs, hf]
  · refine Or.inl ⟨?_, ?_⟩
    · cases hp : t.paused <;> cases hs : t.seeded <;> simp_all
    · cases hp : t.paused <;> cases hs : t.seeded <;> simp_all [applyTail]

/-- The entries of a request log after the newest one merged join the window, if it is not paused.
-/
theorem applyLog_cases (requests : List Request) :
    ((t.paused = true ∨ t.requestTail.fresh (·.endMicros) requests = []) ∧
      t.applyLog requests = ⟨t, [], []⟩) ∨
    (t.paused = false ∧ t.requestTail.fresh (·.endMicros) requests ≠ [] ∧
      (t.applyLog requests).state = { t with
        requestTail := t.requestTail.advanceAll (requests.map (·.endMicros))
        requests :=
          ((t.requestTail.fresh (·.endMicros) requests).reverse ++ t.requests).take t.capacity } ∧
      (t.applyLog requests).events =
        [.requestsPrepended (t.requestTail.fresh (·.endMicros) requests).reverse]) := by
  by_cases h : t.paused = false ∧ t.requestTail.fresh (·.endMicros) requests ≠ []
  · obtain ⟨hp, hf⟩ := h
    refine Or.inr ⟨hp, hf, ?_⟩
    simp [applyLog, hp, hf]
  · refine Or.inl ⟨?_, ?_⟩
    · cases hp : t.paused <;> simp_all
    · cases hp : t.paused <;> simp_all [applyLog]

/-- Resuming seeds the history with a page held; otherwise pausing and resuming only toggle. -/
theorem setPaused_cases (paused : Bool) :
    (∃ page, t.held = some page ∧ paused = false ∧
      (t.setPaused paused).state = ({ t with paused := false, held := none }.seed page).state ∧
      (t.setPaused paused).events = ({ t with paused := false, held := none }.seed page).events) ∨
    ((t.held = none ∨ paused = true) ∧
      (t.setPaused paused).state = { t with paused } ∧ (t.setPaused paused).events = []) := by
  unfold setPaused
  dsimp only
  split
  · rename_i page hpage
    exact Or.inl ⟨page, hpage, rfl, rfl, rfl⟩
  · rename_i hno
    refine Or.inr ⟨?_, rfl, rfl⟩
    rcases hheld : t.held with _ | page
    · exact Or.inl rfl
    · exact Or.inr ((Bool.not_eq_false _).mp fun hp => hno page hheld hp)

end Telemetry

/-! ## What an operation leaves alone -/

/-- Two copies agree on the request log. -/
structure SameLog (t u : Telemetry) : Prop where
  capacity : u.capacity = t.capacity
  requests : u.requests = t.requests
  tail : u.requestTail = t.requestTail

/-- Two copies agree on the intervals held and the cursors at their ends. -/
structure SameHistory (t u : Telemetry) : Prop where
  stats : u.stats = t.stats
  tail : u.statsTail = t.statsTail
  page : u.statsPage = t.statsPage
  seeded : u.seeded = t.seeded

/-- Events without records of the request log. -/
def Event.NoLog (events : List Event) : Prop := logs events = []

/-- Events without records of the stats history. -/
def Event.NoStats (events : List Event) : Prop :=
  seeds events = [] ∧ pages events = [] ∧ appends events = []

namespace Telemetry

variable (t : Telemetry)

theorem sameLog_observe (millis : UInt64) :
    SameLog t (t.observe millis) ∧ Event.NoLog [.serverTime millis] := ⟨⟨rfl, rfl, rfl⟩, rfl⟩

theorem sameLog_seed (page : List Stat) :
    SameLog t (t.seed page).state ∧ Event.NoLog (t.seed page).events := by
  rcases t.seed_cases page with ⟨-, hs, he⟩ | ⟨-, hs, he⟩ <;> rw [hs, he] <;>
    exact ⟨⟨rfl, rfl, rfl⟩, rfl⟩

theorem sameLog_prepend (page : List Stat) :
    SameLog t (t.prepend page).state ∧ Event.NoLog (t.prepend page).events := by
  rcases t.prepend_cases page with ⟨-, hs, he⟩ | ⟨-, -, hs, he⟩ | ⟨-, -, hs, he⟩ <;> rw [hs, he]
  · refine ⟨⟨rfl, rfl, rfl⟩, ?_⟩
    split <;> rfl
  · exact ⟨⟨rfl, rfl, rfl⟩, rfl⟩
  · exact ⟨⟨rfl, rfl, rfl⟩, rfl⟩

theorem sameLog_applyPage (page : List Stat) :
    SameLog t (t.applyPage page).state ∧ Event.NoLog (t.applyPage page).events := by
  rcases t.applyPage_cases page with ⟨-, -, h⟩ | ⟨-, -, h⟩ | ⟨-, -, hs, he⟩ | ⟨-, -, h⟩
  · rw [h]
    exact ⟨⟨rfl, rfl, rfl⟩, rfl⟩
  · rw [h]
    exact t.sameLog_prepend page
  · rw [hs, he]
    exact ⟨⟨rfl, rfl, rfl⟩, rfl⟩
  · rw [h]
    exact t.sameLog_seed page

theorem sameLog_applyTail (stats : List Stat) :
    SameLog t (t.applyTail stats).state ∧ Event.NoLog (t.applyTail stats).events := by
  rcases t.applyTail_cases stats with ⟨-, h⟩ | ⟨-, -, -, hs, he⟩
  · rw [h]
    exact ⟨⟨rfl, rfl, rfl⟩, rfl⟩
  · rw [hs, he]
    exact ⟨⟨rfl, rfl, rfl⟩, rfl⟩

theorem sameLog_setPaused (paused : Bool) :
    SameLog t (t.setPaused paused).state ∧ Event.NoLog (t.setPaused paused).events := by
  rcases t.setPaused_cases paused with ⟨page, -, -, hs, he⟩ | ⟨-, hs, he⟩
  · rw [hs, he]
    obtain ⟨⟨h1, h2, h3⟩, h4⟩ := sameLog_seed { t with paused := false, held := none } page
    exact ⟨⟨h1, h2, h3⟩, h4⟩
  · rw [hs, he]
    exact ⟨⟨rfl, rfl, rfl⟩, rfl⟩

/-- **Only the entries of a request log touch the request log.** -/
theorem sameLog_perform {op : Operation} (h : ∀ batch, op ≠ .requests batch) :
    SameLog t (t.perform op).state ∧ Event.NoLog (t.perform op).events := by
  cases op with
  | stats batch =>
    obtain ⟨⟨h1, h2, h3⟩, h4⟩ := (t.observe batch.serverTime).sameLog_applyPage batch.records
    exact ⟨⟨h1, h2, h3⟩, h4⟩
  | pong batch =>
    obtain ⟨⟨h1, h2, h3⟩, h4⟩ := (t.observe batch.serverTime).sameLog_applyTail batch.records
    exact ⟨⟨h1, h2, h3⟩, h4⟩
  | requests batch => exact absurd rfl (h batch)
  | setPaused paused => exact t.sameLog_setPaused paused
  | clock millis => exact t.sameLog_observe millis

theorem sameHistory_applyLog (requests : List Request) :
    SameHistory t (t.applyLog requests).state ∧ Event.NoStats (t.applyLog requests).events := by
  rcases t.applyLog_cases requests with ⟨-, h⟩ | ⟨-, -, hs, he⟩
  · rw [h]
    exact ⟨⟨rfl, rfl, rfl, rfl⟩, rfl, rfl, rfl⟩
  · rw [hs, he]
    exact ⟨⟨rfl, rfl, rfl, rfl⟩, rfl, rfl, rfl⟩

/-! ## The blocks told of -/

theorem blocks_seed (page : List Stat) :
    Event.pages (t.seed page).events = [] ∧ Event.appends (t.seed page).events = [] := by
  rcases t.seed_cases page with ⟨-, -, he⟩ | ⟨-, -, he⟩ <;> rw [he] <;> exact ⟨rfl, rfl⟩

theorem blocks_setPaused (paused : Bool) :
    Event.pages (t.setPaused paused).events = [] ∧
      Event.appends (t.setPaused paused).events = [] := by
  rcases t.setPaused_cases paused with ⟨page, -, -, -, he⟩ | ⟨-, -, he⟩ <;> rw [he]
  · exact blocks_seed _ _
  · exact ⟨rfl, rfl⟩

/-- The one older page that a stats response adds holds its intervals before the oldest one held. -/
theorem mem_pages_applyPage {page p : List Stat}
    (hp : p ∈ Event.pages (t.applyPage page).events) : t.older page ≠ [] ∧ p = t.older page := by
  rcases t.applyPage_cases page with ⟨-, -, h⟩ | ⟨-, -, h⟩ | ⟨-, -, -, he⟩ | ⟨-, -, h⟩
  · simp [h] at hp
  · rw [h] at hp
    rcases t.prepend_cases page with ⟨-, -, he⟩ | ⟨-, -, -, he⟩ | ⟨-, ho, -, he⟩
    · rw [he] at hp
      split at hp <;> simp at hp
    · simp [he] at hp
    · exact ⟨ho, by simpa [he] using hp⟩
  · simp [he] at hp
  · rw [h, (t.blocks_seed page).1] at hp
    cases hp

theorem appends_applyPage (page : List Stat) : Event.appends (t.applyPage page).events = [] := by
  rcases t.applyPage_cases page with ⟨-, -, h⟩ | ⟨-, -, h⟩ | ⟨-, -, -, he⟩ | ⟨-, -, h⟩
  · rw [h]
    rfl
  · rw [h]
    rcases t.prepend_cases page with ⟨-, -, he⟩ | ⟨-, -, -, he⟩ | ⟨-, -, -, he⟩ <;> rw [he]
    · split <;> rfl
    · rfl
    · rfl
  · rw [he]
    rfl
  · rw [h]
    exact (t.blocks_seed page).2

theorem pages_applyTail (stats : List Stat) : Event.pages (t.applyTail stats).events = [] := by
  rcases t.applyTail_cases stats with ⟨-, h⟩ | ⟨-, -, -, -, he⟩
  · rw [h]
    rfl
  · rw [he]
    rfl

theorem mem_appends_applyTail {stats new : List Stat}
    (hn : new ∈ Event.appends (t.applyTail stats).events) :
    new = t.statsTail.fresh (·.timestamp) stats := by
  rcases t.applyTail_cases stats with ⟨-, h⟩ | ⟨-, -, -, -, he⟩
  · simp [h] at hn
  · simpa [he] using hn

/-! ## Pausing and capacity -/

theorem paused_seed (page : List Stat) : (t.seed page).state.paused = t.paused := by
  rcases t.seed_cases page with ⟨-, hs, -⟩ | ⟨-, hs, -⟩ <;> rw [hs]

theorem paused_prepend (page : List Stat) : (t.prepend page).state.paused = t.paused := by
  rcases t.prepend_cases page with ⟨-, hs, -⟩ | ⟨-, -, hs, -⟩ | ⟨-, -, hs, -⟩ <;> rw [hs]

theorem paused_applyPage (page : List Stat) : (t.applyPage page).state.paused = t.paused := by
  rcases t.applyPage_cases page with ⟨-, -, h⟩ | ⟨-, -, h⟩ | ⟨-, -, hs, -⟩ | ⟨-, -, h⟩
  · rw [h]
  · rw [h, t.paused_prepend page]
  · rw [hs]
  · rw [h, t.paused_seed page]

theorem paused_applyTail (stats : List Stat) : (t.applyTail stats).state.paused = t.paused := by
  rcases t.applyTail_cases stats with ⟨-, h⟩ | ⟨-, -, -, hs, -⟩
  · rw [h]
  · rw [hs]

theorem paused_applyLog (requests : List Request) :
    (t.applyLog requests).state.paused = t.paused ∧
      (t.applyLog requests).state.capacity = t.capacity := by
  rcases t.applyLog_cases requests with ⟨-, h⟩ | ⟨-, -, hs, -⟩
  · rw [h]
    exact ⟨rfl, rfl⟩
  · rw [hs]
    exact ⟨rfl, rfl⟩

theorem paused_setPaused (paused : Bool) : (t.setPaused paused).state.paused = paused := by
  rcases t.setPaused_cases paused with ⟨page, -, rfl, hs, -⟩ | ⟨-, hs, -⟩
  · rw [hs]
    exact paused_seed _ _
  · rw [hs]

/-- Whether the copy is paused depends on the pausing and resuming alone. -/
theorem paused_perform (op : Operation) :
    (t.perform op).state.paused = op.pausedAfter t.paused := by
  cases op with
  | stats batch => exact (t.observe batch.serverTime).paused_applyPage batch.records
  | pong batch => exact (t.observe batch.serverTime).paused_applyTail batch.records
  | requests batch => exact ((t.observe batch.serverTime).paused_applyLog batch.records).1
  | setPaused paused => exact t.paused_setPaused paused
  | clock millis => rfl

theorem capacity_perform (op : Operation) : (t.perform op).state.capacity = t.capacity := by
  cases op with
  | requests batch => exact ((t.observe batch.serverTime).paused_applyLog batch.records).2
  | stats batch | pong batch | setPaused paused | clock millis =>
    exact (t.sameLog_perform fun _ => Operation.noConfusion).1.capacity

theorem capacity_performAll (ops : List Operation) :
    (t.performAll ops).state.capacity = t.capacity := by
  induction ops generalizing t with
  | nil => rfl
  | cons op ops ih => exact (ih _).trans (t.capacity_perform op)

end Telemetry

end Vitals
