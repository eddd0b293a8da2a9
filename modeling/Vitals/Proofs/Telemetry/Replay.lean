/-
  A client's telemetry, rebuilt from the events that it publishes.

  * `View`: what a watcher can see of a copy; `View.tell`: what a watcher makes of an event.
  * `Telemetry.Tells`: the events of an operation tell a watcher all that it does to the view;
    `tells_perform`: so it is with every operation.
  * `Exhaustion`: the end of the history is told of once, when it is reached.
  * `Account`: some events are all that there is to know of a copy; `Account.perform`.
  * `ofRecords_applyPage` and the like: records bring about no news of the clock, nor of the end of
    the session; `closed_not_mem_perform`: no operation does the latter.
-/
import Vitals.Proofs.Telemetry.History
import Vitals.Proofs.Telemetry.Window

namespace Vitals

/-! ## Views -/

/-- What a watcher can see of a client's telemetry. -/
structure View where
  stats : List Stat
  requests : List Request
  serverTime : Option UInt64
  exhausted : Bool
  deriving DecidableEq

namespace View

/-- Before any event. -/
def blank : View := ⟨[], [], none, false⟩

/-- What there is to see. -/
def of (t : Telemetry) : View := ⟨t.stats, t.requests, t.serverTime, t.exhausted⟩

/-- The view after an event, for a window of the given capacity. -/
def tell (capacity : Nat) (v : View) : Event → View
  | .statsSeeded stats => { v with stats }
  | .statsPrepended stats => { v with stats := stats ++ v.stats }
  | .statsAppended stats => { v with stats := v.stats ++ stats }
  | .historyExhausted => { v with exhausted := true }
  | .requestsPrepended requests => { v with requests := (requests ++ v.requests).take capacity }
  | .serverTime millis => { v with serverTime := some millis }
  | .closed => v

end View

/-! ## Operations tell what they do -/

namespace Telemetry

/-- The events of an operation tell a watcher all that it does to the view. -/
def Tells (t : Telemetry) (m : Merge) : Prop :=
  m.events.foldl (View.tell t.capacity) (.of t) = .of m.state

variable (t : Telemetry)

theorem tells_nothing : t.Tells ⟨t, [], []⟩ := rfl

theorem tells_seed (page : List Stat) : t.Tells (t.seed page) := by
  unfold Tells
  rcases t.seed_cases page with ⟨-, hs, he⟩ | ⟨-, hs, he⟩ <;> rw [hs, he] <;> rfl

theorem tells_prepend (page : List Stat) : t.Tells (t.prepend page) := by
  unfold Tells
  rcases t.prepend_cases page with ⟨-, hs, he⟩ | ⟨-, -, hs, he⟩ | ⟨-, -, hs, he⟩ <;> rw [hs, he]
  · -- An end told of before is in the view already.
    cases hx : t.exhausted <;> simp [View.of, View.tell, hx]
  · rfl
  · rfl

theorem tells_applyPage (page : List Stat) : t.Tells (t.applyPage page) := by
  rcases t.applyPage_cases page with ⟨-, -, h⟩ | ⟨-, -, h⟩ | ⟨-, -, hs, he⟩ | ⟨-, -, h⟩
  · exact h ▸ t.tells_nothing
  · exact h ▸ t.tells_prepend page
  · unfold Tells
    rw [hs, he]
    rfl
  · exact h ▸ t.tells_seed page

theorem tells_applyTail (stats : List Stat) : t.Tells (t.applyTail stats) := by
  rcases t.applyTail_cases stats with ⟨-, h⟩ | ⟨-, -, -, hs, he⟩
  · exact h ▸ t.tells_nothing
  · unfold Tells
    rw [hs, he]
    rfl

theorem tells_applyLog (requests : List Request) : t.Tells (t.applyLog requests) := by
  rcases t.applyLog_cases requests with ⟨-, h⟩ | ⟨-, -, hs, he⟩
  · exact h ▸ t.tells_nothing
  · unfold Tells
    rw [hs, he]
    rfl

theorem tells_setPaused (paused : Bool) : t.Tells (t.setPaused paused) := by
  unfold Tells
  rcases t.setPaused_cases paused with ⟨page, -, -, hs, he⟩ | ⟨-, hs, he⟩ <;> rw [hs, he]
  · exact tells_seed { t with paused := false, held := none } page
  · rfl

theorem tells_applyBatch {α : Type} {apply : Telemetry → List α → Merge}
    (h : ∀ t xs, Tells t (apply t xs)) (batch : Batch α) : t.Tells (t.applyBatch apply batch) :=
  h (t.observe batch.serverTime) batch.records

/-- **Every operation tells what it does.** -/
theorem tells_perform (op : Operation) : t.Tells (t.perform op) := by
  cases op with
  | stats batch => exact t.tells_applyBatch tells_applyPage batch
  | pong batch => exact t.tells_applyBatch tells_applyTail batch
  | requests batch => exact t.tells_applyBatch tells_applyLog batch
  | setPaused paused => exact t.tells_setPaused paused
  | clock millis => rfl

end Telemetry

/-! ## What records bring about -/

/-- An event that tells of records, or that there are no older ones. -/
@[simp] def Event.ofRecords : Event → Bool
  | statsSeeded _ | statsPrepended _ | statsAppended _ | requestsPrepended _ => true
  | historyExhausted => true
  | serverTime _ | closed => false

namespace Telemetry

variable (t : Telemetry)

theorem ofRecords_seed (page : List Stat) : ∀ e ∈ (t.seed page).events, e.ofRecords := by
  rcases t.seed_cases page with ⟨-, -, he⟩ | ⟨-, -, he⟩ <;> simp [he]

theorem ofRecords_applyPage (page : List Stat) :
    ∀ e ∈ (t.applyPage page).events, e.ofRecords := by
  rcases t.applyPage_cases page with ⟨-, -, h⟩ | ⟨-, -, h⟩ | ⟨-, -, -, he⟩ | ⟨-, -, h⟩
  · simp [h]
  · rw [h]
    rcases t.prepend_cases page with ⟨-, -, he⟩ | ⟨-, -, -, he⟩ | ⟨-, -, -, he⟩ <;> rw [he]
    · split <;> simp
    · simp
    · simp
  · simp [he]
  · rw [h]
    exact t.ofRecords_seed page

theorem ofRecords_applyTail (stats : List Stat) :
    ∀ e ∈ (t.applyTail stats).events, e.ofRecords := by
  rcases t.applyTail_cases stats with ⟨-, h⟩ | ⟨-, -, -, -, he⟩
  · simp [h]
  · simp [he]

theorem ofRecords_applyLog (requests : List Request) :
    ∀ e ∈ (t.applyLog requests).events, e.ofRecords := by
  rcases t.applyLog_cases requests with ⟨-, h⟩ | ⟨-, -, -, he⟩
  · simp [h]
  · simp [he]

theorem ofRecords_setPaused (paused : Bool) :
    ∀ e ∈ (t.setPaused paused).events, e.ofRecords := by
  rcases t.setPaused_cases paused with ⟨page, -, -, -, he⟩ | ⟨-, -, he⟩ <;> rw [he]
  · exact ofRecords_seed _ _
  · simp

/-- **No operation tells of the end of a session.** -/
theorem closed_not_mem_perform (op : Operation) : .closed ∉ (t.perform op).events := by
  have hbatch : ∀ {millis : UInt64} {events : List Event}, (∀ e ∈ events, e.ofRecords) →
      .closed ∉ .serverTime millis :: events := by
    intro millis events h hm
    rcases List.mem_cons.1 hm with hm | hm
    · cases hm
    · cases h _ hm
  cases op with
  | stats batch => exact hbatch (ofRecords_applyPage _ _)
  | pong batch => exact hbatch (ofRecords_applyTail _ _)
  | requests batch => exact hbatch (ofRecords_applyLog _ _)
  | setPaused paused =>
    intro hm
    cases t.ofRecords_setPaused paused _ hm
  | clock millis => exact hbatch nofun

theorem closed_not_mem_performAll (ops : List Operation) :
    .closed ∉ (t.performAll ops).events := by
  induction ops generalizing t with
  | nil => exact List.not_mem_nil
  | cons op ops ih => exact List.not_mem_append (t.closed_not_mem_perform op) (ih _)

end Telemetry

/-! ## The end of the history -/

/-- The end of the history is told of once, when it is reached, which takes a first page. -/
structure Exhaustion (t : Telemetry) (past : List Event) : Prop where
  count : past.count .historyExhausted = if t.exhausted then 1 else 0
  seeded : t.exhausted = true → t.seeded = true

namespace Exhaustion

variable {t u : Telemetry} {past : List Event}

theorem fresh (capacity : Nat) : Exhaustion (.fresh capacity) [] where
  count := rfl
  seeded := nofun

/-- What neither reaches the end nor tells of it. -/
theorem congr {es : List Event} (h : Exhaustion t past) (hu : u.exhausted = t.exhausted)
    (hs : t.seeded = true → u.seeded = true) (he : .historyExhausted ∉ es) :
    Exhaustion u (past ++ es) where
  count := by rw [List.count_append, List.count_eq_zero.2 he, hu, h.count, Nat.add_zero]
  seeded hx := hs (h.seeded (hu ▸ hx))

/-- An end that is reached now is told of now. -/
theorem reach (h : Exhaustion t past) (hx : t.exhausted = false) (hu : u.exhausted = true)
    (hs : u.seeded = true) : Exhaustion u (past ++ [.historyExhausted]) where
  count := by
    rw [List.count_append, h.count, hx, hu]
    rfl
  seeded _ := hs

theorem seed (h : Exhaustion t past) (hs : t.seeded = false) (page : List Stat) :
    Exhaustion (t.seed page).state (past ++ (t.seed page).events) := by
  have hx : t.exhausted = false := by
    refine eq_false_of_ne_true fun hx => ?_
    exact absurd (hs.symm.trans (h.seeded hx)) (by decide)
  rcases t.seed_cases page with ⟨-, hst, hev⟩ | ⟨-, hst, hev⟩ <;> rw [hst, hev]
  · exact h.reach hx rfl rfl
  · exact h.congr rfl (fun _ => rfl) (by simp)

theorem prepend (h : Exhaustion t past) (hs : t.seeded = true) (page : List Stat) :
    Exhaustion (t.prepend page).state (past ++ (t.prepend page).events) := by
  rcases t.prepend_cases page with ⟨-, hst, hev⟩ | ⟨-, -, hst, hev⟩ | ⟨-, -, hst, hev⟩ <;>
    rw [hst, hev]
  · cases hx : t.exhausted with
    | true => exact h.congr hx.symm id (by simp)
    | false => exact h.reach hx rfl hs
  · exact h.congr rfl id (by simp)
  · exact h.congr rfl id (by simp)

theorem observe (h : Exhaustion t past) (millis : UInt64) :
    Exhaustion (t.observe millis) (past ++ [.serverTime millis]) :=
  h.congr rfl id (by simp)

theorem applyPage (h : Exhaustion t past) (page : List Stat) :
    Exhaustion (t.applyPage page).state (past ++ (t.applyPage page).events) := by
  rcases t.applyPage_cases page with ⟨-, -, hm⟩ | ⟨hs, -, hm⟩ | ⟨-, -, hst, hev⟩ | ⟨hs, -, hm⟩
  · rw [hm]
    exact h.congr rfl id (by simp)
  · rw [hm]
    exact h.prepend hs page
  · rw [hst, hev]
    exact h.congr rfl id (by simp)
  · rw [hm]
    exact h.seed hs page

theorem applyTail (h : Exhaustion t past) (stats : List Stat) :
    Exhaustion (t.applyTail stats).state (past ++ (t.applyTail stats).events) := by
  rcases t.applyTail_cases stats with ⟨-, hm⟩ | ⟨-, -, -, hst, hev⟩
  · rw [hm]
    exact h.congr rfl id (by simp)
  · rw [hst, hev]
    exact h.congr rfl id (by simp)

theorem applyLog (h : Exhaustion t past) (requests : List Request) :
    Exhaustion (t.applyLog requests).state (past ++ (t.applyLog requests).events) := by
  rcases t.applyLog_cases requests with ⟨-, hm⟩ | ⟨-, -, hst, hev⟩
  · rw [hm]
    exact h.congr rfl id (by simp)
  · rw [hst, hev]
    exact h.congr rfl id (by simp)

/-- A page is held only before the history is seeded, so the end that it may be is a first one. -/
theorem setPaused (h : Exhaustion t past) (hheld : t.held ≠ none → t.seeded = false)
    (paused : Bool) :
    Exhaustion (t.setPaused paused).state (past ++ (t.setPaused paused).events) := by
  rcases t.setPaused_cases paused with ⟨page, hpage, -, hst, hev⟩ | ⟨-, hst, hev⟩ <;>
    rw [hst, hev]
  · have hu : Exhaustion { t with paused := false, held := none } past := ⟨h.count, h.seeded⟩
    exact hu.seed (hheld (by simp [hpage])) page
  · exact h.congr rfl id (by simp)

theorem perform (h : Exhaustion t past) (hheld : t.held ≠ none → t.seeded = false)
    (op : Operation) : Exhaustion (t.perform op).state (past ++ (t.perform op).events) := by
  cases op with
  | stats batch =>
    have := (h.observe batch.serverTime).applyPage batch.records
    rwa [List.append_assoc] at this
  | pong batch =>
    have := (h.observe batch.serverTime).applyTail batch.records
    rwa [List.append_assoc] at this
  | requests batch =>
    have := (h.observe batch.serverTime).applyLog batch.records
    rwa [List.append_assoc] at this
  | setPaused paused => exact h.setPaused hheld paused
  | clock millis => exact h.observe millis

end Exhaustion

/-! ## Accounts -/

/-- Some events are all that there is to know of a copy: they rebuild its view, for its capacity. -/
structure Account (capacity : Nat) (t : Telemetry) (past : List Event) : Prop where
  bound : t.capacity = capacity
  history : History t past
  view : past.foldl (View.tell capacity) .blank = .of t
  exhaustion : Exhaustion t past

namespace Account

variable {capacity : Nat} {t : Telemetry} {past : List Event}

theorem fresh (capacity : Nat) : Account capacity (.fresh capacity) [] where
  bound := rfl
  history := .fresh capacity
  view := rfl
  exhaustion := .fresh capacity

/-- **An operation keeps the account**, with the events that it publishes. -/
theorem perform (h : Account capacity t past) (op : Operation) :
    Account capacity (t.perform op).state (past ++ (t.perform op).events) where
  bound := (t.capacity_perform op).trans h.bound
  history := h.history.perform op
  view := by
    rw [List.foldl_append, h.view, ← h.bound]
    exact t.tells_perform op
  exhaustion := h.exhaustion.perform (fun hheld => (h.history.held hheld).1) op

theorem performAll (h : Account capacity t past) (ops : List Operation) :
    Account capacity (t.performAll ops).state (past ++ (t.performAll ops).events) := by
  induction ops generalizing t past with
  | nil => simpa using h
  | cons op ops ih =>
    have := ih (h.perform op)
    rwa [List.append_assoc] at this

theorem of_fresh (capacity : Nat) (ops : List Operation) :
    Account capacity ((Telemetry.fresh capacity).performAll ops).state
      ((Telemetry.fresh capacity).performAll ops).events :=
  (Account.fresh capacity).performAll ops

/-- The end of a session says nothing of its telemetry. -/
theorem closed (h : Account capacity t past) : Account capacity t (past ++ [.closed]) where
  bound := h.bound
  history := h.history.closed
  view := by
    rw [List.foldl_append, h.view]
    rfl
  exhaustion := h.exhaustion.congr rfl id (by simp)

theorem length_seeds_le (h : Account capacity t past) : (Event.seeds past).length ≤ 1 := by
  rcases h.history.seeds with he | ⟨page, -, he⟩ <;> simp [he]

theorem count_historyExhausted_le (h : Account capacity t past) :
    past.count .historyExhausted ≤ 1 := by
  rw [h.exhaustion.count]
  split <;> decide

end Account

end Vitals
