/-
  The counters of merged records.

  * `Event.told stream events`: how many records of a stream some events tell of.
  * `Merge.Tallied m`: what is counted as merged is what the events tell of; every operation is so,
    and so is every run (`Telemetry.tallied_performAll`).
  * `merge_tallies`: the counters agree with the history and the window of every run.
-/
import Vitals.Proofs.Telemetry.History
import Vitals.Proofs.Telemetry.Window

namespace Vitals

namespace Event

/-- How many records of a stream an event brings. -/
def size : Stream → Event → Nat
  | .stats, statsSeeded page | .stats, statsPrepended page => page.length
  | .stats, statsAppended new => new.length
  | .requests, requestsPrepended new => new.length
  | _, _ => 0

def told (stream : Stream) : List Event → Nat
  | [] => 0
  | e :: events => size stream e + told stream events

variable (stream : Stream) (e : Event) (xs ys : List Event)

@[simp] theorem told_nil : told stream [] = 0 := rfl

@[simp] theorem told_cons : told stream (e :: xs) = size stream e + told stream xs := rfl

@[simp] theorem told_append : told stream (xs ++ ys) = told stream xs + told stream ys := by
  induction xs with
  | nil => exact (Nat.zero_add _).symm
  | cons e xs ih => rw [List.cons_append, told_cons, told_cons, ih, Nat.add_assoc]

theorem told_stats_eq : told .stats xs = (pages xs).flatten.length + (seeds xs).flatten.length +
    (appends xs).flatten.length := by
  induction xs with
  | nil => rfl
  | cons e xs ih => cases e <;> simp [size, ih] <;> omega

theorem told_requests_eq : told .requests xs = (logs xs).flatten.length := by
  induction xs with
  | nil => rfl
  | cons e xs ih => cases e <;> simp [size, ih]

end Event

/-- What is counted as merged is what the events tell of. -/
def Merge.Tallied (m : Merge) : Prop :=
  ∀ stream, Note.total (.merged stream) m.notes = Event.told stream m.events

namespace Telemetry

variable (t : Telemetry)

theorem tallied_still : Merge.Tallied ⟨t, [], []⟩ := fun _ => rfl

theorem tallied_seed (page : List Stat) : (t.seed page).Tallied := by
  intro stream
  unfold seed
  dsimp only
  split <;> cases stream <;> simp [merged, note, Note.amount, Event.size]

theorem tallied_prepend (page : List Stat) : (t.prepend page).Tallied := by
  unfold prepend
  dsimp only
  split_ifs with hempty hexhausted
  · exact t.tallied_still
  · intro stream
    cases stream <;> rfl
  · split
    · exact t.tallied_still
    · intro stream
      cases stream <;> simp [merged, note, Note.amount, Event.size]

theorem tallied_applyPage (page : List Stat) : (t.applyPage page).Tallied := by
  unfold applyPage
  split_ifs with hseeded hpaused hpaused
  · exact t.tallied_still
  · exact t.tallied_prepend page
  · intro stream
    cases stream <;> rfl
  · exact t.tallied_seed page

theorem tallied_applyTail (stats : List Stat) : (t.applyTail stats).Tallied := by
  unfold applyTail
  dsimp only
  split_ifs with hclosed hempty
  · exact t.tallied_still
  · exact t.tallied_still
  · intro stream
    cases stream <;> simp [merged, Note.amount, Event.size]

theorem tallied_applyLog (requests : List Request) : (t.applyLog requests).Tallied := by
  unfold applyLog
  dsimp only
  split_ifs with hpaused hempty
  · exact t.tallied_still
  · exact t.tallied_still
  · intro stream
    cases stream <;> simp [merged, Note.amount, Event.size]

/-- The clock of a batch is not counted. -/
theorem tallied_applyBatch {α : Type} {apply : Telemetry → List α → Merge}
    (h : ∀ u records, (apply u records).Tallied) (batch : Batch α) :
    (t.applyBatch apply batch).Tallied := by
  intro stream
  have happly := h (t.observe batch.serverTime) batch.records stream
  cases stream <;> simpa [applyBatch, Event.size] using happly

theorem tallied_setPaused (paused : Bool) : (t.setPaused paused).Tallied := by
  intro stream
  have htoggled : Note.total (.merged stream) (if t.paused = paused then [] else
      [note "Telemetry merge toggled" [("paused", .flag paused)]]) = 0 := by
    split <;> rfl
  unfold setPaused
  dsimp only
  split
  · rw [Note.total_append, htoggled, Nat.zero_add]
    exact tallied_seed _ _ stream
  · exact htoggled

theorem tallied_perform (op : Operation) : (t.perform op).Tallied := by
  cases op with
  | stats batch => exact t.tallied_applyBatch tallied_applyPage batch
  | pong batch => exact t.tallied_applyBatch tallied_applyTail batch
  | requests batch => exact t.tallied_applyBatch tallied_applyLog batch
  | setPaused paused => exact t.tallied_setPaused paused
  | clock millis =>
    intro stream
    cases stream <;> rfl

theorem tallied_performAll (ops : List Operation) : (t.performAll ops).Tallied := by
  induction ops generalizing t with
  | nil => exact t.tallied_still
  | cons op ops ih =>
    intro stream
    have hop := t.tallied_perform op stream
    have hrest := ih (t.perform op).state stream
    rw [performAll, Note.total_append, Event.told_append, hop, hrest]

end Telemetry

/-- **The history holds as many intervals as events have told of.** -/
theorem History.length_stats {t : Telemetry} {past : List Event} (h : History t past) :
    t.stats.length = Event.told .stats past := by
  rw [h.stats, Event.told_stats_eq]
  simp only [List.length_append, List.length_flatten, List.map_reverse, List.sum_reverse]

/-- **The window holds as many entries as events have told of**, up to its capacity. -/
theorem Window.length_requests {t : Telemetry} {logged : List Request} {past : List Event}
    (h : Window t logged past) :
    t.requests.length = min t.capacity (Event.told .requests past) := by
  have htold : Event.told .requests past = (Cursor.start.fresh (·.endMicros) logged).length := by
    rw [← h.told, Event.told_requests_eq, List.length_flatMap, List.length_flatten]
    simp only [List.length_reverse]
  rw [h.requests, htold, List.length_take, List.length_reverse]

/-- **The counters of merged records match the state.** In every run the records counted as merged
are those that the events have told of. Of the stats all are held. Of the requests the window holds
all, up to its capacity. -/
theorem merge_tallies (capacity : Nat) (ops : List Operation) :
    let run := (Telemetry.fresh capacity).performAll ops
    let total (stream : Stream) := Note.total (.merged stream) run.notes
    (∀ stream, total stream = Event.told stream run.events) ∧
      total .stats = run.state.stats.length ∧
      run.state.requests.length = min capacity (total .requests) := by
  intro run total
  have htold : ∀ stream, total stream = Event.told stream run.events :=
    Telemetry.tallied_performAll _ ops
  have hist : History run.state run.events := (History.fresh capacity).performAll ops
  have hw : Window run.state _ run.events := (Window.fresh capacity).performAll ops
  have hcapacity : run.state.capacity = capacity := Telemetry.capacity_performAll _ ops
  refine ⟨htold, (htold .stats).trans hist.length_stats.symm, ?_⟩
  rw [hw.length_requests, hcapacity, htold]

end Vitals
