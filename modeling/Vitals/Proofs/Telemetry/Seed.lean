/-
  How the history of a client's telemetry begins.

  * `Operation.Ripe ops`: a stats response has come, and the copy is not paused.
    `Operation.Opening start`: this is so for the first time.
  * `Opens page t past`: a page has become the history.
  * `Awaiting t ops`: there is no history yet, and the last page that came is in hand.
    `Awaiting.perform`: it stays so until the time is ripe.
  * `seed_of_run`: the seed is the last page that came until then. It need not be the first one, as
    `seed_of_second_response` shows.
-/
import Vitals.Proofs.Telemetry.Paging
import Vitals.Proofs.Telemetry.Pause
import Vitals.Proofs.Telemetry.Replay

namespace Vitals

/-! ## The time of the seed -/

namespace Operation

/-- After these operations a stats response has come, and the copy is not paused. -/
def Ripe (ops : List Operation) : Prop := responses ops ≠ [] ∧ ops.foldl pausedAfter false = false

/-- After these operations, and not before, this is so. -/
def Opening (start : List Operation) : Prop :=
  Ripe start ∧ ∀ earlier, earlier <+: start → Ripe earlier → earlier = start

variable {ops start : List Operation}

theorem not_ripe_nil : ¬ Ripe [] := fun h => h.1 rfl

theorem exists_opening (h : ∃ start, start <+: ops ∧ Ripe start) :
    ∃ start, start <+: ops ∧ Opening start := by
  -- From the end, as an opening is over in every longer run.
  induction ops using List.reverseRecOn with
  | nil =>
    obtain ⟨start, hsub, hripe⟩ := h
    rw [List.prefix_nil.1 hsub] at hripe
    exact absurd hripe not_ripe_nil
  | append_singleton ops op ih =>
    by_cases hearlier : ∃ start, start <+: ops ∧ Ripe start
    · obtain ⟨start, hsub, hopening⟩ := ih hearlier
      exact ⟨start, hsub.trans (List.prefix_append _ _), hopening⟩
    · obtain ⟨start, hsub, hripe⟩ := h
      rcases List.prefix_concat_iff.1 hsub with rfl | hsub
      · refine ⟨_, List.prefix_refl _, hripe, fun earlier hsub' hripe' => ?_⟩
        exact (List.prefix_concat_iff.1 hsub').resolve_right fun hsub' =>
          hearlier ⟨earlier, hsub', hripe'⟩
      · exact absurd ⟨start, hsub, hripe⟩ hearlier

/-- The time is not ripe before an opening, but with its last operation. -/
theorem Opening.eq_append (h : Opening start) :
    ∃ ops op, start = ops ++ [op] ∧ ∀ earlier, earlier <+: ops → ¬ Ripe earlier := by
  obtain ⟨hripe, hfirst⟩ := h
  rcases List.eq_nil_or_concat start with rfl | ⟨ops, op, rfl⟩
  · exact absurd hripe not_ripe_nil
  · refine ⟨ops, op, by simp, fun earlier hsub hripe' => ?_⟩
    have heq := hfirst earlier (by simpa using hsub.trans (List.prefix_append _ _)) hripe'
    have hlen := hsub.length_le
    rw [heq, List.length_concat] at hlen
    omega

end Operation

open Operation

/-! ## Seeding -/

/-- A page has become the history, of which the events tell nothing else. -/
structure Opens (page : List Stat) (t : Telemetry) (past : List Event) : Prop where
  seeded : t.seeded = true
  stats : t.stats = page
  seeds : Event.seeds past = if page = [] then [] else [page]
  exhausted : past.count .historyExhausted = if page = [] then 1 else 0

theorem SeededBy.opens {capacity : Nat} {t : Telemetry} {past : List Event} {op : Operation}
    {page : List Stat} (h : SeededBy page t (t.perform op)) (hacc : Account capacity t past)
    (hs : t.seeded = false) (hop : ∀ batch, op ≠ .pong batch) :
    Opens page (t.perform op).state (past ++ (t.perform op).events) := by
  obtain ⟨hseeds, hpages, happends⟩ := hacc.history.unseeded hs
  have hend : t.exhausted = false := by
    refine eq_false_of_ne_true fun hx => ?_
    exact absurd (hs.symm.trans (hacc.exhaustion.seeded hx)) (by decide)
  have hnone : Event.appends (t.perform op).events = [] := by
    refine List.eq_nil_iff_forall_not_mem.2 fun new hnew => ?_
    obtain ⟨batch, rfl, -⟩ := hacc.history.appends_perform hnew
    exact hop batch rfl
  have hnow := hacc.perform op
  refine ⟨h.seeded, ?_, ?_, ?_⟩
  · rw [hnow.history.stats, Event.pages_append, Event.seeds_append, Event.appends_append, hseeds,
      hpages, happends, h.pages, h.seeds, hnone]
    by_cases hp : page = [] <;> simp [hp]
  · rw [Event.seeds_append, hseeds, h.seeds]
    rfl
  · rw [hnow.exhaustion.count, h.exhausted, hend]
    by_cases hp : page = [] <;> simp [hp]

/-- There is no history yet, and the last page that came is in hand. -/
structure Awaiting (t : Telemetry) (ops : List Operation) : Prop where
  seeded : t.seeded = false
  held : t.held = (responses ops).getLast?
  mode : t.paused = ops.foldl pausedAfter false
  early : ¬ Ripe ops

namespace Awaiting

variable {t : Telemetry} {ops : List Operation}

theorem fresh (capacity : Nat) : Awaiting (.fresh capacity) [] where
  seeded := rfl
  held := rfl
  mode := rfl
  early := not_ripe_nil

/-- What neither seeds the copy nor ripens the time. -/
theorem wait (h : Awaiting t ops) {op : Operation} (hs : (t.perform op).state.seeded = false)
    (hheld : (t.perform op).state.held = op.response?.or t.held) (hearly : ¬ Ripe (ops ++ [op])) :
    Awaiting (t.perform op).state (ops ++ [op]) where
  seeded := hs
  held := by
    rw [hheld, h.held, responses_append, responses_cons]
    cases op.response? <;> simp
  mode := by
    rw [t.paused_perform, h.mode, List.foldl_append]
    rfl
  early := hearly

/-- The time is not ripe while paused, nor by what neither brings a page nor resumes. -/
theorem not_ripe (h : Awaiting t ops) {op : Operation}
    (hop : op.pausedAfter t.paused = true ∨
      op.response? = none ∧ op.pausedAfter t.paused = t.paused) :
    ¬ Ripe (ops ++ [op]) := by
  rintro ⟨hpages, hmode⟩
  rw [List.foldl_append, List.foldl_cons, List.foldl_nil, ← h.mode] at hmode
  rcases hop with hpaused | ⟨hnone, hsame⟩
  · rw [hpaused] at hmode
    cases hmode
  · refine h.early ⟨by simpa [hnone] using hpages, ?_⟩
    rw [← h.mode, ← hsame, hmode]

/-- **A copy without a history waits on, or else the time is ripe**, and the last page that came
seeds it. -/
theorem perform (h : Awaiting t ops) (op : Operation) :
    Awaiting (t.perform op).state (ops ++ [op]) ∨
    (Ripe (ops ++ [op]) ∧ (∀ batch, op ≠ .pong batch) ∧
      ∃ page, (responses (ops ++ [op])).getLast? = some page ∧ SeededBy page t (t.perform op)) := by
  have hcases := Telemetry.perform_unseeded h.seeded op
  cases op with
  | stats batch =>
    cases hp : t.paused with
    | true =>
      obtain ⟨_, -, -, hst⟩ :=
        Telemetry.perform_paused hp fun _ => Operation.noConfusion (t := .stats batch)
      refine Or.inl (h.wait ?_ ?_ (h.not_ripe (Or.inl hp)))
      · rw [hst]
        exact h.seeded
      · rw [hst, h.seeded]
        rfl
    | false =>
      have hripe : Ripe (ops ++ [.stats batch]) := by
        refine ⟨by simp [response?], ?_⟩
        rw [List.foldl_append, ← h.mode]
        exact hp
      refine Or.inr ⟨hripe, fun _ => Operation.noConfusion, batch.records, by simp [response?], ?_⟩
      rcases hcases with ⟨page, ⟨-, rfl⟩, hseed⟩ | ⟨hs, -⟩
      · exact hseed
      · obtain ⟨hst, -⟩ := Telemetry.mergeStats_of_unseeded h.seeded hp batch
        rw [Telemetry.perform, hst, (Telemetry.seededBy_seed _ _).seeded] at hs
        cases hs
  | setPaused paused =>
    cases paused with
    | true =>
      obtain ⟨hst, -⟩ := t.setPaused_true
      refine Or.inl (h.wait ?_ ?_ (h.not_ripe (Or.inl rfl)))
      · rw [Telemetry.perform, hst]
        exact h.seeded
      · rw [Telemetry.perform, hst]
        rfl
    | false =>
      -- What is in hand is the last page, so resuming ripens the time iff there was one.
      cases hh : t.held with
      | none =>
        have hnone : responses ops = [] := List.getLast?_eq_none_iff.1 (h.held ▸ hh)
        obtain ⟨hst, -⟩ := Telemetry.setPaused_false_of_none hh
        refine Or.inl (h.wait ?_ ?_ (by simp [Ripe, response?, hnone]))
        · rw [Telemetry.perform, hst]
          exact h.seeded
        · rw [Telemetry.perform, hst]
          rfl
      | some page =>
        have hlast : (responses ops).getLast? = some page := h.held ▸ hh
        have hripe : Ripe (ops ++ [.setPaused false]) := by
          refine ⟨fun hnil => ?_, by rw [List.foldl_append]; rfl⟩
          rw [responses_append, List.append_eq_nil_iff] at hnil
          rw [hnil.1] at hlast
          cases hlast
        refine Or.inr ⟨hripe, fun _ => Operation.noConfusion, page, by simpa [response?], ?_⟩
        obtain ⟨hst, hev⟩ := Telemetry.setPaused_false_of_some hh
        obtain ⟨h1, h2, h3, h4⟩ :=
          Telemetry.seededBy_seed { t with paused := false, held := none } page
        exact ⟨hst ▸ h1, hst ▸ h2, hev ▸ h3, hev ▸ h4⟩
  | pong batch | requests batch | clock millis =>
    refine Or.inl ?_
    rcases hcases with ⟨page, hbrings, -⟩ | ⟨hs, -, hheld⟩
    · exact hbrings.elim
    · refine h.wait hs (hheld.resolve_right ?_) (h.not_ripe (Or.inr ⟨rfl, rfl⟩))
      rintro ⟨batch, hop, -⟩
      cases hop

/-- As long as the time is not ripe, a copy waits. -/
theorem performAll (capacity : Nat) (h : ∀ start, start <+: ops → ¬ Ripe start) :
    Awaiting ((Telemetry.fresh capacity).performAll ops).state ops := by
  induction ops using List.reverseRecOn with
  | nil => exact .fresh capacity
  | append_singleton ops op ih =>
    have hwait := ih fun start hsub => h start (hsub.trans (List.prefix_append _ _))
    rw [Telemetry.state_performAll_append]
    rcases hwait.perform op with hwait' | ⟨hripe, -⟩
    · exact hwait'
    · exact absurd hripe (h _ (List.prefix_refl _))

end Awaiting

/-! ## The seed of a run -/

variable {start : List Operation}

/-- **At its opening a copy is seeded by the last page that came.** -/
theorem Operation.Opening.opens (h : Opening start) (capacity : Nat) :
    ∃ page, (responses start).getLast? = some page ∧
      Opens page ((Telemetry.fresh capacity).performAll start).state
        ((Telemetry.fresh capacity).performAll start).events := by
  obtain ⟨ops, op, rfl, hearly⟩ := h.eq_append
  have hwait := Awaiting.performAll capacity hearly
  have hacc := Account.of_fresh capacity ops
  rcases hwait.perform op with hwait' | ⟨-, hop, page, hlast, hseed⟩
  · exact absurd h.1 hwait'.early
  · refine ⟨page, hlast, ?_⟩
    have hopens := hseed.opens hacc hwait.seeded hop
    rw [Telemetry.state_performAll_append, Telemetry.events_performAll_append,
      Telemetry.events_performAll_singleton]
    exact hopens

/-- Once there is a history, no run seeds it again. -/
theorem Telemetry.performAll_seeded {t : Telemetry} {past : List Event} (hist : History t past)
    (hs : t.seeded = true) (ops : List Operation) :
    (t.performAll ops).state.seeded = true ∧ Event.seeds (t.performAll ops).events = [] := by
  induction ops generalizing t past with
  | nil => exact ⟨hs, rfl⟩
  | cons op ops ih =>
    obtain ⟨hs', hseeds, -⟩ := perform_seeded hist hs op
    obtain ⟨hs'', hseeds'⟩ := ih (hist.perform op) hs'
    refine ⟨hs'', ?_⟩
    show Event.seeds ((t.perform op).events ++ _) = []
    rw [Event.seeds_append, hseeds, hseeds', List.append_nil]

/-- Once there is a history, a stats response is an older page. -/
theorem Telemetry.mergeStats_of_seeded {t : Telemetry} (hs : t.seeded = true) (batch : Batch Stat) :
    t.mergeStats batch =
      if t.paused then t.mergeClock batch else t.applyBatch Telemetry.prepend batch := by
  cases hp : t.paused <;> simp [mergeStats, mergeClock, applyBatch, applyPage, observe, hs, hp]

/-- **The seed is the last page that came before the time was ripe**, which is when a stats response
has come and the copy is not paused. Until then each page takes the place of the one before it, and
afterwards each is an older page. So the seed is the first page if it came alone. -/
theorem seed_of_run (capacity : Nat) (ops : List Operation) :
    let run := fun ops => (Telemetry.fresh capacity).performAll ops
    ((run ops).state.seeded = true ↔ ∃ start, start <+: ops ∧ Opening start) ∧
    ((run ops).state.seeded = false → (run ops).state.held = (responses ops).getLast?) ∧
    ∀ start after, ops = start ++ after → Opening start →
      ∃ page, (responses start).getLast? = some page ∧
        ((responses start).length = 1 → (responses ops).head? = some page) ∧
        Opens page (run start).state (run start).events ∧
        Event.seeds ((run start).state.performAll after).events = [] ∧
        ∀ earlier batch later, after = earlier ++ .stats batch :: later →
          let t := (run (start ++ earlier)).state
          t.mergeStats batch =
            if t.paused then t.mergeClock batch else t.applyBatch Telemetry.prepend batch := by
  intro run
  have hseeded : ∀ {start} after, Opening start → (run (start ++ after)).state.seeded = true ∧
      Event.seeds ((run start).state.performAll after).events = [] := by
    intro start after hopening
    obtain ⟨page, -, hopens⟩ := hopening.opens capacity
    rw [Telemetry.state_performAll_append]
    exact Telemetry.performAll_seeded (History.of_fresh capacity start) hopens.seeded after
  have hwaiting : (¬ ∃ start, start <+: ops ∧ Opening start) → Awaiting (run ops).state ops :=
    fun hno => Awaiting.performAll capacity fun start hsub hripe =>
      hno (exists_opening ⟨start, hsub, hripe⟩)
  have hopened : (run ops).state.seeded = true ↔ ∃ start, start <+: ops ∧ Opening start := by
    constructor
    · intro hs
      by_contra hno
      exact absurd (hs.symm.trans (hwaiting hno).seeded) (by decide)
    · rintro ⟨start, ⟨after, rfl⟩, hopening⟩
      exact (hseeded after hopening).1
  refine ⟨hopened, fun hs => (hwaiting fun h => ?_).held, fun start after hcut hopening => ?_⟩
  · exact absurd (hs.symm.trans (hopened.2 h)) (by decide)
  · obtain ⟨page, hlast, hopens⟩ := hopening.opens capacity
    refine ⟨page, hlast, fun hone => ?_, hopens, (hseeded after hopening).2,
      fun earlier batch later _ => ?_⟩
    · obtain ⟨first, hfirst⟩ := List.length_eq_one_iff.1 hone
      rw [hfirst] at hlast
      rw [hcut, responses_append, hfirst]
      exact hlast
    · exact Telemetry.mergeStats_of_seeded (hseeded earlier hopening).1 batch

/-- A second page that comes in the same pause takes the place of the first. -/
theorem seed_of_second_response :
    let stat (timestamp : UInt64) : Stat := { (default : Stat) with timestamp }
    let ops : List Operation :=
      [.setPaused true, .stats ⟨1, [stat 5]⟩, .stats ⟨2, [stat 3]⟩, .setPaused false]
    (responses ops).head? = some [stat 5] ∧
      Event.seeds ((Telemetry.fresh 100).performAll ops).events = [[stat 3]] := by
  decide

end Vitals
