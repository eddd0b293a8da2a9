/-
  Batches that arrive again.

  * `Operation.Merges t op`: `t` is able to merge the records of `op`.
  * `Spent t op`: there is nothing left in them for `t`. `Spent.perform_eq`: then only the clock
    moves.
  * `Telemetry.spent_perform`: a batch is spent once it has been merged. `Spent.mono`: it stays so
    as a copy moves on.
  * `redelivery_harmless`: a batch that was merged once may arrive again at any later point.
-/
import Vitals.Proofs.Telemetry.Progress

namespace Vitals

open Stat

/-- The records of an operation are merged, not dropped or held. -/
def Operation.Merges (t : Telemetry) : Operation → Prop
  | stats _ => t.paused = false
  | pong _ => t.paused = false ∧ t.seeded = true
  | requests _ => t.paused = false
  | setPaused _ | clock _ => False

/-- The records of an operation have nothing for a copy: it has gone past them, in the direction of
the cursor that they are judged by. -/
inductive Spent (t : Telemetry) : Operation → Prop
  | stats {batch : Batch Stat} : t.seeded = true → (batch.records = [] → t.exhausted = true) →
      (∀ s ∈ batch.records, t.statsPage.position ≤ s.timestamp) → Spent t (.stats batch)
  | pong {batch : Batch Stat} : (∀ s ∈ batch.records, s.timestamp ≤ t.statsTail.position) →
      Spent t (.pong batch)
  | requests {batch : Batch Request} :
      (∀ r ∈ batch.records, r.endMicros ≤ t.requestTail.position) → Spent t (.requests batch)

/-! ## Merging spends a batch -/

theorem Stat.oldest_le {xs : List Stat} {s : Stat} (hs : s ∈ xs) : oldest xs ≤ s.timestamp :=
  UInt64.not_lt.1 fun hlt => UInt64.lt_irrefl _ ((lt_oldest (List.ne_nil_of_mem hs)).1 hlt s hs)

namespace Telemetry

variable {t : Telemetry} {op : Operation}

theorem position_prepend_le_of_mem (t : Telemetry) {page : List Stat} {s : Stat} (hs : s ∈ page) :
    (t.prepend page).state.statsPage.position ≤ s.timestamp := by
  by_cases holder : s ∈ t.older page
  · rcases t.prepend_cases page with ⟨rfl, -⟩ | ⟨-, hnil, -⟩ | ⟨-, -, hst, -⟩
    · cases hs
    · rw [hnil] at holder
      cases holder
    · rw [hst]
      exact oldest_le holder
  · have hle : t.statsPage.position ≤ s.timestamp := by
      simpa [older, hs] using holder
    exact UInt64.le_trans (t.position_prepend_le page) hle

theorem spent_applyPage (hp : t.paused = false) (batch : Batch Stat) :
    Spent (t.applyPage batch.records).state (.stats batch) := by
  rw [t.applyPage_of_unpaused hp]
  split_ifs with hs
  · refine .stats ?_ (fun hnil => ?_) fun s => t.position_prepend_le_of_mem
    · rcases t.prepend_cases batch.records with ⟨-, hst, -⟩ | ⟨-, -, hst, -⟩ | ⟨-, -, hst, -⟩ <;>
        rw [hst] <;> exact hs
    · rcases t.prepend_cases batch.records with ⟨-, hst, -⟩ | ⟨hne, -⟩ | ⟨hne, -⟩
      · rw [hst]
      · exact absurd hnil hne
      · exact absurd hnil hne
  · rcases t.seed_cases batch.records with ⟨hnil, hst, -⟩ | ⟨hne, hst, -⟩ <;> rw [hst]
    · exact .stats rfl (fun _ => rfl) (by simp [hnil])
    · exact .stats rfl (fun hnil => absurd hnil hne) fun s => oldest_le

/-- **A batch that is merged is spent.** -/
theorem spent_perform (h : op.Merges t) : Spent (t.perform op).state op := by
  cases op with
  | stats batch => exact spent_applyPage (t := t.observe batch.serverTime) h batch
  | pong batch =>
    obtain ⟨hp, hs⟩ := h
    refine .pong fun s hmem => ?_
    simp only [perform, mergePong, applyBatch]
    -- If there was nothing new in the batch, then the cursor is past it already.
    rcases (t.observe batch.serverTime).applyTail_cases batch.records with
      ⟨hno, h⟩ | ⟨-, -, -, hst, -⟩
    · have hmerging := hno.resolve_left fun hp' => absurd (hp.symm.trans hp') (by decide)
      have hfresh := hmerging.resolve_left fun hs' => absurd (hs.symm.trans hs') (by decide)
      rw [h]
      exact Cursor.fresh_eq_nil_iff.1 hfresh s hmem
    · rw [hst]
      exact Cursor.le_position_advanceAll _ (List.mem_map_of_mem hmem)
  | requests batch =>
    refine .requests fun r hmem => ?_
    simp only [perform, mergeRequests, applyBatch]
    rcases (t.observe batch.serverTime).applyLog_cases batch.records with
      ⟨hno, hm⟩ | ⟨-, -, hst, -⟩
    · have hfresh := hno.resolve_left fun hp' => absurd (h.symm.trans hp') (by decide)
      rw [hm]
      exact Cursor.fresh_eq_nil_iff.1 hfresh r hmem
    · rw [hst]
      exact Cursor.le_position_advanceAll _ (List.mem_map_of_mem hmem)
  | setPaused paused => exact h.elim
  | clock millis => exact h.elim

/-! ## A spent batch -/

theorem prepend_of_spent {page : List Stat} (hend : page = [] → t.exhausted = true)
    (hall : ∀ s ∈ page, t.statsPage.position ≤ s.timestamp) : t.prepend page = ⟨t, [], []⟩ := by
  by_cases hnil : page = []
  · simp [prepend, hnil, hend hnil]
  · have holder : (page.filter fun s => s.timestamp < t.statsPage.position) = [] := by
      refine List.filter_eq_nil_iff.2 fun s hs => ?_
      simpa using hall s hs
    simp [prepend, hnil, holder]

end Telemetry

namespace Spent

variable {t u : Telemetry} {op : Operation}

/-- A spent batch stays so. -/
theorem mono (h : Spent t op) (hu : t.Progresses u) : Spent u op := by
  cases h with
  | stats hs hend hall =>
    exact .stats (hu.seeded hs) (fun hnil => hu.exhausted hs (hend hnil)) fun s hmem =>
      UInt64.le_trans (hu.page hs) (hall s hmem)
  | pong hall => exact .pong fun s hmem => UInt64.le_trans (hall s hmem) hu.statsTail
  | requests hall => exact .requests fun r hmem => UInt64.le_trans (hall r hmem) hu.tail

/-- **Of a spent batch only the clock counts.** -/
theorem perform_eq (h : Spent t op) : ∃ millis, op.clock? = some millis ∧
    t.perform op = ⟨t.observe millis, [.serverTime millis], []⟩ := by
  cases h with
  | @stats batch hs hend hall =>
    refine ⟨batch.serverTime, rfl, ?_⟩
    simp only [Telemetry.perform, Telemetry.mergeStats, Telemetry.applyBatch]
    rw [(t.observe batch.serverTime).applyPage_of_seeded hs,
      Telemetry.prepend_of_spent (t := t.observe batch.serverTime) hend hall, ite_self]
  | @pong batch hall =>
    refine ⟨batch.serverTime, rfl, ?_⟩
    simp only [Telemetry.perform, Telemetry.mergePong, Telemetry.applyBatch]
    rcases (t.observe batch.serverTime).applyTail_cases batch.records with ⟨-, hm⟩ | ⟨-, -, hne, -⟩
    · rw [hm]
    · exact absurd (Cursor.fresh_eq_nil_iff.2 hall) hne
  | @requests batch hall =>
    refine ⟨batch.serverTime, rfl, ?_⟩
    simp only [Telemetry.perform, Telemetry.mergeRequests, Telemetry.applyBatch]
    rcases (t.observe batch.serverTime).applyLog_cases batch.records with ⟨-, hm⟩ | ⟨-, hne, -⟩
    · rw [hm]
    · exact absurd (Cursor.fresh_eq_nil_iff.2 hall) hne

end Spent

/-- **What was merged once may arrive again.** Whatever happens after a batch was merged, if it
arrives again then only the clock moves, and only that is told of. -/
theorem redelivery_harmless (capacity : Nat) (before between : List Operation) (op : Operation)
    (h : op.Merges ((Telemetry.fresh capacity).performAll before).state) :
    let t := ((Telemetry.fresh capacity).performAll (before ++ op :: between)).state
    ∃ millis, op.clock? = some millis ∧
      t.perform op = ⟨{ t with serverTime := some millis }, [.serverTime millis], []⟩ := by
  intro t
  have hist := (History.of_fresh capacity before).perform op
  have ht : t = ((((Telemetry.fresh capacity).performAll before).state.perform op).state.performAll
      between).state := Telemetry.state_performAll_append _ before (op :: between)
  have hspent := (Telemetry.spent_perform h).mono (Telemetry.progresses_performAll hist between)
  exact ht ▸ hspent.perform_eq

theorem redelivery_harmless_trimmed :
    let request (endMicros : UInt64) : Request := { (default : Request) with endMicros }
    let op : Operation := .requests ⟨2, [request 8, request 9]⟩
    let between : List Operation := [.requests ⟨3, [request 12]⟩, .setPaused true, .clock 4]
    let t := ((Telemetry.fresh 1).performAll (op :: between)).state
    op.Merges (.fresh 1) ∧ t.requests = [request 12] ∧
      t.perform op = ⟨{ t with serverTime := some 2 }, [.serverTime 2], []⟩ := by
  intro request op between t
  obtain ⟨millis, hclock, hperform⟩ := redelivery_harmless 1 [] between op rfl
  obtain rfl := Option.some.inj hclock
  exact ⟨rfl, by decide, hperform⟩

end Vitals
