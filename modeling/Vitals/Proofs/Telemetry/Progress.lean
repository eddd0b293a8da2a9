/-
  How a client's telemetry moves on.

  * `Telemetry.statsTail_le_perform`: the newest interval merged never moves to an earlier one.
  * `Telemetry.Progresses`: a copy has moved on, in all its cursors and in what it knows of the end
    of the history.
  * `Telemetry.Progresses.perform`, `Telemetry.progresses_performAll`: every operation and every run
    moves a copy on.
-/
import Vitals.Proofs.Telemetry.Paging

namespace Vitals

open Stat

namespace Telemetry

variable {t u : Telemetry} {past : List Event}

theorem statsTail_le_seed (t : Telemetry) (page : List Stat) :
    t.statsTail.position ≤ (t.seed page).state.statsTail.position := by
  rcases t.seed_cases page with ⟨-, hst, -⟩ | ⟨-, hst, -⟩ <;> rw [hst]
  · exact UInt64.le_refl _
  · exact t.statsTail.position_le_advanceAll [newest page]

theorem statsTail_prepend (t : Telemetry) (page : List Stat) :
    (t.prepend page).state.statsTail = t.statsTail := by
  rcases t.prepend_cases page with ⟨-, hst, -⟩ | ⟨-, -, hst, -⟩ | ⟨-, -, hst, -⟩ <;> rw [hst]

/-- The newest interval merged never moves to an earlier one. -/
theorem statsTail_le_perform (t : Telemetry) (op : Operation) :
    t.statsTail.position ≤ (t.perform op).state.statsTail.position := by
  cases op with
  | stats batch =>
    simp only [perform, mergeStats, applyBatch]
    rcases (t.observe batch.serverTime).applyPage_cases batch.records with
      ⟨-, -, h⟩ | ⟨-, -, h⟩ | ⟨-, -, hst, -⟩ | ⟨-, -, h⟩
    · rw [h]
      exact UInt64.le_refl _
    · rw [h, statsTail_prepend]
      exact UInt64.le_refl _
    · rw [hst]
      exact UInt64.le_refl _
    · rw [h]
      exact statsTail_le_seed (t.observe batch.serverTime) batch.records
  | pong batch =>
    simp only [perform, mergePong, applyBatch]
    rcases (t.observe batch.serverTime).applyTail_cases batch.records with
      ⟨-, h⟩ | ⟨-, -, -, hst, -⟩
    · rw [h]
      exact UInt64.le_refl _
    · rw [hst]
      exact Cursor.position_le_advanceAll _ _
  | requests batch =>
    obtain ⟨hsame, -⟩ := (t.observe batch.serverTime).sameHistory_applyLog batch.records
    simp only [perform, mergeRequests, applyBatch]
    rw [hsame.tail]
    exact UInt64.le_refl _
  | setPaused paused =>
    rcases t.setPaused_cases paused with ⟨page, -, -, hst, -⟩ | ⟨-, hst, -⟩ <;> rw [perform, hst]
    · exact statsTail_le_seed { t with paused := false, held := none } page
    · exact UInt64.le_refl _
  | clock millis => exact UInt64.le_refl _

/-- A copy that has moved on has moved none of its cursors back, and does not forget that its
history is exhausted. -/
structure Progresses (t u : Telemetry) : Prop extends Advances t u where
  statsTail : t.statsTail.position ≤ u.statsTail.position
  exhausted : t.seeded = true → t.exhausted = true → u.exhausted = true

namespace Progresses

theorem refl (t : Telemetry) : Progresses t t :=
  { Advances.refl t with
    statsTail := UInt64.le_refl _
    exhausted := fun _ hx => hx }

theorem trans {v : Telemetry} (h : Progresses t u) (h' : Progresses u v) : Progresses t v :=
  { h.toAdvances.trans h'.toAdvances with
    statsTail := UInt64.le_trans h.statsTail h'.statsTail
    exhausted := fun hs hx => h'.exhausted (h.seeded hs) (h.exhausted hs hx) }

/-- **Every operation moves a copy on.** -/
theorem perform (hist : History t past) (op : Operation) : Progresses t (t.perform op).state :=
  { Advances.perform hist op with
    statsTail := t.statsTail_le_perform op
    exhausted := fun hs => (perform_seeded hist hs op).2.2 }

end Progresses

/-- **Every run moves a copy on.** -/
theorem progresses_performAll (hist : History t past) (ops : List Operation) :
    Progresses t (t.performAll ops).state := by
  induction ops generalizing t past with
  | nil => exact .refl t
  | cons op ops ih => exact (Progresses.perform hist op).trans (ih (hist.perform op))

end Telemetry

end Vitals
