/-
  The time limit of an exchange.

  * `Exchange.inOrder_schedule`: what a script brings arrives in order.
  * `Exchange.await_of_endsAt`: within the limit a wait ends as it would without one;
    `Exchange.await_of_late`: otherwise it ends with the limit.
  * `Exchange.SameAnswers`: arrivals that differ only in what is passed over.
  * `exchange_timeout`: the limit covers the whole wait, and the channel is closed in any case.
-/
import Vitals.Proofs.Exchange.Discipline

namespace Vitals

open Wire

namespace Exchange

variable {expect : Opcode} {d now time : Nat} {a : Arrival}
  {xs ys rest arrivals : List (Nat × Arrival)} {result : Except ExchangeError ServerMessage}

/-- Nothing arrives before what is listed ahead of it. -/
def InOrder (arrivals : List (Nat × Arrival)) : Prop := arrivals.Pairwise fun x y => x.1 ≤ y.1

theorem le_of_mem_schedule {hang : Bool} {script : List Delivery} {x : Nat × Arrival}
    (h : x ∈ Delivery.schedule hang now script) : now ≤ x.1 := by
  induction script generalizing now with
  | nil =>
    unfold Delivery.schedule at h
    split at h
    · cases h
    · cases List.mem_singleton.1 h
      exact Nat.le_refl now
  | cons part script ih =>
    cases part with
    | arrival a =>
      rcases List.mem_cons.1 h with rfl | h
      · exact Nat.le_refl now
      · exact ih h
    | wait millis => exact Nat.le_trans (Nat.le_add_right _ _) (ih h)

theorem inOrder_schedule (hang : Bool) (now : Nat) (script : List Delivery) :
    InOrder (Delivery.schedule hang now script) := by
  induction script generalizing now with
  | nil =>
    unfold Delivery.schedule
    split
    · exact .nil
    · exact List.pairwise_singleton _ _
  | cons part script ih =>
    cases part with
    | arrival a => exact .cons (fun x hx => le_of_mem_schedule hx) (ih now)
    | wait millis => exact ih _

/-! ## When a wait ends -/

theorem late_of_lt (h : time < d) : late (some d) time = false := decide_eq_false (Nat.not_le.2 h)

/-- **Within the limit a wait ends as it would without one.** -/
theorem await_of_endsAt (now : Nat) (horder : InOrder arrivals)
    (h : EndsAt expect arrivals time result) (hd : time < d) :
    await (some d) expect now arrivals = await none expect now arrivals ∧
      (await (some d) expect now arrivals).outcome = .done result ∧
      (await (some d) expect now arrivals).time = time := by
  induction arrivals generalizing now with
  | nil => exact absurd h not_endsAt_nil
  | cons x rest ih =>
    obtain ⟨at', a⟩ := x
    rcases skipped_or_settles expect a with hskipped | ⟨result', hsettles⟩
    · have hrest := (endsAt_cons_skipped hskipped).1 h
      have hin : at' < d := by
        obtain ⟨before, a', after, rfl, -, -⟩ := hrest
        have hle : at' ≤ time :=
          List.rel_of_pairwise_cons horder (List.mem_append_right _ List.mem_cons_self)
        omega
      obtain ⟨skipped, hawait⟩ := await_skipped hskipped
      obtain ⟨hsame, hout, htime⟩ := ih at' (List.Pairwise.of_cons horder) hrest
      rw [hawait _ _ _ _ (late_of_lt hin), hawait none _ _ _ rfl, ← hsame]
      exact ⟨rfl, hout, htime⟩
    · obtain ⟨rfl, rfl⟩ := (endsAt_cons_settles hsettles).1 h
      rw [await_settles _ hsettles (late_of_lt hd), await_settles none hsettles rfl]
      exact ⟨rfl, rfl, rfl⟩

/-- **A wait that nothing ends within the limit ends with it.** -/
theorem await_of_late (now : Nat)
    (h : ∀ time result, EndsAt expect arrivals time result → d ≤ time) :
    (await (some d) expect now arrivals).outcome = .done (.error (.timeout d)) ∧
      (await (some d) expect now arrivals).time = d := by
  induction arrivals generalizing now with
  | nil => exact ⟨rfl, rfl⟩
  | cons x rest ih =>
    obtain ⟨at', a⟩ := x
    by_cases hlate : d ≤ at'
    · have hout : late (some d) at' = true := decide_eq_true hlate
      rw [await_expired hout]
      exact ⟨rfl, rfl⟩
    have hin := late_of_lt (Nat.lt_of_not_le hlate)
    rcases skipped_or_settles expect a with hskipped | ⟨result, hsettles⟩
    · obtain ⟨skipped, hawait⟩ := await_skipped hskipped
      rw [hawait _ _ _ _ hin]
      exact ih at' fun time result hends => h time result ((endsAt_cons_skipped hskipped).2 hends)
    · exact absurd (h at' result ((endsAt_cons_settles hsettles).2 ⟨rfl, rfl⟩)) hlate

theorem endsAt_before_or_late (expect : Opcode) (arrivals : List (Nat × Arrival)) (d : Nat) :
    (∃ time result, EndsAt expect arrivals time result ∧ time < d) ∨
      ∀ time result, EndsAt expect arrivals time result → d ≤ time := by
  by_cases h : ∃ time result, EndsAt expect arrivals time result ∧ time < d
  · exact Or.inl h
  · refine Or.inr fun time result hends => ?_
    by_contra hlt
    exact h ⟨time, result, hends, Nat.lt_of_not_le hlt⟩

/-! ## What is passed over -/

/-- Two lists of arrivals that differ only in what is passed over. -/
inductive SameAnswers (expect : Opcode) : List (Nat × Arrival) → List (Nat × Arrival) → Prop
  | nil : SameAnswers expect [] []
  | cons {xs ys : List (Nat × Arrival)} (x : Nat × Arrival) : SameAnswers expect xs ys →
      SameAnswers expect (x :: xs) (x :: ys)
  | left {time : Nat} {a : Arrival} {xs ys : List (Nat × Arrival)} : Skipped expect a →
      SameAnswers expect xs ys → SameAnswers expect ((time, a) :: xs) ys
  | right {time : Nat} {a : Arrival} {xs ys : List (Nat × Arrival)} : Skipped expect a →
      SameAnswers expect xs ys → SameAnswers expect xs ((time, a) :: ys)

theorem SameAnswers.endsAt (h : SameAnswers expect xs ys) :
    EndsAt expect xs time result ↔ EndsAt expect ys time result := by
  induction h with
  | nil => exact Iff.rfl
  | cons x h ih =>
    obtain ⟨at', a⟩ := x
    rcases skipped_or_settles expect a with hskipped | ⟨result', hsettles⟩
    · rw [endsAt_cons_skipped hskipped, endsAt_cons_skipped hskipped, ih]
    · rw [endsAt_cons_settles hsettles, endsAt_cons_settles hsettles]
  | left hskipped h ih => rw [endsAt_cons_skipped hskipped, ih]
  | right hskipped h ih => rw [endsAt_cons_skipped hskipped, ih]

/-- **What is passed over moves no limit**: with it and without it the wait ends in the same way and
at the same time. -/
theorem SameAnswers.await (h : SameAnswers expect xs ys) (hxs : InOrder xs) (hys : InOrder ys)
    (d now : Nat) :
    (await (some d) expect now ys).outcome = (await (some d) expect now xs).outcome ∧
      (await (some d) expect now ys).time = (await (some d) expect now xs).time := by
  rcases endsAt_before_or_late expect xs d with ⟨time, result, hends, hd⟩ | hlate
  · obtain ⟨-, hout, htime⟩ := await_of_endsAt now hxs hends hd
    obtain ⟨-, hout', htime'⟩ := await_of_endsAt now hys (h.endsAt.1 hends) hd
    exact ⟨hout'.trans hout.symm, htime'.trans htime.symm⟩
  · obtain ⟨hout, htime⟩ := await_of_late now hlate
    obtain ⟨hout', htime'⟩ := await_of_late now fun time result hends =>
      hlate time result (h.endsAt.2 hends)
    exact ⟨hout'.trans hout.symm, htime'.trans htime.symm⟩

/-! ## Exchanges -/

theorem converse_sent {α : Type} {link : Link} {request : ClientMessage} {frame : List UInt8}
    (hframe : request.encode? = .ok frame) (hlink : Opens link) (after : Course α) :
    (converse link request after).outcome = after.outcome ∧
      (converse link request after).time = after.time := by
  have hclosing : ∀ c : Course α, (closing link c).time = c.time := by
    intro c
    unfold closing
    split <;> rfl
  simp only [converse, hframe, hlink.1, hlink.2, outcome_closing, hclosing, and_self]

end Exchange

open Exchange in
/-- **The time limit of an exchange.** If something ends the wait within the limit, the exchange is
the one without a limit. If nothing does, it fails with the limit, at the limit. What is passed over
on the way changes neither, nor when it ends, and the channel is closed in any case. What ends the
wait at the very limit is left open here. -/
theorem exchange_timeout {request : ClientMessage} {frame : List UInt8} {link : Link}
    (hframe : request.encode? = .ok frame) (hlink : Opens link) (horder : InOrder link.arrivals)
    (expect : Opcode) (d : Nat) :
    let limited := run link request expect (some d)
    (∀ time result, EndsAt expect link.arrivals time result → time < d →
      limited = run link request expect none ∧ limited.outcome = .done result ∧
        limited.time = time) ∧
    ((∀ time result, EndsAt expect link.arrivals time result → d < time) →
      limited.outcome = .done (.error (.timeout d)) ∧ limited.time = d) ∧
    (∀ arrivals, InOrder arrivals → SameAnswers expect link.arrivals arrivals →
      let padded := run { link with arrivals } request expect (some d)
      padded.outcome = limited.outcome ∧ padded.time = limited.time) ∧
    limited.time ≤ d ∧
    ∃ n, limited.actions =
      [.connect, .send frame true] ++ List.replicate (n + 1) .receive ++ [.close] := by
  intro limited
  obtain ⟨hout, htime⟩ := converse_sent hframe hlink (await (some d) expect 0 link.arrivals)
  refine ⟨fun time result hends hd => ?_, fun hnone => ?_, fun arrivals harrivals hsame => ?_, ?_,
    ?_⟩
  · obtain ⟨hawait, houtcome, hat⟩ := await_of_endsAt 0 horder hends hd
    exact ⟨congrArg (converse link request) hawait, hout.trans houtcome, htime.trans hat⟩
  · obtain ⟨houtcome, hat⟩ := await_of_late 0 fun time result hends =>
      Nat.le_of_lt (hnone time result hends)
    exact ⟨hout.trans houtcome, htime.trans hat⟩
  · have hopens : Opens { link with arrivals } := hlink
    obtain ⟨hout', htime'⟩ := converse_sent hframe hopens (await (some d) expect 0 arrivals)
    obtain ⟨houtcome, hat⟩ := hsame.await horder harrivals d 0
    exact ⟨hout'.trans (houtcome.trans hout.symm), htime'.trans (hat.trans htime.symm)⟩
  · refine htime.trans_le ?_
    rcases endsAt_before_or_late expect link.arrivals d with ⟨time, result, hends, hd⟩ | hlate
    · rw [(await_of_endsAt 0 horder hends hd).2.2]
      exact Nat.le_of_lt hd
    · rw [(await_of_late 0 hlate).2]
  · have hdisciplined := disciplined_run request expect (some d)
    obtain ⟨n, hn, hactions⟩ := hdisciplined.sent link frame hframe hlink
    obtain ⟨n, rfl⟩ := Nat.exists_eq_succ_of_ne_zero (hn.2 rfl).ne'
    have hdone : limited.outcome.farewell = [.close] := by
      cases hcourse : limited.outcome with
      | done result => rfl
      | waiting => cases limit_of_waiting (hout.symm.trans hcourse)
    exact ⟨n, hactions.trans (by rw [hdone])⟩

open Exchange in
/-- An answer behind two frames that are passed over, the second of them just before it. -/
theorem exchange_timeout_junk :
    let answer : Arrival := .frame (ServerMessage.ruleCreated 8).encode
    let link : Link := ⟨none, none, some .closed, Delivery.schedule true 0 [.arrival (.frame []),
      .wait 3, .arrival (.frame [9, 1]), .wait 1, .arrival answer]⟩
    let request : ClientMessage := .createRule ⟨7, ⟨[0x5E], false⟩, "é"⟩
    let course := run link request .createRule
    Opens link ∧ InOrder link.arrivals ∧
      course (some 5) = course none ∧ (course (some 5)).outcome = .done (.ok (.ruleCreated 8)) ∧
      (course (some 5)).time = 4 ∧
      (course (some 3)).outcome = .done (.error (.timeout 3)) ∧ (course (some 3)).time = 3 := by
  intro answer link request course
  have hanswer : Settles .createRule answer (.ok (.ruleCreated 8)) :=
    show Settles .createRule (.frame (frame .createRule (word64Bytes 8))) _ from .response rfl
  have hframe : request.encode? = .ok _ := rfl
  have hopens : Opens link := ⟨rfl, rfl⟩
  have horder : InOrder link.arrivals := inOrder_schedule true 0 _
  have hends : ∀ {time result}, EndsAt .createRule link.arrivals time result ↔
      time = 4 ∧ .ok (.ruleCreated 8) = result :=
    (endsAt_cons_skipped .empty).trans <| (endsAt_cons_skipped (.undecodable rfl)).trans <|
      endsAt_cons_settles hanswer
  obtain ⟨hin, -⟩ := exchange_timeout hframe hopens horder .createRule 5
  obtain ⟨hsame, hout, htime⟩ := hin 4 _ (hends.2 ⟨rfl, rfl⟩) (by decide)
  obtain ⟨-, hlate, -⟩ := exchange_timeout hframe hopens horder .createRule 3
  obtain ⟨hout', htime'⟩ := hlate fun time result h => by
    rw [(hends.1 h).1]
    decide
  exact ⟨hopens, horder, hsame, hout, htime, hout', htime'⟩

end Vitals
