/-
  What a frame does to a session.

  * `Feed.Takes`: a payload passes for a batch that means something in the mode, and the batch is
    applied. The first bytes of the payload are the batch; what comes behind them is not looked at.
  * `Feed.handled_iff_takes`: a frame is handled iff it is taken so.
  * `Session.Drops`: a frame is not handled.
  * `Session.step_of_drops`: dropping a frame does nothing.
  * `Session.SameTaken`: two lists of inputs that differ in dropped frames alone;
    `SameTaken.follow`: their runs end alike.
  * `inbound_atomicity`: a frame is taken as a whole or not at all, and a run may go without the
    frames that it drops.
-/
import Vitals.Proofs.Dispatch
import Vitals.Proofs.Session.Run

namespace Vitals

/-! ## Frames that are taken -/

namespace Feed

/-- The feed after an operation on its telemetry. -/
def after (f : Feed) (m : Merge) : Feed := ⟨m.state, f.outbox ++ m.events⟩

/-- How a feed takes a frame in a mode, as which opcode, and what becomes of the feed. -/
inductive Takes (f : Feed) : Mode → List UInt8 → Opcode → Feed → Prop
  | page {payload : List UInt8} {batch : Batch Stat} : batch.Heads payload →
      Takes f .stats (frame .stats payload) .stats (f.after (f.telemetry.mergeStats batch))
  | pong {payload : List UInt8} {batch : Batch Stat} : batch.Heads payload →
      Takes f .stats (frame .ping payload) .ping (f.after (f.telemetry.mergePong batch))
  /-- Where pongs only carry the clock, their records must still be in order. -/
  | clock {payload : List UInt8} {batch : Batch Stat} : batch.Heads payload →
      Takes f .requests (frame .ping payload) .ping
        ⟨f.telemetry.observe batch.serverTime, f.outbox ++ [.serverTime batch.serverTime]⟩
  | log {payload : List UInt8} {batch : Batch Request} : batch.Heads payload →
      Takes f .requests (frame .recentRequests payload) .recentRequests
        (f.after (f.telemetry.mergeRequests batch))

/-! ### Handlers of batches -/

section Handlers

variable {α : Type} [Record α] (apply : Telemetry → Batch α → Merge) {payload : List UInt8}
  {f g : Feed}

theorem atomic_batchHandler : Handler.Atomic (batchHandler apply) := by
  intro payload f h
  unfold batchHandler at h ⊢
  split
  · rename_i batch hrun
    rw [hrun] at h
    exact absurd rfl h
  · rfl

theorem batchHandler_of_run {batch : Batch α} (h : Batch.decode.run payload = .ok batch) :
    (batchHandler apply payload f).refusal = none ∧
      (batchHandler apply payload f).state = f.after (apply f.telemetry batch) := by
  unfold batchHandler
  rw [h]
  exact ⟨rfl, rfl⟩

/-- A handler of batches takes the payloads that pass for a batch, and applies that batch. -/
theorem batchHandler_takes_iff [LawfulRecord α] [ExactRecord α] :
    (batchHandler apply payload f).refusal = none ∧ (batchHandler apply payload f).state = g ↔
      ∃ batch : Batch α, batch.Heads payload ∧ g = f.after (apply f.telemetry batch) := by
  constructor
  · rintro ⟨hr, rfl⟩
    cases hrun : (Batch.decode : Wire.Decoder (Batch α)).run payload with
    | ok batch => exact ⟨batch, Batch.run_eq_ok_iff.1 hrun, (batchHandler_of_run apply hrun).2⟩
    | error e =>
      unfold batchHandler at hr
      rw [hrun] at hr
      cases hr
  · rintro ⟨batch, hb, rfl⟩
    exact batchHandler_of_run apply (Batch.run_eq_ok_iff.2 hb)

end Handlers

theorem atomic_dispatcher (mode : Mode) : (dispatcher mode).Atomic := by
  cases mode with
  | stats =>
    exact (Dispatcher.atomic_empty.register _ (atomic_batchHandler _)).register _
      (atomic_batchHandler _)
  | requests =>
    exact (Dispatcher.atomic_empty.register _ (atomic_batchHandler _)).register _
      (atomic_batchHandler _)

/-- **A frame is handled iff its payload passes for a batch that means something in the mode.** -/
theorem handled_iff_takes {mode : Mode} {f g : Feed} {bytes : List UInt8} {opcode : Opcode} :
    ((dispatcher mode).dispatch f bytes).outcome = .handled opcode ∧
        ((dispatcher mode).dispatch f bytes).state = g ↔
      f.Takes mode bytes opcode g := by
  rw [Dispatcher.handled_iff]
  constructor
  · rintro ⟨payload, handler, rfl, hh, htakes⟩
    cases mode with
    | stats =>
      rcases Dispatcher.register_eq_some.1 hh with ⟨rfl, rfl⟩ | ⟨-, hh⟩
      · obtain ⟨batch, hb, rfl⟩ := (batchHandler_takes_iff _).1 htakes
        exact .pong hb
      rcases Dispatcher.register_eq_some.1 hh with ⟨rfl, rfl⟩ | ⟨-, hh⟩
      · obtain ⟨batch, hb, rfl⟩ := (batchHandler_takes_iff _).1 htakes
        exact .page hb
      · cases hh
    | requests =>
      rcases Dispatcher.register_eq_some.1 hh with ⟨rfl, rfl⟩ | ⟨-, hh⟩
      · obtain ⟨batch, hb, rfl⟩ := (batchHandler_takes_iff _).1 htakes
        exact .log hb
      rcases Dispatcher.register_eq_some.1 hh with ⟨rfl, rfl⟩ | ⟨-, hh⟩
      · obtain ⟨batch, hb, rfl⟩ := (batchHandler_takes_iff _).1 htakes
        exact .clock hb
      · cases hh
  · intro h
    cases h with
    | page hb => exact ⟨_, _, rfl, rfl, (batchHandler_takes_iff _).2 ⟨_, hb, rfl⟩⟩
    | pong hb => exact ⟨_, _, rfl, rfl, (batchHandler_takes_iff _).2 ⟨_, hb, rfl⟩⟩
    | clock hb => exact ⟨_, _, rfl, rfl, (batchHandler_takes_iff _).2 ⟨_, hb, rfl⟩⟩
    | log hb => exact ⟨_, _, rfl, rfl, (batchHandler_takes_iff _).2 ⟨_, hb, rfl⟩⟩

end Feed

/-! ## Frames that are dropped -/

namespace Session

/-- A session that gets a frame now handles it. -/
def Handles (s : Session) (bytes : List UInt8) : Prop :=
  ((Feed.dispatcher s.mode).dispatch ⟨s.telemetry, []⟩ bytes).outcome.isHandled = true

instance (s : Session) (bytes : List UInt8) : Decidable (s.Handles bytes) :=
  inferInstanceAs (Decidable (_ = true))

/-- An input is a frame that is not handled. -/
def Drops (s : Session) : Input → Prop
  | .frame bytes => ¬ s.Handles bytes
  | _ => False

/-- Two lists of inputs that differ in frames which are dropped where they come, and in nothing
else. -/
inductive SameTaken : Session → List (Line × Input) → List (Line × Input) → Prop
  | nil {s : Session} : SameTaken s [] []
  | both {s : Session} {line : Line} {input : Input} {xs ys : List (Line × Input)} :
      SameTaken (s.step line input).1 xs ys →
      SameTaken s ((line, input) :: xs) ((line, input) :: ys)
  | left {s : Session} {line : Line} {input : Input} {xs ys : List (Line × Input)} :
      s.Drops input → SameTaken s xs ys → SameTaken s ((line, input) :: xs) ys
  | right {s : Session} {line : Line} {input : Input} {xs ys : List (Line × Input)} :
      s.Drops input → SameTaken s xs ys → SameTaken s xs ((line, input) :: ys)

/-- Dropping a frame leaves the session as it is, and neither publishes nor sends. -/
theorem step_of_drops {s : Session} {input : Input} (h : s.Drops input) (line : Line) :
    (s.step line input).1 = s ∧ Effect.events (s.step line input).2 = [] ∧
      Effect.frames (s.step line input).2 = [] := by
  obtain ⟨bytes, rfl⟩ : ∃ bytes, input = .frame bytes := by
    cases input with
    | frame bytes => exact ⟨bytes, rfl⟩
    | _ => exact h.elim
  have hno := eq_false_of_ne_true (h : ¬ s.Handles bytes)
  have hd := Dispatcher.state_of_unhandled (Feed.atomic_dispatcher s.mode) hno
  unfold step
  split
  · simp only [receive, hd, List.map_nil, List.append_nil, Effect.events_noted,
      Effect.frames_noted, and_self]
  · exact ⟨rfl, rfl, rfl⟩

/-- **A run may go without the frames that it drops.** -/
theorem SameTaken.follow {s : Session} {xs ys : List (Line × Input)} (h : SameTaken s xs ys) :
    (s.follow xs).1 = (s.follow ys).1 ∧
      Effect.events (s.follow xs).2 = Effect.events (s.follow ys).2 ∧
      Effect.frames (s.follow xs).2 = Effect.frames (s.follow ys).2 := by
  induction h with
  | nil => exact ⟨rfl, rfl, rfl⟩
  | both _ ih =>
    obtain ⟨hs, he, hf⟩ := ih
    simp only [follow_cons, Effect.events_append, Effect.frames_append, hs, he, hf, and_self]
  | @left s line input xs ys hdrop _ ih =>
    obtain ⟨hs, he, hf⟩ := step_of_drops hdrop line
    simpa only [follow_cons, Effect.events_append, Effect.frames_append, hs, he, hf,
      List.nil_append] using ih
  | @right s line input xs ys hdrop _ ih =>
    obtain ⟨hs, he, hf⟩ := step_of_drops hdrop line
    simpa only [follow_cons, Effect.events_append, Effect.frames_append, hs, he, hf,
      List.nil_append] using ih

end Session

/-- **A frame is taken as a whole or not at all**, whatever the feed and whatever the frame: one
that is not handled leaves the telemetry and the outbox as they were, and one that is handled has a
whole batch at the front of its payload, which is applied in the way of its mode. So two runs that
differ in frames which are not handled end alike, and publish and send the same. -/
theorem inbound_atomicity :
    (∀ (mode : Mode) (f : Feed) (bytes : List UInt8),
      let d := (Feed.dispatcher mode).dispatch f bytes
      (d.outcome.isHandled = false → d.state = f) ∧
      ∀ opcode g, d.outcome = .handled opcode ∧ d.state = g ↔ f.Takes mode bytes opcode g) ∧
    ∀ (s : Session) (xs ys : List (Line × Input)), s.SameTaken xs ys →
      (s.follow xs).1 = (s.follow ys).1 ∧
        Effect.events (s.follow xs).2 = Effect.events (s.follow ys).2 ∧
        Effect.frames (s.follow xs).2 = Effect.frames (s.follow ys).2 := by
  refine ⟨fun mode f bytes => ⟨?_, fun opcode g => ?_⟩, fun s xs ys h => h.follow⟩
  · exact Dispatcher.state_of_unhandled (Feed.atomic_dispatcher mode)
  · exact Feed.handled_iff_takes

/-- So it is with a pong beside an empty frame, a byte without a handler and a pong cut short. -/
theorem inbound_atomicity_junk :
    let s : Session := ⟨.requests, ⟨.opened, 1⟩, true, .fresh 100⟩
    let f : Feed := ⟨s.telemetry, []⟩
    let bring (bytes : List UInt8) : Line × Input := (⟨none, none⟩, .frame bytes)
    let pong := (ServerMessage.pong ⟨7, []⟩).encode
    let cut := pong.take 12
    ((Feed.dispatcher s.mode).dispatch f cut).outcome.isHandled = false ∧
      ((Feed.dispatcher s.mode).dispatch f cut).state = f ∧
      f.Takes s.mode pong .ping ⟨s.telemetry.observe 7, [.serverTime 7]⟩ ∧
      s.SameTaken [bring [], bring pong, bring cut] [bring pong, bring [255]] ∧
      (s.follow [bring [], bring pong, bring cut]).1 = (s.follow [bring pong, bring [255]]).1 ∧
      Effect.events (s.follow [bring [], bring pong, bring cut]).2 =
        Effect.events (s.follow [bring pong, bring [255]]).2 ∧
      Effect.frames (s.follow [bring [], bring pong, bring cut]).2 =
        Effect.frames (s.follow [bring pong, bring [255]]).2 := by
  intro s f bring pong cut
  have hcut : ((Feed.dispatcher s.mode).dispatch f cut).outcome.isHandled = false := by
    decide +kernel
  have hpong : ((Feed.dispatcher s.mode).dispatch f pong).outcome = .handled .ping ∧
      ((Feed.dispatcher s.mode).dispatch f pong).state =
        ⟨s.telemetry.observe 7, [.serverTime 7]⟩ := by
    decide +kernel
  have hsame : s.SameTaken [bring [], bring pong, bring cut] [bring pong, bring [255]] := by
    refine .left (show ¬ s.Handles [] by decide) (.both (.left ?_ (.right ?_ .nil)))
    · show ¬ Session.Handles _ cut
      decide +kernel
    · show ¬ Session.Handles _ [255]
      decide +kernel
  exact ⟨hcut, (inbound_atomicity.1 s.mode f cut).1 hcut,
    ((inbound_atomicity.1 s.mode f pong).2 .ping _).1 hpong, hsame,
    inbound_atomicity.2 s _ _ hsame⟩

end Vitals
