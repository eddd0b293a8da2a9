/-
  A session and its server, joined by a channel.

  The channel is a queue in each direction. A `Server` is what a client can know of one: how its
  state may change, which frames answer which message, and which frames come unasked. The channel
  may fail to take a frame at any time, and the session may be paused, told to ask for more, closed
  or cancelled at any time, so `Duplex.Step` has one case for everything that can happen next.

  * `Duplex.Reachable`: what can come of a session that was started; `Reachable.trans`: and of what
    came of it.
  * `Reachable.mode`, `Reachable.history`, `Reachable.capacity`: what holds with any server.
-/
import Vitals.Proofs.Session.Step
import Vitals.Proofs.Telemetry.Paging
import Vitals.Proofs.Telemetry.Window
import Mathlib.Logic.Relation

namespace Vitals

/-! ## What a step leaves behind -/

namespace Session.Stepped

variable {s : Session} {r : Session × List Effect} {op? : Option Operation}
  {request? : Option ClientMessage}

theorem history (h : Stepped s r op? request?) {past : List Event}
    (hp : History s.telemetry past) : History r.1.telemetry (past ++ Effect.events r.2) :=
  h.keeps (fun _ _ op hp => hp.perform op) (fun _ _ hp => hp.closed) hp

theorem advances (h : Stepped s r op? request?) {past : List Event}
    (hp : History s.telemetry past) : s.telemetry.Advances r.1.telemetry := by
  rw [h.telemetry]
  cases op? with
  | none => exact .refl _
  | some op => exact .perform hp op

theorem window (h : Stepped s r op? request?) {past : List Request} {events : List Event}
    (hw : Window s.telemetry past events) :
    Window r.1.telemetry (past ++ Operation.logged s.telemetry.paused op?.toList)
      (events ++ Effect.events r.2) := by
  obtain ⟨es, hes, he⟩ := h.events
  have hno : Event.NoLog es := by rcases hes with rfl | rfl <;> exact rfl
  have hall := hw.performAll op?.toList
  rw [← h.telemetry] at hall
  rw [he, ← List.append_assoc]
  exact hall.congr ⟨rfl, rfl, rfl⟩ hno

theorem capacity (h : Stepped s r op? request?) :
    r.1.telemetry.capacity = s.telemetry.capacity := by
  rw [h.telemetry, Telemetry.capacity_performAll]

end Session.Stepped

/-! ## Both ends of a channel -/

/-- A server, as far as a client can tell. -/
structure Server (σ : Type) where
  /-- Which state may follow a state without a message. -/
  Grows : σ → σ → Prop
  /-- Which frames may answer a message. -/
  Answers : σ → ClientMessage → List (List UInt8) → Prop
  /-- Which frames may come unasked. -/
  Volunteers : List UInt8 → Prop

/-- A session, its server, and the frames under way between them. -/
structure Duplex (σ : Type) where
  server : σ
  session : Session
  /-- The frames under way to the server, the first one sent in front. -/
  outgoing : List (List UInt8)
  /-- The frames under way to the session. -/
  incoming : List (List UInt8)
  /-- What the session has published. -/
  published : List Event

namespace Duplex

variable {σ : Type} {S : Server σ} {settings : Settings} {d d' : Duplex σ}

/-- The frames that a session sends are under way, and its events are published. -/
def after (d : Duplex σ) (r : Session × List Effect) : Duplex σ :=
  { d with
    session := r.1
    outgoing := d.outgoing ++ Effect.frames r.2
    published := d.published ++ Effect.events r.2 }

/-- Everything that can happen next. -/
inductive Step (S : Server σ) (d : Duplex σ) : Duplex σ → Prop
  | grow {server : σ} : S.Grows d.server server → Step S d { d with server }
  /-- The server takes the first frame under way and answers it. -/
  | answer {bytes : List UInt8} {rest replies : List (List UInt8)} {m : ClientMessage} :
      d.outgoing = bytes :: rest → ClientMessage.decode bytes = .ok m →
      S.Answers d.server m replies →
      Step S d { d with outgoing := rest, incoming := d.incoming ++ replies }
  | volunteer {bytes : List UInt8} :
      S.Volunteers bytes → Step S d { d with incoming := d.incoming ++ [bytes] }
  /-- The session takes the first frame under way. -/
  | deliver {bytes : List UInt8} {rest : List (List UInt8)} (line : Line) :
      d.incoming = bytes :: rest →
      Step S d ({ d with incoming := rest }.after (d.session.step line (.frame bytes)))
  /-- A timer, the owner of the session or the channel makes itself felt. -/
  | act {input : Input} (line : Line) : (∀ bytes, input ≠ .frame bytes) →
      Step S d (d.after (d.session.step line input))

/-- What can come of a session after its start on any machine, when its server is in any state. -/
inductive Reachable (S : Server σ) (settings : Settings) : Duplex σ → Prop
  | start (server : σ) (host : Host) (endpoint : String) (line : Line) {s : Session} :
      (Session.begin host settings endpoint (.ok ()) line).outcome = .ok s →
      Reachable S settings
        { server, session := s, incoming := []
          outgoing := Effect.frames (Session.begin host settings endpoint (.ok ()) line).effects
          published := Effect.events (Session.begin host settings endpoint (.ok ()) line).effects }
  | step {d d' : Duplex σ} : Reachable S settings d → Step S d d' → Reachable S settings d'

theorem Reachable.trans (h : Reachable S settings d) (hs : Relation.ReflTransGen (Step S) d d') :
    Reachable S settings d' := by
  induction hs with
  | refl => exact h
  | tail _ hs ih => exact ih.step hs

theorem Reachable.mode (h : Reachable S settings d) : d.session.mode = settings.mode := by
  induction h with
  | start _ _ _ _ hs =>
    obtain ⟨s₀, hm, -, h₀⟩ := Session.begin_stepped hs
    exact h₀.mode.trans hm
  | step _ hs ih =>
    cases hs with
    | grow _ | answer _ _ _ | volunteer _ => exact ih
    | deliver line _ => exact (Session.step_stepped _ line _).mode.trans ih
    | act line _ => exact (Session.step_stepped _ line _).mode.trans ih

theorem Reachable.history (h : Reachable S settings d) :
    History d.session.telemetry d.published := by
  induction h with
  | start _ _ _ _ hs =>
    obtain ⟨s₀, -, ht, h₀⟩ := Session.begin_stepped hs
    have := h₀.history (ht ▸ History.fresh settings.capacity)
    exact this
  | step _ hs ih =>
    cases hs with
    | grow _ | answer _ _ _ | volunteer _ => exact ih
    | deliver line _ => exact (Session.step_stepped _ line _).history ih
    | act line _ => exact (Session.step_stepped _ line _).history ih

theorem Reachable.capacity (h : Reachable S settings d) :
    d.session.telemetry.capacity = settings.capacity := by
  induction h with
  | start _ _ _ _ hs =>
    obtain ⟨s₀, -, ht, h₀⟩ := Session.begin_stepped hs
    rw [h₀.capacity, ht]
    rfl
  | step _ hs ih =>
    cases hs with
    | grow _ | answer _ _ _ | volunteer _ => exact ih
    | deliver line _ => exact (Session.step_stepped _ line _).capacity.trans ih
    | act line _ => exact (Session.step_stepped _ line _).capacity.trans ih

end Duplex

end Vitals
