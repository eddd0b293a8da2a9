/-
  What a dispatcher does over a whole run, with handlers registered between the frames.

  * `Call`, `serve`: some calls on a dispatcher, and what they come to.
  * `Latest calls n opcode handler`: call `n` is the last one to register a handler for an opcode;
    `handler?_serve`: the table holds the handlers registered last.
  * `Routed`: where a frame goes, and what becomes of it; `routed_serve`: so it is with every frame.
  * `serveLogged`: the same run with handlers that write down that they ran.
  * `Served.Sound`: what is reported of a frame fits what became of it.
  * `Balanced`: counters that agree with what became of the frames of a run.
  * `dispatch_accounting`: every frame is routed so, and the counters of every run agree.
-/
import Mathlib.Data.List.Induction
import Vitals.Proofs.Dispatch

namespace Vitals

variable {σ : Type}

/-! ## Runs -/

/-- A call on a dispatcher. -/
inductive Call (σ : Type) where
  | register (opcode : Opcode) (handler : Handler σ)
  | frame (bytes : List UInt8)

def Call.frame? : Call σ → Option (List UInt8)
  | register _ _ => none
  | frame bytes => some bytes

/-- What became of a frame. -/
structure Served (σ : Type) where
  frame : List UInt8
  /-- The reply of the handler that ran, if one did. -/
  reply? : Option (Reply σ)
  outcome : Outcome
  notes : List Note

namespace Served

def handlerNotes (e : Served σ) : List Note := e.reply?.elim [] (·.notes)

/-- Whether a handler ran and refused the payload. -/
def refused (e : Served σ) : Bool := e.reply?.any (·.refusal.isSome)

end Served

/-- The reply of the handler that a frame goes to, if there is one. -/
def Dispatcher.reply? (d : Dispatcher σ) (s : σ) : List UInt8 → Option (Reply σ)
  | [] => none
  | byte :: payload => (d.handlerOfByte? byte).map fun found => found.2 payload s

def Dispatcher.served (d : Dispatcher σ) (s : σ) (bytes : List UInt8) : Served σ :=
  ⟨bytes, d.reply? s bytes, (d.dispatch s bytes).outcome, (d.dispatch s bytes).notes⟩

/-- A dispatcher in use, the state that its handlers work on, and what became of the frames. -/
structure Service (σ : Type) where
  table : Dispatcher σ
  state : σ
  served : List (Served σ)

def Service.take (v : Service σ) : Call σ → Service σ
  | .register opcode handler => { v with table := v.table.register opcode handler }
  | .frame bytes =>
    { v with
      state := (v.table.dispatch v.state bytes).state
      served := v.served ++ [v.table.served v.state bytes] }

/-- What some calls on a new dispatcher come to. -/
def serve (s : σ) (calls : List (Call σ)) : Service σ := calls.foldl Service.take ⟨.empty, s, []⟩

theorem serve_concat (s : σ) (calls : List (Call σ)) (c : Call σ) :
    serve s (calls ++ [c]) = (serve s calls).take c := by
  rw [serve, List.foldl_append]
  rfl

theorem served_prefix (s : σ) (before after : List (Call σ)) :
    (serve s before).served <+: (serve s (before ++ after)).served := by
  induction after using List.reverseRecOn with
  | nil => simp only [List.append_nil, List.prefix_rfl]
  | append_singleton after c ih =>
    rw [← List.append_assoc, serve_concat]
    cases c with
    | register opcode handler => exact ih
    | frame bytes => exact ih.trans (List.prefix_append _ _)

theorem map_frame_serve (s : σ) (calls : List (Call σ)) :
    (serve s calls).served.map (·.frame) = calls.filterMap Call.frame? := by
  induction calls using List.reverseRecOn with
  | nil => rfl
  | append_singleton calls c ih =>
    rw [serve_concat, List.filterMap_append, ← ih]
    cases c with
    | register opcode handler => exact (List.append_nil _).symm
    | frame bytes => exact List.map_append

/-! ## The handlers registered last -/

/-- Call `n` is the last one to register a handler for an opcode. -/
def Latest (calls : List (Call σ)) (n : Nat) (opcode : Opcode) (handler : Handler σ) : Prop :=
  calls[n]? = some (.register opcode handler) ∧
    ∀ m handler', calls[m]? = some (.register opcode handler') → m ≤ n

namespace Latest

variable {calls : List (Call σ)} {n m : Nat} {opcode : Opcode} {handler handler' : Handler σ}

theorem mem (h : Latest calls n opcode handler) : .register opcode handler ∈ calls :=
  List.mem_of_getElem? h.1

theorem unique (h : Latest calls n opcode handler) (h' : Latest calls m opcode handler') :
    n = m ∧ handler = handler' := by
  obtain rfl : n = m := Nat.le_antisymm (h'.2 n _ h.1) (h.2 m _ h'.1)
  have := h.1.symm.trans h'.1
  cases this
  exact ⟨rfl, rfl⟩

theorem concat_self :
    Latest (calls ++ [.register opcode handler]) calls.length opcode handler := by
  refine ⟨List.getElem?_concat_length, fun m handler' hm => ?_⟩
  have := (List.getElem?_eq_some_iff.1 hm).1
  rw [List.length_append, List.length_singleton] at this
  omega

theorem concat_same : Latest (calls ++ [.register opcode handler]) n opcode handler' ↔
    n = calls.length ∧ handler' = handler := by
  constructor
  · intro h
    exact h.unique concat_self
  · rintro ⟨rfl, rfl⟩
    exact concat_self

theorem concat_other {c : Call σ} (hc : ∀ handler', c ≠ .register opcode handler') :
    Latest (calls ++ [c]) n opcode handler ↔ Latest calls n opcode handler := by
  -- No place of the longer run holds a new registration of this opcode.
  have hget : ∀ (m : Nat) (handler' : Handler σ),
      (calls ++ [c])[m]? = some (Call.register opcode handler') ↔
      calls[m]? = some (Call.register opcode handler') := by
    intro m handler'
    rcases Nat.lt_trichotomy m calls.length with h | rfl | h
    · rw [List.getElem?_append_left h]
    · rw [List.getElem?_concat_length, List.getElem?_eq_none (Nat.le_refl _)]
      simp only [Option.some.injEq, hc handler', reduceCtorEq]
    · rw [List.getElem?_eq_none, List.getElem?_eq_none (Nat.le_of_lt h)]
      rw [List.length_append, List.length_singleton]
      exact h
  simp only [Latest, hget]

end Latest

/-- **The table holds the handlers registered last.** -/
theorem handler?_serve {s : σ} {calls : List (Call σ)} {opcode : Opcode} {handler : Handler σ} :
    (serve s calls).table.handler? opcode = some handler ↔ ∃ n, Latest calls n opcode handler := by
  induction calls using List.reverseRecOn generalizing handler with
  | nil =>
    constructor
    · nofun
    · rintro ⟨n, h⟩
      cases h.mem
  | append_singleton calls c ih =>
    rw [serve_concat]
    cases c with
    | register opcode' handler' =>
      refine Dispatcher.register_eq_some.trans ?_
      by_cases h : opcode = opcode'
      · subst h
        simp only [ne_eq, not_true_eq_false, false_and, or_false, true_and, Latest.concat_same,
          exists_eq_left]
      · have hother : ∀ handler, Call.register opcode' handler' ≠ .register opcode handler := by
          rintro _ ⟨⟩
          exact h rfl
        simp only [h, false_and, ne_eq, not_false_eq_true, true_and, false_or,
          Latest.concat_other hother]
        exact ih
    | frame bytes =>
      have hother : ∀ handler : Handler σ, Call.frame bytes ≠ .register opcode handler := nofun
      simp only [Latest.concat_other hother]
      exact ih

theorem handler?_serve_eq_none {s : σ} {calls : List (Call σ)} {opcode : Opcode} :
    (serve s calls).table.handler? opcode = none ↔
      ∀ handler, .register opcode handler ∉ calls := by
  induction calls using List.reverseRecOn with
  | nil => exact ⟨fun _ _ => List.not_mem_nil, fun _ => rfl⟩
  | append_singleton calls c ih =>
    rw [serve_concat]
    cases c with
    | register opcode' handler' =>
      simp only [Service.take, Dispatcher.register]
      by_cases h : opcode = opcode'
      · subst h
        simp only [if_true, reduceCtorEq, false_iff, not_forall, not_not]
        exact ⟨handler', List.mem_concat_self⟩
      · simp only [h, if_false, ih, List.mem_append, List.mem_singleton, Call.register.injEq,
          false_and, or_false]
    | frame bytes =>
      simp only [Service.take, ih, List.mem_append, List.mem_singleton, reduceCtorEq, or_false]

/-! ## Where a frame goes -/

/-- Where a frame goes after some calls: the call that registered the handler which runs, with its
reply, then the outcome of the frame and the state after it. -/
inductive Routed (before : List (Call σ)) (s : σ) :
    List UInt8 → Option (Nat × Reply σ) → Outcome → σ → Prop where
  | empty : Routed before s [] none (.malformed .emptyFrame) s
  | unknown {byte : UInt8} {payload : List UInt8}
      (h : ∀ opcode handler, .register opcode handler ∈ before → opcode.code ≠ byte) :
      Routed before s (byte :: payload) none (.unknownOpcode byte) s
  | ran {n : Nat} {opcode : Opcode} {handler : Handler σ} {payload : List UInt8}
      (h : Latest before n opcode handler) :
      Routed before s (opcode.code :: payload) (some (n, handler payload s))
        ((handler payload s).outcome opcode) (handler payload s).state

namespace Routed

variable {before : List (Call σ)} {s s₁ s₂ : σ} {bytes : List UInt8}
  {ran₁ ran₂ : Option (Nat × Reply σ)} {o₁ o₂ : Outcome}

theorem unique (h₁ : Routed before s bytes ran₁ o₁ s₁) (h₂ : Routed before s bytes ran₂ o₂ s₂) :
    ran₁ = ran₂ ∧ o₁ = o₂ ∧ s₁ = s₂ := by
  cases h₁ with
  | empty =>
    cases h₂
    exact ⟨rfl, rfl, rfl⟩
  | unknown hno =>
    cases h₂ with
    | unknown => exact ⟨rfl, rfl, rfl⟩
    | ran h => exact (hno _ _ h.mem rfl).elim
  | @ran n opcode handler payload h =>
    generalize hbyte : opcode.code = byte at h₂
    cases h₂ with
    | unknown hno => exact (hno _ _ h.mem hbyte).elim
    | @ran m opcode' handler' payload h' =>
      obtain rfl : opcode = opcode' :=
        Option.some.inj ((Opcode.ofCode?_code _).symm.trans (hbyte ▸ Opcode.ofCode?_code _))
      obtain ⟨rfl, rfl⟩ := h.unique h'
      exact ⟨rfl, rfl, rfl⟩

end Routed

/-- **Each frame goes to the handler registered last for its first byte, if there is one.** -/
theorem routed_serve (s : σ) (before : List (Call σ)) (bytes : List UInt8) :
    ∃ ran?, ((serve s before).table.served (serve s before).state bytes).reply? =
        ran?.map (·.2) ∧
      Routed before (serve s before).state bytes ran?
        ((serve s before).table.dispatch (serve s before).state bytes).outcome
        ((serve s before).table.dispatch (serve s before).state bytes).state := by
  rcases bytes with _ | ⟨byte, payload⟩
  · exact ⟨none, rfl, .empty⟩
  rcases hbyte : (serve s before).table.handlerOfByte? byte with _ | ⟨opcode, handler⟩
  · refine ⟨none, ?_, ?_⟩
    · simp only [Dispatcher.served, Dispatcher.reply?, hbyte, Option.map_none]
    · simp only [Dispatcher.dispatch, hbyte]
      refine .unknown ?_
      rintro opcode handler hmem rfl
      simp only [Dispatcher.handlerOfByte?, Opcode.ofCode?_code, Option.bind_some,
        Option.map_eq_none_iff, handler?_serve_eq_none] at hbyte
      exact hbyte handler hmem
  · obtain ⟨rfl, h⟩ := Dispatcher.handlerOfByte?_eq_some.1 hbyte
    obtain ⟨n, hn⟩ := handler?_serve.1 h
    refine ⟨some (n, handler payload (serve s before).state), ?_, ?_⟩
    · simp only [Dispatcher.served, Dispatcher.reply?, hbyte, Option.map_some]
    · obtain ⟨hs, ho⟩ := Dispatcher.dispatch_of_handler h (serve s before).state payload
      rw [hs, ho]
      exact .ran hn

/-! ## Who ran -/

/-- A handler that writes its number down whenever it runs. -/
def Handler.logged (n : Nat) (handler : Handler σ) : Handler (σ × List Nat) := fun payload s =>
  { handler payload s.1 with state := ((handler payload s.1).state, s.2 ++ [n]) }

/-- A call of a run in which each handler writes down the number of the call that registered it. -/
def Call.logged (n : Nat) : Call σ → Call (σ × List Nat)
  | register opcode handler => register opcode (handler.logged n)
  | frame bytes => frame bytes

/-- What some calls on a new dispatcher come to, with the numbers of the handlers that ran, one for
each time that one ran. -/
def serveLogged (s : σ) (calls : List (Call σ)) : Service (σ × List Nat) :=
  serve (s, []) (calls.mapIdx Call.logged)

theorem getElem?_logged {calls : List (Call σ)} {n : Nat} {opcode : Opcode}
    {handler' : Handler (σ × List Nat)} :
    (calls.mapIdx Call.logged)[n]? = some (.register opcode handler') ↔
      ∃ handler, calls[n]? = some (.register opcode handler) ∧ handler' = handler.logged n := by
  rw [List.getElem?_mapIdx, Option.map_eq_some_iff]
  constructor
  · rintro ⟨c, hc, h⟩
    cases c with
    | register opcode' handler =>
      cases h
      exact ⟨handler, hc, rfl⟩
    | frame bytes => cases h
  · rintro ⟨handler, hc, rfl⟩
    exact ⟨_, hc, rfl⟩

theorem Latest.logged {calls : List (Call σ)} {n : Nat} {opcode : Opcode} {handler : Handler σ}
    (h : Latest calls n opcode handler) :
    Latest (calls.mapIdx Call.logged) n opcode (handler.logged n) := by
  refine ⟨getElem?_logged.2 ⟨handler, h.1, rfl⟩, fun m handler' hm => ?_⟩
  obtain ⟨handler₀, hm, -⟩ := getElem?_logged.1 hm
  exact h.2 m handler₀ hm

theorem Routed.logged {before : List (Call σ)} {s s' : σ} {bytes : List UInt8}
    {ran? : Option (Nat × Reply σ)} {o : Outcome} (h : Routed before s bytes ran? o s')
    (log : List Nat) :
    ∃ ran', Routed (before.mapIdx Call.logged) (s, log) bytes ran' o
      (s', log ++ ran?.toList.map (·.1)) := by
  cases h with
  | empty => exact ⟨none, (List.append_nil log).symm ▸ .empty⟩
  | unknown hno =>
    refine ⟨none, (List.append_nil log).symm ▸ .unknown fun opcode handler' hmem => ?_⟩
    obtain ⟨n, hn⟩ := List.mem_iff_getElem?.1 hmem
    obtain ⟨handler, hn, -⟩ := getElem?_logged.1 hn
    exact hno opcode handler (List.mem_of_getElem? hn)
  | ran hlast => exact ⟨_, .ran hlast.logged⟩

/-- A frame adds to the log the number of the handler that it goes to, and nothing else. -/
theorem state_serveLogged_concat {before : List (Call σ)} {s s' : σ} {bytes : List UInt8}
    {ran? : Option (Nat × Reply σ)} {o : Outcome}
    (hs : (serveLogged s before).state.1 = (serve s before).state)
    (h : Routed before (serve s before).state bytes ran? o s') :
    (serveLogged s (before ++ [.frame bytes])).state =
      (s', (serveLogged s before).state.2 ++ ran?.toList.map (·.1)) := by
  obtain ⟨_, hlogged⟩ := h.logged (serveLogged s before).state.2
  obtain ⟨_, -, hrun⟩ := routed_serve (s, []) (before.mapIdx Call.logged) bytes
  rw [← hs] at hlogged
  rw [serveLogged, List.mapIdx_concat, serve_concat]
  exact (hrun.unique hlogged).2.2

/-- Keeping a log changes nothing. -/
theorem fst_state_serveLogged (s : σ) (calls : List (Call σ)) :
    (serveLogged s calls).state.1 = (serve s calls).state := by
  induction calls using List.reverseRecOn with
  | nil => rfl
  | append_singleton calls c ih =>
    cases c with
    | register opcode handler =>
      rw [serveLogged, List.mapIdx_concat, serve_concat, serve_concat]
      exact ih
    | frame bytes =>
      obtain ⟨ran?, -, h⟩ := routed_serve s calls bytes
      rw [state_serveLogged_concat ih h, serve_concat]
      rfl

/-! ## Counters -/

def Outcome.isUnknown : Outcome → Bool
  | unknownOpcode _ => true
  | _ => false

/-- Whether the dispatcher counts a frame under a counter. -/
def Served.countsAs (e : Served σ) : Counter → Bool
  | .frames byte => e.frame.head? = some byte
  | .dropped .empty => e.frame = []
  | .dropped .unknownOpcode => e.outcome.isUnknown
  | .dropped .malformed => e.refused
  | .merged _ => false

/-- What is reported of a frame fits what became of it: it adds one to each counter that it counts
under, beside what its handler adds, and it is handled or dropped for one reason. -/
structure Served.Sound (e : Served σ) : Prop where
  total : ∀ c, Note.total c e.notes =
    (if e.countsAs c then 1 else 0) + Note.total c e.handlerNotes
  once : (if e.outcome.isHandled then 1 else 0) + (if e.countsAs (.dropped .empty) then 1 else 0) +
    (if e.countsAs (.dropped .unknownOpcode) then 1 else 0) +
    (if e.countsAs (.dropped .malformed) then 1 else 0) = 1

theorem Dispatcher.sound_served (d : Dispatcher σ) (s : σ) (bytes : List UInt8) :
    (d.served s bytes).Sound := by
  -- The frame is empty, or it has no handler, or its handler takes it or refuses it.
  rcases bytes with _ | ⟨byte, payload⟩
  · refine ⟨fun c => ?_, rfl⟩
    rcases c with b | (_ | _ | _) | _ <;> rfl
  rcases hbyte : d.handlerOfByte? byte with _ | ⟨opcode, handler⟩
  · refine ⟨fun c => ?_, ?_⟩
    · rcases c with b | (_ | _ | _) | _ <;>
        simp [served, dispatch, reply?, hbyte, note, Note.amount, Served.countsAs,
          Served.refused, Served.handlerNotes, Outcome.isUnknown]
    · simp [served, dispatch, reply?, hbyte, Served.countsAs, Served.refused,
        Outcome.isUnknown, Outcome.isHandled]
  cases hr : (handler payload s).refusal with
  | none =>
    refine ⟨fun c => ?_, ?_⟩
    · rcases c with b | (_ | _ | _) | _ <;>
        simp [served, dispatch, reply?, hbyte, hr, note, Note.amount, Served.countsAs,
          Served.refused, Served.handlerNotes, Outcome.isUnknown]
    · simp [served, dispatch, reply?, hbyte, hr, Served.countsAs, Served.refused,
        Outcome.isUnknown, Outcome.isHandled]
  | some refusal =>
    refine ⟨fun c => ?_, ?_⟩
    · rcases c with b | (_ | _ | _) | _ <;>
        simp [served, dispatch, reply?, hbyte, hr, note, Note.amount, Served.countsAs,
          Served.refused, Served.handlerNotes, Outcome.isUnknown, Nat.add_comm]
    · simp [served, dispatch, reply?, hbyte, hr, Served.countsAs, Served.refused,
        Outcome.isUnknown, Outcome.isHandled]

theorem sound_serve (s : σ) (calls : List (Call σ)) : ∀ e ∈ (serve s calls).served, e.Sound := by
  induction calls using List.reverseRecOn with
  | nil => nofun
  | append_singleton calls c ih =>
    rw [serve_concat]
    cases c with
    | register opcode handler => exact ih
    | frame bytes =>
      intro e he
      rcases List.mem_append.1 he with he | he
      · exact ih e he
      · cases List.mem_singleton.1 he
        exact Dispatcher.sound_served _ _ bytes

namespace Service

def notes (v : Service σ) : List Note := v.served.flatMap (·.notes)

def handlerNotes (v : Service σ) : List Note := v.served.flatMap Served.handlerNotes

end Service

/-- The counters of frames, which the dispatcher adds to. -/
def Counter.isRouting : Counter → Bool
  | frames _ | dropped _ => true
  | merged _ => false

/-- Counters that agree with what became of the frames. -/
structure Balanced (served : List (Served σ)) (count : Counter → Nat) : Prop where
  frames : ∀ byte, count (.frames byte) = served.countP fun e => e.frame.head? = some byte
  empty : count (.dropped .empty) = served.countP fun e => e.frame = []
  unknown : count (.dropped .unknownOpcode) = served.countP fun e => e.outcome.isUnknown
  malformed : count (.dropped .malformed) = served.countP Served.refused
  total : served.length = served.countP (fun e => e.outcome.isHandled) +
    count (.dropped .empty) + count (.dropped .unknownOpcode) + count (.dropped .malformed)

/-- Only the counters of frames matter. -/
theorem Balanced.congr {es : List (Served σ)} {count count' : Counter → Nat}
    (h : Balanced es count) (hsame : ∀ c, c.isRouting = true → count' c = count c) :
    Balanced es count' where
  frames byte := (hsame _ rfl).trans (h.frames byte)
  empty := (hsame _ rfl).trans h.empty
  unknown := (hsame _ rfl).trans h.unknown
  malformed := (hsame _ rfl).trans h.malformed
  total := by
    rw [hsame (.dropped .empty) rfl, hsame (.dropped .unknownOpcode) rfl,
      hsame (.dropped .malformed) rfl]
    exact h.total

section Sums

variable {es : List (Served σ)} (hes : ∀ e ∈ es, e.Sound)

include hes

theorem total_flatMap_served (c : Counter) :
    Note.total c (es.flatMap (·.notes)) =
      es.countP (·.countsAs c) + Note.total c (es.flatMap Served.handlerNotes) := by
  induction es with
  | nil => rfl
  | cons e es ih =>
    have hone := (hes e List.mem_cons_self).total c
    have hrest := ih fun e' he' => hes e' (List.mem_cons_of_mem e he')
    simp only [List.flatMap_cons, Note.total_append, List.countP_cons, hone, hrest]
    omega

theorem balanced_countsAs : Balanced es fun c => es.countP (·.countsAs c) := by
  refine ⟨fun _ => rfl, rfl, rfl, rfl, ?_⟩
  induction es with
  | nil => rfl
  | cons e es ih =>
    have hone := (hes e List.mem_cons_self).once
    have hrest := ih fun e' he' => hes e' (List.mem_cons_of_mem e he')
    simp only [List.length_cons, List.countP_cons] at hrest ⊢
    omega

end Sums

/-- A handler that leaves the counters of frames alone. -/
def Handler.Quiet (handler : Handler σ) : Prop :=
  ∀ payload s c, c.isRouting = true → Note.total c (handler payload s).notes = 0

theorem total_handlerNotes_serve {s : σ} {calls : List (Call σ)} {c : Counter}
    (hquiet : ∀ opcode handler, .register opcode handler ∈ calls → Handler.Quiet handler)
    (hc : c.isRouting = true) : Note.total c (serve s calls).handlerNotes = 0 := by
  induction calls using List.reverseRecOn with
  | nil => rfl
  | append_singleton calls call ih =>
    have hbefore := ih fun opcode handler h => hquiet opcode handler (List.mem_append_left _ h)
    rw [serve_concat]
    cases call with
    | register opcode handler => exact hbefore
    | frame bytes =>
      obtain ⟨ran?, hreply, hrouted⟩ := routed_serve s calls bytes
      simp only [Service.handlerNotes, Service.take, List.flatMap_append, List.flatMap_singleton,
        Note.total_append] at hbefore ⊢
      rw [hbefore, Nat.zero_add, Served.handlerNotes, hreply]
      generalize Dispatched.outcome _ = o, Dispatched.state _ = s' at hrouted
      cases hrouted with
      | empty => rfl
      | unknown => rfl
      | ran hlast => exact hquiet _ _ (List.mem_append_left _ hlast.mem) _ _ c hc

/-! ## The run as a whole -/

/-- **Routing and accounting.** In every run each frame runs at most one handler, once: the one
registered last for its first byte. Without one the state is left alone. And what the dispatcher
has added to the counters agrees with what became of the frames; so do the counters themselves
where the handlers do not touch them. -/
theorem dispatch_accounting (s : σ) (calls : List (Call σ)) :
    (serve s calls).served.map (·.frame) = calls.filterMap Call.frame? ∧
    (∀ before bytes after, calls = before ++ .frame bytes :: after →
      ∃ e later ran?,
        (serve s calls).served = (serve s before).served ++ e :: later ∧ e.frame = bytes ∧
        e.reply? = ran?.map (·.2) ∧
        Routed before (serve s before).state bytes ran? e.outcome
          (serve s (before ++ [.frame bytes])).state ∧
        (serveLogged s (before ++ [.frame bytes])).state =
          ((serve s (before ++ [.frame bytes])).state,
            (serveLogged s before).state.2 ++ ran?.toList.map (·.1))) ∧
    (∃ own : Counter → Nat,
      (∀ c, Note.total c (serve s calls).notes =
        own c + Note.total c (serve s calls).handlerNotes) ∧
      Balanced (serve s calls).served own) ∧
    ((∀ opcode handler, .register opcode handler ∈ calls → Handler.Quiet handler) →
      Balanced (serve s calls).served fun c => Note.total c (serve s calls).notes) := by
  have hes := sound_serve s calls
  refine ⟨map_frame_serve s calls, ?_, ⟨_, total_flatMap_served hes, balanced_countsAs hes⟩, ?_⟩
  · rintro before bytes after rfl
    obtain ⟨ran?, hreply, hrouted⟩ := routed_serve s before bytes
    have hcut := served_prefix s (before ++ [.frame bytes]) after
    rw [List.append_assoc, List.singleton_append] at hcut
    obtain ⟨later, hlater⟩ := hcut
    have hstate : (serve s (before ++ [.frame bytes])).state =
        ((serve s before).table.dispatch (serve s before).state bytes).state := by
      rw [serve_concat]
      rfl
    refine ⟨(serve s before).table.served (serve s before).state bytes, later, ran?, ?_, rfl,
      hreply, hstate ▸ hrouted, ?_⟩
    · rw [← hlater, serve_concat, Service.take, List.append_assoc, List.singleton_append]
    · rw [hstate]
      exact state_serveLogged_concat (fst_state_serveLogged s before) hrouted
  · intro hquiet
    refine (balanced_countsAs hes).congr fun c hc => ?_
    have hsum : Note.total c (serve s calls).notes = _ := total_flatMap_served hes c
    have hzero : Note.total c ((serve s calls).served.flatMap Served.handlerNotes) = 0 :=
      total_handlerNotes_serve hquiet hc
    rw [hsum, hzero, Nat.add_zero]

def Handler.adding (n : Nat) : Handler Nat := fun _ s => ⟨s + n, none, []⟩

/-- A handler that takes no payload. -/
def Handler.refusing (σ : Type) : Handler σ := fun _ s => ⟨s, some .emptyFrame, []⟩

/-- The handler of pings is replaced between two pings. -/
def replaced : List (Call Nat) :=
  [.register .ping (.adding 1), .frame [1], .register .ping (.adding 10)]

/-- The second ping goes to the second handler, and the counters agree. -/
theorem dispatch_accounting_replaced :
    let calls := replaced ++ .frame [1, 7] ::
      [.frame [], .frame [77], .register .stats (.refusing Nat), .frame [0, 5]]
    (serveLogged 0 (replaced ++ [.frame [1, 7]])).state = (11, [0, 2]) ∧
      (serve 0 calls).served.map (·.outcome) =
        [.handled .ping, .handled .ping, .malformed .emptyFrame, .unknownOpcode 77,
          .malformed .emptyFrame] ∧
      Note.total (.frames 1) (serve 0 calls).notes = 2 ∧
      Balanced (serve 0 calls).served fun c => Note.total c (serve 0 calls).notes := by
  intro calls
  obtain ⟨-, hcut, -, hbalanced⟩ := dispatch_accounting 0 calls
  have hquiet : ∀ opcode handler, .register opcode handler ∈ calls → Handler.Quiet handler := by
    intro opcode handler hmem
    simp only [calls, replaced, List.cons_append, List.nil_append, List.mem_cons,
      Call.register.injEq, reduceCtorEq, List.not_mem_nil, false_or, or_false] at hmem
    rcases hmem with ⟨-, rfl⟩ | ⟨-, rfl⟩ | ⟨-, rfl⟩ <;> exact fun _ _ _ _ => rfl
  have hbal := hbalanced hquiet
  obtain ⟨e, later, ran?, -, -, -, hrouted, hlog⟩ := hcut replaced [1, 7] _ rfl
  have hlast : Latest ([.register .ping (.adding 1), .frame [1]] ++
      [.register .ping (.adding 10)]) 2 .ping (Handler.adding 10) :=
    Latest.concat_self
  refine ⟨?_, rfl, (hbal.frames 1).trans rfl, hbal⟩
  obtain ⟨rfl, -, -⟩ := hrouted.unique (.ran hlast)
  exact hlog

end Vitals
