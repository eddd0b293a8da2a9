/-
  What a pair of ends delivers.

  * `Turn`: something done to one of the two ends; `Pair.after`, `Pair.log`: what turns leave and
    what each of them yielded.
  * `accepted`, `received`: the frames that an end was told it sent, and those that it received.
  * `Switchboard.perform_eq`: a switchboard does to a pair what a turn does.
  * `Change`: what a turn makes of one end. `Change.frames`: it neither loses nor repeats a frame,
    save that a dropped end loses what waits for it.
  * `Account`: what the turns so far say of one end; every turn keeps it.
  * `pair_delivers`: what is received, what ends the reception, and what is told to those who send.
-/
import Mathlib.Data.List.Induction
import Vitals.Channel.Memory.Switchboard

namespace Vitals.Channel.Memory

namespace Side

@[simp] theorem other_other (s : Side) : s.other.other = s := by cases s <;> rfl

@[simp] theorem other_ne (s : Side) : s.other ≠ s := by cases s <;> decide

theorem eq_or_eq_other (s s' : Side) : s' = s ∨ s' = s.other := by
  cases s <;> cases s' <;> decide

end Side

/-- Something done to one of the ends. -/
structure Turn where
  side : Side
  act : Act
  deriving DecidableEq, Repr

/-- The turn ends the use of an end. -/
def Turn.Shuts (t : Turn) (s : Side) : Prop := t = ⟨s, .close⟩ ∨ t = ⟨s, .drop⟩

/-- One of the turns ended the use of an end. -/
def Shut (s : Side) (turns : List Turn) : Prop := ∃ t ∈ turns, t.Shuts s

namespace Pair

/-! ## Turns -/

/-- What a turn yields and what it leaves. -/
def perform (p : Pair) : Turn → Yield × Pair
  | ⟨s, .send frame⟩ =>
    match p.send s frame with
    | .ok q => (.done, q)
    | .error e => (.failed e, p)
  | ⟨s, .receive⟩ => (.received (p.receive s).1, (p.receive s).2)
  | ⟨s, .close⟩ => (.done, p.close s)
  | ⟨s, .isClosed⟩ => (.flag (p.isClosed s), p)
  | ⟨s, .drop⟩ => (.nothing, p.drop s)

/-- What some turns leave. -/
def after (p : Pair) (turns : List Turn) : Pair := turns.foldl (fun p t => (p.perform t).2) p

/-- Each of some turns, with what it yielded. -/
def log (p : Pair) : List Turn → List (Turn × Yield)
  | [] => []
  | t :: turns => (t, (p.perform t).1) :: (p.perform t).2.log turns

variable {p : Pair} {s : Side}

theorem after_concat (p : Pair) (turns : List Turn) (t : Turn) :
    p.after (turns ++ [t]) = ((p.after turns).perform t).2 := by
  simp [after]

theorem log_append (p : Pair) (turns more : List Turn) :
    p.log (turns ++ more) = p.log turns ++ (p.after turns).log more := by
  induction turns generalizing p with
  | nil => rfl
  | cons t turns ih => exact congrArg (_ :: ·) (ih (p.perform t).2)

theorem log_concat (p : Pair) (turns : List Turn) (t : Turn) :
    p.log (turns ++ [t]) = p.log turns ++ [(t, ((p.after turns).perform t).1)] :=
  p.log_append turns [t]

@[simp] theorem get_set (p : Pair) (s : Side) (e : End) : (p.set s e).get s = e := by
  cases s <;> rfl

@[simp] theorem get_set_other (p : Pair) (s : Side) (e : End) :
    (p.set s e).get s.other = p.get s.other := by
  cases s <;> rfl

@[simp] theorem get_other_set (p : Pair) (s : Side) (e : End) :
    (p.set s.other e).get s = p.get s := by
  cases s <;> rfl

@[simp] theorem set_set (p : Pair) (s : Side) (e e' : End) : (p.set s e).set s e' = p.set s e' := by
  cases s <;> rfl

end Pair

namespace Switchboard

variable {b : Switchboard} {plug : Plug} {pair : Pair}

theorem modify_congr {f g : Pair → Pair} (hpair : b.pairs[plug.pair]? = some pair)
    (h : f pair = g pair) : b.modify plug f = b.modify plug g := by
  have hpairs : b.pairs.modify plug.pair f = b.pairs.modify plug.pair g := by
    refine List.ext_getElem? fun n => ?_
    rw [List.getElem?_modify, List.getElem?_modify]
    by_cases hn : plug.pair = n
    · subst hn
      simp [hpair, h]
    · simp [hn]
  rw [modify, modify, hpairs]

theorem modify_id (plug : Plug) : b.modify plug id = b := by
  simp [modify]

/-- **A switchboard does to a pair what a turn does**; to drop an end is to discard it. -/
theorem perform_eq {act : Act} (hpair : b.pairs[plug.pair]? = some pair) (hact : act ≠ .drop) :
    b.perform plug pair act = ((pair.perform ⟨plug.side, act⟩).1,
      b.modify plug fun p => (p.perform ⟨plug.side, act⟩).2) := by
  have hkeep {f : Pair → Pair} (h : f pair = pair) : b = b.modify plug f :=
    (modify_id plug).symm.trans (modify_congr hpair h.symm)
  cases act with
  | send frame =>
    simp only [perform, Pair.perform]
    cases hsend : pair.send plug.side frame with
    | ok q => exact congrArg (Yield.done, ·) (modify_congr hpair (by simp [hsend]))
    | error e => exact congrArg (Yield.failed e, ·) (hkeep (by simp [hsend]))
  | receive => exact congrArg (Yield.received _, ·) (modify_congr hpair rfl)
  | close => rfl
  | isClosed => exact congrArg (Yield.flag _, ·) (hkeep rfl)
  | drop => exact absurd rfl hact

end Switchboard

/-! ## Frames -/

/-- The frame that an end was told it sent. -/
def Turn.accepted? (s : Side) : Turn × Yield → Option (List UInt8)
  | (⟨s', .send frame⟩, .done) => if s' = s then some frame else none
  | _ => none

/-- The frame that an end received. -/
def Turn.received? (s : Side) : Turn × Yield → Option (List UInt8)
  | (⟨s', .receive⟩, .received (.frame frame)) => if s' = s then some frame else none
  | _ => none

/-- The frames that an end was told it sent. -/
def accepted (s : Side) (log : List (Turn × Yield)) : List (List UInt8) :=
  log.filterMap (Turn.accepted? s)

/-- The frames that an end received. -/
def received (s : Side) (log : List (Turn × Yield)) : List (List UInt8) :=
  log.filterMap (Turn.received? s)

namespace Pair

theorem send_cases (p : Pair) (s : Side) (frame : List UInt8) :
    ((p.get s).sends = false ∧ p.send s frame = .error .closed) ∨
    ((p.get s).sends = true ∧ (p.get s.other).listens = false ∧
      p.send s frame = .error (.send "peer dropped")) ∨
    ((p.get s).sends = true ∧ (p.get s.other).listens = true ∧
      p.send s frame = .ok (p.set s.other
        { p.get s.other with inbox := (p.get s.other).inbox ++ [frame] })) := by
  unfold send
  cases hs : (p.get s).sends <;> cases hl : (p.get s.other).listens <;> simp [hl]

theorem receive_cases (p : Pair) (s : Side) :
    (∃ frame rest, (p.get s).inbox = frame :: rest ∧
      p.receive s = (.frame frame, p.set s { p.get s with inbox := rest })) ∨
    ((p.get s).inbox = [] ∧ (p.get s).listens = true ∧ (p.get s.other).sends = true ∧
      p.receive s = (.pending, p)) ∨
    ((p.get s).inbox = [] ∧ ((p.get s).listens = false ∨ (p.get s.other).sends = false) ∧
      p.receive s = (.ended, p)) := by
  unfold receive
  cases hi : (p.get s).inbox with
  | cons frame rest => exact Or.inl ⟨frame, rest, rfl, by simp [hi]⟩
  | nil => cases hl : (p.get s).listens <;> cases hs : (p.get s.other).sends <;> simp [hi, hl]

end Pair

/-! ## One turn -/

/-- What a turn, and what it yields, make of one end. -/
inductive Change (s : Side) (e : End) : Turn → Yield → End → Prop
  | takes {frame : List UInt8} {rest : List (List UInt8)} (h : e.inbox = frame :: rest) :
    Change s e ⟨s, .receive⟩ (.received (.frame frame)) { e with inbox := rest }
  | gets {frame : List UInt8} (h : e.listens = true) :
    Change s e ⟨s.other, .send frame⟩ .done { e with inbox := e.inbox ++ [frame] }
  | closes : Change s e ⟨s, .close⟩ .done { e with sends := false, listens := false }
  | drops : Change s e ⟨s, .drop⟩ .nothing ⟨false, false, []⟩
  | rests {t : Turn} {y : Yield} (hshut : ¬ t.Shuts s)
    (haccepted : Turn.accepted? s.other (t, y) = none)
    (hreceived : Turn.received? s (t, y) = none) : Change s e t y e

namespace Change

variable {s : Side} {e e' : End} {t : Turn} {y : Yield}

theorem sends (c : Change s e t y e') : e'.sends = true ↔ e.sends = true ∧ ¬ t.Shuts s := by
  cases c with
  | takes | gets | closes | drops => simp [Turn.Shuts]
  | rests hshut => simp [hshut]

theorem listens (c : Change s e t y e') : e'.listens = true ↔ e.listens = true ∧ ¬ t.Shuts s := by
  cases c with
  | takes | gets | closes | drops => simp [Turn.Shuts]
  | rests hshut => simp [hshut]

theorem listens_of_accepted (c : Change s e t y e') {frame : List UInt8}
    (h : Turn.accepted? s.other (t, y) = some frame) : e.listens = true := by
  cases c with
  | gets hl => exact hl
  | takes | closes | drops => simp [Turn.accepted?] at h
  | rests _ hnone => simp [hnone] at h

/-- **A turn neither loses nor repeats a frame**: what waits and what is sent is what is received
and what waits then. -/
theorem frames (c : Change s e t y e') (hdrop : t ≠ ⟨s, .drop⟩) :
    e.inbox ++ (Turn.accepted? s.other (t, y)).toList =
      (Turn.received? s (t, y)).toList ++ e'.inbox := by
  cases c with
  | takes hi => simp [Turn.accepted?, Turn.received?, hi]
  | gets => simp [Turn.accepted?, Turn.received?]
  | closes => simp [Turn.accepted?, Turn.received?]
  | drops => exact absurd rfl hdrop
  | rests _ ha hr => simp [ha, hr]

/-- Nothing waits at an end that was dropped. -/
theorem inbox_of_drop (c : Change s e t y e') (hdrop : t = ⟨s, .drop⟩) : e'.inbox = [] := by
  cases c with
  | takes | gets | closes => simp at hdrop
  | drops => rfl
  | rests hshut => exact absurd (Or.inr hdrop) hshut

end Change

namespace Pair

/-- A turn changes its own end, or puts a frame into the inbox of the other. -/
theorem change_perform (p : Pair) (t : Turn) (s : Side) :
    Change s (p.get s) t (p.perform t).1 ((p.perform t).2.get s) := by
  obtain ⟨s', act⟩ := t
  cases act with
  | send frame =>
    have hshut : ¬ (⟨s', .send frame⟩ : Turn).Shuts s := by simp [Turn.Shuts]
    rcases p.send_cases s' frame with ⟨-, h⟩ | ⟨-, -, h⟩ | ⟨-, hl, h⟩
    · simp only [perform, h]
      exact .rests hshut rfl rfl
    · simp only [perform, h]
      exact .rests hshut rfl rfl
    · simp only [perform, h]
      rcases s.eq_or_eq_other s' with rfl | rfl
      · rw [get_other_set]
        exact .rests hshut (by simp [Turn.accepted?, Ne.symm]) rfl
      · simp only [Side.other_other, get_set] at hl ⊢
        exact .gets hl
  | receive =>
    have hshut : ¬ (⟨s', .receive⟩ : Turn).Shuts s := by simp [Turn.Shuts]
    rcases p.receive_cases s' with ⟨frame, rest, hi, h⟩ | ⟨-, -, -, h⟩ | ⟨-, -, h⟩
    · simp only [perform, h]
      rcases s.eq_or_eq_other s' with rfl | rfl
      · rw [get_set]
        exact .takes hi
      · rw [get_other_set]
        exact .rests hshut rfl (by simp [Turn.received?])
    · simp only [perform, h]
      exact .rests hshut rfl rfl
    · simp only [perform, h]
      exact .rests hshut rfl rfl
  | close =>
    rcases s.eq_or_eq_other s' with rfl | rfl
    · simp only [perform, close, get_set]
      exact .closes
    · simp only [perform, close, get_other_set]
      exact .rests (by simp [Turn.Shuts]) (by simp [Turn.accepted?]) rfl
  | isClosed => exact .rests (by simp [Turn.Shuts]) rfl rfl
  | drop =>
    rcases s.eq_or_eq_other s' with rfl | rfl
    · simp only [perform, drop, get_set]
      exact .drops
    · simp only [perform, drop, get_other_set]
      exact .rests (by simp [Turn.Shuts]) rfl rfl

/-- Only an end that can send, to one that listens, is told that it sent. -/
theorem open_of_accepted {p : Pair} {t : Turn} {s : Side} {frame : List UInt8}
    (h : Turn.accepted? s (t, (p.perform t).1) = some frame) :
    (p.get s).sends = true ∧ (p.get s.other).listens = true := by
  obtain ⟨s', act⟩ := t
  cases act with
  | send f =>
    rcases p.send_cases s' f with ⟨-, hsend⟩ | ⟨-, -, hsend⟩ | ⟨hs, hl, hsend⟩
    · simp [perform, hsend, Turn.accepted?] at h
    · simp [perform, hsend, Turn.accepted?] at h
    · simp only [perform, hsend, Turn.accepted?, Option.ite_none_right_eq_some] at h
      obtain ⟨rfl, -⟩ := h
      exact ⟨hs, hl⟩
  | receive | close | isClosed | drop => simp [Turn.accepted?] at h

end Pair

/-! ## All turns -/

section

variable {s : Side} {turns : List Turn} {t : Turn} {log : List (Turn × Yield)} {x : Turn × Yield}

theorem shut_concat : Shut s (turns ++ [t]) ↔ Shut s turns ∨ t.Shuts s := by
  simp [Shut, or_and_right, exists_or]

theorem shut_of_drop (h : ⟨s, .drop⟩ ∈ turns) : Shut s turns := ⟨_, h, Or.inr rfl⟩

theorem accepted_concat :
    accepted s (log ++ [x]) = accepted s log ++ (Turn.accepted? s x).toList := by
  cases h : Turn.accepted? s x <;> simp [accepted, h]

theorem received_concat :
    received s (log ++ [x]) = received s log ++ (Turn.received? s x).toList := by
  cases h : Turn.received? s x <;> simp [received, h]

end

/-- What the turns so far say of one end: it is open until it is shut, and the frames that the other
end was told it sent are those received, those that wait and, if it was dropped, those lost. -/
structure Account (s : Side) (e : End) (turns : List Turn) (log : List (Turn × Yield)) : Prop where
  sends : e.sends = true ↔ ¬ Shut s turns
  listens : e.listens = true ↔ ¬ Shut s turns
  frames : ∃ lost, accepted s.other log = received s log ++ e.inbox ++ lost ∧
    (⟨s, .drop⟩ ∉ turns → lost = [])

namespace Account

variable {s : Side} {e e' : End} {turns : List Turn} {log : List (Turn × Yield)}

theorem opened (s : Side) : Account s .opened [] [] where
  sends := by simp [End.opened, Shut]
  listens := by simp [End.opened, Shut]
  frames := ⟨[], rfl, fun _ => rfl⟩

/-- **A turn keeps the account.** -/
theorem turn (h : Account s e turns log) {t : Turn} {y : Yield} (c : Change s e t y e') :
    Account s e' (turns ++ [t]) (log ++ [(t, y)]) := by
  obtain ⟨lost, hframes, hlost⟩ := h.frames
  refine ⟨?_, ?_, ?_⟩
  · rw [c.sends, h.sends, shut_concat, not_or]
  · rw [c.listens, h.listens, shut_concat, not_or]
  · rw [accepted_concat, received_concat, hframes]
    by_cases hdrop : t = ⟨s, .drop⟩
    · subst hdrop
      exact ⟨e.inbox ++ lost, by simp [c.inbox_of_drop rfl, Turn.accepted?, Turn.received?],
        by simp⟩
    · -- Only an end that was not dropped is sent to, and it has lost nothing.
      have hcomm : lost ++ (Turn.accepted? s.other (t, y)).toList =
          (Turn.accepted? s.other (t, y)).toList ++ lost := by
        cases ha : Turn.accepted? s.other (t, y) with
        | none => simp
        | some frame =>
          have hopen := h.listens.1 (c.listens_of_accepted ha)
          simp [hlost fun hd => hopen (shut_of_drop hd)]
      refine ⟨lost, ?_, fun hd => hlost fun hmem => hd (List.mem_append_left _ hmem)⟩
      simp only [List.append_assoc] at hcomm ⊢
      rw [hcomm, ← List.append_assoc e.inbox, c.frames hdrop, List.append_assoc]

end Account

namespace Pair

/-- **Every run keeps the account** of both ends. -/
theorem account (turns : List Turn) (s : Side) :
    Account s ((opened.after turns).get s) turns (opened.log turns) := by
  induction turns using List.reverseRecOn with
  | nil => cases s <;> exact .opened _
  | append_singleton turns t ih =>
    rw [after_concat, log_concat]
    exact ih.turn (change_perform _ t s)

end Pair

section

variable {s : Side} {turns : List Turn}

/-- Once one of the ends is shut, no more frames are accepted. -/
theorem accepted_of_shut (h : Shut s turns ∨ Shut s.other turns) (later : List Turn) :
    accepted s (Pair.opened.log (turns ++ later)) = accepted s (Pair.opened.log turns) := by
  induction later using List.reverseRecOn with
  | nil => rw [List.append_nil]
  | append_singleton later t ih =>
    rw [← List.append_assoc, Pair.log_concat, accepted_concat, ih]
    cases ha : Turn.accepted? s (t, _) with
    | none => exact List.append_nil _
    | some frame =>
      obtain ⟨hsends, hlistens⟩ := Pair.open_of_accepted ha
      rw [(Pair.account _ s).sends] at hsends
      rw [(Pair.account _ s.other).listens] at hlistens
      have hmono {s' : Side} : Shut s' turns → Shut s' (turns ++ later) :=
        fun ⟨t, ht, hs⟩ => ⟨t, List.mem_append_left _ ht, hs⟩
      exact absurd (h.imp hmono hmono) (not_or.2 ⟨hsends, hlistens⟩)

end

/-! ## What is delivered -/

namespace Pair

theorem receive_eq_frame_iff (p : Pair) (s : Side) (frame : List UInt8) :
    (p.receive s).1 = .frame frame ↔ ∃ rest, (p.get s).inbox = frame :: rest := by
  rcases p.receive_cases s with ⟨f, rest, hi, h⟩ | ⟨hi, -, -, h⟩ | ⟨hi, -, h⟩ <;> simp [h, hi]

theorem receive_eq_pending_iff (p : Pair) (s : Side) :
    (p.receive s).1 = .pending ↔
      (p.get s).inbox = [] ∧ (p.get s).listens = true ∧ (p.get s.other).sends = true := by
  rcases p.receive_cases s with ⟨f, rest, hi, h⟩ | ⟨hi, hl, hs, h⟩ | ⟨hi, hshut, h⟩
  · simp [h, hi]
  · simp [h, hi, hl, hs]
  · rcases hshut with hl | hs <;> simp [*]

theorem receive_eq_ended_iff (p : Pair) (s : Side) :
    (p.receive s).1 = .ended ↔
      (p.get s).inbox = [] ∧ ((p.get s).listens = false ∨ (p.get s.other).sends = false) := by
  rcases p.receive_cases s with ⟨f, rest, hi, h⟩ | ⟨hi, hl, hs, h⟩ | ⟨hi, hshut, h⟩
  · simp [h, hi]
  · simp [h, hi, hl, hs]
  · simp [h, hi, hshut]

theorem close_close (p : Pair) (s : Side) : (p.close s).close s = p.close s := by
  simp [close]

end Pair

section

variable {s : Side} {turns : List Turn}

theorem received_prefix_accepted (turns : List Turn) (s : Side) :
    received s (Pair.opened.log turns) <+: accepted s.other (Pair.opened.log turns) := by
  obtain ⟨lost, hframes, -⟩ := (Pair.account turns s).frames
  exact ⟨((Pair.opened.after turns).get s).inbox ++ lost, by rw [hframes, List.append_assoc]⟩

/-- What an end that is still held has not received waits for it. -/
theorem accepted_eq (hdrop : ⟨s, .drop⟩ ∉ turns) :
    accepted s.other (Pair.opened.log turns) =
      received s (Pair.opened.log turns) ++ ((Pair.opened.after turns).get s).inbox := by
  obtain ⟨lost, hframes, hlost⟩ := (Pair.account turns s).frames
  rw [hframes, hlost hdrop, List.append_nil]

/-- Whoever keeps receiving receives all that was accepted. -/
theorem received_replicate (hdrop : ⟨s, .drop⟩ ∉ turns) (n : Nat)
    (hn : (accepted s.other (Pair.opened.log turns)).length ≤
      (received s (Pair.opened.log turns)).length + n) :
    received s (Pair.opened.log (turns ++ List.replicate n ⟨s, .receive⟩)) =
      accepted s.other (Pair.opened.log turns) := by
  induction n generalizing turns with
  | zero =>
    rw [List.replicate_zero, List.append_nil]
    exact (received_prefix_accepted turns s).eq_of_length_le hn
  | succ n ih =>
    have hdrop' : ⟨s, .drop⟩ ∉ turns ++ [⟨s, .receive⟩] := by simp [hdrop]
    have hframes := accepted_eq hdrop
    have haccepted : accepted s.other (Pair.opened.log (turns ++ [⟨s, .receive⟩])) =
        accepted s.other (Pair.opened.log turns) := by
      rw [Pair.log_concat, accepted_concat]
      exact List.append_nil _
    rw [List.replicate_succ, List.append_cons, ih hdrop', haccepted]
    rw [haccepted, Pair.log_concat, received_concat, List.length_append]
    rcases (Pair.opened.after turns).receive_cases s with ⟨frame, rest, hi, h⟩ | ⟨hi, -⟩ | ⟨hi, -⟩
    · have hone : (Turn.received? s (⟨s, .receive⟩,
          ((Pair.opened.after turns).perform ⟨s, .receive⟩).1)).toList.length = 1 := by
        simp [Pair.perform, h, Turn.received?]
      omega
    · rw [hframes, hi, List.append_nil]
      omega
    · rw [hframes, hi, List.append_nil]
      omega

theorem sends_eq_false_iff :
    ((Pair.opened.after turns).get s).sends = false ↔ Shut s turns := by
  rw [← Bool.not_eq_true, (Pair.account turns s).sends, not_not]

theorem listens_eq_false_iff :
    ((Pair.opened.after turns).get s).listens = false ↔ Shut s turns := by
  rw [← Bool.not_eq_true, (Pair.account turns s).listens, not_not]

end

/-- **A pair delivers in order, and all of it.** Whatever is done to the two ends, in whatever
order: what an end has received is the front part of what the other was told it sent. While the end
is held, receiving yields the next frame if there is one, and the end of the stream only when all is
received and one of the ends is shut; from then on nothing more is accepted, and whoever keeps
receiving receives it all. An end that is shut is told so when it sends, another one that its peer
is gone; otherwise the frame is accepted. Closing never fails, and closing again changes nothing. -/
theorem pair_delivers (turns : List Turn) (s : Side) :
    let p := Pair.opened.after turns
    let sent := accepted s.other (Pair.opened.log turns)
    let taken := received s (Pair.opened.log turns)
    taken <+: sent ∧
    (⟨s, .drop⟩ ∉ turns →
      (∀ frame, (p.receive s).1 = .frame frame ↔
        ∃ rest, sent = taken ++ frame :: rest) ∧
      ((p.receive s).1 = .ended ↔
        sent = taken ∧ (Shut s turns ∨ Shut s.other turns)) ∧
      ((p.receive s).1 = .pending ↔
        sent = taken ∧ ¬ Shut s turns ∧ ¬ Shut s.other turns) ∧
      ∀ n, sent.length ≤ taken.length + n →
        received s (Pair.opened.log (turns ++ List.replicate n ⟨s, .receive⟩)) = sent) ∧
    (Shut s turns ∨ Shut s.other turns → ∀ later,
      accepted s.other (Pair.opened.log (turns ++ later)) = sent) ∧
    (∀ frame,
      (Shut s turns → p.send s frame = .error .closed) ∧
      (¬ Shut s turns → Shut s.other turns → p.send s frame = .error (.send "peer dropped")) ∧
      (¬ Shut s turns → ¬ Shut s.other turns → ∃ q, p.send s frame = .ok q)) ∧
    p.perform ⟨s, .close⟩ = (.done, p.close s) ∧
    (p.close s).perform ⟨s, .close⟩ = (.done, p.close s) := by
  intro p sent taken
  refine ⟨received_prefix_accepted turns s, fun hdrop => ?_, fun h => ?_, fun frame => ?_, rfl, ?_⟩
  · have hframes : sent = taken ++ (p.get s).inbox := accepted_eq hdrop
    have hnil : sent = taken ↔ (p.get s).inbox = [] := by
      rw [hframes, List.append_right_eq_self]
    refine ⟨fun frame => ?_, ?_, ?_, received_replicate hdrop⟩
    · rw [p.receive_eq_frame_iff, hframes]
      simp only [List.append_cancel_left_eq]
    · rw [p.receive_eq_ended_iff, hnil, listens_eq_false_iff, sends_eq_false_iff]
    · rw [p.receive_eq_pending_iff, hnil, (Pair.account turns s).listens,
        (Pair.account turns s.other).sends]
  · exact accepted_of_shut (by rw [Side.other_other]; exact h.symm)
  · rw [← sends_eq_false_iff (s := s), ← listens_eq_false_iff (s := s.other)]
    rcases p.send_cases s frame with ⟨hs, h⟩ | ⟨hs, hl, h⟩ | ⟨hs, hl, h⟩
    · simp [p, hs, h]
    · simp [p, hs, hl, h]
    · simp [p, hs, hl, h]
  · rw [Pair.perform, Pair.close_close]

/-- Two frames, then the end that sent them closes, and the end that received one of them too. -/
example :
    let turns : List Turn := [⟨.left, .send [1]⟩, ⟨.left, .send [3, 0]⟩, ⟨.right, .receive⟩,
      ⟨.left, .close⟩, ⟨.right, .close⟩, ⟨.right, .receive⟩, ⟨.right, .receive⟩]
    (Pair.opened.log turns).map Prod.snd = [.done, .done, .received (.frame [1]), .done, .done,
      .received (.frame [3, 0]), .received .ended] := by
  decide

end Vitals.Channel.Memory
