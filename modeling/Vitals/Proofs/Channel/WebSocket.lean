/-
  What is received from a WebSocket, and what becomes of one that its owner has closed.

  * `receives n is`: the results of so many receptions in a row, the items left and the notes taken.
    `fst_receives`: the results are what the items mean, in order, and nothing once the items are
    used up. `receives_ending`: what is received, left and noted up to an ending.
  * `Pipe.received_eq`: the client of a pipe receives in this way.
  * `Pipe.closed_follow`: once closed, its socket stays closed.
  * `socket_channel`: the payloads of binary messages come through in order up to the first ending,
    which is reported; a closed socket sends nothing more.
-/
import Mathlib.Tactic.SplitIfs
import Vitals.Channel.WebSocket.Pipe

namespace Vitals.Channel.WebSocket

variable {i e : Item} {r : Received} {is front rest : List Item} {n : Nat}

/-! ## Items -/

namespace Item

/-- The payload of a binary message. -/
def payload? : Item → Option (List UInt8)
  | binary bytes => some bytes
  | _ => none

/-- What an item that ends the channel is reported as. -/
def report? : Item → Option Received
  | close _ | connectionClosed | ended => some .ended
  | fault reason => some (.failed (.receive reason))
  | _ => none

/-- Whether an item is a text or control message, or one that is not decoded. -/
def isNoise : Item → Bool
  | text _ | ping | pong | raw => true
  | _ => false

theorem meaning?_of_report? (h : i.report? = some r) : i.meaning? = some r := by
  cases i <;> first | exact h | cases h

theorem meaning?_of_report?_none (h : i.report? = none) : i.meaning? = i.payload?.map .frame := by
  cases i <;> first | rfl | cases h

end Item

/-- The payloads of binary messages, in order. -/
def payloads (is : List Item) : List (List UInt8) := is.filterMap Item.payload?

/-- What items mean, in order. -/
def meanings (is : List Item) : List Received := is.filterMap Item.meaning?

theorem meanings_of_none (h : i.meaning? = none) : meanings (i :: is) = meanings is :=
  List.filterMap_cons_none h

theorem meanings_of_some (h : i.meaning? = some r) : meanings (i :: is) = r :: meanings is :=
  List.filterMap_cons_some h

/-- Items that do not end the channel mean their payloads. -/
theorem meanings_eq_payloads (h : ∀ i ∈ is, i.report? = none) :
    meanings is = (payloads is).map .frame := by
  induction is with
  | nil => rfl
  | cons i is ih =>
    obtain ⟨hi, his⟩ := List.forall_mem_cons.1 h
    rw [meanings, payloads, List.filterMap_cons, List.filterMap_cons,
      Item.meaning?_of_report?_none hi]
    cases i.payload? with
    | none => exact ih his
    | some bytes => exact congrArg _ (ih his)

/-- Text and control messages mean nothing. -/
theorem meanings_filter (is : List Item) : meanings (is.filter (!·.isNoise)) = meanings is := by
  have hmeaning : ∀ i : Item, (if !i.isNoise then i.meaning? else none) = i.meaning? := by
    intro i
    cases i <;> rfl
  rw [meanings, List.filterMap_filter]
  exact congrArg (is.filterMap ·) (funext hmeaning)

/-! ## Receptions in a row -/

theorem receive_of_none (h : i.meaning? = none) : receive (i :: is) =
    ⟨(receive is).received, (receive is).rest, i.notes ++ (receive is).notes⟩ := by
  rw [receive, h]

theorem receive_of_some (h : i.meaning? = some r) : receive (i :: is) = ⟨r, is, i.notes⟩ := by
  rw [receive, h]

/-- The results of so many receptions in a row, the items after them, and what was noted. -/
def receives : Nat → List Item → List Received × List Item × List Note
  | 0, is => ([], is, [])
  | n + 1, is =>
    let first := receive is
    let (rs, is, notes) := receives n first.rest
    (first.received :: rs, is, first.notes ++ notes)

theorem receives_succ (n : Nat) (is : List Item) : receives (n + 1) is =
    ((receive is).received :: (receives n (receive is).rest).1, (receives n (receive is).rest).2.1,
      (receive is).notes ++ (receives n (receive is).rest).2.2) := rfl

/-- What is noted of an item that is passed over stands in front. -/
theorem receives_of_none (h : i.meaning? = none) (n : Nat) (is : List Item) :
    receives (n + 1) (i :: is) = ((receives (n + 1) is).1, (receives (n + 1) is).2.1,
      i.notes ++ (receives (n + 1) is).2.2) := by
  rw [receives_succ, receives_succ, receive_of_none h, List.append_assoc]

theorem receives_of_some (h : i.meaning? = some r) (n : Nat) (is : List Item) :
    receives (n + 1) (i :: is) =
      (r :: (receives n is).1, (receives n is).2.1, i.notes ++ (receives n is).2.2) := by
  rw [receives_succ, receive_of_some h]

/-- A reception yields the first meaning and leaves the others. -/
theorem receive_meanings (is : List Item) : (receive is).received = (meanings is).headD .pending ∧
    meanings (receive is).rest = (meanings is).tail := by
  induction is with
  | nil => exact ⟨rfl, rfl⟩
  | cons i is ih =>
    cases h : i.meaning? with
    | none => rw [receive_of_none h, meanings_of_none h]; exact ih
    | some r => rw [receive_of_some h, meanings_of_some h]; exact ⟨rfl, rfl⟩

/-- **Receptions yield the meanings of the items in order**, and nothing once they are used up. -/
theorem fst_receives (n : Nat) (is : List Item) : (receives n is).1 =
    (meanings is).take n ++ List.replicate (n - (meanings is).length) .pending := by
  induction n generalizing is with
  | zero => simp [receives]
  | succ n ih =>
    obtain ⟨hfirst, hrest⟩ := receive_meanings is
    rw [receives_succ, ih, hfirst, hrest]
    cases meanings is with
    | nil => simp [List.replicate_succ]
    | cons r rs => simp

/-- An ending is reported behind all payloads before it, and what follows it is left. All items up
to it are noted in order. -/
theorem receives_ending (hfront : ∀ i ∈ front, i.report? = none) (he : e.report? = some r) :
    receives ((payloads front).length + 1) (front ++ e :: rest) =
      ((payloads front).map .frame ++ [r], rest, (front ++ [e]).flatMap Item.notes) := by
  induction front with
  | nil => exact receives_of_some (Item.meaning?_of_report? he) 0 rest
  | cons i front ih =>
    obtain ⟨hi, hfront⟩ := List.forall_mem_cons.1 hfront
    have hmeaning := Item.meaning?_of_report?_none hi
    cases hpayload : i.payload? with
    | none =>
      rw [hpayload] at hmeaning
      rw [payloads, List.filterMap_cons_none hpayload, List.cons_append, receives_of_none hmeaning]
      exact congrArg (fun p => (p.1, p.2.1, i.notes ++ p.2.2)) (ih hfront)
    | some bytes =>
      rw [hpayload] at hmeaning
      rw [payloads, List.filterMap_cons_some hpayload, List.cons_append, List.length_cons,
        receives_of_some hmeaning]
      exact congrArg (fun p => (_ :: p.1, p.2.1, i.notes ++ p.2.2)) (ih hfront)

/-! ## The client of a pipe -/

theorem Peer.atEnd_ne_noise {p : Peer} (h : p.atEnd.item? = some i) : i.meaning? ≠ none := by
  unfold Peer.atEnd at h
  split at h <;> cases h <;> exact Option.some_ne_none _

/-- What is read and passed over was the next message under way. Whatever ends reading is reported,
so it is never passed over. -/
theorem Peer.read_noise {p : Peer} {cut : Bool} {inbox : List Message}
    (h : (p.read cut inbox).1.item? = some i) (hi : i.meaning? = none) :
    inbox.length = (p.read cut inbox).2.2.1.length + 1 := by
  unfold Peer.read at *
  cases inbox with
  | nil =>
    dsimp only at *
    split_ifs at h
    · cases h
      cases hi
    · cases h
      cases hi
    · cases h
      cases hi
    · exact absurd hi (Peer.atEnd_ne_noise h)
    · cases h
  | cons m rest =>
    dsimp only at *
    split_ifs at *
    · cases h
      cases hi
    · cases h
      cases hi
    · cases h
      cases hi
    · cases h
      cases hi
    · rfl

namespace Pipe

/-- What the client reads next, and the pipe after it. -/
def clientRead (p : Pipe) : Read × Pipe :=
  let read := p.client.read p.cut p.toClient
  (read.1, { p with
    client := read.2.1
    toClient := read.2.2.1
    toServer := p.toServer ++ read.2.2.2 })

/-- The items that the client would read in so many readings, up to one that has to wait. -/
def items (p : Pipe) : Nat → List Item
  | 0 => []
  | n + 1 =>
    match p.clientRead.1.item? with
    | none => []
    | some i => i :: p.clientRead.2.items n

variable {p : Pipe}

theorem clientReceive_of_none (n : Nat) (h : p.clientRead.1.item? = none) :
    p.clientReceive (n + 1) = (.pending, p.clientRead.2, []) := by
  unfold clientRead at *
  rw [clientReceive]
  generalize p.client.read p.cut p.toClient = read at *
  obtain ⟨r, client, toClient, out⟩ := read
  dsimp only at *
  rw [h]

theorem clientReceive_of_some (n : Nat) (h : p.clientRead.1.item? = some i) :
    p.clientReceive (n + 1) = match i.meaning? with
      | some received => (received, p.clientRead.2, i.notes)
      | none => ((p.clientRead.2.clientReceive n).1, (p.clientRead.2.clientReceive n).2.1,
        i.notes ++ (p.clientRead.2.clientReceive n).2.2) := by
  unfold clientRead at *
  rw [clientReceive]
  generalize p.client.read p.cut p.toClient = read at *
  obtain ⟨r, client, toClient, out⟩ := read
  dsimp only at *
  cases hi : i.meaning? <;> simp only [h, hi]

/-- The client receives and notes what the items that it reads come to. -/
theorem clientReceive_eq (n : Nat) (p : Pipe) :
    (p.clientReceive n).1 = (receive (p.items n)).received ∧
      (p.clientReceive n).2.2 = (receive (p.items n)).notes := by
  induction n generalizing p with
  | zero => exact ⟨rfl, rfl⟩
  | succ n ih =>
    cases h : p.clientRead.1.item? with
    | none =>
      rw [clientReceive_of_none n h, items, h]
      exact ⟨rfl, rfl⟩
    | some i =>
      rw [clientReceive_of_some n h, items, h]
      cases hi : i.meaning? with
      | none =>
        obtain ⟨hreceived, hnotes⟩ := ih p.clientRead.2
        simp only [receive_of_none hi, hreceived, hnotes, and_self]
      | some r => simp only [receive_of_some hi, and_self]

/-- The client never stops short: it passes over no more messages than are under way. -/
theorem clientReceive_succ (n : Nat) (p : Pipe) (h : p.toClient.length < n) :
    p.clientReceive (n + 1) = p.clientReceive n := by
  induction n generalizing p with
  | zero => exact absurd h (Nat.not_lt_zero _)
  | succ n ih =>
    cases hitem : p.clientRead.1.item? with
    | none => rw [clientReceive_of_none _ hitem, clientReceive_of_none _ hitem]
    | some i =>
      rw [clientReceive_of_some _ hitem, clientReceive_of_some _ hitem]
      cases hi : i.meaning? with
      | none =>
        have hlength : p.toClient.length = p.clientRead.2.toClient.length + 1 :=
          Peer.read_noise hitem hi
        dsimp only
        rw [ih _ (by omega)]
      | some r => rfl

theorem clientReceive_of_lt (h : p.toClient.length < n) :
    p.clientReceive n = p.clientReceive (p.toClient.length + 1) := by
  induction h with
  | refl => rfl
  | step h ih => rw [clientReceive_succ _ p h, ih]

end Pipe

/-! ## Closed sockets -/

namespace Socket

variable {σ : Type} {s : Socket}

theorem closed_close (s : Socket) (stream : σ) (write : σ → Option WriteFault × σ) :
    (s.close stream write).2.1.closed = true := by
  unfold close
  split_ifs with h
  · exact h
  · rcases write stream with ⟨_ | _ | _ | _, stream⟩ <;> rfl

theorem send_of_closed (h : s.closed = true) (stream : σ) (write : σ → Option WriteFault × σ) :
    s.send stream write = (.error .closed, stream) := if_pos h

theorem close_of_closed (h : s.closed = true) (stream : σ) (write : σ → Option WriteFault × σ) :
    s.close stream write = (.ok (), s, stream) := if_pos h

end Socket

namespace Pipe

variable {p : Pipe}

/-- The pipe after some moves. -/
def follow (p : Pipe) (ms : List Move) : Pipe := ms.foldl (fun p m => (p.step m).2.1) p

theorem socket_clientReceive (n : Nat) (p : Pipe) : (p.clientReceive n).2.1.socket = p.socket := by
  induction n generalizing p with
  | zero => rfl
  | succ n ih =>
    cases h : p.clientRead.1.item? with
    | none => rw [clientReceive_of_none n h]; rfl
    | some i =>
      rw [clientReceive_of_some n h]
      cases i.meaning? with
      | none => exact ih _
      | some r => rfl

theorem step_send_of_closed (h : p.socket.closed = true) (frame : List UInt8) :
    p.step (.send frame) = (.failed .closed, p, []) := by
  rw [step, Socket.send_of_closed h]

theorem step_close_of_closed (h : p.socket.closed = true) : p.step .close = (.done, p, []) := by
  rw [step, Socket.close_of_closed h]

theorem closed_step_close (p : Pipe) : (p.step .close).2.1.socket.closed = true := by
  have hclosed := p.socket.closed_close p (clientWrite .bareClose)
  rw [step]
  generalize p.socket.close p (clientWrite .bareClose) = result at *
  rcases result with ⟨_ | _, socket, q⟩ <;> exact hclosed

/-- A socket stays closed, whatever either side does. -/
theorem closed_step (h : p.socket.closed = true) (m : Move) :
    (p.step m).2.1.socket.closed = true := by
  cases m with
  | receive =>
    have hsocket := socket_clientReceive (p.toClient.length + 1) p
    exact (congrArg Socket.closed hsocket).trans h
  | send frame => rw [step_send_of_closed h frame]; exact h
  | close => exact closed_step_close p
  | serverSend m => unfold step; dsimp only; split_ifs <;> exact h
  | serverReceive => unfold step; dsimp only; split_ifs <;> exact h
  | serverDrop => exact h

theorem closed_follow (h : p.socket.closed = true) (ms : List Move) :
    (p.follow ms).socket.closed = true := by
  induction ms generalizing p with
  | nil => exact h
  | cons m ms ih => exact ih (closed_step h m)

theorem closed_follow_close (p : Pipe) (before after : List Move) :
    (p.follow (before ++ .close :: after)).socket.closed = true := by
  rw [follow, List.foldl_append]
  exact closed_follow (closed_step_close _) after

end Pipe

/-- **The frames of a socket.** Receptions in a row yield the payloads of the binary messages, in
order, and behind them what the first ending is reported as: the end of the channel, or a fault.
Each text on the way there is noted with its length, and so is a close that ends it. Without an
ending there is nothing more to receive. Text and control messages make no difference to what is
received, wherever they stand. The client of a pipe receives in this way from the items that it
reads. Once its owner has closed a socket it sends nothing and closing it again succeeds, both
without touching the stream, whatever has happened since. -/
theorem socket_channel :
    (∀ front e r rest, (∀ i ∈ front, i.report? = none) → e.report? = some r →
      receives ((payloads front).length + 1) (front ++ e :: rest) =
        ((payloads front).map .frame ++ [r], rest, (front ++ [e]).flatMap Item.notes)) ∧
    (∀ front n, (∀ i ∈ front, i.report? = none) → (receives n front).1 =
      ((payloads front).map .frame).take n ++
        List.replicate (n - (payloads front).length) .pending) ∧
    (∀ n is, (receives n is).1 = (receives n (is.filter (!·.isNoise))).1) ∧
    (∀ (p : Pipe) n, p.toClient.length < n →
      (p.step .receive).1 = .received (receive (p.items n)).received ∧
        (p.step .receive).2.2 = (receive (p.items n)).notes) ∧
    (∀ {σ τ : Type} (s : Socket) (stream : σ) (write : σ → Option WriteFault × σ) (later : τ)
      (write' : τ → Option WriteFault × τ),
      (s.close stream write).2.1.send later write' = (.error .closed, later) ∧
      (s.close stream write).2.1.close later write' = (.ok (), (s.close stream write).2.1, later)) ∧
    ∀ (p : Pipe) before after frame,
      let q := p.follow (before ++ .close :: after)
      q.step (.send frame) = (.failed .closed, q, []) ∧ q.step .close = (.done, q, []) := by
  refine ⟨fun front e r rest hfront he => receives_ending hfront he, fun front n hfront => ?_,
    fun n is => ?_, fun p n hn => ?_, fun s stream write later write' => ?_,
    fun p before after frame => ?_⟩
  · rw [fst_receives, meanings_eq_payloads hfront, List.length_map]
  · rw [fst_receives, fst_receives, meanings_filter]
  · obtain ⟨hreceived, hnotes⟩ := Pipe.clientReceive_eq n p
    rw [← hreceived, ← hnotes, Pipe.clientReceive_of_lt hn]
    exact ⟨rfl, rfl⟩
  · have hclosed := s.closed_close stream write
    exact ⟨Socket.send_of_closed hclosed later write', Socket.close_of_closed hclosed later write'⟩
  · have hclosed := p.closed_follow_close before after
    exact ⟨Pipe.step_send_of_closed hclosed frame, Pipe.step_close_of_closed hclosed⟩

/-- Two frames amid noise, then a fault; what comes after it has not been received. Before the fault
one more frame is waited for. A pipe passes over a text to the frame behind it, and notes it. -/
theorem socket_channel_noisy :
    let texted := note .warn "Ignoring text message on admin channel" [("len", .number 5)]
    receives 3 [.text 5, .binary [1], .ping, .binary [2], .raw, .fault "reset", .binary [3]] =
      ([.frame [1], .frame [2], .failed (.receive "reset")], [.binary [3]], [texted]) ∧
    (receives 3 [.text 5, .binary [1], .ping, .binary [2], .raw]).1 =
      [.frame [1], .frame [2], .pending] ∧
    (Pipe.step { Pipe.start with toClient := [.text 5, .binary [1]] } .receive).1 =
      .received (.frame [1]) ∧
    (Pipe.step { Pipe.start with toClient := [.text 5, .binary [1]] } .receive).2.2 = [texted] := by
  obtain ⟨hending, hfront, -, hpipe, -, -⟩ := socket_channel
  have hquiet : ∀ i ∈ [Item.text 5, .binary [1], .ping, .binary [2], .raw], i.report? = none := by
    decide
  exact ⟨hending _ (.fault "reset") _ [.binary [3]] hquiet rfl, hfront _ 3 hquiet,
    hpipe { Pipe.start with toClient := [.text 5, .binary [1]] } 3 (by decide)⟩

end Vitals.Channel.WebSocket
