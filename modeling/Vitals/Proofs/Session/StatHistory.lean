/-
  A session that pages back through a server's history.

  * `StatHistory`: a history in strictly ascending order.
  * `StatHistory.server`: it only grows at its newest end; a first page is a last part of it, and an
    older page is a block of it that ends right below the cursor asked for.
  * `Waiting`, `Barren`, `Paging`: the three phases of a session. It waits for its only first page;
    that page was empty; or what it has paged is a segment of the history, and whatever is under way
    leaves no gap below it.
  * `statHistory_agreement`: what a session holds up to its first page is a segment of the history.
-/
import Vitals.Proofs.Session.Duplex
import Vitals.Proofs.Telemetry.Paging

namespace Vitals

open Stat Wire

/-- An idle interval that ended at a given time. -/
def Stat.plain (time : UInt64) : Stat := { (default : Stat) with timestamp := time }

/-- The stats history of a server. -/
structure StatHistory where
  entries : List Stat
  ascending : Ascending entries

namespace StatHistory

/-- The history of idle intervals that ended at given times. -/
def plain (times : List UInt64) (ascending : times.Pairwise (· < ·)) : StatHistory where
  entries := times.map Stat.plain
  ascending := List.pairwise_map.2 ascending

/-- A block of consecutive intervals whose last is the greatest below a cursor. It is empty only if
there is none below. -/
structure IsPage (history : StatHistory) (cursor : UInt64) (page : List Stat) : Prop where
  consecutive : page <:+: history.entries
  below : ∀ s, page.getLast? = some s → s.timestamp < cursor
  greatest : ∀ s, page.getLast? = some s → ∀ x ∈ history.entries, x.timestamp < cursor →
    x.timestamp ≤ s.timestamp
  empty : page = [] → ∀ x ∈ history.entries, ¬ x.timestamp < cursor

/-- The answers to the two kinds of query; nothing else is answered with a page. -/
inductive Answers (history : StatHistory) : ClientMessage → List (List UInt8) → Prop
  | initial (cursor time : UInt64) {page : List Stat} : page <:+ history.entries →
      (history.entries ≠ [] → page ≠ []) → Answers history (.statsQuery cursor .initial)
        [(ServerMessage.stats ⟨time, page⟩).encode]
  | older (cursor time : UInt64) {page : List Stat} : history.IsPage cursor page →
      Answers history (.statsQuery cursor .older) [(ServerMessage.stats ⟨time, page⟩).encode]
  | nothing {m : ClientMessage} : (∀ cursor kind, m ≠ .statsQuery cursor kind) →
      Answers history m []

/-- A server that keeps a history. Whatever does not pass for a stats response may come unasked:
pongs with any intervals, other responses, and junk. -/
def server : Server StatHistory where
  Grows history history' := history.entries <+: history'.entries
  Answers := Answers
  Volunteers bytes := ∀ batch, ServerMessage.decode bytes ≠ .ok (.stats batch)

variable {history : StatHistory} {cursor : UInt64} {page : List Stat}

/-- What lies between a part of a history and the intervals from a cursor on is a page. -/
theorem IsPage.of_cut (before after : List Stat) (hcut : history.entries = before ++ page ++ after)
    (hbelow : ∀ s ∈ page, s.timestamp < cursor) (habove : ∀ s ∈ after, cursor ≤ s.timestamp)
    (hempty : page = [] → before = []) : history.IsPage cursor page := by
  have hearlier : ∀ x ∈ history.entries, x.timestamp < cursor → x ∈ before ++ page := by
    intro x hx hlt
    rw [hcut] at hx
    refine (List.mem_append.1 hx).resolve_right fun hafter => ?_
    exact UInt64.not_lt.2 (habove x hafter) hlt
  have hasc : Ascending (before ++ page) := by
    have := history.ascending
    rw [hcut] at this
    exact this.sublist (List.sublist_append_left _ _)
  refine ⟨⟨before, after, hcut.symm⟩, fun s hs => hbelow s (List.mem_of_getLast? hs), ?_, ?_⟩
  · intro s hs x hx hlt
    refine le_getLast hasc ?_ x (hearlier x hx hlt)
    rw [List.getLast?_append, hs]
    rfl
  · rintro rfl x hx hlt
    have := hearlier x hx hlt
    rw [hempty rfl] at this
    cases this

theorem IsPage.reaches (h : history.IsPage cursor page) :
    Reaches history.entries cursor page := by
  by_cases hp : page = []
  · subst hp
    refine ⟨[], history.entries, rfl, fun s hs => ?_, fun _ => rfl⟩
    exact UInt64.not_lt.1 (h.empty rfl s hs)
  · obtain ⟨before, after, hcut⟩ := h.consecutive
    obtain ⟨s, hs⟩ : ∃ s, page.getLast? = some s := ⟨_, List.getLast?_eq_some_getLast hp⟩
    refine ⟨before, after, hcut.symm, fun x hx => ?_, fun he => absurd he hp⟩
    have hasc := history.ascending
    rw [← hcut] at hasc
    have hlt := (List.pairwise_append.1 hasc).2.2 s
      (List.mem_append_right _ (List.mem_of_getLast? hs)) x hx
    have hx' : x ∈ history.entries := hcut ▸ List.mem_append_right _ hx
    exact UInt64.not_lt.1 fun hlt' =>
      UInt64.lt_irrefl _ (UInt64.lt_of_lt_of_le hlt (h.greatest s hs x hx' hlt'))

theorem IsPage.length_lt (h : history.IsPage cursor page) : page.length < 2 ^ 64 := by
  have hasc : Ascending page := history.ascending.sublist h.consecutive.sublist
  have hbelow : ∀ s ∈ page, s.timestamp < cursor := by
    intro s hs
    have hlast := List.getLast?_eq_some_getLast (List.ne_nil_of_mem hs)
    exact UInt64.lt_of_le_of_lt (le_getLast hasc hlast s hs) (h.below _ hlast)
  have hkeys : (page.map (·.timestamp) ++ [cursor]).Pairwise (id · < id ·) := by
    refine List.pairwise_append.2 ⟨List.pairwise_map.2 hasc, List.pairwise_singleton _ _, ?_⟩
    simpa using hbelow
  have := Cursor.length_le_of_ascending hkeys (Nat.zero_le _) fun _ _ => Nat.zero_le _
  simp only [List.length_append, List.length_map, List.length_singleton] at this
  omega

theorem counted_infix (h : page <:+: history.entries) : Batch.counted page <:+: history.entries :=
  (List.take_prefix _ _).isInfix.trans h

end StatHistory

/-! ## What is under way -/

namespace StatHistory

/-- The query that a frame to the server asks. -/
def query? (bytes : List UInt8) : Option (UInt64 × QueryKind) :=
  match ClientMessage.decode bytes with
  | .ok (.statsQuery cursor kind) => some (cursor, kind)
  | _ => none

/-- The page that a frame to the session brings. -/
def page? (bytes : List UInt8) : Option (List Stat) :=
  match ServerMessage.decode bytes with
  | .ok (.stats batch) => some batch.records
  | _ => none

/-- The queries under way. -/
def queries (d : Duplex StatHistory) : List (UInt64 × QueryKind) := d.outgoing.filterMap query?

/-- The pages under way. -/
def pages (d : Duplex StatHistory) : List (List Stat) := d.incoming.filterMap page?

/-- A session that has no history yet. Its first page has been asked for once: the query, the page
under way and the page held for a paused session are one at most. -/
structure Waiting (d : Duplex StatHistory) : Prop where
  seeded : d.session.telemetry.seeded = false
  exhausted : d.session.telemetry.exhausted = false
  once : (queries d).length + (pages d).length + d.session.telemetry.held.toList.length ≤ 1
  initial : ∀ q ∈ queries d, q.2 = .initial
  consecutive : ∀ page ∈ pages d ++ d.session.telemetry.held.toList, page <:+: d.server.entries

/-- A session whose first page was empty. -/
structure Barren (d : Duplex StatHistory) : Prop where
  seeded : d.session.telemetry.seeded = true
  exhausted : d.session.telemetry.exhausted = true
  seeds : Event.seeds d.published = []

/-- A session that pages. The queries and pages under way may be stale, but leave no gap. -/
structure Paging (d : Duplex StatHistory) : Prop where
  segment : Segment d.server.entries d.session.telemetry d.published
  older : ∀ q ∈ queries d, q.2 = .older ∧ d.session.telemetry.statsPage.position ≤ q.1
  reaches : ∀ page ∈ pages d,
    Reaches d.server.entries d.session.telemetry.statsPage.position page

/-- The phases of a session. -/
inductive Phase (d : Duplex StatHistory) : Prop where
  | waiting (h : Waiting d)
  | barren (h : Barren d)
  | paging (h : Paging d)

theorem page?_encode (time : UInt64) (page : List Stat) :
    page? (ServerMessage.stats ⟨time, page⟩).encode = none ∨
      page? (ServerMessage.stats ⟨time, page⟩).encode = some (Batch.counted page) := by
  unfold page?
  cases hd : ServerMessage.decode (ServerMessage.stats ⟨time, page⟩).encode with
  | error e => exact Or.inl rfl
  | ok m =>
    cases m with
    | stats batch => exact Or.inr (congrArg some (ServerMessage.records_of_decode_stats hd))
    | _ => exact Or.inl rfl

/-! ## Steps of the server -/

section Server

variable {d : Duplex StatHistory}

theorem Phase.grow (h : Phase d) (hist : History d.session.telemetry d.published)
    {history : StatHistory} (hg : d.server.entries <+: history.entries) :
    Phase { d with server := history } := by
  cases h with
  | waiting h =>
    exact .waiting { h with consecutive := fun p hp => (h.consecutive p hp).trans hg.isInfix }
  | barren h => exact .barren ⟨h.seeded, h.exhausted, h.seeds⟩
  | paging h =>
    refine .paging ⟨h.segment.grow hg, h.older, fun p hp => ?_⟩
    obtain ⟨s, hs⟩ := List.exists_mem_of_ne_nil _ (h.segment.paged_ne_nil hist)
    obtain ⟨before, after, hcut, -⟩ := h.segment.cut
    have hin : s ∈ d.server.entries := by
      rw [hcut]
      exact List.mem_append_left _ (List.mem_append_right _ hs)
    have hle := h.segment.position_le hist s
      (Segment.stats_eq hist ▸ List.mem_append_left _ hs)
    -- What is added comes after the segment, and so above the cursor.
    exact (h.reaches p hp).grow hg history.ascending ⟨s, hin, hle⟩

theorem Phase.volunteer (h : Phase d) {bytes : List UInt8} (hv : server.Volunteers bytes) :
    Phase { d with incoming := d.incoming ++ [bytes] } := by
  have hnone : page? bytes = none := by
    unfold page?
    split
    · rename_i batch hd
      exact absurd hd (hv batch)
    · rfl
  have hpages : pages { d with incoming := d.incoming ++ [bytes] } = pages d := by
    simp [pages, hnone]
  cases h with
  | waiting h =>
    exact .waiting ⟨h.seeded, h.exhausted, hpages ▸ h.once, h.initial, hpages ▸ h.consecutive⟩
  | barren h => exact .barren ⟨h.seeded, h.exhausted, h.seeds⟩
  | paging h => exact .paging ⟨h.segment, h.older, hpages ▸ h.reaches⟩

variable {bytes : List UInt8} {rest replies : List (List UInt8)} {m : ClientMessage}

theorem queries_of_outgoing (hq : d.outgoing = bytes :: rest) :
    queries d = (query? bytes).toList ++ rest.filterMap query? := by
  unfold queries
  rw [hq, List.filterMap_cons]
  cases query? bytes <;> rfl

theorem query?_of_decode {cursor : UInt64} {kind : QueryKind}
    (h : ClientMessage.decode bytes = .ok (.statsQuery cursor kind)) :
    query? bytes = some (cursor, kind) := by
  simp [query?, h]

/-- **A page that comes as an answer** is consecutive, or reaches the cursor, as was asked for. -/
theorem Answers.page {history : StatHistory} (ha : Answers history m replies)
    (hm : ClientMessage.decode bytes = .ok m) {page : List Stat}
    (hp : page ∈ replies.filterMap page?) : ∃ q, query? bytes = some q ∧
      (q.2 = .initial → page <:+: history.entries) ∧
      (q.2 = .older → Reaches history.entries q.1 page) := by
  cases ha with
  | nothing hno => cases hp
  | @initial cursor time page' hsuf hne =>
    refine ⟨_, query?_of_decode hm, fun _ => ?_, nofun⟩
    rcases page?_encode time page' with he | he
    · simp [he] at hp
    · simp only [List.filterMap_cons, he, List.filterMap_nil, List.mem_singleton] at hp
      rw [hp]
      exact counted_infix hsuf.isInfix
  | @older cursor time page' hpage =>
    refine ⟨_, query?_of_decode hm, nofun, fun _ => ?_⟩
    rcases page?_encode time page' with he | he
    · simp [he] at hp
    · rw [Batch.counted_eq_self hpage.length_lt] at he
      simp only [List.filterMap_cons, he, List.filterMap_nil, List.mem_singleton] at hp
      rw [hp]
      exact hpage.reaches

theorem Answers.length_le {history : StatHistory} (ha : Answers history m replies)
    (hm : ClientMessage.decode bytes = .ok m) :
    (replies.filterMap page?).length ≤ (query? bytes).toList.length := by
  cases ha with
  | nothing hno => exact Nat.zero_le _
  | initial cursor time _ _ | older cursor time _ =>
    rw [query?_of_decode hm]
    exact List.length_filterMap_le _ _

theorem Phase.answer (h : Phase d) (hq : d.outgoing = bytes :: rest)
    (hm : ClientMessage.decode bytes = .ok m) (ha : Answers d.server m replies) :
    Phase { d with outgoing := rest, incoming := d.incoming ++ replies } := by
  have hqueries := queries_of_outgoing hq
  have hrest : ∀ q ∈ rest.filterMap query?, q ∈ queries d := fun q hq' =>
    hqueries ▸ List.mem_append_right _ hq'
  have hhead : ∀ q, query? bytes = some q → q ∈ queries d := fun q he => by
    simp [hqueries, he]
  have hpages : pages { d with outgoing := rest, incoming := d.incoming ++ replies } =
      pages d ++ replies.filterMap page? := List.filterMap_append
  cases h with
  | waiting h =>
    have honce := h.once
    have hone := ha.length_le hm
    rw [hqueries, List.length_append] at honce
    refine .waiting ⟨h.seeded, h.exhausted, ?_, fun q hq' => h.initial q (hrest q hq'), ?_⟩
    · rw [hpages, List.length_append]
      simp only [queries]
      omega
    · rw [hpages]
      intro p hp
      have hold := h.consecutive p
      simp only [List.mem_append] at hp hold
      rcases hp with (hp | hp) | hp
      · exact hold (Or.inl hp)
      · obtain ⟨q, he, hinitial, -⟩ := ha.page hm hp
        exact hinitial (h.initial q (hhead q he))
      · exact hold (Or.inr hp)
  | barren h => exact .barren ⟨h.seeded, h.exhausted, h.seeds⟩
  | paging h =>
    refine .paging ⟨h.segment, fun q hq' => h.older q (hrest q hq'), ?_⟩
    rw [hpages]
    intro p hp
    rcases List.mem_append.1 hp with hp | hp
    · exact h.reaches p hp
    · obtain ⟨q, he, -, holder⟩ := ha.page hm hp
      obtain ⟨hkind, hle⟩ := h.older q (hhead q he)
      exact (holder hkind).mono hle

end Server

/-! ## Steps of the session -/

section Session

variable {d : Duplex StatHistory} {r : Session × List Effect} {op? : Option Operation}
  {request? : Option ClientMessage}

/-- A query that is under way after a step was so before, or is what the session asks for. -/
theorem mem_queries_after (hs : d.session.Stepped r op? request?) {q : UInt64 × QueryKind}
    (hq : q ∈ queries (d.after r)) : q ∈ queries d ∨ request? = some (.statsQuery q.1 q.2) := by
  have happ : queries (d.after r) = queries d ++ (Effect.frames r.2).filterMap query? :=
    List.filterMap_append
  rw [happ] at hq
  rcases List.mem_append.1 hq with hq | hq
  · exact Or.inl hq
  · obtain ⟨frame, hf, hqf⟩ := List.mem_filterMap.1 hq
    rcases hs.frames with hnone | ⟨m, frame', hm, -, hdecode, hone⟩
    · rw [hnone] at hf
      cases hf
    · rw [hone] at hf
      obtain rfl := List.mem_singleton.1 hf
      refine Or.inr (hm.trans ?_)
      unfold query? at hqf
      rw [hdecode] at hqf
      cases m <;> cases hqf
      rfl

theorem queries_after (hs : d.session.Stepped r op? request?)
    (hno : ∀ cursor kind, request? ≠ some (.statsQuery cursor kind)) :
    queries (d.after r) = queries d := by
  have happ : queries (d.after r) = queries d ++ (Effect.frames r.2).filterMap query? :=
    List.filterMap_append
  rw [happ, List.filterMap_eq_nil_iff.2, List.append_nil]
  intro frame hf
  rcases hs.frames with hnone | ⟨m, frame', hm, -, hdecode, hone⟩
  · rw [hnone] at hf
    cases hf
  · rw [hone] at hf
    obtain rfl := List.mem_singleton.1 hf
    unfold query?
    rw [hdecode]
    cases m with
    | statsQuery cursor kind => exact absurd hm (hno cursor kind)
    | _ => rfl

/-- The page that seeds a history was the only thing under way. -/
theorem Waiting.of_brings (h : Waiting d) {op : Operation} {hand : Option (List Stat)}
    (hroom : hand ≠ none → queries d = [] ∧ pages d = [] ∧ d.session.telemetry.held = none)
    (hhand : ∀ page, hand = some page → page <:+: d.server.entries)
    (hop : ∀ batch, some op = some (.stats batch) → hand = some batch.records)
    {page : List Stat} (hb : op.Brings d.session.telemetry page) :
    queries d = [] ∧ pages d = [] ∧ page <:+: d.server.entries := by
  cases op with
  | stats batch =>
    obtain ⟨-, rfl⟩ := hb
    have he := hop batch rfl
    obtain ⟨h1, h2, -⟩ := hroom (by simp [he])
    exact ⟨h1, h2, hhand _ he⟩
  | setPaused paused =>
    obtain ⟨-, hheld⟩ := hb
    have honce := h.once
    rw [hheld, Option.toList_some, List.length_singleton] at honce
    refine ⟨List.length_eq_zero_iff.1 (by omega), List.length_eq_zero_iff.1 (by omega), ?_⟩
    exact h.consecutive page (by simp [hheld])
  | pong batch | requests batch | clock millis => cases hb

/-- A session without a history takes the page that it waits for, or waits on. -/
theorem Waiting.stepped (h : Waiting d) (hist : History d.session.telemetry d.published)
    (hs : d.session.Stepped r op? request?) (hand : Option (List Stat))
    (hroom : hand ≠ none → queries d = [] ∧ pages d = [] ∧ d.session.telemetry.held = none)
    (hhand : ∀ page, hand = some page → page <:+: d.server.entries)
    (hop : ∀ batch, op? = some (.stats batch) → hand = some batch.records)
    (hno : ∀ cursor kind, request? ≠ some (.statsQuery cursor kind)) : Phase (d.after r) := by
  have hqueries := queries_after hs hno
  have hpages : pages (d.after r) = pages d := rfl
  rcases op? with _ | op
  · have ht : (d.after r).session.telemetry = d.session.telemetry := hs.of_none.1
    refine .waiting ⟨?_, ?_, ?_, hqueries ▸ h.initial, ?_⟩
    · exact ht ▸ h.seeded
    · exact ht ▸ h.exhausted
    · rw [hqueries, hpages, ht]
      exact h.once
    · rw [hpages, ht]
      exact h.consecutive
  · obtain ⟨ht, es, hes, hev⟩ := hs.of_some
    have ht' : (d.after r).session.telemetry = (d.session.telemetry.perform op).state := ht
    have hsilent : Event.seeds es = [] ∧ Event.pages es = [] := by
      rcases hes with rfl | rfl <;> exact ⟨rfl, rfl⟩
    have hpublished : (d.after r).published =
        d.published ++ (d.session.telemetry.perform op).events ++ es := by
      rw [List.append_assoc, ← hev]
      rfl
    rcases Telemetry.perform_unseeded h.seeded op with ⟨page, hbrings, hseed⟩ | ⟨hs', hex, hheld⟩
    · obtain ⟨hnoquery, hnopage, hpart⟩ := h.of_brings hroom hhand hop hbrings
      by_cases hp : page = []
      · obtain ⟨hnoseed, -⟩ := hist.unseeded h.seeded
        refine .barren ⟨ht' ▸ hseed.seeded, ?_, ?_⟩
        · rw [ht', hseed.exhausted, hp]
          exact Bool.or_true _
        · rw [hpublished]
          simp [hnoseed, hseed.seeds, hp, hsilent]
      · have hseg := Segment.of_seededBy hist h.seeded h.exhausted hseed hp hpart
        refine .paging ⟨?_, ?_, ?_⟩
        · rw [hpublished, ht']
          exact hseg.congr rfl hsilent fun _ _ _ he => Or.inl he
        · rw [hqueries, hnoquery]
          nofun
        · rw [hpages, hnopage]
          nofun
    · refine .waiting ⟨ht' ▸ hs', ?_, ?_, hqueries ▸ h.initial, ?_⟩
      · rw [ht', hex]
        exact h.exhausted
      · rw [hqueries, hpages, ht']
        rcases hheld with he | ⟨batch, rfl, he⟩
        · rw [he]
          exact h.once
        · obtain ⟨hnoquery, hnopage, -⟩ := hroom (by simp [hop batch rfl])
          simp [hnoquery, hnopage, he]
      · rw [hpages, ht']
        rcases hheld with he | ⟨batch, rfl, he⟩
        · rw [he]
          exact h.consecutive
        · obtain ⟨-, hnopage, -⟩ := hroom (by simp [hop batch rfl])
          rw [hnopage, he]
          intro p hp
          exact hhand p (List.mem_singleton.1 hp ▸ hop batch rfl)

theorem Barren.stepped (h : Barren d) (hist : History d.session.telemetry d.published)
    (hs : d.session.Stepped r op? request?) : Barren (d.after r) := by
  rcases op? with _ | op
  · obtain ⟨ht, hev⟩ := hs.of_none
    have ht' : (d.after r).session.telemetry = d.session.telemetry := ht
    refine ⟨ht' ▸ h.seeded, ht' ▸ h.exhausted, ?_⟩
    show Event.seeds (d.published ++ Effect.events r.2) = []
    rcases hev with he | he <;> simp [he, h.seeds]
  · obtain ⟨ht, es, hes, hev⟩ := hs.of_some
    have ht' : (d.after r).session.telemetry = (d.session.telemetry.perform op).state := ht
    obtain ⟨hseeded, hno, hex⟩ := Telemetry.perform_seeded hist h.seeded op
    refine ⟨ht' ▸ hseeded, ht' ▸ hex h.exhausted, ?_⟩
    show Event.seeds (d.published ++ Effect.events r.2) = []
    rw [hev]
    rcases hes with rfl | rfl <;> simp [h.seeds, hno]

/-- A session that pages extends its segment or leaves it. -/
theorem Paging.stepped (h : Paging d) (hist : History d.session.telemetry d.published)
    (hs : d.session.Stepped r op? request?)
    (hop : ∀ batch, op? = some (.stats batch) → Reaches d.server.entries
      d.session.telemetry.statsPage.position batch.records)
    (hrequest : ∀ cursor kind, request? = some (.statsQuery cursor kind) →
      kind = .older ∧ cursor = d.session.telemetry.statsPage.position) : Paging (d.after r) := by
  have hle := (hs.advances hist).page h.segment.seeded
  have hseg : Segment d.server.entries r.1.telemetry (d.published ++ Effect.events r.2) := by
    rcases op? with _ | op
    · obtain ⟨ht, hev⟩ := hs.of_none
      have hsilent : Event.seeds (Effect.events r.2) = [] ∧
          Event.pages (Effect.events r.2) = [] := by
        rcases hev with he | he <;> rw [he] <;> exact ⟨rfl, rfl⟩
      rw [ht]
      exact h.segment.congr rfl hsilent fun _ _ _ he => Or.inl he
    · obtain ⟨ht, es, hes, hev⟩ := hs.of_some
      have hsilent : Event.seeds es = [] ∧ Event.pages es = [] := by
        rcases hes with rfl | rfl <;> exact ⟨rfl, rfl⟩
      have hseg := h.segment.perform hist d.server.ascending fun batch he =>
        hop batch (congrArg some he)
      rw [ht, hev, ← List.append_assoc]
      exact hseg.congr rfl hsilent fun _ _ _ he => Or.inl he
  refine ⟨hseg, fun q hq => ?_, fun page hp => (h.reaches page hp).mono hle⟩
  rcases mem_queries_after hs hq with hq | hq
  · exact ⟨(h.older q hq).1, UInt64.le_trans hle (h.older q hq).2⟩
  · obtain ⟨hkind, hcursor⟩ := hrequest q.1 q.2 hq
    exact ⟨hkind, hcursor ▸ hle⟩

theorem query_cases {s : Session} (hmode : s.mode = .stats) {input : Input} {cursor : UInt64}
    {kind : QueryKind} (h : s.request? input = some (.statsQuery cursor kind)) :
    s.telemetry.seeded = true ∧ kind = .older ∧ cursor = s.telemetry.statsPage.position := by
  rcases s.request?_cases h with hping | ⟨-, hm⟩ | ho
  · cases hping
  · exact absurd (hmode.symm.trans hm) (by decide)
  · obtain ⟨hs, -, hm⟩ := Telemetry.olderRequest?_eq_some.1 ho
    cases hm
    exact ⟨hs, rfl, rfl⟩

theorem pages_of_incoming {bytes : List UInt8} {rest : List (List UInt8)}
    (hq : d.incoming = bytes :: rest) :
    pages d = (page? bytes).toList ++ rest.filterMap page? := by
  unfold pages
  rw [hq, List.filterMap_cons]
  cases page? bytes <;> rfl

theorem page?_of_operation? {s : Session} {bytes : List UInt8} {batch : Batch Stat}
    (h : s.operation? (.frame bytes) = some (.stats batch)) : page? bytes = some batch.records := by
  obtain ⟨b, hb, hd⟩ := s.operation?_stats h
  cases hb
  simp [page?, hd]

theorem Phase.deliver (h : Phase d) (hist : History d.session.telemetry d.published)
    (hmode : d.session.mode = .stats) {bytes : List UInt8} {rest : List (List UInt8)}
    (hq : d.incoming = bytes :: rest) (line : Line) :
    Phase ({ d with incoming := rest }.after (d.session.step line (.frame bytes))) := by
  have hpages := pages_of_incoming hq
  have hs := d.session.step_stepped line (.frame bytes)
  cases h with
  | waiting h =>
    have honce := h.once
    rw [hpages, List.length_append] at honce
    -- If the frame brings the page that is waited for, nothing else is under way.
    have hrest : Waiting { d with incoming := rest } := by
      refine ⟨h.seeded, h.exhausted, ?_, h.initial, fun p hp => h.consecutive p ?_⟩
      · simp only [pages, queries] at honce ⊢
        omega
      · rw [hpages, List.append_assoc]
        exact List.mem_append_right _ hp
    refine hrest.stepped hist hs (page? bytes) (fun hhand => ?_) (fun page he => ?_)
      (fun batch => page?_of_operation?) fun cursor kind hm => ?_
    · obtain ⟨page, he⟩ := Option.ne_none_iff_exists'.1 hhand
      rw [he, Option.toList_some, List.length_singleton] at honce
      exact ⟨List.length_eq_zero_iff.1 (by simp only [queries] at honce ⊢; omega),
        List.length_eq_zero_iff.1 (by simp only [pages]; omega),
        Option.toList_eq_nil_iff.1 (List.length_eq_zero_iff.1 (by dsimp only; omega))⟩
    · exact h.consecutive page (by simp [hpages, he])
    · exact absurd (h.seeded.symm.trans (query_cases hmode hm).1) (by decide)
  | barren h => exact .barren (Barren.stepped ⟨h.seeded, h.exhausted, h.seeds⟩ hist hs)
  | paging h =>
    have hrest : Paging { d with incoming := rest } :=
      ⟨h.segment, h.older, fun p hp => h.reaches p (hpages ▸ List.mem_append_right _ hp)⟩
    refine .paging (hrest.stepped hist hs (fun batch hop => ?_) fun _ _ hm =>
      (query_cases hmode hm).2)
    exact h.reaches _ (by simp [hpages, page?_of_operation? hop])

theorem Phase.act (h : Phase d) (hist : History d.session.telemetry d.published)
    (hmode : d.session.mode = .stats) {input : Input} (hf : ∀ bytes, input ≠ .frame bytes)
    (line : Line) : Phase (d.after (d.session.step line input)) := by
  have hs := d.session.step_stepped line input
  have hop : ∀ batch, d.session.operation? input ≠ some (.stats batch) := by
    intro batch he
    obtain ⟨bytes, hb, -⟩ := d.session.operation?_stats he
    exact hf bytes hb
  cases h with
  | waiting h =>
    refine h.stepped hist hs none (fun he => absurd rfl he) nofun
      (fun batch he => absurd he (hop batch)) fun cursor kind hm => ?_
    exact absurd (h.seeded.symm.trans (query_cases hmode hm).1) (by decide)
  | barren h => exact .barren (h.stepped hist hs)
  | paging h =>
    exact .paging (h.stepped hist hs (fun batch he => absurd he (hop batch)) fun _ _ hm =>
      (query_cases hmode hm).2)

end Session

theorem Waiting.start {host : Host} {settings : Settings} (hmode : settings.mode = .stats)
    (history : StatHistory) {endpoint : String} {line : Line} {s : Session}
    (h : (Session.begin host settings endpoint (.ok ()) line).outcome = .ok s) :
    Waiting
      { server := history, session := s, incoming := []
        outgoing := Effect.frames (Session.begin host settings endpoint (.ok ()) line).effects
        published :=
          Effect.events (Session.begin host settings endpoint (.ok ()) line).effects } := by
  obtain ⟨s₀, -, ht, h₀⟩ := Session.begin_stepped h
  have hfresh : s.telemetry = .fresh settings.capacity := h₀.of_none.1.trans ht
  have hframes :
      (Effect.frames (Session.begin host settings endpoint (.ok ()) line).effects).length ≤ 1 := by
    rcases h₀.frames with hnone | ⟨_, _, _, _, _, hone⟩
    · exact hnone ▸ Nat.zero_le 1
    · exact hone ▸ Nat.le_refl 1
  refine ⟨by rw [hfresh]; rfl, by rw [hfresh]; rfl, ?_, fun q hq => ?_, ?_⟩
  · rw [hfresh]
    exact Nat.le_trans (List.length_filterMap_le _ _) hframes
  · rcases mem_queries_after (d := ⟨history, s₀, [], [], []⟩) h₀ hq with hq | hq
    · cases hq
    · rw [hmode] at hq
      exact (ClientMessage.statsQuery.inj (Option.some.inj hq)).2.symm
  · rw [hfresh]
    nofun

/-- **Every reachable session is in one of the phases.** -/
theorem Phase.of_reachable {settings : Settings} (hmode : settings.mode = .stats)
    {d : Duplex StatHistory} (h : Duplex.Reachable server settings d) : Phase d := by
  induction h with
  | start history host endpoint line hs =>
    exact .waiting (.start hmode history hs)
  | step h hs ih =>
    cases hs with
    | grow hg => exact ih.grow h.history hg
    | answer hq hm ha => exact ih.answer hq hm ha
    | volunteer hv => exact ih.volunteer hv
    | deliver line hq => exact ih.deliver h.history (h.mode.trans hmode) hq line
    | act line hf => exact ih.act h.history (h.mode.trans hmode) hf line

end StatHistory

variable {settings : Settings} {d : Duplex StatHistory}

/-- **A session that pages back agrees with the history of its server.** In every state that it can
reach after a seed that was not empty, what it holds up to the newest interval of the seed is a
segment of the server's history that ends with this interval; and once the session takes the history
to be exhausted, the segment starts where the history starts. -/
theorem statHistory_agreement (hmode : settings.mode = .stats)
    (h : Duplex.Reachable StatHistory.server settings d) {seed : List Stat}
    (hseed : .statsSeeded seed ∈ d.published) :
    ∃ before segment after, d.server.entries = before ++ segment ++ after ∧
      d.session.telemetry.stats.filter (·.timestamp ≤ newest seed) = segment ∧
      (∃ s ∈ seed, s.timestamp = newest seed ∧ segment.getLast? = some s) ∧
      (d.session.telemetry.exhausted = true → before = []) := by
  have hin : seed ∈ Event.seeds d.published := List.mem_filterMap.2 ⟨_, hseed, rfl⟩
  have hist := h.history
  cases StatHistory.Phase.of_reachable hmode h with
  | waiting hw =>
    rw [(hist.unseeded hw.seeded).1] at hin
    cases hin
  | barren hb =>
    rw [hb.seeds] at hin
    cases hin
  | paging hp =>
    obtain ⟨before, after, hcut, hex⟩ := hp.segment.cut
    obtain ⟨hheld, hlast⟩ := hp.segment.filter_newest hist d.server.ascending hin
    exact ⟨before, _, after, hcut, hheld, hlast, hex⟩

/-- So it is when an older page comes twice, and the session pages on to the end of the history
while that grows: the repeated page adds nothing, and the new interval does not count. -/
theorem statHistory_agreement_seeded :
    ∃ d d' : Duplex StatHistory, Duplex.Reachable StatHistory.server (.usual .stats) d ∧
      d.outgoing.map ClientMessage.decode =
        [.ok (.statsQuery 7 .older), .ok (.statsQuery 7 .older)] ∧
      Relation.ReflTransGen (Duplex.Step StatHistory.server) d d' ∧
      .statsSeeded [.plain 7] ∈ d'.published ∧
      d'.server.entries = [.plain 1, .plain 3, .plain 5, .plain 7, .plain 9] ∧
      Event.pages d'.published = [[.plain 3, .plain 5], [.plain 1]] ∧
      d'.session.telemetry.stats = d'.server.entries ∧ d'.session.telemetry.exhausted = true ∧
      ∃ after, d'.server.entries =
        d'.session.telemetry.stats.filter (·.timestamp ≤ newest [.plain 7]) ++ after := by
  let short := StatHistory.plain [1, 3, 5, 7] (by decide)
  let long := StatHistory.plain [1, 3, 5, 7, 9] (by decide)
  let line : Line := ⟨none, none⟩
  let query (cursor : UInt64) (kind : QueryKind) : List UInt8 :=
    kind.opcode.code :: (word64Bytes cursor ++ word64Bytes kind.code)
  have hquery : ∀ cursor kind,
      ClientMessage.decode (query cursor kind) = .ok (.statsQuery cursor kind) := fun cursor kind =>
    ClientMessage.decode_of_encode? (m := .statsQuery cursor kind) trivial rfl
  let d₀ : Duplex StatHistory := ⟨short, .opened (.usual .stats), [query 0 .initial], [], []⟩
  let first := (ServerMessage.stats ⟨0, [.plain 7]⟩).encode
  let d₁ := { d₀ with outgoing := [] }.after (d₀.session.step line (.frame first))
  let d₂ := d₁.after (d₁.session.step line (.command .loadOlder))
  let d := d₂.after (d₂.session.step line (.command .loadOlder))
  have hfirst : [Stat.plain 7] <:+ short.entries := ⟨[.plain 1, .plain 3, .plain 5], rfl⟩
  have started : Duplex.Reachable StatHistory.server (.usual .stats) d₀ :=
    .start short .usual "" line rfl
  have answered := started.step (.answer rfl (hquery 0 .initial)
    (.initial 0 0 hfirst fun _ => List.cons_ne_nil _ _))
  have seeded : Duplex.Reachable StatHistory.server (.usual .stats) d₁ :=
    answered.step (.deliver line rfl)
  have once : Duplex.Reachable StatHistory.server (.usual .stats) d₂ :=
    seeded.step (.act line nofun)
  have asked : Duplex.Reachable StatHistory.server (.usual .stats) d :=
    once.step (.act line nofun)
  have hsent : d.outgoing = [query 7 .older, query 7 .older] := by decide +kernel
  have hpage : short.IsPage 7 [.plain 3, .plain 5] :=
    .of_cut [.plain 1] [.plain 7] rfl (by decide) (by decide) nofun
  have hrest : short.IsPage 3 [.plain 1] :=
    .of_cut [] [.plain 3, .plain 5, .plain 7] rfl (by decide) (by decide) nofun
  have hnone : long.IsPage 1 [] :=
    .of_cut [] long.entries rfl nofun (by decide) fun _ => rfl
  let news := (ServerMessage.pong ⟨5, [.plain 9]⟩).encode
  have hnews : ServerMessage.decode news = .ok (.pong ⟨5, [.plain 9]⟩) := by decide +kernel
  have paged : Relation.ReflTransGen (Duplex.Step StatHistory.server) d _ :=
    .head (.answer hsent (hquery 7 .older) (.older 7 1 hpage)) <|
      .head (.answer rfl (hquery 7 .older) (.older 7 2 hpage)) <|
      .head (.deliver line rfl) <|
      .head (.deliver line rfl) <|
      .head (@Duplex.Step.act _ _ _ (.command .loadOlder) line nofun) <|
      .head (@Duplex.Step.answer _ _ _ (query 3 .older) [] _ _ (by decide +kernel)
        (hquery 3 .older) (.older 3 3 hrest)) <|
      .head (.deliver line rfl) <|
      .head (@Duplex.Step.act _ _ _ (.command .loadOlder) line nofun) <|
      .head (@Duplex.Step.grow _ _ _ long ⟨[.plain 9], rfl⟩) <|
      .head (.volunteer fun batch hbatch => nomatch hnews.symm.trans hbatch) <|
      .head (@Duplex.Step.answer _ _ _ (query 1 .older) [] _ _ (by decide +kernel)
        (hquery 1 .older) (.older 1 4 hnone)) <|
      .head (.deliver line rfl) <|
      .single (.deliver line rfl)
  -- An exhausted session holds all of the history up to its first page.
  have hall : ∀ u : Duplex StatHistory, Duplex.Reachable StatHistory.server (.usual .stats) u →
      .statsSeeded [.plain 7] ∈ u.published → u.session.telemetry.exhausted = true →
      ∃ after, u.server.entries =
        u.session.telemetry.stats.filter (·.timestamp ≤ newest [.plain 7]) ++ after := by
    intro u hu hseed hexhausted
    obtain ⟨before, _, after, hcut, rfl, -, hstart⟩ := statHistory_agreement rfl hu hseed
    rw [hstart hexhausted, List.nil_append] at hcut
    exact ⟨after, hcut⟩
  refine ⟨d, _, asked, ?_, paged, ?_, rfl, ?_, ?_, ?_, hall _ (asked.trans paged) ?_ ?_⟩
  · rw [hsent, List.map_cons, List.map_cons, hquery]
    rfl
  all_goals decide +kernel

end Vitals
