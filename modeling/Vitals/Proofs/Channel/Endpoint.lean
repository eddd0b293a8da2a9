/-
  The endpoints of admin channels, and the URLs they are derived from.

  * `Divides before rest cs`: what stands in front of the first separator of a text and behind it;
    `UpTo stops part cs`: what stands in front of the first of some characters.
  * `Names url scheme rest`: a URL names a channel. `endpointOfUrl_eq_ok_iff`: exactly then it has
    an endpoint.
  * `Derived scheme target e`: the form of endpoints. `Derived.endpointOfUrl_eq`: an endpoint is the
    endpoint of itself, but for the blanks at its end.
  * `endpoint_shape`: which URLs have an endpoint, and which one.
  * `endpoint_again`: the endpoint of an endpoint. `endpoint_again_blank`: a blank in front of a
    fragment comes to stand at its end.
-/
import Vitals.Channel.Uri
import Vitals.Config
import Vitals.Proofs.Text.Blank
import Vitals.Proofs.Text.Case

namespace Vitals

namespace Channel

open Text

variable {c : Char} {cs before before' rest rest' part stops target s : List Char}
  {scheme : Scheme} {url e : String}

/-! ## The first separator -/

/-- What stands between the scheme of a URL and the rest of it. -/
def separator : List Char := [':', '/', '/']

/-- These two parts of a text stand in front of its first separator and behind it. -/
structure Divides (before rest cs : List Char) : Prop where
  eq : cs = before ++ separator ++ rest
  first : ∀ before' rest', cs = before' ++ separator ++ rest' → before.length ≤ before'.length

namespace Divides

theorem unique (h : Divides before rest cs) (h' : Divides before' rest' cs) :
    before = before' ∧ rest = rest' := by
  have hlen := Nat.le_antisymm (h.first _ _ h'.eq) (h'.first _ _ h.eq)
  have heq := h.eq.symm.trans h'.eq
  rw [List.append_assoc, List.append_assoc] at heq
  obtain ⟨hbefore, hrest⟩ := List.append_inj heq hlen
  exact ⟨hbefore, List.append_cancel_left hrest⟩

theorem nil (rest : List Char) : Divides [] rest (separator ++ rest) :=
  ⟨rfl, fun _ _ _ => Nat.zero_le _⟩

theorem cons (h : Divides before rest cs) (hc : ¬ separator <+: c :: cs) :
    Divides (c :: before) rest (c :: cs) := by
  refine ⟨by rw [h.eq]; rfl, fun before' rest' heq => ?_⟩
  cases before' with
  | nil => exact absurd ⟨rest', heq.symm⟩ hc
  | cons c' before' => exact Nat.succ_le_succ (h.first before' rest' (List.cons.inj heq).2)

theorem of_cons (h : Divides before rest (c :: cs)) (hc : ¬ separator <+: c :: cs) :
    ∃ before', before = c :: before' ∧ Divides before' rest cs := by
  cases before with
  | nil => exact absurd ⟨rest, h.eq.symm⟩ hc
  | cons c' before' =>
    obtain ⟨rfl, heq⟩ := List.cons.inj h.eq
    refine ⟨before', rfl, heq, fun before'' rest'' heq' => ?_⟩
    exact Nat.le_of_succ_le_succ (h.first (c :: before'') rest'' (by rw [heq']; rfl))

/-- Behind a text without a colon a separator is the first one. -/
theorem of_notMem (h : ':' ∉ before) (rest : List Char) :
    Divides before rest (before ++ separator ++ rest) := by
  induction before with
  | nil => exact nil rest
  | cons c before ih =>
    rw [List.mem_cons, not_or] at h
    refine (ih h.2).cons fun hprefix => h.1 ?_
    exact (List.cons_prefix_cons.1 hprefix).1

end Divides

theorem splitScheme?_cons (c : Char) (cs : List Char) : splitScheme? (c :: cs) =
    if separator.isPrefixOf (c :: cs) then some ([], cs.drop 2)
    else (splitScheme? cs).map fun (before, after) => (c :: before, after) := rfl

theorem splitScheme?_eq_some_iff :
    splitScheme? cs = some (before, rest) ↔ Divides before rest cs := by
  induction cs generalizing before with
  | nil =>
    constructor
    · intro h
      cases h
    · intro h
      exact absurd h.eq (by simp [separator])
  | cons c cs ih =>
    rw [splitScheme?_cons]
    by_cases hc : separator <+: c :: cs
    · rw [if_pos (List.isPrefixOf_iff_prefix.2 hc)]
      obtain ⟨tail, htail⟩ := hc
      have hcut : cs.drop 2 = tail := by
        rw [← (List.cons.inj htail).2]
        rfl
      rw [hcut, ← htail, Option.some.injEq, Prod.mk.injEq]
      constructor
      · rintro ⟨rfl, rfl⟩
        exact .nil tail
      · exact fun h => (Divides.nil tail).unique h
    · rw [if_neg fun h => hc (List.isPrefixOf_iff_prefix.1 h), Option.map_eq_some_iff]
      constructor
      · rintro ⟨⟨before', rest'⟩, hsplit, heq⟩
        obtain ⟨rfl, rfl⟩ := Prod.mk.inj heq
        exact (ih.1 hsplit).cons hc
      · intro h
        obtain ⟨before', rfl, h'⟩ := h.of_cons hc
        exact ⟨(before', rest), ih.2 h', rfl⟩

/-! ## Characters that end a part -/

/-- A part of a text reaches up to the first of some characters, or to the end. -/
structure UpTo (stops part cs : List Char) : Prop where
  inside : ∀ c ∈ part, c ∉ stops
  ends : ∃ tail, cs = part ++ tail ∧ ∀ c, tail.head? = some c → c ∈ stops

theorem upTo_iff : UpTo stops part cs ↔ part = cs.takeWhile (· ∉ stops) := by
  constructor
  · rintro ⟨hinside, tail, rfl, htail⟩
    rw [List.takeWhile_append_of_pos fun c hc => decide_eq_true (hinside c hc)]
    cases tail with
    | nil => simp
    | cons c tail => simp [htail c rfl]
  · rintro rfl
    refine ⟨fun c hc => by simpa using List.mem_takeWhile_imp hc, _,
      List.takeWhile_append_dropWhile.symm, fun c hc => ?_⟩
    have hnot := List.head?_dropWhile_not (· ∉ stops) cs
    rw [hc] at hnot
    simpa using hnot

/-! ## Schemes -/

/-- The name of a scheme on the web. -/
def Scheme.webName : Scheme → String
  | plain => "http" | secure => "https"

/-- A text is a name of a scheme, on the web or in endpoints, in letters of any case. -/
def Scheme.Spelled (scheme : Scheme) (s : List Char) : Prop :=
  AnyCase s scheme.webName.toList ∨ AnyCase s scheme.name.toList

theorem Scheme.ofText?_eq_some_iff : Scheme.ofText? s = some scheme ↔ scheme.Spelled s := by
  have hweb : scheme.webName.toList.all Char.isLower = true := by cases scheme <;> rfl
  have hname : scheme.name.toList.all Char.isLower = true := by cases scheme <;> rfl
  rw [Spelled, ← map_toLower_eq_iff (List.all_eq_true.1 hweb),
    ← map_toLower_eq_iff (List.all_eq_true.1 hname), ofText?]
  generalize s.map Char.toLower = lower
  have hapart : lower = "https".toList ∨ lower = "wss".toList →
      ¬ (lower = "http".toList ∨ lower = "ws".toList) := by
    rintro (rfl | rfl) <;> decide
  show (if lower = "http".toList ∨ lower = "ws".toList then some plain
    else if lower = "https".toList ∨ lower = "wss".toList then some secure else none) =
      some scheme ↔ _
  cases scheme with
  | plain =>
    split
    case isTrue h => exact iff_of_true rfl h
    case isFalse h => exact iff_of_false (by split <;> simp) h
  | secure =>
    split
    case isTrue h => exact iff_of_false (by simp) fun h' => hapart h' h
    case isFalse h =>
      split
      case isTrue h' => exact iff_of_true rfl h'
      case isFalse h' => exact iff_of_false (by simp) h'

theorem Scheme.colon_notMem_name (scheme : Scheme) : ':' ∉ scheme.name.toList := by
  cases scheme <;> decide

/-! ## URLs that name a channel -/

/-- A URL, but for the blanks at its ends, begins with a scheme and the first separator, and goes on
with something that does not start with a slash. -/
structure Names (url : String) (scheme : Scheme) (rest : List Char) : Prop where
  divides : ∃ before, Divides before rest (trim url).toList ∧ scheme.Spelled before
  ne_nil : rest ≠ []
  head : rest.head? ≠ some '/'

/-- **A URL has an endpoint if it names a channel.** -/
theorem endpointOfUrl_eq_ok_iff : endpointOfUrl url = .ok e ↔
    ∃ scheme rest, Names url scheme rest ∧ e = endpointText scheme rest := by
  unfold endpointOfUrl
  constructor
  · intro h
    dsimp only at h
    split at h
    · cases h
    next before _ hsplit =>
    split at h
    · cases h
    · cases h
    · cases h
    next rest _ _ scheme hscheme hne hhead =>
    refine ⟨scheme, rest, ⟨⟨before, splitScheme?_eq_some_iff.1 hsplit,
      Scheme.ofText?_eq_some_iff.1 hscheme⟩, hne, fun hslash => ?_⟩, (Except.ok.inj h).symm⟩
    obtain ⟨tail, htail⟩ := List.head?_eq_some_iff.1 hslash
    exact hhead tail htail
  · rintro ⟨scheme, rest, ⟨⟨before, hdivides, hspelled⟩, hne, hhead⟩, rfl⟩
    dsimp only
    rw [splitScheme?_eq_some_iff.2 hdivides]
    dsimp only
    rw [Scheme.ofText?_eq_some_iff.2 hspelled]
    cases rest with
    | nil => exact absurd rfl hne
    | cons c rest =>
      split
      · contradiction
      · contradiction
      next heq =>
        exact absurd (by rw [heq]; rfl) hhead
      next heq _ _ =>
        rw [Option.some.inj heq]

/-! ## The form of endpoints -/

/-- A part of a URL with a query: `ws`, unless it has one of its own. -/
def withQuery (part : List Char) : List Char := part ++ if '?' ∈ part then [] else ['?', 'w', 's']

theorem query_mem_withQuery (part : List Char) : '?' ∈ withQuery part := by
  unfold withQuery
  split <;> simp [*]

theorem fragment_notMem_withQuery (h : '#' ∉ part) : '#' ∉ withQuery part := by
  unfold withQuery
  split <;> simp [h]

theorem head?_withQuery (h : part.head? ≠ some '/') : (withQuery part).head? ≠ some '/' := by
  cases part with
  | nil => decide
  | cons c part => exact h

theorem withQuery_of_mem (h : '?' ∈ part) : withQuery part = part := by
  rw [withQuery, if_pos h, List.append_nil]

theorem toList_endpointText (h : UpTo ['#'] part rest) : (endpointText scheme rest).toList =
    scheme.name.toList ++ separator ++ withQuery part := by
  have hpart : rest.takeWhile (· ≠ '#') = part := by
    rw [upTo_iff.1 h]
    simp
  unfold endpointText withQuery
  rw [hpart]
  by_cases hquery : '?' ∈ part <;> simp [hquery, separator, toString]

/-- What is put behind a part does not end with a blank. -/
theorem forall_getLast?_withQuery :
    (∀ c, (withQuery part).getLast? = some c → isBlank c = false) ↔
      ('?' ∈ part → ∀ c, part.getLast? = some c → isBlank c = false) := by
  unfold withQuery
  split
  case isTrue h => simp [h]
  case isFalse h =>
    refine iff_of_true (fun c hc => ?_) fun hmem => absurd hmem h
    rw [List.getLast?_append] at hc
    cases hc
    decide

/-- An endpoint: the name of its scheme, a separator, and a target with a query, without a fragment,
that does not start with a slash. -/
structure Derived (scheme : Scheme) (target : List Char) (e : String) : Prop where
  eq : e.toList = scheme.name.toList ++ separator ++ target
  query : '?' ∈ target
  fragment : '#' ∉ target
  head : target.head? ≠ some '/'

theorem Names.derived (h : Names url scheme rest) (hpart : UpTo ['#'] part rest) :
    Derived scheme (withQuery part) (endpointText scheme rest) where
  eq := toList_endpointText hpart
  query := query_mem_withQuery part
  fragment := fragment_notMem_withQuery fun hmem => hpart.inside _ hmem (List.mem_singleton.2 rfl)
  head := head?_withQuery fun hslash => by
    obtain ⟨tail, rfl, -⟩ := hpart.ends
    exact h.head (by rw [List.head?_append, hslash]; rfl)

/-- An endpoint keeps what stands in front of the fragment of its URL. -/
theorem derived_of_ok (h : endpointOfUrl url = .ok e) : ∃ scheme rest part,
    Names url scheme rest ∧ UpTo ['#'] part rest ∧ Derived scheme (withQuery part) e := by
  obtain ⟨scheme, rest, hnames, rfl⟩ := endpointOfUrl_eq_ok_iff.1 h
  have hpart : UpTo ['#'] (rest.takeWhile (· ∉ ['#'])) rest := upTo_iff.2 rfl
  exact ⟨scheme, rest, _, hnames, hpart, hnames.derived hpart⟩

namespace Derived

/-- An endpoint begins with something that is not blank, so only its target is trimmed. -/
theorem toList_trim (h : Derived scheme target e) : (trim e).toList =
    scheme.name.toList ++ separator ++ target.rdropWhile isBlank := by
  rw [Text.toList_trim, h.eq]
  cases scheme <;> exact trimChars_append (by decide) h.query (by decide)

theorem trimmed (h : Derived scheme target e) :
    Derived scheme (target.rdropWhile isBlank) (trim e) := by
  obtain ⟨blanks, hcut⟩ := List.rdropWhile_prefix isBlank target
  refine ⟨h.toList_trim, mem_rdropWhile h.query (by decide), fun hmem => ?_, fun hslash => ?_⟩
  · exact h.fragment (hcut ▸ List.mem_append_left _ hmem)
  · exact h.head (by rw [← hcut, List.head?_append, hslash]; rfl)

theorem divides (h : Derived scheme target e) : Divides scheme.name.toList target e.toList := by
  rw [h.eq]
  exact .of_notMem scheme.colon_notMem_name target

theorem names (h : Derived scheme target e) : Names e scheme (target.rdropWhile isBlank) where
  divides := ⟨_, h.trimmed.divides, Or.inr (List.forall₂_same.2 fun _ _ => Or.inl rfl)⟩
  ne_nil := List.ne_nil_of_mem h.trimmed.query
  head := h.trimmed.head

/-- **An endpoint is the endpoint of itself, but for the blanks at its end.** -/
theorem endpointOfUrl_eq (h : Derived scheme target e) : endpointOfUrl e = .ok (trim e) := by
  refine endpointOfUrl_eq_ok_iff.2 ⟨scheme, _, h.names, String.toList_inj.1 ?_⟩
  have hpart : UpTo ['#'] (target.rdropWhile isBlank) (target.rdropWhile isBlank) :=
    ⟨fun c hc hstop => h.trimmed.fragment (List.mem_singleton.1 hstop ▸ hc), [], by simp⟩
  rw [toList_endpointText hpart, withQuery_of_mem h.trimmed.query, h.toList_trim]

theorem trim_eq_self_iff (h : Derived scheme target e) :
    trim e = e ↔ ∀ c, target.getLast? = some c → isBlank c = false := by
  have hne : target ≠ [] := List.ne_nil_of_mem h.query
  rw [← String.toList_inj, h.toList_trim, h.eq, List.append_cancel_left_eq,
    List.rdropWhile_eq_self_iff]
  constructor
  · intro hlast c hc
    rw [List.getLast?_eq_some_getLast hne] at hc
    exact Option.some.inj hc ▸ eq_false_of_ne_true (hlast hne)
  · intro hlast _
    rw [hlast _ (List.getLast?_eq_some_getLast hne)]
    exact Bool.false_ne_true

theorem secure_prefix_iff (h : Derived scheme target e) :
    "wss://".toList <+: e.toList ↔ scheme = .secure := by
  rw [h.eq]
  cases scheme
  · exact iff_of_false (fun h => by simp [Scheme.name, separator] at h) (by decide)
  · exact iff_of_true ⟨target, rfl⟩ rfl

theorem plain_prefix_iff (h : Derived scheme target e) :
    "ws://".toList <+: e.toList ↔ scheme = .plain := by
  rw [h.eq]
  cases scheme
  · exact iff_of_true ⟨target, rfl⟩ rfl
  · exact iff_of_false (fun h => by simp [Scheme.name, separator] at h) (by decide)

theorem fragment_notMem (h : Derived scheme target e) : '#' ∉ e.toList := by
  have hname : '#' ∉ scheme.name.toList ++ separator := by cases scheme <;> decide
  rw [h.eq, List.mem_append]
  exact fun hmem => hmem.elim hname h.fragment

theorem query_mem (h : Derived scheme target e) : '?' ∈ e.toList := by
  rw [h.eq]
  exact List.mem_append_right _ h.query

end Derived

/-! ## The whole derivation -/

theorem dial?_eq_tlsUnsupported_iff {e' : String} :
    dial? e = some (.tlsUnsupported e') ↔ "wss://".toList <+: e.toList ∧ e' = e := by
  rw [← List.isPrefixOf_iff_prefix]
  change _ ↔ isSecure e = true ∧ e' = e
  unfold dial?
  split
  case isTrue h => simp [h, eq_comm]
  case isFalse h => simp [h]

end Channel

open Channel Text

/-- **The endpoint of a URL.** A URL, but for the blanks at its ends, has one exactly if it begins
with one of the four schemes and a separator, and goes on with something that does not start with a
slash. The endpoint keeps all in front of a fragment and has a query. It is refused as encrypted,
before anything is dialed, exactly if the scheme of the URL was a secure one. -/
theorem endpoint_shape (url : String) :
    ((∃ e, endpointOfUrl url = .ok e) ↔ ∃ scheme rest, Names url scheme rest) ∧
    ∀ scheme rest, Names url scheme rest → ∃ e part,
      endpointOfUrl url = .ok e ∧ (∀ c : Config, c.url = url → c.endpoint = .ok e) ∧
      UpTo ['#'] part rest ∧
      e.toList = scheme.name.toList ++ separator ++ withQuery part ∧
      ("wss://".toList <+: e.toList ↔ scheme = .secure) ∧
      ("ws://".toList <+: e.toList ↔ scheme = .plain) ∧
      '#' ∉ e.toList ∧ '?' ∈ e.toList ∧
      ∀ e', dial? e = some (.tlsUnsupported e') ↔ scheme = .secure ∧ e' = e := by
  constructor
  · constructor
    · rintro ⟨e, h⟩
      obtain ⟨scheme, rest, hnames, -⟩ := endpointOfUrl_eq_ok_iff.1 h
      exact ⟨scheme, rest, hnames⟩
    · rintro ⟨scheme, rest, hnames⟩
      exact ⟨_, endpointOfUrl_eq_ok_iff.2 ⟨scheme, rest, hnames, rfl⟩⟩
  · intro scheme rest hnames
    have hok := endpointOfUrl_eq_ok_iff.2 ⟨scheme, rest, hnames, rfl⟩
    have hpart : UpTo ['#'] (rest.takeWhile (· ∉ ['#'])) rest := upTo_iff.2 rfl
    have hderived := hnames.derived hpart
    refine ⟨_, _, hok, fun c hc => ?_, hpart, hderived.eq, hderived.secure_prefix_iff,
      hderived.plain_prefix_iff, hderived.fragment_notMem, hderived.query_mem, fun e' => ?_⟩
    · rw [Config.endpoint, hc, hok]
    · rw [dial?_eq_tlsUnsupported_iff, hderived.secure_prefix_iff]

theorem endpoint_shape_secure :
    let rest := "h://x/#y?z".toList
    Names " HttpS://h://x/#y?z" .secure rest ∧
      ∃ e part, endpointOfUrl " HttpS://h://x/#y?z" = .ok e ∧ UpTo ['#'] part rest ∧
        dial? e = some (.tlsUnsupported e) := by
  have hnames : Names " HttpS://h://x/#y?z" .secure "h://x/#y?z".toList := by
    refine ⟨⟨"HttpS".toList, splitScheme?_eq_some_iff.1 (by cbv), ?_⟩, by decide, by decide⟩
    exact Scheme.ofText?_eq_some_iff.1 (by decide)
  obtain ⟨e, part, hok, -, hpart, -, -, -, -, -, htls⟩ := (endpoint_shape _).2 _ _ hnames
  exact ⟨hnames, e, part, hok, hpart, (htls e).2 ⟨rfl, rfl⟩⟩

/-- **The endpoint of an endpoint** is the endpoint without the blanks at its end. It is the endpoint
itself unless the URL has a query and a blank right in front of its fragment, as blanks are trimmed
before the fragment is dropped. -/
theorem endpoint_again {url e : String} (h : endpointOfUrl url = .ok e) :
    endpointOfUrl e = .ok (trim e) ∧ endpointOfUrl (trim e) = .ok (trim e) ∧
    (∀ c : Config, ({ c with url := e } : Config).endpoint = .ok (trim e)) ∧
    ∃ scheme rest part, Names url scheme rest ∧ UpTo ['#'] part rest ∧
      (endpointOfUrl e = .ok e ↔
        ('?' ∈ part → ∀ c, part.getLast? = some c → isBlank c = false)) := by
  obtain ⟨scheme, rest, part, hnames, hpart, hderived⟩ := derived_of_ok h
  have hagain := hderived.endpointOfUrl_eq
  refine ⟨hagain, ?_, fun c => ?_, scheme, rest, part, hnames, hpart, ?_⟩
  · rw [hderived.trimmed.endpointOfUrl_eq, trim_trim]
  · rw [Config.endpoint, hagain]
  · rw [hagain, Except.ok.injEq, hderived.trim_eq_self_iff, forall_getLast?_withQuery]

theorem endpoint_again_twice :
    endpointOfUrl "\tHTTPS://h:1/?x?\n #y?z " = .ok "wss://h:1/?x?\n " ∧
      endpointOfUrl "wss://h:1/?x?\n " = .ok (trim "wss://h:1/?x?\n ") ∧
      endpointOfUrl (trim "wss://h:1/?x?\n ") = .ok (trim "wss://h:1/?x?\n ") := by
  have h : endpointOfUrl "\tHTTPS://h:1/?x?\n #y?z " = .ok "wss://h:1/?x?\n " := rfl
  obtain ⟨hagain, htwice, -⟩ := endpoint_again h
  exact ⟨h, hagain, htwice⟩

/-- The blank in front of the fragment is the end of the endpoint, and gets lost on the way back. -/
theorem endpoint_again_blank :
    endpointOfUrl "http://h?x #y" = .ok "ws://h?x " ∧
      endpointOfUrl "ws://h?x " = .ok "ws://h?x" := ⟨rfl, rfl⟩

end Vitals
