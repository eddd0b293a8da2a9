/-
  The hosts that endpoints name.

  * `authority e`: what names the host of an endpoint.
  * `Derived.dial?_of_authority`: an endpoint that names no host is refused before it is dialed.
  * `endpoint_host`: a configuration is not refused for such an endpoint. `endpoint_host_missing`: it
    comes of a query or a fragment right behind the scheme.
-/
import Vitals.Proofs.Channel.Endpoint

namespace Vitals

open Text

namespace Channel

variable {rest part target : List Char} {scheme : Scheme} {e : String}

/-- What names the host of an endpoint: all between its first separator and the next slash or
question mark. -/
def authority (e : String) : List Char :=
  match splitScheme? e.toList with
  | some (_, target) => target.takeWhile (· ∉ ['/', '?'])
  | none => []

theorem Derived.authority_eq_nil_iff (h : Derived scheme target e) :
    authority e = [] ↔ target.head? = some '?' := by
  have heq : authority e = target.takeWhile (· ∉ ['/', '?']) := by
    rw [authority, splitScheme?_eq_some_iff.2 h.divides]
  obtain ⟨c, target, rfl⟩ := List.exists_cons_of_ne_nil (List.ne_nil_of_mem h.query)
  have hslash : c ≠ '/' := fun hc => h.head (congrArg some hc)
  by_cases hc : c = '?' <;> simp [heq, hslash, hc]

theorem head?_withQuery_eq_query_iff (hpart : UpTo ['#'] part rest) (hne : rest ≠ []) :
    (withQuery part).head? = some '?' ↔ rest.head? = some '?' ∨ rest.head? = some '#' := by
  obtain ⟨c, rest, rfl⟩ := List.exists_cons_of_ne_nil hne
  rw [upTo_iff.1 hpart]
  by_cases hc : c = '#'
  · simp [withQuery, hc]
  · simp [withQuery, hc]

theorem Uri.splitScheme_name (scheme : Scheme) (target : List Char) :
    Uri.splitScheme (scheme.name.toList ++ separator ++ target) =
      .ok (some scheme.name.toList, target) := by
  have hcolon : Uri.isSchemeChar ':' = false := by simp [Uri.isSchemeChar]
  have hname : Uri.isSchemeChar 'w' = true ∧ Uri.isSchemeChar 's' = true := by decide
  cases scheme <;>
    simp [Uri.splitScheme, Scheme.name, separator, hcolon, hname, Uri.maxSchemeLength]

/-- An endpoint that names no host is no URI. -/
theorem Derived.ofText_of_authority (h : Derived scheme target e) (hhost : authority e = []) :
    ∃ fault, Uri.ofText e = .error fault := by
  obtain ⟨tail, rfl⟩ := List.head?_eq_some_iff.1 (h.authority_eq_nil_iff.1 hhost)
  have hsplit := Uri.splitScheme_name scheme ('?' :: tail)
  obtain ⟨c, cs, hcs⟩ : ∃ c cs, scheme.name.toList ++ separator ++ '?' :: tail = 'w' :: c :: cs := by
    cases scheme <;> exact ⟨_, _, rfl⟩
  have hcheck : Uri.checkAuthority [] = .ok () := rfl
  rw [hcs] at hsplit
  unfold Uri.ofText
  rw [h.eq, hcs]
  dsimp only
  split
  · exact ⟨_, rfl⟩
  · simp [hsplit, hcheck, Uri.endsAuthority, bind, Except.bind]

/-- An endpoint that names no host is refused before it is dialed. -/
theorem Derived.dial?_of_authority (h : Derived scheme target e) (hhost : authority e = []) :
    ∃ failure, dial? e = some failure := by
  obtain ⟨fault, hfault⟩ := h.ofText_of_authority hhost
  unfold dial?
  split
  · exact ⟨_, rfl⟩
  · simp [dialError?, hfault]

/-- A URL that names a channel is more than blanks. -/
theorem Names.trim_ne {url : String} (h : Names url scheme rest) : trim url ≠ "" := by
  obtain ⟨before, hdivides, -⟩ := h.divides
  intro hblank
  have heq := hdivides.eq
  rw [hblank] at heq
  simp [separator] at heq

end Channel

open Channel

/-- **A configuration has no fault in its URL exactly if the URL has an endpoint.** -/
theorem Config.url_faultless_iff (c : Config) :
    (∀ fault, c.fault? = some fault → fault.setting ≠ "connection.url") ↔
      ∃ e, endpointOfUrl c.url = .ok e := by
  unfold fault?
  split
  case isTrue hblank =>
    refine iff_of_false (fun h => h _ rfl rfl) ?_
    rintro ⟨e, h⟩
    obtain ⟨scheme, rest, hnames, -⟩ := endpointOfUrl_eq_ok_iff.1 h
    exact hnames.trim_ne hblank
  case isFalse =>
    cases endpointOfUrl c.url with
    | error failure => exact iff_of_false (fun h => h _ rfl rfl) (by simp)
    | ok e =>
      refine iff_of_true (fun fault h => ?_) ⟨e, rfl⟩
      dsimp only at h
      split_ifs at h <;> cases h <;> decide

/-- **The host of an endpoint.** A configuration has no fault in its URL exactly if the URL has an
endpoint. The endpoint names a host unless a query or a fragment stands right behind the separator of
the URL; without a host it is refused only when it is to be dialed. -/
theorem endpoint_host (c : Config) :
    ((∀ fault, c.fault? = some fault → fault.setting ≠ "connection.url") ↔
      ∃ e, endpointOfUrl c.url = .ok e) ∧
    ∀ e, endpointOfUrl c.url = .ok e → ∃ scheme rest, Names c.url scheme rest ∧
      (authority e = [] ↔ rest.head? = some '?' ∨ rest.head? = some '#') ∧
      (authority e = [] → ∃ failure, dial? e = some failure) := by
  refine ⟨c.url_faultless_iff, fun e h => ?_⟩
  obtain ⟨scheme, rest, part, hnames, hpart, hderived⟩ := derived_of_ok h
  refine ⟨scheme, rest, hnames, ?_, hderived.dial?_of_authority⟩
  rw [hderived.authority_eq_nil_iff, head?_withQuery_eq_query_iff hpart hnames.ne_nil]

theorem endpoint_host_named :
    let c : Config := { Config.usual with url := "http://h/#?" }
    endpointOfUrl c.url = .ok "ws://h/?ws" ∧ ∃ scheme rest, Names c.url scheme rest ∧
      (authority "ws://h/?ws" = [] ↔ rest.head? = some '?' ∨ rest.head? = some '#') := by
  intro c
  have h : endpointOfUrl "http://h/#?" = .ok "ws://h/?ws" := rfl
  obtain ⟨scheme, rest, hnames, hhost, -⟩ := (endpoint_host c).2 _ h
  exact ⟨h, scheme, rest, hnames, hhost⟩

/-- A URL of a scheme and a fragment is accepted, and its endpoint names no host. -/
theorem endpoint_host_missing :
    let c : Config := { Config.usual with url := "http://#top" }
    c.fault? = none ∧ endpointOfUrl c.url = .ok "ws://?ws" ∧ authority "ws://?ws" = [] :=
  ⟨rfl, rfl, rfl⟩

end Vitals
