/-
  The endpoint of an admin channel, derived from the URL of the server.

  A URL is accepted when it has one of four schemes, in any ASCII case, and something behind the
  `://` that does not start with a slash. Web schemes become channel schemes; a fragment is dropped,
  since it never reaches the server; a URL without a query gets the query `ws`.
-/
import Vitals.Channel.Error
import Vitals.Text.Blank

namespace Vitals.Channel

/-- Whether a channel is encrypted. -/
inductive Scheme where
  | plain | secure
  deriving DecidableEq, Repr

namespace Scheme

/-- The name of a scheme in endpoints. -/
def name : Scheme → String
  | plain => "ws" | secure => "wss"

/-- The scheme of a URL, from what stands before its `://`. -/
def ofText? (s : List Char) : Option Scheme :=
  let lower := s.map Char.toLower
  if lower = "http".toList ∨ lower = "ws".toList then some plain
  else if lower = "https".toList ∨ lower = "wss".toList then some secure
  else none

end Scheme

/-- What stands before the first `://` of a text, and what stands behind it. -/
def splitScheme? : List Char → Option (List Char × List Char)
  | [] => none
  | c :: cs =>
    if [':', '/', '/'].isPrefixOf (c :: cs) then some ([], cs.drop 2)
    else (splitScheme? cs).map fun (before, after) => (c :: before, after)

/-- The endpoint of a scheme and of what stands behind the `://` of a URL. -/
def endpointText (scheme : Scheme) (rest : List Char) : String :=
  let rest := rest.takeWhile (· ≠ '#')
  let query := if rest.contains '?' then "" else "?ws"
  s!"{scheme.name}://{String.ofList rest}{query}"

/-- The endpoint of the admin channel of the server at a URL. -/
def endpointOfUrl (url : String) : Except Error String :=
  let url := Text.trim url
  match splitScheme? url.toList with
  | none => .error (.invalidEndpoint url)
  | some (before, rest) =>
    match Scheme.ofText? before, rest with
    | none, _ => .error (.invalidEndpoint url)
    | some _, [] => .error (.invalidEndpoint url)
    | some _, '/' :: _ => .error (.invalidEndpoint url)
    | some scheme, rest => .ok (endpointText scheme rest)

end Vitals.Channel
