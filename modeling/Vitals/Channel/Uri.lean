/-
  The part of URI syntax that decides whether a channel can be dialed at all.

  A URI that is not just a path has an optional scheme, an authority, and a path with an optional
  query. `Uri.ofText` takes it apart or says what is wrong with it. Bytes matter, not characters:
  what is not ASCII is refused in an authority and let pass in a path.
-/
import Vitals.Channel.Error
import Vitals.Text.Utf8

namespace Vitals.Channel

/-- What is wrong with a URI. -/
inductive UriError where
  | empty | tooLong | schemeTooLong | invalidFormat | invalidCharacter | invalidAuthority
  deriving DecidableEq, Repr

/-- The wording of a URI error. -/
def UriError.message : UriError → String
  | empty => "empty string"
  | tooLong => "uri too long"
  | schemeTooLong => "scheme too long"
  | invalidFormat => "invalid format"
  | invalidCharacter => "invalid uri character"
  | invalidAuthority => "invalid authority"

/-- A URI taken apart. -/
structure Uri where
  scheme : Option (List Char)
  /-- What names the host, if anything does. -/
  authority : Option (List Char)
  deriving DecidableEq, Repr

namespace Uri

/-- The longest URI, in bytes. -/
def maxLength : Nat := 65534

/-- The longest scheme. -/
def maxSchemeLength : Nat := 64

/-- Characters of a scheme. -/
def isSchemeChar (c : Char) : Bool := c.isAlphanum || "+-.~".contains c

/-- Characters of an authority, those with a meaning of their own included. -/
def isAuthorityChar (c : Char) : Bool := c.isAlphanum || "!$&'()*+,;=-._~:@[]%".contains c

/-- Characters of a path. -/
def isPathChar (c : Char) : Bool :=
  c.toNat == 0x21 || (0x24 ≤ c.toNat && c.toNat ≤ 0x3B) || c.toNat == 0x3D ||
    (0x40 ≤ c.toNat && c.toNat ≤ 0x5F) || (0x61 ≤ c.toNat && c.toNat ≤ 0x7A) || c.toNat == 0x7C ||
    c.toNat == 0x7E || 0x80 ≤ c.toNat || c == '"' || c == '\x7b' || c == '\x7d'

/-- Characters of a query. -/
def isQueryChar (c : Char) : Bool :=
  c.toNat == 0x21 || (0x24 ≤ c.toNat && c.toNat ≤ 0x3B) || c.toNat == 0x3D ||
    (0x3F ≤ c.toNat && c.toNat != 0x7F)

/-- A scheme and what stands behind its `://`. A bare `://` has no scheme, not even an empty one. -/
def splitScheme (cs : List Char) : Except UriError (Option (List Char) × List Char) :=
  let scheme := cs.takeWhile isSchemeChar
  match cs.dropWhile isSchemeChar with
  | ':' :: '/' :: '/' :: rest =>
    if scheme.isEmpty && rest.isEmpty then .ok (none, cs)
    else if maxSchemeLength < scheme.length then .error .schemeTooLong
    else .ok (some scheme, rest)
  | _ => .ok (none, cs)

/-- Where an authority ends. -/
def endsAuthority (c : Char) : Bool := c == '/' || c == '?' || c == '#'

/-- What an authority has shown so far. A user's name in front, and an address in brackets, hide
their colons and percent signs. -/
structure Scan where
  colons : Nat
  opened : Bool
  closed : Bool
  percent : Bool
  /-- Whether the last character ended a user's name. -/
  afterAt : Bool
  deriving DecidableEq, Repr

/-- Takes in one character of an authority. -/
def Scan.step (s : Scan) (c : Char) : Except UriError Scan :=
  let s' := { s with afterAt := false }
  if !isAuthorityChar c then .error .invalidCharacter
  else if c = ':' then
    if 8 ≤ s.colons then .error .invalidAuthority else .ok { s' with colons := s.colons + 1 }
  else if c = '[' then
    if s.percent || s.opened then .error .invalidAuthority else .ok { s' with opened := true }
  else if c = ']' then
    if !s.opened || s.closed then .error .invalidAuthority
    else .ok { s' with closed := true, colons := 0, percent := false }
  else if c = '@' then .ok { s with afterAt := true, colons := 0, percent := false }
  else if c = '%' then .ok { s' with percent := true }
  else .ok s'

/-- Judges an authority as a whole. -/
def Scan.finish (s : Scan) : Except UriError Unit :=
  if s.opened != s.closed || 1 < s.colons || s.afterAt || s.percent then .error .invalidAuthority
  else .ok ()

/-- Judges an authority. -/
def checkAuthority (cs : List Char) : Except UriError Unit := do
  let s ← cs.foldlM Scan.step ⟨0, false, false, false, false⟩
  s.finish

/-- Judges a path and its query, up to a fragment. -/
def checkPath (cs : List Char) : Except UriError Unit :=
  let path := cs.takeWhile fun c => c != '?' && c != '#'
  let query := (cs.dropWhile fun c => c != '?' && c != '#').takeWhile (· != '#')
  if path.all isPathChar && query.all isQueryChar then .ok () else .error .invalidCharacter

/-- Takes a URI apart. -/
def ofText (text : String) : Except UriError Uri :=
  let cs := text.toList
  if maxLength < (Text.encode text).length then .error .tooLong
  else
    match cs with
    | [] => .error .empty
    | ['*'] => .ok ⟨none, none⟩
    | ['?'] | ['#'] => .error .invalidCharacter
    | '/' :: _ => do
      checkPath cs
      .ok ⟨none, none⟩
    | _ => do
      let (scheme, rest) ← splitScheme cs
      if rest.isEmpty then .error .empty
      let authority := rest.takeWhile fun c => !endsAuthority c
      let path := rest.dropWhile fun c => !endsAuthority c
      checkAuthority authority
      match scheme with
      | none => if path.isEmpty then .ok ⟨none, some authority⟩ else .error .invalidFormat
      | some scheme =>
        if authority.isEmpty then .error .invalidFormat
        checkPath path
        .ok ⟨some scheme, some authority⟩

/-- What stands in an authority behind a user's name, if there is one. -/
def hostAndPort (authority : List Char) : List Char :=
  if authority.contains '@' then (authority.dropWhile (· != '@')).drop 1 else authority

/-- The number of a port, if it is one. -/
def portNumber? (cs : List Char) : Option Nat :=
  let digits := match cs with
    | '+' :: rest => rest
    | _ => cs
  if digits.isEmpty || !digits.all Char.isDigit then none
  else
    let n := digits.foldl (fun n c => n * 10 + (c.toNat - 48)) 0
    if n < 65536 then some n else none

/-- What stands behind the last colon of a text with a colon. -/
def afterLastColon? (cs : List Char) : Option (List Char) :=
  if cs.contains ':' then some (cs.reverse.takeWhile (· != ':')).reverse else none

/-- The port that an authority names. -/
def port? (u : Uri) : Option Nat := do
  let authority ← u.authority
  portNumber? (← afterLastColon? authority)

end Uri

/-- Why an endpoint is refused before anything is dialed. -/
inductive DialError where
  | malformed (e : UriError)
  | noHost
  | emptyHost
  | unsupportedScheme
  deriving DecidableEq, Repr

/-- The wording of a dial error. -/
def DialError.message : DialError → String
  | malformed e => s!"HTTP format error: {e.message}"
  | noHost => "URL error: No host name in the URL"
  | emptyHost => "URL error: URL contains empty host name"
  | unsupportedScheme => "URL error: URL scheme not supported"

/-- Why an endpoint cannot be dialed, if so: it is malformed, it names no host, or neither its
scheme nor itself names a port. -/
def dialError? (endpoint : String) : Option DialError :=
  match Uri.ofText endpoint with
  | .error e => some (.malformed e)
  | .ok u =>
    match u.authority with
    | none => some .noHost
    | some authority =>
      if (Uri.hostAndPort authority).isEmpty then some .emptyHost
      else if u.port?.isSome || u.scheme = some "ws".toList || u.scheme = some "wss".toList
      then none
      else some .unsupportedScheme

/-- Whether an endpoint asks for an encrypted channel. -/
def isSecure (endpoint : String) : Bool := "wss://".toList.isPrefixOf endpoint.toList

/-- Why an endpoint is refused without dialing, if so. Encrypted channels are refused whatever else
is wrong with the endpoint. -/
def dial? (endpoint : String) : Option Error :=
  if isSecure endpoint then some (.tlsUnsupported endpoint)
  else (dialError? endpoint).map fun e => .connect endpoint e.message

end Vitals.Channel
