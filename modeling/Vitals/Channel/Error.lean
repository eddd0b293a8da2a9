/-
  What can go wrong with an admin channel.
-/
namespace Vitals.Channel

/-- Why a channel could not be opened or used. -/
inductive Error where
  /-- The URL does not name an admin channel. -/
  | invalidEndpoint (url : String)
  /-- The endpoint asks for an encrypted channel. -/
  | tlsUnsupported (endpoint : String)
  | connect (endpoint reason : String)
  | send (reason : String)
  | receive (reason : String)
  /-- The channel is already closed. -/
  | closed
  deriving DecidableEq, Repr

/-- The wording of an error. -/
def Error.message : Error → String
  | invalidEndpoint url => s!"invalid endpoint '{url}': expected an http, https, ws or wss URL"
  | tlsUnsupported endpoint => s!"TLS endpoints are not supported by this connector: {endpoint}"
  | connect endpoint reason => s!"failed to connect to {endpoint}: {reason}"
  | send reason => s!"send failed: {reason}"
  | receive reason => s!"receive failed: {reason}"
  | closed => "channel closed"

end Vitals.Channel
