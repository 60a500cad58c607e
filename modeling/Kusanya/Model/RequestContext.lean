import Kusanya.Support.Text

/-!
# What a request leaves in its rows

`CorrelationIdMiddleware` and `AuditContextMiddleware` take a correlation id, an address and a user
agent from the headers of a request, and every row that is written on the side holds them as they
are.
-/

namespace Kusanya

open Support

/-- `request.headers.get(name, "")`; names are compared without their case. -/
def headerOf (headers : List (String × String)) (name : String) : Text :=
  ((headers.find? fun field =>
    field.1.toList.map Char.toLower = name.toList.map Char.toLower).map (·.2.toList)).getD []

/-- `get_correlation_id()` and `get_request_context()`. -/
structure RequestContext where
  correlationId : Text
  ipAddress : Option Text
  userAgent : Text
  deriving DecidableEq

namespace RequestContext

/-- `CorrelationIdMiddleware` and `client_ip_from_request`; `drawn` is `new_correlation_id()` and
`remoteAddress` is `REMOTE_ADDR`. -/
def ofHeaders (headers : List (String × String)) (drawn : Text) (remoteAddress : Option Text) :
    RequestContext :=
  let correlationId := headerOf headers "X-Correlation-ID"
  let forwardedFor := headerOf headers "X-Forwarded-For"
  { correlationId := if correlationId = [] then drawn else correlationId
    ipAddress :=
      if forwardedFor = [] then remoteAddress
      else some (strip (forwardedFor.takeWhile (· ≠ ',')))
    userAgent := headerOf headers "User-Agent" }

/-- The address is null, blank, which is stored as null, or one that `ipaddress.ip_address` reads
and the `inet` column takes; `isAddress` says which texts these are. -/
def HasAddress (isAddress : Text → Bool) (context : RequestContext) : Prop :=
  ∀ ip ∈ context.ipAddress, ip = [] ∨ isAddress ip = true

instance (isAddress : Text → Bool) (context : RequestContext) :
    Decidable (context.HasAddress isAddress) :=
  inferInstanceAs (Decidable (∀ ip ∈ context.ipAddress, _))

/-- The columns of an audit row take the context: the correlation id is a `varchar(64)`, the user
agent a `text`. -/
def Auditable (isAddress : Text → Bool) (context : RequestContext) : Prop :=
  Text.Fits 64 context.correlationId ∧ context.HasAddress isAddress ∧ '\x00' ∉ context.userAgent

instance (isAddress : Text → Bool) (context : RequestContext) :
    Decidable (context.Auditable isAddress) := inferInstanceAs (Decidable (_ ∧ _ ∧ _))

/-- What the insert of an audit row raises where its columns do not take the context: an address
that cannot be read is a `ValueError`, before the statement is sent. -/
def refusal {ε : Type} (isAddress : Text → Bool) (context : RequestContext)
    (valueError dataError : ε) : ε :=
  if context.HasAddress isAddress then dataError else valueError

/-- What the `inet` column holds of the address. -/
def storedAddress (context : RequestContext) : Option Text := context.ipAddress.filter (· ≠ [])

end RequestContext

/-- A readable stand-in for the type `inet`. -/
def dottedAddress (text : Text) : Bool := text.all fun c => c.isDigit || c = '.'

end Kusanya
