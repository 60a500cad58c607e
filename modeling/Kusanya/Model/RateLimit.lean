import Kusanya.Model.Credentials
import Kusanya.Model.Throttle

/-!
# The request rate limiter

`apps.core.ratelimit`: a counter for each client in Django's cache, set with a timeout by the
first request that finds none and increased by those that it lets pass.  A cache that fails
blocks nobody.  Times are in microseconds.
-/

namespace Kusanya.RateLimit

open Accounts Support Api

/-- What the middleware reads of a request. -/
structure WebRequest where
  path : Text
  /-- `request.user.pk`, where somebody is logged in. -/
  user : Option ℕ
  /-- `X-Forwarded-For`. -/
  forwardedFor : Option Text
  /-- `REMOTE_ADDR`. -/
  remoteAddr : Option Text

/-- `client_ip_from_request`. -/
def clientIp (request : WebRequest) : Option Text :=
  match request.forwardedFor with
  | some (c :: header) => some (strip ((c :: header).takeWhile (· ≠ ',')))
  | _ => request.remoteAddr

/-- `_client_key`. -/
def clientKey (request : WebRequest) : String :=
  match request.user, clientIp request with
  | some pk, _ => "user:" ++ toString pk
  | none, some (c :: ip) => "ip:" ++ String.ofList (c :: ip)
  | none, _ => "ip:unknown"

/-- The key of the client's counter. -/
def counterKey (request : WebRequest) : String := "request_rate_limit:" ++ clientKey request

/-- `cache.incr(key)`: `none` where it raises, because the key is gone.  The timeout stays. -/
def incr (cache : Cache) (now : Time) (key : String) : Option Cache :=
  match cache key with
  | none => none
  | some entry =>
      if now < entry.expires then
        some (Function.update cache key (some { entry with value := entry.value + 1 }))
      else none

/-- A request on its way through the middleware: when it reads and when it writes, and whether
the cache fails then. -/
structure Visit where
  request : WebRequest
  readAt : Time
  writeAt : Time
  readFails : Bool
  writeFails : Bool

def Visit.key (visit : Visit) : String := counterKey visit.request

inductive Answer where
  /-- `get_response(request)`. -/
  | passed
  /-- 429. -/
  | tooManyRequests
  deriving DecidableEq

/-- What became of a visit; `count` is what `cache.get` returned, `none` where it was not called
or raised. -/
structure Handled where
  visit : Visit
  count : Option ℕ
  answer : Answer

/-- `RequestRateLimitMiddleware` with its settings. -/
structure Middleware where
  limit : ℕ
  windowSeconds : ℕ
  exemptPrefixes : List Text

namespace Middleware

def window (m : Middleware) : Time := m.windowSeconds * 10 ^ 6

/-- `request.path.startswith(self.exempt_prefixes)`. -/
def exempts (m : Middleware) (path : Text) : Bool :=
  m.exemptPrefixes.any (·.isPrefixOf path)

/-- The counter after an admitted visit that read `count`. -/
def countVisit (m : Middleware) (cache : Cache) (visit : Visit) (count : ℕ) : Cache :=
  if visit.writeFails then cache
  else if count = 0 then cache.set visit.writeAt visit.key 1 m.window
  else (incr cache visit.writeAt visit.key).getD cache

/-- `__call__`. -/
def call (m : Middleware) (cache : Cache) (visit : Visit) : Handled × Cache :=
  if m.limit = 0 ∨ m.exempts visit.request.path = true then
    ({ visit, count := none, answer := .passed }, cache)
  else if visit.readFails then ({ visit, count := none, answer := .passed }, cache)
  else
    let count := cache.get visit.readAt visit.key
    if m.limit ≤ count then ({ visit, count := some count, answer := .tooManyRequests }, cache)
    else ({ visit, count := some count, answer := .passed }, m.countVisit cache visit count)

/-- What becomes of the visits, in the order in which they write. -/
def run (m : Middleware) (cache : Cache) : List Visit → List Handled
  | [] => []
  | visit :: rest => (m.call cache visit).1 :: run m (m.call cache visit).2 rest

end Middleware

end Kusanya.RateLimit
