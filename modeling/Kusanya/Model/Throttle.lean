import Kusanya.Model.Vocabulary
import Mathlib.Logic.Function.Basic

/-!
# Lockout of logins and MFA codes

`apps.accounts.throttle` over Django's cache, and the steps in which a login POST or an MFA
code POST uses it: the lock check, the credential check, the read and the write of
`record_failure`, and `reset`.  Times are in microseconds.
-/

namespace Kusanya.Accounts

/-! ## The cache -/

/-- A value and the time from which it is gone. -/
structure CacheEntry where
  value : ℕ
  expires : Time
  deriving DecidableEq

abbrev Cache := String → Option CacheEntry

/-- `cache.get(key, 0)`. -/
def Cache.get (cache : Cache) (now : Time) (key : String) : ℕ :=
  match cache key with
  | none => 0
  | some entry => if now < entry.expires then entry.value else 0

/-- `cache.set(key, value, timeout=timeout)`. -/
def Cache.set (cache : Cache) (now : Time) (key : String) (value timeout : ℕ) : Cache :=
  Function.update cache key (some { value, expires := now + timeout })

/-- `cache.delete(key)`. -/
def Cache.delete (cache : Cache) (key : String) : Cache :=
  Function.update cache key none

/-! ## The throttle -/

def maxAttempts : ℕ := 5

/-- `LOCKOUT_SECONDS`. -/
def lockout : Time := 15 * 60 * 10 ^ 6

/-- The two places that throttle. -/
inductive Scope where
  | login | mfa
  deriving DecidableEq

def Scope.text : Scope → String
  | login => "login"
  | mfa => "mfa"

/-- `_key`. -/
def throttleKey (scope : Scope) (identifier : String) : String :=
  "auth_throttle:" ++ scope.text ++ ":" ++ identifier

def isLockedOut (cache : Cache) (now : Time) (scope : Scope) (identifier : String) : Bool :=
  maxAttempts ≤ cache.get now (throttleKey scope identifier)

/-- `record_failure` up to its write: the count that it is going to write. -/
def nextCount (cache : Cache) (now : Time) (scope : Scope) (identifier : String) : ℕ :=
  cache.get now (throttleKey scope identifier) + 1

/-- The write of `record_failure`. -/
def writeCount (cache : Cache) (now : Time) (scope : Scope) (identifier : String) (count : ℕ) :
    Cache :=
  cache.set now (throttleKey scope identifier) count lockout

/-- `record_failure` with nothing in between. -/
def recordFailure (cache : Cache) (now : Time) (scope : Scope) (identifier : String) : Cache :=
  writeCount cache now scope identifier (nextCount cache now scope identifier)

def reset (cache : Cache) (scope : Scope) (identifier : String) : Cache :=
  cache.delete (throttleKey scope identifier)

/-! ## POSTs in flight -/

/-- How far a POST has come. -/
inductive Phase where
  /-- It has not reached `is_locked_out` yet. -/
  | posted
  /-- `is_locked_out` was false, the credentials are not checked yet. -/
  | admitted
  /-- A login that `is_locked_out` rejected, its page is not rendered yet. -/
  | locked
  /-- The credentials were refused, `record_failure` has not read the counter yet. -/
  | refused
  /-- `record_failure` has read the counter, and is going to write `count`. -/
  | counted (count : ℕ)
  /-- The credentials were right, `reset` is still to come. -/
  | verified
  | done
  deriving DecidableEq

/-- What a credential check comes to.  A form with an invalid field does not check, and
`verify_totp` raises on digits that are not ASCII. -/
inductive Verdict where
  | right | wrong | unchecked | raised
  deriving DecidableEq

/-- A credential check that was evaluated. -/
structure Check where
  time : Time
  succeeded : Bool
  deriving DecidableEq

/-- The POSTs of one identifier, and the credential checks so far, the newest first. -/
structure Lockout where
  now : Time
  cache : Cache
  posts : List Phase
  checks : List Check

/-- No POST yet, whatever the cache holds. -/
def Lockout.start (now : Time) (cache : Cache) : Lockout :=
  { now, cache, posts := [], checks := [] }

/-- A step of the clock, of the traffic on other keys, or of the POST with number `i`. -/
inductive LockoutStep where
  | tick (duration : ℕ)
  | elsewhere (key : String) (entry : Option CacheEntry)
  | post
  | lockCheck (i : ℕ)
  | credentialCheck (i : ℕ) (verdict : Verdict)
  | readCounter (i : ℕ)
  | writeCounter (i : ℕ)
  | resetCounter (i : ℕ)

namespace Lockout

/-- The POST with number `i` goes on to `phase`. -/
def advance (s : Lockout) (i : ℕ) (phase : Phase) : Lockout :=
  { s with posts := s.posts.set i phase }

/-- The credentials of the POST with number `i` were checked. -/
def checked (s : Lockout) (succeeded : Bool) : Lockout :=
  { s with checks := { time := s.now, succeeded } :: s.checks }

/-- The next step of the POSTs of one identifier; `none` where the step is not the next one.
A locked-out login renders its form, whose errors check the credentials once more; a
locked-out MFA code does not. -/
def step (scope : Scope) (identifier : String) (s : Lockout) : LockoutStep → Option Lockout
  | .tick duration => some { s with now := s.now + duration }
  | .elsewhere key entry =>
      if key = throttleKey scope identifier then none
      else some { s with cache := Function.update s.cache key entry }
  | .post => some { s with posts := s.posts ++ [.posted] }
  | .lockCheck i =>
      if s.posts[i]? = some .posted then
        if isLockedOut s.cache s.now scope identifier then
          some (s.advance i (if scope = .login then .locked else .done))
        else some (s.advance i .admitted)
      else none
  | .credentialCheck i verdict =>
      match s.posts[i]?, verdict with
      | some .admitted, .right => some ((s.checked true).advance i .verified)
      | some .admitted, .wrong => some ((s.checked false).advance i .refused)
      | some .admitted, .unchecked => some (s.advance i .refused)
      | some .admitted, .raised => some (s.advance i .done)
      | some .locked, .right => some ((s.checked true).advance i .done)
      | some .locked, .wrong => some ((s.checked false).advance i .done)
      | some .locked, _ => some (s.advance i .done)
      | _, _ => none
  | .readCounter i =>
      if s.posts[i]? = some .refused then
        some (s.advance i (.counted (nextCount s.cache s.now scope identifier)))
      else none
  | .writeCounter i =>
      match s.posts[i]? with
      | some (.counted count) =>
          some ({ s with cache := writeCount s.cache s.now scope identifier count }.advance i .done)
      | _ => none
  | .resetCounter i =>
      if s.posts[i]? = some .verified then
        some ({ s with cache := reset s.cache scope identifier }.advance i .done)
      else none

/-- Any number of steps. -/
def run (scope : Scope) (identifier : String) (s : Lockout) : List LockoutStep → Option Lockout
  | [] => some s
  | a :: as => (s.step scope identifier a).bind fun t => run scope identifier t as

/-- The failing checks since the last one that succeeded, less than `LOCKOUT_SECONDS` before
`time`. -/
def failuresWithin (s : Lockout) (time : Time) : List Check :=
  (s.checks.takeWhile fun check => !check.succeeded).filter fun check => time < check.time + lockout

/-- At most `MAX_ATTEMPTS` failing checks up to the newest one. -/
def Bounded (s : Lockout) : Prop :=
  ∀ time earlier, s.checks = { time, succeeded := false } :: earlier →
    (s.failuresWithin time).length ≤ maxAttempts

end Lockout

end Kusanya.Accounts
