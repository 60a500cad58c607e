import Kusanya.Model.Accounts

/-!
# Logging in

`apps.accounts.views`, `apps.accounts.portal_views`, the registration of an institution and the
login of Django's admin: the views that read or write who a browser session is logged in as.
Whatever else the site serves may change the tables, not that.
-/

namespace Kusanya.Accounts

open ReadCommitted Support Api

/-! ## Sessions -/

/-- The keys of a session that the views use. -/
structure Session where
  /-- `mfa_pending_user_id`. -/
  pendingUser : Option ℕ
  /-- `_auth_user_id` and `_auth_user_hash`. -/
  authUser : Option ℕ
  authHash : Text
  deriving DecidableEq

/-- The session after `flush()`. -/
def Session.empty : Session := { pendingUser := none, authUser := none, authHash := [] }

/-- `request.user`: a session whose hash is not the user's any more is flushed. -/
def Session.user (setting : Setting) (tables : Tables) (session : Session) :
    Session × Option User :=
  match session.authUser.bind fun id => tables.users.find? (·.id = id) with
  | none => (session, none)
  | some user =>
      if user.isActive then
        if session.authHash = setting.sessionHash user.password then (session, some user)
        else (.empty, none)
      else (session, none)

/-- `login()`: the session of another user is flushed first. -/
def Session.login (setting : Setting) (session : Session) (user : User) : Session :=
  let hash := setting.sessionHash user.password
  let kept := match session.authUser with
    | none => session
    | some id => if id = user.id && session.authHash = hash then session else .empty
  { kept with authUser := some user.id, authHash := hash }

/-! ## Responses -/

/-- The rendered `accounts/login.html`. -/
structure LoginPage where
  messages : List String
  username : Text
  /-- `aria-invalid` on the two inputs. -/
  usernameInvalid : Bool
  passwordInvalid : Bool
  nonFieldErrors : List String
  deriving DecidableEq

inductive Response where
  | redirect (route : String)
  | loginPage (page : LoginPage)
  | page (template : String) (messages : List String)
  deriving DecidableEq

/-- What a view leaves besides the tables and the cache. -/
structure Answer where
  response : Response
  session : Session

/-- The page of a bound form. -/
def LoginForm.page (form : LoginForm) (messages : List String) (username : Text) : Response :=
  .loginPage
    { messages, username
      usernameInvalid := form.usernameInvalid
      passwordInvalid := form.passwordInvalid
      nonFieldErrors := form.nonFieldErrors }

/-! ## The views before a login -/

/-- `_login_throttle_identifier`. -/
def loginThrottleIdentifier (setting : Setting) (context : RequestContext) (username : Text) :
    String :=
  (context.storedAddress.map String.ofList).getD "unknown" ++ ":" ++
    String.ofList (setting.lower (strip username))

/-- The fields of a login POST. -/
structure LoginPost where
  now : Time
  context : RequestContext
  username : Text
  password : Text

/-- `EmailLoginView.post`, from `dispatch` on.  The page of a locked-out login shows the errors
of its form. -/
def emailLoginPost (setting : Setting) (cache : Cache) (session : Session)
    (current : Option User) (post : LoginPost) : AccountTx Answer :=
  let identifier := loginThrottleIdentifier setting post.context post.username
  if current.isSome then
    pure { response := .redirect "core:dashboard-router", session }
  else if isLockedOut cache post.now .login identifier then do
    let form ← fullClean setting post.context (emailForm setting) post.username post.password
    pure
      { response := form.page
          ["Too many failed sign-in attempts. Please try again in a few minutes."] post.username
        session }
  else do
    let form ← fullClean setting post.context (emailForm setting) post.username post.password
    match form.user with
    | none => do
        Txn.invoke (.recordFailure .login identifier)
        pure { response := form.page [] post.username, session }
    | some user => do
        Txn.invoke (.reset .login identifier)
        match ← Txn.fetch (.device user.id) (·.confirmedDevice user.id) with
        | some _ =>
            pure
              { response := .redirect "accounts:mfa-verify"
                session := { session with pendingUser := some user.id } }
        | none => do
            recordAccountEvent setting post.context "auth.login" (some user.id) none []
            pure
              { response := .redirect "core:dashboard-router"
                session := session.login setting user }

/-- The login page of `admin.site`. -/
def adminLoginPost (setting : Setting) (session : Session) (post : LoginPost) :
    AccountTx Answer := do
  let form ← fullClean setting post.context (adminForm setting) post.username post.password
  match form.user with
  | none => pure { response := form.page [] post.username, session }
  | some user => do
      recordAccountEvent setting post.context "auth.login" (some user.id) none []
      pure { response := .redirect "admin:index", session := session.login setting user }

/-- `device.save(update_fields=["last_used_at", …])`. -/
def MFADevice.saveLastUsed (now : Time) (device : MFADevice) : AccountTx Unit := do
  let found ← Txn.fetch (.device device.user) fun t => t.devices.any (·.id = device.id)
  if found then .modify (·.updateDevice device.id fun row => { row with lastUsedAt := some now })
  else .throw .databaseError

/-- The throttle's identifier for the codes of a user. -/
def mfaIdentifier (user : User) : String := toString user.id

/-- What comes of a code: the user, and the backup code if it was one. -/
structure Verified where
  user : User
  backup : Option BackupCode

/-- `device is not None and verify_totp(device.secret, code)`. -/
def verifyDevice (setting : Setting) (now : Time) (device : Option MFADevice) (code : Text) :
    AccountTx Bool :=
  match device with
  | none => pure false
  | some device => verifyTotp setting now device.secret code

/-- `if not verified: verified = consume_backup_code(user, code)`. -/
def consumeUnless (setting : Setting) (context : RequestContext) (now : Time) (user : User)
    (code : Text) (verified : Bool) : AccountTx (Option BackupCode) :=
  if verified then pure none else consumeBackupCode setting context now user code

/-- The audit row of the login, and `last_used_at` of the device. -/
def recordVerified (setting : Setting) (context : RequestContext) (now : Time) (user : User)
    (device : Option MFADevice) : AccountTx Unit := do
  recordAccountEvent setting context "auth.login" (some user.id) none []
  match device with
  | none => pure ()
  | some device => device.saveLastUsed now

/-- `mfa_verify` between its lock check and its response. -/
def verifyCode (setting : Setting) (context : RequestContext) (now : Time) (user : User)
    (code : Text) : AccountTx (Option Verified) := do
  let device ← Txn.fetch (.device user.id) (·.confirmedDevice user.id)
  let accepted ← verifyDevice setting now device (strip code)
  let backup ← consumeUnless setting context now user (strip code) accepted
  if accepted || backup.isSome then do
    Txn.invoke (.reset .mfa (mfaIdentifier user))
    recordVerified setting context now user device
    pure (some { user, backup })
  else pure none

/-- `mfa_verify`; a GET has no code. -/
def mfaVerify (setting : Setting) (context : RequestContext) (now : Time) (cache : Cache)
    (session : Session) (code : Option Text) : AccountTx Answer :=
  match session.pendingUser with
  | none => pure { response := .redirect "accounts:login", session }
  | some id => do
      match ← Txn.fetch (.user id) fun t => t.users.find? (·.id = id) with
      | none =>
          pure
            { response := .redirect "accounts:login"
              session := { session with pendingUser := none } }
      | some user =>
          match code with
          | none => pure { response := .page "accounts/mfa_verify.html" [], session }
          | some code =>
              if isLockedOut cache now .mfa (mfaIdentifier user) then
                pure
                  { response := .page "accounts/mfa_verify.html"
                      ["Too many failed codes. Please sign in again in a few minutes."]
                    session }
              else do
                match ← verifyCode setting context now user code with
                | none => do
                    Txn.invoke (.recordFailure .mfa (mfaIdentifier user))
                    pure
                      { response := .page "accounts/mfa_verify.html" ["Invalid code."]
                        session }
                | some _ =>
                    pure
                      { response := .redirect "core:dashboard-router"
                        session := { session with pendingUser := none }.login setting user }

/-- `onboard`, with the row of the first administrator; its e-mail address must be free. -/
def onboard (setting : Setting) (context : RequestContext) (session : Session) (user : User) :
    AccountTx Answer := do
  Txn.acquire (.user user.id)
  Txn.acquire (.email user.email)
  let taken ← Txn.fetch (.email user.email) fun t =>
    t.users.any fun row => row.id = user.id || row.email = user.email
  if taken then .throw .integrityError
  else do
    Txn.modify fun t => { t with users := t.users ++ [user] }
    recordAccountEvent setting context "auth.login" (some user.id) none []
    pure
      { response := .redirect "core:dashboard-router", session := session.login setting user }

/-- `KusanyaLogoutView`. -/
def logout (setting : Setting) (context : RequestContext) (current : Option User) :
    AccountTx Answer := do
  recordAccountEvent setting context "auth.logout" (current.map (·.id)) none []
  pure { response := .redirect "accounts:login", session := .empty }

/-! ## The views of a logged-in user -/

/-- `@login_required`. -/
def loginRequired (session : Session) (current : Option User)
    (view : User → AccountTx Response) : AccountTx Answer :=
  match current with
  | none => pure { response := .redirect "accounts:login", session }
  | some user => do
      let response ← view user
      pure { response, session }

/-- What a request draws: the key and the secret of a new device, and a set of codes. -/
structure MfaDraw where
  device : ℕ
  secret : Text
  codes : List DrawnCode

/-- `MFADevice.objects.get_or_create(user=request.user)`. -/
def getOrCreateDevice (draw : MfaDraw) (user : User) : AccountTx MFADevice := do
  match ← Txn.fetch (.device user.id) fun t => t.devices.find? (·.user = user.id) with
  | some device => pure device
  | none => do
      let device : MFADevice :=
        { id := draw.device
          user := user.id
          secret := draw.secret
          confirmed := false
          lastUsedAt := none }
      Txn.acquire (.device user.id)
      Txn.modify fun t => { t with devices := t.devices ++ [device] }
      pure device

/-- `mfa_setup`; a GET has no code. -/
def mfaSetup (setting : Setting) (context : RequestContext) (now : Time) (draw : MfaDraw)
    (code : Option Text) (user : User) : AccountTx Response := do
  match ← Txn.fetch (.device user.id) (·.confirmedDevice user.id) with
  | some _ => pure (.redirect "accounts:mfa-status")
  | none => do
      let device ← getOrCreateDevice draw user
      match code with
      | none => pure (.page "accounts/mfa_setup.html" [])
      | some code => do
          let confirmed ← confirmDevice setting context now user device (strip code)
          if confirmed then do
            generateBackupCodes setting context user draw.codes
            pure (.page "accounts/mfa_backup_codes.html" [])
          else pure (.page "accounts/mfa_setup.html"
            ["That code didn't verify — check your authenticator app and try again."])

/-- `mfa_disable`, POST. -/
def mfaDisable (setting : Setting) (context : RequestContext) (user : User) :
    AccountTx Response := do
  disableMfa setting context user
  pure (.redirect "accounts:mfa-status")

/-- `mfa_regenerate_backup_codes`, POST. -/
def mfaRegenerateBackupCodes (setting : Setting) (context : RequestContext) (draw : MfaDraw)
    (user : User) : AccountTx Response := do
  match ← Txn.fetch (.device user.id) (·.confirmedDevice user.id) with
  | none => pure (.redirect "accounts:mfa-status")
  | some _ => do
      generateBackupCodes setting context user draw.codes
      pure (.page "accounts/mfa_backup_codes.html" [])

/-! ## The site -/

/-- What a browser asks for.  `elsewhere` is every other route, with what it does to the account
tables; `passwordChange` is that of the admin, which keeps its session. -/
inductive Route where
  | login (username password : Text)
  | adminLogin (username password : Text)
  | mfaVerify (code : Option Text)
  | onboard (user : User)
  | logout
  | mfaSetup (draw : MfaDraw) (code : Option Text)
  | mfaDisable
  | mfaRegenerateBackupCodes (draw : MfaDraw)
  | passwordChange (encoded : Text)
  | elsewhere (effect : Tables → Tables)

/-- A request of the browser with this session. -/
structure Visit where
  now : Time
  context : RequestContext
  session : ℕ
  route : Route

/-- The view that a route leads to. -/
def Route.view (setting : Setting) (context : RequestContext) (now : Time) (cache : Cache)
    (session : Session) (current : Option User) : Route → AccountTx Answer
  | login username password =>
      emailLoginPost setting cache session current { now, context, username, password }
  | adminLogin username password =>
      adminLoginPost setting session { now, context, username, password }
  | mfaVerify code => Accounts.mfaVerify setting context now cache session code
  | onboard user => Accounts.onboard setting context session user
  | logout => Accounts.logout setting context current
  | mfaSetup draw code =>
      loginRequired session current (Accounts.mfaSetup setting context now draw code)
  | mfaDisable => loginRequired session current (Accounts.mfaDisable setting context)
  | mfaRegenerateBackupCodes draw =>
      loginRequired session current (Accounts.mfaRegenerateBackupCodes setting context draw)
  | passwordChange encoded =>
      match current with
      | none => pure { response := .redirect "admin:login", session }
      | some user => do
          Txn.modify (·.updateUser user.id fun row => { row with password := encoded })
          pure
            { response := .redirect "admin:password_change_done"
              session := { session with authHash := setting.sessionHash encoded } }
  | elsewhere effect => do
      Txn.modify effect
      pure { response := .page "" [], session }

/-- The database, the cache and the sessions of all browsers. -/
structure Site where
  tables : Tables
  cache : Cache
  sessions : ℕ → Session

/-- One request; a view that raises leaves the tables alone, and the session as it found it, but
not the cache. -/
def Site.visit (setting : Setting) (site : Site) (visit : Visit) : Site :=
  let (session, current) := (site.sessions visit.session).user setting site.tables
  let view := visit.route.view setting visit.context visit.now site.cache session current
  let cache := (view.calls site.tables).foldl (AccountCall.onCache visit.now) site.cache
  match view.exec site.tables with
  | .ok (answer, tables) =>
      { tables, cache
        sessions := Function.update site.sessions visit.session answer.session }
  | .error _ =>
      { site with
        cache
        sessions := Function.update site.sessions visit.session session }

/-- The site when the requests have been served. -/
def Site.serve (setting : Setting) (site : Site) (visits : List Visit) : Site :=
  visits.foldl (Site.visit setting) site

end Kusanya.Accounts
