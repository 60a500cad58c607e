import Kusanya.Model.Credentials
import Kusanya.Model.RequestContext
import Kusanya.Model.Throttle

/-!
# Users, second factors and backup codes

`apps.accounts.models`, `totp` and `mfa_services`, and what Django's login form does with the
tables: a bound form that is asked for its errors checks the credentials.

HMACs, password hashes and the cleaning of form fields are `Setting`, a parameter.
-/

namespace Kusanya.Accounts

open ReadCommitted Support Api

/-! ## Tables -/

structure User where
  id : ℕ
  email : Text
  /-- The encoded hash. -/
  password : Text
  isActive : Bool
  isStaff : Bool
  deriving DecidableEq

structure MFADevice where
  id : ℕ
  user : ℕ
  secret : Text
  confirmed : Bool
  lastUsedAt : Option Time
  deriving DecidableEq

structure BackupCode where
  id : ℕ
  user : ℕ
  lookupHash : Text
  usedAt : Option Time
  deriving DecidableEq

/-- An audit row about an account. -/
structure AccountAudit where
  action : String
  actor : Option ℕ
  target : Option ℕ
  /-- The e-mail address in the metadata. -/
  email : Text
  ipAddress : Option Text
  userAgent : Text
  correlationId : Text
  deriving DecidableEq

/-- The rows with the newest backup codes first, as their ordering has them. -/
structure Tables where
  users : List User
  devices : List MFADevice
  backupCodes : List BackupCode
  auditLog : List AccountAudit
  deriving DecidableEq

namespace Tables

def updateUser (t : Tables) (id : ℕ) (f : User → User) : Tables :=
  { t with users := t.users.map fun row => if row.id = id then f row else row }

def updateDevice (t : Tables) (id : ℕ) (f : MFADevice → MFADevice) : Tables :=
  { t with devices := t.devices.map fun row => if row.id = id then f row else row }

def updateCode (t : Tables) (id : ℕ) (f : BackupCode → BackupCode) : Tables :=
  { t with backupCodes := t.backupCodes.map fun row => if row.id = id then f row else row }

/-- `DELETE … WHERE user_id = user`, of the rows that the statement found. -/
def deleteCodes (t : Tables) (user : ℕ) (found : List ℕ) : Tables :=
  { t with backupCodes := t.backupCodes.filter fun row => !(row.user = user && row.id ∈ found) }

/-- `MFADevice.objects.filter(user=user, confirmed=True).first()`. -/
def confirmedDevice (t : Tables) (user : ℕ) : Option MFADevice :=
  t.devices.find? fun row => row.user = user && row.confirmed

/-- `BackupCode.objects.filter(user=user, lookup_hash=…, used_at__isnull=True).first()`. -/
def unusedCode (t : Tables) (user : ℕ) (lookupHash : Text) : Option BackupCode :=
  t.backupCodes.find? fun row =>
    row.user = user && row.lookupHash = lookupHash && row.usedAt.isNone

/-- The rows of `BackupCode.objects.filter(user=user)`. -/
def codeIds (t : Tables) (user : ℕ) : List ℕ :=
  (t.backupCodes.filter (·.user = user)).map (·.id)

end Tables

/-- What the code takes from Django, from the standard library and from its settings. -/
structure Setting where
  /-- `str.lower()` and `str.upper()`. -/
  lower : Text → Text
  upper : Text → Text
  /-- `str.isdigit()`, character by character. -/
  isDigit : Char → Bool
  /-- The `EmailField` of the login form; `none` where it has an error. -/
  cleanEmail : Text → Option Text
  /-- The username field of the admin's login form. -/
  cleanUsername : Text → Option Text
  /-- `check_password(password, encoded)`. -/
  checkPassword : Text → Text → Bool
  /-- The hash that a right password is saved with where the encoding is out of date. -/
  rehash : Text → Text → Option Text
  /-- `get_session_auth_hash`, of the encoded password. -/
  sessionHash : Text → Text
  /-- `_hotp`. -/
  hotp : Text → ℕ → Text
  /-- HMAC-SHA256 under `SECRET_KEY`. -/
  hmac : Text → Text
  /-- The texts that an `inet` column takes. -/
  isAddress : Text → Bool

/-! ## Programs -/

inductive AccountError where
  /-- A value that its column does not take. -/
  | dataError
  /-- A client address that cannot be read. -/
  | valueError
  /-- A save with `update_fields` that found no row. -/
  | databaseError
  | integrityError
  /-- `compare_digest` on text that is not ASCII. -/
  | typeError
  deriving DecidableEq

inductive AccountKey where
  | user (id : ℕ)
  | email (email : Text)
  | device (user : ℕ)
  | unusedCode (user : ℕ) (lookupHash : Text)
  | backupCodes (user : ℕ)
  | backupCode (id : ℕ)
  deriving DecidableEq

/-- What no rollback takes back: an evaluated `authenticate(username, password)`, and what is
written to the cache. -/
inductive AccountCall where
  | attempt (username password : Text)
  | recordFailure (scope : Scope) (identifier : String)
  | reset (scope : Scope) (identifier : String)
  deriving DecidableEq

/-- The cache after the call. -/
def AccountCall.onCache (now : Time) (cache : Cache) : AccountCall → Cache
  | attempt _ _ => cache
  | recordFailure scope identifier => Accounts.recordFailure cache now scope identifier
  | reset scope identifier => Accounts.reset cache scope identifier

/-- A program over the account tables. -/
abbrev AccountTx := Txn Tables AccountKey AccountError AccountCall

/-- `record_audit_event`. -/
def recordAccountEvent (setting : Setting) (context : RequestContext) (action : String)
    (actor target : Option ℕ) (email : Text) : AccountTx Unit :=
  if context.Auditable setting.isAddress then
    .modify fun t =>
      { t with
        auditLog := t.auditLog ++
          [{ action, actor, target, email
             ipAddress := context.storedAddress
             userAgent := context.userAgent
             correlationId := context.correlationId }] }
  else .throw (context.refusal setting.isAddress .valueError .dataError)

/-! ## Passwords -/

/-- `ModelBackend.authenticate`, with the hash that a right password brings up to date, and the
receiver of `user_login_failed`. -/
def authenticate (setting : Setting) (context : RequestContext) (username password : Text) :
    AccountTx (Option User) := do
  Txn.invoke (.attempt username password)
  match ← Txn.fetch (.email username) fun t => t.users.find? (·.email = username) with
  | none => do
      recordAccountEvent setting context "auth.login_failed" none none username
      pure none
  | some user =>
      if setting.checkPassword password user.password then do
        match setting.rehash password user.password with
        | none => pure ()
        | some encoded => .modify (·.updateUser user.id fun row => { row with password := encoded })
        if user.isActive then
          pure (some { user with
            password := (setting.rehash password user.password).getD user.password })
        else do
          recordAccountEvent setting context "auth.login_failed" none none username
          pure none
      else do
        recordAccountEvent setting context "auth.login_failed" none none username
        pure none

/-- `CharField(strip=False)`: neither empty nor with a null character. -/
def validPassword (password : Text) : Bool :=
  !password.isEmpty && !password.contains (Char.ofNat 0)

/-- A bound `AuthenticationForm` whose errors have been asked for. -/
structure LoginForm where
  usernameInvalid : Bool
  passwordInvalid : Bool
  nonFieldErrors : List String
  user : Option User
  deriving DecidableEq

/-- How the login form and that of the admin differ: the field of the username, whom
`confirm_login_allowed` lets in, and the `invalid_login` message. -/
structure FormKind where
  clean : Text → Option Text
  allowed : User → Bool
  invalidLogin : String

/-- `EmailAuthenticationForm`. -/
def emailForm (setting : Setting) : FormKind where
  clean := setting.cleanEmail
  allowed _ := true
  invalidLogin :=
    "Please enter a correct email and password. Note that both fields may be case-sensitive."

/-- `AdminAuthenticationForm`. -/
def adminForm (setting : Setting) : FormKind where
  clean := setting.cleanUsername
  allowed user := user.isStaff
  invalidLogin :=
    "Please enter the correct email and password for a staff account. Note that both fields " ++
      "may be case-sensitive."

/-- `full_clean()`. -/
def fullClean (setting : Setting) (context : RequestContext) (kind : FormKind)
    (username password : Text) : AccountTx LoginForm :=
  match kind.clean username with
  | none =>
      pure
        { usernameInvalid := true
          passwordInvalid := !validPassword password
          nonFieldErrors := []
          user := none }
  | some username =>
      if validPassword password then do
        let user ← authenticate setting context username password
        pure
          { usernameInvalid := false
            passwordInvalid := false
            nonFieldErrors :=
              if (user.filter kind.allowed).isSome then [] else [kind.invalidLogin]
            user := user.filter kind.allowed }
      else pure
        { usernameInvalid := false
          passwordInvalid := true
          nonFieldErrors := []
          user := none }

/-! ## TOTP -/

def periodSeconds : ℕ := 30

/-- `verify_totp`; the clock is past its first period. -/
def verifyTotp (setting : Setting) (now : Time) (secret code : Text) : AccountTx Bool :=
  let code := strip code
  if code.isEmpty || !code.all setting.isDigit then pure false
  else if code.any fun c => 128 ≤ c.toNat then .throw .typeError
  else
    let counter := now / 10 ^ 6 / periodSeconds
    pure ([counter - 1, counter, counter + 1].any fun n => setting.hotp secret n = code)

/-! ## Backup codes -/

/-- `_looks_like_backup_code`. -/
def looksLikeBackupCode (setting : Setting) (raw : Text) : Bool :=
  let normalized := setting.upper (strip raw)
  let symbol : Char → Bool := fun c => ('A' ≤ c && c ≤ 'Z') || ('0' ≤ c && c ≤ '9')
  normalized.length = 11 && (normalized.take 5).all symbol && normalized[5]? = some '-' &&
    (normalized.drop 6).all symbol

/-- `_backup_code_lookup_hash`. -/
def backupCodeLookupHash (setting : Setting) (raw : Text) : Text :=
  setting.hmac (setting.upper (strip raw))

/-- `BackupCode.mark_used`: a save with `update_fields` raises where its row is gone. -/
def BackupCode.markUsed (now : Time) (backup : BackupCode) : AccountTx Unit := do
  Txn.acquire (.backupCode backup.id)
  let found ← Txn.fetch (.backupCode backup.id) fun t => t.backupCodes.any (·.id = backup.id)
  if found then .modify (·.updateCode backup.id fun row => { row with usedAt := some now })
  else .throw .databaseError

/-- `consume_backup_code`; the code that it used where the source returns `True`. -/
def consumeBackupCode (setting : Setting) (context : RequestContext) (now : Time) (user : User)
    (raw : Text) : AccountTx (Option BackupCode) :=
  if raw.isEmpty || !looksLikeBackupCode setting raw then pure none
  else do
    let lookupHash := backupCodeLookupHash setting raw
    match ← Txn.fetch (.unusedCode user.id lookupHash) (·.unusedCode user.id lookupHash) with
    | none => pure none
    | some backup => do
        backup.markUsed now
        recordAccountEvent setting context "mfa.backup_code_used" (some user.id) (some backup.id) []
        pure (some backup)

/-- A raw code and the key of its row, as they are drawn. -/
structure DrawnCode where
  id : ℕ
  raw : Text
  deriving DecidableEq

/-- The rows of a new set. -/
def newCodes (setting : Setting) (user : ℕ) (drawn : List DrawnCode) : List BackupCode :=
  drawn.map fun code =>
    { id := code.id
      user
      lookupHash := backupCodeLookupHash setting code.raw
      usedAt := none }

/-- `BackupCode.objects.filter(user=user).delete()`: the rows found by the statement. -/
def deleteBackupCodes (user : ℕ) : AccountTx Unit := do
  let found ← Txn.fetch (.backupCodes user) (·.codeIds user)
  found.forM fun id => Txn.acquire (.backupCode id)
  Txn.modify (·.deleteCodes user found)

/-- `generate_backup_codes`. -/
def generateBackupCodes (setting : Setting) (context : RequestContext) (user : User)
    (drawn : List DrawnCode) : AccountTx Unit := do
  deleteBackupCodes user.id
  Txn.modify fun t => { t with backupCodes := newCodes setting user.id drawn ++ t.backupCodes }
  recordAccountEvent setting context "mfa.backup_codes_generated" (some user.id) none user.email

/-- `disable_mfa`. -/
def disableMfa (setting : Setting) (context : RequestContext) (user : User) :
    AccountTx Unit := do
  Txn.modify fun t => { t with devices := t.devices.filter (·.user ≠ user.id) }
  deleteBackupCodes user.id
  recordAccountEvent setting context "mfa.disabled" (some user.id) none user.email

/-- `confirm_device`. -/
def confirmDevice (setting : Setting) (context : RequestContext) (now : Time) (user : User)
    (device : MFADevice) (code : Text) : AccountTx Bool := do
  let verified ← verifyTotp setting now device.secret code
  if verified then do
    Txn.modify (·.updateDevice device.id fun row => { row with confirmed := true })
    recordAccountEvent setting context "mfa.enabled" (some user.id) (some device.id) []
    pure true
  else pure false

/-! ## A setting to evaluate with -/

/-- Readable stand-ins: a hash is the text behind a `#`, an e-mail address has an `@`, and the
code of every period is `000000`. -/
def plainSetting : Setting where
  lower text := text.map Char.toLower
  upper text := text.map Char.toUpper
  isDigit := Char.isDigit
  cleanEmail text := if '@' ∈ strip text then some (strip text) else none
  cleanUsername text := if text = [] then none else some text
  checkPassword password encoded := encoded = '#' :: password
  rehash _ _ := none
  sessionHash encoded := '#' :: encoded
  hotp _ _ := List.replicate 6 '0'
  hmac text := '#' :: text
  isAddress := dottedAddress

/-- A request without a proxy. -/
def plainContext : RequestContext :=
  { correlationId := ['1'], ipAddress := some "127.0.0.1".toList, userAgent := [] }

end Kusanya.Accounts
