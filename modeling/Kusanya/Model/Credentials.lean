import Kusanya.Model.RequestContext
import Kusanya.Model.Vocabulary
import Kusanya.ReadCommitted.Logic

/-!
# API credentials

`apps.api.models`, `apps.api.credential_services`, `apps.api.authentication` and the
credential views of the portal, over the two tables that they share.

A key id and a secret are written in the alphabet of `secrets.token_urlsafe`, which has
neither the dot that separates them nor white space; `Token` carries that.
-/

namespace Kusanya.Api

open ReadCommitted Support

/-! ## Texts -/

/-- `str.partition(".")`, without the separator; `none` where there is no dot. -/
def partitionDot : Text → Option (Text × Text)
  | [] => none
  | c :: rest =>
      if c = '.' then some ([], rest)
      else (partitionDot rest).map fun parts => (c :: parts.1, parts.2)

/-- The alphabet of `secrets.token_urlsafe` and of the key ids. -/
def isUrlSafe (c : Char) : Bool :=
  ('a' ≤ c && c ≤ 'z') || ('A' ≤ c && c ≤ 'Z') || ('0' ≤ c && c ≤ '9') || c = '-' || c = '_'

/-- A generated key id or secret. -/
structure Token where
  text : Text
  urlSafe : ∀ c ∈ text, isUrlSafe c = true
  deriving DecidableEq

/-! ## Tables -/

/-- `Tenant.Status`. -/
inductive TenantStatus where
  | pending | active | suspended | rejected
  deriving DecidableEq, Repr

/-- The columns of `Tenant` that authentication reads. -/
structure Institution where
  id : ℕ
  status : TenantStatus
  deriving DecidableEq

structure ApiCredential where
  id : ℕ
  tenant : ℕ
  keyId : Token
  secretHash : Text
  name : Text
  isActive : Bool
  createdBy : Option ℕ
  lastUsedAt : Option Time
  revokedAt : Option Time
  deriving DecidableEq

/-- An audit row about a credential. -/
structure CredentialAudit where
  action : String
  actor : Option ℕ
  tenant : ℕ
  target : ℕ
  keyId : Token
  ipAddress : Option Text
  userAgent : Text
  correlationId : Text
  deriving DecidableEq

structure Access where
  tenants : List Institution
  credentials : List ApiCredential
  auditLog : List CredentialAudit
  deriving DecidableEq

/-- `UPDATE api_apicredential … WHERE id = id`. -/
def Access.updateCredential (access : Access) (id : ℕ) (f : ApiCredential → ApiCredential) :
    Access :=
  { access with
    credentials := access.credentials.map fun row => if row.id = id then f row else row }

/-- `make_password` with a drawn salt and `check_password`, and the texts that an `inet` column
takes. -/
structure Hasher where
  isAddress : Text → Bool
  makePassword : Text → Text → Text
  checkPassword : Text → Text → Bool
  check_make : ∀ salt x y, checkPassword x (makePassword salt y) = true ↔ x = y

/-! ## Handlers -/

/-- The exceptions of this code; `authenticationFailed` carries its message. -/
inductive AccessError where
  /-- A value that its column does not take. -/
  | dataError
  /-- A client address that cannot be read. -/
  | valueError
  | integrityError
  | http404
  | authenticationFailed (message : String)
  deriving DecidableEq

inductive AccessKey where
  | tenant (id : ℕ)
  | credential (id : ℕ)
  | keyId (key : Text)
  | auditLog
  deriving DecidableEq

abbrev AccessTx := Txn Access AccessKey AccessError Empty

/-- What a call draws: `_generate_key_id`, `_generate_secret`, the salt of the hasher and
the clock, and the context of its request. -/
structure Draw where
  now : Time
  context : RequestContext
  actor : Option ℕ
  credentialId : ℕ
  keyId : Token
  secret : Token
  salt : Text
  deriving DecidableEq

/-- `record_audit_event`, for a credential. -/
def recordCredentialEvent (hasher : Hasher) (draw : Draw) (action : String)
    (credential : ApiCredential) : AccessTx Unit :=
  if draw.context.Auditable hasher.isAddress then
    .modify fun access =>
      { access with
        auditLog := access.auditLog ++
          [{ action
             actor := draw.actor
             tenant := credential.tenant
             target := credential.id
             keyId := credential.keyId
             ipAddress := draw.context.storedAddress
             userAgent := draw.context.userAgent
             correlationId := draw.context.correlationId }] }
  else .throw (draw.context.refusal hasher.isAddress .valueError .dataError)

/-- `ApiCredential(…)` with `set_secret`. -/
def newCredential (hasher : Hasher) (draw : Draw) (tenant : ℕ) (name : Text) : ApiCredential :=
  { id := draw.credentialId
    tenant, name
    keyId := draw.keyId
    secretHash := hasher.makePassword draw.salt draw.secret.text
    isActive := true
    createdBy := draw.actor
    lastUsedAt := none
    revokedAt := none }

/-- The primary key and the unique `key_id`. -/
def Access.clash (access : Access) (credential : ApiCredential) : Bool :=
  access.credentials.any fun row => row.id = credential.id || row.keyId = credential.keyId

/-- `credential.save()` of a new row. -/
def insertCredential (credential : ApiCredential) : AccessTx Unit := do
  Txn.acquire (.credential credential.id)
  Txn.acquire (.keyId credential.keyId.text)
  let clash ← Txn.fetch (.keyId credential.keyId.text) fun access => access.clash credential
  if clash then .throw .integrityError
  else .modify fun access => { access with credentials := access.credentials ++ [credential] }

/-- `apps.api.credential_services.create_credential`. -/
def createCredential (hasher : Hasher) (draw : Draw) (tenant : ℕ) (name : Text) :
    AccessTx Unit := do
  let credential := newCredential hasher draw tenant name
  insertCredential credential
  recordCredentialEvent hasher draw "api_credential.created" credential

/-- `apps.api.credential_services.rotate_credential`: only the hash is saved. -/
def rotateCredential (hasher : Hasher) (draw : Draw) (credential : ApiCredential) :
    AccessTx Unit := do
  let secretHash := hasher.makePassword draw.salt draw.secret.text
  Txn.acquire (.credential credential.id)
  Txn.modify (·.updateCredential credential.id fun row => { row with secretHash := secretHash })
  recordCredentialEvent hasher draw "api_credential.rotated" credential

/-- `apps.api.credential_services.revoke_credential`: the hash is not saved. -/
def revokeCredential (hasher : Hasher) (draw : Draw) (credential : ApiCredential) :
    AccessTx Unit := do
  Txn.acquire (.credential credential.id)
  Txn.modify (·.updateCredential credential.id fun row =>
    { row with isActive := false, revokedAt := some draw.now })
  recordCredentialEvent hasher draw "api_credential.revoked" credential

/-- `get_object_or_404(ApiCredential, pk=pk, tenant=request.tenant)`. -/
def credentialOr404 (tenant pk : ℕ) : AccessTx ApiCredential := do
  match ← Txn.fetch (.credential pk) fun access =>
      access.credentials.find? fun row => row.id = pk && row.tenant = tenant with
  | some credential => pure credential
  | none => .throw .http404

/-- `credential_rotate` of the portal. -/
def credentialRotate (hasher : Hasher) (draw : Draw) (tenant pk : ℕ) : AccessTx Unit := do
  let credential ← credentialOr404 tenant pk
  rotateCredential hasher draw credential

/-- `credential_revoke` of the portal. -/
def credentialRevoke (hasher : Hasher) (draw : Draw) (tenant pk : ℕ) : AccessTx Unit := do
  let credential ← credentialOr404 tenant pk
  revokeCredential hasher draw credential

/-- A change of `Tenant.status`. -/
def changeTenantStatus (tenant : ℕ) (status : TenantStatus) : AccessTx Unit := do
  Txn.acquire (.tenant tenant)
  Txn.modify fun access =>
    { access with
      tenants := access.tenants.map fun row =>
        if row.id = tenant then { row with status := status } else row }

/-! ## Authentication -/

/-- `"Bearer "`. -/
def bearer : Text := ['B', 'e', 'a', 'r', 'e', 'r', ' ']

/-- `ApiCredential.objects.select_related("tenant").get(key_id=key_id)`. -/
def Access.byKeyId (access : Access) (keyId : Text) : Option (ApiCredential × Institution) := do
  let credential ← access.credentials.find? fun row => row.keyId.text = keyId
  let tenant ← access.tenants.find? (·.id = credential.tenant)
  pure (credential, tenant)

/-- The checks of `authenticate` on the row that the key id found. -/
def vouch (hasher : Hasher) (rawSecret : Text) :
    Option (ApiCredential × Institution) → Except AccessError (ApiCredential × Institution)
  | none => .error (.authenticationFailed "Invalid API credential.")
  | some (credential, tenant) =>
      if credential.isActive = false then
        .error (.authenticationFailed "This API credential has been revoked.")
      else if hasher.checkPassword rawSecret credential.secretHash = false then
        .error (.authenticationFailed "Invalid API credential.")
      else if tenant.status ≠ .active then
        .error (.authenticationFailed "This institution is not active.")
      else .ok (credential, tenant)

/-- `ApiCredential.mark_used`. -/
def markUsed (now : Time) (credential : ApiCredential) : AccessTx Unit := do
  Txn.acquire (.credential credential.id)
  Txn.modify (·.updateCredential credential.id fun row => { row with lastUsedAt := some now })

/-- `ApiKeyAuthentication.authenticate`; `none` where the header is not of this scheme. -/
def authenticate (hasher : Hasher) (now : Time) (header : Text) :
    AccessTx (Option (ApiCredential × Institution)) :=
  if bearer.isPrefixOf header = false then pure none
  else
    match partitionDot (strip (header.drop bearer.length)) with
    | none => .throw (.authenticationFailed "Malformed API credential.")
    | some (keyId, rawSecret) => do
        let found ← Txn.fetch (.keyId keyId) fun access => access.byKeyId keyId
        match vouch hasher rawSecret found with
        | .error e => .throw e
        | .ok (credential, tenant) => do
            markUsed now credential
            pure (some (credential, tenant))

/-- The tenant that a request with this header acts for in a committed state. -/
def Access.authenticatesAs (access : Access) (hasher : Hasher) (now : Time) (header : Text) :
    Option ℕ :=
  match (authenticate hasher now header).exec access with
  | .ok (some (_, tenant), _) => some tenant.id
  | _ => none

/-! ## Calls -/

/-- What may run at the same time. -/
inductive CredentialCall where
  | create (draw : Draw) (tenant : ℕ) (name : Text)
  | rotate (draw : Draw) (tenant pk : ℕ)
  | revoke (draw : Draw) (tenant pk : ℕ)
  | changeStatus (tenant : ℕ) (status : TenantStatus)
  | request (now : Time) (header : Text)
  deriving DecidableEq

def CredentialCall.program (hasher : Hasher) : CredentialCall → AccessTx Unit
  | create draw tenant name => createCredential hasher draw tenant name
  | rotate draw tenant pk => credentialRotate hasher draw tenant pk
  | revoke draw tenant pk => credentialRevoke hasher draw tenant pk
  | changeStatus tenant status => changeTenantStatus tenant status
  | request now header => do
      let _ ← authenticate hasher now header
      pure ()

end Kusanya.Api
