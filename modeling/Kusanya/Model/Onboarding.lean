import Kusanya.Model.Team

/-!
# Onboarding

`apps.tenants.forms`, `UserManager._create_user`, `Tenant.save` and the two views that register an
institution with its first administrator.

The two queries of the form come before the transaction of the view begins; at READ COMMITTED they
are reads of the transaction like any other.
-/

namespace Kusanya.Tenancy

open ReadCommitted Support Api

/-! ## Texts -/

/-- What Django, PostgreSQL and `str` do with text. -/
structure Texts where
  /-- `str.lower()`. -/
  lower : Text → Text
  /-- The validators of a form's `EmailField`, its length apart. -/
  validEmail : Text → Bool
  /-- The lookup `iexact`. -/
  iexact : Text → Text → Bool
  /-- `unicodedata.normalize("NFKD", …)`. -/
  nfkd : Text → Text
  makePassword : Text → Text
  /-- The texts that an `inet` column takes. -/
  isAddress : Text → Bool
  lower_eq_self : ∀ text, lower text = text ↔ ∀ c ∈ text, lower [c] = [c]
  lower_lower : ∀ text, ∀ c ∈ lower text, lower [c] = [c]
  lower_strip : ∀ text, strip text = text → strip (lower text) = lower text
  lower_eq_nil : ∀ text, lower text = [] → text = []

/-- `str.rsplit("@", 1)`; `none` where there is no `@`. -/
def rsplitAt (text : Text) : Option (Text × Text) :=
  let domain := (text.reverse.takeWhile (· ≠ '@')).reverse
  if '@' ∈ text then some (text.take (text.length - domain.length - 1), domain) else none

/-- `UserManager.normalize_email`. -/
def normalizeEmail (texts : Texts) (email : Text) : Text :=
  match rsplitAt (strip email) with
  | none => email
  | some (name, domain) => name ++ '@' :: texts.lower domain

/-- What `[-\s]+` matches. -/
def isJoint (c : Char) : Bool := c = '-' || isSpace c

/-- `re.sub(r"[-\s]+", "-", …)`, after a joint or not. -/
def hyphenate : Bool → Text → Text
  | _, [] => []
  | inRun, c :: rest =>
      if isJoint c then if inRun then hyphenate true rest else '-' :: hyphenate true rest
      else c :: hyphenate false rest

def isHem (c : Char) : Bool := c = '-' || c = '_'

/-- `django.utils.text.slugify`. -/
def slugify (texts : Texts) (value : Text) : Text :=
  let folded := (texts.nfkd value).filter (·.toNat < 128)
  let kept := (folded.map Char.toLower).filter fun c => c.isAlphanum || c = '_' || isJoint c
  (((hyphenate false kept).dropWhile isHem).reverse.dropWhile isHem).reverse

/-! ## Form fields -/

/-- `CharField(min_length=…, max_length=…)`; `none` where it has an error. -/
def charField (minLength maxLength : Option ℕ) (text : Text) : Option Text :=
  let value := strip text
  if value = [] || minLength.any (value.length < ·) || maxLength.any (· < value.length) ||
    value.contains (Char.ofNat 0) then none
  else some value

/-- `CharField(max_length=…, required=False)`. -/
def optionalCharField (maxLength : ℕ) (text : Text) : Option Text :=
  if strip text = [] then some [] else charField none (some maxLength) text

/-- `EmailField()`. -/
def emailField (texts : Texts) (text : Text) : Option Text :=
  (charField none (some 320) text).filter texts.validEmail

/-- `Sector`. -/
inductive Sector where
  | education | healthcare | retail | hospitality | property | professionalServices | ngo
  | religious | training | membership | utilities | association | governmentAdjacent | other
  deriving DecidableEq

/-- The value of the column. -/
def Sector.value : Sector → String
  | education => "education"
  | healthcare => "healthcare"
  | retail => "retail"
  | hospitality => "hospitality"
  | property => "property"
  | professionalServices => "professional_services"
  | ngo => "ngo"
  | religious => "religious"
  | training => "training"
  | membership => "membership"
  | utilities => "utilities"
  | association => "association"
  | governmentAdjacent => "government_adjacent"
  | other => "other"

def Sector.all : List Sector :=
  [.education, .healthcare, .retail, .hospitality, .property, .professionalServices, .ngo,
   .religious, .training, .membership, .utilities, .association, .governmentAdjacent, .other]

/-- `ChoiceField(choices=Sector.choices)`. -/
def sectorField (text : Text) : Option Sector :=
  Sector.all.find? (·.value.toList = text)

/-- An error of a form: one of Django's for a field, or a message of the form's own. -/
inductive FormError where
  | field (name : String)
  | message (field text : String)
  deriving DecidableEq

/-- A cleaned field, or its error. -/
def fieldOr {α : Type} (name : String) : Option α → Except FormError α
  | some value => .ok value
  | none => .error (.field name)

def FormError.of {α : Type} : Except FormError α → List FormError
  | .ok _ => []
  | .error e => [e]

/-! ## Tables -/

/-- A user, with the columns that only registration writes. -/
structure RegisteredUser extends Accounts.User where
  firstName : Text
  lastName : Text
  deriving DecidableEq

structure RegisteredTenant where
  id : ℕ
  name : Text
  slug : Text
  sector : Sector
  status : TenantStatus
  contactEmail : Text
  contactPhone : Text
  approvedAt : Option Time
  approvedBy : Option ℕ
  deriving DecidableEq

/-- An audit row about a tenant, or about a login. -/
structure RegistryAudit where
  action : String
  actor : ℕ
  tenant : Option ℕ
  metadata : List (String × Text)
  ipAddress : Option Text
  userAgent : Text
  correlationId : Text
  deriving DecidableEq

structure Registry where
  users : List RegisteredUser
  tenants : List RegisteredTenant
  memberships : List TenantMembership
  auditLog : List RegistryAudit
  deriving DecidableEq

inductive RegistryError where
  /-- A value that is too long for its column. -/
  | dataError
  | integrityError
  /-- A value that is too long for its encrypted column, a user without an address, or a client
  address that cannot be read. -/
  | valueError
  deriving DecidableEq

inductive RegistryKey where
  | tenantName (name : Text)
  | email (email : Text)
  | users
  | tenants
  | memberships
  deriving DecidableEq

abbrev RegistryTx := Txn Registry RegistryKey RegistryError Empty

/-! ## `TenantOnboardingForm` -/

structure TenantOnboardingForm where
  institutionName : Text
  sector : Text
  contactEmail : Text
  contactPhone : Text
  adminFirstName : Text
  adminLastName : Text
  adminEmail : Text
  adminPassword : Text
  deriving DecidableEq

/-- `cleaned_data`. -/
structure OnboardingData where
  institutionName : Text
  sector : Sector
  contactEmail : Text
  contactPhone : Text
  adminFirstName : Text
  adminLastName : Text
  adminEmail : Text
  adminPassword : Text
  deriving DecidableEq

/-- The institution's name, with `clean_institution_name`. -/
def cleanInstitutionName (texts : Texts) (text : Text) : RegistryTx (Except FormError Text) :=
  match charField none (some 200) text with
  | none => pure (.error (.field "institution_name"))
  | some value => do
      let name := strip value
      let taken ← Txn.fetch (.tenantName name) fun r =>
        r.tenants.any fun row => texts.iexact row.name name
      pure (if taken then
        .error (.message "institution_name" "An institution with this name is already registered.")
      else .ok name)

/-- The administrator's address, with `clean_admin_email`. -/
def cleanAdminEmail (texts : Texts) (text : Text) : RegistryTx (Except FormError Text) :=
  match emailField texts text with
  | none => pure (.error (.field "admin_email"))
  | some value => do
      let email := texts.lower (strip value)
      let taken ← Txn.fetch (.email email) fun r => r.users.any (·.email = email)
      pure (if taken then
        .error (.message "admin_email" "An account with this email already exists.")
      else .ok email)

/-- The cleaned data, or the errors of the fields. -/
def collect (institutionName : Except FormError Text) (sector : Except FormError Sector)
    (contactEmail contactPhone firstName lastName adminEmail adminPassword :
      Except FormError Text) :
    Except (List FormError) OnboardingData :=
  match institutionName, sector, contactEmail, contactPhone, firstName, lastName, adminEmail,
    adminPassword with
  | .ok institutionName, .ok sector, .ok contactEmail, .ok contactPhone, .ok adminFirstName,
    .ok adminLastName, .ok adminEmail, .ok adminPassword =>
      .ok
        { institutionName, sector, contactEmail, contactPhone, adminFirstName, adminLastName,
          adminEmail, adminPassword }
  | _, _, _, _, _, _, _, _ =>
      .error (FormError.of institutionName ++ FormError.of sector ++ FormError.of contactEmail ++
        FormError.of contactPhone ++ FormError.of firstName ++ FormError.of lastName ++
        FormError.of adminEmail ++ FormError.of adminPassword)

/-- `is_valid()`. -/
def TenantOnboardingForm.clean (texts : Texts) (form : TenantOnboardingForm) :
    RegistryTx (Except (List FormError) OnboardingData) := do
  let institutionName ← cleanInstitutionName texts form.institutionName
  let adminEmail ← cleanAdminEmail texts form.adminEmail
  pure (collect institutionName
    (fieldOr "sector" (sectorField form.sector))
    (fieldOr "contact_email" (emailField texts form.contactEmail))
    (fieldOr "contact_phone" (optionalCharField 32 form.contactPhone))
    (fieldOr "admin_first_name" (charField none (some 150) form.adminFirstName))
    (fieldOr "admin_last_name" (charField none (some 150) form.adminLastName))
    adminEmail
    (fieldOr "admin_password" (charField (some 12) none form.adminPassword)))

/-! ## Rows -/

/-- `EncryptedCharField.get_prep_value`, of its length. -/
def checkEncrypted (maxLength : ℕ) (value : Text) : RegistryTx Unit :=
  if maxLength < value.length then .throw .valueError else pure ()

/-- A `varchar(maxLength)` column. -/
def checkVarchar (maxLength : ℕ) (value : Text) : RegistryTx Unit :=
  if maxLength < value.length then .throw .dataError else pure ()

/-- `UserManager._create_user`, with the key of the row. -/
def createRegisteredUser (texts : Texts) (id : ℕ) (email password firstName lastName : Text) :
    RegistryTx RegisteredUser := do
  if email = [] then .throw .valueError
  else
    let user : RegisteredUser :=
      { id
        email := normalizeEmail texts email
        password := texts.makePassword password
        isActive := true
        isStaff := false
        firstName
        lastName }
    checkEncrypted 150 firstName
    checkEncrypted 150 lastName
    checkVarchar 254 user.email
    Txn.acquire (.email user.email)
    let clash ← Txn.fetch .users fun r =>
      r.users.any fun row => row.id = user.id || row.email = user.email
    if clash then .throw .integrityError
    else
      Txn.modify fun r => { r with users := r.users ++ [user] }
      pure user

/-- `Tenant.objects.create` of a tenant without a slug: `Tenant.save` and its constraints. -/
def createTenant (texts : Texts) (tenant : RegisteredTenant) : RegistryTx RegisteredTenant := do
  let tenant := { tenant with slug := (slugify texts tenant.name).take 220 }
  checkEncrypted 254 tenant.contactEmail
  checkEncrypted 32 tenant.contactPhone
  checkVarchar 200 tenant.name
  checkVarchar 220 tenant.slug
  let clash ← Txn.fetch .tenants fun r =>
    r.tenants.any fun row => row.id = tenant.id || row.slug = tenant.slug
  if clash then .throw .integrityError
  else
    Txn.modify fun r => { r with tenants := r.tenants ++ [tenant] }
    pure tenant

/-- `TenantMembership.objects.create`, with `unique_tenant_user_membership`. -/
def createFirstMembership (membership : TenantMembership) : RegistryTx Unit := do
  let clash ← Txn.fetch .memberships fun r => r.memberships.any fun row =>
    row.id = membership.id || (row.tenant = membership.tenant && row.user = membership.user)
  if clash then .throw .integrityError
  else Txn.modify fun r => { r with memberships := r.memberships ++ [membership] }

/-- `record_audit_event`. -/
def recordRegistryEvent (texts : Texts) (context : RequestContext) (action : String) (actor : ℕ)
    (tenant : Option ℕ) (metadata : List (String × Text)) : RegistryTx Unit :=
  if context.Auditable texts.isAddress then
    .modify fun r =>
      { r with
        auditLog := r.auditLog ++
          [{ action, actor, tenant, metadata
             ipAddress := context.storedAddress
             userAgent := context.userAgent
             correlationId := context.correlationId }] }
  else .throw (context.refusal texts.isAddress .valueError .dataError)

/-! ## Views -/

/-- The keys that a registration draws. -/
structure OnboardingDraw where
  userId : ℕ
  tenantId : ℕ
  membershipId : ℕ
  deriving DecidableEq

/-- How the two views differ: the status of the tenant and who has approved it. -/
structure Approval where
  status : TenantStatus
  approvedAt : Option Time
  approvedBy : Option ℕ

/-- The user, the tenant and the membership of a registration. -/
def createInstitution (texts : Texts) (draw : OnboardingDraw) (approval : Approval)
    (data : OnboardingData) : RegistryTx (RegisteredUser × RegisteredTenant) := do
  let user ← createRegisteredUser texts draw.userId data.adminEmail data.adminPassword
    data.adminFirstName data.adminLastName
  let tenant ← createTenant texts
    { id := draw.tenantId
      name := data.institutionName
      slug := []
      sector := data.sector
      status := approval.status
      contactEmail := data.contactEmail
      contactPhone := data.contactPhone
      approvedAt := approval.approvedAt
      approvedBy := approval.approvedBy }
  createFirstMembership
    { id := draw.membershipId
      tenant := tenant.id
      user := user.id
      role := .admin
      isActive := true
      invitedBy := none }
  pure (user, tenant)

inductive OnboardingAnswer where
  | form (errors : List FormError)
  /-- A redirect with its message, and the user who is logged in by it. -/
  | redirect (route : String) (message : Text) (login : Option ℕ)
  deriving DecidableEq

/-- `onboard`; a GET has no form. -/
def onboard (texts : Texts) (context : RequestContext) (draw : OnboardingDraw)
    (form : Option TenantOnboardingForm) : RegistryTx OnboardingAnswer :=
  match form with
  | none => pure (.form [])
  | some form => do
      match ← form.clean texts with
      | .error errors => pure (.form errors)
      | .ok data => do
          let (user, tenant) ← createInstitution texts draw
            { status := .pending, approvedAt := none, approvedBy := none } data
          recordRegistryEvent texts context "tenant.registered" user.id (some tenant.id)
            [("sector", tenant.sector.value.toList)]
          recordRegistryEvent texts context "auth.login" user.id none []
          pure (.redirect "core:dashboard-router"
            ("Registration received. Your institution is pending platform " ++
              "approval before you can start billing.").toList (some user.id))

/-- `platform_create_tenant` behind its decorators. -/
def platformCreateTenant (texts : Texts) (context : RequestContext) (draw : OnboardingDraw)
    (now : Time) (requestUser : ℕ) (form : Option TenantOnboardingForm) :
    RegistryTx OnboardingAnswer :=
  match form with
  | none => pure (.form [])
  | some form => do
      match ← form.clean texts with
      | .error errors => pure (.form errors)
      | .ok data => do
          let (user, tenant) ← createInstitution texts draw
            { status := .active, approvedAt := some now, approvedBy := some requestUser } data
          recordRegistryEvent texts context "tenant.created_by_platform" requestUser
            (some tenant.id) [("sector", tenant.sector.value.toList), ("admin_email", user.email)]
          pure (.redirect "tenants:pending-tenants"
            (tenant.name ++ " created and activated. Share the sign-in email ".toList ++
              "and password you set with ".toList ++ user.email ++ " directly.".toList) none)

/-! ## `TeamMemberForm` -/

structure TeamMemberForm where
  firstName : Text
  lastName : Text
  email : Text
  password : Text
  role : Text
  deriving DecidableEq

/-- `ChoiceField(choices=_TEAM_ROLE_CHOICES)`. -/
def roleField (text : Text) : Option { role : TenantRole // role ∈ teamRoleChoices } :=
  teamRoleChoices.attach.find? fun role => role.1.value.toList = text

/-- The fields of the form, `clean_email` apart. -/
def TeamMemberForm.clean (texts : Texts) (form : TeamMemberForm) :
    Except (List String) TeamMember :=
  match charField none (some 150) form.firstName, charField none (some 150) form.lastName,
    emailField texts form.email, charField (some 12) none form.password, roleField form.role with
  | some firstName, some lastName, some email, some password, some role =>
      .ok { firstName, lastName, email, password, role := role.1, offered := role.2 }
  | firstName, lastName, email, password, role =>
      .error ((if firstName.isNone then ["first_name"] else []) ++
        (if lastName.isNone then ["last_name"] else []) ++
        (if email.isNone then ["email"] else []) ++
        (if password.isNone then ["password"] else []) ++
        (if role.isNone then ["role"] else []))

end Kusanya.Tenancy
