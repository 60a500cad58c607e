import Kusanya.Model.Accounts

/-!
# Teams

`TenantResolutionMiddleware`, the role checks of `apps.tenants.permissions`, and the views by
which the administrators of a tenant add, remove and reactivate its members.

The middleware reads before the transaction of the view begins; at READ COMMITTED this is a read
of the transaction like any other.
-/

namespace Kusanya.Tenancy

open ReadCommitted Support Api

/-! ## Tables -/

inductive TenantRole where
  | admin | financeManager | accountant | billingOfficer | reconciliationOfficer | viewer
  | apiClient
  deriving DecidableEq, Repr

/-- The value of the column. -/
def TenantRole.value : TenantRole → String
  | admin => "tenant_admin"
  | financeManager => "finance_manager"
  | accountant => "accountant"
  | billingOfficer => "billing_officer"
  | reconciliationOfficer => "reconciliation_officer"
  | viewer => "viewer"
  | apiClient => "api_client"

/-- `get_role_display()`. -/
def TenantRole.label : TenantRole → String
  | admin => "Tenant Administrator"
  | financeManager => "Finance Manager"
  | accountant => "Accountant"
  | billingOfficer => "Billing Officer"
  | reconciliationOfficer => "Reconciliation Officer"
  | viewer => "Viewer"
  | apiClient => "API Client"

structure TenantMembership where
  id : ℕ
  tenant : ℕ
  user : ℕ
  role : TenantRole
  isActive : Bool
  invitedBy : Option ℕ
  deriving DecidableEq

/-- The columns of a user that `create_user` is given. -/
structure TeamUser where
  id : ℕ
  email : Text
  password : Text
  firstName : Text
  lastName : Text
  deriving DecidableEq

/-- An audit row about a membership. -/
structure TeamAudit where
  action : String
  actor : ℕ
  tenant : ℕ
  target : ℕ
  metadata : List (String × Text)
  ipAddress : Option Text
  userAgent : Text
  correlationId : Text
  deriving DecidableEq

structure TeamTables where
  users : List TeamUser
  memberships : List TenantMembership
  auditLog : List TeamAudit
  deriving DecidableEq

/-- `TenantMembership.objects.filter(user=user, tenant=tenant, is_active=True).first()`. -/
def activeMembership (memberships : List TenantMembership) (user tenant : ℕ) :
    Option TenantMembership :=
  memberships.find? fun m => m.user = user && m.tenant = tenant && m.isActive

/-- `UPDATE tenants_tenantmembership SET is_active = … WHERE id = id`. -/
def TeamTables.setActive (t : TeamTables) (id : ℕ) (isActive : Bool) : TeamTables :=
  { t with memberships := t.memberships.map fun m =>
      if m.id = id then { m with isActive := isActive } else m }

/-! ## Access -/

inductive TeamError where
  | permissionDenied (message : String)
  | http404
  | integrityError
  | databaseError
  /-- A value that its column does not take. -/
  | dataError
  /-- A client address that cannot be read. -/
  | valueError
  deriving DecidableEq

inductive TeamKey where
  /-- The membership that the middleware looks up. -/
  | selected (user tenant : ℕ)
  /-- The membership that the role check looks up. -/
  | role (user tenant : ℕ)
  | membership (id : ℕ)
  | user (id : ℕ)
  | email (email : Text)
  deriving DecidableEq

abbrev TeamTx := Txn TeamTables TeamKey TeamError Empty

/-- Who sends a request of the portal, and the tenant that the session has selected. -/
structure PortalSession where
  user : Option ℕ
  activeTenantId : Option ℕ
  deriving DecidableEq

/-- `request.tenant`, by `TenantResolutionMiddleware`. -/
def resolveTenant (user : ℕ) (activeTenantId : Option ℕ) : TeamTx (Option ℕ) :=
  match activeTenantId with
  | none => pure none
  | some tenant => do
      let membership ← Txn.fetch (.selected user tenant) fun t =>
        activeMembership t.memberships user tenant
      pure (membership.map (·.tenant))

/-- `get_tenant_role`, of a user who is logged in. -/
def getTenantRole (user : ℕ) (tenant : Option ℕ) : TeamTx (Option TenantRole) :=
  match tenant with
  | none => pure none
  | some tenant => do
      let membership ← Txn.fetch (.role user tenant) fun t =>
        activeMembership t.memberships user tenant
      pure (membership.map (·.role))

/-- `has_tenant_role`. -/
def hasTenantRole (user : ℕ) (tenant : Option ℕ) (roles : List TenantRole) : TeamTx Bool := do
  let role ← getTenantRole user tenant
  pure (role.any (· ∈ roles))

/-- `require_tenant_role(*roles)`, around a view. -/
def requireTenantRole {α : Type} (roles : List TenantRole) (user : ℕ) (tenant : Option ℕ)
    (view : ℕ → TeamTx α) : TeamTx α :=
  match tenant with
  | none => .throw (.permissionDenied "This action requires a tenant role you do not hold.")
  | some tenant => do
      let allowed ← hasTenantRole user (some tenant) roles
      if allowed then view tenant
      else .throw (.permissionDenied "This action requires a tenant role you do not hold.")

/-! ## Views -/

/-- What a view answers. -/
inductive TeamAnswer where
  /-- The redirect of `login_required`. -/
  | login
  /-- The form, with its errors. -/
  | form (errors : List String)
  /-- Back to the team, with a message. -/
  | team (message : Option Text)
  deriving DecidableEq

/-- `_TEAM_ROLE_CHOICES`. -/
def teamRoleChoices : List TenantRole :=
  [.admin, .financeManager, .accountant, .billingOfficer, .reconciliationOfficer, .viewer]

/-- The fields of a `TeamMemberForm`, each cleaned. -/
structure TeamMember where
  firstName : Text
  lastName : Text
  email : Text
  password : Text
  role : TenantRole
  offered : role ∈ teamRoleChoices
  deriving DecidableEq

/-- The keys of the rows that a request inserts. -/
structure TeamDraw where
  userId : ℕ
  membershipId : ℕ
  deriving DecidableEq

/-- `record_audit_event`, for a membership. -/
def recordTeamEvent (setting : Accounts.Setting) (context : RequestContext) (actor tenant : ℕ)
    (action : String) (target : ℕ) (metadata : List (String × Text)) : TeamTx Unit :=
  if context.Auditable setting.isAddress then
    .modify fun t =>
      { t with
        auditLog := t.auditLog ++
          [{ action, actor, tenant, target, metadata
             ipAddress := context.storedAddress
             userAgent := context.userAgent
             correlationId := context.correlationId }] }
  else .throw (context.refusal setting.isAddress .valueError .dataError)

/-- `User.objects.filter(email=email).exists()`. -/
def emailTaken (email : Text) : TeamTx Bool :=
  Txn.fetch (.email email) fun t => t.users.any (·.email = email)

/-- The row that `create_user` saves. -/
def TeamMember.toUser (data : TeamMember) (makePassword : Text → Text) (draw : TeamDraw)
    (email : Text) : TeamUser :=
  { id := draw.userId
    email
    password := makePassword data.password
    firstName := data.firstName
    lastName := data.lastName }

/-- `create_user`; the domain of the address is in lower case already. -/
def createUser (user : TeamUser) : TeamTx Unit := do
  Txn.acquire (.email user.email)
  let clash ← Txn.fetch (.user user.id) fun t =>
    t.users.any fun row => row.id = user.id || row.email = user.email
  if clash then .throw .integrityError
  else .modify fun t => { t with users := t.users ++ [user] }

/-- `TenantMembership.objects.create`, with `unique_tenant_user_membership`. -/
def createMembership (membership : TenantMembership) : TeamTx Unit := do
  let clash ← Txn.fetch (.membership membership.id) fun t => t.memberships.any fun row =>
    row.id = membership.id || (row.tenant = membership.tenant && row.user = membership.user)
  if clash then .throw .integrityError
  else .modify fun t => { t with memberships := t.memberships ++ [membership] }

/-- `team_member_create` behind its decorators.  A GET has no form; that of a POST is the cleaned
fields, or their errors. -/
def teamMemberCreate (setting : Accounts.Setting) (context : RequestContext)
    (makePassword : Text → Text) (draw : TeamDraw)
    (form : Option (Except (List String) TeamMember)) (user tenant : ℕ) : TeamTx TeamAnswer :=
  match form with
  | none => pure (.form [])
  | some (.error errors) => pure (.form errors)
  | some (.ok data) => do
      let email := setting.lower (strip data.email)
      let taken ← emailTaken email
      if taken then pure (.form ["An account with this email already exists."])
      else do
        createUser (data.toUser makePassword draw email)
        createMembership
          { id := draw.membershipId
            tenant
            user := draw.userId
            role := data.role
            isActive := true
            invitedBy := some user }
        recordTeamEvent setting context user tenant "team_member.added" draw.membershipId
          [("role", data.role.value.toList), ("member_email", email)]
        pure (.team (some (email ++ " added as ".toList ++ data.role.label.toList ++
          ". Share the sign-in email and password you set with them directly.".toList)))

/-- `get_object_or_404(TenantMembership, pk=pk, tenant=request.tenant)`. -/
def membershipOr404 (tenant pk : ℕ) : TeamTx TenantMembership := do
  match ← Txn.fetch (.membership pk) fun t =>
      t.memberships.find? fun m => m.id = pk && m.tenant = tenant with
  | some membership => pure membership
  | none => .throw .http404

/-- `membership.save(update_fields=["is_active", "updated_at"])`. -/
def TenantMembership.saveActive (membership : TenantMembership) (isActive : Bool) :
    TeamTx Unit := do
  Txn.acquire (.membership membership.id)
  let found ← Txn.fetch (.membership membership.id) fun t =>
    t.memberships.any (·.id = membership.id)
  if found then .modify (·.setActive membership.id isActive) else .throw .databaseError

/-- `membership.user.email`. -/
def memberEmail (user : ℕ) : TeamTx Text :=
  Txn.fetch (.user user) fun t => ((t.users.find? (·.id = user)).map (·.email)).getD []

/-- `team_member_deactivate` behind its decorators. -/
def teamMemberDeactivate (setting : Accounts.Setting) (context : RequestContext) (post : Bool)
    (pk user tenant : ℕ) : TeamTx TeamAnswer := do
  let membership ← membershipOr404 tenant pk
  if post then
    if membership.user = user then
      pure (.team (some "You can't deactivate your own membership.".toList))
    else do
      membership.saveActive false
      recordTeamEvent setting context user tenant "team_member.deactivated" membership.id []
      let email ← memberEmail membership.user
      pure (.team (some (email ++ " removed from the team.".toList)))
  else pure (.team none)

/-- `team_member_activate` behind its decorators. -/
def teamMemberActivate (setting : Accounts.Setting) (context : RequestContext) (post : Bool)
    (pk user tenant : ℕ) : TeamTx TeamAnswer := do
  let membership ← membershipOr404 tenant pk
  if post then do
    membership.saveActive true
    recordTeamEvent setting context user tenant "team_member.reactivated" membership.id []
    let email ← memberEmail membership.user
    pure (.team (some (email ++ " reactivated.".toList)))
  else pure (.team none)

/-! ## Requests -/

inductive TeamAction where
  | teamMemberCreate (draw : TeamDraw) (form : Option (Except (List String) TeamMember))
  | teamMemberDeactivate (post : Bool) (pk : ℕ)
  | teamMemberActivate (post : Bool) (pk : ℕ)

structure TeamRequest where
  session : PortalSession
  context : RequestContext
  action : TeamAction

/-- The view of a request. -/
def TeamAction.view (setting : Accounts.Setting) (makePassword : Text → Text)
    (context : RequestContext) (user tenant : ℕ) : TeamAction → TeamTx TeamAnswer
  | teamMemberCreate draw form =>
      Tenancy.teamMemberCreate setting context makePassword draw form user tenant
  | teamMemberDeactivate post pk =>
      Tenancy.teamMemberDeactivate setting context post pk user tenant
  | teamMemberActivate post pk => Tenancy.teamMemberActivate setting context post pk user tenant

/-- A request of the portal: the middleware, `login_required` and
`require_tenant_role(TenantRole.ADMIN)` around its view. -/
def TeamRequest.handler (setting : Accounts.Setting) (makePassword : Text → Text)
    (request : TeamRequest) : TeamTx TeamAnswer :=
  match request.session.user with
  | none => pure .login
  | some user => do
      let tenant ← resolveTenant user request.session.activeTenantId
      requireTenantRole [.admin] user tenant fun tenant =>
        request.action.view setting makePassword request.context user tenant

end Kusanya.Tenancy
