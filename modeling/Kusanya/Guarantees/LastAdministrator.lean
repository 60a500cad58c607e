import Mathlib.Data.List.Nodup
import Kusanya.Model.Team
import Kusanya.ReadCommitted.Interleaving

/-!
# The last administrator

An administrator cannot deactivate the own membership.  Whoever deactivates another one is an
administrator who stays, if the role that let the request in is still there when it commits.
-/

namespace Kusanya.Tenancy

open ReadCommitted Support

/-! ## Rows -/

/-- The tenant has an active administrator. -/
def HasAdmin (tenant : ℕ) (t : TeamTables) : Prop :=
  ∃ m ∈ t.memberships, m.tenant = tenant ∧ m.role = .admin ∧ m.isActive = true

/-- What no request changes of a membership. -/
def TenantMembership.place (m : TenantMembership) : ℕ × ℕ × ℕ := (m.id, m.tenant, m.user)

/-- The membership that a request may insert. -/
def TeamRequest.places (request : TeamRequest) : List (ℕ × ℕ × ℕ) :=
  match request.action with
  | .teamMemberCreate draw _ =>
      [(draw.membershipId, request.session.activeTenantId.getD 0, draw.userId)]
  | _ => []

/-- All memberships that there can be. -/
def allPlaces (start : TeamTables) (requests : List TeamRequest) : List (ℕ × ℕ × ℕ) :=
  start.memberships.map (·.place) ++ requests.flatMap TeamRequest.places

/-- The memberships are among those of the list, and the tenant has an administrator. -/
structure Governed (places : List (ℕ × ℕ × ℕ)) (tenant : ℕ) (t : TeamTables) : Prop where
  placed : ∀ m ∈ t.memberships, m.place ∈ places
  admin : HasAdmin tenant t

/-- The commit switches a membership off. -/
def Deactivates (s : TeamTables) (pend : TeamTables → TeamTables) : Prop :=
  ∃ m ∈ s.memberships, m.isActive = true ∧ m ∉ (pend s).memberships

/-- A membership that the role check found is still as it was. -/
def RoleCurrent (s : TeamTables) : TeamKey × TeamTables → Prop
  | (.role user tenant, v) =>
      ∀ m ∈ activeMembership v.memberships user tenant, m ∈ s.memberships
  | _ => True

/-- Whoever switches a membership off holds the role until the commit. -/
def ActorCurrent (s : TeamTables) (pend : TeamTables → TeamTables)
    (seen : List (TeamKey × TeamTables)) : Prop :=
  Deactivates s pend → ∀ x ∈ seen, RoleCurrent s x

instance (s : TeamTables) (x : TeamKey × TeamTables) : Decidable (RoleCurrent s x) := by
  unfold RoleCurrent
  split <;> infer_instance

instance (s : TeamTables) (pend : TeamTables → TeamTables) (seen : List (TeamKey × TeamTables)) :
    Decidable (ActorCurrent s pend seen) := by
  unfold ActorCurrent Deactivates
  infer_instance

/-! ## What a request commits -/

/-- What a request is going to commit, where its reads find states allowed by `φ`. -/
inductive Commits (request : TeamRequest) (φ : TeamKey → TeamTables → Prop)
    (pend : TeamTables → TeamTables) : Prop
  | nothing (h : ∀ s, (pend s).memberships = s.memberships)
  | create (m : TenantMembership) (hplace : m.place ∈ request.places)
      (h : ∀ s, (pend s).memberships = s.memberships ++ [m])
  /-- An administrator of the tenant saves a membership. -/
  | save (user tenant : ℕ) (v : TeamTables) (actor : TenantMembership)
      (hrole : φ (.role user tenant) v)
      (hactor : activeMembership v.memberships user tenant = some actor)
      (hadmin : actor.role = .admin)
      (w : TeamTables) (m : TenantMembership) (isActive : Bool)
      (hrow : φ (.membership m.id) w) (hmem : m ∈ w.memberships) (htenant : m.tenant = tenant)
      (hother : isActive = false → m.user ≠ user)
      (h : ∀ s, (pend s).memberships = (s.setActive m.id isActive).memberships)

section Programs

variable {setting : Accounts.Setting} {context : RequestContext} {makePassword : Text → Text}
  {φ : TeamKey → TeamTables → Prop} {κ : Empty → Prop} {request : TeamRequest}
  {Q : TeamAnswer → (TeamTables → TeamTables) → Prop}
  {R : TeamError → (TeamTables → TeamTables) → Prop}

/-- The program leaves the memberships alone. -/
abbrev LeavesTeam {α : Type} (p : TeamTx α) : Prop :=
  Txn.Frame (fun t : TeamTables => t.memberships) (fun _ => True) p

theorem recordTeamEvent_leavesTeam (user tenant : ℕ) (action : String) (target : ℕ)
    (metadata : List (String × Text)) :
    LeavesTeam (recordTeamEvent setting context user tenant action target metadata) :=
  Txn.frame_ite (Txn.frame_modify fun _ => rfl) (Txn.frame_throw trivial)

theorem createUser_leavesTeam (user : TeamUser) : LeavesTeam (createUser user) := by
  have hlock : LeavesTeam (Txn.acquire (.email user.email) : TeamTx Unit) := fun pend s => rfl
  apply Txn.frame_bind hlock
  intro _
  apply Txn.frame_bind (Txn.frame_fetch _ _)
  intro clash
  exact Txn.frame_ite (Txn.frame_throw trivial) (Txn.frame_modify fun _ => rfl)

theorem wp_membershipOr404 {tenant pk : ℕ}
    {Q : TenantMembership → (TeamTables → TeamTables) → Prop} (hR : ∀ e p, R e p)
    (hQ : ∀ v m, φ (.membership m.id) v → m ∈ v.memberships → m.tenant = tenant → Q m id) :
    (membershipOr404 tenant pk).wp κ φ id Q R := by
  rw [membershipOr404, Txn.wp_bind, Txn.wp_fetch]
  intro v hv
  rw [id]
  cases hfound : v.memberships.find? fun m => m.id = pk && m.tenant = tenant with
  | none => exact hR _ _
  | some m =>
      have hkey := List.find?_some hfound
      rw [Bool.and_eq_true, decide_eq_true_eq, decide_eq_true_eq] at hkey
      obtain ⟨rfl, htenant⟩ := hkey
      exact hQ v m hv (List.mem_of_find?_eq_some hfound) htenant

theorem wp_saveActive {m : TenantMembership} {isActive : Bool}
    {Q : Unit → (TeamTables → TeamTables) → Prop} (hR : ∀ e p, R e p)
    (hQ : Q () (·.setActive m.id isActive)) : (m.saveActive isActive).wp κ φ id Q R := by
  simp only [TenantMembership.saveActive, Txn.wp_bind, Txn.wp_acquire, Txn.wp_fetch, Txn.wp_ite,
    Txn.wp_modify, Txn.wp_throw]
  intro v _
  constructor
  · exact fun _ => hQ
  · exact fun _ => hR _ _

/-- What comes after a save leaves the memberships alone. -/
theorem wp_saved (m : TenantMembership) (isActive : Bool) (user tenant : ℕ) (action : String)
    (message : Text → Text) (hR : ∀ e p, R e p)
    (hQ : ∀ a p, (∀ s, (p s).memberships = (s.setActive m.id isActive).memberships) → Q a p) :
    Txn.wp κ φ (do
      m.saveActive isActive
      recordTeamEvent setting context user tenant action m.id []
      let email ← memberEmail m.user
      pure (.team (some (message email))) : TeamTx TeamAnswer) id Q R := by
  rw [Txn.wp_bind]
  apply wp_saveActive hR
  rw [Txn.wp_bind]
  refine (recordTeamEvent_leavesTeam _ _ _ _ _).wp (fun _ p hp => ?_) fun e p _ _ => hR e p
  simp only [memberEmail, Txn.wp_bind, Txn.wp_fetch, Txn.pure_eq_ret, Txn.wp_ret]
  exact fun v _ => hQ _ _ hp

theorem wp_teamMemberDeactivate (post : Bool) (pk user tenant : ℕ) (hR : ∀ e p, R e p)
    (hnone : ∀ a, Q a id)
    (hsave : ∀ v m a p, φ (.membership m.id) v → m ∈ v.memberships → m.tenant = tenant →
      m.user ≠ user → (∀ s, (p s).memberships = (s.setActive m.id false).memberships) → Q a p) :
    (teamMemberDeactivate setting context post pk user tenant).wp κ φ id Q R := by
  rw [teamMemberDeactivate, Txn.wp_bind]
  apply wp_membershipOr404 hR
  intro v m hv hmem htenant
  rw [Txn.wp_ite, Txn.wp_ite]
  refine ⟨fun _ => ⟨fun _ => hnone _, fun hother => ?_⟩, fun _ => hnone _⟩
  apply wp_saved m false user tenant _ (fun email => email ++ " removed from the team.".toList) hR
  exact fun a p hp => hsave v m a p hv hmem htenant hother hp

theorem wp_teamMemberActivate (post : Bool) (pk user tenant : ℕ) (hR : ∀ e p, R e p)
    (hnone : ∀ a, Q a id)
    (hsave : ∀ v m a p, φ (.membership m.id) v → m ∈ v.memberships → m.tenant = tenant →
      (∀ s, (p s).memberships = (s.setActive m.id true).memberships) → Q a p) :
    (teamMemberActivate setting context post pk user tenant).wp κ φ id Q R := by
  rw [teamMemberActivate, Txn.wp_bind]
  apply wp_membershipOr404 hR
  intro v m hv hmem htenant
  rw [Txn.wp_ite]
  refine ⟨fun _ => ?_, fun _ => hnone _⟩
  apply wp_saved m true user tenant _ (fun email => email ++ " reactivated.".toList) hR
  exact fun a p hp => hsave v m a p hv hmem htenant hp

theorem wp_teamMemberCreate (draw : TeamDraw) (form : Option (Except (List String) TeamMember))
    (user tenant : ℕ) (hR : ∀ e p, R e p)
    (hnone : ∀ a p, (∀ s, (p s).memberships = s.memberships) → Q a p)
    (hcreate : ∀ m a p, m.place = (draw.membershipId, tenant, draw.userId) →
      (∀ s, (p s).memberships = s.memberships ++ [m]) → Q a p) :
    (teamMemberCreate setting context makePassword draw form user tenant).wp κ φ id Q R := by
  cases form with
  | none => exact hnone _ _ fun s => rfl
  | some form =>
      cases form with
      | error errors => exact hnone _ _ fun s => rfl
      | ok data =>
          simp only [teamMemberCreate, emailTaken, Txn.wp_bind, Txn.wp_fetch]
          intro v _
          rw [Txn.wp_ite]
          refine ⟨fun _ => hnone _ _ fun s => rfl, fun _ => ?_⟩
          rw [Txn.wp_bind]
          refine (createUser_leavesTeam _).wp (fun _ p hp => ?_) fun e p _ _ => hR e p
          simp only [createMembership, Txn.wp_bind, Txn.wp_fetch, Txn.wp_ite, Txn.wp_modify,
            Txn.wp_throw]
          intro w _
          refine ⟨fun _ => hR _ _, fun _ => ?_⟩
          refine (recordTeamEvent_leavesTeam _ _ _ _ _).wp (fun _ p' hp' => ?_)
            fun e p _ _ => hR e p
          apply hcreate
            { id := draw.membershipId, tenant, user := draw.userId, role := data.role
              isActive := true, invitedBy := some user }
          · rfl
          · intro s
            simp only [hp', Function.comp_apply, hp, id]

/-- What gets through the middleware and the role check. -/
theorem wp_handler (hR : ∀ e p, R e p) (hQ : ∀ a p, Commits request φ p → Q a p) :
    (request.handler setting makePassword).wp κ φ id Q R := by
  have hnone : ∀ a p, (∀ s, (p s).memberships = s.memberships) → Q a p :=
    fun a p hp => hQ a p (.nothing hp)
  obtain ⟨⟨user, activeTenantId⟩, context, action⟩ := request
  cases user with
  | none => exact hnone _ _ fun s => rfl
  | some user =>
      cases activeTenantId with
      | none => exact hR _ _
      | some tenant =>
          simp only [TeamRequest.handler, resolveTenant, Txn.wp_bind, Txn.wp_fetch, id,
            Txn.pure_eq_ret, Txn.wp_ret]
          intro v _
          cases hselected : activeMembership v.memberships user tenant with
          | none => exact hR _ _
          | some selected =>
              have hkey := List.find?_some hselected
              simp only [Bool.and_eq_true, decide_eq_true_eq] at hkey
              simp only [Option.map_some, hkey.1.2, requireTenantRole, hasTenantRole,
                getTenantRole, Txn.wp_bind, Txn.wp_fetch, id, Txn.pure_eq_ret, Txn.wp_ret,
                Txn.wp_ite]
              intro w hw
              refine ⟨fun hallowed => ?_, fun _ => hR _ _⟩
              cases hactor : activeMembership w.memberships user tenant with
              | none =>
                  rw [hactor] at hallowed
                  cases hallowed
              | some actor =>
                  have hadmin : actor.role = .admin := by simpa [hactor] using hallowed
                  cases action with
                  | teamMemberCreate draw form =>
                      apply wp_teamMemberCreate draw form user tenant hR hnone
                      intro m a p hplace hp
                      refine hQ a p (.create m ?_ hp)
                      rw [hplace]
                      exact List.mem_cons_self
                  | teamMemberDeactivate post pk =>
                      apply wp_teamMemberDeactivate post pk user tenant hR
                      · exact fun a => hnone a id fun _ => rfl
                      · intro v' m a p hrow hmem htenant hother hp
                        exact hQ a p
                          (.save user tenant w actor hw hactor hadmin v' m false hrow hmem
                          htenant (fun _ => hother) hp)
                  | teamMemberActivate post pk =>
                      apply wp_teamMemberActivate post pk user tenant hR
                      · exact fun a => hnone a id fun _ => rfl
                      · intro v' m a p hrow hmem htenant hp
                        exact hQ a p (.save user tenant w actor hw hactor hadmin v' m true hrow hmem
                          htenant (fun h => by cases h) hp)

end Programs

/-! ## The administrator who stays -/

section Commit

variable {places : List (ℕ × ℕ × ℕ)} {tenant : ℕ} {s : TeamTables}

theorem mem_setActive {m : TenantMembership} {id : ℕ} {isActive : Bool}
    (h : m ∈ (s.setActive id isActive).memberships) :
    ∃ old ∈ s.memberships, old.place = m.place := by
  obtain ⟨old, hold, rfl⟩ := List.mem_map.mp h
  refine ⟨old, hold, ?_⟩
  split
  · rfl
  · rfl

theorem Governed.create (h : Governed places tenant s) {t : TeamTables} {m : TenantMembership}
    (hplace : m.place ∈ places) (ht : t.memberships = s.memberships ++ [m]) :
    Governed places tenant t := by
  constructor
  · intro m' hm'
    rw [ht, List.mem_append, List.mem_singleton] at hm'
    rcases hm' with hold | rfl
    · exact h.placed m' hold
    · exact hplace
  · obtain ⟨a, ha, hadmin⟩ := h.admin
    refine ⟨a, ?_, hadmin⟩
    rw [ht]
    exact List.mem_append_left _ ha

theorem setActive_placed (h : Governed places tenant s) {t : TeamTables} {id : ℕ}
    {isActive : Bool} (ht : t.memberships = (s.setActive id isActive).memberships) :
    ∀ m ∈ t.memberships, m.place ∈ places := by
  intro m hm
  rw [ht] at hm
  obtain ⟨old, hold, hplace⟩ := mem_setActive hm
  exact hplace ▸ h.placed old hold

theorem Governed.activate (h : Governed places tenant s) {t : TeamTables} {id : ℕ}
    (ht : t.memberships = (s.setActive id true).memberships) : Governed places tenant t := by
  refine ⟨setActive_placed h ht, ?_⟩
  obtain ⟨a, ha, htenant, hadmin, hactive⟩ := h.admin
  refine ⟨a, ?_, htenant, hadmin, hactive⟩
  rw [ht]
  refine List.mem_map.mpr ⟨a, ha, ?_⟩
  split
  · rw [← hactive]
  · rfl

/-- Another membership stays an active administrator. -/
theorem Governed.deactivate (h : Governed places tenant s) {t : TeamTables} {id : ℕ}
    (ht : t.memberships = (s.setActive id false).memberships) {stays : TenantMembership}
    (hmem : stays ∈ s.memberships) (hne : stays.id ≠ id) (htenant : stays.tenant = tenant)
    (hadmin : stays.role = .admin) (hactive : stays.isActive = true) :
    Governed places tenant t := by
  refine ⟨setActive_placed h ht, stays, ?_, htenant, hadmin, hactive⟩
  rw [ht]
  exact List.mem_map.mpr ⟨stays, hmem, if_neg hne⟩

/-- Rows of two states with one key are one membership. -/
theorem same_place (hkeys : (places.map Prod.fst).Nodup) {m m' : TenantMembership}
    (hm : m.place ∈ places) (hm' : m'.place ∈ places) (hid : m.id = m'.id) :
    m.place = m'.place :=
  List.inj_on_of_nodup_map hkeys hm hm' hid

/-- What a request commits keeps an administrator. -/
theorem governed_commit {request : TeamRequest} {p : TeamTables → TeamTables}
    {seen : List (TeamKey × TeamTables)} (hkeys : (places.map Prod.fst).Nodup)
    (hplaces : ∀ place ∈ request.places, place ∈ places) (hs : Governed places tenant s)
    (hseen : ∀ x ∈ seen, Governed places tenant x.2)
    (hcommit : Commits request (fun k v => (k, v) ∈ seen) p) (hcurrent : ActorCurrent s p seen) :
    Governed places tenant (p s) := by
  cases hcommit with
  | nothing h =>
      exact ⟨h s ▸ hs.placed, by rw [HasAdmin, h s]; exact hs.admin⟩
  | create m hplace h => exact hs.create (hplaces _ hplace) (h s)
  | save user actorTenant v actor hrole hactor hadmin w m isActive hrow hmem htenant hother h =>
      cases isActive with
      | true => exact hs.activate (h s)
      | false =>
          obtain ⟨a, ha, hatenant, haadmin, haactive⟩ := hs.admin
          by_cases hid : a.id = m.id
          · -- the target is the administrator that we had, so the actor is another one
            have hoff : Deactivates s p := by
              refine ⟨a, ha, haactive, fun hin => ?_⟩
              rw [h s] at hin
              obtain ⟨old, -, hold⟩ := List.mem_map.mp hin
              have hoid : old.id = a.id := by
                rw [← hold]
                split
                · rfl
                · rfl
              rw [if_pos (hoid.trans hid)] at hold
              rw [← hold] at haactive
              cases haactive
            have hstill := hcurrent hoff _ hrole actor hactor
            have hkey := List.find?_some hactor
            simp only [Bool.and_eq_true, decide_eq_true_eq] at hkey
            obtain ⟨⟨huser, hactenant⟩, hacactive⟩ := hkey
            have hmplace := (hseen _ hrow).placed m hmem
            have hsame := same_place hkeys (hs.placed a ha) hmplace hid
            have hmtenant : m.tenant = a.tenant := congrArg (fun x => x.2.1) hsame.symm
            refine hs.deactivate (h s) hstill (fun hself => ?_) ?_ hadmin hacactive
            · have hboth := same_place hkeys (hs.placed actor hstill) hmplace hself
              have hmuser : m.user = actor.user := congrArg (fun x => x.2.2) hboth.symm
              exact hother rfl (hmuser.trans huser)
            · rw [hactenant, ← htenant, hmtenant, hatenant]
          · exact hs.deactivate (h s) ha hid hatenant haadmin haactive

end Commit

/-- Where whoever switches a membership off still holds the role when the request commits, a
tenant with an administrator always has one. -/
theorem tenant_keeps_admin (setting : Accounts.Setting) (makePassword : Text → Text)
    (start : TeamTables) (requests : List TeamRequest) (tenant : ℕ)
    (hkeys : ((allPlaces start requests).map Prod.fst).Nodup) (hadmin : HasAdmin tenant start)
    (schedule : List Event)
    (hmeets : Config.CommitsMeet ActorCurrent
      (Config.start start (requests.map (TeamRequest.handler setting makePassword))) schedule) :
    ∀ s ∈ ((Config.start start (requests.map (TeamRequest.handler setting makePassword))).run
      schedule).history, HasAdmin tenant s := by
  have hstart : Governed (allPlaces start requests) tenant start :=
    ⟨fun m hm => List.mem_append_left _ (List.mem_map_of_mem hm), hadmin⟩
  have hsound : Config.Sound (Governed (allPlaces start requests) tenant) (fun _ _ => True)
      (requests.map (TeamRequest.handler setting makePassword))
      ((Config.start start (requests.map (TeamRequest.handler setting makePassword))).run
        schedule) := by
    refine Config.run_invariant (fun program hprogram s pend seen a hs hseen hleaves hcurrent => ?_)
      (Config.sound_start hstart) schedule hmeets
    obtain ⟨request, hrequest, rfl⟩ := List.mem_map.mp hprogram
    have hcommit : Commits request (fun k v => (k, v) ∈ seen) pend :=
      hleaves (fun _ => True) _ (fun _ p => Commits request _ p) (fun _ _ => True)
        (fun _ hx => hx) (wp_handler (fun _ _ => trivial) fun _ _ h => h)
    have hplaces : ∀ place ∈ request.places, place ∈ allPlaces start requests := fun place h =>
      List.mem_append_right _ (List.mem_flatMap.mpr ⟨request, hrequest, h⟩)
    exact ⟨governed_commit hkeys hplaces hs hseen hcommit hcurrent, trivial⟩
  exact fun s hs => (hsound.committed s hs).admin

/-! ## Two administrators -/

/-- Two administrators of tenant 7. -/
def twoAdmins : TeamTables :=
  { users := []
    memberships :=
      [{ id := 1, tenant := 7, user := 1, role := .admin, isActive := true, invitedBy := none },
       { id := 2, tenant := 7, user := 2, role := .admin, isActive := true, invitedBy := some 1 }]
    auditLog := [] }

/-- Each deactivates the other. -/
def eachOther : List TeamRequest :=
  [{ session := ⟨some 1, some 7⟩
     context := Accounts.plainContext
     action := .teamMemberDeactivate true 2 },
   { session := ⟨some 2, some 7⟩
     context := Accounts.plainContext
     action := .teamMemberDeactivate true 1 }]

/-- The requests about to start. -/
abbrev teamStart : Config TeamTables TeamKey TeamError Empty TeamAnswer :=
  Config.start twoAdmins (eachOther.map (TeamRequest.handler Accounts.plainSetting id))

/-- The first request runs to its end, then the second, which is refused. -/
def inTurn : List Event := List.replicate 12 (.advance 0) ++ List.replicate 12 (.advance 1)

/-- Both requests get through the role check before either commits. -/
def bothAllowed : List Event :=
  [.advance 0, .advance 0, .advance 1, .advance 1] ++ inTurn

theorem tenant_keeps_admin_inTurn :
    (teamStart.run inTurn).past.length = 1 ∧ ∀ s ∈ (teamStart.run inTurn).history,
    HasAdmin 7 s := by
  refine ⟨by decide +kernel, ?_⟩
  exact tenant_keeps_admin Accounts.plainSetting id twoAdmins eachOther 7 (by decide)
    ⟨_, List.mem_cons_self, rfl, rfl, rfl⟩ inTurn (by decide +kernel)

theorem tenant_keeps_admin_failing :
    ¬ ∀ (setting : Accounts.Setting) (makePassword : Text → Text) (start : TeamTables)
      (requests : List TeamRequest) (tenant : ℕ) (schedule : List Event),
      ((allPlaces start requests).map Prod.fst).Nodup → HasAdmin tenant start →
      ∀ s ∈ ((Config.start start (requests.map (TeamRequest.handler setting makePassword))).run
        schedule).history, HasAdmin tenant s := by
  intro h
  obtain ⟨m, hm, -, -, hactive⟩ := h Accounts.plainSetting id twoAdmins eachOther 7 bothAllowed
    (by decide) ⟨_, List.mem_cons_self, rfl, rfl, rfl⟩ _ (Config.store_mem_history _)
  have hnone : ∀ m ∈ (teamStart.run bothAllowed).store.memberships, m.isActive = false := by
    decide +kernel
  rw [hnone m hm] at hactive
  cases hactive

end Kusanya.Tenancy
