import Kusanya.Model.Login
import Kusanya.ReadCommitted.Sequential

/-!
# The second factor gates the login

A session becomes a user's in four views.  One is only for new users, one does not let users
with a confirmed device through, and one asks for their second factor; the login of Django's
admin does neither.
-/

namespace Kusanya.Accounts

open ReadCommitted Support

/-! ## What the views find out -/

/-- The password of this row, submitted under its e-mail address. -/
structure CorrectPassword (setting : Setting) (kind : FormKind) (tables : Tables)
    (username password : Text) (row : User) : Prop where
  found : ∃ email, kind.clean username = some email ∧
    tables.users.find? (·.email = email) = some row
  checked : setting.checkPassword password row.password = true
  active : row.isActive = true

section Views

variable {setting : Setting} {tables after : Tables} {context : RequestContext} {cache : Cache}
  {session : Session} {current : Option User} {now : Time}

/-- An audit row that was written leaves the rows that a login reads. -/
theorem recordAccountEvent_ok {action : String} {actor target : Option ℕ} {email : Text} {u : Unit}
    (h : (recordAccountEvent setting context action actor target email).exec tables =
      .ok (u, after)) :
    context.Auditable setting.isAddress ∧ after.users = tables.users ∧
      after.devices = tables.devices := by
  rw [recordAccountEvent, Txn.exec_ite] at h
  split at h
  · next hauditable =>
      obtain ⟨-, rfl⟩ := Prod.mk.inj (Except.ok.inj h)
      exact ⟨hauditable, rfl, rfl⟩
  · cases h

/-- What follows an audit row. -/
theorem recorded_ok {α : Type} {action : String} {actor target : Option ℕ} {email : Text}
    {a b : α} (h : (recordAccountEvent setting context action actor target email >>= fun _ =>
      (pure a : AccountTx α)).exec tables = .ok (b, after)) :
    context.Auditable setting.isAddress ∧ b = a ∧ after.devices = tables.devices := by
  obtain ⟨u, t, hrecord, hret⟩ := (Txn.exec_bind_ok _).mp h
  obtain ⟨rfl, rfl⟩ := Prod.mk.inj (Except.ok.inj hret)
  obtain ⟨hauditable, -, hdevices⟩ := recordAccountEvent_ok hrecord
  exact ⟨hauditable, rfl, hdevices⟩

/-- `authenticate` gives a user only for the password of its row. -/
theorem authenticate_ok {username password : Text} {user : Option User}
    (h : (authenticate setting context username password).exec tables = .ok (user, after)) :
    after.devices = tables.devices ∧ ∀ found, user = some found → ∃ row,
      tables.users.find? (·.email = username) = some row ∧
      setting.checkPassword password row.password = true ∧ row.isActive = true ∧
      found.id = row.id ∧ found.isStaff = row.isStaff := by
  simp only [authenticate, Txn.exec_bind, Txn.exec_invoke, Txn.exec_fetch] at h
  cases hrow : tables.users.find? (·.email = username) with
  | none =>
      rw [hrow] at h
      obtain ⟨-, rfl, hdevices⟩ := recorded_ok h
      exact ⟨hdevices, fun found hfound => by cases hfound⟩
  | some row =>
      simp only [hrow] at h
      by_cases hpassword : setting.checkPassword password row.password = true
      · rw [if_pos hpassword] at h
        cases hrehash : setting.rehash password row.password with
        | none =>
            rw [hrehash] at h
            by_cases hactive : row.isActive = true
            · rw [if_pos hactive] at h
              obtain ⟨rfl, rfl⟩ := Prod.mk.inj (Except.ok.inj h)
              refine ⟨rfl, fun found hfound => ⟨row, rfl, hpassword, hactive, ?_⟩⟩
              obtain rfl := Option.some.inj hfound
              exact ⟨rfl, rfl⟩
            · rw [if_neg hactive] at h
              obtain ⟨-, rfl, hdevices⟩ := recorded_ok h
              exact ⟨hdevices, fun found hfound => by cases hfound⟩
        | some encoded =>
            rw [hrehash] at h
            by_cases hactive : row.isActive = true
            · rw [if_pos hactive] at h
              obtain ⟨rfl, rfl⟩ := Prod.mk.inj (Except.ok.inj h)
              refine ⟨rfl, fun found hfound => ⟨row, rfl, hpassword, hactive, ?_⟩⟩
              obtain rfl := Option.some.inj hfound
              exact ⟨rfl, rfl⟩
            · rw [if_neg hactive] at h
              obtain ⟨-, rfl, hdevices⟩ := recorded_ok h
              exact ⟨hdevices, fun found hfound => by cases hfound⟩
      · rw [if_neg hpassword] at h
        obtain ⟨-, rfl, hdevices⟩ := recorded_ok h
        exact ⟨hdevices, fun found hfound => by cases hfound⟩

theorem fullClean_ok {kind : FormKind} {username password : Text} {form : LoginForm}
    (h : (fullClean setting context kind username password).exec tables = .ok (form, after)) :
    after.devices = tables.devices ∧ ∀ found, form.user = some found → ∃ row,
      CorrectPassword setting kind tables username password row ∧
      kind.allowed found = true ∧ found.id = row.id ∧ found.isStaff = row.isStaff := by
  unfold fullClean at h
  cases hclean : kind.clean username with
  | none =>
      rw [hclean] at h
      obtain ⟨rfl, rfl⟩ := Prod.mk.inj (Except.ok.inj h)
      exact ⟨rfl, fun found hfound => by cases hfound⟩
  | some email =>
      simp only [hclean] at h
      by_cases hpassword : validPassword password = true
      · rw [if_pos hpassword, Txn.exec_bind_ok] at h
        obtain ⟨user, t, hauthenticate, hform⟩ := h
        obtain ⟨rfl, rfl⟩ := Prod.mk.inj (Except.ok.inj hform)
        obtain ⟨hdevices, hfound⟩ := authenticate_ok hauthenticate
        refine ⟨hdevices, fun found huser => ?_⟩
        obtain ⟨hsome, hallowed⟩ := Option.filter_eq_some_iff.mp huser
        obtain ⟨row, hrow, hchecked, hactive, hsame⟩ := hfound found hsome
        exact ⟨row, ⟨⟨email, hclean, hrow⟩, hchecked, hactive⟩, hallowed, hsame⟩
      · rw [if_neg hpassword] at h
        obtain ⟨rfl, rfl⟩ := Prod.mk.inj (Except.ok.inj h)
        exact ⟨rfl, fun found hfound => by cases hfound⟩

@[simp]
theorem Session.login_authUser (session : Session) (user : User) :
    (session.login setting user).authUser = some user.id := rfl

theorem Session.login_pendingUser {user : User} {id : ℕ}
    (h : (session.login setting user).pendingUser = some id) : session.pendingUser = some id := by
  unfold Session.login at h
  cases hauth : session.authUser with
  | none =>
      rw [hauth] at h
      exact h
  | some old =>
      rw [hauth] at h
      dsimp only at h
      split at h
      · exact h
      · cases h

/-- The user exists and has a confirmed device. -/
def HasConfirmedDevice (tables : Tables) (id : ℕ) : Prop :=
  (∃ row ∈ tables.users, row.id = id) ∧ ∃ device ∈ tables.devices, device.user = id ∧
    device.confirmed = true

theorem confirmedDevice_isSome {id : ℕ} (h : HasConfirmedDevice tables id) :
    (tables.confirmedDevice id).isSome := by
  obtain ⟨-, device, hdevice, huser, hconfirmed⟩ := h
  rw [Tables.confirmedDevice, List.find?_isSome]
  exact ⟨device, hdevice, by simp [huser, hconfirmed]⟩

/-- The code is a TOTP that `verify_totp` accepts for a confirmed device of the user, or an
unused backup code of the user. -/
def SecondFactor (setting : Setting) (tables : Tables) (now : Time) (id : ℕ) (code : Text) : Prop :=
  (∃ device ∈ tables.devices, device.user = id ∧ device.confirmed = true ∧
    verifyTotp setting now device.secret code = pure true) ∨
  ∃ backup ∈ tables.backupCodes, backup.user = id ∧ backup.usedAt = none ∧
    backup.lookupHash = backupCodeLookupHash setting code

/-- What a login POST leaves of the session. -/
theorem emailLoginPost_session {post : LoginPost} {answer : Answer}
    (h : (emailLoginPost setting cache session current post).exec tables = .ok (answer, after)) :
    answer.session = session ∨ ∃ user row,
      CorrectPassword setting (emailForm setting) tables post.username post.password row ∧
      user.id = row.id ∧
      (answer.session = { session with pendingUser := some row.id } ∨
        tables.confirmedDevice row.id = none ∧ post.context.Auditable setting.isAddress ∧
          answer.session = session.login setting user) := by
  simp only [emailLoginPost] at h
  split at h
  · obtain ⟨rfl, rfl⟩ := Prod.mk.inj (Except.ok.inj h)
    exact Or.inl rfl
  · split at h
    · obtain ⟨form, t, -, hpage⟩ := (Txn.exec_bind_ok _).mp h
      obtain ⟨rfl, rfl⟩ := Prod.mk.inj (Except.ok.inj hpage)
      exact Or.inl rfl
    · obtain ⟨form, t, hform, hrest⟩ := (Txn.exec_bind_ok _).mp h
      obtain ⟨hdevices, hfound⟩ := fullClean_ok hform
      cases huser : form.user with
      | none =>
          rw [huser] at hrest
          obtain ⟨rfl, rfl⟩ := Prod.mk.inj (Except.ok.inj hrest)
          exact Or.inl rfl
      | some user =>
          rw [huser] at hrest
          obtain ⟨row, hcorrect, -, hid, -⟩ := hfound user huser
          have hdevice : t.confirmedDevice user.id = tables.confirmedDevice row.id := by
            rw [Tables.confirmedDevice, Tables.confirmedDevice, hdevices, hid]
          simp only [Txn.exec_bind, Txn.exec_invoke, Txn.exec_fetch, hdevice] at hrest
          right
          refine ⟨user, row, hcorrect, hid, ?_⟩
          cases hconfirmed : tables.confirmedDevice row.id with
          | some device =>
              rw [hconfirmed] at hrest
              obtain ⟨rfl, rfl⟩ := Prod.mk.inj (Except.ok.inj hrest)
              exact Or.inl (by rw [← hid])
          | none =>
              rw [hconfirmed] at hrest
              obtain ⟨hauditable, rfl, -⟩ := recorded_ok hrest
              exact Or.inr ⟨rfl, hauditable, rfl⟩

theorem adminLoginPost_session {post : LoginPost} {answer : Answer}
    (h : (adminLoginPost setting session post).exec tables = .ok (answer, after)) :
    answer.session = session ∨ ∃ user row,
      CorrectPassword setting (adminForm setting) tables post.username post.password row ∧
      row.isStaff = true ∧ user.id = row.id ∧ answer.session = session.login setting user := by
  obtain ⟨form, t, hform, hrest⟩ := (Txn.exec_bind_ok _).mp h
  obtain ⟨-, hfound⟩ := fullClean_ok hform
  cases huser : form.user with
  | none =>
      rw [huser] at hrest
      obtain ⟨rfl, rfl⟩ := Prod.mk.inj (Except.ok.inj hrest)
      exact Or.inl rfl
  | some user =>
      rw [huser] at hrest
      obtain ⟨row, hcorrect, hallowed, hid, hstaff⟩ := hfound user huser
      obtain ⟨-, rfl, -⟩ := recorded_ok hrest
      exact Or.inr ⟨user, row, hcorrect, hstaff.symm.trans hallowed, hid, rfl⟩

/-- `verify_totp` reads no table. -/
theorem verifyTotp_cases (setting : Setting) (now : Time) (secret code : Text) :
    (∃ accepted, verifyTotp setting now secret code = pure accepted) ∨
      verifyTotp setting now secret code = .throw .typeError := by
  simp only [verifyTotp]
  split
  · exact Or.inl ⟨_, rfl⟩
  · split
    · exact Or.inr rfl
    · exact Or.inl ⟨_, rfl⟩

theorem verifyTotp_ok {secret code : Text} {accepted : Bool}
    (h : (verifyTotp setting now secret code).exec tables = .ok (accepted, after)) :
    verifyTotp setting now secret code = pure accepted ∧ after = tables := by
  rcases verifyTotp_cases setting now secret code with ⟨found, hfound⟩ | hraises
  · rw [hfound] at h
    obtain ⟨rfl, rfl⟩ := Prod.mk.inj (Except.ok.inj h)
    exact ⟨hfound, rfl⟩
  · rw [hraises] at h
    cases h

/-- `consume_backup_code` is true only of an unused code of the user. -/
theorem consumeBackupCode_some {user : User} {raw : Text} {backup : BackupCode}
    (h : (consumeBackupCode setting context now user raw).exec tables = .ok (some backup, after)) :
    backup ∈ tables.backupCodes ∧ backup.user = user.id ∧ backup.usedAt = none ∧
      backup.lookupHash = backupCodeLookupHash setting raw := by
  unfold consumeBackupCode at h
  split at h
  · cases h
  · simp only [Txn.exec_bind, Txn.exec_fetch] at h
    cases hfound : tables.unusedCode user.id (backupCodeLookupHash setting raw) with
    | none =>
        rw [hfound] at h
        cases h
    | some row =>
        rw [hfound] at h
        obtain ⟨_, t, -, hrest⟩ := (Txn.exec_bind_ok _).mp h
        obtain ⟨_, t', -, hret⟩ := (Txn.exec_bind_ok _).mp hrest
        obtain ⟨hbackup, -⟩ := Prod.mk.inj (Except.ok.inj hret)
        obtain rfl := Option.some.inj hbackup
        have hkey := List.find?_some hfound
        simp only [Bool.and_eq_true, decide_eq_true_eq, Option.isNone_iff_eq_none] at hkey
        exact ⟨List.mem_of_find?_eq_some hfound, hkey.1.1, hkey.2, hkey.1.2⟩

theorem verifyDevice_ok {device : Option MFADevice} {code : Text} {accepted : Bool}
    (h : (verifyDevice setting now device code).exec tables = .ok (accepted, after)) :
    after = tables ∧ (accepted = true → ∃ found, device = some found ∧
      verifyTotp setting now found.secret code = pure true) := by
  cases device with
  | none =>
      obtain ⟨rfl, rfl⟩ := Prod.mk.inj (Except.ok.inj h)
      exact ⟨rfl, fun haccepted => by cases haccepted⟩
  | some found =>
      obtain ⟨hverify, hafter⟩ := verifyTotp_ok h
      refine ⟨hafter, fun haccepted => ⟨found, rfl, ?_⟩⟩
      rw [hverify, haccepted]

/-- A code is accepted only as one of the two second factors. -/
theorem verifyCode_some {user : User} {code : Text} {verified : Verified}
    (h : (verifyCode setting context now user code).exec tables = .ok (some verified, after)) :
    SecondFactor setting tables now user.id (strip code) := by
  obtain ⟨device, u, hfetch, h⟩ := (Txn.exec_bind_ok _).mp h
  obtain ⟨rfl, rfl⟩ := Prod.mk.inj (Except.ok.inj hfetch)
  obtain ⟨accepted, t, haccepted, h⟩ := (Txn.exec_bind_ok _).mp h
  obtain ⟨rfl, hdevice⟩ := verifyDevice_ok haccepted
  obtain ⟨backup, t', hconsume, h⟩ := (Txn.exec_bind_ok _).mp h
  cases accepted with
  | true =>
      left
      obtain ⟨found, hfound, htotp⟩ := hdevice rfl
      have hkey := List.find?_some hfound
      simp only [Bool.and_eq_true, decide_eq_true_eq] at hkey
      exact ⟨found, List.mem_of_find?_eq_some hfound, hkey.1, hkey.2, htotp⟩
  | false =>
      right
      cases backup with
      | none => cases h
      | some backup =>
          obtain ⟨hmem, huser, hunused, hhash⟩ := consumeBackupCode_some hconsume
          exact ⟨backup, hmem, huser, hunused, hhash⟩

theorem mfaVerify_session {code : Option Text} {answer : Answer}
    (h : (mfaVerify setting context now cache session code).exec tables = .ok (answer, after)) :
    answer.session = session ∨ answer.session = { session with pendingUser := none } ∨
      ∃ user submitted, code = some submitted ∧ session.pendingUser = some user.id ∧
        SecondFactor setting tables now user.id (strip submitted) ∧
        answer.session = { session with pendingUser := none }.login setting user := by
  cases hpending : session.pendingUser with
  | none =>
      simp only [mfaVerify, hpending] at h
      obtain ⟨rfl, rfl⟩ := Prod.mk.inj (Except.ok.inj h)
      exact Or.inl rfl
  | some id =>
      simp only [mfaVerify, hpending, Txn.exec_bind, Txn.exec_fetch] at h
      cases hrow : tables.users.find? (·.id = id) with
      | none =>
          rw [hrow] at h
          obtain ⟨rfl, rfl⟩ := Prod.mk.inj (Except.ok.inj h)
          exact Or.inr (Or.inl rfl)
      | some user =>
          have hkey := List.find?_some hrow
          have hid : user.id = id := of_decide_eq_true hkey
          simp only [hrow] at h
          cases code with
          | none =>
              obtain ⟨rfl, rfl⟩ := Prod.mk.inj (Except.ok.inj h)
              exact Or.inl rfl
          | some submitted =>
              dsimp only at h
              split at h
              · obtain ⟨rfl, rfl⟩ := Prod.mk.inj (Except.ok.inj h)
                exact Or.inl rfl
              · obtain ⟨verified, t, hverify, hrest⟩ := (Txn.exec_bind_ok _).mp h
                cases verified with
                | none =>
                    obtain ⟨rfl, rfl⟩ := Prod.mk.inj (Except.ok.inj hrest)
                    exact Or.inl rfl
                | some verified =>
                    obtain ⟨rfl, rfl⟩ := Prod.mk.inj (Except.ok.inj hrest)
                    exact Or.inr (Or.inr ⟨user, submitted, rfl, by rw [hid],
                      verifyCode_some hverify, rfl⟩)

theorem onboard_session {user : User} {answer : Answer}
    (h : (onboard setting context session user).exec tables = .ok (answer, after)) :
    (∀ row ∈ tables.users, row.id ≠ user.id) ∧ answer.session = session.login setting user := by
  simp only [onboard, Txn.exec_bind, Txn.exec_acquire, Txn.exec_fetch] at h
  split at h
  · cases h
  · next hfree =>
      obtain ⟨u, t, -, hrest⟩ := (Txn.exec_bind_ok _).mp h
      obtain ⟨-, rfl, -⟩ := recorded_ok hrest
      refine ⟨fun row hrow hid => hfree ?_, rfl⟩
      exact List.any_eq_true.mpr ⟨row, hrow, by simp [hid]⟩

theorem loginRequired_session {view : User → AccountTx Response} {answer : Answer}
    (h : (loginRequired session current view).exec tables = .ok (answer, after)) :
    answer.session = session := by
  cases current with
  | none =>
      obtain ⟨rfl, -⟩ := Prod.mk.inj (Except.ok.inj h)
      rfl
  | some user =>
      obtain ⟨response, t, -, hanswer⟩ := (Txn.exec_bind_ok _).mp h
      obtain ⟨rfl, -⟩ := Prod.mk.inj (Except.ok.inj hanswer)
      rfl

/-! ## What a request does to its session -/

/-- From the session that a request finds to the one that it leaves. -/
inductive Leads (setting : Setting) (tables : Tables) (now : Time) (session : Session) :
    Route → Session → Prop where
  | keeps {route : Route} {left : Session}
      (auth : left.authUser = session.authUser ∨ left.authUser = none)
      (pending : left.pendingUser = session.pendingUser ∨ left.pendingUser = none) :
      Leads setting tables now session route left
  | pends {username password : Text} {row : User}
      (correct : CorrectPassword setting (emailForm setting) tables username password row) :
      Leads setting tables now session (.login username password)
        { session with pendingUser := some row.id }
  | logsIn {username password : Text} {row user : User}
      (id_eq : user.id = row.id) (device : tables.confirmedDevice row.id = none) :
      Leads setting tables now session (.login username password) (session.login setting user)
  | administers {username password : Text} {row user : User}
      (correct : CorrectPassword setting (adminForm setting) tables username password row)
      (staff : row.isStaff = true) (id_eq : user.id = row.id) :
      Leads setting tables now session (.adminLogin username password)
        (session.login setting user)
  | verifies {user : User} {code : Text} (pending : session.pendingUser = some user.id)
      (factor : SecondFactor setting tables now user.id (strip code)) :
      Leads setting tables now session (.mfaVerify (some code))
        ({ session with pendingUser := none }.login setting user)
  | onboards {user : User} (fresh : ∀ row ∈ tables.users, row.id ≠ user.id) :
      Leads setting tables now session (.onboard user) (session.login setting user)

theorem leads_same (route : Route) : Leads setting tables now session route session :=
  .keeps (Or.inl rfl) (Or.inl rfl)

theorem view_leads {route : Route} {answer : Answer}
    (h : (route.view setting context now cache session current).exec tables = .ok (answer, after)) :
    Leads setting tables now session route answer.session := by
  cases route with
  | login username password =>
      rcases emailLoginPost_session h with
        hsame | ⟨user, row, hcorrect, hid, hpends | ⟨hdevice, -, hlogin⟩⟩
      · rw [hsame]
        exact leads_same _
      · rw [hpends]
        exact .pends hcorrect
      · rw [hlogin]
        exact .logsIn hid hdevice
  | adminLogin username password =>
      rcases adminLoginPost_session h with hsame | ⟨user, row, hcorrect, hstaff, hid, hlogin⟩
      · rw [hsame]
        exact leads_same _
      · rw [hlogin]
        exact .administers hcorrect hstaff hid
  | mfaVerify code =>
      rcases mfaVerify_session h with
        hsame | hdropped | ⟨user, submitted, rfl, hpending, hfactor, hlogin⟩
      · rw [hsame]
        exact leads_same _
      · rw [hdropped]
        exact .keeps (Or.inl rfl) (Or.inr rfl)
      · rw [hlogin]
        exact .verifies hpending hfactor
  | onboard user =>
      obtain ⟨hfresh, hlogin⟩ := onboard_session h
      rw [hlogin]
      exact .onboards hfresh
  | logout =>
      obtain ⟨-, rfl, -⟩ := recorded_ok h
      exact .keeps (Or.inr rfl) (Or.inr rfl)
  | mfaSetup | mfaDisable | mfaRegenerateBackupCodes =>
      rw [loginRequired_session h]
      exact leads_same _
  | passwordChange encoded =>
      cases current with
      | none =>
          obtain ⟨rfl, -⟩ := Prod.mk.inj (Except.ok.inj h)
          exact leads_same _
      | some user =>
          obtain ⟨rfl, -⟩ := Prod.mk.inj (Except.ok.inj h)
          exact .keeps (Or.inl rfl) (Or.inl rfl)
  | elsewhere effect =>
      obtain ⟨rfl, -⟩ := Prod.mk.inj (Except.ok.inj h)
      exact leads_same _

end Views

/-! ## Requests -/

section Requests

variable {setting : Setting} {site : Site} {visit : Visit}

/-- The session that a request finds: one that has gone stale is flushed. -/
def Site.found (setting : Setting) (site : Site) (visit : Visit) : Session :=
  ((site.sessions visit.session).user setting site.tables).1

theorem found_pendingUser {id : ℕ} (h : (site.found setting visit).pendingUser = some id) :
    (site.sessions visit.session).pendingUser = some id := by
  unfold Site.found Session.user at h
  split at h
  · exact h
  · split at h
    · split at h
      · exact h
      · cases h
    · exact h

theorem visit_others {k : ℕ} (hk : k ≠ visit.session) :
    (site.visit setting visit).sessions k = site.sessions k := by
  simp only [Site.visit]
  split
  · exact Function.update_of_ne hk _ _
  · exact Function.update_of_ne hk _ _

theorem visit_leads (setting : Setting) (site : Site) (visit : Visit) :
    Leads setting site.tables visit.now (site.found setting visit) visit.route
      ((site.visit setting visit).sessions visit.session) := by
  simp only [Site.visit]
  split
  · next answer tables hview =>
      dsimp only
      rw [Function.update_self]
      exact view_leads hview
  · dsimp only
    rw [Function.update_self]
    exact leads_same _

/-- The request logs the session in as the user. -/
def Becomes (setting : Setting) (site : Site) (visit : Visit) (k id : ℕ) : Prop :=
  ((site.visit setting visit).sessions k).authUser = some id ∧
    (if k = visit.session then site.found setting visit else site.sessions k).authUser ≠ some id

/-- A login of the admin with the password of a staff user who has a confirmed device. -/
def BypassesMfa (setting : Setting) (site : Site) (visit : Visit) : Prop :=
  ∃ username password row, visit.route = .adminLogin username password ∧
    CorrectPassword setting (adminForm setting) site.tables username password row ∧
    row.isStaff = true ∧ HasConfirmedDevice site.tables row.id

/-- A session becomes that of a user with a confirmed device through the second factor. -/
theorem becomes_verified {k id : ℕ} (h : Becomes setting site visit k id)
    (hdevice : HasConfirmedDevice site.tables id) (hbypass : ¬BypassesMfa setting site visit) :
    k = visit.session ∧ (site.sessions k).pendingUser = some id ∧
      ∃ code, visit.route = .mfaVerify (some code) ∧
        SecondFactor setting site.tables visit.now id (strip code) := by
  obtain ⟨hafter, hbefore⟩ := h
  by_cases hk : k = visit.session
  · subst hk
    rw [if_pos rfl] at hbefore
    have hleads := visit_leads setting site visit
    generalize (site.visit setting visit).sessions visit.session = left at hafter hleads
    generalize hroute : visit.route = route at hleads
    cases hleads with
    | keeps hauth _ =>
        rw [hafter] at hauth
        rcases hauth with hsame | hnone
        · exact absurd hsame.symm hbefore
        · cases hnone
    | pends _ => exact absurd hafter hbefore
    | logsIn hid hnone =>
        obtain rfl := Option.some.inj hafter
        have hsome := confirmedDevice_isSome hdevice
        rw [hid, hnone] at hsome
        cases hsome
    | administers hcorrect hstaff hid =>
        obtain rfl := Option.some.inj hafter
        rw [hid] at hdevice
        exact absurd ⟨_, _, _, hroute, hcorrect, hstaff, hdevice⟩ hbypass
    | verifies hpending hfactor =>
        obtain rfl := Option.some.inj hafter
        exact ⟨rfl, found_pendingUser hpending, _, rfl, hfactor⟩
    | onboards hfresh =>
        obtain rfl := Option.some.inj hafter
        obtain ⟨⟨row, hrow, hid⟩, -⟩ := hdevice
        exact absurd hid (hfresh row hrow)
  · rw [if_neg hk] at hbefore
    rw [visit_others hk] at hafter
    exact absurd hafter hbefore

/-- A session has a pending user only after the password of that user. -/
theorem visit_pendingUser {k id : ℕ}
    (h : ((site.visit setting visit).sessions k).pendingUser = some id) :
    (site.sessions k).pendingUser = some id ∨
      visit.session = k ∧ ∃ username password row, visit.route = .login username password ∧
        CorrectPassword setting (emailForm setting) site.tables username password row ∧
        row.id = id := by
  by_cases hk : k = visit.session
  · subst hk
    have hleads := visit_leads setting site visit
    generalize (site.visit setting visit).sessions visit.session = left at h hleads
    generalize hroute : visit.route = route at hleads
    cases hleads with
    | keeps _ hpending =>
        rw [h] at hpending
        rcases hpending with hsame | hnone
        · exact Or.inl (found_pendingUser hsame.symm)
        · cases hnone
    | pends hcorrect =>
        obtain rfl := Option.some.inj h
        exact Or.inr ⟨rfl, _, _, _, rfl, hcorrect, rfl⟩
    | logsIn _ _ => exact Or.inl (found_pendingUser (Session.login_pendingUser h))
    | administers _ _ _ => exact Or.inl (found_pendingUser (Session.login_pendingUser h))
    | verifies _ _ =>
        have hnone := Session.login_pendingUser h
        cases hnone
    | onboards _ => exact Or.inl (found_pendingUser (Session.login_pendingUser h))
  · rw [visit_others hk] at h
    exact Or.inl h

end Requests

/-! ## Runs -/

/-- In an earlier request of the session the password of the user was submitted, and the user
has been pending in it ever since. -/
def PasswordGiven (setting : Setting) (start : Site) (visits : List Visit) (k id : ℕ) : Prop :=
  ∃ before login between, visits = before ++ login :: between ∧ login.session = k ∧
    (∃ username password row, login.route = .login username password ∧
      CorrectPassword setting (emailForm setting) (start.serve setting before).tables username
        password row ∧ row.id = id) ∧
    ∀ first rest, between = first ++ rest →
      ((start.serve setting (before ++ login :: first)).sessions k).pendingUser = some id

section Runs

variable {setting : Setting} {start : Site}

theorem serve_concat (visits : List Visit) (visit : Visit) :
    start.serve setting (visits ++ [visit]) = (start.serve setting visits).visit setting visit := by
  rw [Site.serve, List.foldl_append]
  rfl

theorem passwordGiven_of_pending (hstart : ∀ k, (start.sessions k).pendingUser = none)
    (visits : List Visit) {k id : ℕ}
    (h : ((start.serve setting visits).sessions k).pendingUser = some id) :
    PasswordGiven setting start visits k id := by
  induction visits using List.reverseRecOn with
  | nil =>
      have hnone := hstart k
      rw [Site.serve, List.foldl_nil, hnone] at h
      cases h
  | append_singleton visits visit ih =>
      have hafter := h
      rw [serve_concat] at h
      rcases visit_pendingUser h with hbefore | ⟨hk, hlogin⟩
      · obtain ⟨before, login, between, rfl, hsession, hcorrect, hpending⟩ := ih hbefore
        refine ⟨before, login, between ++ [visit], by simp, hsession, hcorrect, ?_⟩
        intro first rest hsplit
        rcases List.eq_nil_or_concat rest with rfl | ⟨rest, last, rfl⟩
        · rw [List.append_nil] at hsplit
          subst hsplit
          simpa using hafter
        · rw [List.concat_eq_append, ← List.append_assoc] at hsplit
          obtain ⟨hbetween, -⟩ := List.append_inj' hsplit rfl
          exact hpending first rest hbetween
      · refine ⟨visits, visit, [], rfl, hk, hlogin, ?_⟩
        intro first rest hsplit
        obtain ⟨rfl, -⟩ := List.append_eq_nil_iff.mp hsplit.symm
        exact hafter

end Runs

/-- Where no admin login bypasses it, a session becomes that of a user with a confirmed device
only in a request with an accepted TOTP or an unused backup code of the user, after the user's
password in the same session. -/
theorem mfa_gate (setting : Setting) (start : Site)
    (hstart : ∀ k, (start.sessions k).pendingUser = none) (visits : List Visit)
    (hbypass : ∀ before visit after, visits = before ++ visit :: after →
      ¬BypassesMfa setting (start.serve setting before) visit) :
    ∀ before visit after, visits = before ++ visit :: after → ∀ k id,
      HasConfirmedDevice (start.serve setting before).tables id →
      Becomes setting (start.serve setting before) visit k id →
      k = visit.session ∧ PasswordGiven setting start before k id ∧
        ∃ code, visit.route = .mfaVerify (some code) ∧
          SecondFactor setting (start.serve setting before).tables visit.now id
            (strip code) := by
  intro before visit after hvisits k id hdevice hbecomes
  obtain ⟨hk, hpending, hcode⟩ := becomes_verified hbecomes hdevice
    (hbypass before visit after hvisits)
  exact ⟨hk, passwordGiven_of_pending hstart before hpending, hcode⟩

/-- A staff user with a confirmed device, and browsers that are logged in as nobody. -/
def staffSite : Site where
  tables :=
    { users := [{ id := 1, email := ['a', '@', 'b'], password := ['#', 'p', 'w'],
                  isActive := true, isStaff := true }]
      devices := [{ id := 1, user := 1, secret := [], confirmed := true, lastUsedAt := none }]
      backupCodes := []
      auditLog := [] }
  cache := fun _ => none
  sessions := fun _ => .empty

theorem staffSite_device : HasConfirmedDevice staffSite.tables 1 :=
  ⟨⟨_, List.mem_cons_self, rfl⟩, _, List.mem_cons_self, rfl, rfl⟩

/-- The password, in browser 7. -/
def passwordVisit : Visit where
  now := 0
  context := plainContext
  session := 7
  route := .login ['a', '@', 'b'] ['p', 'w']

/-- The code of the device, in browser 7. -/
def codeVisit : Visit where
  now := 0
  context := plainContext
  session := 7
  route := .mfaVerify (some ['0', '0', '0', '0', '0', '0'])

theorem mfa_gate_code : PasswordGiven plainSetting staffSite [passwordVisit] 7 1 := by
  have hbypass : ∀ before visit after, [passwordVisit, codeVisit] = before ++ visit :: after →
      ¬BypassesMfa plainSetting (staffSite.serve plainSetting before) visit := by
    rintro before visit after hvisits ⟨username, password, row, hroute, -⟩
    have hmem : visit ∈ [passwordVisit, codeVisit] := by
      rw [hvisits]
      exact List.mem_append_right _ List.mem_cons_self
    rcases List.mem_pair.mp hmem with rfl | rfl
    · cases hroute
    · cases hroute
  have hbecomes :
      Becomes plainSetting (staffSite.serve plainSetting [passwordVisit]) codeVisit 7 1 :=
    ⟨by decide +kernel, by decide +kernel⟩
  exact (mfa_gate plainSetting staffSite (fun _ => rfl) [passwordVisit, codeVisit] hbypass
    [passwordVisit] codeVisit [] rfl 7 1 staffSite_device hbecomes).2.1

/-- The same password at the login of the admin. -/
def adminVisit : Visit where
  now := 0
  context := plainContext
  session := 7
  route := .adminLogin ['a', '@', 'b'] ['p', 'w']

/-- The session becomes that of the user without any code. -/
theorem mfa_gate_failing :
    ¬∀ (setting : Setting) (start : Site), (∀ k, (start.sessions k).pendingUser = none) →
      ∀ visits before visit after, visits = before ++ visit :: after → ∀ k id,
        HasConfirmedDevice (start.serve setting before).tables id →
        Becomes setting (start.serve setting before) visit k id →
        ∃ code, visit.route = .mfaVerify (some code) := by
  intro h
  have hbecomes : Becomes plainSetting staffSite adminVisit 7 1 :=
    ⟨by decide +kernel, by decide +kernel⟩
  obtain ⟨code, hcode⟩ := h plainSetting staffSite (fun _ => rfl) [adminVisit] [] adminVisit [] rfl
    7 1 staffSite_device hbecomes
  cases hcode

end Kusanya.Accounts
