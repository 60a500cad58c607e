import Kusanya.Guarantees.MfaGate
import Kusanya.Guarantees.OnboardingCollisions

/-!
# Registration and the first login

The registration forms strip the password and lower the address; the login form does neither to
the password, and only strips the address.  What was typed at registration logs the user in exactly
where the password has no space around it and the address is in lower case.
-/

namespace Kusanya.Tenancy

open ReadCommitted Support Api

/-! ## Accounts -/

/-- The login and the registrations run on the same Django. -/
structure Agrees (setting : Accounts.Setting) (texts : Texts) : Prop where
  lower : setting.lower = texts.lower
  cleanEmail : ∀ text, setting.cleanEmail text = emailField texts text
  checkPassword : ∀ password drawn,
    setting.checkPassword password (texts.makePassword drawn) = true ↔ password = drawn

/-- The account of a row that a team view reads; `flags` are its `is_active` and `is_staff`. -/
def TeamUser.account (flags : ℕ → Bool × Bool) (row : TeamUser) : Accounts.User :=
  { id := row.id
    email := row.email
    password := row.password
    isActive := (flags row.id).1
    isStaff := (flags row.id).2 }

/-- A view has accepted the address and the password, and has created the account. -/
inductive Creates (setting : Accounts.Setting) (texts : Texts) (email password : Text) (id : ℕ) :
    List Accounts.User → Prop where
  | onboarding {context : RequestContext} {r after : Registry} {draw : OnboardingDraw}
      {form : TenantOnboardingForm} {data : OnboardingData} {view : RegistryTx OnboardingAnswer}
      {answer : OnboardingAnswer} (hview : Onboards texts context draw form view)
        (hdraw : draw.Fresh r)
      (hvalid : (form.clean texts).exec r = .ok (.ok data, r))
      (hexec : view.exec r = .ok (answer, after))
      (hid : draw.userId = id) (hemail : form.adminEmail = email)
      (hpassword : form.adminPassword = password) :
      Creates setting texts email password id (after.users.map (·.toUser))
  | teamMember {context : RequestContext} {t after : TeamTables} {draw : TeamDraw}
      {form : TeamMemberForm} {data : TeamMember} {user tenant : ℕ} {message : Option Text}
      {flags : ℕ → Bool × Bool} (hvalid : form.clean texts = .ok data)
      (hexec : (teamMemberCreate setting context texts.makePassword draw (some (.ok data)) user
        tenant).exec t = .ok (.team message, after))
      (hflags : flags id = (true, false))
      (hid : draw.userId = id) (hemail : form.email = email)
        (hpassword : form.password = password) :
      Creates setting texts email password id (after.users.map (·.account flags))

/-- What the account of a registration is. -/
structure NewAccount (texts : Texts) (email password : Text) (id : ℕ)
    (users : List Accounts.User) : Prop where
  created : ∃ user ∈ users, user.id = id ∧ user.email = texts.lower (strip email) ∧
    user.password = texts.makePassword (strip password) ∧ user.isActive = true
  onlyEmail : ∀ row ∈ users, row.email = texts.lower (strip email) → row.id = id
  onlyId : ∀ row ∈ users, row.id = id → row.email = texts.lower (strip email) ∧
    row.password = texts.makePassword (strip password) ∧ row.isActive = true
  address : emailField texts email = some (strip email)
  field : charField (some 12) none password = some (strip password)

section Accounts

variable {setting : Accounts.Setting} {texts : Texts} {email password : Text} {id : ℕ}

/-- A row appended to rows with other keys and addresses. -/
theorem NewAccount.of_append {users : List Accounts.User} {row : Accounts.User}
    (hid : row.id = id) (hemail : row.email = texts.lower (strip email))
    (hpassword : row.password = texts.makePassword (strip password)) (hactive : row.isActive = true)
    (hfree : ∀ other ∈ users, other.id ≠ id ∧ other.email ≠ texts.lower (strip email))
    (haddress : emailField texts email = some (strip email))
    (hfield : charField (some 12) none password = some (strip password)) :
    NewAccount texts email password id (users ++ [row]) where
  created := ⟨row, List.mem_append_right _ List.mem_cons_self, hid, hemail, hpassword, hactive⟩
  onlyEmail := by
    intro other hother heq
    rcases List.mem_append.mp hother with hother | hother
    · exact absurd heq (hfree other hother).2
    · rw [List.mem_singleton.mp hother]
      exact hid
  onlyId := by
    intro other hother heq
    rcases List.mem_append.mp hother with hother | hother
    · exact absurd heq (hfree other hother).1
    · rw [List.mem_singleton.mp hother]
      exact ⟨hemail, hpassword, hactive⟩
  address := haddress
  field := hfield

theorem TeamMemberForm.clean_ok {form : TeamMemberForm} {data : TeamMember}
    (h : form.clean texts = .ok data) :
    emailField texts form.email = some data.email ∧
      charField (some 12) none form.password = some data.password := by
  unfold TeamMemberForm.clean at h
  split at h
  · next hemail hpassword _ =>
      obtain rfl := Except.ok.inj h
      exact ⟨hemail, hpassword⟩
  · cases h

/-- The row that `team_member_create` has added. -/
theorem teamMemberCreate_ok {context : RequestContext} {t after : TeamTables} {draw : TeamDraw}
    {data : TeamMember} {makePassword : Text → Text} {user tenant : ℕ} {message : Option Text}
    (h : (teamMemberCreate setting context makePassword draw (some (.ok data)) user tenant).exec t =
      .ok (.team message, after)) :
    after.users = t.users ++ [data.toUser makePassword draw (setting.lower (strip data.email))] ∧
      ∀ row ∈ t.users, row.id ≠ draw.userId ∧ row.email ≠ setting.lower (strip data.email) := by
  have hcreate : ∀ {row : TeamUser} {s s' : TeamTables}, (createUser row).exec s = .ok ((), s') →
      s'.users = s.users ++ [row] ∧
        ∀ other ∈ s.users, other.id ≠ row.id ∧ other.email ≠ row.email := by
    intro row s s' hrow
    simp only [createUser, Txn.exec_bind, Txn.exec_acquire, Txn.exec_fetch, Txn.exec_ite] at hrow
    split at hrow
    · cases hrow
    · next hclash =>
        obtain ⟨-, rfl⟩ := Prod.mk.inj (Except.ok.inj hrow)
        refine ⟨rfl, fun other hother => ⟨fun hid => hclash ?_, fun hemail => hclash ?_⟩⟩
        · exact List.any_eq_true.mpr ⟨other, hother, by simp [hid]⟩
        · exact List.any_eq_true.mpr ⟨other, hother, by simp [hemail]⟩
  rw [teamMemberCreate] at h
  obtain ⟨taken, t₁, htaken, h⟩ := (Txn.exec_bind_ok _).mp h
  obtain ⟨-, rfl⟩ := Prod.mk.inj (Except.ok.inj htaken)
  rw [Txn.exec_ite] at h
  split at h
  · obtain ⟨hform, -⟩ := Prod.mk.inj (Except.ok.inj h)
    cases hform
  · obtain ⟨_, t₂, huser, h⟩ := (Txn.exec_bind_ok _).mp h
    obtain ⟨_, t₃, hmembership, h⟩ := (Txn.exec_bind_ok _).mp h
    obtain ⟨_, t₄, hrecord, h⟩ := (Txn.exec_bind_ok _).mp h
    obtain ⟨-, rfl⟩ := Prod.mk.inj (Except.ok.inj h)
    obtain ⟨husers, hfree⟩ := hcreate huser
    have hrecorded : t₄.users = t₃.users := by
      rw [recordTeamEvent, Txn.exec_ite] at hrecord
      split at hrecord
      · obtain ⟨-, rfl⟩ := Prod.mk.inj (Except.ok.inj hrecord)
        rfl
      · cases hrecord
    have hkept : t₃.users = t₂.users := by
      simp only [createMembership, Txn.exec_bind, Txn.exec_fetch, Txn.exec_ite] at hmembership
      split at hmembership
      · cases hmembership
      · obtain ⟨-, rfl⟩ := Prod.mk.inj (Except.ok.inj hmembership)
        rfl
    exact ⟨hrecorded.trans (hkept.trans husers), hfree⟩

theorem Creates.newAccount (hagrees : Agrees setting texts) {users : List Accounts.User}
    (h : Creates setting texts email password id users) :
    NewAccount texts email password id users := by
  cases h with
  | @onboarding context r after draw form data view answer hview hdraw hvalid hexec hid hemail
      hpassword =>
      subst hid hemail hpassword
      obtain ⟨-, hclean⟩ := clean_valid hvalid
      have hstored : data.Storable texts r ∧ context.Auditable texts.isAddress := by
        by_contra hnot
        obtain ⟨e, he⟩ := hview.raises hvalid hdraw hnot
        rw [hexec] at he
        cases he
      obtain ⟨approval, answer', after', hexec', hregisters⟩ :=
        hview.stores hvalid hdraw hstored.1 hstored.2
      rw [hexec] at hexec'
      obtain ⟨-, rfl⟩ := Prod.mk.inj (Except.ok.inj hexec')
      have hstrip : data.adminPassword = strip form.adminPassword :=
        (charField_some hclean.password).1
      rw [hregisters.users, List.map_append, List.map_singleton]
      refine NewAccount.of_append rfl hclean.email ?_ rfl ?_ hclean.address ?_
      · rw [← hstrip]
        rfl
      · intro other hother
        obtain ⟨row, hrow, rfl⟩ := List.mem_map.mp hother
        refine ⟨hdraw.users row hrow, ?_⟩
        rw [← hclean.email]
        exact hclean.free row hrow
      · rw [← hstrip]
        exact hclean.password
  | @teamMember context t after draw form data user tenant message flags hvalid hexec hflags hid
      hemail hpassword =>
      subst hid hemail hpassword
      obtain ⟨haddress, hfield⟩ := TeamMemberForm.clean_ok hvalid
      obtain ⟨hemail, -⟩ := emailField_some texts haddress
      have hstrip := (charField_some hfield).1
      obtain ⟨husers, hfree⟩ := teamMemberCreate_ok hexec
      rw [hagrees.lower, hemail, strip_strip] at husers hfree
      rw [husers, List.map_append, List.map_singleton]
      refine NewAccount.of_append rfl rfl ?_ ?_ ?_ ?_ ?_
      · rw [← hstrip]
        rfl
      · exact congrArg Prod.fst hflags
      · intro other hother
        obtain ⟨row, hrow, rfl⟩ := List.mem_map.mp hother
        exact hfree row hrow
      · rw [← hemail]
        exact haddress
      · rw [← hstrip]
        exact hfield

end Accounts

/-! ## The login -/

section Login

open Accounts (AccountTx Tables Answer Cache CorrectPassword)

variable {setting : Accounts.Setting} {texts : Texts} {context : RequestContext} {tables : Tables}
  {username password : Text}

/-- The right password of an active user is accepted. -/
theorem authenticate_accepts {row : Accounts.User}
    (hrow : tables.users.find? (·.email = username) = some row)
    (hpassword : setting.checkPassword password row.password = true)
    (hactive : row.isActive = true) :
    ∃ found after, (Accounts.authenticate setting context username password).exec tables =
      .ok (some found, after) ∧ found.id = row.id ∧ after.devices = tables.devices := by
  simp only [Accounts.authenticate, Txn.exec_bind, Txn.exec_invoke, Txn.exec_fetch, hrow]
  rw [if_pos hpassword]
  cases setting.rehash password row.password with
  | none =>
      refine ⟨{ row with password := row.password }, tables, ?_, rfl, rfl⟩
      exact (congrArg (Txn.exec · tables) (if_pos hactive)).trans rfl
  | some encoded =>
      refine ⟨{ row with password := encoded },
        tables.updateUser row.id fun row => { row with password := encoded }, ?_, rfl, rfl⟩
      refine (Txn.exec_bind_ok _).mpr ⟨(), _, rfl, ?_⟩
      exact (congrArg (Txn.exec · _) (if_pos hactive)).trans rfl

/-- The login view leaves the session with the user, or at the user's second step. -/
def LogsIn (setting : Accounts.Setting) (cache : Cache) (tables : Tables)
    (post : Accounts.LoginPost) (id : ℕ) : Prop :=
  ∃ answer after, (Accounts.emailLoginPost setting cache .empty none post).exec tables =
      .ok (answer, after) ∧
    if (tables.confirmedDevice id).isSome then answer.session.pendingUser = some id
    else answer.session.authUser = some id

theorem logsIn_of_correct {cache : Cache} {post : Accounts.LoginPost} {row : Accounts.User}
    (hlocked : Accounts.isLockedOut cache post.now .login
      (Accounts.loginThrottleIdentifier setting post.context post.username) = false)
    (hvalid : Accounts.validPassword post.password = true)
    (haudited : (tables.confirmedDevice row.id).isSome = true ∨
      post.context.Auditable setting.isAddress)
    (hcorrect : CorrectPassword setting (Accounts.emailForm setting) tables post.username
      post.password row) :
    LogsIn setting cache tables post row.id := by
  obtain ⟨email, hclean, hrow⟩ := hcorrect.found
  obtain ⟨found, after, hexec, hid, hdevices⟩ : ∃ found after,
      (Accounts.authenticate setting post.context email post.password).exec tables =
        .ok (some found, after) ∧ found.id = row.id ∧ after.devices = tables.devices :=
    authenticate_accepts hrow hcorrect.checked hcorrect.active
  have hform : (Accounts.fullClean setting post.context (Accounts.emailForm setting) post.username
      post.password).exec tables = .ok
        ({ usernameInvalid := false
           passwordInvalid := false
           nonFieldErrors := []
           user := some found }, after) := by
    simp only [Accounts.fullClean, hclean]
    rw [if_pos hvalid]
    exact (Txn.exec_bind_ok _).mpr ⟨_, _, hexec, rfl⟩
  have hdevice : after.confirmedDevice found.id = tables.confirmedDevice row.id := by
    rw [Tables.confirmedDevice, Tables.confirmedDevice, hdevices, hid]
  unfold LogsIn
  simp only [Accounts.emailLoginPost, Option.isSome_none, Bool.false_eq_true, if_false, hlocked,
    Txn.exec_bind, hform, Txn.exec_invoke, Txn.exec_fetch, hdevice]
  cases hconfirmed : tables.confirmedDevice row.id with
  | none =>
      rw [hconfirmed] at haudited
      have hauditable := haudited.resolve_left Bool.false_ne_true
      simp only [Accounts.recordAccountEvent, if_pos hauditable]
      exact ⟨_, _, rfl, by simp [hid]⟩
  | some device => exact ⟨_, _, rfl, by simp [hid]⟩

/-- Who is logged in has submitted a password that is right, and is in the audit log. -/
theorem correct_of_logsIn {cache : Cache} {post : Accounts.LoginPost} {id : ℕ}
    (h : LogsIn setting cache tables post id) :
    (∃ row, row.id = id ∧ CorrectPassword setting (Accounts.emailForm setting) tables post.username
      post.password row) ∧
    ((tables.confirmedDevice id).isSome = true ∨ post.context.Auditable setting.isAddress) := by
  obtain ⟨answer, after, hexec, hsession⟩ := h
  rcases Accounts.emailLoginPost_session hexec with hempty | ⟨user, row, hcorrect, hid, hsome⟩
  · rw [hempty] at hsession
    split at hsession
    · cases hsession
    · cases hsession
  · rcases hsome with hpending | ⟨-, hauditable, hlogin⟩
    · rw [hpending] at hsession
      split at hsession
      · next hdevice => exact ⟨⟨row, Option.some.inj hsession, hcorrect⟩, Or.inl hdevice⟩
      · cases hsession
    · refine ⟨⟨row, ?_, hcorrect⟩, Or.inr hauditable⟩
      rw [hlogin] at hsession
      split at hsession
      · have hnone := Accounts.Session.login_pendingUser hsession
        cases hnone
      · rw [← hid]
        exact Option.some.inj hsession

end Login

/-- For every address and password that one of the forms has accepted, and the account that its view
has created: the same two texts log this user in exactly where the password has no space around it,
the address, without the space around it, is in lower case, and the audit row of the login, which
waits for the second factor of a user with a confirmed device, can be stored. -/
theorem first_login {setting : Accounts.Setting} {texts : Texts} (hagrees : Agrees setting texts)
    {email password : Text} {id : ℕ} {tables : Accounts.Tables}
    (hcreates : Creates setting texts email password id tables.users) {cache : Accounts.Cache}
    {now : Time} {context : RequestContext}
    (hlocked : Accounts.isLockedOut cache now .login
      (Accounts.loginThrottleIdentifier setting context email) = false) :
    LogsIn setting cache tables { now, context, username := email, password } id ↔
      strip password = password ∧ texts.lower (strip email) = strip email ∧
        ((tables.confirmedDevice id).isSome = true ∨ context.Auditable setting.isAddress) := by
  obtain ⟨⟨user, hmem, hid, hemail, hpassword, hactive⟩, honlyEmail, honlyId, haddress, hfield⟩ :=
    hcreates.newAccount hagrees
  constructor
  · intro hlogs
    obtain ⟨⟨row, hrow, ⟨address, hclean, hfound⟩, hchecked, -⟩, haudited⟩ :=
      correct_of_logsIn hlogs
    have hclean' : emailField texts email = some address := by
      rw [← hagrees.cleanEmail]
      exact hclean
    obtain rfl : strip email = address := Option.some.inj (haddress.symm.trans hclean')
    obtain ⟨hrowEmail, hrowPassword, -⟩ := honlyId row (List.mem_of_find?_eq_some hfound) hrow
    refine ⟨?_, ?_, haudited⟩
    · rw [hrowPassword, hagrees.checkPassword] at hchecked
      exact hchecked.symm
    · rw [← hrowEmail]
      simpa using List.find?_some hfound
  · rintro ⟨hstrip, hlower, haudited⟩
    have hfound : ∃ row, tables.users.find? (·.email = strip email) = some row := by
      rw [← Option.isSome_iff_exists, List.find?_isSome]
      exact ⟨user, hmem, by simp [hemail, hlower]⟩
    obtain ⟨row, hfound⟩ := hfound
    have hrowMem := List.mem_of_find?_eq_some hfound
    have hrowEmail : row.email = strip email := by simpa using List.find?_some hfound
    have hrow : row.id = id := honlyEmail row hrowMem (hrowEmail.trans hlower.symm)
    obtain ⟨-, hrowPassword, hrowActive⟩ := honlyId row hrowMem hrow
    obtain ⟨-, hne, -, -, hnull⟩ := charField_some hfield
    rw [hstrip] at hne hnull hrowPassword
    have hvalid : Accounts.validPassword password = true := by
      simp [Accounts.validPassword, hne, hnull]
    rw [← hrow] at haudited ⊢
    refine logsIn_of_correct hlocked hvalid haudited ⟨⟨strip email, ?_, hfound⟩, ?_, hrowActive⟩
    · exact (hagrees.cleanEmail email).trans haddress
    · rw [hrowPassword, hagrees.checkPassword]

/-! ## One administrator, twice -/

/-- Readable stand-ins, with the address field of the forms. -/
def asciiSetting : Accounts.Setting :=
  { Accounts.plainSetting with cleanEmail := emailField asciiTexts }

theorem asciiSetting_agrees : Agrees asciiSetting asciiTexts where
  lower := rfl
  cleanEmail _ := rfl
  checkPassword password drawn := by
    change decide ('#' :: drawn = '#' :: password) = true ↔ password = drawn
    simp [eq_comm]

/-- The tables with the account of the administrator alone. -/
def josephTables : Accounts.Tables where
  users := [((schoolData "St. Joseph").toUser asciiTexts secondDraw).toUser]
  devices := []
  backupCodes := []
  auditLog := []

/-- The account is created from an address in any case. -/
theorem joseph_creates (email : Text)
    (hvalid : (({ schoolForm "St. Joseph" with adminEmail := email } :
      TenantOnboardingForm).clean asciiTexts).exec saintMary =
        .ok (.ok (schoolData "St. Joseph"), saintMary)) :
    Creates asciiSetting asciiTexts email "correct horse".toList 2 josephTables.users := by
  have hstorable : (schoolData "St. Joseph").Storable asciiTexts saintMary :=
    ⟨by decide, by decide, by decide +kernel⟩
  have hauditable : Accounts.plainContext.Auditable asciiTexts.isAddress := by decide
  obtain ⟨approval, answer, after, hexec, hregisters⟩ :=
    Onboards.onboard.stores hvalid secondDraw_fresh hstorable hauditable
  have husers : after.users.map (·.toUser) = josephTables.users := by
    rw [hregisters.users]
    rfl
  rw [← husers]
  exact .onboarding .onboard secondDraw_fresh hvalid hexec rfl rfl rfl

theorem first_login_joseph :
    LogsIn asciiSetting (fun _ => none) josephTables
      { now := 1
        context := Accounts.plainContext
        username := "asha@school.example".toList
        password := "correct horse".toList } 2 := by
  have hcreates := joseph_creates "asha@school.example".toList (by decide +kernel)
  exact (first_login asciiSetting_agrees hcreates rfl).mpr (by decide)

/-- An address with a capital letter. -/
theorem first_login_refused :
    ¬∀ (setting : Accounts.Setting) (texts : Texts) (email password : Text) (id : ℕ)
      (tables : Accounts.Tables) (cache : Accounts.Cache) (now : Time)
      (context : RequestContext),
      Agrees setting texts → Creates setting texts email password id tables.users →
      Accounts.isLockedOut cache now .login
        (Accounts.loginThrottleIdentifier setting context email) = false →
      LogsIn setting cache tables { now, context, username := email, password } id := by
  intro hall
  have hcreates := joseph_creates "Asha@school.example".toList (by decide +kernel)
  have hlogs := hall asciiSetting asciiTexts _ _ 2 josephTables (fun _ => none) 1
    Accounts.plainContext asciiSetting_agrees hcreates rfl
  obtain ⟨⟨row, -, ⟨address, hclean, hfound⟩, -⟩, -⟩ := correct_of_logsIn hlogs
  have hnone : ∀ address, emailField asciiTexts "Asha@school.example".toList = some address →
      josephTables.users.find? (·.email = address) = none := by
    intro address haddress
    have hvalue : emailField asciiTexts "Asha@school.example".toList =
        some "Asha@school.example".toList := by decide
    rw [← Option.some.inj (hvalue.symm.trans haddress)]
    decide
  rw [hnone address hclean] at hfound
  cases hfound

end Kusanya.Tenancy
