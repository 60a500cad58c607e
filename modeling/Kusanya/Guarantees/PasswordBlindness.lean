import Kusanya.Model.Login

/-!
# What a locked-out login tells

The locked-out branch of `EmailLoginView.post` builds the form anew, and its page asks the form
for its errors.  That checks the credentials after all, unless a field is invalid by itself.
-/

namespace Kusanya.Accounts

open ReadCommitted Support

section Blindness

variable (setting : Setting) (tables : Tables) (cache : Cache) (session : Session)
  (current : Option User) (post : LoginPost)

/-- The view on the POST with this password. -/
def LoginPost.withPassword (password : Text) : AccountTx Answer :=
  emailLoginPost setting cache session current { post with password }

/-- Two POSTs that differ in the password only get the same response, check no credentials and
change no row. -/
structure PasswordBlind (p q : Text) : Prop where
  response : ((post.withPassword setting cache session current p).exec tables).map (·.1.response) =
    ((post.withPassword setting cache session current q).exec tables).map (·.1.response)
  unattempted : ∀ password ∈ [p, q],
    (post.withPassword setting cache session current password).calls tables = []
  unchanged : ∀ password ∈ [p, q], ∃ answer,
    (post.withPassword setting cache session current password).exec tables = .ok (answer, tables)

/-- The form refuses the fields by themselves. -/
def FieldsInvalid (username password : Text) : Prop :=
  setting.cleanEmail username = none ∨ validPassword password = false

end Blindness

section Branches

variable {setting : Setting} {tables : Tables} {cache : Cache} {session : Session}
  {current : Option User} {post : LoginPost} {p q : Text}

/-- A form with an invalid field checks nothing. -/
theorem fullClean_invalid (context : RequestContext) (kind : FormKind) {username password : Text}
    (h : kind.clean username = none ∨ validPassword password = false) :
    fullClean setting context kind username password = pure
      { usernameInvalid := (kind.clean username).isNone
        passwordInvalid := !validPassword password
        nonFieldErrors := []
        user := none } := by
  unfold fullClean
  cases hclean : kind.clean username with
  | none => rfl
  | some email =>
      have hpassword := h.resolve_left fun hnone => by
        rw [hclean] at hnone
        cases hnone
      simp [hpassword]

/-- A form whose fields are valid checks the credentials. -/
theorem fullClean_calls (context : RequestContext) (kind : FormKind)
    {username password email : Text}
    (hclean : kind.clean username = some email) (hpassword : validPassword password = true)
    (tables : Tables) : (fullClean setting context kind username password).calls tables ≠ [] := by
  unfold fullClean authenticate
  rw [hclean]
  simp [hpassword, Txn.calls_bind, Txn.invoke, Txn.calls]

theorem withPassword_current (hcurrent : current.isSome) :
    post.withPassword setting cache session current p = pure
      { response := .redirect "core:dashboard-router", session } := by
  simp [LoginPost.withPassword, emailLoginPost, hcurrent]

/-- The page of a locked-out login. -/
def lockedOutPage (username : Text) (form : LoginForm) : Response :=
  form.page ["Too many failed sign-in attempts. Please try again in a few minutes."] username

theorem withPassword_locked (hcurrent : current.isSome = false)
    (hlocked : isLockedOut cache post.now .login
      (loginThrottleIdentifier setting post.context post.username) = true) :
    post.withPassword setting cache session current p =
      fullClean setting post.context (emailForm setting) post.username p >>= fun form =>
        pure { response := lockedOutPage post.username form, session } := by
  simp only [LoginPost.withPassword, emailLoginPost, hcurrent, hlocked]
  rfl

theorem withPassword_invalid (hcurrent : current.isSome = false)
    (hlocked : isLockedOut cache post.now .login
      (loginThrottleIdentifier setting post.context post.username) = true)
    (hinvalid : FieldsInvalid setting post.username p) :
    post.withPassword setting cache session current p = pure
      { response := lockedOutPage post.username
          { usernameInvalid := (setting.cleanEmail post.username).isNone
            passwordInvalid := !validPassword p
            nonFieldErrors := []
            user := none }
        session } := by
  rw [withPassword_locked hcurrent hlocked, fullClean_invalid _ (emailForm setting) hinvalid]
  rfl

/-- A blind login has not come to check the credentials. -/
theorem invalid_of_unattempted (hcurrent : current.isSome = false)
    (hlocked : isLockedOut cache post.now .login
      (loginThrottleIdentifier setting post.context post.username) = true)
    (hcalls : (post.withPassword setting cache session current p).calls tables = []) :
    FieldsInvalid setting post.username p := by
  rw [withPassword_locked hcurrent hlocked, Txn.calls_bind] at hcalls
  by_contra hvalid
  obtain ⟨hclean, hpassword⟩ := not_or.mp hvalid
  obtain ⟨email, hemail⟩ := Option.ne_none_iff_exists'.mp hclean
  have hpassword : validPassword p = true := by simpa using hpassword
  exact fullClean_calls _ (emailForm setting) hemail hpassword tables
    (List.append_eq_nil_iff.mp hcalls).1

end Branches

/-- While it is locked out, a login is blind to the password exactly where the browser is logged
in already, or where the form refuses its fields by themselves and shows the same errors. -/
theorem login_lockout_blind (setting : Setting) (tables : Tables) (cache : Cache)
    (session : Session) (current : Option User) (post : LoginPost) (p q : Text)
    (hlocked : isLockedOut cache post.now .login
      (loginThrottleIdentifier setting post.context post.username) = true) :
    PasswordBlind setting tables cache session current post p q ↔
      current.isSome ∨ (validPassword p = validPassword q ∧
        FieldsInvalid setting post.username p) := by
  cases hcurrent : current.isSome with
  | true =>
      refine ⟨fun _ => Or.inl rfl, fun _ => ?_⟩
      constructor
      · rw [withPassword_current hcurrent, withPassword_current hcurrent]
      · intro password _
        rw [withPassword_current hcurrent]
        rfl
      · intro password _
        rw [withPassword_current hcurrent]
        exact ⟨_, rfl⟩
  | false =>
      constructor
      · intro h
        right
        have hp := invalid_of_unattempted hcurrent hlocked (h.unattempted p (by simp))
        have hq := invalid_of_unattempted hcurrent hlocked (h.unattempted q (by simp))
        have hresponse := h.response
        rw [withPassword_invalid hcurrent hlocked hp, withPassword_invalid hcurrent hlocked hq]
          at hresponse
        simp only [Txn.pure_eq_ret, Txn.exec_ret, Except.map, Except.ok.injEq, lockedOutPage,
          LoginForm.page, Response.loginPage.injEq, LoginPage.mk.injEq, Bool.not_eq_eq_eq_not,
          Bool.not_not, true_and, and_true] at hresponse
        exact ⟨hresponse, hp⟩
      · rintro (hsome | ⟨hsame, hp⟩)
        · cases hsome
        have hq : FieldsInvalid setting post.username q := by
          rcases hp with hclean | hpassword
          · exact Or.inl hclean
          · exact Or.inr (hsame ▸ hpassword)
        have hboth : ∀ password ∈ [p, q], FieldsInvalid setting post.username password := by
          intro password hpassword
          rcases List.mem_pair.mp hpassword with rfl | rfl
          · exact hp
          · exact hq
        constructor
        · rw [withPassword_invalid hcurrent hlocked hp, withPassword_invalid hcurrent hlocked hq,
            hsame]
        · intro password hpassword
          rw [withPassword_invalid hcurrent hlocked (hboth password hpassword)]
          rfl
        · intro password hpassword
          rw [withPassword_invalid hcurrent hlocked (hboth password hpassword)]
          exact ⟨_, rfl⟩

/-- One user, whose password is `pw`. -/
def oneUser : Tables where
  users := [{ id := 1, email := ['a', '@', 'b'], password := ['#', 'p', 'w'], isActive := true,
              isStaff := false }]
  devices := []
  backupCodes := []
  auditLog := []

/-- The cache once every identifier has failed `MAX_ATTEMPTS` times. -/
def lockedCache : Cache := fun _ => some { value := maxAttempts, expires := lockout }

/-- A login of this user name, at the time at which the cache was locked. -/
def loginAs (username : Text) : LoginPost where
  now := 0
  context := plainContext
  username
  password := []

theorem login_lockout_blind_address :
    PasswordBlind plainSetting oneUser lockedCache .empty none (loginAs ['a']) ['p', 'w'] ['p'] :=
  (login_lockout_blind plainSetting oneUser lockedCache .empty none (loginAs ['a']) ['p', 'w'] ['p']
    (by decide)).mpr (Or.inr ⟨rfl, Or.inl rfl⟩)

/-- The right password is told from a wrong one. -/
theorem login_lockout_blind_failing :
    ¬∀ setting tables cache session current (post : LoginPost) p q,
      isLockedOut cache post.now .login
        (loginThrottleIdentifier setting post.context post.username) =
        true → PasswordBlind setting tables cache session current post p q := by
  intro h
  have hblind := h plainSetting oneUser lockedCache .empty none (loginAs ['a', '@', 'b'])
    ['p', 'w'] ['p'] (by decide)
  have hcalls := hblind.unattempted ['p'] (by simp)
  revert hcalls
  decide

end Kusanya.Accounts
