import Kusanya.Model.Onboarding
import Mathlib.Data.List.TakeWhile
import Mathlib.Data.List.DropRight

/-!
# What a registration stores

A form that is valid, and the rows that the services make of its data.
-/

namespace Kusanya.Tenancy

open ReadCommitted Support Api

/-! ## Texts -/

theorem strip_eq (text : Text) : strip text = (text.dropWhile isSpace).rdropWhile isSpace := rfl

theorem strip_strip (text : Text) : strip (strip text) = strip text := by
  have hleft : (strip text).dropWhile isSpace = strip text := by
    rw [List.dropWhile_eq_self_iff]
    intro hne hspace
    obtain ⟨rest, hrest⟩ : strip text <+: text.dropWhile isSpace := List.rdropWhile_prefix _ _
    have hfirst : 0 < (text.dropWhile isSpace).length := by
      rw [← hrest, List.length_append]
      omega
    refine List.dropWhile_get_zero_not isSpace text hfirst ?_
    have hhead : (text.dropWhile isSpace)[0] = (strip text)[0] := by
      simp only [← hrest, List.getElem_append_left hne]
    simpa [hhead] using hspace
  rw [strip_eq, hleft, strip_eq, List.rdropWhile_idempotent]

section Addresses

variable (texts : Texts)

/-- A text with an `@` is cut at the last one. -/
theorem rsplitAt_some {text name domain : Text} (h : rsplitAt text = some (name, domain)) :
    text = name ++ '@' :: domain := by
  simp only [rsplitAt] at h
  split at h
  · next hmem =>
      obtain ⟨hname, hdomain⟩ := Prod.mk.inj (Option.some.inj h)
      have hdrop : ∃ rest, text.reverse.dropWhile (· ≠ '@') = '@' :: rest := by
        cases hrest : text.reverse.dropWhile (· ≠ '@') with
        | nil =>
            have hall := List.dropWhile_eq_nil_iff.mp hrest '@' (List.mem_reverse.mpr hmem)
            exact absurd hall (by decide)
        | cons c rest =>
            have hc : c = '@' := by
              have hfirst := List.head?_dropWhile_not (· ≠ '@') text.reverse
              rw [hrest] at hfirst
              simpa using hfirst
            exact ⟨rest, by rw [hc]⟩
      obtain ⟨rest, hrest⟩ := hdrop
      have hreverse : text.reverse = text.reverse.takeWhile (· ≠ '@') ++ '@' :: rest := by
        rw [← hrest, List.takeWhile_append_dropWhile]
      have htext : text = rest.reverse ++ '@' :: domain := by
        have hback := congrArg List.reverse hreverse
        rw [List.reverse_reverse, List.reverse_append, List.reverse_cons, hdomain,
          List.append_assoc] at hback
        exact hback
      have hcut : name = rest.reverse := by
        rw [← hname, hdomain, htext, List.length_append, List.length_cons,
          List.take_left' (by omega)]
      rw [hcut]
      exact htext
  · cases h

/-- An address in lower case is not changed. -/
theorem normalizeEmail_lower {text : Text} (h : strip text = text) :
    normalizeEmail texts (texts.lower text) = texts.lower text := by
  rw [normalizeEmail, texts.lower_strip text h]
  cases hsplit : rsplitAt (texts.lower text) with
  | none => rfl
  | some parts =>
      obtain ⟨name, domain⟩ := parts
      have hcut := rsplitAt_some hsplit
      have hdomain : texts.lower domain = domain := by
        rw [texts.lower_eq_self]
        intro c hc
        refine texts.lower_lower text c ?_
        rw [hcut]
        exact List.mem_append_right _ (List.mem_cons_of_mem _ hc)
      simp only [hdomain]
      exact hcut.symm

theorem charField_some {minLength maxLength : Option ℕ} {text value : Text}
    (h : charField minLength maxLength text = some value) :
    value = strip text ∧ value ≠ [] ∧ (∀ n, minLength = some n → n ≤ value.length) ∧
      (∀ n, maxLength = some n → value.length ≤ n) ∧ Char.ofNat 0 ∉ value := by
  simp only [charField] at h
  split at h
  · cases h
  · next hvalid =>
      obtain rfl := Option.some.inj h
      simp only [Bool.or_eq_true, decide_eq_true_eq, not_or, List.contains_iff_mem] at hvalid
      obtain ⟨⟨⟨hne, hmin⟩, hmax⟩, hnull⟩ := hvalid
      refine ⟨rfl, hne, ?_, ?_, hnull⟩
      · rintro n rfl
        simpa using hmin
      · rintro n rfl
        simpa using hmax

theorem emailField_some {text value : Text} (h : emailField texts text = some value) :
    value = strip text ∧ value ≠ [] := by
  obtain ⟨hfield, -⟩ := Option.filter_eq_some_iff.mp h
  obtain ⟨hvalue, hne, -⟩ := charField_some hfield
  exact ⟨hvalue, hne⟩

end Addresses

/-! ## A valid form -/

/-- What the cleaned data of a form satisfies, and what of it the form stands for. -/
structure Cleaned (texts : Texts) (form : TenantOnboardingForm) (data : OnboardingData)
    (r : Registry) : Prop where
  name : data.institutionName.length ≤ 200
  contactPhone : data.contactPhone.length ≤ 32
  firstName : data.adminFirstName.length ≤ 150
  lastName : data.adminLastName.length ≤ 150
  address : emailField texts form.adminEmail = some (strip form.adminEmail)
  email : data.adminEmail = texts.lower (strip form.adminEmail)
  free : ∀ user ∈ r.users, user.email ≠ data.adminEmail
  password : charField (some 12) none form.adminPassword = some data.adminPassword

section Forms

variable {texts : Texts} {r after : Registry}

theorem fieldOr_ok {α : Type} {name : String} {field : Option α} {value : α}
    (h : fieldOr name field = .ok value) : field = some value := by
  cases field with
  | none => cases h
  | some found => exact congrArg some (Except.ok.inj h)

theorem cleanInstitutionName_ok {text : Text} {result : Except FormError Text}
    (h : (cleanInstitutionName texts text).exec r = .ok (result, after)) :
    after = r ∧ ∀ name, result = .ok name → name.length ≤ 200 := by
  unfold cleanInstitutionName at h
  cases hfield : charField none (some 200) text with
  | none =>
      rw [hfield] at h
      obtain ⟨rfl, rfl⟩ := Prod.mk.inj (Except.ok.inj h)
      exact ⟨rfl, fun name hname => by cases hname⟩
  | some value =>
      obtain ⟨hvalue, -, -, hmax, -⟩ := charField_some hfield
      simp only [hfield, Txn.exec_bind, Txn.exec_fetch] at h
      obtain ⟨rfl, rfl⟩ := Prod.mk.inj (Except.ok.inj h)
      refine ⟨rfl, fun name hname => ?_⟩
      split at hname
      · cases hname
      · obtain rfl := Except.ok.inj hname
        rw [hvalue, strip_strip, ← hvalue]
        exact hmax 200 rfl

theorem cleanAdminEmail_ok {text : Text} {result : Except FormError Text}
    (h : (cleanAdminEmail texts text).exec r = .ok (result, after)) :
    after = r ∧ ∀ email, result = .ok email →
      emailField texts text = some (strip text) ∧ email = texts.lower (strip text) ∧
        ∀ user ∈ r.users, user.email ≠ email := by
  unfold cleanAdminEmail at h
  cases hfield : emailField texts text with
  | none =>
      rw [hfield] at h
      obtain ⟨rfl, rfl⟩ := Prod.mk.inj (Except.ok.inj h)
      exact ⟨rfl, fun email hemail => by cases hemail⟩
  | some value =>
      obtain ⟨rfl, -⟩ := emailField_some texts hfield
      simp only [hfield, Txn.exec_bind, Txn.exec_fetch] at h
      obtain ⟨rfl, rfl⟩ := Prod.mk.inj (Except.ok.inj h)
      refine ⟨rfl, fun email hemail => ?_⟩
      split at hemail
      · cases hemail
      · next hfree =>
          obtain rfl := Except.ok.inj hemail
          rw [strip_strip] at hfree ⊢
          refine ⟨rfl, rfl, ?_⟩
          intro user huser heq
          refine hfree (List.any_eq_true.mpr ⟨user, huser, ?_⟩)
          exact decide_eq_true heq

theorem collect_ok {a c d e f g h : Except FormError Text} {b : Except FormError Sector}
    {data : OnboardingData} (hdata : collect a b c d e f g h = .ok data) :
    a = .ok data.institutionName ∧ d = .ok data.contactPhone ∧ e = .ok data.adminFirstName ∧
      f = .ok data.adminLastName ∧ g = .ok data.adminEmail ∧ h = .ok data.adminPassword := by
  unfold collect at hdata
  split at hdata
  · obtain rfl := Except.ok.inj hdata
    exact ⟨rfl, rfl, rfl, rfl, rfl, rfl⟩
  · cases hdata

/-- What a field accepts fits its column. -/
theorem charField_fits {maxLength : ℕ} {text value : Text}
    (h : charField none (some maxLength) text = some value) : Text.Fits maxLength value :=
  ⟨(charField_some h).2.2.2.1 maxLength rfl, (charField_some h).2.2.2.2⟩

theorem optionalCharField_fits {maxLength : ℕ} {text value : Text}
    (h : optionalCharField maxLength text = some value) : Text.Fits maxLength value := by
  unfold optionalCharField at h
  split at h
  · obtain rfl := Option.some.inj h
    exact ⟨Nat.zero_le _, List.not_mem_nil⟩
  · exact charField_fits h

theorem clean_valid {form : TenantOnboardingForm} {data : OnboardingData}
    (h : (form.clean texts).exec r = .ok (.ok data, after)) :
    after = r ∧ Cleaned texts form data r := by
  rw [TenantOnboardingForm.clean] at h
  obtain ⟨name, r₁, hname, h⟩ := (Txn.exec_bind_ok _).mp h
  obtain ⟨email, r₂, hemail, h⟩ := (Txn.exec_bind_ok _).mp h
  obtain ⟨hr₁, hnames⟩ := cleanInstitutionName_ok hname
  obtain ⟨hr₂, hemails⟩ := cleanAdminEmail_ok hemail
  obtain ⟨hdata, hafter⟩ := Prod.mk.inj (Except.ok.inj h)
  obtain ⟨hinstitution, hphone, hfirst, hlast, hadmin, hpassword⟩ := collect_ok hdata
  obtain ⟨haddress, hlower, hfree⟩ := hemails _ hadmin
  refine ⟨hafter.symm.trans (hr₂.trans hr₁), ?_⟩
  exact
    { name := hnames _ hinstitution
      contactPhone := (optionalCharField_fits (fieldOr_ok hphone)).1
      firstName := (charField_fits (fieldOr_ok hfirst)).1
      lastName := (charField_fits (fieldOr_ok hlast)).1
      address := haddress
      email := hlower
      free := hr₁ ▸ hfree
      password := fieldOr_ok hpassword }

end Forms

/-! ## Rows -/

/-- The keys that a registration draws are new, also to the memberships. -/
structure OnboardingDraw.Fresh (draw : OnboardingDraw) (r : Registry) : Prop where
  users : ∀ user ∈ r.users, user.id ≠ draw.userId
  tenants : ∀ tenant ∈ r.tenants, tenant.id ≠ draw.tenantId
  memberships : ∀ m ∈ r.memberships, m.id ≠ draw.membershipId ∧ m.tenant ≠ draw.tenantId

/-- The user of a registration. -/
def OnboardingData.toUser (texts : Texts) (draw : OnboardingDraw) (data : OnboardingData) :
    RegisteredUser :=
  { id := draw.userId
    email := data.adminEmail
    password := texts.makePassword data.adminPassword
    isActive := true
    isStaff := false
    firstName := data.adminFirstName
    lastName := data.adminLastName }

/-- The slug that `Tenant.save` gives the institution. -/
def OnboardingData.slug (texts : Texts) (data : OnboardingData) : Text :=
  (slugify texts data.institutionName).take 220

/-- The tenant of a registration. -/
def OnboardingData.toTenant (texts : Texts) (draw : OnboardingDraw) (approval : Approval)
    (data : OnboardingData) : RegisteredTenant :=
  { id := draw.tenantId
    name := data.institutionName
    slug := data.slug texts
    sector := data.sector
    status := approval.status
    contactEmail := data.contactEmail
    contactPhone := data.contactPhone
    approvedAt := approval.approvedAt
    approvedBy := approval.approvedBy }

/-- Its membership. -/
def OnboardingDraw.membership (draw : OnboardingDraw) : TenantMembership :=
  { id := draw.membershipId
    tenant := draw.tenantId
    user := draw.userId
    role := .admin
    isActive := true
    invitedBy := none }

/-- What the database asks for besides the checks of the form. -/
structure OnboardingData.Storable (texts : Texts) (data : OnboardingData) (r : Registry) :
    Prop where
  adminEmail : data.adminEmail.length ≤ 254
  contactEmail : data.contactEmail.length ≤ 254
  slug : ∀ tenant ∈ r.tenants, tenant.slug ≠ data.slug texts

section Rows

variable {texts : Texts} {r : Registry} {form : TenantOnboardingForm} {data : OnboardingData}
  {draw : OnboardingDraw}

theorem Cleaned.normalized (h : Cleaned texts form data r) :
    normalizeEmail texts data.adminEmail = data.adminEmail := by
  rw [h.email]
  exact normalizeEmail_lower texts (strip_strip _)

theorem Cleaned.email_ne_nil (h : Cleaned texts form data r) : data.adminEmail ≠ [] := by
  rw [h.email]
  intro hnil
  exact (emailField_some texts h.address).2 (texts.lower_eq_nil _ hnil)

theorem checkEncrypted_exec {maxLength : ℕ} {value : Text} (s : Registry) :
    (checkEncrypted maxLength value).exec s =
      if value.length ≤ maxLength then .ok ((), s) else .error .valueError := by
  unfold checkEncrypted
  by_cases hlong : value.length ≤ maxLength
  · rw [if_neg (Nat.not_lt.mpr hlong), if_pos hlong]
    rfl
  · rw [if_pos (Nat.lt_of_not_le hlong), if_neg hlong]
    rfl

theorem checkVarchar_exec {maxLength : ℕ} {value : Text} (s : Registry) :
    (checkVarchar maxLength value).exec s =
      if value.length ≤ maxLength then .ok ((), s) else .error .dataError := by
  unfold checkVarchar
  by_cases hlong : value.length ≤ maxLength
  · rw [if_neg (Nat.not_lt.mpr hlong), if_pos hlong]
    rfl
  · rw [if_pos (Nat.lt_of_not_le hlong), if_neg hlong]
    rfl

/-- The user is created unless the address is too long. -/
theorem createRegisteredUser_exec (h : Cleaned texts form data r) (hdraw : draw.Fresh r) :
    (createRegisteredUser texts draw.userId data.adminEmail data.adminPassword
      data.adminFirstName data.adminLastName).exec r =
        if data.adminEmail.length ≤ 254 then
          .ok (data.toUser texts draw, { r with users := r.users ++ [data.toUser texts draw] })
        else .error .dataError := by
  have hclash : ¬(r.users.any fun row =>
      row.id = draw.userId || row.email = data.adminEmail) = true := by
    intro hany
    obtain ⟨row, hrow, heq⟩ := List.any_eq_true.mp hany
    rcases Bool.or_eq_true_iff.mp heq with hid | hemail
    · exact hdraw.users row hrow (of_decide_eq_true hid)
    · exact h.free row hrow (of_decide_eq_true hemail)
  rw [createRegisteredUser, if_neg h.email_ne_nil, h.normalized]
  simp only [Txn.exec_bind, checkEncrypted_exec, checkVarchar_exec, if_pos h.firstName,
    if_pos h.lastName]
  by_cases hlong : data.adminEmail.length ≤ 254
  · simp only [if_pos hlong, Txn.exec_acquire, Txn.exec_fetch, if_neg hclash]
    rfl
  · simp only [if_neg hlong]

/-- The tenant is created unless its address is too long or its slug is taken. -/
theorem createTenant_exec (approval : Approval) (h : Cleaned texts form data r) {s : Registry}
    (hfresh : ∀ tenant ∈ s.tenants, tenant.id ≠ draw.tenantId) :
    (createTenant texts { data.toTenant texts draw approval with slug := [] }).exec s =
      if data.contactEmail.length ≤ 254 then
        if ∀ tenant ∈ s.tenants, tenant.slug ≠ data.slug texts then
          .ok (data.toTenant texts draw approval,
            { s with tenants := s.tenants ++ [data.toTenant texts draw approval] })
        else .error .integrityError
      else .error .valueError := by
  have hslug : (slugify texts data.institutionName).take 220 = data.slug texts := rfl
  have hlength : (data.slug texts).length ≤ 220 := List.length_take_le 220 _
  rw [createTenant]
  simp only [OnboardingData.toTenant, hslug, Txn.exec_bind, checkEncrypted_exec, checkVarchar_exec,
    if_pos h.contactPhone, if_pos h.name, if_pos hlength, Txn.exec_fetch]
  by_cases hlong : data.contactEmail.length ≤ 254
  · simp only [if_pos hlong]
    by_cases hfree : ∀ tenant ∈ s.tenants, tenant.slug ≠ data.slug texts
    · have hclash : ¬(s.tenants.any fun row =>
          row.id = draw.tenantId || row.slug = data.slug texts) = true := by
        intro hany
        obtain ⟨row, hrow, heq⟩ := List.any_eq_true.mp hany
        rcases Bool.or_eq_true_iff.mp heq with hid | htaken
        · exact hfresh row hrow (of_decide_eq_true hid)
        · exact hfree row hrow (of_decide_eq_true htaken)
      rw [if_pos hfree, Txn.exec_ite]
      exact (if_neg hclash).trans rfl
    · have hclash : (s.tenants.any fun row =>
          row.id = draw.tenantId || row.slug = data.slug texts) = true := by
        push Not at hfree
        obtain ⟨row, hrow, heq⟩ := hfree
        exact List.any_eq_true.mpr
          ⟨row, hrow, Bool.or_eq_true_iff.mpr (Or.inr (decide_eq_true heq))⟩
      rw [if_neg hfree, Txn.exec_ite]
      exact if_pos hclash
  · simp only [if_neg hlong]

/-- The membership is created. -/
theorem createFirstMembership_exec {s : Registry}
    (hfresh : ∀ m ∈ s.memberships, m.id ≠ draw.membershipId ∧ m.tenant ≠ draw.tenantId) :
    (createFirstMembership draw.membership).exec s =
      .ok ((), { s with memberships := s.memberships ++ [draw.membership] }) := by
  have hclash : ¬(s.memberships.any fun row => row.id = draw.membershipId ||
      (row.tenant = draw.tenantId && row.user = draw.userId)) = true := by
    intro hany
    obtain ⟨row, hrow, heq⟩ := List.any_eq_true.mp hany
    rcases Bool.or_eq_true_iff.mp heq with hid | hboth
    · exact (hfresh row hrow).1 (of_decide_eq_true hid)
    · exact (hfresh row hrow).2 (of_decide_eq_true (Bool.and_eq_true_iff.mp hboth).1)
  rw [createFirstMembership, Txn.exec_bind, Txn.exec_fetch]
  exact (congrArg (Txn.exec · s) (if_neg hclash)).trans rfl

/-- The tables after a registration. -/
def Registry.register (texts : Texts) (r : Registry) (draw : OnboardingDraw) (approval : Approval)
    (data : OnboardingData) : Registry :=
  { r with
    users := r.users ++ [data.toUser texts draw]
    tenants := r.tenants ++ [data.toTenant texts draw approval]
    memberships := r.memberships ++ [draw.membership] }

/-- A registration stores its three rows where the database takes them. -/
theorem createInstitution_exec (approval : Approval) (h : Cleaned texts form data r)
    (hdraw : draw.Fresh r)
    (hstorable : data.Storable texts r) :
    (createInstitution texts draw approval data).exec r =
      .ok ((data.toUser texts draw, data.toTenant texts draw approval),
        r.register texts draw approval data) := by
  have htenant := createTenant_exec approval h
    (s := { r with users := r.users ++ [data.toUser texts draw] }) hdraw.tenants
  rw [if_pos hstorable.contactEmail, if_pos hstorable.slug] at htenant
  have hmembership := createFirstMembership_exec (s :=
    { r with
      users := r.users ++ [data.toUser texts draw]
      tenants := r.tenants ++ [data.toTenant texts draw approval] }) hdraw.memberships
  have huser := createRegisteredUser_exec h hdraw
  rw [if_pos hstorable.adminEmail] at huser
  refine (Txn.exec_bind_ok _).mpr ⟨_, _, huser, ?_⟩
  refine (Txn.exec_bind_ok _).mpr ⟨_, _, htenant, ?_⟩
  exact (Txn.exec_bind_ok _).mpr ⟨_, _, hmembership, rfl⟩

/-- Otherwise it raises. -/
theorem createInstitution_raises (approval : Approval) (h : Cleaned texts form data r)
    (hdraw : draw.Fresh r)
    (hstorable : ¬data.Storable texts r) :
    ∃ e, (createInstitution texts draw approval data).exec r = .error e := by
  have huser := createRegisteredUser_exec h hdraw
  have htenant := createTenant_exec approval h
    (s := { r with users := r.users ++ [data.toUser texts draw] }) hdraw.tenants
  rw [createInstitution, Txn.exec_bind, huser]
  by_cases hemail : data.adminEmail.length ≤ 254
  · rw [if_pos hemail]
    by_cases hcontact : data.contactEmail.length ≤ 254
    · have hslug : ¬∀ tenant ∈ r.tenants, tenant.slug ≠ data.slug texts :=
        fun hfree => hstorable ⟨hemail, hcontact, hfree⟩
      rw [if_pos hcontact, if_neg hslug] at htenant
      refine ⟨.integrityError, ?_⟩
      exact Txn.exec_bind_error _ htenant
    · rw [if_neg hcontact] at htenant
      refine ⟨.valueError, ?_⟩
      exact Txn.exec_bind_error _ htenant
  · rw [if_neg hemail]
    exact ⟨.dataError, rfl⟩

end Rows

end Kusanya.Tenancy
