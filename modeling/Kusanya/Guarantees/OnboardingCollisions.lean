import Kusanya.Invariants.Registration

/-!
# Onboarding and its slugs

The form compares names up to case, and the database compares slugs.  A valid form is stored, with
slugs that are distinct and not blank, exactly where the folded name has an ASCII letter or digit,
its slug is free and the two addresses fit their columns.
-/

namespace Kusanya.Tenancy

open ReadCommitted Support Api

/-! ## Blank slugs -/

theorem isAlphanum_lt {c : Char} (h : c.isAlphanum = true) : c.toNat < 128 := by
  rcases Bool.or_eq_true_iff.mp h with hletter | hdigit
  · rcases Bool.or_eq_true_iff.mp hletter with hupper | hlower
    · obtain ⟨-, hhigh⟩ := of_decide_eq_true hupper
      have hrange : c.toNat ≤ 90 := hhigh
      omega
    · obtain ⟨-, hhigh⟩ := Bool.and_eq_true_iff.mp hlower
      have hrange : c.toNat ≤ 122 := of_decide_eq_true hhigh
      omega
  · obtain ⟨-, hhigh⟩ := Bool.and_eq_true_iff.mp hdigit
    have hrange : c.toNat ≤ 57 := of_decide_eq_true hhigh
    omega

theorem ascii_cases {P : Char → Prop} (h : ∀ n < 128, P (Char.ofNat n)) {c : Char}
    (hc : c.toNat < 128) : P c := by
  have hchar := h c.toNat hc
  rwa [Char.ofNat_toNat] at hchar

theorem isAlphanum_toLower {c : Char} (hc : c.toNat < 128) :
    c.toLower.isAlphanum = c.isAlphanum := by
  refine ascii_cases (P := fun c => c.toLower.isAlphanum = c.isAlphanum) ?_ hc
  decide

theorem not_isJoint_of_isAlphanum {c : Char} (h : c.isAlphanum = true) :
    isJoint c = false ∧ isHem c = false := by
  refine ascii_cases (P := fun c => c.isAlphanum = true → isJoint c = false ∧ isHem c = false)
    ?_ (isAlphanum_lt h) h
  decide

/-- Hyphenation keeps what is neither joint nor hem. -/
theorem exists_hyphenate (inRun : Bool) (l : Text) :
    (∃ c ∈ hyphenate inRun l, isHem c = false) ↔ ∃ c ∈ l, isJoint c = false ∧ isHem c = false := by
  induction l generalizing inRun with
  | nil => simp [hyphenate]
  | cons c rest ih =>
      rw [hyphenate]
      by_cases hjoint : isJoint c = true
      · rw [if_pos hjoint]
        have hrest : (∃ d ∈ c :: rest, isJoint d = false ∧ isHem d = false) ↔
            ∃ d ∈ rest, isJoint d = false ∧ isHem d = false := by
          simp [hjoint]
        rw [hrest]
        cases inRun with
        | true => exact ih true
        | false =>
            rw [← ih true]
            have hhyphen : isHem '-' = true := by decide
            simp [hhyphen]
      · rw [if_neg hjoint]
        simp only [List.mem_cons, exists_eq_or_imp, ih false, Bool.not_eq_true] at hjoint ⊢
        simp [hjoint]

/-- Stripping leaves nothing only of hems. -/
theorem strip_hems (l : Text) :
    ((l.dropWhile isHem).reverse.dropWhile isHem).reverse ≠ [] ↔ ∃ c ∈ l, isHem c = false := by
  have hstrip : ((l.dropWhile isHem).reverse.dropWhile isHem).reverse =
      (l.dropWhile isHem).rdropWhile isHem := rfl
  rw [hstrip, Ne, List.rdropWhile_eq_nil_iff]
  constructor
  · intro h
    push Not at h
    obtain ⟨c, hc, hhem⟩ := h
    exact ⟨c, (List.dropWhile_suffix isHem).subset hc, Bool.not_eq_true _ ▸ hhem⟩
  · rintro ⟨c, hc, hhem⟩ hall
    have hnil : l.dropWhile isHem = [] := by
      cases hdrop : l.dropWhile isHem with
      | nil => rfl
      | cons d rest =>
          have hfirst := List.head?_dropWhile_not isHem l
          rw [hdrop] at hfirst hall
          have hd := hall d List.mem_cons_self
          simp [hd] at hfirst
    have hhems := List.dropWhile_eq_nil_iff.mp hnil c hc
    rw [hhem] at hhems
    cases hhems

/-- A slug is blank where the folded text has no ASCII letter or digit. -/
theorem slugify_ne_nil_iff (texts : Texts) (value : Text) :
    slugify texts value ≠ [] ↔ ∃ c ∈ texts.nfkd value, c.isAlphanum = true := by
  rw [slugify, strip_hems, exists_hyphenate]
  constructor
  · rintro ⟨c, hc, hjoint, hhem⟩
    obtain ⟨hlower, hkept⟩ := List.mem_filter.mp hc
    obtain ⟨d, hd, rfl⟩ := List.mem_map.mp hlower
    obtain ⟨hfolded, hascii⟩ := List.mem_filter.mp hd
    refine ⟨d, hfolded, ?_⟩
    have hunderscore : (d.toLower = '_') = False := by
      refine eq_false fun heq => ?_
      rw [heq] at hhem
      exact absurd hhem (by decide)
    simp only [hjoint, hunderscore, decide_false, Bool.or_false] at hkept
    rw [← isAlphanum_toLower (of_decide_eq_true hascii)]
    exact hkept
  · rintro ⟨d, hd, hletter⟩
    have hascii := isAlphanum_lt hletter
    have hlower : d.toLower.isAlphanum = true := by rw [isAlphanum_toLower hascii, hletter]
    refine ⟨d.toLower, List.mem_filter.mpr ⟨List.mem_map.mpr ⟨d, ?_, rfl⟩, ?_⟩,
      not_isJoint_of_isAlphanum hlower⟩
    · exact List.mem_filter.mpr ⟨hd, decide_eq_true hascii⟩
    · rw [hlower]
      rfl

theorem slug_ne_nil_iff (texts : Texts) (data : OnboardingData) :
    data.slug texts ≠ [] ↔ ∃ c ∈ texts.nfkd data.institutionName, c.isAlphanum = true := by
  rw [← slugify_ne_nil_iff, OnboardingData.slug, Ne, List.take_eq_nil_iff]
  simp

/-! ## The views -/

/-- The rows of the registration are there, and the slugs are distinct and not blank. -/
structure Onboarded (draw : OnboardingDraw) (data : OnboardingData) (r : Registry) : Prop where
  user : ∃ user ∈ r.users, user.id = draw.userId ∧ user.email = data.adminEmail
  tenant : ∃ tenant ∈ r.tenants, tenant.id = draw.tenantId ∧ tenant.name = data.institutionName
  membership : ∃ m ∈ r.memberships, m.tenant = draw.tenantId ∧ m.user = draw.userId ∧
    m.role = .admin
  distinct : (r.tenants.map (·.slug)).Nodup
  slugs : ∀ tenant ∈ r.tenants, tenant.slug ≠ []

/-- The two views that take the form. -/
inductive Onboards (texts : Texts) (context : RequestContext) (draw : OnboardingDraw)
    (form : TenantOnboardingForm) : RegistryTx OnboardingAnswer → Prop where
  | onboard : Onboards texts context draw form (onboard texts context draw (some form))
  | platformCreateTenant (now : Time) (requestUser : ℕ) :
      Onboards texts context draw form
        (platformCreateTenant texts context draw now requestUser (some form))

section Views

variable {texts : Texts} {context : RequestContext} {r : Registry} {form : TenantOnboardingForm}
  {data : OnboardingData} {draw : OnboardingDraw} {view : RegistryTx OnboardingAnswer}

/-- The tables have the three rows of a registration. -/
structure Registry.Registers (texts : Texts) (r : Registry) (draw : OnboardingDraw)
    (approval : Approval) (data : OnboardingData) (after : Registry) : Prop where
  users : after.users = r.users ++ [data.toUser texts draw]
  tenants : after.tenants = r.tenants ++ [data.toTenant texts draw approval]
  memberships : after.memberships = r.memberships ++ [draw.membership]

/-- A view stores a valid form where the database takes its rows. -/
theorem Onboards.stores (h : Onboards texts context draw form view)
    (hvalid : (form.clean texts).exec r = .ok (.ok data, r)) (hdraw : draw.Fresh r)
    (hstorable : data.Storable texts r) (hauditable : context.Auditable texts.isAddress) :
    ∃ approval answer after, view.exec r = .ok (answer, after) ∧
      r.Registers texts draw approval data after := by
  obtain ⟨-, hclean⟩ := clean_valid hvalid
  cases h with
  | onboard =>
      have hcreate := createInstitution_exec
        { status := .pending, approvedAt := none, approvedBy := none }
        hclean hdraw hstorable
      simp only [Tenancy.onboard, Txn.exec_bind, hvalid, hcreate, recordRegistryEvent,
        if_pos hauditable, Txn.exec_modify, Txn.pure_eq_ret, Txn.exec_ret]
      exact ⟨_, _, _, rfl, ⟨rfl, rfl, rfl⟩⟩
  | platformCreateTenant now requestUser =>
      have hcreate := createInstitution_exec
        { status := .active, approvedAt := some now, approvedBy := some requestUser }
        hclean hdraw hstorable
      simp only [Tenancy.platformCreateTenant, Txn.exec_bind, hvalid, hcreate, recordRegistryEvent,
        if_pos hauditable, Txn.exec_modify, Txn.pure_eq_ret, Txn.exec_ret]
      exact ⟨_, _, _, rfl, ⟨rfl, rfl, rfl⟩⟩

/-- Otherwise it raises: at one of the three rows, or at the audit row. -/
theorem Onboards.raises (h : Onboards texts context draw form view)
    (hvalid : (form.clean texts).exec r = .ok (.ok data, r)) (hdraw : draw.Fresh r)
    (hnot : ¬(data.Storable texts r ∧ context.Auditable texts.isAddress)) :
    ∃ e, view.exec r = .error e := by
  obtain ⟨-, hclean⟩ := clean_valid hvalid
  by_cases hstorable : data.Storable texts r
  · have hunaudited : ¬context.Auditable texts.isAddress := fun h => hnot ⟨hstorable, h⟩
    refine ⟨context.refusal texts.isAddress .valueError .dataError, ?_⟩
    cases h with
    | onboard =>
        have hcreate := createInstitution_exec
          { status := .pending, approvedAt := none, approvedBy := none }
          hclean hdraw hstorable
        simp only [Tenancy.onboard, Txn.exec_bind, hvalid, hcreate, recordRegistryEvent,
          if_neg hunaudited, Txn.exec_throw]
    | platformCreateTenant now requestUser =>
        have hcreate := createInstitution_exec
          { status := .active, approvedAt := some now, approvedBy := some requestUser }
          hclean hdraw hstorable
        simp only [Tenancy.platformCreateTenant, Txn.exec_bind, hvalid, hcreate,
          recordRegistryEvent, if_neg hunaudited, Txn.exec_throw]
  cases h with
  | onboard =>
      obtain ⟨e, he⟩ := createInstitution_raises
        { status := .pending, approvedAt := none, approvedBy := none }
        hclean hdraw hstorable
      refine ⟨e, ?_⟩
      rw [Tenancy.onboard, Txn.exec_bind, hvalid]
      exact Txn.exec_bind_error _ he
  | platformCreateTenant now requestUser =>
      obtain ⟨e, he⟩ := createInstitution_raises
        { status := .active, approvedAt := some now, approvedBy := some requestUser }
        hclean hdraw hstorable
      refine ⟨e, ?_⟩
      rw [Tenancy.platformCreateTenant, Txn.exec_bind, hvalid]
      exact Txn.exec_bind_error _ he

/-- The slugs after a registration. -/
theorem registers_slugs (hslugs : (r.tenants.map (·.slug)).Nodup) {approval : Approval}
    {after : Registry} (h : r.Registers texts draw approval data after)
    (hfree : ∀ tenant ∈ r.tenants, tenant.slug ≠ data.slug texts) :
    (after.tenants.map (·.slug)).Nodup := by
  rw [h.tenants, List.map_append, List.map_singleton]
  refine List.nodup_append.mpr ⟨hslugs, List.pairwise_singleton _ _, ?_⟩
  intro slug hslug other hother heq
  obtain ⟨tenant, htenant, rfl⟩ := List.mem_map.mp hslug
  rw [List.mem_singleton] at hother
  exact hfree tenant htenant (heq.trans hother)

end Views

/-- For every state of the tables and every valid form: a view of onboarding stores the tenant, its
administrator and the membership, with slugs that are distinct and not blank, exactly where no
tenant has a blank slug so far, the folded name has an ASCII letter or digit, its slug is free, the
two addresses fit their columns and the request's context those of an audit row. -/
theorem onboarding_collides (texts : Texts) (context : RequestContext) {r : Registry}
    (hslugs : (r.tenants.map (·.slug)).Nodup) {draw : OnboardingDraw} (hdraw : draw.Fresh r)
    {form : TenantOnboardingForm} {data : OnboardingData}
    (hvalid : (form.clean texts).exec r = .ok (.ok data, r)) {view : RegistryTx OnboardingAnswer}
    (hview : Onboards texts context draw form view) :
    (∃ answer after, view.exec r = .ok (answer, after) ∧ Onboarded draw data after) ↔
      (∀ tenant ∈ r.tenants, tenant.slug ≠ []) ∧
      (∃ c ∈ texts.nfkd data.institutionName, c.isAlphanum = true) ∧
      (∀ tenant ∈ r.tenants, tenant.slug ≠ (slugify texts data.institutionName).take 220) ∧
      data.adminEmail.length ≤ 254 ∧ data.contactEmail.length ≤ 254 ∧
      context.Auditable texts.isAddress := by
  rw [← slug_ne_nil_iff]
  constructor
  · rintro ⟨answer, after, hexec, honboarded⟩
    by_cases hstored : data.Storable texts r ∧ context.Auditable texts.isAddress
    · obtain ⟨hstorable, hauditable⟩ := hstored
      obtain ⟨approval, answer', after', hexec', hregisters⟩ :=
        hview.stores hvalid hdraw hstorable hauditable
      rw [hexec] at hexec'
      obtain ⟨-, rfl⟩ := Prod.mk.inj (Except.ok.inj hexec')
      have hblank := honboarded.slugs
      rw [hregisters.tenants] at hblank
      refine ⟨?_, ?_, hstorable.slug, hstorable.adminEmail, hstorable.contactEmail, hauditable⟩
      · intro tenant htenant
        exact hblank tenant (List.mem_append_left _ htenant)
      · exact hblank _ (List.mem_append_right _ List.mem_cons_self)
    · obtain ⟨e, he⟩ := hview.raises hvalid hdraw hstored
      rw [hexec] at he
      cases he
  · rintro ⟨hblank, hslug, hfree, hadmin, hcontact, hauditable⟩
    have hstorable : data.Storable texts r := ⟨hadmin, hcontact, hfree⟩
    obtain ⟨approval, answer, after, hexec, hregisters⟩ :=
      hview.stores hvalid hdraw hstorable hauditable
    refine ⟨answer, after, hexec, ?_⟩
    exact
      { user := ⟨data.toUser texts draw, by simp [hregisters.users], rfl, rfl⟩
        tenant := ⟨data.toTenant texts draw approval, by simp [hregisters.tenants], rfl, rfl⟩
        membership := ⟨draw.membership, by simp [hregisters.memberships], rfl, rfl, rfl⟩
        distinct := registers_slugs hslugs hregisters hfree
        slugs := by
          intro tenant htenant
          rw [hregisters.tenants, List.mem_append, List.mem_singleton] at htenant
          rcases htenant with htenant | rfl
          · exact hblank tenant htenant
          · exact hslug }

/-! ## Two saints -/

theorem toLower_of_large {c : Char} (h : 128 ≤ c.toNat) : c.toLower = c := by
  unfold Char.toLower
  split
  · next hupper =>
      have hle : c.toNat ≤ 90 := hupper.2
      omega
  · rfl

theorem char_cases {P : Char → Prop} (h : ∀ n < 128, P (Char.ofNat n))
    (hlarge : ∀ c : Char, 128 ≤ c.toNat → P c) (c : Char) : P c := by
  by_cases hc : c.toNat < 128
  · exact ascii_cases h hc
  · exact hlarge c (Nat.le_of_not_lt hc)

theorem toLower_toLower (c : Char) : c.toLower.toLower = c.toLower := by
  refine char_cases (P := fun c => c.toLower.toLower = c.toLower) (by decide) ?_ c
  intro c hc
  rw [toLower_of_large hc, toLower_of_large hc]

theorem isSpace_toLower (c : Char) : isSpace c.toLower = isSpace c := by
  refine char_cases (P := fun c => isSpace c.toLower = isSpace c) (by decide) ?_ c
  intro c hc
  rw [toLower_of_large hc]

theorem strip_map_toLower (text : Text) :
    strip (text.map Char.toLower) = (strip text).map Char.toLower := by
  have hcomp : isSpace ∘ Char.toLower = isSpace := funext isSpace_toLower
  simp only [strip, List.dropWhile_map, hcomp, ← List.map_reverse]

/-- Texts of ASCII. -/
def asciiTexts : Texts where
  lower text := text.map Char.toLower
  validEmail text := text.contains '@'
  iexact a b := a.map Char.toLower = b.map Char.toLower
  nfkd text := text
  makePassword password := '#' :: password
  isAddress := dottedAddress
  lower_eq_self text := by
    induction text with
    | nil => simp
    | cons c rest ih => simp [ih]
  lower_lower text c hc := by
    obtain ⟨d, -, rfl⟩ := List.mem_map.mp hc
    exact congrArg (fun e => [e]) (toLower_toLower d)
  lower_strip text h := by rw [strip_map_toLower, h]
  lower_eq_nil _ h := List.map_eq_nil_iff.mp h

/-- A registered school. -/
def saintMary : Registry where
  users := []
  tenants :=
    [{ id := 1
       name := "St. Mary".toList
       slug := "st-mary".toList
       sector := .education
       status := .active
       contactEmail := "office@mary.example".toList
       contactPhone := []
       approvedAt := some 1
       approvedBy := none }]
  memberships := []
  auditLog := []

/-- A form for a school of this name. -/
def schoolForm (name : String) : TenantOnboardingForm where
  institutionName := name.toList
  sector := "education".toList
  contactEmail := "info@school.example".toList
  contactPhone := []
  adminFirstName := "Asha".toList
  adminLastName := "Juma".toList
  adminEmail := "asha@school.example".toList
  adminPassword := "correct horse".toList

/-- Its cleaned data. -/
def schoolData (name : String) : OnboardingData where
  institutionName := name.toList
  sector := .education
  contactEmail := "info@school.example".toList
  contactPhone := []
  adminFirstName := "Asha".toList
  adminLastName := "Juma".toList
  adminEmail := "asha@school.example".toList
  adminPassword := "correct horse".toList

def secondDraw : OnboardingDraw where
  userId := 2
  tenantId := 2
  membershipId := 2

theorem secondDraw_fresh : secondDraw.Fresh saintMary where
  users := by decide
  tenants := by decide
  memberships := by decide

theorem onboarding_collides_joseph :
    ∃ answer after, (onboard asciiTexts Accounts.plainContext secondDraw
        (some (schoolForm "St. Joseph"))).exec saintMary = .ok (answer, after) ∧
      Onboarded secondDraw (schoolData "St. Joseph") after := by
  have hvalid : ((schoolForm "St. Joseph").clean asciiTexts).exec saintMary =
      .ok (.ok (schoolData "St. Joseph"), saintMary) := by decide +kernel
  refine (onboarding_collides asciiTexts Accounts.plainContext (by decide) secondDraw_fresh hvalid
    .onboard).mpr ?_
  exact ⟨by decide, ⟨'S', by decide, by decide⟩, by decide +kernel, by decide, by decide,
    by decide⟩

/-- The second school of a name up to a dot. -/
theorem onboarding_slug_taken :
    ¬∀ (texts : Texts) (context : RequestContext) (r : Registry) (draw : OnboardingDraw)
      (form : TenantOnboardingForm) (data : OnboardingData) (view : RegistryTx OnboardingAnswer),
      (r.tenants.map (·.slug)).Nodup → draw.Fresh r →
      (form.clean texts).exec r = .ok (.ok data, r) → Onboards texts context draw form view →
      ∃ answer after, view.exec r = .ok (answer, after) ∧ Onboarded draw data after := by
  intro hall
  have hvalid : ((schoolForm "St Mary").clean asciiTexts).exec saintMary =
      .ok (.ok (schoolData "St Mary"), saintMary) := by decide +kernel
  obtain ⟨answer, after, hexec, -⟩ := hall asciiTexts Accounts.plainContext saintMary secondDraw
    (schoolForm "St Mary") (schoolData "St Mary") _ (by decide) secondDraw_fresh hvalid .onboard
  have hraises : (onboard asciiTexts Accounts.plainContext secondDraw
      (some (schoolForm "St Mary"))).exec saintMary = .error .integrityError := by decide +kernel
  rw [hexec] at hraises
  cases hraises

end Kusanya.Tenancy
