import Kusanya.Guarantees.EncryptionMigrations
import Kusanya.Guarantees.OnboardingCollisions
import Kusanya.Model.EncryptedSearch

/-!
# Exact search over encrypted columns

The columns that are hashed as they are written are found by their value.  An e-mail address is
hashed in lower case, which the portal does to a search term and the admin does not.
-/

namespace Kusanya.Encryption

open Support

/-! ## Hashes and what was typed -/

section Hashes

variable {setting : Setting} {value typed : Text}

theorem computeLookupHash_congr (h : strip typed = strip value) :
    computeLookupHash setting typed = computeLookupHash setting value := by
  rw [computeLookupHash, computeLookupHash, h]

theorem computeLookupHash_strip (text : Text) :
    computeLookupHash setting (strip text) = computeLookupHash setting text :=
  computeLookupHash_congr (Tenancy.strip_strip text)

/-- Stripping a text to nothing leaves only space. -/
theorem isSpace_of_strip_eq_nil {text : Text} (h : strip text = []) :
    ∀ c ∈ text, isSpace c = true := by
  rw [Tenancy.strip_eq, List.rdropWhile_eq_nil_iff] at h
  have hnil : text.dropWhile isSpace = [] := by
    cases hdrop : text.dropWhile isSpace with
    | nil => rfl
    | cons c rest =>
        have hfirst := List.head?_dropWhile_not isSpace text
        rw [hdrop] at hfirst h
        have hc := h c List.mem_cons_self
        simp [hc] at hfirst
  exact List.dropWhile_eq_nil_iff.mp hnil

theorem computeLookupHash_ne_nil (setting : Setting) (text : Text) :
    computeLookupHash setting text ≠ [] := by
  have hlength : (computeLookupHash setting text).length = 64 := by
    simp [computeLookupHash, Sha256.hex, Sha256.hmac, List.length_flatMap, List.map_const',
      Sha256.length_digest]
  intro hnil
  rw [hnil] at hlength
  cases hlength

end Hashes

/-! ## The search of the admin -/

/-- A page of an admin on which the row is. -/
structure AdminPage {Row : Type} (pk : Row → ℕ) (row : Row) where
  plain : PlainSearch Row
  objects : List Row
  queryset : List Row
  keys : (objects.map pk).Nodup
  subset : queryset ⊆ objects
  mem : row ∈ queryset

section Search

variable {Row : Type} [DecidableEq Row] {setting : Setting} {pk : Row → ℕ} {row : Row}

/-- The rows that the search of a page gives. -/
def AdminPage.results (page : AdminPage pk row) (setting : Setting)
    (hashColumns : List (Row → Text)) (searchTerm : Text) : List Row :=
  getSearchResults setting page.plain pk hashColumns page.objects page.queryset searchTerm

/-- The row is found by the plain search or by one of its hashes. -/
theorem AdminPage.mem_results_iff (page : AdminPage pk row) (hashColumns : List (Row → Text))
    (typed : Text) :
    row ∈ page.results setting hashColumns typed ↔
      page.plain.finds typed row = true ∨
        ∃ hash ∈ hashColumns, hash row = computeLookupHash setting typed := by
  have hfound : row ∈ page.queryset.filter (page.plain.finds typed) ↔
      page.plain.finds typed row = true := by
    rw [List.mem_filter, and_iff_right page.mem]
  rw [AdminPage.results, getSearchResults]
  by_cases hsearch : (typed ≠ [] && !hashColumns.isEmpty) = true
  · rw [if_pos hsearch]
    by_cases hmatches : ((page.objects.filter fun row =>
        hashColumns.any fun h => h row = computeLookupHash setting typed).map pk) ≠ []
    · rw [if_pos hmatches, List.mem_filter, and_iff_right (page.subset page.mem),
        Bool.or_eq_true, decide_eq_true_eq, decide_eq_true_eq, hfound]
      refine or_congr Iff.rfl ?_
      constructor
      · intro hmem
        obtain ⟨other, hother, hkey⟩ := List.mem_map.mp hmem
        obtain ⟨hobject, hany⟩ := List.mem_filter.mp hother
        obtain rfl := List.inj_on_of_nodup_map page.keys hobject (page.subset page.mem) hkey
        obtain ⟨hash, hhash, heq⟩ := List.any_eq_true.mp hany
        exact ⟨hash, hhash, of_decide_eq_true heq⟩
      · rintro ⟨hash, hhash, heq⟩
        refine List.mem_map_of_mem (List.mem_filter.mpr ⟨page.subset page.mem, ?_⟩)
        exact List.any_eq_true.mpr ⟨hash, hhash, decide_eq_true heq⟩
    · rw [if_neg hmatches, hfound]
      refine ⟨Or.inl, ?_⟩
      rintro (hplain | ⟨hash, hhash, heq⟩)
      · exact hplain
      · refine absurd ?_ hmatches
        refine List.ne_nil_of_mem (a := pk row) (List.mem_map_of_mem (List.mem_filter.mpr
          ⟨page.subset page.mem, ?_⟩))
        exact List.any_eq_true.mpr ⟨hash, hhash, decide_eq_true heq⟩
  · rw [if_neg hsearch, hfound]
    refine ⟨Or.inl, ?_⟩
    rintro (hplain | ⟨hash, hhash, heq⟩)
    · exact hplain
    · refine page.plain.blank typed ?_ row
      have hcolumns : hashColumns.isEmpty = false := by
        rw [← Bool.not_eq_true, List.isEmpty_iff]
        exact List.ne_nil_of_mem hhash
      have hnil : typed = [] := by
        by_contra hne
        exact hsearch (by simp [hne, hcolumns])
      rw [hnil]
      intro c hc
      cases hc

/-- A row whose hash of a column is that of the value, or whose value is blank. -/
theorem AdminPage.mem_results (page : AdminPage pk row) {hashColumns : List (Row → Text)}
    (hash : Row → Text) (hhash : hash ∈ hashColumns) {value typed : Text}
    (htyped : strip typed = strip value)
    (hstored : value = [] ∨ hash row = computeLookupHash setting value) :
    row ∈ page.results setting hashColumns typed := by
  rw [page.mem_results_iff]
  rcases hstored with rfl | hstored
  · exact Or.inl (page.plain.blank typed (isSpace_of_strip_eq_nil htyped) row)
  · exact Or.inr ⟨hash, hhash, hstored.trans (computeLookupHash_congr htyped).symm⟩

end Search

/-! ## The columns -/

/-- The texts that `Customer.save` hashes. -/
def Customer.hashedTexts (setting : Setting) (row : Customer) : List Text :=
  [row.fullName] ++ (if row.email = [] then [] else [setting.lower row.email]) ++ [row.phoneNumber]

/-- What the portal finds a customer by: the value, for an address in any letter case. -/
def CustomerColumn.Matches (setting : Setting) (column : CustomerColumn) (row : Customer)
    (q : Text) : Prop :=
  match column with
  | email => setting.lower (strip q) = setting.lower (strip row.email)
  | column => strip q = strip (column.value row)

/-- `str.lower` keeps the space around a text apart, and only a blank text is blank in lower
case. -/
structure Setting.LowersWords (setting : Setting) : Prop where
  strip_lower : ∀ text, strip (setting.lower (strip text)) = strip (setting.lower text)
  lower_eq_nil : ∀ text, setting.lower text = setting.lower [] → text = []

/-- `Customer.save` of a listed customer. -/
def ListedCustomer.save (setting : Setting) (row : ListedCustomer) : ListedCustomer :=
  { row with toCustomer := row.toCustomer.save setting }

section Columns

variable {setting : Setting}

theorem Customer.exists_hash_iff (row : Customer) (typed : Text) :
    (∃ hash ∈ Customer.hashColumns, hash (row.save setting) = computeLookupHash setting typed) ↔
      ∃ text ∈ row.hashedTexts setting,
        computeLookupHash setting text = computeLookupHash setting typed := by
  by_cases hemail : row.email = []
  · have hne : ¬([] : Text) = computeLookupHash setting typed :=
      fun h => computeLookupHash_ne_nil setting typed h.symm
    simp [Customer.hashColumns, Customer.save, Customer.hashedTexts, hemail, hne]
  · simp [Customer.hashColumns, Customer.save, Customer.hashedTexts, hemail]

theorem customer_found (raw : Customer) (page : AdminPage Customer.pk (raw.save setting))
    (column : CustomerColumn) {typed : Text}
    (htyped : strip typed = strip (column.value raw)) :
    raw.save setting ∈ page.results setting Customer.hashColumns typed ↔
      (column = .email → page.plain.finds typed (raw.save setting) = true ∨
        ∃ text ∈ raw.hashedTexts setting,
          computeLookupHash setting text = computeLookupHash setting typed) := by
  cases column with
  | fullName =>
      refine iff_of_true ?_ fun h => nomatch h
      exact page.mem_results Customer.fullNameLookupHash (by simp [Customer.hashColumns])
        htyped (Or.inr rfl)
  | email =>
      rw [page.mem_results_iff, Customer.exists_hash_iff]
      exact ⟨fun h _ => h, fun h => h rfl⟩
  | phoneNumber =>
      refine iff_of_true ?_ fun h => nomatch h
      exact page.mem_results Customer.phoneNumberLookupHash
        (by simp [Customer.hashColumns]) htyped (Or.inr rfl)

theorem user_found (raw : User) (page : AdminPage User.pk (raw.save setting)) (column : UserColumn)
    {typed : Text} (htyped : strip typed = strip (column.value raw)) :
    raw.save setting ∈ page.results setting User.hashColumns typed := by
  cases column with
  | firstName =>
      refine page.mem_results User.firstNameLookupHash (by simp [User.hashColumns]) htyped ?_
      by_cases hblank : raw.firstName = []
      · exact Or.inl hblank
      · exact Or.inr (if_neg hblank)
  | lastName =>
      refine page.mem_results User.lastNameLookupHash (by simp [User.hashColumns]) htyped ?_
      by_cases hblank : raw.lastName = []
      · exact Or.inl hblank
      · exact Or.inr (if_neg hblank)

theorem tenant_found (raw : Tenant) (page : AdminPage Tenant.pk (raw.save setting)) (typed : Text) :
    raw.save setting ∈ page.results setting Tenant.hashColumns typed ↔
      page.plain.finds typed (raw.save setting) = true ∨
        computeLookupHash setting (setting.lower raw.contactEmail) =
          computeLookupHash setting typed := by
  rw [page.mem_results_iff]
  simp [Tenant.hashColumns, Tenant.save]

/-- The list of the portal has every customer that a term matches. -/
theorem customer_listed (hlower : setting.LowersWords) (raw : ListedCustomer)
    {objects : List ListedCustomer} (hmem : raw.save setting ∈ objects)
    (icontains : Text → Text → Bool) {column : CustomerColumn} {q : Text}
    (hmatches : column.Matches setting raw.toCustomer q) :
    raw.save setting ∈ customerList setting icontains objects raw.tenant q := by
  have htenant : raw.save setting ∈ objects.filter (·.tenant = raw.tenant) :=
    List.mem_filter.mpr ⟨hmem, decide_eq_true rfl⟩
  rw [customerList]
  by_cases hquery : strip q ≠ []
  · rw [if_pos hquery, List.mem_filter]
    refine ⟨htenant, ?_⟩
    simp only [Bool.or_eq_true, decide_eq_true_eq]
    cases column with
    | fullName =>
        refine Or.inl (Or.inl (Or.inr ?_))
        rw [computeLookupHash_strip]
        exact (computeLookupHash_congr hmatches).symm
    | email =>
        refine Or.inl (Or.inr ?_)
        have hne : raw.email ≠ [] := by
          intro hnil
          refine hquery (hlower.lower_eq_nil _ ?_)
          rw [hmatches, hnil]
          rfl
        have hlowered : setting.lower (strip q) = setting.lower (strip raw.email) := hmatches
        rw [hlowered]
        refine (if_neg hne).trans ?_
        exact (computeLookupHash_congr (hlower.strip_lower raw.email)).symm
    | phoneNumber =>
        refine Or.inr ?_
        rw [computeLookupHash_strip]
        exact (computeLookupHash_congr hmatches).symm
  · rw [if_neg hquery]
    exact htenant

end Columns

/-- For every saved row, every searched column and every term that was typed for it: the portal
lists the customer, in any letter case of an address; the admins of customers and of users find the
row by a column that is hashed as it is; and by an address the admins of customers and of tenants
find it exactly where the plain search does, or the term has the hash of one of the texts that were
hashed, the address in lower case. -/
theorem exact_search (setting : Setting) (hlower : setting.LowersWords) :
    (∀ (raw : ListedCustomer) (objects : List ListedCustomer) (icontains : Text → Text → Bool)
      (column : CustomerColumn) (q : Text), raw.save setting ∈ objects →
      column.Matches setting raw.toCustomer q →
      raw.save setting ∈ customerList setting icontains objects raw.tenant q) ∧
    (∀ (raw : Customer) (page : AdminPage Customer.pk (raw.save setting)) (column : CustomerColumn)
      (typed : Text), strip typed = strip (column.value raw) →
      (raw.save setting ∈ page.results setting Customer.hashColumns typed ↔
        (column = .email → page.plain.finds typed (raw.save setting) = true ∨
          ∃ text ∈ raw.hashedTexts setting,
            computeLookupHash setting text = computeLookupHash setting typed))) ∧
    (∀ (raw : User) (page : AdminPage User.pk (raw.save setting)) (column : UserColumn)
      (typed : Text), strip typed = strip (column.value raw) →
      raw.save setting ∈ page.results setting User.hashColumns typed) ∧
    (∀ (raw : Tenant) (page : AdminPage Tenant.pk (raw.save setting)) (typed : Text),
      strip typed = strip raw.contactEmail →
      (raw.save setting ∈ page.results setting Tenant.hashColumns typed ↔
        page.plain.finds typed (raw.save setting) = true ∨
          computeLookupHash setting (setting.lower raw.contactEmail) =
            computeLookupHash setting typed)) := by
  refine ⟨?_, ?_, ?_, ?_⟩
  · intro raw objects icontains column q hmem hmatches
    exact customer_listed hlower raw hmem icontains hmatches
  · intro raw page column typed htyped
    exact customer_found raw page column htyped
  · intro raw page column typed htyped
    exact user_found raw page column htyped
  · intro raw page typed _
    exact tenant_found raw page typed

/-! ## An address with a capital letter -/

/-- The Fernet of one text, with the letters of ASCII. -/
def lettersSetting : Setting :=
  { helloSetting with lower := fun text => text.map Char.toLower }

theorem lettersSetting_lowersWords : lettersSetting.LowersWords where
  strip_lower text := by
    change strip ((strip text).map Char.toLower) = strip (text.map Char.toLower)
    rw [Tenancy.strip_map_toLower, Tenancy.strip_map_toLower, Tenancy.strip_strip]
  lower_eq_nil text h := List.map_eq_nil_iff.mp h

def asha : Customer where
  pk := 1
  fullName := "Asha".toList
  email := "Asha@example".toList
  phoneNumber := []
  fullNameLookupHash := []
  emailLookupHash := []
  phoneNumberLookupHash := []

/-- Her row alone; the plain search finds nothing by a word. -/
def ashaPage : AdminPage Customer.pk (asha.save lettersSetting) where
  plain :=
    { finds := fun term _ => term.all isSpace
      blank := fun _ h _ => List.all_eq_true.mpr h }
  objects := [asha.save lettersSetting]
  queryset := [asha.save lettersSetting]
  keys := List.nodup_singleton 1
  subset := List.Subset.refl _
  mem := List.mem_cons_self

theorem exact_search_asha :
    asha.save lettersSetting ∈
      ashaPage.results lettersSetting Customer.hashColumns "Asha".toList := by
  obtain ⟨-, hcustomers, -⟩ := exact_search lettersSetting lettersSetting_lowersWords
  exact (hcustomers asha ashaPage .fullName "Asha".toList rfl).mpr fun h => nomatch h

/-- The admin does not find her by her address. -/
theorem exact_search_missed :
    ¬∀ (setting : Setting), setting.LowersWords → ∀ (raw : Customer)
      (page : AdminPage Customer.pk (raw.save setting)) (column : CustomerColumn) (typed : Text),
      strip typed = strip (column.value raw) →
      raw.save setting ∈ page.results setting Customer.hashColumns typed := by
  intro hall
  have hfound := hall lettersSetting lettersSetting_lowersWords asha ashaPage .email
    "Asha@example".toList rfl
  rw [AdminPage.mem_results_iff, Customer.exists_hash_iff] at hfound
  rcases hfound with hplain | ⟨text, htext, hhash⟩
  · cases hplain
  · have hnone : ∀ text ∈ asha.hashedTexts lettersSetting,
        computeLookupHash lettersSetting text ≠
          computeLookupHash lettersSetting "Asha@example".toList := by decide +kernel
    exact hnone text htext hhash

end Kusanya.Encryption
