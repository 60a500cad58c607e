import Kusanya.Model.FieldEncryption

/-!
# Searching encrypted columns

`EncryptedFieldSearchAdminMixin` and the admins of the models whose columns it finds, and the
search of the portal's `customer_list`.
-/

namespace Kusanya.Encryption

open Support

/-! ## The mixin -/

/-- `ModelAdmin.get_search_results` over the plain `search_fields`: which rows a term finds.  A
term without a word does not filter. -/
structure PlainSearch (Row : Type) where
  finds : Text → Row → Bool
  blank : ∀ term, (∀ c ∈ term, isSpace c = true) → ∀ row, finds term row = true

/-- `EncryptedFieldSearchAdminMixin.get_search_results`, with the lookup-hash columns of
`encrypted_exact_search_fields`.  `objects` are the rows of the model, `queryset` those of the
page. -/
def getSearchResults {Row : Type} [DecidableEq Row] (setting : Setting) (plain : PlainSearch Row)
    (pk : Row → ℕ) (hashColumns : List (Row → Text)) (objects queryset : List Row)
    (searchTerm : Text) : List Row :=
  let found := queryset.filter (plain.finds searchTerm)
  if searchTerm ≠ [] && !hashColumns.isEmpty then
    let targetHash := computeLookupHash setting searchTerm
    let exactMatches :=
      (objects.filter fun row => hashColumns.any fun h => h row = targetHash).map pk
    if exactMatches ≠ [] then
      objects.filter fun row => row ∈ found || pk row ∈ exactMatches
    else found
  else found

/-- `CustomerAdmin.encrypted_exact_search_fields`. -/
def Customer.hashColumns : List (Customer → Text) :=
  [Customer.fullNameLookupHash, Customer.emailLookupHash, Customer.phoneNumberLookupHash]

/-- `UserAdmin.encrypted_exact_search_fields`. -/
def User.hashColumns : List (User → Text) := [User.firstNameLookupHash, User.lastNameLookupHash]

/-- `TenantAdmin.encrypted_exact_search_fields`. -/
def Tenant.hashColumns : List (Tenant → Text) := [Tenant.contactEmailLookupHash]

/-- The searched columns of a customer. -/
inductive CustomerColumn where
  | fullName | email | phoneNumber
  deriving DecidableEq

def CustomerColumn.value : CustomerColumn → Customer → Text
  | fullName => Customer.fullName
  | email => Customer.email
  | phoneNumber => Customer.phoneNumber

inductive UserColumn where
  | firstName | lastName

def UserColumn.value : UserColumn → User → Text
  | firstName => User.firstName
  | lastName => User.lastName

/-! ## The portal -/

/-- A customer with the columns that the list of the portal filters on. -/
structure ListedCustomer extends Customer where
  tenant : ℕ
  externalReference : Text
  deriving DecidableEq

/-- The query set of `customer_list`; `icontains` is the lookup of that name. -/
def customerList (setting : Setting) (icontains : Text → Text → Bool)
    (objects : List ListedCustomer)
    (requestTenant : ℕ) (q : Text) : List ListedCustomer :=
  let customers := objects.filter (·.tenant = requestTenant)
  let query := strip q
  if query ≠ [] then
    customers.filter fun row =>
      icontains row.externalReference query ||
        row.fullNameLookupHash = computeLookupHash setting query ||
        row.emailLookupHash = computeLookupHash setting (setting.lower query) ||
        row.phoneNumberLookupHash = computeLookupHash setting query
  else customers

end Kusanya.Encryption
