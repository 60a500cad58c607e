import Kusanya.Model.Credentials
import Kusanya.Support.Rewriting
import Kusanya.Support.Sha256
import Kusanya.Support.Utf8

/-!
# Encrypted columns

`apps.core.encrypted_fields`, the lookup hashes that four models keep of their encrypted
columns, and the migrations that encrypt the rows from before.

A row is its key and the columns that the migration of its model reads or writes.
-/

namespace Kusanya.Encryption

open Support

/-! ## `apps.core.encrypted_fields` -/

/-- `settings.FIELD_ENCRYPTION_KEY` and the parts that are not the repository's: Fernet
under the key derived from it, and `str.lower`.  The token of a call of `encrypt` depends
on the time and on a random vector, so that each call is a function of its own. -/
structure Setting where
  fieldEncryptionKey : Text
  encrypt : ℕ → List ℕ → Text
  /-- `none` is `InvalidToken`. -/
  decrypt : List ℕ → Option (List ℕ)
  lower : Text → Text

/-- Decryption undoes encryption, and a token is a text that is not blank. -/
structure Setting.Lawful (setting : Setting) : Prop where
  decrypt_encrypt : ∀ call plain,
    setting.decrypt (Text.utf8 (setting.encrypt call plain)) = some plain
  token_ne_blank : ∀ call plain, setting.encrypt call plain ≠ []

/-- The exceptions of a read or a write through an encrypted field. -/
inductive FieldError where
  | unicodeDecodeError
  | valueError (maxLength length : ℕ)
  deriving DecidableEq, Repr

/-- `_derive_key`. -/
def deriveKey (setting : Setting) (context : Text) : List ℕ :=
  Sha256.digest (Text.utf8 setting.fieldEncryptionKey ++ Text.utf8 context)

/-- `compute_lookup_hash`. -/
def computeLookupHash (setting : Setting) (value : Text) : Text :=
  Sha256.hex (Sha256.hmac (deriveKey setting "kusanya-field-encryption-lookup-hash".toList)
    (Text.utf8 (strip value)))

/-- `EncryptedTextField.from_db_value`. -/
def fromDbValue (setting : Setting) : Option Text → Except FieldError (Option Text)
  | none => .ok none
  | some [] => .ok (some [])
  | some value =>
      match setting.decrypt (Text.utf8 value) with
      | none => .ok (some "[unreadable: decryption failed]".toList)
      | some plain =>
          match Text.decodeUtf8 plain with
          | none => .error .unicodeDecodeError
          | some text => .ok (some text)

/-- `EncryptedTextField.get_prep_value`, at the `call`-th use of Fernet. -/
def textPrepValue (setting : Setting) (call : ℕ) : Option Text → Option Text
  | none => none
  | some [] => some []
  | some value => some (setting.encrypt call (Text.utf8 value))

/-- `EncryptedCharField.get_prep_value`. -/
def charPrepValue (setting : Setting) (maxLength : ℕ) (call : ℕ) (value : Option Text) :
    Except FieldError (Option Text) :=
  if maxLength ≠ 0 ∧ maxLength < (value.getD []).length then
    .error (.valueError maxLength (value.getD []).length)
  else .ok (textPrepValue setting call value)

@[simp] theorem fromDbValue_blank (setting : Setting) :
    fromDbValue setting (some []) = .ok (some []) := rfl

theorem fromDbValue_encrypt {setting : Setting} (h : setting.Lawful) (call : ℕ) (value : Text) :
    fromDbValue setting (some (setting.encrypt call (Text.utf8 value))) = .ok (some value) := by
  have hread : ∀ token, token ≠ [] → setting.decrypt (Text.utf8 token) = some (Text.utf8 value) →
      fromDbValue setting (some token) = .ok (some value) := by
    intro token htoken hdecrypt
    obtain ⟨c, rest, rfl⟩ := List.exists_cons_of_ne_nil htoken
    simp only [fromDbValue, hdecrypt, Text.decodeUtf8_utf8]
  exact hread _ (h.token_ne_blank call _) (h.decrypt_encrypt call _)

/-- What a field writes it reads back. -/
theorem fromDbValue_charPrepValue {setting : Setting} (h : setting.Lawful) {maxLength call : ℕ}
    {value stored : Option Text}
    (hstored : charPrepValue setting maxLength call value = .ok stored) :
    fromDbValue setting stored = .ok value := by
  unfold charPrepValue at hstored
  by_cases hlong : maxLength ≠ 0 ∧ maxLength < (value.getD []).length
  · rw [if_pos hlong] at hstored
    cases hstored
  · rw [if_neg hlong] at hstored
    obtain rfl := Except.ok.inj hstored
    match value with
    | none => rfl
    | some [] => rfl
    | some (c :: rest) => exact fromDbValue_encrypt h call (c :: rest)

/-! ## What the migrations share -/

/-- A computation that encrypts: the plaintexts of the calls of Fernet so far. -/
abbrev Encrypting := StateM (List (List ℕ))

/-- `_fernet().encrypt(value.encode("utf-8")).decode("utf-8")`. -/
def fernetEncrypt (setting : Setting) (value : Text) : Encrypting Text := fun calls =>
  (setting.encrypt calls.length (Text.utf8 value), calls ++ [Text.utf8 value])

/-- `_fernet_encrypt(value) if value else value`. -/
def encryptColumn (setting : Setting) (value : Text) : Encrypting Text :=
  if value = [] then pure value else fernetEncrypt setting value

/-- `_fernet().decrypt(value.encode("utf-8")).decode("utf-8")`; `none` is an exception. -/
def fernetDecrypt (setting : Setting) (value : Text) : Option Text :=
  (setting.decrypt (Text.utf8 value)).bind Text.decodeUtf8

/-- What `updates` holds for a column after its turn of the loop over the fields. -/
def decryptColumn (setting : Setting) (value : Text) : Option Text :=
  if value = [] then none else fernetDecrypt setting value

/-! ## Customers -/

structure Customer where
  pk : ℕ
  fullName : Text
  email : Text
  phoneNumber : Text
  fullNameLookupHash : Text
  emailLookupHash : Text
  phoneNumberLookupHash : Text
  deriving DecidableEq

namespace Customer

/-- The encrypted columns. -/
def texts (row : Customer) : List Text := [row.fullName, row.email, row.phoneNumber]

/-- A row as the model reads it, each encrypted column through its field. -/
def load (setting : Setting) (row : Customer) : Except FieldError Customer := do
  let fullName ← fromDbValue setting (some row.fullName)
  let email ← fromDbValue setting (some row.email)
  let phoneNumber ← fromDbValue setting (some row.phoneNumber)
  pure { row with
    fullName := fullName.getD [], email := email.getD [], phoneNumber := phoneNumber.getD [] }

/-- What `Customer.save` sets before it writes. -/
def save (setting : Setting) (row : Customer) : Customer :=
  { row with
    fullNameLookupHash := computeLookupHash setting row.fullName
    emailLookupHash :=
      if row.email = [] then [] else computeLookupHash setting (setting.lower row.email)
    phoneNumberLookupHash := computeLookupHash setting row.phoneNumber }

/-- The keywords of `update` in `encrypt_existing_rows`. -/
def encryptRow (setting : Setting) (row : Customer) : Encrypting (Customer → Customer) := do
  let fullName ← encryptColumn setting row.fullName
  let email ← encryptColumn setting row.email
  let phoneNumber ← encryptColumn setting row.phoneNumber
  pure fun r => { r with
    fullName := fullName
    email := email
    phoneNumber := phoneNumber
    fullNameLookupHash := computeLookupHash setting row.fullName
    emailLookupHash :=
      if row.email = [] then [] else computeLookupHash setting (setting.lower row.email)
    phoneNumberLookupHash := computeLookupHash setting row.phoneNumber }

/-- `customers.0003`, `encrypt_existing_rows`. -/
def encryptExistingRows (setting : Setting) (table : List Customer) : Encrypting (List Customer) :=
  rewriteRows Customer.pk (encryptRow setting) table table

/-- The keywords of `update` in `decrypt_existing_rows`. -/
def decryptRow (setting : Setting) (row : Customer) : StateM Unit (Customer → Customer) :=
  pure fun r => { r with
    fullName := (decryptColumn setting row.fullName).getD r.fullName
    email := (decryptColumn setting row.email).getD r.email
    phoneNumber := (decryptColumn setting row.phoneNumber).getD r.phoneNumber }

/-- `customers.0003`, `decrypt_existing_rows`. -/
def decryptExistingRows (setting : Setting) (table : List Customer) : List Customer :=
  (rewriteRows Customer.pk (decryptRow setting) table table ()).1

end Customer

/-! ## Tenants -/

structure Tenant where
  pk : ℕ
  contactEmail : Text
  contactPhone : Text
  contactEmailLookupHash : Text
  deriving DecidableEq

namespace Tenant

def texts (row : Tenant) : List Text := [row.contactEmail, row.contactPhone]

def load (setting : Setting) (row : Tenant) : Except FieldError Tenant := do
  let contactEmail ← fromDbValue setting (some row.contactEmail)
  let contactPhone ← fromDbValue setting (some row.contactPhone)
  pure { row with contactEmail := contactEmail.getD [], contactPhone := contactPhone.getD [] }

/-- What `Tenant.save` sets of these columns: the hash has no case for a blank email. -/
def save (setting : Setting) (row : Tenant) : Tenant :=
  { row with
    contactEmailLookupHash := computeLookupHash setting (setting.lower row.contactEmail) }

def encryptRow (setting : Setting) (row : Tenant) : Encrypting (Tenant → Tenant) := do
  let contactEmail ← encryptColumn setting row.contactEmail
  let contactPhone ← encryptColumn setting row.contactPhone
  pure fun r => { r with
    contactEmail := contactEmail
    contactPhone := contactPhone
    contactEmailLookupHash :=
      if row.contactEmail = [] then []
      else computeLookupHash setting (setting.lower row.contactEmail) }

/-- `tenants.0005`, `encrypt_existing_rows`. -/
def encryptExistingRows (setting : Setting) (table : List Tenant) : Encrypting (List Tenant) :=
  rewriteRows Tenant.pk (encryptRow setting) table table

def decryptRow (setting : Setting) (row : Tenant) : StateM Unit (Tenant → Tenant) :=
  pure fun r => { r with
    contactEmail := (decryptColumn setting row.contactEmail).getD r.contactEmail
    contactPhone := (decryptColumn setting row.contactPhone).getD r.contactPhone }

/-- `tenants.0005`, `decrypt_existing_rows`. -/
def decryptExistingRows (setting : Setting) (table : List Tenant) : List Tenant :=
  (rewriteRows Tenant.pk (decryptRow setting) table table ()).1

end Tenant

/-! ## Users -/

structure User where
  pk : ℕ
  firstName : Text
  lastName : Text
  phoneNumber : Text
  firstNameLookupHash : Text
  lastNameLookupHash : Text
  deriving DecidableEq

namespace User

def texts (row : User) : List Text := [row.firstName, row.lastName, row.phoneNumber]

def load (setting : Setting) (row : User) : Except FieldError User := do
  let firstName ← fromDbValue setting (some row.firstName)
  let lastName ← fromDbValue setting (some row.lastName)
  let phoneNumber ← fromDbValue setting (some row.phoneNumber)
  pure { row with
    firstName := firstName.getD [], lastName := lastName.getD []
    phoneNumber := phoneNumber.getD [] }

/-- What `User.save` sets before it writes. -/
def save (setting : Setting) (row : User) : User :=
  { row with
    firstNameLookupHash :=
      if row.firstName = [] then [] else computeLookupHash setting row.firstName
    lastNameLookupHash :=
      if row.lastName = [] then [] else computeLookupHash setting row.lastName }

def encryptRow (setting : Setting) (row : User) : Encrypting (User → User) := do
  let firstName ← encryptColumn setting row.firstName
  let lastName ← encryptColumn setting row.lastName
  let phoneNumber ← encryptColumn setting row.phoneNumber
  pure fun r => { r with
    firstName := firstName
    lastName := lastName
    phoneNumber := phoneNumber
    firstNameLookupHash :=
      if row.firstName = [] then [] else computeLookupHash setting row.firstName
    lastNameLookupHash :=
      if row.lastName = [] then [] else computeLookupHash setting row.lastName }

/-- `users.0003`, `encrypt_existing_rows`. -/
def encryptExistingRows (setting : Setting) (table : List User) : Encrypting (List User) :=
  rewriteRows User.pk (encryptRow setting) table table

def decryptRow (setting : Setting) (row : User) : StateM Unit (User → User) :=
  pure fun r => { r with
    firstName := (decryptColumn setting row.firstName).getD r.firstName
    lastName := (decryptColumn setting row.lastName).getD r.lastName
    phoneNumber := (decryptColumn setting row.phoneNumber).getD r.phoneNumber }

/-- `users.0003`, `decrypt_existing_rows`. -/
def decryptExistingRows (setting : Setting) (table : List User) : List User :=
  (rewriteRows User.pk (decryptRow setting) table table ()).1

end User

/-! ## Payments -/

structure Payment where
  pk : ℕ
  payerReference : Text
  payerReferenceLookupHash : Text
  deriving DecidableEq

namespace Payment

def texts (row : Payment) : List Text := [row.payerReference]

def load (setting : Setting) (row : Payment) : Except FieldError Payment := do
  let payerReference ← fromDbValue setting (some row.payerReference)
  pure { row with payerReference := payerReference.getD [] }

/-- What `Payment.save` sets of these columns. -/
def save (setting : Setting) (row : Payment) : Payment :=
  { row with payerReferenceLookupHash := computeLookupHash setting row.payerReference }

def encryptRow (setting : Setting) (row : Payment) : Encrypting (Payment → Payment) := do
  let payerReference ← encryptColumn setting row.payerReference
  pure fun r => { r with
    payerReference := payerReference
    payerReferenceLookupHash := computeLookupHash setting row.payerReference }

/-- `payments.0004`, `encrypt_existing_rows`. -/
def encryptExistingRows (setting : Setting) (table : List Payment) : Encrypting (List Payment) :=
  rewriteRows Payment.pk (encryptRow setting) table table

/-- An exception of the decryption is a `continue`. -/
def decryptRow (setting : Setting) (row : Payment) : StateM Unit (Payment → Payment) :=
  pure fun r => { r with
    payerReference := (fernetDecrypt setting row.payerReference).getD r.payerReference }

/-- `payments.0004`, `decrypt_existing_rows`: the query leaves the blank rows out. -/
def decryptExistingRows (setting : Setting) (table : List Payment) : List Payment :=
  (rewriteRows Payment.pk (decryptRow setting)
    (table.filter fun row => row.payerReference ≠ []) table ()).1

end Payment

end Kusanya.Encryption
