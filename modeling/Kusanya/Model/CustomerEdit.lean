import Kusanya.Model.EncryptedSearch
import Kusanya.Model.Onboarding

/-!
# Editing a customer

`CustomerForm` and `customer_edit`: the row is loaded, its columns are shown in the form, and what
comes back is cleaned and saved, all columns of the row at once.
-/

namespace Kusanya.Encryption

open Support Tenancy

/-- The fields of a POST of `CustomerForm`. -/
structure CustomerPost where
  fullName : Text
  email : Text
  phoneNumber : Text
  externalReference : Text
  deriving DecidableEq

/-- `EmailField(required=False)`. -/
def optionalEmailField (validEmail : Text → Bool) (text : Text) : Option Text :=
  if strip text = [] then some [] else (charField none (some 320) text).filter validEmail

/-- `cleaned_data`; `none` where a field has an error. -/
def CustomerPost.clean (validEmail : Text → Bool) (post : CustomerPost) : Option CustomerPost := do
  let fullName ← charField none (some 255) post.fullName
  let email ← optionalEmailField validEmail post.email
  let phoneNumber ← optionalCharField 32 post.phoneNumber
  let externalReference ← optionalCharField 100 post.externalReference
  pure { fullName, email, phoneNumber, externalReference }

/-- The initial values of the form, as the page shows them. -/
def ListedCustomer.display (row : ListedCustomer) : CustomerPost where
  fullName := row.fullName
  email := row.email
  phoneNumber := row.phoneNumber
  externalReference := row.externalReference

/-- `before` and `after` of the audit event. -/
def CustomerPost.audited (post : CustomerPost) : List (String × Text) :=
  [("full_name", post.fullName), ("email", post.email), ("phone_number", post.phoneNumber),
   ("external_reference", post.externalReference)]

inductive EditError where
  | field (e : FieldError)
  /-- `unique_customer_external_reference_per_tenant`. -/
  | integrityError
  deriving DecidableEq

inductive EditAnswer where
  /-- The form with its errors; nothing is saved. -/
  | form
  /-- The saved row, and `before` and `after` of `customer.updated`. -/
  | saved (row : ListedCustomer) (before after : List (String × Text))
  deriving DecidableEq

/-- The columns of a row that `super().save()` writes, each through its field. -/
def Customer.store (setting : Setting) (call : ℕ) (row : Customer) :
    Except FieldError Customer := do
  let fullName ← charPrepValue setting 255 call (some row.fullName)
  let email ← charPrepValue setting 254 (call + 1) (some row.email)
  let phoneNumber ← charPrepValue setting 32 (call + 2) (some row.phoneNumber)
  pure { row with
    fullName := fullName.getD [], email := email.getD [], phoneNumber := phoneNumber.getD [] }

/-- The POST of `customer_edit` on a row of the tenant.  `taken` tells which external references the
other customers of the tenant have. -/
def customerEdit (setting : Setting) (validEmail : Text → Bool) (taken : Text → Bool) (call : ℕ)
    (row : ListedCustomer) (post : CustomerPost) : Except EditError EditAnswer :=
  match row.toCustomer.load setting with
  | .error e => .error (.field e)
  | .ok loaded =>
      match post.clean validEmail with
      | none => .ok .form
      | some data =>
          let customer : Customer :=
            { loaded with
              fullName := data.fullName
              email := data.email
              phoneNumber := data.phoneNumber }
          match (customer.save setting).store setting call with
          | .error e => .error (.field e)
          | .ok stored =>
              if data.externalReference ≠ [] && taken data.externalReference then
                .error .integrityError
              else
                .ok (.saved
                  { row with toCustomer := stored, externalReference := data.externalReference }
                  ({ row with toCustomer := loaded } : ListedCustomer).display.audited
                  data.audited)

/-- The row after the request. -/
def rowAfter (row : ListedCustomer) : Except EditError EditAnswer → ListedCustomer
  | .ok (.saved stored _ _) => stored
  | _ => row

end Kusanya.Encryption
