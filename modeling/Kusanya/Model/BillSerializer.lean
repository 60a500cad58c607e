import Kusanya.Model.BillItems
import Kusanya.Model.Onboarding
import Kusanya.Model.Requests

/-!
# The body of `POST /bills`

`BillItemInputSerializer` and `BillCreateSerializer`, which make the arguments of
`get_or_create_bill` out of a body.
-/

namespace Kusanya

open Support

/-! ## Decimal fields -/

/-- `serializers.DecimalField`, with its least value in hundredths. -/
structure DecimalField where
  maxDigits : ℕ
  decimalPlaces : ℕ
  minValue : Option Money

/-- The accepted value, quantized to hundredths, `none` where the field has an error.  Both fields
below have two decimals, so that `quantize` has nothing to round. -/
def DecimalField.clean (field : DecimalField) (d : Decimal) : Option Decimal :=
  let (total, whole, places) := d.precision
  if total ≤ field.maxDigits ∧ places ≤ field.decimalPlaces ∧
      whole ≤ field.maxDigits - field.decimalPlaces ∧ field.minValue.all (· ≤ d.hundredths) then
    some ⟨d.hundredths, -2⟩
  else none

/-! ## The serializers -/

/-- `BillItemInputSerializer.quantity`. -/
def quantityField : DecimalField := ⟨10, 2, none⟩

/-- `BillItemInputSerializer.unit_amount`. -/
def unitAmountField : DecimalField := ⟨18, 2, some 0⟩

/-- An item of the body. -/
structure ItemBody where
  description : Text
  /-- Left out, it is 1. -/
  quantity : Option Decimal
  unitAmount : Decimal

def ItemBody.clean (item : ItemBody) : Option ItemInput := do
  let description ← Tenancy.charField none (some 255) item.description
  let quantity ← item.quantity.elim (some ⟨1, 0⟩) quantityField.clean
  let unitAmount ← unitAmountField.clean item.unitAmount
  pure { description := String.ofList description, quantity, unitAmount }

deriving instance DecidableEq for ItemInput, BillInput

/-- The fields of the body that the service reads. -/
structure BillBody where
  customerAccountId : ℕ
  items : List ItemBody
  externalReference : Text

/-- `BillCreateSerializer.is_valid`, for a request of the tenant. -/
def BillBody.clean (tenant : ℕ) (body : BillBody) : Option BillInput := do
  let items ← body.items.mapM ItemBody.clean
  let externalReference ← Tenancy.optionalCharField 100 body.externalReference
  if items.isEmpty then none
  else
    pure
      { tenant, items
        customerAccount := body.customerAccountId
        externalReference := String.ofList externalReference }

end Kusanya
