import Kusanya.Model.Billing

/-!
# Saving and deleting the items of a bill

`BillItem.save`, the deletion of an item and `BillAdmin` with its inline items, next to
`get_or_create_bill`.  The table of items is kept here with its keys, which the other
services do not need.
-/

namespace Kusanya

open ReadCommitted Support

/-! ## The table -/

/-- A row of `billing_billitem` under its key. -/
structure ItemRow extends BillItem where
  id : ℕ
  deriving DecidableEq

/-- The database with the table of items. -/
structure BillStore where
  db : DB
  items : List ItemRow

/-- The database as the services see it. -/
def BillStore.seen (s : BillStore) : DB :=
  { s.db with billItems := s.items.map (·.toBillItem) }

/-- A key for a new row, `k` rows after the last one. -/
def BillStore.newKey (s : BillStore) (k : ℕ) : ℕ := (s.items.map (·.id)).foldr max 0 + 1 + k

/-- The rows that were added to the items the services see, with new keys. -/
def BillStore.keyed (s : BillStore) (rows : List BillItem) : List ItemRow :=
  rows.zipIdx.map fun (row, k) => { row with id := s.newKey k }

/-! ## Operations -/

/-- `get_or_create_bill`, as its own request. -/
def BillStore.getOrCreateBill (s : BillStore) (env : Env) (input : BillInput) :
    Except Error BillStore :=
  match (Kusanya.getOrCreateBill env input).exec s.seen with
  | .error e => .error e
  | .ok (_, t) =>
      .ok { db := t, items := s.items ++ s.keyed (t.billItems.drop s.items.length) }

/-- The fields of a `BillItem` object. -/
structure ItemForm extends ItemInput where
  tenant : ℕ
  bill : ℕ

/-- The row that `BillItem.save` writes, `none` where a column refuses it. -/
def ItemForm.row? (form : ItemForm) : Option BillItem :=
  form.toItemInput.row? form.tenant form.bill

/-- `UPDATE` where the key is there, `INSERT` otherwise. -/
def putItem (items : List ItemRow) (row : ItemRow) : List ItemRow :=
  if items.any (·.id = row.id) then items.map fun r => if r.id = row.id then row else r
  else items ++ [row]

/-- `BillItem.save`. -/
def BillStore.saveItem (s : BillStore) (pk : ℕ) (form : ItemForm) : Except Error BillStore :=
  match form.row? with
  | none => .error .dataError
  | some row =>
      if s.db.bills.any (·.id = form.bill) && s.db.tenants.any (·.id = form.tenant) then
        .ok { s with items := putItem s.items { row with id := pk } }
      else .error .integrityError

/-- `BillItem.delete`. -/
def BillStore.deleteItem (s : BillStore) (pk : ℕ) : BillStore :=
  { s with items := s.items.filter (·.id ≠ pk) }

/-- The fields of the change form of a bill: `bill_number` and `total_amount` are read
only there. -/
structure BillForm where
  tenant : ℕ
  customerAccount : ℕ
  status : BillStatus
  currency : String
  issuedAt : Option Time
  cancelledAt : Option Time
  externalReference : String

/-- The bill object after the form is saved. -/
def BillForm.apply (form : BillForm) (bill : Bill) : Bill :=
  { bill with
    tenant := form.tenant
    customerAccount := form.customerAccount
    status := form.status
    currency := form.currency
    issuedAt := form.issuedAt
    cancelledAt := form.cancelledAt
    externalReference := form.externalReference }

/-- An inline form, which accepts two decimals. -/
structure InlineForm where
  tenant : ℕ
  description : String
  quantity : ℤ
  unitAmount : Numeric

/-- The object of an inline form of the bill. -/
def InlineForm.item (form : InlineForm) (bill : ℕ) : ItemForm :=
  { tenant := form.tenant
    bill
    description := form.description
    quantity := ⟨form.quantity, -2⟩
    unitAmount := ⟨form.unitAmount.cents, -2⟩ }

/-- What the change view has posted: the bill's form, the inline forms that changed or are
new, under the keys of their objects, and the keys of the items to remove. -/
structure AdminForm where
  bill : BillForm
  saved : List (ℕ × InlineForm)
  removed : List ℕ

/-- The formset is one of the bill: each item has one form, an item that is there belongs
to the bill. -/
def AdminForm.fits (form : AdminForm) (s : BillStore) (bill : ℕ) : Bool :=
  let keys := form.saved.map (·.1) ++ form.removed
  decide keys.Nodup && s.items.all fun row => decide (row.id ∈ keys → row.bill = bill)

/-- The inline forms one after the other. -/
def BillStore.saveInlines (bill : ℕ) : List (ℕ × InlineForm) → BillStore → Except Error BillStore
  | [], s => .ok s
  | (pk, form) :: rest, s => (s.saveItem pk (form.item bill)).bind (saveInlines bill rest)

/-- The form of a bill is refused where a choice is not there, or where the unique constraints
would be violated with another row. -/
def BillStore.refuses (s : BillStore) (bill : Bill) : Bool :=
  !s.db.tenants.any (·.id = bill.tenant) || !s.db.accounts.any (·.id = bill.customerAccount) ||
  s.db.bills.any fun row =>
    row.id != bill.id && (decide (row.tenant = bill.tenant ∧ row.billNumber = bill.billNumber) ||
      decide (row.tenant = bill.tenant ∧ bill.externalReference ≠ "" ∧
        row.externalReference = bill.externalReference))

/-- The change view of `BillAdmin`: the bill, then the inline forms, then the removals. -/
def BillStore.adminEdit (s : BillStore) (pk : ℕ) (form : AdminForm) : Except Error BillStore :=
  match s.db.bills.find? (·.id = pk) with
  | none => .error .doesNotExist
  | some bill =>
      if s.refuses (form.bill.apply bill) || !form.fits s pk then
        .error (.validationError "Please correct the errors below.")
      else
        let saved := { s with db := { s.db with
          toBooks := s.db.toBooks.updateBill pk fun _ => form.bill.apply bill } }
        (saved.saveInlines pk form.saved).map fun t => form.removed.foldl BillStore.deleteItem t

/-- One operation on bills and items. -/
inductive BillStep where
  | getOrCreateBill (env : Env) (input : BillInput)
  | saveItem (pk : ℕ) (form : ItemForm)
  | deleteItem (pk : ℕ)
  | adminEdit (pk : ℕ) (form : AdminForm)

def BillStep.run : BillStep → BillStore → Except Error BillStore
  | getOrCreateBill env input, s => s.getOrCreateBill env input
  | saveItem pk form, s => s.saveItem pk form
  | deleteItem pk, s => .ok (s.deleteItem pk)
  | adminEdit pk form, s => s.adminEdit pk form

/-- An operation that raises leaves everything as it was. -/
def BillStep.apply (step : BillStep) (s : BillStore) : BillStore :=
  match step.run s with
  | .ok t => t
  | .error _ => s

/-- The state after some operations, the first one first. -/
def BillStore.after (s : BillStore) (steps : List BillStep) : BillStore :=
  steps.foldl (fun s step => step.apply s) s

end Kusanya
