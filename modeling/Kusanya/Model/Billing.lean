import Kusanya.Model.Revenue
import Kusanya.Support.Decimals

/-!
# Bills, control numbers and receipts

`apps.billing`, `apps.control_numbers` and `apps.receipts`.  A `Bill` value is
the Python object a handler holds: its status is the one last read or written by
this handler, not necessarily the one in the row.
-/

namespace Kusanya

open ReadCommitted Support

/-! ## Bills -/

def Books.addBill (books : Books) (bill : Bill) : Books :=
  { books with bills := books.bills ++ [bill] }

def Books.addItems (books : Books) (items : List BillItem) : Books :=
  { books with billItems := books.billItems ++ items }

/-- `UPDATE billing_bill … WHERE id = id`. -/
def Books.updateBill (books : Books) (id : ℕ) (f : Bill → Bill) : Books :=
  { books with bills := books.bills.map fun row => if row.id = id then f row else row }

/-- `Bill.amount_paid`: the sum over the bill's allocations. -/
def Books.amountPaid (books : Books) (bill : ℕ) : Money :=
  ((books.allocations.filter (·.bill = bill)).map (·.amount.cents)).sum

/-- `Bill.balance`, an aggregate query each time it is used. -/
def Bill.balance (bill : Bill) : Tx Money :=
  .fetch (.allocationsOf bill.id) fun db =>
    bill.totalAmount.cents - db.toBooks.amountPaid bill.id

/-- The in-memory part of `Bill.transition_to`. -/
def Bill.moveTo (bill : Bill) (now : Time) (newStatus : BillStatus) : Bill :=
  { bill with
    status := newStatus
    issuedAt :=
      if newStatus = .active ∧ bill.issuedAt = none then some now else bill.issuedAt
    cancelledAt := if newStatus = .cancelled then some now else bill.cancelledAt }

/-- `save(update_fields=["status", "issued_at", "cancelled_at", …])`: the columns
of the object overwrite those of the row, whatever the row holds by then. -/
def Bill.saveStatus (bill row : Bill) : Bill :=
  { row with
    status := bill.status
    issuedAt := bill.issuedAt
    cancelledAt := bill.cancelledAt }

/-- `Bill.transition_to`. -/
def Bill.transitionTo (env : Env) (bill : Bill) (newStatus : BillStatus) : Tx Bill := do
  raiseIf (newStatus ∉ bill.status.allowedTransitions) <| .validationError <|
    "Cannot transition bill from '" ++ bill.status.value ++ "' to '" ++ newStatus.value ++ "'."
  let moved := bill.moveTo env.now newStatus
  Txn.acquire (.bill bill.id)
  onBooks (·.updateBill bill.id moved.saveStatus)
  pure moved

/-- One entry of the `items` argument. -/
structure ItemInput where
  description : String
  quantity : Decimal
  unitAmount : Decimal

/-- `quantity * unit_amount`. -/
def ItemInput.lineTotal (item : ItemInput) : Decimal := item.quantity.mul item.unitAmount

/-- The row that is stored for an item, `none` when a column refuses it. -/
def ItemInput.row? (tenant bill : ℕ) (item : ItemInput) : Option BillItem :=
  if Varchar 255 item.description ∧ item.quantity.hundredths.natAbs < 10 ^ 10 then
    (Numeric.ofMoney? item.unitAmount.hundredths).bind fun unitAmount =>
      (Numeric.ofMoney? item.lineTotal.hundredths).map fun lineTotal =>
        { tenant, bill
          description := item.description
          quantity := item.quantity.hundredths
          unitAmount, lineTotal }
  else none

/-- `BillItem.objects.bulk_create`. -/
def createItems (tenant bill : ℕ) (items : List ItemInput) : Tx Unit :=
  match items.mapM (·.row? tenant bill) with
  | none => .throw .dataError
  | some rows => onBooks (·.addItems rows)

/-- `Bill.recalculate_total`. -/
def Bill.recalculateTotal (bill : Bill) : Tx Bill := do
  let sum ← Txn.fetch (.itemsOf bill.id) fun db =>
    ((db.billItems.filter (·.bill = bill.id)).map (·.lineTotal.cents)).sum
  let total ← storeNumeric sum
  Txn.acquire (.bill bill.id)
  onBooks (·.updateBill bill.id fun row => { row with totalAmount := total })
  pure { bill with totalAmount := total }

/-- `str(bill.total_amount)` after `recalculate_total`, where a sum of zero is the integer. -/
def Bill.recalculatedText (bill : Bill) : String :=
  if bill.totalAmount.cents = 0 then "0" else bill.totalAmount.cents.str

/-- `apps.billing.services._dispatch_bill_event`; `totalAmount` is `str(bill.total_amount)`. -/
def dispatchBillEvent (env : Env) (bill : Bill) (totalAmount eventType : String) : Tx Unit := do
  let account ← getAccount bill.customerAccount
  dispatchEvent env bill.tenant eventType
    [("bill_id", some (toString bill.id)),
     ("bill_number", some bill.billNumber),
     ("status", some bill.status.value),
     ("total_amount", some totalAmount),
     ("currency", some bill.currency),
     ("customer_account", some account.name)]

/-- The customer of a `CustomerAccount`. -/
def customerOf (account : ℕ) : Tx Customer := do
  let account ← getAccount account
  getCustomer account.customer

/-- `apps.billing.services._notify_bill_created`. -/
def notifyBillCreated (env : Env) (bill : Bill) : Tx Unit := do
  let customer ← customerOf bill.customerAccount
  let tenant ← getTenant bill.tenant
  sendNotification env bill.tenant .billCreated
    [("institution_name", tenant.name),
     ("customer_name", customer.fullName),
     ("bill_number", bill.billNumber)]
    customer.email customer.phoneNumber

/-- The arguments of `get_or_create_bill` that the modelled code reads. -/
structure BillInput where
  tenant : ℕ
  customerAccount : ℕ
  items : List ItemInput
  externalReference : String

/-- The row that `Bill.objects.create` inserts. -/
def BillInput.newBill (input : BillInput) (id : ℕ) (billNumber : String) : Bill :=
  { id, billNumber
    tenant := input.tenant
    customerAccount := input.customerAccount
    status := .draft
    currency := "TZS"
    totalAmount := .zero
    issuedAt := none
    cancelledAt := none
    externalReference := input.externalReference }

/-- The unique constraints of `Bill`. -/
def Books.billClash (books : Books) (bill : Bill) : Bool :=
  books.bills.any fun row =>
    row.id = bill.id ||
    (row.tenant = bill.tenant && row.billNumber = bill.billNumber) ||
    (row.tenant = bill.tenant && bill.externalReference != "" &&
      row.externalReference = bill.externalReference)

/-- `Bill.objects.create`. -/
def insertBill (bill : Bill) : Tx Unit := do
  checkVarchar 100 bill.externalReference
  Txn.acquire (.bill bill.id)
  Txn.acquire (.billKey bill.tenant bill.billNumber)
  acquireUnlessBlank bill.externalReference (.billReference bill.tenant bill.externalReference)
  let clash ← Txn.fetch (.billReference bill.tenant bill.externalReference) fun db =>
    db.toBooks.billClash bill
  raiseIf clash .integrityError
  onBooks (·.addBill bill)

/-- The savepoint of `get_or_create_bill`, for its `k`-th attempt. -/
def createBill (env : Env) (input : BillInput) (k : ℕ) : Tx Bill := do
  let bill := input.newBill (env.gen.billId k) (env.gen.billNumber k)
  insertBill bill
  createItems bill.tenant bill.id input.items
  let bill ← bill.recalculateTotal
  recordAuditEvent env "bill.created" (some bill.tenant) (some (.bill bill.id))
    [("total_amount", bill.recalculatedText), ("status", bill.status.value)]
  dispatchBillEvent env bill bill.recalculatedText "bill.created"
  notifyBillCreated env bill
  pure bill

/-- `Bill.objects.filter(tenant=…, external_reference=…).first()`, skipped for a
blank reference. -/
def billByReference (input : BillInput) : Tx (Option Bill) :=
  if input.externalReference = "" then pure none else
    .fetch (.billReference input.tenant input.externalReference) fun db =>
      db.bills.find? fun b =>
        b.tenant = input.tenant && b.externalReference = input.externalReference

/-- The attempts of `get_or_create_bill` from the `k`-th on. -/
def billAttempts (env : Env) (input : BillInput) (k : ℕ) : ℕ → Tx (Bill × Bool)
  | 0 => .throw .integrityError
  | left + 1 => do
      match ← (createBill env input k).tryAtomic Error.isIntegrityError with
      | .ok bill => pure (bill, true)
      | .error _ =>
          match ← billByReference input with
          | some existing => pure (existing, false)
          | none => billAttempts env input (k + 1) left

/-- `apps.billing.services.get_or_create_bill`. -/
def getOrCreateBill (env : Env) (input : BillInput) : Tx (Bill × Bool) := do
  match ← billByReference input with
  | some existing => pure (existing, false)
  | none => billAttempts env input 0 3

/-- `apps.billing.services.cancel_bill`. -/
def cancelBill (env : Env) (bill : Bill) : Tx Bill := do
  let bill ← bill.transitionTo env .cancelled
  recordAuditEvent env "bill.cancelled" (some bill.tenant) (some (.bill bill.id))
  dispatchBillEvent env bill bill.totalAmount.cents.str "bill.cancelled"
  pure bill

/-! ## Control numbers -/

def Books.addControlNumber (books : Books) (cn : ControlNumber) : Books :=
  { books with controlNumbers := books.controlNumbers ++ [cn] }

def Books.updateControlNumbers (books : Books) (f : ControlNumber → ControlNumber) : Books :=
  { books with controlNumbers := books.controlNumbers.map f }

/-- The account behind a new control number, and the number of its bill if any. -/
def ownerOf (cn : ControlNumber) : Tx (ℕ × String) :=
  match cn.owner with
  | .bill id => do
      let bill ← getBill id
      pure (bill.customerAccount, bill.billNumber)
  | .customerAccount id => pure (id, "")

/-- `apps.control_numbers.services._notify_control_number_generated`. -/
def notifyControlNumberGenerated (env : Env) (cn : ControlNumber) : Tx Unit := do
  let (account, billNumber) ← ownerOf cn
  let customer ← customerOf account
  let tenant ← getTenant cn.tenant
  sendNotification env cn.tenant .controlNumberGenerated
    [("institution_name", tenant.name),
     ("customer_name", customer.fullName),
     ("bill_number", billNumber),
     ("control_number", cn.value)]
    customer.email customer.phoneNumber

/-- The unique constraints of `ControlNumber`: `value`, one number for a bill,
one active number for an account. -/
def Books.controlNumberClash (books : Books) (cn : ControlNumber) : Bool :=
  books.controlNumbers.any fun row =>
    row.id = cn.id || row.value = cn.value ||
    match cn.owner with
    | .bill _ => row.owner = cn.owner
    | .customerAccount _ => row.owner = cn.owner && row.status = .active

/-- `ControlNumber.objects.create`. -/
def insertControlNumber (cn : ControlNumber) : Tx Unit := do
  Txn.acquire (.controlNumber cn.id)
  Txn.acquire (.controlNumberValue cn.value)
  Txn.acquire (.controlNumberOf cn.owner)
  let clash ← Txn.fetch (.controlNumberValue cn.value) fun db =>
    db.toBooks.controlNumberClash cn
  raiseIf clash .integrityError
  onBooks (·.addControlNumber cn)

/-- The savepoint of `get_or_create_for_bill` and `get_or_create_for_account`, for
the `k`-th attempt. -/
def createControlNumber (env : Env) (tenant : ℕ) (owner : Owner) (scope : ControlNumberScope)
    (expiresAt : Option Time) (k : ℕ) : Tx ControlNumber := do
  let cn : ControlNumber :=
    { id := env.gen.controlNumberId k
      tenant, scope, owner, expiresAt
      value := env.gen.controlNumberValue k
      status := .active
      cancelledAt := none
      createdBy := env.actor }
  insertControlNumber cn
  recordAuditEvent env "control_number.created" (some tenant) (some (.controlNumber cn.id))
  recordControlNumberCreated env cn
  notifyControlNumberGenerated env cn
  pure cn

/-- The attempts of a `get_or_create_for_…` from the `k`-th on; `lookup` is the
query for the row that a concurrent request may have created. -/
def controlNumberAttempts (env : Env) (lookup : Tx (Option ControlNumber))
    (create : ℕ → Tx ControlNumber) (k : ℕ) : ℕ → Tx (ControlNumber × Bool)
  | 0 => .throw .integrityError
  | left + 1 => do
      match ← (create k).tryAtomic Error.isIntegrityError with
      | .ok cn => pure (cn, true)
      | .error _ =>
          match ← lookup with
          | some existing => pure (existing, false)
          | none => controlNumberAttempts env lookup create (k + 1) left

/-- The common body of `get_or_create_for_bill` and `get_or_create_for_account`. -/
def getOrCreateControlNumber (env : Env) (tenant : ℕ) (lookup : Tx (Option ControlNumber))
    (create : ℕ → Tx ControlNumber) : Tx (ControlNumber × Bool) := do
  match ← lookup with
  | some existing => do
      recordAuditEvent env "control_number.reused" (some tenant)
        (some (.controlNumber existing.id))
      recordControlNumberReused env existing
      pure (existing, false)
  | none => controlNumberAttempts env lookup create 0 5

/-- `ControlNumber.objects.filter(bill=bill).first()`. -/
def controlNumberOfBill (bill : ℕ) : Tx (Option ControlNumber) :=
  .fetch (.controlNumberOf (.bill bill)) fun db =>
    db.controlNumbers.find? (·.owner = .bill bill)

/-- `ControlNumber.objects.filter(customer_account=…, status=ACTIVE).first()`. -/
def activeControlNumberOf (account : ℕ) : Tx (Option ControlNumber) :=
  .fetch (.controlNumberOf (.customerAccount account)) fun db =>
    db.controlNumbers.find? fun cn =>
      cn.owner = .customerAccount account && cn.status = .active

/-- `apps.control_numbers.services.get_or_create_for_bill`. -/
def getOrCreateForBill (env : Env) (tenant : ℕ) (bill : Bill)
    (expiresAt : Option Time := none) : Tx (ControlNumber × Bool) :=
  getOrCreateControlNumber env tenant (controlNumberOfBill bill.id)
    (createControlNumber env tenant (.bill bill.id) .oneTime expiresAt)

/-- `apps.control_numbers.services.get_or_create_for_account`. -/
def getOrCreateForAccount (env : Env) (tenant : ℕ) (account : CustomerAccount)
    (expiresAt : Option Time := none) : Tx (ControlNumber × Bool) :=
  getOrCreateControlNumber env tenant (activeControlNumberOf account.id)
    (createControlNumber env tenant (.customerAccount account.id) .persistent expiresAt)

/-- `apps.control_numbers.services.cancel`. -/
def cancelControlNumber (env : Env) (cn : ControlNumber) : Tx Unit := do
  Txn.acquire (.controlNumber cn.id)
  onBooks (·.updateControlNumbers fun row =>
    if row.id = cn.id then { row with status := .cancelled, cancelledAt := some env.now }
    else row)
  recordAuditEvent env "control_number.cancelled" (some cn.tenant)
    (some (.controlNumber cn.id))

/-- The rows that `expire_overdue` updates. -/
def ControlNumber.overdue (cn : ControlNumber) (now : Time) (tenant : Option ℕ) : Bool :=
  cn.status = .active && cn.expiresAt.any (· < now) && tenant.all (· = cn.tenant)

/-- The row locks of an `UPDATE`: lock each row that the filter found, and look at it again
once the lock is held. -/
def lockControlNumbers (keep : ControlNumber → Bool) : List ControlNumber → Tx (List ControlNumber)
  | [] => pure []
  | cn :: rest => do
      Txn.acquire (.controlNumber cn.id)
      let row ← Txn.fetch (.controlNumber cn.id) fun db =>
        db.controlNumbers.find? (·.id = cn.id)
      let locked ← lockControlNumbers keep rest
      pure ((row.filter keep).toList ++ locked)

/-- `apps.control_numbers.services.expire_overdue`. -/
def expireOverdue (env : Env) (tenant : Option ℕ) : Tx Unit := do
  let keep := fun cn : ControlNumber => cn.overdue env.now tenant
  let found ← Txn.fetch (.controlNumbers) fun db => db.controlNumbers.filter keep
  let rows ← lockControlNumbers keep found
  onBooks (·.updateControlNumbers fun row =>
    if rows.any (·.id = row.id) then { row with status := .expired } else row)

/-- The account behind a control number: the bill's, or its own. -/
def accountBehind (cn : ControlNumber) (bill : Option Bill) : Tx ℕ :=
  match bill, cn.owner with
  | some bill, _ => pure bill.customerAccount
  | none, .customerAccount id => pure id
  | none, .bill _ => .throw .doesNotExist

/-! ## Receipts -/

def Books.addReceipt (books : Books) (receipt : Receipt) : Books :=
  { books with receipts := books.receipts ++ [receipt] }

/-- The one receipt of a payment. -/
def Books.receiptOf (books : Books) (payment : ℕ) : Option Receipt :=
  books.receipts.find? (·.payment = payment)

/-- The unique constraints of `Receipt`. -/
def Books.receiptClash (books : Books) (receipt : Receipt) : Bool :=
  books.receipts.any fun row =>
    row.payment = receipt.payment ||
    (row.tenant = receipt.tenant && row.receiptNumber = receipt.receiptNumber)

/-- `Receipt.objects.create` with the `except IntegrityError` around it.  There is
no savepoint, so after the failed insert the query of the handler raises. -/
def insertReceipt (receipt : Receipt) : Tx Unit := do
  checkVarchar 200 receipt.paymentChannelLabel
  Txn.acquire (.receiptOf receipt.payment)
  Txn.acquire (.receiptNumber receipt.tenant receipt.receiptNumber)
  let clash ← Txn.fetch (.receiptOf receipt.payment) fun db => db.toBooks.receiptClash receipt
  raiseIf clash .transactionAborted
  onBooks (·.addReceipt receipt)

/-- `remaining_balance_at_issue`. -/
def remainingBalance : Option Bill → Tx (Option Numeric)
  | none => pure none
  | some bill => do
      let balance ← bill.balance
      let stored ← storeNumeric balance
      pure (some stored)

/-- The row that `generate_receipt` inserts. -/
def newReceipt (env : Env) (payment : Payment) (cn : ControlNumber) (bill : Option Bill)
    (customer : Customer) (tenant : Tenant) (provider : PaymentProvider)
    (remaining : Option Numeric) : Receipt :=
  { tenant := payment.tenant
    payment := payment.id
    receiptNumber := env.gen.receiptNumber payment.id
    issuedAt := env.now
    institutionName := tenant.name
    customerName := customer.fullName
    billNumber := (bill.map (·.billNumber)).getD ""
    controlNumber := cn.value
    paymentReference := payment.merchantReference
    amount := payment.amount.toNumeric
    currency := payment.currency
    paymentChannelLabel := payment.channel.getD provider.label
    remainingBalanceAtIssue := remaining }

/-- `apps.receipts.services.generate_receipt`. -/
def generateReceipt (env : Env) (payment : Payment) (cn : ControlNumber) (bill : Option Bill) :
    Tx Receipt := do
  match ← Txn.fetch (.receiptOf payment.id) fun db => db.toBooks.receiptOf payment.id with
  | some existing => pure existing
  | none => do
      raiseIf (payment.status ≠ .successful) <| .validationError <|
        "A receipt can only be issued for a payment already confirmed SUCCESSFUL — " ++
        "see build spec section 20."
      let account ← accountBehind cn bill
      let customer ← customerOf account
      let tenant ← getTenant payment.tenant
      let provider ← getProvider payment.provider
      let remaining ← remainingBalance bill
      let receipt := newReceipt env payment cn bill customer tenant provider remaining
      insertReceipt receipt
      pure receipt

end Kusanya
