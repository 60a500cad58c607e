import Kusanya.Model.Backoffice

/-!
# Requests

The views of the portal and of the API, from the point where the user is known
and the form or serializer has validated its input.  `ATOMIC_REQUESTS` makes each
of them one transaction: a request that raises leaves no trace in the database.

The views fix the provider code `"mock"`, the only one with an adapter today;
here the code is an input, as a second provider's endpoint "would follow the
identical shape".
-/

namespace Kusanya

open ReadCommitted

/-! ## Views -/

/-- `get_object_or_404(Bill, pk=pk, tenant=request.tenant)`. -/
def billOr404 (tenant pk : ℕ) : Tx Bill :=
  getOr404 (.bill pk) fun db => db.bills.find? fun b => b.id = pk && b.tenant = tenant

/-- `get_object_or_404(Payment, pk=pk, tenant=request.tenant)`. -/
def paymentOr404 (tenant pk : ℕ) : Tx Payment :=
  getOr404 (.payment pk) fun db => db.payments.find? fun p => p.id = pk && p.tenant = tenant

/-- `get_object_or_404(CustomerAccount, pk=pk, tenant=request.tenant)`. -/
def accountOr404 (tenant pk : ℕ) : Tx CustomerAccount :=
  getOr404 (.account pk) fun db => db.accounts.find? fun a => a.id = pk && a.tenant = tenant

/-- `get_object_or_404(PaymentProvider, code=code)`. -/
def providerOr404 (code : String) : Tx PaymentProvider :=
  getOr404 (.providerCode code) fun db => db.providers.find? (·.code = code)

/-- A view that shows a `ValidationError` as a message. -/
def showingErrors (p : Tx Unit) : Tx Unit :=
  p.handle Error.isValidationError fun _ => pure ()

/-- `bill_create` of the portal. -/
def billCreate (env : Env) (input : BillInput) : Tx Unit := do
  let _ ← accountOr404 input.tenant input.customerAccount
  let (bill, created) ← getOrCreateBill env input
  if created then do
    let bill ← bill.transitionTo env .active
    let _ ← getOrCreateForBill env input.tenant bill
    pure ()
  else pure ()

/-- `BillListCreateView.post` of the API. -/
def billListCreate (env : Env) (input : BillInput) : Tx Unit := do
  let _ ← accountOr404 input.tenant input.customerAccount
  let (bill, created) ← getOrCreateBill env input
  if created then do
    let _ ← bill.transitionTo env .active
    pure ()
  else pure ()

/-- `bill_cancel`. -/
def billCancel (env : Env) (tenant pk : ℕ) : Tx Unit := do
  let bill ← billOr404 tenant pk
  showingErrors do
    let _ ← cancelBill env bill
    pure ()

/-- `bill_request_control_number`, and `BillControlNumberView.post`. -/
def billRequestControlNumber (env : Env) (tenant pk : ℕ) : Tx Unit := do
  let bill ← billOr404 tenant pk
  let _ ← getOrCreateForBill env tenant bill
  pure ()

/-- A control number for an account of the tenant. -/
def accountRequestControlNumber (env : Env) (tenant pk : ℕ) (expiresAt : Option Time) :
    Tx Unit := do
  let account ← accountOr404 tenant pk
  let _ ← getOrCreateForAccount env tenant account expiresAt
  pure ()

/-- `cancel` for a control number of the tenant. -/
def controlNumberCancel (env : Env) (tenant pk : ℕ) : Tx Unit := do
  let cn ← getOr404 (.controlNumber pk) fun db =>
    db.controlNumbers.find? fun c => c.id = pk && c.tenant = tenant
  cancelControlNumber env cn

/-- The amount of a form, and `str` of it as it was entered. -/
structure EnteredAmount extends Amount where
  text : String

/-- `pay_bill` of the portal. -/
def payBill (env : Env) (tenant billPk : ℕ) (code : String) (amount : EnteredAmount)
    (payerReference : String) (metadata : List (String × String)) : Tx Unit := do
  let bill ← billOr404 tenant billPk
  match ← controlNumberOfBill bill.id with
  | none => pure ()
  | some controlNumber => do
      let provider ← getRow (.providerCode code) fun db => db.providers.find? (·.code = code)
      let _ ← initiatePayment env
        { tenant, controlNumber, provider, payerReference, metadata
          amount := amount.toAmount
          amountText := amount.text
          channel := none
          idempotencyKey := "" }
        (some bill)
      pure ()

/-- `PaymentListCreateView.post` of the API; `channel` is an argument of the service
that no view passes yet. -/
def paymentListCreate (env : Env) (tenant : ℕ) (value code : String) (channel : Option String)
    (amount : Amount) (payerReference idempotencyKey : String)
    (metadata : List (String × String)) : Tx Unit := do
  let controlNumber ← getOr404 (.controlNumberValue value) fun db =>
    db.controlNumbers.find? fun c => c.value = value && c.tenant = tenant
  let provider ← providerOr404 code
  let _ ← initiatePayment env
    { tenant, controlNumber, provider, channel, amount, payerReference, idempotencyKey, metadata
      amountText := amount.cents.str }
    none
  pure ()

/-- `payment_query`, and `PaymentQueryView.post`. -/
def paymentQuery (env : Env) (tenant pk : ℕ) : Tx Unit := do
  let payment ← paymentOr404 tenant pk
  let _ ← queryPayment env payment
  pure ()

/-- `payment_refund`; the view leaves `amount` at its default. -/
def paymentRefund (env : Env) (tenant pk : ℕ) (amount : Option Amount) : Tx Unit := do
  let payment ← paymentOr404 tenant pk
  showingErrors do
    let _ ← refundPayment env payment amount
    pure ()

/-- `payment_reverse`. -/
def paymentReverse (env : Env) (tenant pk : ℕ) : Tx Unit := do
  let payment ← paymentOr404 tenant pk
  showingErrors do
    let _ ← reversePayment env payment
    pure ()

/-- `mock_provider_callback`. -/
def providerCallback (env : Env) (code : String) (inbound : InboundCallback) : Tx Unit := do
  match ← Txn.fetch (.providerCode code) fun db => db.providers.find? (·.code = code) with
  | none => pure ()
  | some provider => do
      let _ ← processCallback env provider inbound
      pure ()

/-- `trigger_run`. -/
def triggerRun (env : Env) (tenant : ℕ) : Tx Unit := do
  let _ ← runReconciliation env tenant
  pure ()

/-- `generate_batch`. -/
def generateBatch (env : Env) (tenant provider : ℕ) (periodStart periodEnd : Time) :
    Tx Unit := do
  let _ ← getProvider provider
  let _ ← generateSettlementBatch env tenant provider periodStart periodEnd
  pure ()

/-- `mark_completed`. -/
def markCompleted (env : Env) (pk : ℕ) (externalSettlementReference : String) : Tx Unit := do
  let batch ← getOr404 (.batch pk) fun db => db.batches.find? (·.id = pk)
  markSettlementCompleted env batch externalSettlementReference

/-- Saving a tenant in the admin. -/
def saveTenant (tenant : ℕ) (f : Tenant → Tenant) : Tx Unit :=
  .modify fun db =>
    { db with tenants := db.tenants.map fun row => if row.id = tenant then f row else row }

/-- A change of `fee_refund_policy`. -/
def changeFeeRefundPolicy (tenant : ℕ) (policy : FeeRefundPolicy) : Tx Unit :=
  saveTenant tenant fun row => { row with feeRefundPolicy := policy }

/-- A change of `default_currency`. -/
def changeDefaultCurrency (tenant : ℕ) (currency : String) : Tx Unit := do
  checkVarchar 3 currency
  saveTenant tenant fun row => { row with defaultCurrency := currency }

/-! ## The system -/

/-- What a request asks for, with its validated input. -/
inductive Action where
  | billCreate (input : BillInput)
  | billListCreate (input : BillInput)
  | billCancel (tenant pk : ℕ)
  | billRequestControlNumber (tenant pk : ℕ)
  | accountRequestControlNumber (tenant pk : ℕ) (expiresAt : Option Time)
  | controlNumberCancel (tenant pk : ℕ)
  | expireOverdue (tenant : Option ℕ)
  | payBill (tenant billPk : ℕ) (code : String) (amount : EnteredAmount) (payerReference : String)
      (metadata : List (String × String))
  | paymentListCreate (tenant : ℕ) (value code : String) (channel : Option String)
      (amount : Amount) (payerReference idempotencyKey : String)
      (metadata : List (String × String))
  | paymentQuery (tenant pk : ℕ)
  | paymentRefund (tenant pk : ℕ) (amount : Option Amount)
  | paymentReverse (tenant pk : ℕ)
  | providerCallback (code : String) (inbound : InboundCallback)
  | triggerRun (tenant : ℕ)
  | generateBatch (tenant provider : ℕ) (periodStart periodEnd : Time)
  | markCompleted (pk : ℕ) (externalSettlementReference : String)
  | changeFeeRefundPolicy (tenant : ℕ) (policy : FeeRefundPolicy)
  | changeDefaultCurrency (tenant : ℕ) (currency : String)

/-- A request: what it asks for and what it brings along. -/
structure Request where
  env : Env
  action : Action

/-- The view that answers a request. -/
def Request.handler (request : Request) : Tx Unit :=
  match request.action with
  | .billCreate input => Kusanya.billCreate request.env input
  | .billListCreate input => Kusanya.billListCreate request.env input
  | .billCancel tenant pk => Kusanya.billCancel request.env tenant pk
  | .billRequestControlNumber tenant pk =>
      Kusanya.billRequestControlNumber request.env tenant pk
  | .accountRequestControlNumber tenant pk expiresAt =>
      Kusanya.accountRequestControlNumber request.env tenant pk expiresAt
  | .controlNumberCancel tenant pk => Kusanya.controlNumberCancel request.env tenant pk
  | .expireOverdue tenant => Kusanya.expireOverdue request.env tenant
  | .payBill tenant billPk code amount payerReference metadata =>
      Kusanya.payBill request.env tenant billPk code amount payerReference metadata
  | .paymentListCreate tenant value code channel amount payerReference key metadata =>
      Kusanya.paymentListCreate request.env tenant value code channel amount payerReference key
        metadata
  | .paymentQuery tenant pk => Kusanya.paymentQuery request.env tenant pk
  | .paymentRefund tenant pk amount => Kusanya.paymentRefund request.env tenant pk amount
  | .paymentReverse tenant pk => Kusanya.paymentReverse request.env tenant pk
  | .providerCallback code inbound => Kusanya.providerCallback request.env code inbound
  | .triggerRun tenant => Kusanya.triggerRun request.env tenant
  | .generateBatch tenant provider periodStart periodEnd =>
      Kusanya.generateBatch request.env tenant provider periodStart periodEnd
  | .markCompleted pk reference => Kusanya.markCompleted request.env pk reference
  | .changeFeeRefundPolicy tenant policy => Kusanya.changeFeeRefundPolicy tenant policy
  | .changeDefaultCurrency tenant currency => Kusanya.changeDefaultCurrency tenant currency

end Kusanya
