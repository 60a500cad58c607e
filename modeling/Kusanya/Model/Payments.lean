import Kusanya.Model.Billing
import Mathlib.Data.List.Sort

/-!
# The payment orchestrator

`apps.payments.models` and `apps.payments.services`.  A `Payment` value is the
object that a handler loaded; `transitionTo` checks the status of that object
and then overwrites the row.  Every function takes the object and gives it back
as it is afterwards.

Django loads `payment.control_number` and `control_number.bill` at their first use
and then keeps the objects; `Related` holds those that the handler has already.
-/

namespace Kusanya

open ReadCommitted

def Books.addPayment (books : Books) (payment : Payment) : Books :=
  { books with payments := books.payments ++ [payment] }

/-- `UPDATE payments_payment … WHERE id = id`. -/
def Books.updatePayment (books : Books) (id : ℕ) (f : Payment → Payment) : Books :=
  { books with payments := books.payments.map fun row => if row.id = id then f row else row }

def Books.addAllocation (books : Books) (row : PaymentAllocation) : Books :=
  { books with allocations := books.allocations ++ [row] }

def Books.addCallbackEvent (books : Books) (row : PaymentCallbackEvent) : Books :=
  { books with callbackEvents := books.callbackEvents ++ [row] }

def Books.updateCallbackEvent (books : Books) (id : ℕ)
    (f : PaymentCallbackEvent → PaymentCallbackEvent) : Books :=
  { books with
    callbackEvents := books.callbackEvents.map fun row => if row.id = id then f row else row }

def Books.payment? (books : Books) (id : ℕ) : Option Payment :=
  books.payments.find? (·.id = id)

/-! ## The state machine -/

/-- The in-memory part of `Payment.transition_to`. -/
def Payment.moveTo (payment : Payment) (now : Time) (newStatus : PaymentStatus)
    (failureReason : String) : Payment :=
  { payment with
    status := newStatus
    completedAt := if newStatus.completes then some now else payment.completedAt
    failureReason := if failureReason = "" then payment.failureReason else failureReason }

/-- `save(update_fields=["status", "completed_at", "failure_reason", …])`. -/
def Payment.saveStatus (payment row : Payment) : Payment :=
  { row with
    status := payment.status
    completedAt := payment.completedAt
    failureReason := payment.failureReason }

/-- `Payment.transition_to`. -/
def Payment.transitionTo (env : Env) (payment : Payment) (newStatus : PaymentStatus)
    (failureReason : String := "") : Tx Payment := do
  raiseIf (newStatus ∉ payment.status.allowedTransitions) <| .validationError <|
    "Cannot transition payment from '" ++ payment.status.value ++ "' to '" ++
      newStatus.value ++ "'."
  let moved := payment.moveTo env.now newStatus failureReason
  checkVarchar 255 moved.failureReason
  Txn.acquire (.payment payment.id)
  onBooks (·.updatePayment payment.id moved.saveStatus)
  pure moved

/-! ## Side effects of a status -/

/-- What a handler has in memory about a payment besides its row: the related objects, and
`str(payment.amount)` where the amount has not been read from its column. -/
structure Related where
  controlNumber : Option ControlNumber := none
  bill : Option Bill := none
  amountText : Option String := none

/-- `str(payment.amount)`. -/
def Payment.amountText (payment : Payment) (related : Related) : String :=
  related.amountText.getD payment.amount.cents.str

/-- `payment.control_number`. -/
def controlNumberOf (payment : Payment) (related : Related) : Tx ControlNumber :=
  match related.controlNumber with
  | some cn => pure cn
  | none => getControlNumber payment.controlNumber

/-- `control_number.bill`. -/
def boundBill (cn : ControlNumber) (related : Related) : Tx (Option Bill) :=
  match cn.bill?, related.bill with
  | none, _ => pure none
  | some _, some bill => pure (some bill)
  | some id, none => do
      let bill ← getBill id
      pure (some bill)

/-- The control number of a payment and the bill behind it. -/
def loadRelated (payment : Payment) (related : Related) : Tx (ControlNumber × Option Bill) := do
  let cn ← controlNumberOf payment related
  let bill ← boundBill cn related
  pure (cn, bill)

/-- `_dispatch`; `amount` is `str(payment.amount)`. -/
def dispatch (env : Env) (payment : Payment) (cn : ControlNumber) (bill : Option Bill)
    (amount eventType : String) : Tx Unit :=
  dispatchEvent env payment.tenant eventType
    [("payment_id", some (toString payment.id)),
     ("merchant_reference", some payment.merchantReference),
     ("provider_reference", some payment.providerReference),
     ("control_number", some cn.value),
     ("bill_number", bill.map (·.billNumber)),
     ("amount", some amount),
     ("currency", some payment.currency),
     ("status", some payment.status.value)]

/-- `_notification_context`. -/
def notificationContext (payment : Payment) (cn : ControlNumber) (bill : Option Bill)
    (customer : Customer) (tenant : Tenant) (extra : List (String × String)) :
    List (String × String) :=
  [("institution_name", tenant.name),
   ("customer_name", customer.fullName),
   ("bill_number", (bill.map (·.billNumber)).getD ""),
   ("control_number", cn.value),
   ("payment_reference", payment.merchantReference)] ++ extra

/-- `_notify`, with `_customer_for_payment`. -/
def notify (env : Env) (payment : Payment) (cn : ControlNumber) (bill : Option Bill)
    (eventType : NotificationEventType) (extra : List (String × String) := []) : Tx Unit := do
  let account ← accountBehind cn bill
  let customer ← customerOf account
  let tenant ← getTenant payment.tenant
  sendNotification env payment.tenant eventType
    (notificationContext payment cn bill customer tenant extra)
    customer.email customer.phoneNumber

/-- `_post_settlement_ledger_entries`. -/
def postSettlementLedgerEntries (env : Env) (payment : Payment) : Tx Unit := do
  let _ ← postEntry env payment.tenant .paymentReceived .customer payment.amount.toNumeric
    payment.currency payment.merchantReference (some (.payment payment.id))
  let _ ← postEntry env payment.tenant .institutionEntitlement .institution
    payment.amount.toNumeric payment.currency payment.merchantReference
    (some (.payment payment.id))
  pure ()

/-- `_allocate_to_bill`; gives back the bill object as it is afterwards. -/
def allocateToBill (env : Env) (payment : Payment) : Option Bill → Tx (Option Bill)
  | none => pure none
  | some bill => do
      onBooks (·.addAllocation
        { tenant := payment.tenant
          payment := payment.id
          bill := bill.id
          amount := payment.amount.toNumeric })
      if bill.status ≠ .active ∧ bill.status ≠ .partiallyPaid then
        pure (some bill)
      else do
        let balance ← bill.balance
        if balance ≤ 0 then do
          let bill ← bill.transitionTo env .paid
          pure (some bill)
        else if bill.status = .active then do
          let bill ← bill.transitionTo env .partiallyPaid
          pure (some bill)
        else
          pure (some bill)

/-- The event that `_notify_payment_successful` picks. -/
def successEvent : Option Bill → NotificationEventType
  | some bill =>
      if bill.status = .paid then .billFullyPaid
      else if bill.status = .partiallyPaid then .paymentPartial
      else .paymentSuccessful
  | none => .paymentSuccessful

/-- `str(bill.balance) if bill is not None else ""`. -/
def balanceText : Option Bill → Tx String
  | none => pure ""
  | some bill => do
      let balance ← bill.balance
      pure balance.str

/-- `_notify_payment_successful`; `amount` is `str(payment.amount)`. -/
def notifyPaymentSuccessful (env : Env) (payment : Payment) (cn : ControlNumber)
    (bill : Option Bill) (amount : String) (receipt : Receipt) : Tx Unit := do
  let remaining ← balanceText bill
  notify env payment cn bill (successEvent bill)
    [("paid_amount", amount),
     ("remaining_balance", remaining),
     ("receipt_number", receipt.receiptNumber)]

/-- What follows the transition to `SUCCESSFUL`. -/
def onSuccessful (env : Env) (payment : Payment) (related : Related) : Tx Unit := do
  recordAuditEvent env "payment.successful" (some payment.tenant) (some (.payment payment.id))
  postSettlementLedgerEntries env payment
  recordPaymentSuccessful env payment
  let (cn, bill) ← loadRelated payment related
  let bill ← allocateToBill env payment bill
  let receipt ← generateReceipt env payment cn bill
  notifyPaymentSuccessful env payment cn bill (payment.amountText related) receipt
  dispatch env payment cn bill (payment.amountText related) "payment.successful"

/-- What follows the transition to `FAILED`. -/
def onFailed (env : Env) (payment : Payment) (related : Related) : Tx Unit := do
  recordAuditEvent env "payment.failed" (some payment.tenant) (some (.payment payment.id))
  recordPaymentFailed env payment
  let (cn, bill) ← loadRelated payment related
  notify env payment cn bill .paymentFailed
  dispatch env payment cn bill (payment.amountText related) "payment.failed"

/-- What follows the transition to `PENDING`. -/
def onPending (env : Env) (payment : Payment) (related : Related) : Tx Unit := do
  recordAuditEvent env "payment.pending" (some payment.tenant) (some (.payment payment.id))
  let (cn, bill) ← loadRelated payment related
  notify env payment cn bill .paymentPending
  dispatch env payment cn bill (payment.amountText related) "payment.pending"

/-- The branches of `_apply_outcome` after its transition. -/
def onEntered (env : Env) (payment : Payment) (related : Related) : PaymentStatus → Tx Unit
  | .successful => onSuccessful env payment related
  | .failed => onFailed env payment related
  | _ => onPending env payment related

/-- `_apply_outcome`. -/
def applyOutcome (env : Env) (payment : Payment) (related : Related)
    (outcome : ProviderOutcome) : Tx Payment :=
  match outcome.toStatus? with
  | none =>
      -- a timeout at either stage; an inconclusive answer changes nothing else
      if payment.status = .initiated ∨ payment.status = .pending then do
        let payment ← payment.transitionTo env .unknown
        recordAuditEvent env "payment.unknown" (some payment.tenant)
          (some (.payment payment.id))
        pure payment
      else pure payment
  | some target =>
      if payment.status = target then pure payment else do
        let payment ← payment.transitionTo env target
        onEntered env payment related target
        pure payment

/-! ## Operations -/

/-- `apps.providers.registry.get_adapter`. -/
def getAdapter (env : Env) (provider : PaymentProvider) : Tx Adapter :=
  match env.registry provider.code with
  | some adapter => pure adapter
  | none => .throw <| .adapter <| .providerError <|
      "No adapter registered for provider code '" ++ provider.code ++ "'. " ++
      "Real provider adapters are only added once official API " ++
      "documentation and credentials exist for that provider — see " ++
      "docs/PAYMENT_PROVIDER_ARCHITECTURE.md."

/-- The adapter behind `payment.provider`. -/
def adapterOf (env : Env) (payment : Payment) : Tx Adapter := do
  let provider ← getProvider payment.provider
  getAdapter env provider

/-- Call the provider; an exception of the adapter propagates. -/
def askProvider {α : Type} (call : Call) (answer : Except AdapterError α) : Tx α := do
  Txn.invoke call
  match answer with
  | .ok result => pure result
  | .error e => .throw (.adapter e)

/-- The default of a column that holds a `dict`. -/
def emptyDict : String := "\x7b\x7d"

/-- The arguments of `initiate_payment`; `amountText` is `str(amount)`. -/
structure InitiateInput where
  tenant : ℕ
  controlNumber : ControlNumber
  provider : PaymentProvider
  channel : Option String
  amount : Amount
  amountText : String
  payerReference : String
  idempotencyKey : String
  metadata : List (String × String)

/-- What the request that initiates a payment has in memory. -/
def InitiateInput.related (input : InitiateInput) (bill : Option Bill) : Related :=
  { controlNumber := some input.controlNumber
    bill
    amountText := some input.amountText }

/-- The row that `Payment.objects.create` inserts. -/
def InitiateInput.newPayment (input : InitiateInput) (env : Env) (currency : String) :
    Payment :=
  { id := env.gen.paymentId
    tenant := input.tenant
    controlNumber := input.controlNumber.id
    provider := input.provider.id
    channel := input.channel
    status := .initiated
    amount := input.amount
    currency := currency
    payerReference := input.payerReference
    merchantReference := env.gen.merchantReference
    providerReference := ""
    idempotencyKey := input.idempotencyKey
    initiatedAt := env.now
    completedAt := none
    failureReason := ""
    rawProviderResponse := emptyDict
    settlementBatch := none }

/-- The unique constraints of `Payment`. -/
def Books.paymentClash (books : Books) (payment : Payment) : Bool :=
  books.payments.any fun row =>
    row.id = payment.id || row.merchantReference = payment.merchantReference ||
    (row.tenant = payment.tenant && payment.idempotencyKey != "" &&
      row.idempotencyKey = payment.idempotencyKey)

/-- `Payment.objects.create`. -/
def insertPayment (payment : Payment) : Tx Unit := do
  raiseIf (100 < payment.payerReference.length) .valueError
  checkVarchar 100 payment.idempotencyKey
  Txn.acquire (.payment payment.id)
  Txn.acquire (.merchantReference payment.merchantReference)
  acquireUnlessBlank payment.idempotencyKey (.idempotencyKey payment.tenant payment.idempotencyKey)
  let clash ← Txn.fetch (.idempotencyKey payment.tenant payment.idempotencyKey) fun db =>
    db.toBooks.paymentClash payment
  raiseIf clash .integrityError
  onBooks (·.addPayment payment)

/-- The payment that already carries a non-blank idempotency key. -/
def paymentByKey (tenant : ℕ) (key : String) : Tx (Option Payment) :=
  if key = "" then pure none else
    .fetch (.idempotencyKey tenant key) fun db =>
      db.payments.find? fun p => p.tenant = tenant && p.idempotencyKey = key

def InitiateInput.call (input : InitiateInput) (payment : Payment) : InitiateCall :=
  { amount := input.amount
    currency := payment.currency
    controlNumber := input.controlNumber.value
    payerReference := input.payerReference
    merchantReference := payment.merchantReference
    metadata := input.metadata }

def timeoutReason : String :=
  "Provider request timed out; status must be confirmed via query_payment before any " ++
  "further action."

/-- The branch `except ProviderTimeoutError`. -/
def onTimeout (env : Env) (payment : Payment) : Tx Payment := do
  let payment ← payment.transitionTo env .unknown timeoutReason
  recordAuditEvent env "payment.unknown" (some payment.tenant) (some (.payment payment.id))
  pure payment

/-- The branch `except ProviderError`. -/
def onProviderError (env : Env) (payment : Payment) (related : Related)
    (message : String) : Tx Payment := do
  let payment ← payment.transitionTo env .failed message
  recordAuditEvent env "payment.failed" (some payment.tenant) (some (.payment payment.id))
    [] [("reason", message)]
  recordPaymentFailed env payment
  let (cn, bill) ← loadRelated payment related
  notify env payment cn bill .paymentFailed
  pure payment

/-- Keep the provider's reference and raw response. -/
def saveProviderResult (payment : Payment) (result : ProviderResult) : Tx Payment := do
  checkVarchar 100 result.providerReference
  let rawResponse ← storeJson result.rawResponse
  Txn.acquire (.payment payment.id)
  onBooks (·.updatePayment payment.id fun row =>
    { row with
      providerReference := result.providerReference
      rawProviderResponse := rawResponse })
  pure
    { payment with
      providerReference := result.providerReference
      rawProviderResponse := rawResponse }

/-- What `initiate_payment` does with the adapter's answer. -/
def onInitiated (env : Env) (payment : Payment) (related : Related) :
    Except AdapterError ProviderResult → Tx Payment
  | .error (.timeout _) => onTimeout env payment
  | .error (.providerError message) => onProviderError env payment related message
  | .error (.invalidSignature message) => onProviderError env payment related message
  | .error .other => .throw (.adapter .other)
  | .ok result => do
      let payment ← saveProviderResult payment result
      applyOutcome env payment related result.outcome

/-- `apps.payments.services.initiate_payment`. -/
def initiatePayment (env : Env) (input : InitiateInput) (bill : Option Bill) :
    Tx Payment := do
  match ← paymentByKey input.tenant input.idempotencyKey with
  | some existing => do
      recordAuditEvent env "payment.initiation_deduplicated" (some input.tenant)
        (some (.payment existing.id))
      pure existing
  | none => do
      let tenant ← getTenant input.tenant
      let payment := input.newPayment env tenant.defaultCurrency
      insertPayment payment
      recordAuditEvent env "payment.initiated" (some input.tenant)
        (some (.payment payment.id))
      let adapter ← getAdapter env input.provider
      Txn.invoke (.initiatePayment (input.call payment))
      onInitiated env payment (input.related bill) (adapter.initiatePayment (input.call payment))

/-- A query may be the first to learn the provider's reference. -/
def learnReference (payment : Payment) (reference : String) : Tx Payment :=
  if reference ≠ "" ∧ payment.providerReference = "" then do
    checkVarchar 100 reference
    Txn.acquire (.payment payment.id)
    onBooks (·.updatePayment payment.id fun row => { row with providerReference := reference })
    pure { payment with providerReference := reference }
  else pure payment

/-- `apps.payments.services.query_payment`. -/
def queryPayment (env : Env) (payment : Payment) : Tx Payment := do
  let adapter ← adapterOf env payment
  let result ← askProvider (.queryPayment payment.merchantReference)
    (adapter.queryPayment payment.merchantReference)
  let payment ← learnReference payment result.providerReference
  recordAuditEvent env "payment.queried" (some payment.tenant) (some (.payment payment.id))
    [] [("provider_outcome", result.outcome.value)]
  applyOutcome env payment {} result.outcome

/-- The unique constraints of `PaymentCallbackEvent`. -/
def Books.callbackClash (books : Books) (event : PaymentCallbackEvent) : Bool :=
  books.callbackEvents.any fun row =>
    row.id = event.id || (event.externalEventId != "" && row.provider = event.provider &&
      row.externalEventId = event.externalEventId)

/-- `PaymentCallbackEvent.objects.create`. -/
def insertCallbackEvent (id provider : ℕ) (externalEventId : String) (outcome : CallbackOutcome)
    (payment : Option ℕ) (rawPayload : Option String) : Tx PaymentCallbackEvent := do
  checkVarchar 150 externalEventId
  let rawPayload ← storeJson rawPayload
  let event : PaymentCallbackEvent :=
    { id, provider, externalEventId, payment, outcome, rawPayload }
  Txn.acquire (.callbackEvent id)
  acquireUnlessBlank externalEventId (.callbackKey provider externalEventId)
  let clash ← Txn.fetch (.callbackKey provider externalEventId) fun db =>
    db.toBooks.callbackClash event
  raiseIf clash .integrityError
  onBooks (·.addCallbackEvent event)
  pure event

/-- `ordering = ["-initiated_at"]`; the database leaves the order of equal timestamps open, and
they stay in the order of their insertion here. -/
def newestFirst (payments : List Payment) : List Payment :=
  payments.insertionSort fun p q => q.initiatedAt ≤ p.initiatedAt

/-- The first row of that order. -/
def newestPayment : List Payment → Option Payment
  | [] => none
  | p :: rest =>
      match newestPayment rest with
      | none => some p
      | some later => if p.initiatedAt < later.initiatedAt then some later else some p

/-- `Payment.objects.filter(provider_reference=…).first()`. -/
def Books.matchReference (books : Books) (reference : String) : Option Payment :=
  newestPayment (books.payments.filter (·.providerReference = reference))

/-- The branch for an event id that is already in the table. -/
def onDuplicate (env : Env) (provider : PaymentProvider) (parsed : ProviderCallbackResult) :
    Tx PaymentCallbackEvent := do
  let original ← Txn.fetch (.callbackKey provider.id parsed.externalEventId) fun db =>
    db.callbackEvents.find? fun row =>
      row.provider = provider.id && row.externalEventId = parsed.externalEventId
  let dup ← insertCallbackEvent (env.gen.callbackEventId 1) provider.id "" .duplicate
    (original.bind (·.payment)) parsed.rawResponse
  match original.bind (·.payment) with
  | none => do
      recordAuditEvent env "payment.callback_duplicate" none (some (.callbackEvent dup.id))
      pure dup
  | some id => do
      let payment ← getRow (.payment id) fun db => db.toBooks.payment? id
      recordAuditEvent env "payment.callback_duplicate" (some payment.tenant)
        (some (.callbackEvent dup.id))
      recordPaymentDuplicate env payment
      pure dup

/-- The branch for a first delivery. -/
def onFirstDelivery (env : Env) (event : PaymentCallbackEvent)
    (parsed : ProviderCallbackResult) : Tx PaymentCallbackEvent := do
  checkParameter parsed.providerReference
  match ← Txn.fetch (.providerReference parsed.providerReference) fun db =>
      db.toBooks.matchReference parsed.providerReference with
  | none => do
      onBooks (·.updateCallbackEvent event.id fun row => { row with outcome := .unmatched })
      recordAuditEvent env "payment.callback_unmatched" none (some (.callbackEvent event.id))
      pure { event with outcome := .unmatched }
  | some payment => do
      onBooks (·.updateCallbackEvent event.id fun row => { row with payment := some payment.id })
      let _ ← applyOutcome env payment {} parsed.outcome
      pure { event with payment := some payment.id }

/-- What `process_callback` does once the adapter has verified the signature. -/
def onParsed (env : Env) (provider : PaymentProvider) (parsed : ProviderCallbackResult) :
    Tx PaymentCallbackEvent := do
  let inserted ← (insertCallbackEvent (env.gen.callbackEventId 0) provider.id
    parsed.externalEventId .processed none parsed.rawResponse).tryAtomic Error.isIntegrityError
  match inserted with
  | .error _ => onDuplicate env provider parsed
  | .ok event => onFirstDelivery env event parsed

/-- `apps.payments.services.process_callback`. -/
def processCallback (env : Env) (provider : PaymentProvider) (inbound : InboundCallback) :
    Tx PaymentCallbackEvent := do
  let adapter ← getAdapter env provider
  match adapter.processCallback inbound with
  | .error (.invalidSignature _) => do
      let event ← insertCallbackEvent (env.gen.callbackEventId 0) provider.id "" .invalidSignature
        none (some emptyDict)
      recordAuditEvent env "payment.callback_invalid_signature" none
        (some (.callbackEvent event.id))
      pure event
  | .error e => .throw (.adapter e)
  | .ok parsed => onParsed env provider parsed

/-- The common tail of `refund_payment` and `reverse_payment`; `record` books the
compensation, `name` is both the audit action and the webhook event. -/
def undoPayment (env : Env) (payment : Payment) (newStatus : PaymentStatus)
    (record : Payment → Tx Unit) (name : String) (metadata : List (String × String))
    (notification : NotificationEventType) : Tx Payment := do
  let payment ← payment.transitionTo env newStatus
  recordAuditEvent env name (some payment.tenant) (some (.payment payment.id)) [] metadata
  record payment
  let (cn, bill) ← loadRelated payment {}
  dispatch env payment cn bill (payment.amountText {}) name
  notify env payment cn bill notification
  pure payment

/-- `apps.payments.services.refund_payment`. -/
def refundPayment (env : Env) (payment : Payment) (amount : Option Amount := none) :
    Tx Payment := do
  raiseIf (payment.status ≠ .successful) <|
    .validationError "Only a successful payment can be refunded."
  let refundAmount := amount.getD payment.amount
  let adapter ← adapterOf env payment
  let result ← askProvider (.refund payment.providerReference refundAmount)
    (adapter.refund payment.providerReference refundAmount)
  if result.outcome = .successful then
    undoPayment env payment .refunded (recordPaymentRefunded env) "payment.refunded"
      [("amount", refundAmount.cents.str)] .paymentRefunded
  else pure payment

/-- `apps.payments.services.reverse_payment`. -/
def reversePayment (env : Env) (payment : Payment) : Tx Payment := do
  raiseIf (payment.status ≠ .successful) <|
    .validationError "Only a successful payment can be reversed."
  let adapter ← adapterOf env payment
  let result ← askProvider (.reverse payment.providerReference)
    (adapter.reverse payment.providerReference)
  if result.outcome = .successful then
    undoPayment env payment .reversed (recordPaymentReversed env) "payment.reversed" []
      .paymentReversed
  else pure payment

end Kusanya
