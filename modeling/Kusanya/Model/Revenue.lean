import Kusanya.Model.Outbox

/-!
# The ledger and the revenue engine

`apps.ledger.services` and `apps.revenue.services`: the only code that writes
`LedgerEntry` and `RevenueEvent` rows.  Both tables only ever grow.
-/

namespace Kusanya

open ReadCommitted

/-- Change the money tables only. -/
def onBooks (w : Books → Books) : Tx Unit :=
  .modify fun db => { db with toBooks := w db.toBooks }

def Books.post (books : Books) (entry : LedgerEntry) : Books :=
  { books with ledger := books.ledger ++ [entry] }

def Books.record (books : Books) (event : RevenueEvent) : Books :=
  { books with revenue := books.revenue ++ [event] }

/-! ## Ledger -/

/-- `apps.ledger.services.post_entry`. -/
def postEntry (env : Env) (tenant : ℕ) (entryType : LedgerEntryType) (account : LedgerAccount)
    (amount : Numeric) (currency reference : String) (source : Option Source)
    (relatedEntry : Option Posting := none) (metadata : List (String × String) := []) :
    Tx LedgerEntry := do
  let entry : LedgerEntry :=
    { tenant, entryType, account, amount, currency, reference, source, relatedEntry, metadata
      correlationId := env.correlationId }
  storeCorrelationId env.correlationId
  onBooks (·.post entry)
  pure entry

/-- `apps.ledger.services.post_compensating_entry`. -/
def postCompensatingEntry (env : Env) (original : LedgerEntry) (entryType : LedgerEntryType)
    (amount : Numeric) (metadata : List (String × String)) : Tx LedgerEntry :=
  postEntry env original.tenant entryType original.account amount original.currency
    original.reference original.source (some original.toPosting) metadata

/-! ## Revenue -/

def controlNumberCreationFee : Numeric := ⟨5000, by decide⟩

def paymentSuccessFee : Numeric := ⟨5000, by decide⟩

/-- `apps.revenue.services._record_event`. -/
def recordEvent (env : Env) (tenant : ℕ) (eventType : RevenueEventType) (amount : Numeric)
    (currency : String) (source : Source) (ledgerEntry : Option LedgerEntry := none)
    (metadata : List (String × String) := []) : Tx Unit := do
  storeCorrelationId env.correlationId
  onBooks (·.record
    { tenant, eventType, amount, currency, source, ledgerEntry, metadata
      correlationId := env.correlationId
      createdAt := env.now })

/-- `record_control_number_created`. -/
def recordControlNumberCreated (env : Env) (cn : ControlNumber) : Tx Unit := do
  let tenant ← getTenant cn.tenant
  let ledgerEntry ← postEntry env cn.tenant .platformControlNumberFee .platform
    controlNumberCreationFee tenant.defaultCurrency cn.value (some (.controlNumber cn.id))
  recordEvent env cn.tenant .controlNumberCreated controlNumberCreationFee
    tenant.defaultCurrency (.controlNumber cn.id) (some ledgerEntry)

/-- `record_control_number_reused`. -/
def recordControlNumberReused (env : Env) (cn : ControlNumber) : Tx Unit := do
  let tenant ← getTenant cn.tenant
  recordEvent env cn.tenant .controlNumberReused .zero tenant.defaultCurrency
    (.controlNumber cn.id)

/-- `record_payment_successful`. -/
def recordPaymentSuccessful (env : Env) (payment : Payment) : Tx Unit := do
  let ledgerEntry ← postEntry env payment.tenant .platformPaymentFee .platform
    paymentSuccessFee payment.currency payment.merchantReference (some (.payment payment.id))
  recordEvent env payment.tenant .paymentSuccessful paymentSuccessFee payment.currency
    (.payment payment.id) (some ledgerEntry)

/-- `record_payment_failed` and `record_payment_duplicate`: no fee, ever. -/
def recordZeroEvent (env : Env) (payment : Payment) (eventType : RevenueEventType) : Tx Unit :=
  recordEvent env payment.tenant eventType .zero payment.currency (.payment payment.id)

def recordPaymentFailed (env : Env) (payment : Payment) : Tx Unit :=
  recordZeroEvent env payment .paymentFailed

def recordPaymentDuplicate (env : Env) (payment : Payment) : Tx Unit :=
  recordZeroEvent env payment .paymentDuplicate

/-- The first row of `ordering = ["-created_at"]`. -/
def newestEvent : List RevenueEvent → Option RevenueEvent
  | [] => none
  | e :: rest =>
      match newestEvent rest with
      | none => some e
      | some later => if e.createdAt < later.createdAt then some later else some e

/-- The `PAYMENT_SUCCESSFUL` event that a compensation refers to. -/
def originalEvent (tenant payment : ℕ) (books : Books) : Option RevenueEvent :=
  newestEvent <| books.revenue.filter fun e =>
    e.tenant = tenant && e.eventType = .paymentSuccessful && e.source = .payment payment

/-- The amount a compensation books: the negated fee under `CLAWBACK`, otherwise
nothing. -/
def clawback? (policy : FeeRefundPolicy) (original : Option RevenueEvent) :
    Option RevenueEvent :=
  match original with
  | some e => if policy = .clawback ∧ 0 < e.amount.cents then some e else none
  | none => none

/-- The ledger side of a clawback; a fee without a ledger entry has none. -/
def compensateEntry (env : Env) (fee : RevenueEvent) (eventType : RevenueEventType)
    (ledgerEntryType : LedgerEntryType) : Tx (Option LedgerEntry) :=
  match fee.ledgerEntry with
  | none => pure none
  | some original => do
      let entry ← postCompensatingEntry env original ledgerEntryType fee.amount.neg
        [("reason", eventType.value)]
      pure (some entry)

/-- The metadata of a compensation event. -/
def compensationMetadata (policy : FeeRefundPolicy) (original : Option RevenueEvent) :
    List (String × String) :=
  [("policy", policy.value),
   ("original_fee", (original.map fun e => e.amount.cents.str).getD "0")]

/-- `apps.revenue.services._compensate`. -/
def compensate (env : Env) (payment : Payment) (eventType : RevenueEventType)
    (ledgerEntryType : LedgerEntryType) : Tx Unit := do
  let original ← Txn.fetch (.revenueOf (.payment payment.id)) fun db =>
    originalEvent payment.tenant payment.id db.toBooks
  let tenant ← getTenant payment.tenant
  let metadata := compensationMetadata tenant.feeRefundPolicy original
  match clawback? tenant.feeRefundPolicy original with
  | none =>
      recordEvent env payment.tenant eventType .zero payment.currency (.payment payment.id)
        none metadata
  | some fee => do
      let ledgerEntry ← compensateEntry env fee eventType ledgerEntryType
      recordEvent env payment.tenant eventType fee.amount.neg payment.currency
        (.payment payment.id) ledgerEntry metadata

/-- `record_payment_reversed`. -/
def recordPaymentReversed (env : Env) (payment : Payment) : Tx Unit :=
  compensate env payment .paymentReversed .reversal

/-- `record_payment_refunded`. -/
def recordPaymentRefunded (env : Env) (payment : Payment) : Tx Unit :=
  compensate env payment .paymentRefunded .refund

end Kusanya
