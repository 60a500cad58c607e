import Kusanya.Model.Payments

/-!
# Reconciliation and settlement

`apps.reconciliation.services` and `apps.settlement.services`.
-/

namespace Kusanya

open ReadCommitted

/-! ## Reconciliation -/

def Trail.addRun (trail : Trail) (run : ReconciliationRun) : Trail :=
  { trail with runs := trail.runs ++ [run] }

/-- `run.save(…)`: the counters and the status of the object overwrite the row. -/
def Trail.saveRun (trail : Trail) (run : ReconciliationRun) : Trail :=
  { trail with runs := trail.runs.map fun row => if row.id = run.id then run else row }

def Trail.addException (trail : Trail) (row : ReconciliationException) : Trail :=
  { trail with exceptions := trail.exceptions ++ [row] }

/-- `ReconciliationException.objects.create`, and the count of it. -/
def openException (run : ReconciliationRun) (payment : Payment) (exceptionType : ExceptionType)
    (details : List (String × String)) : Tx ReconciliationRun := do
  onTrail (·.addException
    { exceptionType, details
      tenant := run.tenant
      run := run.id
      payment := payment.id })
  pure { run with exceptionCount := run.exceptionCount + 1 }

/-- The loop of `_resolve_unknown_payments`. -/
def resolveUnknown (env : Env) (run : ReconciliationRun) : List Payment → Tx ReconciliationRun
  | [] => pure run
  | payment :: rest => do
      let payment ← queryPayment env payment
      let run := { run with totalChecked := run.totalChecked + 1 }
      if payment.status ≠ .unknown then
        resolveUnknown env { run with resolvedUnknownCount := run.resolvedUnknownCount + 1 } rest
      else do
        let run ← openException run payment .stuckUnknown
          [("note", "Still UNKNOWN after querying the provider.")]
        resolveUnknown env run rest

/-- `_resolve_unknown_payments`; the queryset is evaluated before its loop. -/
def resolveUnknownPayments (env : Env) (run : ReconciliationRun) : Tx ReconciliationRun := do
  let unknown ← Txn.fetch (.paymentsOf run.tenant) fun db =>
    newestFirst (db.payments.filter fun p => p.tenant = run.tenant && p.status = .unknown)
  let run ← resolveUnknown env run unknown
  onTrail (·.saveRun run)
  pure run

/-- One turn of the loop of `_check_settled_payments`, given the provider's view. -/
def compareWithProvider (run : ReconciliationRun) (payment : Payment)
    (outcome : ProviderOutcome) : Tx ReconciliationRun :=
  if outcome = .unknown then
    openException run payment .missingAtProvider [("internal_status", payment.status.value)]
  else if outcome.toStatus? ≠ some payment.status then
    openException run payment .statusMismatch
      [("internal_status", payment.status.value), ("provider_outcome", outcome.value)]
  else
    pure { run with matchedCount := run.matchedCount + 1 }

/-- The loop of `_check_settled_payments`. -/
def checkSettled (env : Env) (run : ReconciliationRun) : List Payment → Tx ReconciliationRun
  | [] => pure run
  | payment :: rest => do
      let adapter ← adapterOf env payment
      let result ← askProvider (.reconcile payment.providerReference)
        (adapter.reconcile payment.providerReference)
      let run ← compareWithProvider { run with totalChecked := run.totalChecked + 1 } payment
        result.outcome
      checkSettled env run rest

/-- `_check_settled_payments`. -/
def checkSettledPayments (env : Env) (run : ReconciliationRun) : Tx ReconciliationRun := do
  let settled ← Txn.fetch (.paymentsOf run.tenant) fun db =>
    newestFirst (db.payments.filter fun p =>
      p.tenant = run.tenant && (p.status = .successful || p.status = .failed) &&
        p.providerReference != "")
  let run ← checkSettled env run settled
  onTrail (·.saveRun run)
  pure run

/-- `apps.reconciliation.services.run_reconciliation`. -/
def runReconciliation (env : Env) (tenant : ℕ) : Tx ReconciliationRun := do
  let run : ReconciliationRun :=
    { id := env.gen.runId
      tenant
      triggeredBy := env.actor
      status := .running
      completedAt := none
      totalChecked := 0
      matchedCount := 0
      exceptionCount := 0
      resolvedUnknownCount := 0 }
  onTrail (·.addRun run)
  let run ← resolveUnknownPayments env run
  let run ← checkSettledPayments env run
  let run := { run with status := .completed, completedAt := some env.now }
  onTrail (·.saveRun run)
  pure run

/-! ## Settlement -/

def Books.addBatch (books : Books) (batch : SettlementBatch) : Books :=
  { books with batches := books.batches ++ [batch] }

def Books.updateBatch (books : Books) (id : ℕ) (f : SettlementBatch → SettlementBatch) : Books :=
  { books with batches := books.batches.map fun row => if row.id = id then f row else row }

/-- The filter of `generate_settlement_batch`. -/
def Payment.unsettled (tenant provider : ℕ) (periodStart periodEnd : Time) (p : Payment) : Bool :=
  p.tenant = tenant && p.provider = provider && p.status = .successful &&
    p.settlementBatch = none &&
    p.completedAt.any fun t => periodStart ≤ t && t < periodEnd

/-- `select_for_update`: lock each row the filter found, and look at it again once
the lock is held. -/
def selectForUpdate (keep : Payment → Bool) : List Payment → Tx (List Payment)
  | [] => pure []
  | payment :: rest => do
      Txn.acquire (.payment payment.id)
      let row ← Txn.fetch (.payment payment.id) fun db => db.toBooks.payment? payment.id
      let locked ← selectForUpdate keep rest
      pure ((row.filter keep).toList ++ locked)

/-- The fees of the payments in a batch. -/
def Books.platformFees (books : Books) (tenant : ℕ) (payments : List Payment) : Money :=
  ((books.revenue.filter fun e =>
    e.tenant = tenant && e.eventType = .paymentSuccessful &&
      payments.any fun p => e.source = .payment p.id).map (·.amount.cents)).sum

/-- `SettlementBatch.objects.create`. -/
def insertBatch (batch : SettlementBatch) : Tx Unit := do
  Txn.acquire (.batch batch.id)
  Txn.acquire (.batchReference batch.tenant batch.reference)
  let clash ← Txn.fetch (.batch batch.id) fun db =>
    db.batches.any fun row =>
      row.id = batch.id || (row.tenant = batch.tenant && row.reference = batch.reference)
  raiseIf clash .integrityError
  onBooks (·.addBatch batch)

/-- `str` of an amount that was summed over the payments from `Decimal("0")` on. -/
def sumText (payments : List Payment) (amount : Money) : String :=
  if payments.isEmpty then "0" else amount.str

/-- `apps.settlement.services.generate_settlement_batch`. -/
def generateSettlementBatch (env : Env) (tenant provider : ℕ) (periodStart periodEnd : Time) :
    Tx SettlementBatch := do
  let keep := Payment.unsettled tenant provider periodStart periodEnd
  let found ← Txn.fetch (.paymentsOf tenant) fun db => db.payments.filter keep
  let payments ← selectForUpdate keep found
  let fees ← Txn.fetch (.paymentsOf tenant) fun db => db.toBooks.platformFees tenant payments
  let row ← getTenant tenant
  let gross := (payments.map (·.amount.cents)).sum
  let grossAmount ← storeNumeric gross
  let platformFeeTotal ← storeNumeric fees
  let netAmount ← storeNumeric (gross - fees)
  let batch : SettlementBatch :=
    { id := env.gen.batchId
      tenant, provider, periodStart, periodEnd, grossAmount, platformFeeTotal, netAmount
      reference := env.gen.batchReference
      providerFeeTotal := .zero
      currency := row.defaultCurrency
      status := .pending
      settlementDate := none
      externalSettlementReference := "" }
  insertBatch batch
  onBooks fun books =>
    { books with
      payments := books.payments.map fun p =>
        if payments.any (·.id = p.id) then { p with settlementBatch := some batch.id } else p }
  recordAuditEvent env "settlement.batch_created" (some tenant) (some (.settlementBatch batch.id))
    [("gross_amount", sumText payments gross), ("net_amount", sumText payments (gross - fees)),
     ("payment_count", toString payments.length)]
  pure batch

/-- `apps.settlement.services.mark_settlement_completed`. -/
def markSettlementCompleted (env : Env) (batch : SettlementBatch)
    (externalSettlementReference : String) : Tx Unit := do
  checkVarchar 150 externalSettlementReference
  onBooks (·.updateBatch batch.id fun row =>
    { row with
      status := .completed
      settlementDate := some env.now
      externalSettlementReference := externalSettlementReference })
  recordAuditEvent env "settlement.completed" (some batch.tenant) (some (.settlementBatch batch.id))
  dispatchEvent env batch.tenant "settlement.completed"
    [("settlement_batch_id", some (toString batch.id)),
     ("reference", some batch.reference),
     ("net_amount", some batch.netAmount.cents.str),
     ("currency", some batch.currency),
     ("external_settlement_reference", some externalSettlementReference)]

end Kusanya
