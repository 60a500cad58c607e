import Mathlib.Algebra.BigOperators.Group.List.Basic
import Mathlib.Algebra.Order.Ring.Int

/-!
# The vocabulary of the platform

Amounts, statuses and the transition tables of the domain models.  The
`TextChoices` classes of the source become inductive types; `value` gives the
text that the column stores.
-/

namespace Kusanya

/-- Microseconds, as `timezone.now()` reports them. -/
abbrev Time := ℕ

/-- A monetary value in hundredths of the currency unit. -/
abbrev Money := ℤ

/-! ## Money columns -/

/-- The value of a `DecimalField(max_digits=18, decimal_places=2)` column. -/
structure Numeric where
  cents : Money
  fits : cents.natAbs < 10 ^ 18
  deriving DecidableEq

namespace Numeric

/-- What PostgreSQL does when `m` is stored: refuse what the column cannot hold. -/
def ofMoney? (m : Money) : Option Numeric :=
  if h : m.natAbs < 10 ^ 18 then some ⟨m, h⟩ else none

def zero : Numeric := ⟨0, by decide⟩

def neg (n : Numeric) : Numeric := ⟨-n.cents, by simpa using n.fits⟩

@[simp] theorem zero_cents : zero.cents = 0 := rfl

@[simp] theorem neg_cents (n : Numeric) : n.neg.cents = -n.cents := rfl

theorem ofMoney?_cents {m : Money} {n : Numeric} (h : ofMoney? m = some n) :
    n.cents = m := by
  unfold ofMoney? at h
  split at h
  · obtain rfl := Option.some.inj h
    rfl
  · cases h

@[ext] theorem ext {a b : Numeric} (h : a.cents = b.cents) : a = b := by
  cases a
  cases b
  simpa using h

end Numeric

/-- An amount that `PayBillForm` or `PaymentInitiateSerializer` accepts: at most
eighteen digits, two of them decimal, and at least `0.01`. -/
structure Amount extends Numeric where
  pos : 0 < cents
  deriving DecidableEq

/-! ## Payments -/

inductive PaymentStatus where
  | initiated | pending | successful | failed | unknown | expired | reversed | refunded
  deriving DecidableEq, Repr

namespace PaymentStatus

def value : PaymentStatus → String
  | initiated => "initiated"
  | pending => "pending"
  | successful => "successful"
  | failed => "failed"
  | unknown => "unknown"
  | expired => "expired"
  | reversed => "reversed"
  | refunded => "refunded"

/-- `apps.payments.models.ALLOWED_TRANSITIONS`. -/
def allowedTransitions : PaymentStatus → List PaymentStatus
  | initiated => [pending, successful, failed, unknown]
  | pending => [successful, failed, unknown, expired]
  | unknown => [successful, failed]
  | successful => [reversed, refunded]
  | failed => []
  | expired => []
  | reversed => []
  | refunded => []

/-- The statuses on which `transition_to` stamps `completed_at`. -/
def completes (s : PaymentStatus) : Bool :=
  s ∈ [successful, failed, reversed, refunded]

end PaymentStatus

/-! ## Bills -/

inductive BillStatus where
  | draft | active | partiallyPaid | paid | expired | cancelled | disputed
  deriving DecidableEq, Repr

namespace BillStatus

def value : BillStatus → String
  | draft => "draft"
  | active => "active"
  | partiallyPaid => "partially_paid"
  | paid => "paid"
  | expired => "expired"
  | cancelled => "cancelled"
  | disputed => "disputed"

/-- `apps.billing.models.ALLOWED_TRANSITIONS`. -/
def allowedTransitions : BillStatus → List BillStatus
  | draft => [active, cancelled]
  | active => [partiallyPaid, paid, expired, cancelled, disputed]
  | partiallyPaid => [paid, disputed, cancelled]
  | paid => [disputed]
  | expired => []
  | cancelled => []
  | disputed => [active, partiallyPaid, paid]

end BillStatus

/-! ## Control numbers -/

inductive ControlNumberScope where
  | oneTime | persistent
  deriving DecidableEq, Repr

inductive ControlNumberStatus where
  | active | expired | cancelled
  deriving DecidableEq, Repr

/-! ## Providers -/

/-- `apps.providers.base.ProviderOutcome`. -/
inductive ProviderOutcome where
  | pending | successful | failed | unknown
  deriving DecidableEq, Repr

namespace ProviderOutcome

def value : ProviderOutcome → String
  | pending => "pending"
  | successful => "successful"
  | failed => "failed"
  | unknown => "unknown"

/-- `apps.payments.services.OUTCOME_TO_STATUS`; `UNKNOWN` has no entry. -/
def toStatus? : ProviderOutcome → Option PaymentStatus
  | successful => some .successful
  | failed => some .failed
  | pending => some .pending
  | unknown => none

end ProviderOutcome

/-- `PaymentCallbackEvent.Outcome`. -/
inductive CallbackOutcome where
  | processed | duplicate | unmatched | invalidSignature
  deriving DecidableEq, Repr

/-! ## Ledger and revenue -/

inductive LedgerEntryType where
  | billAmount | paymentReceived | institutionEntitlement | platformControlNumberFee
  | platformPaymentFee | providerFee | refund | reversal | settlement | adjustment
  deriving DecidableEq, Repr

inductive LedgerAccount where
  | customer | institution | platform | provider | suspense
  deriving DecidableEq, Repr

inductive RevenueEventType where
  | controlNumberCreated | controlNumberReused | paymentSuccessful | paymentFailed
  | paymentDuplicate | paymentReversed | paymentRefunded
  deriving DecidableEq, Repr

def RevenueEventType.value : RevenueEventType → String
  | controlNumberCreated => "control_number_created"
  | controlNumberReused => "control_number_reused"
  | paymentSuccessful => "payment_successful"
  | paymentFailed => "payment_failed"
  | paymentDuplicate => "payment_duplicate"
  | paymentReversed => "payment_reversed"
  | paymentRefunded => "payment_refunded"

/-- `Tenant.FeeRefundPolicy`. -/
inductive FeeRefundPolicy where
  | clawback | retain
  deriving DecidableEq, Repr

def FeeRefundPolicy.value : FeeRefundPolicy → String
  | clawback => "clawback"
  | retain => "retain"

/-! ## Notifications -/

/-- The channels that `send_notification` implements. -/
inductive NotificationChannel where
  | email | sms
  deriving DecidableEq, Repr

inductive NotificationEventType where
  | billCreated | controlNumberGenerated | paymentPending | paymentSuccessful | paymentFailed
  | paymentPartial | billFullyPaid | balanceReminder | paymentReversed | paymentRefunded
  deriving DecidableEq, Repr

/-! ## Reconciliation and settlement -/

inductive ReconciliationRunStatus where
  | running | completed
  deriving DecidableEq, Repr

inductive ExceptionType where
  | stuckUnknown | statusMismatch | missingAtProvider
  deriving DecidableEq, Repr

inductive SettlementStatus where
  | pending | completed | exception
  deriving DecidableEq, Repr

/-! ## Rendering -/

/-- Two digits of a number below one hundred. -/
def twoDigits (n : ℕ) : String :=
  if n < 10 then "0" ++ toString n else toString n

/-- `str` of a decimal with two places. -/
def Money.str (m : Money) : String :=
  (if m < 0 then "-" else "") ++ toString (m.natAbs / 100) ++ "." ++ twoDigits (m.natAbs % 100)

end Kusanya
