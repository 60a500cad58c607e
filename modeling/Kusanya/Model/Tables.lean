import Kusanya.Model.RequestContext
import Kusanya.Model.Vocabulary
import Kusanya.ReadCommitted.Logic
import Kusanya.Support.FormatMap

/-!
# Tables, requests' environment and the shape of a handler

The rows of the domain models with the columns that the modelled code reads or
writes, the database as a record of tables, and what a request brings with it:
the clock, generated identifiers, the provider adapters and the interpreter.

Rows are never deleted by this code, so a table is a list in order of insertion.
A uuid primary key is a number.  The database is split in three records so that
a frame fact about a helper is one equation: `Directory` holds what requests
only look up, `Books` the money tables, `Trail` everything written on the side.
-/

namespace Kusanya

open ReadCommitted Support

/-! ## Directory -/

structure Tenant where
  id : ℕ
  name : String
  defaultCurrency : String
  feeRefundPolicy : FeeRefundPolicy
  deriving DecidableEq

structure Customer where
  id : ℕ
  tenant : ℕ
  fullName : String
  email : String
  phoneNumber : String
  deriving DecidableEq

structure CustomerAccount where
  id : ℕ
  tenant : ℕ
  customer : ℕ
  name : String
  deriving DecidableEq

structure PaymentProvider where
  id : ℕ
  code : String
  name : String
  isSandbox : Bool
  deriving DecidableEq

/-- `PaymentProvider.__str__`. -/
def PaymentProvider.label (p : PaymentProvider) : String :=
  p.name ++ (if p.isSandbox then " (SANDBOX)" else "")

structure WebhookEndpoint where
  id : ℕ
  tenant : ℕ
  isActive : Bool
  subscribedEvents : List String
  deriving DecidableEq

/-- `WebhookEndpoint.is_subscribed_to`: an empty list subscribes to everything. -/
def WebhookEndpoint.isSubscribedTo (endpoint : WebhookEndpoint) (eventType : String) : Bool :=
  endpoint.subscribedEvents.isEmpty || endpoint.subscribedEvents.contains eventType

structure NotificationTemplate where
  tenant : ℕ
  eventType : NotificationEventType
  channel : NotificationChannel
  subject : String
  body : String
  isActive : Bool
  deriving DecidableEq

structure Directory where
  tenants : List Tenant
  customers : List Customer
  accounts : List CustomerAccount
  providers : List PaymentProvider
  endpoints : List WebhookEndpoint
  templates : List NotificationTemplate

/-! ## Books -/

/-- A generic foreign key: content type and object id. -/
inductive Source where
  | bill (id : ℕ)
  | controlNumber (id : ℕ)
  | payment (id : ℕ)
  | callbackEvent (id : ℕ)
  | settlementBatch (id : ℕ)
  deriving DecidableEq

structure Bill where
  id : ℕ
  tenant : ℕ
  customerAccount : ℕ
  billNumber : String
  status : BillStatus
  currency : String
  totalAmount : Numeric
  issuedAt : Option Time
  cancelledAt : Option Time
  externalReference : String
  deriving DecidableEq

/-- `quantity` is in hundredths, as its column stores it. -/
structure BillItem where
  tenant : ℕ
  bill : ℕ
  description : String
  quantity : ℤ
  unitAmount : Numeric
  lineTotal : Numeric
  deriving DecidableEq

/-- The constraint `control_number_exactly_one_owner`, as a type. -/
inductive Owner where
  | bill (id : ℕ)
  | customerAccount (id : ℕ)
  deriving DecidableEq

structure ControlNumber where
  id : ℕ
  tenant : ℕ
  value : String
  scope : ControlNumberScope
  status : ControlNumberStatus
  owner : Owner
  expiresAt : Option Time
  cancelledAt : Option Time
  createdBy : Option ℕ
  deriving DecidableEq

/-- The id in the `bill` column, which is null for an account's number. -/
def ControlNumber.bill? (cn : ControlNumber) : Option ℕ :=
  match cn.owner with
  | .bill id => some id
  | .customerAccount _ => none

structure Payment where
  id : ℕ
  tenant : ℕ
  controlNumber : ℕ
  provider : ℕ
  channel : Option String
  status : PaymentStatus
  amount : Amount
  currency : String
  payerReference : String
  merchantReference : String
  providerReference : String
  idempotencyKey : String
  initiatedAt : Time
  completedAt : Option Time
  failureReason : String
  rawProviderResponse : String
  settlementBatch : Option ℕ
  deriving DecidableEq

structure PaymentAllocation where
  tenant : ℕ
  payment : ℕ
  bill : ℕ
  amount : Numeric
  deriving DecidableEq

structure PaymentCallbackEvent where
  id : ℕ
  provider : ℕ
  externalEventId : String
  payment : Option ℕ
  outcome : CallbackOutcome
  rawPayload : String
  deriving DecidableEq

/-- The columns of a ledger row other than `related_entry`. -/
structure Posting where
  tenant : ℕ
  entryType : LedgerEntryType
  account : LedgerAccount
  amount : Numeric
  currency : String
  reference : String
  correlationId : Text
  source : Option Source
  metadata : List (String × String)
  deriving DecidableEq

/-- A ledger row.  `LedgerEntry.save` refuses updates, so a foreign key to a row
is kept by value: `relatedEntry` is the row that a compensating entry corrects. -/
structure LedgerEntry extends Posting where
  relatedEntry : Option Posting
  deriving DecidableEq

structure RevenueEvent where
  tenant : ℕ
  eventType : RevenueEventType
  amount : Numeric
  currency : String
  source : Source
  ledgerEntry : Option LedgerEntry
  correlationId : Text
  metadata : List (String × String)
  createdAt : Time
  deriving DecidableEq

structure Receipt where
  tenant : ℕ
  payment : ℕ
  receiptNumber : String
  issuedAt : Time
  institutionName : String
  customerName : String
  billNumber : String
  controlNumber : String
  paymentReference : String
  amount : Numeric
  currency : String
  paymentChannelLabel : String
  remainingBalanceAtIssue : Option Numeric
  deriving DecidableEq

structure SettlementBatch where
  id : ℕ
  tenant : ℕ
  provider : ℕ
  reference : String
  periodStart : Time
  periodEnd : Time
  grossAmount : Numeric
  platformFeeTotal : Numeric
  providerFeeTotal : Numeric
  netAmount : Numeric
  currency : String
  status : SettlementStatus
  settlementDate : Option Time
  externalSettlementReference : String
  deriving DecidableEq

structure Books where
  bills : List Bill
  billItems : List BillItem
  controlNumbers : List ControlNumber
  payments : List Payment
  allocations : List PaymentAllocation
  callbackEvents : List PaymentCallbackEvent
  ledger : List LedgerEntry
  revenue : List RevenueEvent
  receipts : List Receipt
  batches : List SettlementBatch

/-! ## Trail -/

structure AuditLog where
  action : String
  actor : Option ℕ
  tenant : Option ℕ
  target : Option Source
  after : List (String × String)
  metadata : List (String × String)
  ipAddress : Option Text
  userAgent : Text
  correlationId : Text
  createdAt : Time
  deriving DecidableEq

structure Notification where
  tenant : ℕ
  eventType : NotificationEventType
  channel : NotificationChannel
  recipient : String
  subject : String
  body : String
  correlationId : Text
  deriving DecidableEq

/-- `none` in a payload is the JSON `null`. -/
structure WebhookDelivery where
  tenant : ℕ
  endpoint : ℕ
  eventType : String
  payload : List (String × Option String)
  correlationId : Text
  deriving DecidableEq

/-- A callback registered with `transaction.on_commit`. -/
inductive Task where
  | deliverNotification (row : Notification)
  | deliverWebhook (row : WebhookDelivery)
  deriving DecidableEq

structure ReconciliationRun where
  id : ℕ
  tenant : ℕ
  triggeredBy : Option ℕ
  status : ReconciliationRunStatus
  completedAt : Option Time
  totalChecked : ℕ
  matchedCount : ℕ
  exceptionCount : ℕ
  resolvedUnknownCount : ℕ
  deriving DecidableEq

structure ReconciliationException where
  tenant : ℕ
  run : ℕ
  payment : ℕ
  exceptionType : ExceptionType
  details : List (String × String)
  deriving DecidableEq

structure Trail where
  auditLog : List AuditLog
  notifications : List Notification
  deliveries : List WebhookDelivery
  onCommit : List Task
  runs : List ReconciliationRun
  exceptions : List ReconciliationException

/-- The database. -/
structure DB extends Directory, Books, Trail

/-! ## Providers -/

/-- `apps.providers.base.ProviderResult`.  `rawResponse` is the text of the `dict`, `none` where
`json.dumps` or a `jsonb` column refuses it. -/
structure ProviderResult where
  outcome : ProviderOutcome
  providerReference : String
  rawResponse : Option String

/-- `apps.providers.base.ProviderCallbackResult`. -/
structure ProviderCallbackResult where
  externalEventId : String
  providerReference : String
  outcome : ProviderOutcome
  rawResponse : Option String

/-- How an adapter call can end other than by returning.  The first three are
`ProviderError` and two of its subclasses; `other` is any other exception. -/
inductive AdapterError where
  | providerError (message : String)
  | timeout (message : String)
  | invalidSignature (message : String)
  | other
  deriving DecidableEq

/-- The keyword arguments of `adapter.initiate_payment`. -/
structure InitiateCall where
  amount : Amount
  currency : String
  controlNumber : String
  payerReference : String
  merchantReference : String
  metadata : List (String × String)
  deriving DecidableEq

/-- An inbound request of a provider, before anything in it is trusted. -/
structure InboundCallback where
  rawPayload : List UInt8
  headers : List (String × String)

/-- A `PaymentProviderAdapter`: what the provider answers during one request. -/
structure Adapter where
  initiatePayment : InitiateCall → Except AdapterError ProviderResult
  queryPayment : String → Except AdapterError ProviderResult
  processCallback : InboundCallback → Except AdapterError ProviderCallbackResult
  refund : String → Amount → Except AdapterError ProviderResult
  reverse : String → Except AdapterError ProviderResult
  reconcile : String → Except AdapterError ProviderResult

/-- The calls that reach a provider. -/
inductive Call where
  | initiatePayment (args : InitiateCall)
  | queryPayment (merchantReference : String)
  | refund (providerReference : String) (amount : Amount)
  | reverse (providerReference : String)
  | reconcile (providerReference : String)
  deriving DecidableEq

/-! ## Handlers -/

/-- The identifiers a request draws; `billNumber k` and the like are the draws
of its `k`-th attempt, `receiptNumber p` the draw for a receipt of payment `p`, and
`callbackEventId k` that for the `k`-th callback event. -/
structure Generated where
  paymentId : ℕ
  merchantReference : String
  callbackEventId : ℕ → ℕ
  billId : ℕ → ℕ
  billNumber : ℕ → String
  controlNumberId : ℕ → ℕ
  controlNumberValue : ℕ → String
  receiptNumber : ℕ → String
  runId : ℕ
  batchId : ℕ
  batchReference : String

/-- What a request brings along.  `registry` is `_ADAPTER_CLASSES`, by provider code;
`isAddress` says what an `inet` column takes. -/
structure Env extends RequestContext where
  now : Time
  actor : Option ℕ
  isAddress : Text → Bool
  gen : Generated
  registry : String → Option Adapter
  interpreter : Interpreter

/-- `template.format_map(mapping)`, for a mapping that answers every key. -/
def Env.formatMap (env : Env) (template : String) (mapping : String → String) : Option String :=
  (Support.formatMap env.interpreter (fun name => (mapping (String.ofList name)).toList)
    template.toList).map String.ofList

/-- The address of the client can be stored. -/
abbrev Env.HasAddress (env : Env) : Prop := env.toRequestContext.HasAddress env.isAddress

/-- The columns of an audit row take what the request brings along. -/
abbrev Env.Auditable (env : Env) : Prop := env.toRequestContext.Auditable env.isAddress

/-- The exceptions the modelled code raises. -/
inductive Error where
  | validationError (message : String)
  | valueError
  | keyError
  | formatError
  | integrityError
  | dataError
  | transactionAborted
  | doesNotExist
  | http404
  | adapter (e : AdapterError)
  deriving DecidableEq

/-- What the insert of an audit row raises where its columns do not take the context. -/
def Env.auditError (env : Env) : Error :=
  env.toRequestContext.refusal env.isAddress .valueError .dataError

def Error.isIntegrityError : Error → Bool
  | integrityError => true
  | _ => false

def Error.isValidationError : Error → Bool
  | validationError _ => true
  | _ => false

@[simp] theorem auditError_isIntegrityError (env : Env) :
    env.auditError.isIntegrityError = false := by
  rw [Env.auditError, RequestContext.refusal]
  split <;> rfl

@[simp] theorem auditError_isValidationError (env : Env) :
    env.auditError.isValidationError = false := by
  rw [Env.auditError, RequestContext.refusal]
  split <;> rfl

/-- What `render_template` is asked to render. -/
structure Message where
  tenant : ℕ
  eventType : NotificationEventType
  channel : NotificationChannel
  context : List (String × String)
  deriving DecidableEq

/-- Rows, sets of rows and unique keys: what a statement reads or locks. -/
inductive Resource where
  | tenant (id : ℕ)
  | provider (id : ℕ)
  | providerCode (code : String)
  | customer (id : ℕ)
  | account (id : ℕ)
  | template (message : Message)
  | endpointsOf (tenant : ℕ)
  | bill (id : ℕ)
  | itemsOf (bill : ℕ)
  | allocationsOf (bill : ℕ)
  | billKey (tenant : ℕ) (billNumber : String)
  | billReference (tenant : ℕ) (reference : String)
  | controlNumber (id : ℕ)
  | controlNumbers
  | controlNumberOf (owner : Owner)
  | controlNumberValue (value : String)
  | payment (id : ℕ)
  | paymentsOf (tenant : ℕ)
  | merchantReference (reference : String)
  | providerReference (reference : String)
  | idempotencyKey (tenant : ℕ) (key : String)
  | callbackEvent (id : ℕ)
  | callbackKey (provider : ℕ) (eventId : String)
  | receiptOf (payment : ℕ)
  | receiptNumber (tenant : ℕ) (number : String)
  | revenueOf (source : Source)
  | batch (id : ℕ)
  | batchReference (tenant : ℕ) (reference : String)
  deriving DecidableEq

/-- The message that a query for a template is about. -/
def Resource.message? : Resource → Option Message
  | template message => some message
  | _ => none

/-- A piece of a request handler. -/
abbrev Tx := Txn DB Resource Error Call

/-! ## Statements used everywhere -/

/-- `Model.objects.get(…)`, or following a foreign key. -/
def getRow {α : Type} (what : Resource) (q : DB → Option α) : Tx α := do
  match ← Txn.fetch what q with
  | some row => pure row
  | none => .throw .doesNotExist

/-- `get_object_or_404`. -/
def getOr404 {α : Type} (what : Resource) (q : DB → Option α) : Tx α := do
  match ← Txn.fetch what q with
  | some row => pure row
  | none => .throw .http404

/-- A `varchar(n)` column takes the text. -/
def Varchar (n : ℕ) (text : String) : Prop := Text.Fits n text.toList

instance (n : ℕ) (text : String) : Decidable (Varchar n text) :=
  inferInstanceAs (Decidable (Text.Fits n text.toList))

/-- A statement that stores text in a `varchar(n)` column. -/
def checkVarchar (n : ℕ) (text : String) : Tx Unit :=
  if Varchar n text then pure () else .throw .dataError

/-- A statement with a text among its parameters, which must not contain a NUL. -/
def checkParameter (text : String) : Tx Unit :=
  if '\x00' ∈ text.toList then .throw .dataError else pure ()

/-- A statement that stores a `dict` in a `jsonb` column. -/
def storeJson (json : Option String) : Tx String :=
  match json with
  | some text => pure text
  | none => .throw .dataError

/-- A statement that stores a computed amount in a money column. -/
def storeNumeric (m : Money) : Tx Numeric :=
  match Numeric.ofMoney? m with
  | some n => pure n
  | none => .throw .dataError

/-- Wait for a unique key whose constraint leaves blank values out. -/
def acquireUnlessBlank (text : String) (key : Resource) : Tx Unit :=
  if text = "" then pure () else Txn.acquire key

/-- A conditional exception. -/
def raiseIf (c : Prop) [Decidable c] (e : Error) : Tx Unit :=
  if c then .throw e else pure ()

/-- A statement that stores a correlation id. -/
def storeCorrelationId (correlationId : Text) : Tx Unit :=
  raiseIf (¬Text.Fits 64 correlationId) .dataError

def getTenant (id : ℕ) : Tx Tenant :=
  getRow (.tenant id) fun db => db.tenants.find? (·.id = id)

def getProvider (id : ℕ) : Tx PaymentProvider :=
  getRow (.provider id) fun db => db.providers.find? (·.id = id)

def getCustomer (id : ℕ) : Tx Customer :=
  getRow (.customer id) fun db => db.customers.find? (·.id = id)

def getAccount (id : ℕ) : Tx CustomerAccount :=
  getRow (.account id) fun db => db.accounts.find? (·.id = id)

def getControlNumber (id : ℕ) : Tx ControlNumber :=
  getRow (.controlNumber id) fun db => db.controlNumbers.find? (·.id = id)

def getBill (id : ℕ) : Tx Bill :=
  getRow (.bill id) fun db => db.bills.find? (·.id = id)

end Kusanya
