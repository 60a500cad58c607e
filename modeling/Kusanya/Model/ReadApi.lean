import Kusanya.Model.Credentials
import Kusanya.Model.Tables
import Kusanya.Support.Json

/-!
# Reading through the external API

The `GET` handlers of `apps.api.views` with their serializers, and what stands before them:
authentication, the permission and the throttle.  Rows extend those of `Model.Tables` by the
columns that only the API reads.  Encrypted columns are taken as `from_db_value` gives them back.
-/

namespace Kusanya.Api

open Support

/-! ## Rows -/

structure TenantRow extends Tenant where
  sector : String
  status : TenantStatus
  createdAt : Time

structure CustomerRow extends Customer where
  externalReference : String
  isActive : Bool
  createdAt : Time

structure AccountRow extends CustomerAccount where
  externalReference : String
  isActive : Bool
  createdAt : Time

/-- `dueDate` counts days. -/
structure BillRow extends Bill where
  dueDate : Option ℕ
  createdAt : Time

structure BillItemRow extends BillItem where
  createdAt : Time

structure ControlNumberRow extends ControlNumber where
  createdAt : Time

structure RunRow extends ReconciliationRun where
  startedAt : Time

structure EndpointRow extends WebhookEndpoint where
  url : String
  description : String
  createdAt : Time

inductive NotificationStatus where
  | pending | sent | failed
  deriving DecidableEq

structure NotificationRow extends Notification where
  id : ℕ
  status : NotificationStatus
  sentAt : Option Time
  createdAt : Time

/-- The tables behind the API. -/
structure Tables where
  tenants : List TenantRow
  credentials : List ApiCredential
  customers : List CustomerRow
  accounts : List AccountRow
  bills : List BillRow
  items : List BillItemRow
  controlNumbers : List ControlNumberRow
  payments : List Payment
  allocations : List PaymentAllocation
  runs : List RunRow
  batches : List SettlementBatch
  endpoints : List EndpointRow
  notifications : List NotificationRow

/-- What authentication reads of them. -/
def Tables.access (db : Tables) : Access :=
  { tenants := db.tenants.map fun row => { id := row.id, status := row.status }
    credentials := db.credentials
    auditLog := [] }

/-! ## Values of columns -/

def TenantStatus.value : TenantStatus → String
  | pending => "pending"
  | active => "active"
  | suspended => "suspended"
  | rejected => "rejected"

def scopeValue : ControlNumberScope → String
  | .oneTime => "one_time"
  | .persistent => "persistent"

def controlNumberStatusValue : ControlNumberStatus → String
  | .active => "active"
  | .expired => "expired"
  | .cancelled => "cancelled"

def runStatusValue : ReconciliationRunStatus → String
  | .running => "running"
  | .completed => "completed"

def settlementStatusValue : SettlementStatus → String
  | .pending => "pending"
  | .completed => "completed"
  | .exception => "exception"

def NotificationStatus.value : NotificationStatus → String
  | pending => "pending"
  | sent => "sent"
  | failed => "failed"

def eventTypeValue : NotificationEventType → String
  | .billCreated => "bill_created"
  | .controlNumberGenerated => "control_number_generated"
  | .paymentPending => "payment_pending"
  | .paymentSuccessful => "payment_successful"
  | .paymentFailed => "payment_failed"
  | .paymentPartial => "payment_partial"
  | .billFullyPaid => "bill_fully_paid"
  | .balanceReminder => "balance_reminder"
  | .paymentReversed => "payment_reversed"
  | .paymentRefunded => "payment_refunded"

def channelValue : NotificationChannel → String
  | .email => "email"
  | .sms => "sms"

/-- How uuids, instants and dates are written, and what `uuid.UUID` and `int` make of a text. -/
structure Formats where
  uuid : ℕ → Text
  datetime : Time → Text
  date : ℕ → Text
  parseUuid : String → Option ℕ
  parseInt : String → Option ℤ

/-- How a view can end other than by returning. -/
inductive ViewError where
  | http404 (message : String)
  | notFound (detail : String)
  | unhandled
  deriving DecidableEq

/-! ## Serializers -/

section Serializers

variable (formats : Formats)

def text (s : String) : Json := .str s.toList

def field (name : String) (value : Json) : Text × Json := (name.toList, value)

def Formats.id (id : ℕ) : Json := .str (formats.uuid id)

def Formats.time (t : Time) : Json := .str (formats.datetime t)

def Formats.time? (t : Option Time) : Json := (t.map formats.time).getD .null

/-- A stored money column. -/
def money (n : Numeric) : Json := text n.cents.str

/-- `DecimalField(max_digits=18, decimal_places=2)` on a computed amount. -/
def decimalField (m : Money) : Except ViewError Json :=
  match Numeric.ofMoney? m with
  | some n => .ok (money n)
  | none => .error .unhandled

/-- `InstitutionSerializer`. -/
def institutionSerializer (row : TenantRow) : Json :=
  .obj
    [field "id" (formats.id row.id), field "name" (text row.name),
     field "sector" (text row.sector), field "status" (text row.status.value),
     field "default_currency" (text row.defaultCurrency),
     field "created_at" (formats.time row.createdAt)]

/-- `CustomerSerializer`. -/
def customerSerializer (row : CustomerRow) : Json :=
  .obj
    [field "id" (formats.id row.id), field "full_name" (text row.fullName),
     field "email" (text row.email), field "phone_number" (text row.phoneNumber),
     field "external_reference" (text row.externalReference),
     field "is_active" (.bool row.isActive), field "created_at" (formats.time row.createdAt)]

/-- `CustomerAccountSerializer`: the customer is shown by its key, and not loaded. -/
def customerAccountSerializer (row : AccountRow) : Json :=
  .obj
    [field "id" (formats.id row.id), field "customer" (formats.id row.customer),
     field "name" (text row.name), field "external_reference" (text row.externalReference),
     field "is_active" (.bool row.isActive), field "created_at" (formats.time row.createdAt)]

/-- `BillItemSerializer`. -/
def billItemSerializer (row : BillItemRow) : Json :=
  .obj
    [field "description" (text row.description), field "quantity" (text (Money.str row.quantity)),
     field "unit_amount" (money row.unitAmount), field "line_total" (money row.lineTotal)]

/-- `ControlNumberSerializer`. -/
def controlNumberSerializer (row : ControlNumberRow) : Json :=
  .obj
    [field "id" (formats.id row.id), field "value" (text row.value),
     field "scope" (text (scopeValue row.scope)),
     field "status" (text (controlNumberStatusValue row.status)),
     field "expires_at" (formats.time? row.expiresAt),
     field "created_at" (formats.time row.createdAt)]

/-- `bill.items.all()`, in the order of `BillItem.Meta`. -/
def Tables.itemsOf (db : Tables) (bill : ℕ) : List BillItemRow :=
  (db.items.filter (·.bill = bill)).mergeSort fun a b => a.createdAt ≤ b.createdAt

/-- `bill.control_number`, the other side of the one-to-one field. -/
def Tables.controlNumberOf (db : Tables) (bill : ℕ) : Option ControlNumberRow :=
  db.controlNumbers.find? fun cn => cn.bill? = some bill

/-- `Bill.amount_paid`. -/
def Tables.amountPaid (db : Tables) (bill : ℕ) : Money :=
  ((db.allocations.filter (·.bill = bill)).map (·.amount.cents)).sum

/-- `BillSerializer`. -/
def billSerializer (db : Tables) (row : BillRow) : Except ViewError Json := do
  let amountPaid ← decimalField (db.amountPaid row.id)
  let balance ← decimalField (row.totalAmount.cents - db.amountPaid row.id)
  pure <| .obj
    [field "id" (formats.id row.id), field "bill_number" (text row.billNumber),
     field "status" (text row.status.value), field "currency" (text row.currency),
     field "total_amount" (money row.totalAmount), field "amount_paid" amountPaid,
     field "balance" balance,
     field "due_date" ((row.dueDate.map fun d => JsonOf.str (formats.date d)).getD .null),
     field "external_reference" (text row.externalReference),
     field "items" (.arr ((db.itemsOf row.id).map billItemSerializer)),
     field "control_number"
       (((db.controlNumberOf row.id).map (controlNumberSerializer formats)).getD .null),
     field "created_at" (formats.time row.createdAt)]

/-- `payment.control_number`, with `.bill` behind it. -/
def Tables.controlNumber (db : Tables) (id : ℕ) : Option ControlNumberRow :=
  db.controlNumbers.find? (·.id = id)

def Tables.bill (db : Tables) (id : ℕ) : Option BillRow := db.bills.find? (·.id = id)

/-- `PaymentSerializer.get_bill_number`. -/
def getBillNumber (db : Tables) (cn : ControlNumberRow) : Except ViewError Json :=
  match cn.bill? with
  | none => .ok .null
  | some id =>
      match db.bill id with
      | some bill => .ok (text bill.billNumber)
      | none => .error .unhandled

/-- `PaymentSerializer`. -/
def paymentSerializer (db : Tables) (row : Payment) : Except ViewError Json := do
  let cn ← ((db.controlNumber row.controlNumber).map Except.ok).getD (.error .unhandled)
  let billNumber ← getBillNumber db cn
  pure <| .obj
    [field "id" (formats.id row.id), field "merchant_reference" (text row.merchantReference),
     field "provider_reference" (text row.providerReference),
     field "status" (text row.status.value), field "amount" (money row.amount.toNumeric),
     field "currency" (text row.currency), field "control_number" (text cn.value),
     field "bill_number" billNumber, field "payer_reference" (text row.payerReference),
     field "initiated_at" (formats.time row.initiatedAt),
     field "completed_at" (formats.time? row.completedAt),
     field "failure_reason" (text row.failureReason)]

/-- `ReconciliationRunSerializer`. -/
def reconciliationRunSerializer (row : RunRow) : Json :=
  .obj
    [field "id" (formats.id row.id), field "status" (text (runStatusValue row.status)),
     field "started_at" (formats.time row.startedAt),
     field "completed_at" (formats.time? row.completedAt),
     field "total_checked" (.int row.totalChecked),
     field "matched_count" (.int row.matchedCount),
     field "exception_count" (.int row.exceptionCount),
     field "resolved_unknown_count" (.int row.resolvedUnknownCount)]

/-- `SettlementBatchSerializer`. -/
def settlementBatchSerializer (row : SettlementBatch) : Json :=
  .obj
    [field "id" (formats.id row.id), field "reference" (text row.reference),
     field "period_start" (formats.time row.periodStart),
     field "period_end" (formats.time row.periodEnd),
     field "gross_amount" (money row.grossAmount),
     field "platform_fee_total" (money row.platformFeeTotal),
     field "provider_fee_total" (money row.providerFeeTotal),
     field "net_amount" (money row.netAmount), field "currency" (text row.currency),
     field "status" (text (settlementStatusValue row.status)),
     field "settlement_date" (formats.time? row.settlementDate),
     field "external_settlement_reference" (text row.externalSettlementReference)]

/-- `WebhookEndpointSerializer`. -/
def webhookEndpointSerializer (row : EndpointRow) : Json :=
  .obj
    [field "id" (formats.id row.id), field "url" (text row.url),
     field "description" (text row.description), field "is_active" (.bool row.isActive),
     field "subscribed_events" (.arr (row.subscribedEvents.map text)),
     field "created_at" (formats.time row.createdAt)]

/-- `NotificationSerializer`. -/
def notificationSerializer (row : NotificationRow) : Json :=
  .obj
    [field "id" (formats.id row.id), field "event_type" (text (eventTypeValue row.eventType)),
     field "channel" (text (channelValue row.channel)), field "recipient" (text row.recipient),
     field "status" (text row.status.value), field "sent_at" (formats.time? row.sentAt),
     field "created_at" (formats.time row.createdAt)]

end Serializers

/-! ## Views -/

/-- The views that show one row by its key. -/
inductive Detail where
  | customer | bill | payment | settlementBatch
  deriving DecidableEq

/-- The routes of `apps.api.urls` that answer a `GET`. -/
inductive Endpoint where
  | schema
  | docs
  | institutionMe
  | customerList
  | accountList
  | billList
  | paymentList
  | reconciliationList
  | settlementList
  | webhookList
  | notificationList
  | detail (kind : Detail) (pk : ℕ)

/-- A `GET` request: the route with its path id, `request.query_params`, the `Authorization` header
and the absolute URI with another page. -/
structure Get where
  endpoint : Endpoint
  params : List (String × String)
  header : Text
  pageUrl : ℕ → Text

/-- `QueryDict.get`: the last value; a blank one counts as none in every view. -/
def Get.param (get : Get) (key : String) : Option String :=
  (get.params.reverse.lookup key).filter (· ≠ "")

/-- Keep the rows whose column is the parameter, where it is given. -/
def Get.filterBy {α : Type} (get : Get) (key : String) (column : α → String) (rows : List α) :
    List α :=
  match get.param key with
  | some value => rows.filter (column · = value)
  | none => rows

/-- `order_by("-…")`. -/
def newestFirst {α : Type} (stamp : α → Time) (rows : List α) : List α :=
  rows.mergeSort fun a b => stamp b ≤ stamp a

/-- The page that `PageNumberPagination` picks of `pages`. -/
def Get.pageNumber (get : Get) (formats : Formats) (pages : ℕ) : Except ViewError ℕ :=
  match get.param "page" with
  | none => .ok 1
  | some value =>
      if value = "last" then .ok pages else
        match formats.parseInt value with
        | some n => if 1 ≤ n ∧ n ≤ pages then .ok n.toNat else .error (.notFound "Invalid page.")
        | none => .error (.notFound "Invalid page.")

def pageSize : ℕ := 50

/-- `ListAPIView.list` with `PageNumberPagination`. -/
def Get.paginated {α : Type} (get : Get) (formats : Formats) (serialize : α → Json)
    (rows : List α) : Except ViewError Json := do
  let pages := max 1 ((rows.length + (pageSize - 1)) / pageSize)
  let page ← get.pageNumber formats pages
  pure <| .obj
    [field "count" (.int rows.length),
     field "next" (if page < pages then .str (get.pageUrl (page + 1)) else .null),
     field "previous" (if 1 < page then .str (get.pageUrl (page - 1)) else .null),
     field "results"
       (.arr (((rows.drop (pageSize * (page - 1))).take pageSize).map serialize))]

/-- `get_object_or_404`, for the rows of one tenant. -/
def orHttp404 {α : Type} (name : String) : Option α → Except ViewError α
  | some row => .ok row
  | none => .error (.http404 ("No " ++ name ++ " matches the given query."))

section Views

variable (formats : Formats) (db : Tables) (tenant : ℕ) (get : Get)

/-- `CustomerListCreateView.get`. -/
def customerList : Except ViewError Json :=
  let customers := newestFirst (·.createdAt) (db.customers.filter (·.tenant = tenant))
  let customers := get.filterBy "external_reference" (·.externalReference) customers
  .ok (.arr ((customers.take 200).map (customerSerializer formats)))

/-- `AccountListCreateView.get`. -/
def accountList : Except ViewError Json := do
  let accounts := newestFirst (·.createdAt) (db.accounts.filter (·.tenant = tenant))
  let accounts ←
    match get.param "customer_id" with
    | none => .ok accounts
    | some value =>
        match formats.parseUuid value with
        | some customer => .ok (accounts.filter (·.customer = customer))
        | none => .error .unhandled
  pure (.arr ((accounts.take 200).map (customerAccountSerializer formats)))

/-- `BillListCreateView.get`. -/
def billList : Except ViewError Json := do
  let bills := newestFirst (·.createdAt) (db.bills.filter (·.tenant = tenant))
  let bills := get.filterBy "status" (·.status.value) bills
  let bills := get.filterBy "external_reference" (·.externalReference) bills
  let shown ← (bills.take 200).mapM (billSerializer formats db)
  pure (.arr shown)

/-- `PaymentListCreateView.get`. -/
def paymentList : Except ViewError Json := do
  let payments := newestFirst (·.initiatedAt) (db.payments.filter (·.tenant = tenant))
  let payments := get.filterBy "status" (·.status.value) payments
  let shown ← (payments.take 200).mapM (paymentSerializer formats db)
  pure (.arr shown)

/-- `ReconciliationRunListView`. -/
def reconciliationRunList : Except ViewError Json :=
  get.paginated formats (reconciliationRunSerializer formats)
    ((newestFirst (·.startedAt) (db.runs.filter (·.tenant = tenant))).take 100)

/-- `SettlementBatchListView`. -/
def settlementBatchList : Except ViewError Json :=
  get.paginated formats (settlementBatchSerializer formats)
    ((newestFirst (·.periodEnd) (db.batches.filter (·.tenant = tenant))).take 100)

/-- `WebhookEndpointListCreateView.get`. -/
def webhookEndpointList : Except ViewError Json :=
  let endpoints := newestFirst (·.createdAt) (db.endpoints.filter (·.tenant = tenant))
  .ok (.arr (endpoints.map (webhookEndpointSerializer formats)))

/-- `NotificationListView`. -/
def notificationList : Except ViewError Json :=
  get.paginated formats (notificationSerializer formats)
    ((newestFirst (·.createdAt) (db.notifications.filter (·.tenant = tenant))).take 200)

/-- `InstitutionMeView`: the tenant of the credential. -/
def institutionMe : Except ViewError Json :=
  match db.tenants.find? (·.id = tenant) with
  | some row => .ok (institutionSerializer formats row)
  | none => .error .unhandled

/-- `CustomerDetailView`, `BillDetailView`, `PaymentDetailView` and `SettlementBatchDetailView`. -/
def detail (pk : ℕ) : Detail → Except ViewError Json
  | .customer => do
      let row ← orHttp404 "Customer" (db.customers.find? fun c => c.id = pk && c.tenant = tenant)
      pure (customerSerializer formats row)
  | .bill => do
      let row ← orHttp404 "Bill" (db.bills.find? fun b => b.id = pk && b.tenant = tenant)
      billSerializer formats db row
  | .payment => do
      let row ← orHttp404 "Payment" (db.payments.find? fun p => p.id = pk && p.tenant = tenant)
      paymentSerializer formats db row
  | .settlementBatch => do
      let row ← orHttp404 "SettlementBatch"
        (db.batches.find? fun b => b.id = pk && b.tenant = tenant)
      pure (settlementBatchSerializer formats row)

/-- The view behind a route that needs a credential. -/
def view : Endpoint → Except ViewError Json
  | .schema => .error .unhandled
  | .docs => .error .unhandled
  | .institutionMe => institutionMe formats db tenant
  | .customerList => customerList formats db tenant get
  | .accountList => accountList formats db tenant get
  | .billList => billList formats db tenant get
  | .paymentList => paymentList formats db tenant get
  | .reconciliationList => reconciliationRunList formats db tenant get
  | .settlementList => settlementBatchList formats db tenant get
  | .webhookList => webhookEndpointList formats db tenant
  | .notificationList => notificationList formats db tenant get
  | .detail kind pk => detail formats db tenant pk kind

end Views

/-! ## Requests -/

/-- The body of a response; `document` is generated from the code alone, `errorPage` is what an
unhandled exception leaves. -/
inductive Body where
  | json (value : Json)
  | document
  | errorPage

structure Response where
  status : ℕ
  body : Body

/-- `drf_exception_handler`, without the correlation id. -/
def envelope (status : ℕ) (code detail : String) : Response :=
  { status
    body := .json (.obj
      [field "error" (.obj
        [field "code" (text code), field "message" (.obj [field "detail" (text detail)])])]) }

/-- What becomes of the outcome of a view; Django's `Http404` carries no code of its own. -/
def finish : Except ViewError Json → Response
  | .ok value => { status := 200, body := .json value }
  | .error (.http404 message) => envelope 404 "error" message
  | .error (.notFound detail) => envelope 404 "not_found" detail
  | .error .unhandled => { status := 500, body := .errorPage }

/-- `ApiCredentialRateThrottle.get_cache_key`. -/
def getCacheKey (credential : ApiCredential) : Text :=
  "throttle_api_credential_".toList ++ credential.keyId.text

/-- What the API runs with: the password hasher, the clock, how values are written, and the rate
limits, `none` where the request with this cache key is let through and the detail otherwise. -/
structure Setting where
  hasher : Hasher
  now : Time
  formats : Formats
  throttled : Text → Option String

/-- `APIView.dispatch` of the shared `ApiView`. -/
def respond (setting : Setting) (db : Tables) (get : Get) : Response :=
  match (authenticate setting.hasher setting.now get.header).exec db.access with
  | .error (.authenticationFailed message) => envelope 401 "authentication_failed" message
  | .error _ => { status := 500, body := .errorPage }
  | .ok (none, _) =>
      envelope 401 "not_authenticated" "Authentication credentials were not provided."
  | .ok (some (credential, tenant), _) =>
      match setting.throttled (getCacheKey credential) with
      | some detail => envelope 429 "throttled" detail
      | none => finish (view setting.formats db tenant.id get get.endpoint)

/-- The answer to a `GET`; the schema and its documentation are open to everyone. -/
def answer (setting : Setting) (db : Tables) (get : Get) : Response :=
  match get.endpoint with
  | .schema => { status := 200, body := .document }
  | .docs => { status := 200, body := .document }
  | _ => respond setting db get

end Kusanya.Api
