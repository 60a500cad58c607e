import Kusanya.Model.Requests

/-!
# The abstract machine of the money tables

A request does a few things to the money tables, and each of them is a `Move`:
it opens a payment, enters a status, settles a success with everything that
belongs to it, compensates a fee, and so on.  `Move.run` is the effect, a function
on whatever the tables hold when the transaction commits; `Move.Guard` is what
the code checked first, stated about what its reads found.

`Effect` ties a handler to its moves: the handler's pending writes are the
composition of the moves, and each guard held of some state that a read found.
-/

namespace Kusanya

open ReadCommitted

/-! ## Rows that a move writes -/

/-- A ledger row about a payment, as `post_entry` builds it. -/
def Payment.entry (env : Env) (payment : Payment) (entryType : LedgerEntryType)
    (account : LedgerAccount) (amount : Numeric) : LedgerEntry :=
  { tenant := payment.tenant
    entryType, account, amount
    currency := payment.currency
    reference := payment.merchantReference
    correlationId := env.correlationId
    source := some (.payment payment.id)
    metadata := []
    relatedEntry := none }

/-- The ledger rows of a success. -/
def Payment.received (env : Env) (payment : Payment) : LedgerEntry :=
  payment.entry env .paymentReceived .customer payment.amount.toNumeric

def Payment.entitlement (env : Env) (payment : Payment) : LedgerEntry :=
  payment.entry env .institutionEntitlement .institution payment.amount.toNumeric

def Payment.fee (env : Env) (payment : Payment) : LedgerEntry :=
  payment.entry env .platformPaymentFee .platform paymentSuccessFee

/-- A revenue event about a payment. -/
def Payment.event (env : Env) (payment : Payment) (eventType : RevenueEventType)
    (amount : Numeric) (ledgerEntry : Option LedgerEntry)
    (metadata : List (String × String)) : RevenueEvent :=
  { tenant := payment.tenant
    eventType, amount, ledgerEntry, metadata
    currency := payment.currency
    source := .payment payment.id
    correlationId := env.correlationId
    createdAt := env.now }

def Payment.successEvent (env : Env) (payment : Payment) : RevenueEvent :=
  payment.event env .paymentSuccessful paymentSuccessFee (some (payment.fee env)) []

def Payment.allocationTo (payment : Payment) (bill : ℕ) : PaymentAllocation :=
  { tenant := payment.tenant
    payment := payment.id
    bill
    amount := payment.amount.toNumeric }

/-- The creation fee of a control number. -/
def ControlNumber.fee (env : Env) (cn : ControlNumber) (currency : String) : LedgerEntry :=
  { tenant := cn.tenant
    entryType := .platformControlNumberFee
    account := .platform
    amount := controlNumberCreationFee
    currency
    reference := cn.value
    correlationId := env.correlationId
    source := some (.controlNumber cn.id)
    metadata := []
    relatedEntry := none }

def ControlNumber.event (env : Env) (cn : ControlNumber) (currency : String)
    (eventType : RevenueEventType) (amount : Numeric) (ledgerEntry : Option LedgerEntry) :
    RevenueEvent :=
  { tenant := cn.tenant
    eventType, amount, currency, ledgerEntry
    source := .controlNumber cn.id
    correlationId := env.correlationId
    metadata := []
    createdAt := env.now }

def ControlNumber.createdEvent (env : Env) (cn : ControlNumber) (currency : String) :
    RevenueEvent :=
  cn.event env currency .controlNumberCreated controlNumberCreationFee (some (cn.fee env currency))

/-- The revenue event and the ledger entry types of a compensation. -/
def PaymentStatus.compensation : PaymentStatus → RevenueEventType × LedgerEntryType
  | .reversed => (.paymentReversed, .reversal)
  | _ => (.paymentRefunded, .refund)

/-- The ledger row that takes a fee back. -/
def RevenueEvent.takenBack (env : Env) (fee : RevenueEvent) (status : PaymentStatus) :
    Option LedgerEntry :=
  fee.ledgerEntry.map fun original =>
    { tenant := original.tenant
      entryType := status.compensation.2
      account := original.account
      amount := fee.amount.neg
      currency := original.currency
      reference := original.reference
      correlationId := env.correlationId
      source := original.source
      metadata := [("reason", status.compensation.1.value)]
      relatedEntry := some original.toPosting }

/-! ## Moves -/

/-- The status that `_allocate_to_bill` gives a bill whose balance has become
`balance`; `none` leaves the bill alone. -/
def settledStatus (status : BillStatus) (balance : Money) : Option BillStatus :=
  if status ≠ .active ∧ status ≠ .partiallyPaid then none
  else if balance ≤ 0 then some .paid
  else if status = .active then some .partiallyPaid
  else none

/-- A success with everything that belongs to it.  `payment` is the object after
the transition, `bill` the bill as it was found. -/
structure Settlement where
  env : Env
  payment : Payment
  controlNumber : ControlNumber
  bill : Option Bill
  entered : Option BillStatus
  receipt : Option Receipt

/-- The bill object after `_allocate_to_bill`. -/
def Bill.after (bill : Bill) (now : Time) : Option BillStatus → Bill
  | none => bill
  | some status => bill.moveTo now status

def Books.allocate (books : Books) (payment : Payment) : Option Bill → Books
  | none => books
  | some bill => books.addAllocation (payment.allocationTo bill.id)

def Books.saveBill (books : Books) (bill : Bill) : Books :=
  books.updateBill bill.id bill.saveStatus

/-- A bill with its items, as `get_or_create_bill` leaves it; `bill` has the total. -/
def Books.draftBill (books : Books) (items : List BillItem) (bill : Bill) : Books :=
  ((books.addBill { bill with totalAmount := .zero }).addItems items).updateBill bill.id
    fun row => { row with totalAmount := bill.totalAmount }

def Books.savePayment (books : Books) (payment : Payment) : Books :=
  books.updatePayment payment.id payment.saveStatus

/-- The bill's columns are written only when its status moves. -/
def Books.enterBill (books : Books) (now : Time) : Option Bill → Option BillStatus → Books
  | some bill, some status => books.saveBill (bill.moveTo now status)
  | _, _ => books

def Books.issueReceipt (books : Books) : Option Receipt → Books
  | none => books
  | some receipt => books.addReceipt receipt

/-- The ledger and revenue rows of a success. -/
def Books.postSuccess (books : Books) (env : Env) (payment : Payment) : Books :=
  (((books.post (payment.received env)).post (payment.entitlement env)).post
    (payment.fee env)).record (payment.successEvent env)

/-- What follows the status of a success, in the order of the source. -/
def Settlement.follow (s : Settlement) (books : Books) : Books :=
  (((books.postSuccess s.env s.payment).allocate s.payment s.bill).enterBill s.env.now s.bill
    s.entered).issueReceipt s.receipt

/-- What follows the status of a refund or reversal; `fee` is the event that is
taken back, if any. -/
def Books.compensate (books : Books) (env : Env) (payment : Payment) (fee : Option RevenueEvent)
    (metadata : List (String × String)) : Books :=
  let eventType := payment.status.compensation.1
  match fee with
  | none => books.record (payment.event env eventType .zero none metadata)
  | some fee =>
      match fee.takenBack env payment.status with
      | none => books.record (payment.event env eventType fee.amount.neg none metadata)
      | some entry =>
          (books.post entry).record
            (payment.event env eventType fee.amount.neg (some entry) metadata)

/-- One thing that a request does to the money tables. -/
inductive Move where
  | openBill (items : List BillItem) (bill : Bill) (now : Time)
  | cancelBill (bill : Bill)
  | issue (env : Env) (cn : ControlNumber) (currency : String)
  | editControlNumbers (f : ControlNumber → ControlNumber)
  | note (event : RevenueEvent)
  | openPayment (payment : Payment)
  | refer (payment : ℕ) (reference : String) (raw : Option String)
  | enter (payment : Payment)
  | settle (s : Settlement)
  | undo (env : Env) (payment : Payment) (fee : Option RevenueEvent)
      (metadata : List (String × String))
  | addCallback (row : PaymentCallbackEvent)
  | editCallback (id : ℕ) (f : PaymentCallbackEvent → PaymentCallbackEvent)
  | openBatch (batch : SettlementBatch) (claimed : List Payment)
  | editBatch (id : ℕ) (f : SettlementBatch → SettlementBatch)

/-- The effect of a move on the money tables, whatever they hold. -/
def Move.run : Move → Books → Books
  | openBill items bill now, books =>
      (books.draftBill items bill).saveBill (bill.moveTo now .active)
  | cancelBill bill, books => books.saveBill bill
  | issue env cn currency, books =>
      ((books.addControlNumber cn).post (cn.fee env currency)).record (cn.createdEvent env currency)
  | editControlNumbers f, books => books.updateControlNumbers f
  | note event, books => books.record event
  | openPayment payment, books => books.addPayment payment
  | refer payment reference raw, books =>
      books.updatePayment payment fun row =>
        { row with
          providerReference := reference
          rawProviderResponse := raw.getD row.rawProviderResponse }
  | enter payment, books => books.savePayment payment
  | settle s, books => s.follow (books.savePayment s.payment)
  | undo env payment fee metadata, books =>
      (books.savePayment payment).compensate env payment fee metadata
  | addCallback row, books => books.addCallbackEvent row
  | editCallback id f, books => books.updateCallbackEvent id f
  | openBatch batch claimed, books =>
      { books.addBatch batch with
        payments := books.payments.map fun p =>
          if claimed.any (·.id = p.id) then { p with settlementBatch := some batch.id } else p }
  | editBatch id f, books => books.updateBatch id f

/-- Several moves, the first one first. -/
def Move.runAll (ms : List Move) (books : Books) : Books :=
  ms.foldl (fun books m => m.run books) books

@[simp] theorem Move.runAll_nil (books : Books) : Move.runAll [] books = books := rfl

@[simp] theorem Move.runAll_cons (m : Move) (ms : List Move) (books : Books) :
    Move.runAll (m :: ms) books = Move.runAll ms (m.run books) := rfl

theorem Move.runAll_append (ms ms' : List Move) (books : Books) :
    Move.runAll (ms ++ ms') books = Move.runAll ms' (Move.runAll ms books) :=
  List.foldl_append

/-! ## What reads find -/

/-- What a read of a resource may find, own writes included. -/
abbrev View := Resource → Directory → Books → Prop

/-- A read of `what` may find a state with `P`. -/
def View.SeesAt (view : View) (what : Resource) (P : Directory → Books → Prop) : Prop :=
  ∃ d b, view what d b ∧ P d b

/-- Some read may find a state with `P`. -/
def View.Sees (view : View) (P : Directory → Books → Prop) : Prop :=
  ∃ what, view.SeesAt what P

/-- The view after a write of the transaction itself. -/
def View.map (view : View) (w : Books → Books) : View :=
  fun what d b => ∃ b₀, view what d b₀ ∧ b = w b₀

/-- The view of a transaction with pending writes `pend`. -/
def viewOf (φ : Resource → DB → Prop) (pend : DB → DB) : View :=
  fun what d b => ∃ v, φ what v ∧ d = (pend v).toDirectory ∧ b = (pend v).toBooks

theorem View.SeesAt.sees {view : View} {what : Resource} {P : Directory → Books → Prop}
    (h : view.SeesAt what P) : view.Sees P :=
  ⟨what, h⟩

theorem seesAt_viewOf {φ : Resource → DB → Prop} {pend : DB → DB} {what : Resource}
    {P : Directory → Books → Prop} {v : DB} (hv : φ what v)
    (h : P (pend v).toDirectory (pend v).toBooks) : (viewOf φ pend).SeesAt what P :=
  ⟨_, _, ⟨v, hv, rfl, rfl⟩, h⟩

/-- The view of a request that runs alone in the state `(d, b)`. -/
def View.alone (d : Directory) (b : Books) : View :=
  fun _ d' b' => d' = d ∧ b' = b

@[simp] theorem View.seesAt_alone (d : Directory) (b : Books) (what : Resource)
    (P : Directory → Books → Prop) : (View.alone d b).SeesAt what P ↔ P d b := by
  constructor
  · rintro ⟨d', b', ⟨rfl, rfl⟩, h⟩
    exact h
  · intro h
    exact ⟨d, b, ⟨rfl, rfl⟩, h⟩

@[simp] theorem View.sees_alone (d : Directory) (b : Books) (P : Directory → Books → Prop) :
    (View.alone d b).Sees P ↔ P d b := by
  constructor
  · rintro ⟨what, h⟩
    exact (View.seesAt_alone d b what P).mp h
  · intro h
    exact ⟨.batch 0, (View.seesAt_alone d b _ P).mpr h⟩

@[simp] theorem View.seesAt_map (view : View) (w : Books → Books) (what : Resource)
    (P : Directory → Books → Prop) :
    (view.map w).SeesAt what P ↔ view.SeesAt what fun d b => P d (w b) := by
  constructor
  · rintro ⟨d, _, ⟨b, hb, rfl⟩, h⟩
    exact ⟨d, b, hb, h⟩
  · rintro ⟨d, b, hb, h⟩
    exact ⟨d, w b, ⟨b, hb, rfl⟩, h⟩

@[simp] theorem View.sees_map (view : View) (w : Books → Books)
    (P : Directory → Books → Prop) :
    (view.map w).Sees P ↔ view.Sees fun d b => P d (w b) :=
  exists_congr fun what => View.seesAt_map view w what P

theorem View.SeesAt.mono {view : View} {what : Resource} {P P' : Directory → Books → Prop}
    (h : view.SeesAt what P) (hP : ∀ d b, P d b → P' d b) : view.SeesAt what P' := by
  obtain ⟨d, b, hb, h⟩ := h
  exact ⟨d, b, hb, hP d b h⟩

theorem View.Sees.mono {view : View} {P P' : Directory → Books → Prop}
    (h : view.Sees P) (hP : ∀ d b, P d b → P' d b) : view.Sees P' := by
  obtain ⟨what, h⟩ := h
  exact ⟨what, h.mono hP⟩

@[simp] theorem View.map_alone (d : Directory) (b : Books) (w : Books → Books) :
    (View.alone d b).map w = View.alone d (w b) := by
  funext what d' b'
  apply propext
  constructor
  · rintro ⟨b₀, ⟨rfl, rfl⟩, rfl⟩
    exact ⟨rfl, rfl⟩
  · rintro ⟨rfl, rfl⟩
    exact ⟨b, ⟨rfl, rfl⟩, rfl⟩

theorem viewOf_alone (s : DB) (pend : DB → DB) :
    viewOf (fun _ v => v = s) pend = View.alone (pend s).toDirectory (pend s).toBooks := by
  funext what d b
  apply propext
  constructor
  · rintro ⟨v, rfl, hd, hb⟩
    exact ⟨hd, hb⟩
  · rintro ⟨hd, hb⟩
    exact ⟨s, rfl, hd, hb⟩

/-! ## Guards -/

/-- The reads that give payment objects. -/
def Resource.givesPayments : Resource → Bool
  | .payment _ | .paymentsOf _ | .providerReference _ | .idempotencyKey .. => true
  | _ => false

/-- The object `payment` is what such a read found, own writes included. -/
def View.Holds (view : View) (payment : Payment) : Prop :=
  ∃ what, what.givesPayments = true ∧ view.SeesAt what fun _ b => payment ∈ b.payments

@[simp] theorem View.holds_alone (d : Directory) (b : Books) (payment : Payment) :
    (View.alone d b).Holds payment ↔ payment ∈ b.payments := by
  constructor
  · rintro ⟨what, -, h⟩
    exact (View.seesAt_alone d b what _).mp h
  · intro h
    exact ⟨.payment 0, rfl, (View.seesAt_alone d b _ _).mpr h⟩

/-- An object goes with its row through a write of the transaction. -/
theorem View.Holds.map {view : View} {w : Books → Books} {payment payment' : Payment}
    (h : view.Holds payment)
    (hw : ∀ b, payment ∈ b.payments → payment' ∈ (w b).payments) : (view.map w).Holds payment' := by
  obtain ⟨what, hgives, hsees⟩ := h
  refine ⟨what, hgives, ?_⟩
  rw [View.seesAt_map]
  exact hsees.mono fun _ b hb => hw b hb

/-- The guard of `Payment.transition_to`: `new` is `old` after the transition. -/
structure Enters (view : View) (old new : Payment) : Prop where
  holds : view.Holds old
  allowed : new.status ∈ old.status.allowedTransitions
  moved : ∃ now reason, new = old.moveTo now new.status reason
  reasonFits : Varchar 255 new.failureReason

/-- What reading `payment.control_number` and `control_number.bill` found. -/
structure Loaded (view : View) (payment : Payment) (cn : ControlNumber) (bill : Option Bill) :
    Prop where
  controlNumber : view.Sees fun _ b => cn ∈ b.controlNumbers
  id : cn.id = payment.controlNumber
  unbound : cn.bill? = none → bill = none
  bound : ∀ id, cn.bill? = some id → ∃ row, bill = some row ∧ row.id = id ∧
    view.SeesAt (.bill id) fun _ b => row ∈ b.bills

/-- What `_allocate_to_bill` found when it chose the status `entered`. -/
structure Allocates (view : View) (payment : Payment) (bill : Option Bill)
    (entered : Option BillStatus) : Prop where
  unbound : bill = none → entered = none
  bound : ∀ row, bill = some row →
    view.SeesAt (.allocationsOf row.id) (fun _ b => entered = settledStatus row.status
      (row.totalAmount.cents - (b.amountPaid row.id + payment.amount.cents))) ∨
    (entered = none ∧ row.status ≠ .active ∧ row.status ≠ .partiallyPaid)

/-- What `generate_receipt` found when it inserted `receipt`, or nothing. -/
structure Receipts (view : View) (payment : Payment) (receipt : Option Receipt) : Prop where
  existing : receipt = none → view.Sees fun _ b => (b.receiptOf payment.id).isSome
  inserted : ∀ row, receipt = some row →
    row.payment = payment.id ∧ row.tenant = payment.tenant ∧
    row.amount = payment.amount.toNumeric ∧ row.currency = payment.currency ∧
    view.Sees fun _ b => b.receiptClash row = false

/-- What the handler found after a success. -/
structure Settlement.Found (view : View) (s : Settlement) : Prop where
  loaded : Loaded view s.payment s.controlNumber s.bill
  allocates : Allocates view s.payment s.bill s.entered
  receipts : Receipts view s.payment s.receipt

structure Settlement.Guard (view : View) (s : Settlement) : Prop extends Found view s where
  enters : ∃ old, Enters view old s.payment
  successful : s.payment.status = .successful

/-- What `_compensate` found before it took `fee` back. -/
def Compensates (view : View) (payment : Payment) (fee : Option RevenueEvent) : Prop :=
  ∃ original tenant,
    view.Sees (fun _ b => originalEvent payment.tenant payment.id b = original) ∧
    view.Sees (fun d _ => d.tenants.find? (·.id = payment.tenant) = some tenant) ∧
    clawback? tenant.feeRefundPolicy original = fee

structure UndoGuard (view : View) (payment : Payment) (fee : Option RevenueEvent) : Prop where
  enters : ∃ old, Enters view old payment ∧ old.status = .successful
  status : payment.status = .reversed ∨ payment.status = .refunded
  fee : Compensates view payment fee

/-- The owner of a control number exists in its tenant. -/
def Owner.Exists (owner : Owner) (tenant : ℕ) (d : Directory) (b : Books) : Prop :=
  match owner with
  | .bill id => ∃ bill ∈ b.bills, bill.id = id ∧ bill.tenant = tenant
  | .customerAccount id => ∃ account ∈ d.accounts, account.id = id ∧ account.tenant = tenant

/-- The control number of a payment belongs to the payment's tenant, or to a bill of
that tenant. -/
def TenantOwns (view : View) (cn : ControlNumber) (tenant : ℕ) : Prop :=
  cn.tenant = tenant ∨ ∃ bill, cn.bill? = some bill.id ∧ bill.tenant = tenant ∧
    view.Sees fun _ b => bill ∈ b.bills

/-- What the code checked before a move. -/
def Move.Guard (view : View) : Move → Prop
  | openBill items bill _ =>
      bill.status = .draft ∧ (∀ item ∈ items, item.bill = bill.id) ∧
      view.Sees (fun _ b => b.billClash bill = false) ∧ bill.currency = "TZS" ∧
      (view.Sees fun _ b => bill.totalAmount.cents =
        (((b.billItems ++ items).filter (·.bill = bill.id)).map (·.lineTotal.cents)).sum) ∧
      view.Sees fun d _ => ∃ account ∈ d.accounts,
        account.id = bill.customerAccount ∧ account.tenant = bill.tenant
  | cancelBill bill =>
      ∃ old now, view.Sees (fun _ b => old ∈ b.bills) ∧
        .cancelled ∈ old.status.allowedTransitions ∧ bill = old.moveTo now .cancelled
  | issue _ cn currency =>
      view.Sees (fun _ b => b.controlNumberClash cn = false) ∧
      view.Sees (fun d b => cn.owner.Exists cn.tenant d b) ∧
      view.Sees fun d _ => ∃ tenant, d.tenants.find? (·.id = cn.tenant) = some tenant ∧
        currency = tenant.defaultCurrency
  | editControlNumbers f =>
      ∀ cn, ∃ status cancelledAt, f cn = { cn with status, cancelledAt }
  | note event =>
      event.amount = .zero ∧ event.ledgerEntry = none ∧
      (event.eventType = .controlNumberReused ∨ event.eventType = .paymentFailed ∨
        event.eventType = .paymentDuplicate)
  | openPayment payment =>
      payment.status = .initiated ∧ payment.completedAt = none ∧ payment.failureReason = "" ∧
      payment.settlementBatch = none ∧
      view.Sees (fun _ b => b.paymentClash payment = false) ∧
      (∃ cn, view.Sees (fun _ b => cn ∈ b.controlNumbers) ∧ cn.id = payment.controlNumber ∧
        TenantOwns view cn payment.tenant) ∧
      view.Sees (fun d _ => ∃ provider ∈ d.providers, provider.id = payment.provider) ∧
      view.Sees fun d _ => ∃ tenant, d.tenants.find? (·.id = payment.tenant) = some tenant ∧
        payment.currency = tenant.defaultCurrency
  | refer _ reference _ => Varchar 100 reference
  | enter payment =>
      (∃ old, Enters view old payment) ∧
      (payment.status = .pending ∨ payment.status = .failed ∨ payment.status = .unknown)
  | settle s => s.Guard view
  | undo _ payment fee _ => UndoGuard view payment fee
  | addCallback row =>
      Varchar 150 row.externalEventId ∧ view.Sees fun _ b => b.callbackClash row = false
  | editCallback _ f => ∀ row, ∃ payment outcome, f row = { row with payment, outcome }
  | openBatch _ _ => True
  | editBatch _ _ => True

/-- Each move of a list has its guard when its turn comes. -/
def View.Chain : View → List Move → Prop
  | _, [] => True
  | view, m :: ms => m.Guard view ∧ (view.map m.run).Chain ms

theorem View.map_map (view : View) (w w' : Books → Books) :
    (view.map w).map w' = view.map (w' ∘ w) := by
  funext what d b
  apply propext
  constructor
  · rintro ⟨_, ⟨b₀, h, rfl⟩, rfl⟩
    exact ⟨b₀, h, rfl⟩
  · rintro ⟨b₀, h, rfl⟩
    exact ⟨_, ⟨b₀, h, rfl⟩, rfl⟩

theorem View.chain_append (view : View) (ms ms' : List Move) :
    view.Chain (ms ++ ms') ↔ view.Chain ms ∧ (view.map (Move.runAll ms)).Chain ms' := by
  induction ms generalizing view with
  | nil =>
      have h : view.map (Move.runAll []) = view := by
        funext what d b
        simp [View.map]
      simp [View.Chain, h]
  | cons m ms ih =>
      have h : Move.runAll (m :: ms) = Move.runAll ms ∘ m.run := rfl
      rw [List.cons_append, View.Chain, View.Chain, ih, View.map_map, h, and_assoc]

/-! ## The effect of a handler -/

/-- From `pend` to `pend'` the money tables went through `w` and the directory
stayed as it was. -/
def Writes (w : Books → Books) (pend pend' : DB → DB) : Prop :=
  ∀ s, (pend' s).core = ((pend s).toDirectory, w (pend s).toBooks)

section Writing

variable {φ : Resource → DB → Prop} {pend pend' pend'' : DB → DB} {w w' : Books → Books}

theorem Writes.of_core (h : ∀ s, (pend' s).core = (pend s).core) : Writes id pend pend' := h

theorem Writes.trans (h : Writes w pend pend') (h' : Writes w' pend' pend'') :
    Writes (w' ∘ w) pend pend'' := by
  intro s
  have hd : (pend' s).toDirectory = (pend s).toDirectory := congrArg Prod.fst (h s)
  have hb : (pend' s).toBooks = w (pend s).toBooks := congrArg Prod.snd (h s)
  rw [h' s, hd, hb]
  rfl

theorem Writes.then_core (h : Writes w pend pend') (h' : ∀ s, (pend'' s).core = (pend' s).core) :
    Writes w pend pend'' :=
  fun s => (h' s).trans (h s)

theorem Writes.after_core (h' : ∀ s, (pend' s).core = (pend s).core)
    (h : Writes w pend' pend'') : Writes w pend pend'' :=
  (Writes.of_core h').trans h

theorem Writes.view (h : Writes w pend pend') : viewOf φ pend' = (viewOf φ pend).map w := by
  funext what d b
  apply propext
  constructor
  · rintro ⟨v, hv, rfl, rfl⟩
    exact ⟨_, ⟨v, hv, congrArg Prod.fst (h v), rfl⟩, congrArg Prod.snd (h v)⟩
  · rintro ⟨_, ⟨v, hv, rfl, rfl⟩, rfl⟩
    exact ⟨v, hv, (congrArg Prod.fst (h v)).symm, (congrArg Prod.snd (h v)).symm⟩

theorem viewOf_core (h : ∀ s, (pend' s).core = (pend s).core) :
    viewOf φ pend' = viewOf φ pend := by
  rw [(Writes.of_core h).view]
  funext what d b
  simp [View.map]

end Writing

/-- From `pend` to `pend'` a handler made the moves `ms`, each with its guard, and
touched nothing else but the trail. -/
structure Effect (φ : Resource → DB → Prop) (pend : DB → DB) (ms : List Move)
    (pend' : DB → DB) : Prop where
  chain : (viewOf φ pend).Chain ms
  writes : Writes (Move.runAll ms) pend pend'

section Effects

variable {φ : Resource → DB → Prop} {pend pend' pend'' : DB → DB} {ms ms' : List Move}

theorem Effect.view (h : Effect φ pend ms pend') :
    viewOf φ pend' = (viewOf φ pend).map (Move.runAll ms) :=
  h.writes.view

theorem Effect.trans (h : Effect φ pend ms pend') (h' : Effect φ pend' ms' pend'') :
    Effect φ pend (ms ++ ms') pend'' where
  chain := by
    rw [View.chain_append, ← h.view]
    exact ⟨h.chain, h'.chain⟩
  writes s := by
    rw [(h.writes.trans h'.writes) s, Move.runAll_append]
    rfl

theorem Effect.of_core (h : ∀ s, (pend' s).core = (pend s).core) : Effect φ pend [] pend' where
  chain := trivial
  writes := h

theorem Effect.refl : Effect φ pend [] pend := Effect.of_core fun _ => rfl

theorem Effect.single {m : Move} (hm : m.Guard (viewOf φ pend)) (h : Writes m.run pend pend') :
    Effect φ pend [m] pend' where
  chain := ⟨hm, trivial⟩
  writes := h

theorem Effect.then_core (h : Effect φ pend ms pend')
    (h' : ∀ s, (pend'' s).core = (pend' s).core) : Effect φ pend ms pend'' where
  chain := h.chain
  writes := h.writes.then_core h'

end Effects

end Kusanya
