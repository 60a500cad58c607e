import Kusanya.Moves.Basic

/-!
# The tables after a move

A move appends rows to a table and maps a function over the rows that are there.
The functions here say what, table by table; everything later in the development
reads a move through them and never unfolds `Move.run`.
-/

namespace Kusanya

namespace Move

/-- The rows a move adds to the ledger. -/
def postings : Move → List LedgerEntry
  | issue env cn currency => [cn.fee env currency]
  | settle s => [s.payment.received s.env, s.payment.entitlement s.env, s.payment.fee s.env]
  | undo env payment fee _ => (fee.bind (·.takenBack env payment.status)).toList
  | _ => []

/-- The amount of a compensation event. -/
def compensationAmount (fee : Option RevenueEvent) : Numeric :=
  match fee with
  | none => .zero
  | some fee => fee.amount.neg

/-- The revenue events a move records. -/
def events : Move → List RevenueEvent
  | issue env cn currency => [cn.createdEvent env currency]
  | note event => [event]
  | settle s => [s.payment.successEvent s.env]
  | undo env payment fee metadata =>
      [payment.event env payment.status.compensation.1 (compensationAmount fee)
        (fee.bind (·.takenBack env payment.status)) metadata]
  | _ => []

/-- The allocations a move makes. -/
def allocations : Move → List PaymentAllocation
  | settle s => (s.bill.map fun bill => s.payment.allocationTo bill.id).toList
  | _ => []

/-- The receipts a move issues. -/
def receipts : Move → List Receipt
  | settle s => s.receipt.toList
  | _ => []

/-- The payments a move opens. -/
def opened : Move → List Payment
  | openPayment payment => [payment]
  | _ => []

/-- What a move does to a payment row. -/
def onPayment : Move → Payment → Payment
  | refer id reference raw, row =>
      if row.id = id then
        { row with
          providerReference := reference
          rawProviderResponse := raw.getD row.rawProviderResponse }
      else row
  | enter payment, row => if row.id = payment.id then payment.saveStatus row else row
  | settle s, row => if row.id = s.payment.id then s.payment.saveStatus row else row
  | undo _ payment _ _, row => if row.id = payment.id then payment.saveStatus row else row
  | openBatch batch claimed, row =>
      if claimed.any (·.id = row.id) then { row with settlementBatch := some batch.id } else row
  | _, row => row

/-- The bills a move opens. -/
def openedBills : Move → List Bill
  | openBill _ bill now => [bill.moveTo now .active]
  | _ => []

/-- What a move does to a bill row. -/
def onBill : Move → Bill → Bill
  | openBill _ bill now, row =>
      if row.id = bill.id then
        (bill.moveTo now .active).saveStatus { row with totalAmount := bill.totalAmount }
      else row
  | cancelBill bill, row => if row.id = bill.id then bill.saveStatus row else row
  | settle s, row =>
      match s.bill, s.entered with
      | some bill, some status =>
          if row.id = bill.id then (bill.moveTo s.env.now status).saveStatus row else row
      | _, _ => row
  | _, row => row

/-- The control numbers a move issues. -/
def issued : Move → List ControlNumber
  | issue _ cn _ => [cn]
  | _ => []

/-- What a move does to a control number row. -/
def onControlNumber : Move → ControlNumber → ControlNumber
  | editControlNumbers f, row => f row
  | _, row => row

/-- The callback rows a move adds. -/
def called : Move → List PaymentCallbackEvent
  | addCallback row => [row]
  | _ => []

/-- What a move does to a callback row. -/
def onCallback : Move → PaymentCallbackEvent → PaymentCallbackEvent
  | editCallback id f, row => if row.id = id then f row else row
  | _, row => row

/-! ## One lemma for each table -/

section Tables

variable (m : Move) (b : Books)

theorem enterBill_eq (s : Settlement) :
    b.enterBill s.env.now s.bill s.entered = { b with bills := b.bills.map (settle s).onBill } := by
  unfold Books.enterBill
  split
  · next bill status hbill hentered =>
      have hon : (settle s).onBill = fun row =>
          if row.id = bill.id then (bill.moveTo s.env.now status).saveStatus row else row := by
        funext row
        simp only [onBill, hbill, hentered]
      rw [hon]
      rfl
  · next hother =>
      have hon : (settle s).onBill = fun row => row := by
        funext row
        simp only [onBill]
      rw [hon, List.map_id']

theorem allocate_eq (s : Settlement) :
    b.allocate s.payment s.bill =
      { b with allocations := b.allocations ++ (settle s).allocations } := by
  unfold Books.allocate
  cases hbill : s.bill <;> simp [allocations, hbill, Books.addAllocation]

theorem issueReceipt_eq (s : Settlement) :
    b.issueReceipt s.receipt = { b with receipts := b.receipts ++ (settle s).receipts } := by
  unfold Books.issueReceipt
  cases hreceipt : s.receipt <;> simp [receipts, hreceipt, Books.addReceipt]

/-- A settlement changes each table only through the step that owns it. -/
theorem follow_eq (s : Settlement) :
    s.follow b =
      { b with
        ledger := b.ledger ++ (settle s).postings
        revenue := b.revenue ++ (settle s).events
        allocations := b.allocations ++ (settle s).allocations
        bills := b.bills.map (settle s).onBill
        receipts := b.receipts ++ (settle s).receipts } := by
  rw [Settlement.follow, allocate_eq, enterBill_eq, issueReceipt_eq]
  simp [Books.postSuccess, Books.post, Books.record, postings, events]

theorem compensate_eq (env : Env) (payment : Payment) (fee : Option RevenueEvent)
    (metadata : List (String × String)) :
    b.compensate env payment fee metadata =
      { b with
        ledger := b.ledger ++ (undo env payment fee metadata).postings
        revenue := b.revenue ++ (undo env payment fee metadata).events } := by
  unfold Books.compensate
  cases fee with
  | none => simp [postings, events, compensationAmount, Books.record]
  | some fee =>
      cases hentry : fee.takenBack env payment.status <;>
        simp [postings, events, compensationAmount, Books.record, Books.post, hentry]

theorem run_settle (s : Settlement) :
    (settle s).run b =
      { b.savePayment s.payment with
        ledger := b.ledger ++ (settle s).postings
        revenue := b.revenue ++ (settle s).events
        allocations := b.allocations ++ (settle s).allocations
        bills := b.bills.map (settle s).onBill
        receipts := b.receipts ++ (settle s).receipts } :=
  follow_eq (b.savePayment s.payment) s

theorem run_undo (env : Env) (payment : Payment) (fee : Option RevenueEvent)
    (metadata : List (String × String)) :
    (undo env payment fee metadata).run b =
      { b.savePayment payment with
        ledger := b.ledger ++ (undo env payment fee metadata).postings
        revenue := b.revenue ++ (undo env payment fee metadata).events } :=
  compensate_eq (b.savePayment payment) env payment fee metadata

theorem run_ledger : (m.run b).ledger = b.ledger ++ m.postings := by
  cases m with
  | settle s => rw [run_settle]
  | undo env payment fee metadata => rw [run_undo]
  | issue => rfl
  | _ => exact (List.append_nil _).symm

theorem run_revenue : (m.run b).revenue = b.revenue ++ m.events := by
  cases m with
  | settle s => rw [run_settle]
  | undo env payment fee metadata => rw [run_undo]
  | issue => rfl
  | note => rfl
  | _ => exact (List.append_nil _).symm

theorem run_allocations : (m.run b).allocations = b.allocations ++ m.allocations := by
  cases m with
  | settle s => rw [run_settle]
  | undo env payment fee metadata =>
      rw [run_undo]; exact (List.append_nil _).symm
  | _ => exact (List.append_nil _).symm

theorem run_receipts : (m.run b).receipts = b.receipts ++ m.receipts := by
  cases m with
  | settle s => rw [run_settle]
  | undo env payment fee metadata =>
      rw [run_undo]; exact (List.append_nil _).symm
  | _ => exact (List.append_nil _).symm

theorem run_payments : (m.run b).payments = b.payments.map m.onPayment ++ m.opened := by
  have hid : b.payments = b.payments.map (fun row => row) ++ [] := by simp
  cases m with
  | settle s => rw [run_settle]; exact (List.append_nil _).symm
  | undo env payment fee metadata =>
      rw [run_undo]; exact (List.append_nil _).symm
  | openPayment payment =>
      change b.payments ++ [payment] = b.payments.map (fun row => row) ++ [payment]
      rw [List.map_id']
  | refer => exact (List.append_nil _).symm
  | enter => exact (List.append_nil _).symm
  | openBatch => exact (List.append_nil _).symm
  | _ => exact hid

theorem run_bills : (m.run b).bills = b.bills.map m.onBill ++ m.openedBills := by
  have hid : b.bills = b.bills.map (fun row => row) ++ [] := by simp
  cases m with
  | settle s => rw [run_settle]; exact (List.append_nil _).symm
  | undo env payment fee metadata => rw [run_undo]; exact hid
  | openBill items bill now =>
      simp only [run, Books.saveBill, Books.draftBill, Books.updateBill, Books.addItems,
        Books.addBill, List.map_append, List.map_map, List.map_cons, List.map_nil]
      congr 1
      · refine List.map_congr_left fun row _ => ?_
        by_cases hid : row.id = bill.id <;> simp [onBill, Bill.moveTo, hid]
      · simp [openedBills, Bill.moveTo, Bill.saveStatus]
  | cancelBill => exact (List.append_nil _).symm
  | _ => exact hid

theorem run_controlNumbers :
    (m.run b).controlNumbers = b.controlNumbers.map m.onControlNumber ++ m.issued := by
  have hid : b.controlNumbers = b.controlNumbers.map (fun row => row) ++ [] := by simp
  cases m with
  | settle s => rw [run_settle]; exact hid
  | undo env payment fee metadata => rw [run_undo]; exact hid
  | issue env cn currency =>
      change b.controlNumbers ++ [cn] = b.controlNumbers.map (fun row => row) ++ [cn]
      rw [List.map_id']
  | editControlNumbers => exact (List.append_nil _).symm
  | _ => exact hid

theorem run_callbackEvents :
    (m.run b).callbackEvents = b.callbackEvents.map m.onCallback ++ m.called := by
  have hid : b.callbackEvents = b.callbackEvents.map (fun row => row) ++ [] := by simp
  cases m with
  | settle s => rw [run_settle]; exact hid
  | undo env payment fee metadata => rw [run_undo]; exact hid
  | addCallback row =>
      change b.callbackEvents ++ [row] = b.callbackEvents.map (fun row => row) ++ [row]
      rw [List.map_id']
  | editCallback => exact (List.append_nil _).symm
  | _ => exact hid

end Tables

/-! ## Identities and statuses -/

/-- The payment object whose status a move saves. -/
def entered : Move → Option Payment
  | enter payment => some payment
  | settle s => some s.payment
  | undo _ payment _ _ => some payment
  | _ => none

end Move

/-- The columns of a payment that no statement updates. -/
structure Payment.Fixed where
  id : ℕ
  tenant : ℕ
  controlNumber : ℕ
  provider : ℕ
  channel : Option String
  amount : Amount
  currency : String
  payerReference : String
  merchantReference : String
  idempotencyKey : String
  initiatedAt : Time

def Payment.fixed (p : Payment) : Payment.Fixed :=
  { id := p.id
    tenant := p.tenant
    controlNumber := p.controlNumber
    provider := p.provider
    channel := p.channel
    amount := p.amount
    currency := p.currency
    payerReference := p.payerReference
    merchantReference := p.merchantReference
    idempotencyKey := p.idempotencyKey
    initiatedAt := p.initiatedAt }

/-- The columns of a payment that `transition_to` saves. -/
structure Payment.Progress where
  status : PaymentStatus
  completedAt : Option Time
  failureReason : String

def Payment.progress (p : Payment) : Payment.Progress :=
  { status := p.status
    completedAt := p.completedAt
    failureReason := p.failureReason }

namespace Move

theorem onPayment_fixed (m : Move) (row : Payment) : (m.onPayment row).fixed = row.fixed := by
  cases m with
  | refer | enter | settle | undo | openBatch =>
      simp only [onPayment]
      split <;> rfl
  | _ => rfl

theorem onPayment_id (m : Move) (row : Payment) : (m.onPayment row).id = row.id :=
  congrArg Payment.Fixed.id (m.onPayment_fixed row)

/-- A payment's progress changes only where a move saves it. -/
theorem onPayment_progress (m : Move) (row : Payment) :
    (m.onPayment row).progress =
      match m.entered with
      | some payment => if row.id = payment.id then payment.progress else row.progress
      | none => row.progress := by
  cases m with
  | refer | enter | settle | undo | openBatch =>
      simp only [onPayment, entered]
      split <;> rfl
  | _ => rfl

theorem onPayment_status (m : Move) (row : Payment) :
    (m.onPayment row).status =
      match m.entered with
      | some payment => if row.id = payment.id then payment.status else row.status
      | none => row.status := by
  have h := congrArg Payment.Progress.status (m.onPayment_progress row)
  cases hentered : m.entered with
  | none =>
      rw [hentered] at h
      exact h
  | some payment =>
      rw [hentered] at h
      dsimp only at h ⊢
      split
      · next hid =>
          rw [if_pos hid] at h
          exact h
      · next hid =>
          rw [if_neg hid] at h
          exact h

/-- What the state of a control number never changes. -/
theorem onControlNumber_same {m : Move} {view : View} (h : m.Guard view) (row : ControlNumber) :
    (m.onControlNumber row).id = row.id ∧ (m.onControlNumber row).tenant = row.tenant ∧
      (m.onControlNumber row).value = row.value ∧ (m.onControlNumber row).owner = row.owner := by
  cases m with
  | editControlNumbers f =>
      obtain ⟨status, cancelledAt, hf⟩ := h row
      simp only [onControlNumber, hf, and_self]
  | _ => exact ⟨rfl, rfl, rfl, rfl⟩

theorem onBill_id (m : Move) (row : Bill) : (m.onBill row).id = row.id := by
  cases m with
  | openBill | cancelBill =>
      simp only [onBill]
      split <;> rfl
  | settle s =>
      simp only [onBill]
      split
      · split <;> rfl
      · rfl
  | _ => rfl

end Move

end Kusanya
