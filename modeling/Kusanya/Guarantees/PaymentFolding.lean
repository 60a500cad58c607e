import Kusanya.Guarantees.BillBalances
import Kusanya.Guarantees.TemplateNoninterference
import Kusanya.Invariants.BillRows
import Kusanya.Moves.Announcements

/-!
# Payments folded into a bill

One success after the other is applied to the control number of a bill.  The status of the bill,
the allocations, the receipts and the notifications follow the sums of the amounts, as long as
each receipt and each notification can be stored.
-/

namespace Kusanya

open ReadCommitted

/-! ## Statements -/

section Statements

variable {env : Env} {payment : Payment} {s t : DB}

/-- What the fold reads of a state. -/
def DB.billing (db : DB) : Directory × List ControlNumber × List Bill × List Payment ×
    List PaymentAllocation × List Receipt × List Notification :=
  (db.toDirectory, db.controlNumbers, db.bills, db.payments, db.allocations, db.receipts,
    db.notifications)

/-- The rest of a success, once it is booked and its bill is loaded. -/
def settleBill (env : Env) (payment : Payment) (cn : ControlNumber) (bill : Bill) : Tx Unit := do
  let bill ← allocateToBill env payment (some bill)
  let receipt ← generateReceipt env payment cn bill
  notifyPaymentSuccessful env payment cn bill payment.amount.cents.str receipt
  dispatch env payment cn bill payment.amount.cents.str "payment.successful"

theorem exec_onSuccessful_bill {cn : ControlNumber} {bill : Bill} (hauditable : env.Auditable)
    (hcn : s.controlNumbers.find? (·.id = payment.controlNumber) = some cn)
    (howner : cn.owner = .bill bill.id) (hbill : s.bills.find? (·.id = bill.id) = some bill) :
    ∃ u, u.billing = s.billing ∧
      (onSuccessful env payment {}).exec s = (settleBill env payment cn bill).exec u := by
  have hbound : cn.bill? = some bill.id := by rw [ControlNumber.bill?, howner]
  have hcorrelated := hauditable.1
  obtain ⟨s₁, haudit, h₁⟩ : ∃ u, (recordAuditEvent env "payment.successful" (some payment.tenant)
      (some (.payment payment.id))).exec s = .ok ((), u) ∧ u.billing = s.billing := by
    rw [exec_recordAuditEvent, if_pos hauditable]
    exact ⟨_, rfl, rfl⟩
  obtain ⟨s₂, hpost, h₂⟩ : ∃ u, (postSettlementLedgerEntries env payment).exec s₁ = .ok ((), u) ∧
      u.billing = s₁.billing := by
    simp only [postSettlementLedgerEntries, Txn.exec_bind, exec_postEntry _ hcorrelated]
    exact ⟨_, rfl, rfl⟩
  obtain ⟨u, hrecord, h₃⟩ : ∃ u, (recordPaymentSuccessful env payment).exec s₂ = .ok ((), u) ∧
      u.billing = s₂.billing := by
    simp only [recordPaymentSuccessful, Txn.exec_bind, exec_postEntry _ hcorrelated,
      exec_recordEvent _ hcorrelated]
    exact ⟨_, rfl, rfl⟩
  have hu : u.billing = s.billing := h₃.trans (h₂.trans h₁)
  have hnumbers : u.controlNumbers = s.controlNumbers := congrArg (·.2.1) hu
  have hbills : u.bills = s.bills := congrArg (·.2.2.1) hu
  have hload : (loadRelated payment {}).exec u = .ok ((cn, some bill), u) := by
    simp only [loadRelated, controlNumberOf, boundBill, getControlNumber, getBill, Txn.exec_bind,
      exec_getRow, hnumbers, hcn, hbound, hbills, hbill]
    rfl
  refine ⟨u, hu, ?_⟩
  simp only [onSuccessful, settleBill, Payment.amountText, Option.getD_none, Txn.exec_bind, haudit,
    hpost, hrecord, hload]

variable (env) in
theorem exec_billTransitionTo {bill : Bill} {new : BillStatus}
    (hallowed : new ∈ bill.status.allowedTransitions) :
    (bill.transitionTo env new).exec s = .ok (bill.moveTo env.now new,
      inBooks (·.updateBill bill.id (bill.moveTo env.now new).saveStatus) s) := by
  rw [Bill.transitionTo, Txn.exec_bind, exec_raiseIf, if_neg (not_not.mpr hallowed)]
  rfl

theorem amountPaid_addAllocation (b : Books) (row : PaymentAllocation) :
    (b.addAllocation row).amountPaid row.bill = b.amountPaid row.bill + row.amount.cents := by
  simp [Books.amountPaid, Books.addAllocation, List.filter_append]

/-! ## The status of a bill -/

/-- The status of a bill after successes that add up to `paid`. -/
def foldStatus (total paid : Money) (closed : Bool) : BillStatus :=
  if closed then .cancelled else if total ≤ paid then .paid else .partiallyPaid

/-- The row of the bill is in step with what has been paid. -/
structure RowOf (bill : Bill) (paid : Money) (closed : Bool) (row : Bill) (s : DB) : Prop where
  found : s.bills.find? (·.id = bill.id) = some row
  id : row.id = bill.id
  customerAccount : row.customerAccount = bill.customerAccount
  billNumber : row.billNumber = bill.billNumber
  totalAmount : row.totalAmount = bill.totalAmount
  status : row.status = foldStatus bill.totalAmount.cents paid closed ∨
    row.status = .active ∧ paid = 0 ∧ closed = false
  paid : s.toBooks.amountPaid bill.id = paid

theorem foldStatus_closed (total paid : Money) : foldStatus total paid true = .cancelled := rfl

theorem foldStatus_paid {total paid : Money} (h : total ≤ paid) :
    foldStatus total paid false = .paid := by
  rw [foldStatus, if_neg Bool.false_ne_true, if_pos h]

theorem foldStatus_partiallyPaid {total paid : Money} (h : ¬total ≤ paid) :
    foldStatus total paid false = .partiallyPaid := by
  rw [foldStatus, if_neg Bool.false_ne_true, if_neg h]

/-- Whether the bill still takes part in the fold. -/
theorem RowOf.open_or_done {bill row : Bill} {paid : Money} {closed : Bool}
    (h : RowOf bill paid closed row s) :
    ((row.status = .active ∨ row.status = .partiallyPaid) ∧ closed = false) ∨
      (row.status ≠ .active ∧ row.status ≠ .partiallyPaid ∧
        row.status = foldStatus bill.totalAmount.cents paid closed ∧
        (closed = true ∨ bill.totalAmount.cents ≤ paid)) := by
  rcases h.status with hstatus | ⟨hactive, -, hopen⟩
  · cases closed with
    | true =>
        rw [foldStatus_closed] at hstatus ⊢
        exact Or.inr ⟨by rw [hstatus]; decide, by rw [hstatus]; decide, hstatus, Or.inl rfl⟩
    | false =>
        by_cases hfull : bill.totalAmount.cents ≤ paid
        · rw [foldStatus_paid hfull] at hstatus ⊢
          exact Or.inr ⟨by rw [hstatus]; decide, by rw [hstatus]; decide, hstatus, Or.inr hfull⟩
        · rw [foldStatus_partiallyPaid hfull] at hstatus
          exact Or.inl ⟨Or.inr hstatus, rfl⟩
  · exact Or.inl ⟨Or.inl hactive, hopen⟩

/-- A transition saves the row as the object has it. -/
theorem find?_updateBill (env : Env) {row : Bill}
    (hfound : s.bills.find? (·.id = row.id) = some row) (new : BillStatus) :
    (inBooks (·.updateBill row.id (row.moveTo env.now new).saveStatus) s).bills.find?
      (·.id = row.id) = some (row.moveTo env.now new) := by
  have hkept : ∀ r : Bill, (if r.id = row.id then (row.moveTo env.now new).saveStatus r else r).id =
      r.id := by
    intro r
    split
    · rfl
    · rfl
  have hmap : (s.bills.map fun r =>
      if r.id = row.id then (row.moveTo env.now new).saveStatus r else r).find?
        (fun r => r.id = row.id) = _ := Support.find?_map_key hkept row.id
  rw [hfound, Option.map_some, if_pos rfl] at hmap
  exact hmap

/-- What an allocation leaves behind, besides the row of the bill. -/
structure AllocatesTo (payment : Payment) (bill : ℕ) (s t : DB) : Prop where
  directory : t.toDirectory = s.toDirectory
  controlNumbers : t.controlNumbers = s.controlNumbers
  payments : t.payments = s.payments
  allocations : t.allocations = s.allocations ++ [payment.allocationTo bill]
  receipts : t.receipts = s.receipts
  notifications : t.notifications = s.notifications

theorem exec_allocateToBill_fold (env : Env) (payment : Payment) {bill row : Bill} {paid : Money}
    {closed : Bool}
    (hrow : RowOf bill paid closed row s) :
    ∃ row' u, (allocateToBill env payment (some row)).exec s = .ok (some row', u) ∧
      RowOf bill (paid + payment.amount.cents) closed row' u ∧
      row'.status = foldStatus bill.totalAmount.cents (paid + payment.amount.cents) closed ∧
      AllocatesTo payment bill.id s u := by
  have hamount := payment.amount.pos
  obtain ⟨v, hv⟩ : ∃ v, v = inBooks (·.addAllocation
      { tenant := payment.tenant, payment := payment.id, bill := row.id
        amount := payment.amount.toNumeric }) s := ⟨_, rfl⟩
  have hpaid : v.toBooks.amountPaid bill.id = paid + payment.amount.cents := by
    rw [← hrow.paid, ← hrow.id, hv]
    exact amountPaid_addAllocation s.toBooks (payment.allocationTo row.id)
  have hbalance : row.balance.exec v =
      .ok (bill.totalAmount.cents - (paid + payment.amount.cents), v) := by
    rw [Bill.balance, Txn.exec_fetch, hrow.id, hrow.totalAmount, hpaid]
  have hallocates : AllocatesTo payment bill.id s v := by
    rw [hv, ← hrow.id]
    exact ⟨rfl, rfl, rfl, rfl, rfl, rfl⟩
  have hkept : v.bills = s.bills := by rw [hv]; rfl
  have hstays : row.status =
      foldStatus bill.totalAmount.cents (paid + payment.amount.cents) closed →
      RowOf bill (paid + payment.amount.cents) closed row v := fun hstatus =>
    ⟨by rw [hkept]; exact hrow.found, hrow.id, hrow.customerAccount, hrow.billNumber,
      hrow.totalAmount, Or.inl hstatus, hpaid⟩
  have hmoves : ∀ new,
    new = foldStatus bill.totalAmount.cents (paid + payment.amount.cents) closed →
      RowOf bill (paid + payment.amount.cents) closed (row.moveTo env.now new)
        (inBooks (·.updateBill row.id (row.moveTo env.now new).saveStatus) v) := by
    intro new hnew
    have hfound : v.bills.find? (·.id = row.id) = some row := by
      rw [hrow.id, hkept]
      exact hrow.found
    refine ⟨?_, hrow.id, hrow.customerAccount, hrow.billNumber, hrow.totalAmount, Or.inl hnew,
      hpaid⟩
    have hupdated := find?_updateBill env hfound new
    simp only [hrow.id] at hupdated ⊢
    exact hupdated
  rw [allocateToBill, Txn.exec_bind, exec_onBooks]
  dsimp only
  rw [← hv, Txn.exec_ite]
  rcases hrow.open_or_done with ⟨hopen, rfl⟩ | ⟨hactive, hpart, hstatus, hdone⟩
  · have hstatus : ¬(row.status ≠ .active ∧ row.status ≠ .partiallyPaid) := by
      rintro ⟨hactive, hpart⟩
      exact hopen.elim hactive hpart
    rw [if_neg hstatus, Txn.exec_bind, hbalance]
    dsimp only
    rw [Txn.exec_ite]
    by_cases hfull : bill.totalAmount.cents ≤ paid + payment.amount.cents
    · -- the payment completes the bill
      have hallowed : BillStatus.paid ∈ row.status.allowedTransitions := by
        rcases hopen with h | h
        · rw [h]; decide
        · rw [h]; decide
      have hnew := (foldStatus_paid hfull).symm
      rw [if_pos (sub_nonpos.mpr hfull), Txn.exec_bind, exec_billTransitionTo env hallowed]
      exact ⟨_, _, rfl, hmoves _ hnew, hnew, hallocates.directory, hallocates.controlNumbers,
        hallocates.payments, hallocates.allocations, hallocates.receipts, hallocates.notifications⟩
    · have hnew := (foldStatus_partiallyPaid hfull).symm
      rw [if_neg fun h => hfull (sub_nonpos.mp h), Txn.exec_ite]
      by_cases hactive : row.status = .active
      · have hallowed : BillStatus.partiallyPaid ∈ row.status.allowedTransitions := by
          rw [hactive]; decide
        rw [if_pos hactive, Txn.exec_bind, exec_billTransitionTo env hallowed]
        exact ⟨_, _, rfl, hmoves _ hnew, hnew, hallocates.directory, hallocates.controlNumbers,
          hallocates.payments, hallocates.allocations, hallocates.receipts,
          hallocates.notifications⟩
      · have hsame := (hopen.resolve_left hactive).trans hnew
        rw [if_neg hactive]
        exact ⟨row, v, rfl, hstays hsame, hsame, hallocates⟩
  · have hsame : row.status =
        foldStatus bill.totalAmount.cents (paid + payment.amount.cents) closed := by
      rw [hstatus]
      cases closed with
      | true => rfl
      | false =>
          have hfull := hdone.resolve_left Bool.false_ne_true
          have hmore := le_add_of_le_of_nonneg hfull (le_of_lt hamount)
          rw [foldStatus_paid hfull, foldStatus_paid hmore]
    rw [if_pos ⟨hactive, hpart⟩]
    exact ⟨row, v, rfl, hstays hsame, hsame, hallocates⟩

end Statements

/-! ## Receipts and notifications -/

/-- The event that a success notifies. -/
def foldEvent (total paid : Money) (closed : Bool) : NotificationEventType :=
  if closed then .paymentSuccessful
  else if total ≤ paid then .billFullyPaid
  else .paymentPartial

theorem successEvent_fold {row : Bill} {total paid : Money} {closed : Bool}
    (h : row.status = foldStatus total paid closed) :
    successEvent (some row) = foldEvent total paid closed := by
  rw [successEvent, h]
  cases closed with
  | true => rfl
  | false =>
      by_cases hfull : total ≤ paid
      · rw [foldStatus_paid hfull, foldEvent, if_neg Bool.false_ne_true, if_pos hfull, if_pos rfl]
      · rw [foldStatus_partiallyPaid hfull, foldEvent, if_neg Bool.false_ne_true, if_neg hfull]
        rfl

/-- The rows behind a payment of the bill, as foreign keys give them. -/
structure Parties where
  account : CustomerAccount
  customer : Customer
  tenant : Tenant
  provider : PaymentProvider

structure Parties.Of (parties : Parties) (d : Directory) (bill : Bill) (payment : Payment) :
    Prop where
  account : d.accounts.find? (·.id = bill.customerAccount) = some parties.account
  customer : d.customers.find? (·.id = parties.account.customer) = some parties.customer
  tenant : d.tenants.find? (·.id = payment.tenant) = some parties.tenant
  provider : d.providers.find? (·.id = payment.provider) = some parties.provider

/-- The notifications of a success after which `remaining` is left to pay. -/
def successNotices (env : Env) (db : DB) (payment : Payment) (cn : ControlNumber) (bill : Bill)
    (parties : Parties) (eventType : NotificationEventType) (remaining : Money) :
    Except Error (List Notification) :=
  notices env db payment.tenant eventType
    (notificationContext payment cn (some bill) parties.customer parties.tenant
      [("paid_amount", payment.amount.cents.str),
       ("remaining_balance", remaining.str),
       ("receipt_number", env.gen.receiptNumber payment.id)])
    parties.customer.email parties.customer.phoneNumber

/-- The audit row, the receipt and the notifications of a success can be stored. -/
structure Storable (env : Env) (db : DB) (used : List (ℕ × String)) (payment : Payment)
    (cn : ControlNumber) (bill : Bill) (parties : Parties) (eventType : NotificationEventType)
    (remaining : Money) : Prop where
  auditable : env.Auditable
  loaded : parties.Of db.toDirectory bill payment
  label : Varchar 200 (payment.channel.getD parties.provider.label)
  number : (payment.tenant, env.gen.receiptNumber payment.id) ∉ used
  notices : ∃ rows, successNotices env db payment cn bill parties eventType remaining = .ok rows

section Receipts

variable {env : Env} {payment : Payment} {cn : ControlNumber} {bill row : Bill} {parties : Parties}
  {paid : Money} {s t : DB}

/-- The numbers of the receipts, tenant by tenant. -/
def DB.receiptNumbers (db : DB) : List (ℕ × String) :=
  db.receipts.map fun r => (r.tenant, r.receiptNumber)

theorem receiptClash_fold {receipt : Receipt} (hnone : s.toBooks.receiptOf receipt.payment = none) :
    s.toBooks.receiptClash receipt = true ↔
      (receipt.tenant, receipt.receiptNumber) ∈ s.receiptNumbers := by
  rw [Books.receiptClash, List.any_eq_true, DB.receiptNumbers, List.mem_map]
  constructor
  · rintro ⟨r, hr, hclash⟩
    refine ⟨r, hr, ?_⟩
    have hother : r.payment ≠ receipt.payment := by
      simpa using List.find?_eq_none.mp hnone r hr
    simpa [hother] using hclash
  · rintro ⟨r, hr, heq⟩
    refine ⟨r, hr, ?_⟩
    obtain ⟨htenant, hnumber⟩ := Prod.mk.inj heq
    simp [htenant, hnumber]

theorem exec_customerOf_parties (h : parties.Of s.toDirectory bill payment) :
    (customerOf bill.customerAccount).exec s = .ok (parties.customer, s) := by
  simp only [customerOf, getAccount, getCustomer, Txn.exec_bind, exec_getRow, h.account,
    h.customer]

theorem exec_generateReceipt_fold (hparties : parties.Of s.toDirectory bill payment)
    (haccount : row.customerAccount = bill.customerAccount)
    (hlabel : Varchar 200 (payment.channel.getD parties.provider.label))
    (hnumber : (payment.tenant, env.gen.receiptNumber payment.id) ∉ s.receiptNumbers)
    (hnone : s.toBooks.receiptOf payment.id = none) (hstatus : payment.status = .successful)
    {remaining : Numeric}
    (hbalance : row.totalAmount.cents - s.toBooks.amountPaid row.id = remaining.cents) :
    (generateReceipt env payment cn (some row)).exec s =
      .ok (newReceipt env payment cn (some row) parties.customer parties.tenant parties.provider
        (some remaining), inBooks (·.addReceipt (newReceipt env payment cn (some row)
          parties.customer parties.tenant parties.provider (some remaining))) s) := by
  have hcustomer := exec_customerOf_parties hparties
  have hremaining : (remainingBalance (some row)).exec s = .ok (some remaining, s) := by
    have hfits : Numeric.ofMoney? remaining.cents = some remaining := dif_pos remaining.fits
    simp only [remainingBalance, Bill.balance, Txn.exec_bind, Txn.exec_fetch, hbalance,
      storeNumeric, hfits, Txn.pure_eq_ret, Txn.exec_ret]
  have hinsert : (insertReceipt (newReceipt env payment cn (some row) parties.customer
      parties.tenant parties.provider (some remaining))).exec s =
      .ok ((), inBooks (·.addReceipt (newReceipt env payment cn (some row) parties.customer
        parties.tenant parties.provider (some remaining))) s) := by
    have hclash : ¬s.toBooks.receiptClash (newReceipt env payment cn (some row) parties.customer
        parties.tenant parties.provider (some remaining)) = true := by
      rw [receiptClash_fold hnone]
      exact hnumber
    have hwidth : Varchar 200 (newReceipt env payment cn (some row) parties.customer parties.tenant
        parties.provider (some remaining)).paymentChannelLabel := hlabel
    simp only [insertReceipt, Txn.exec_bind, exec_checkVarchar, Txn.exec_acquire, Txn.exec_fetch,
      exec_raiseIf, exec_onBooks, if_pos hwidth, if_neg hclash]
  simp only [generateReceipt, Txn.exec_bind, Txn.exec_fetch, hnone, hstatus, exec_raiseIf, ne_eq,
    not_true_eq_false, if_false, accountBehind, haccount, hcustomer, getTenant, getProvider,
    exec_getRow, hparties.tenant, hparties.provider, hremaining, hinsert, Txn.pure_eq_ret,
    Txn.exec_ret]

theorem exec_notifyPaymentSuccessful_fold (hparties : parties.Of s.toDirectory bill payment)
    (haccount : row.customerAccount = bill.customerAccount)
    (hnumber : row.billNumber = bill.billNumber) {receipt : Receipt}
    (hreceipt : receipt.receiptNumber = env.gen.receiptNumber payment.id) {remaining : Money}
    (hbalance : row.totalAmount.cents - s.toBooks.amountPaid row.id = remaining) :
    (notifyPaymentSuccessful env payment cn (some row) payment.amount.cents.str receipt).exec s =
      (sendNotification env payment.tenant (successEvent (some row))
        (notificationContext payment cn (some bill) parties.customer parties.tenant
          [("paid_amount", payment.amount.cents.str),
           ("remaining_balance", remaining.str),
           ("receipt_number", env.gen.receiptNumber payment.id)])
        parties.customer.email parties.customer.phoneNumber).exec s := by
  have hcustomer := exec_customerOf_parties hparties
  have hcontext : ∀ extra, notificationContext payment cn (some row) parties.customer
      parties.tenant extra = notificationContext payment cn (some bill) parties.customer
        parties.tenant extra := by
    intro extra
    rw [notificationContext, notificationContext, Option.map_some, Option.map_some, hnumber]
  simp only [notifyPaymentSuccessful, balanceText, Bill.balance, notify, accountBehind,
    Txn.exec_bind, Txn.exec_fetch, Txn.pure_eq_ret, Txn.exec_ret, hbalance, haccount, hcustomer,
    getTenant, exec_getRow, hparties.tenant, hreceipt, hcontext]

theorem insertReceipt_fits {receipt : Receipt}
    (h : (insertReceipt receipt).exec s = .ok ((), t)) :
    Varchar 200 receipt.paymentChannelLabel ∧ ¬s.toBooks.receiptClash receipt = true := by
  rw [insertReceipt, Txn.exec_bind, exec_checkVarchar] at h
  by_cases hlabel : Varchar 200 receipt.paymentChannelLabel
  · rw [if_pos hlabel] at h
    simp only [Txn.exec_bind, Txn.exec_acquire, Txn.exec_fetch, exec_raiseIf] at h
    refine ⟨hlabel, fun hclash => ?_⟩
    rw [if_pos hclash] at h
    cases h
  · rw [if_neg hlabel] at h
    cases h

theorem remainingBalance_keeps {bill : Option Bill} :
    (remainingBalance bill).Keeps (fun s : DB => s) := by
  cases bill with
  | none => exact Txn.keeps_ret _
  | some bill =>
      apply Txn.keeps_bind (Txn.keeps_fetch _ _)
      intro balance
      apply Txn.keeps_bind
      · rw [storeNumeric]
        split
        · exact Txn.keeps_ret _
        · exact Txn.keeps_throw _
      · exact fun _ => Txn.keeps_ret _

/-- A receipt that is stored finds the rows behind its payment, and has a new number. -/
theorem parties_of_generateReceipt (haccount : row.customerAccount = bill.customerAccount)
    (hnone : s.toBooks.receiptOf payment.id = none) {receipt : Receipt}
    (h : (generateReceipt env payment cn (some row)).exec s = .ok (receipt, t)) :
    ∃ parties : Parties, parties.Of s.toDirectory bill payment ∧
      Varchar 200 (payment.channel.getD parties.provider.label) ∧
      (payment.tenant, env.gen.receiptNumber payment.id) ∉ s.receiptNumbers := by
  rw [generateReceipt, Txn.exec_bind, Txn.exec_fetch, hnone] at h
  dsimp only at h
  obtain ⟨_, s₀, hraise, h₀⟩ := (Txn.exec_bind_ok _).mp h
  obtain ⟨account, s₁, hbehind, h₁⟩ := (Txn.exec_bind_ok _).mp h₀
  obtain ⟨customer, s₂, hcustomer, h₂⟩ := (Txn.exec_bind_ok _).mp h₁
  obtain ⟨tenant, s₃, htenant, h₃⟩ := (Txn.exec_bind_ok _).mp h₂
  obtain ⟨provider, s₄, hprovider, h₄⟩ := (Txn.exec_bind_ok _).mp h₃
  obtain ⟨remaining, s₅, hremaining, h₅⟩ := (Txn.exec_bind_ok _).mp h₄
  obtain ⟨_, s₆, hinsert, -⟩ := (Txn.exec_bind_ok _).mp h₅
  rw [exec_raiseIf] at hraise
  split at hraise
  · cases hraise
  obtain ⟨-, rfl⟩ := Prod.mk.inj (Except.ok.inj hraise)
  obtain ⟨rfl, rfl⟩ := Prod.mk.inj (Except.ok.inj hbehind)
  obtain ⟨found, _, haccountRow, hget⟩ := (Txn.exec_bind_ok _).mp hcustomer
  obtain ⟨hfound, rfl⟩ := exec_getRow_ok haccountRow
  obtain ⟨hfoundCustomer, rfl⟩ := exec_getRow_ok hget
  obtain ⟨hfoundTenant, rfl⟩ := exec_getRow_ok htenant
  obtain ⟨hfoundProvider, rfl⟩ := exec_getRow_ok hprovider
  obtain rfl : s₅ = _ := remainingBalance_keeps _ _ _ hremaining
  obtain ⟨hlabel, hclash⟩ := insertReceipt_fits hinsert
  refine ⟨⟨found, customer, tenant, provider⟩, ?_, hlabel, ?_⟩
  · rw [haccount] at hfound
    exact ⟨hfound, hfoundCustomer, hfoundTenant, hfoundProvider⟩
  · rw [receiptClash_fold hnone] at hclash
    exact hclash

/-- What the rest of a success leaves behind. -/
structure SettlesBill (env : Env) (payment : Payment) (cn : ControlNumber) (bill : Bill)
    (parties : Parties) (paid : Money) (closed : Bool) (s t : DB) : Prop where
  row : ∃ row, RowOf bill paid closed row t ∧
    row.status = foldStatus bill.totalAmount.cents paid closed
  directory : t.toDirectory = s.toDirectory
  controlNumbers : t.controlNumbers = s.controlNumbers
  payments : t.payments = s.payments
  allocations : t.allocations = s.allocations ++ [payment.allocationTo bill.id]
  receipts : ∃ receipt, t.receipts = s.receipts ++ [receipt] ∧ receipt.payment = payment.id ∧
    receipt.tenant = payment.tenant ∧
    receipt.receiptNumber = env.gen.receiptNumber payment.id ∧
    receipt.remainingBalanceAtIssue.map (·.cents) = some (bill.totalAmount.cents - paid)
  notifications : ∃ rows, t.notifications = s.notifications ++ rows ∧
    successNotices env s payment cn bill parties (foldEvent bill.totalAmount.cents paid closed)
      (bill.totalAmount.cents - paid) = .ok rows

variable (env payment cn bill parties) in
theorem successNotices_congr (h : t.toDirectory = s.toDirectory)
    (eventType : NotificationEventType) (remaining : Money) :
    successNotices env t payment cn bill parties eventType remaining =
      successNotices env s payment cn bill parties eventType remaining := by
  rw [successNotices, successNotices, notices, notices, noticeOn, noticeOn, noticeOn, noticeOn,
    templateFor, templateFor, templateFor, templateFor, h]

variable {closed : Bool}

variable (payment) in
/-- What can be stored is stored. -/
theorem settleBill_ok (hrow : RowOf bill paid closed row s)
    (hnone : s.toBooks.receiptOf payment.id = none) (hstatus : payment.status = .successful)
    (hfits : (bill.totalAmount.cents - (paid + payment.amount.cents)).natAbs < 10 ^ 18)
    (hstorable : Storable env s s.receiptNumbers payment cn bill parties
      (foldEvent bill.totalAmount.cents (paid + payment.amount.cents) closed)
      (bill.totalAmount.cents - (paid + payment.amount.cents))) :
    ∃ t, (settleBill env payment cn row).exec s = .ok ((), t) ∧
      SettlesBill env payment cn bill parties (paid + payment.amount.cents) closed s t := by
  obtain ⟨row', u, hallocate, hrow', hnew, hu⟩ :=
    exec_allocateToBill_fold env payment hrow
  have hnumbers : u.receiptNumbers = s.receiptNumbers := by
    rw [DB.receiptNumbers, DB.receiptNumbers, hu.receipts]
  have hnone' : u.toBooks.receiptOf payment.id = none := by
    rw [Books.receiptOf, hu.receipts]
    exact hnone
  have hbalance : row'.totalAmount.cents - u.toBooks.amountPaid row'.id =
      bill.totalAmount.cents - (paid + payment.amount.cents) := by
    rw [hrow'.totalAmount, hrow'.id, hrow'.paid]
  have hparties : parties.Of u.toDirectory bill payment := by
    rw [hu.directory]
    exact hstorable.loaded
  obtain ⟨remaining, hremaining⟩ : ∃ remaining : Numeric,
      bill.totalAmount.cents - (paid + payment.amount.cents) = remaining.cents :=
    ⟨⟨_, hfits⟩, rfl⟩
  have hreceipt : (generateReceipt env payment cn (some row')).exec u = _ :=
    exec_generateReceipt_fold hparties hrow'.customerAccount hstorable.label
      (by rw [hnumbers]; exact hstorable.number) hnone' hstatus (hbalance.trans hremaining)
  generalize hr : newReceipt env payment cn (some row') parties.customer parties.tenant
    parties.provider (some remaining) = receipt at hreceipt
  have hnumber : receipt.receiptNumber = env.gen.receiptNumber payment.id := by rw [← hr]; rfl
  obtain ⟨w, hw⟩ : ∃ w, w = inBooks (·.addReceipt receipt) u := ⟨_, rfl⟩
  have hdirectory : w.toDirectory = s.toDirectory := by
    rw [hw]
    exact hu.directory
  obtain ⟨rows, hrows⟩ := hstorable.notices
  have hsame : successNotices env w payment cn bill parties (successEvent (some row'))
      (bill.totalAmount.cents - (paid + payment.amount.cents)) = .ok rows := by
    rw [successEvent_fold hnew, successNotices_congr env payment cn bill parties hdirectory, hrows]
  have hpartiesW : parties.Of w.toDirectory bill payment := by
    rw [hdirectory]
    exact hstorable.loaded
  have hbalanceW : row'.totalAmount.cents - w.toBooks.amountPaid row'.id =
      bill.totalAmount.cents - (paid + payment.amount.cents) := by
    rw [hw]
    exact hbalance
  have hnotify : (notifyPaymentSuccessful env payment cn (some row') payment.amount.cents.str
      receipt).exec w = .ok ((), inTrail (·.addNotifications rows) w) := by
    rw [exec_notifyPaymentSuccessful_fold hpartiesW hrow'.customerAccount hrow'.billNumber hnumber
      hbalanceW, exec_sendNotification]
    rw [successNotices] at hsame
    rw [hsame]
  have hexec : (settleBill env payment cn row).exec s =
      (dispatch env payment cn (some row') payment.amount.cents.str "payment.successful").exec
        (inTrail (·.addNotifications rows) w) := by
    simp only [settleBill, Txn.exec_bind, hallocate, hreceipt, ← hw, hnotify]
  rw [dispatch, exec_dispatchEvent _ _ _ hstorable.auditable.1] at hexec
  refine ⟨_, hexec, ?_⟩
  rw [hw]
  constructor
  · exact ⟨row', ⟨hrow'.found, hrow'.id, hrow'.customerAccount, hrow'.billNumber,
      hrow'.totalAmount, hrow'.status, hrow'.paid⟩, hnew⟩
  · exact hu.directory
  · exact hu.controlNumbers
  · exact hu.payments
  · exact hu.allocations
  · refine ⟨receipt, congrArg (· ++ [receipt]) hu.receipts, ?_, ?_, hnumber, ?_⟩
    · rw [← hr]; rfl
    · rw [← hr]; rfl
    · rw [← hr, hremaining]; rfl
  · exact ⟨rows, congrArg (· ++ rows) hu.notifications, hrows⟩

variable (payment) in
/-- Where the rest of a success ends, everything could be stored. -/
theorem storable_of_settleBill (hauditable : env.Auditable) (hrow : RowOf bill paid closed row s)
    (hnone : s.toBooks.receiptOf payment.id = none) (hstatus : payment.status = .successful)
    (hfits : (bill.totalAmount.cents - (paid + payment.amount.cents)).natAbs < 10 ^ 18)
    (h : (settleBill env payment cn row).exec s = .ok ((), t)) :
    ∃ parties, Storable env s s.receiptNumbers payment cn bill parties
      (foldEvent bill.totalAmount.cents (paid + payment.amount.cents) closed)
      (bill.totalAmount.cents - (paid + payment.amount.cents)) := by
  obtain ⟨row', u, hallocate, hrow', hnew, hu⟩ :=
    exec_allocateToBill_fold env payment hrow
  have hnone' : u.toBooks.receiptOf payment.id = none := by
    rw [Books.receiptOf, hu.receipts]
    exact hnone
  have hbalance : row'.totalAmount.cents - u.toBooks.amountPaid row'.id =
      bill.totalAmount.cents - (paid + payment.amount.cents) := by
    rw [hrow'.totalAmount, hrow'.id, hrow'.paid]
  rw [settleBill, Txn.exec_bind, hallocate] at h
  obtain ⟨receipt, w, hreceipt, h₁⟩ := (Txn.exec_bind_ok _).mp h
  obtain ⟨_, v, hnotify, -⟩ := (Txn.exec_bind_ok _).mp h₁
  obtain ⟨parties, hparties, hlabel, hnumber⟩ :=
    parties_of_generateReceipt hrow'.customerAccount hnone' hreceipt
  obtain ⟨remaining, hremaining⟩ : ∃ remaining : Numeric,
      bill.totalAmount.cents - (paid + payment.amount.cents) = remaining.cents :=
    ⟨⟨_, hfits⟩, rfl⟩
  rw [exec_generateReceipt_fold hparties hrow'.customerAccount hlabel hnumber hnone' hstatus
    (hbalance.trans hremaining)] at hreceipt
  obtain ⟨hr, hw⟩ := Prod.mk.inj (Except.ok.inj hreceipt)
  have hdirectory : w.toDirectory = u.toDirectory := by rw [← hw]; rfl
  have hpartiesW : parties.Of w.toDirectory bill payment := by
    rw [hdirectory]
    exact hparties
  have hbalanceW : row'.totalAmount.cents - w.toBooks.amountPaid row'.id =
      bill.totalAmount.cents - (paid + payment.amount.cents) := by
    rw [← hw]
    exact hbalance
  have hreceiptNumber : receipt.receiptNumber = env.gen.receiptNumber payment.id := by
    rw [← hr]; rfl
  rw [exec_notifyPaymentSuccessful_fold hpartiesW hrow'.customerAccount hrow'.billNumber
    hreceiptNumber hbalanceW, successEvent_fold hnew] at hnotify
  obtain ⟨rows, hrows, -⟩ := exec_sendNotification_ok hnotify
  have hnumbers : u.receiptNumbers = s.receiptNumbers := by
    rw [DB.receiptNumbers, DB.receiptNumbers, hu.receipts]
  refine ⟨parties, hauditable, ?_, hlabel, by rw [← hnumbers]; exact hnumber, rows, ?_⟩
  · rw [← hu.directory]
    exact hparties
  · rw [← successNotices_congr env payment cn bill parties (hdirectory.trans hu.directory)]
    exact hrows

/-- Who is notified of which event. -/
def Notification.heading (row : Notification) :
    NotificationEventType × NotificationChannel × String :=
  (row.eventType, row.channel, row.recipient)

/-- One notification for each address of the customer. -/
def headingsTo (customer : Customer) (eventType : NotificationEventType) :
    List (NotificationEventType × NotificationChannel × String) :=
  (if customer.email = "" then [] else [(eventType, .email, customer.email)]) ++
    if customer.phoneNumber = "" then [] else [(eventType, .sms, customer.phoneNumber)]

theorem noticeOn_heading {tenant : ℕ} {eventType : NotificationEventType}
    {channel : NotificationChannel} {context : List (String × String)} {recipient : String}
    {rows : List Notification}
    (h : noticeOn env s tenant eventType channel context recipient = .ok rows) :
    rows.map Notification.heading =
      if recipient = "" then [] else [(eventType, channel, recipient)] := by
  rcases noticeOn_ok h with ⟨hblank, rfl⟩ | ⟨hsent, row, rfl, -, hevent, hchannel, hrecipient⟩
  · rw [if_pos hblank]
    rfl
  · rw [if_neg hsent, List.map_singleton, Notification.heading, hevent, hchannel, hrecipient]

theorem successNotices_headings {eventType : NotificationEventType} {remaining : Money}
    {rows : List Notification}
    (h : successNotices env s payment cn bill parties eventType remaining = .ok rows) :
    rows.map Notification.heading = headingsTo parties.customer eventType := by
  rw [successNotices, notices] at h
  split at h
  · next emails texts hemails htexts =>
      obtain rfl := Except.ok.inj h
      rw [List.map_append, noticeOn_heading hemails, noticeOn_heading htexts, headingsTo]
  · cases h
  · cases h

theorem Storable.congr {used : List (ℕ × String)} {eventType : NotificationEventType}
    {remaining : Money} (h : t.toDirectory = s.toDirectory) :
    Storable env t used payment cn bill parties eventType remaining ↔
      Storable env s used payment cn bill parties eventType remaining := by
  have hnotices := successNotices_congr env payment cn bill parties h eventType remaining
  constructor
  · rintro ⟨hauditable, hloaded, hlabel, hnumber, hrows⟩
    rw [h] at hloaded
    rw [hnotices] at hrows
    exact ⟨hauditable, hloaded, hlabel, hnumber, hrows⟩
  · rintro ⟨hauditable, hloaded, hlabel, hnumber, hrows⟩
    rw [← h] at hloaded
    rw [← hnotices] at hrows
    exact ⟨hauditable, hloaded, hlabel, hnumber, hrows⟩

end Receipts

/-! ## The fold -/

/-- `_apply_outcome(payment, SUCCESSFUL)` on the payment as it is in the database. -/
def confirmPayment (env : Env) (id : ℕ) : Tx Unit := do
  let payment ← getRow (.payment id) fun db => db.toBooks.payment? id
  let _ ← applyOutcome env payment {} .successful
  pure ()

/-- `cancel_bill` on the bill as it is in the database. -/
def cancelRow (env : Env) (id : ℕ) : Tx Unit := do
  let bill ← getBill id
  let _ ← cancelBill env bill
  pure ()

inductive FoldStep where
  | confirm (env : Env) (payment : Payment)
  | cancel (env : Env)

/-- The payments that the steps confirm. -/
def FoldStep.payments : List FoldStep → List Payment
  | [] => []
  | confirm _ payment :: steps => payment :: payments steps
  | cancel _ :: steps => payments steps

/-- The bill is cancelled once at most, before it is paid. -/
def FoldStep.Legal (total : Money) : Money → Bool → List FoldStep → Prop
  | _, _, [] => True
  | paid, closed, confirm _ payment :: steps =>
      Legal total (paid + payment.amount.cents) closed steps
  | paid, closed, cancel _ :: steps => closed = false ∧ paid < total ∧ Legal total paid true steps

/-- What a success has done, where `paid` includes its amount. -/
structure AppliedTo (bill : Bill) (paid : Money) (closed : Bool) (payment : Payment) (s t : DB) :
    Prop where
  status : (t.bills.find? (·.id = bill.id)).map (·.status) =
    some (foldStatus bill.totalAmount.cents paid closed)
  allocation : t.allocations.filter (·.payment = payment.id) = [payment.allocationTo bill.id]
  receipt : ∃ receipt, t.receipts.filter (·.payment = payment.id) = [receipt] ∧
    receipt.remainingBalanceAtIssue.map (·.cents) = some (bill.totalAmount.cents - paid)
  notices : ∃ customer ∈ s.customers, ∃ rows, t.notifications = s.notifications ++ rows ∧
    rows.map Notification.heading =
      headingsTo customer (foldEvent bill.totalAmount.cents paid closed)

/-- Every success of the run is applied, on top of those before it. -/
def Folded (bill : Bill) : Money → Bool → DB → List FoldStep → Prop
  | _, _, _, [] => True
  | paid, closed, s, .confirm env payment :: steps =>
      ∃ t, (confirmPayment env payment.id).exec s = .ok ((), t) ∧
        AppliedTo bill (paid + payment.amount.cents) closed payment s t ∧
        Folded bill (paid + payment.amount.cents) closed t steps
  | paid, _, s, .cancel env :: steps =>
      ∀ t, (cancelRow env bill.id).exec s = .ok ((), t) → Folded bill paid true t steps

/-- The audit rows, the receipts and the notifications of the run can be stored. -/
def AllStorable (db : DB) (bill : Bill) (cn : ControlNumber) :
    Money → Bool → List (ℕ × String) → List FoldStep → Prop
  | _, _, _, [] => True
  | paid, closed, used, .confirm env payment :: steps =>
      (∃ parties, Storable env db used payment cn bill parties
        (foldEvent bill.totalAmount.cents (paid + payment.amount.cents) closed)
        (bill.totalAmount.cents - (paid + payment.amount.cents))) ∧
      AllStorable db bill cn (paid + payment.amount.cents) closed
        (used ++ [(payment.tenant, env.gen.receiptNumber payment.id)]) steps
  | paid, _, used, .cancel env :: steps =>
      env.Auditable ∧ (∃ account, db.accounts.find? (·.id = bill.customerAccount) = some account) →
        AllStorable db bill cn paid true used steps

section Fold

variable {db s t : DB} {bill : Bill} {cn : ControlNumber} {paid : Money} {closed : Bool}
  {used : List (ℕ × String)} {env : Env} {payment : Payment} {waiting : List Payment}
  {steps : List FoldStep}

/-- The payment is still to be applied. -/
structure Waits (cn : ControlNumber) (payment : Payment) (s : DB) : Prop where
  found : s.toBooks.payment? payment.id = some payment
  number : payment.controlNumber = cn.id
  allowed : PaymentStatus.successful ∈ payment.status.allowedTransitions
  reason : Varchar 255 payment.failureReason
  receipt : ∀ r ∈ s.receipts, r.payment ≠ payment.id
  allocation : ∀ a ∈ s.allocations, a.payment ≠ payment.id

theorem Waits.not_successful (hwaits : Waits cn payment s) : payment.status ≠ .successful := by
  intro hstatus
  have hallowed := hwaits.allowed
  rw [hstatus] at hallowed
  revert hallowed
  decide

/-- The state after successes that add up to `paid`. -/
structure Folding (db : DB) (bill : Bill) (cn : ControlNumber) (paid : Money) (closed : Bool)
    (used : List (ℕ × String)) (waiting : List Payment) (s : DB) : Prop where
  directory : s.toDirectory = db.toDirectory
  number : s.controlNumbers.find? (·.id = cn.id) = some cn
  owner : cn.owner = .bill bill.id
  row : ∃ row, RowOf bill paid closed row s
  waits : ∀ p ∈ waiting, Waits cn p s
  distinct : (waiting.map (·.id)).Nodup
  used : s.receiptNumbers = used
  nonneg : 0 ≤ paid
  fits : bill.totalAmount.cents + paid + (waiting.map (·.amount.cents)).sum < 10 ^ 18

/-- The payment enters `SUCCESSFUL`, and the rest follows. -/
theorem exec_confirmPayment {row : Bill} (hauditable : env.Auditable) (hwaits : Waits cn payment s)
    (hnumber : s.controlNumbers.find? (·.id = cn.id) = some cn) (howner : cn.owner = .bill bill.id)
    (hrow : RowOf bill paid closed row s) :
    ∃ u moved, (confirmPayment env payment.id).exec s =
        (settleBill env moved cn row).exec u ∧
      moved = payment.moveTo env.now .successful "" ∧ RowOf bill paid closed row u ∧
      u.toDirectory = s.toDirectory ∧ u.controlNumbers = s.controlNumbers ∧
      u.payments = s.payments.map (fun p => if p.id = payment.id then moved.saveStatus p else p) ∧
      u.allocations = s.allocations ∧ u.receipts = s.receipts ∧
      u.notifications = s.notifications := by
  obtain ⟨moved, hmoved⟩ : ∃ moved, moved = payment.moveTo env.now .successful "" := ⟨_, rfl⟩
  obtain ⟨s₁, hs₁⟩ : ∃ s₁, s₁ = inBooks (·.updatePayment payment.id moved.saveStatus) s := ⟨_, rfl⟩
  have hne := hwaits.not_successful
  have hmove : (payment.transitionTo env .successful).exec s = .ok (moved, s₁) := by
    have hreason : Varchar 255 moved.failureReason := by
      rw [hmoved]
      exact hwaits.reason
    rw [hmoved] at hreason
    rw [Payment.transitionTo, Txn.exec_bind, exec_raiseIf, if_neg (not_not.mpr hwaits.allowed)]
    dsimp only
    rw [Txn.exec_bind, exec_checkVarchar, if_pos hreason, hs₁, hmoved]
    rfl
  have hcn : s₁.controlNumbers.find? (·.id = moved.controlNumber) = some cn := by
    have hid : moved.controlNumber = cn.id := by
      rw [hmoved]
      exact hwaits.number
    rw [hid, hs₁]
    exact hnumber
  have hbill : s₁.bills.find? (·.id = row.id) = some row := by
    rw [hrow.id, hs₁]
    exact hrow.found
  obtain ⟨u, hu, hexec⟩ := exec_onSuccessful_bill hauditable hcn
    (howner.trans (congrArg Owner.bill hrow.id.symm)) hbill
  have hbilling : u.billing = s₁.billing := hu
  simp only [DB.billing, Prod.mk.injEq] at hbilling
  obtain ⟨hdirectory, hnumbers, hbills, hpayments, hallocations, hreceipts, hnotifications⟩ :=
    hbilling
  refine ⟨u, moved, ?_, hmoved, ?_, ?_, ?_, ?_, ?_, ?_, ?_⟩
  · have hfound : (getRow (.payment payment.id) fun db => db.toBooks.payment? payment.id).exec s =
        .ok (payment, s) := by
      rw [exec_getRow, hwaits.found]
    have htarget : ProviderOutcome.toStatus? .successful = some .successful := rfl
    simp only [confirmPayment, applyOutcome, htarget, hne, if_false, onEntered, Txn.exec_bind,
      hfound, hmove, hexec, Txn.pure_eq_ret, Txn.exec_ret]
    cases (settleBill env moved cn row).exec u with
    | ok r => rfl
    | error e => rfl
  · refine ⟨?_, hrow.id, hrow.customerAccount, hrow.billNumber, hrow.totalAmount, hrow.status, ?_⟩
    · rw [hbills, hs₁]
      exact hrow.found
    · rw [Books.amountPaid, hallocations, hs₁]
      exact hrow.paid
  · rw [hdirectory, hs₁]; rfl
  · rw [hnumbers, hs₁]; rfl
  · rw [hpayments, hs₁]; rfl
  · rw [hallocations, hs₁]; rfl
  · rw [hreceipts, hs₁]; rfl
  · rw [hnotifications, hs₁]; rfl

theorem auditable_of_confirmPayment (hwaits : Waits cn payment s)
    (h : (confirmPayment env payment.id).exec s = .ok ((), t)) : env.Auditable := by
  obtain ⟨found, u, hget, hrest⟩ := (Txn.exec_bind_ok _).mp h
  obtain ⟨hfound, -⟩ := exec_getRow_ok hget
  obtain rfl := Option.some.inj (hwaits.found.symm.trans hfound)
  obtain ⟨after, v, happlied, -⟩ := (Txn.exec_bind_ok _).mp hrest
  have htarget : ProviderOutcome.toStatus? .successful = some .successful := rfl
  simp only [applyOutcome, htarget, hwaits.not_successful, if_false] at happlied
  obtain ⟨moved, w, -, hentered⟩ := (Txn.exec_bind_ok _).mp happlied
  obtain ⟨_, x, hentered, -⟩ := (Txn.exec_bind_ok _).mp hentered
  exact auditable_of_onEntered hentered

/-- The status of a payment does not matter for what is stored. -/
theorem storable_moveTo {parties : Parties} {eventType : NotificationEventType} {remaining : Money}
    (new : PaymentStatus) (reason : String) :
    Storable env s used (payment.moveTo env.now new reason) cn bill parties eventType remaining ↔
      Storable env s used payment cn bill parties eventType remaining := by
  constructor
  · rintro ⟨hauditable, ⟨haccount, hcustomer, htenant, hprovider⟩, hlabel, hnumber, hrows⟩
    exact ⟨hauditable, ⟨haccount, hcustomer, htenant, hprovider⟩, hlabel, hnumber, hrows⟩
  · rintro ⟨hauditable, ⟨haccount, hcustomer, htenant, hprovider⟩, hlabel, hnumber, hrows⟩
    exact ⟨hauditable, ⟨haccount, hcustomer, htenant, hprovider⟩, hlabel, hnumber, hrows⟩

theorem natAbs_lt_of_between {x bound : ℤ} (hlow : -bound < x) (hhigh : x < bound) :
    (x.natAbs : ℤ) < bound := by
  rw [Int.natCast_natAbs]
  exact abs_lt.mpr ⟨hlow, hhigh⟩

theorem sum_amounts_nonneg (payments : List Payment) :
    0 ≤ (payments.map (·.amount.cents)).sum := by
  induction payments with
  | nil => exact le_refl _
  | cons payment payments ih =>
      rw [List.map_cons, List.sum_cons]
      exact add_nonneg (le_of_lt payment.amount.pos) ih

/-- What is left to pay fits the column of the receipt. -/
theorem Folding.remaining_fits
    (h : Folding db bill cn paid closed used (payment :: waiting) s)
    (hpos : 0 < bill.totalAmount.cents) :
    (bill.totalAmount.cents - (paid + payment.amount.cents)).natAbs < 10 ^ 18 := by
  have hrest := sum_amounts_nonneg waiting
  have hsum := h.fits
  rw [List.map_cons, List.sum_cons] at hsum
  have hpaid := h.nonneg
  have hamount := payment.amount.pos
  have hlow : -10 ^ 18 < bill.totalAmount.cents - (paid + payment.amount.cents) := by linarith
  have hhigh : bill.totalAmount.cents - (paid + payment.amount.cents) < 10 ^ 18 := by linarith
  exact_mod_cast natAbs_lt_of_between hlow hhigh

/-- A payment that waits still waits after another one is applied. -/
theorem Waits.after {p : Payment} (payment moved : Payment) (h : Waits cn p s)
    (hid : p.id ≠ payment.id) (hmoved : moved.id = payment.id)
    (hpayments : t.payments =
      s.payments.map fun row => if row.id = payment.id then moved.saveStatus row else row)
    (hallocations : t.allocations = s.allocations ++ [moved.allocationTo bill.id])
    {receipt : Receipt} (hreceipts : t.receipts = s.receipts ++ [receipt])
    (hreceipt : receipt.payment = moved.id) : Waits cn p t := by
  refine ⟨?_, h.number, h.allowed, h.reason, ?_, ?_⟩
  · have hkept : ∀ row : Payment,
        (if row.id = payment.id then moved.saveStatus row else row).id = row.id := by
      intro row
      split
      · rfl
      · rfl
    have hmap : (s.payments.map fun row =>
        if row.id = payment.id then moved.saveStatus row else row).find?
          (fun row => row.id = p.id) =
          _ := Support.find?_map_key hkept p.id
    have hfound : s.payments.find? (·.id = p.id) = some p := h.found
    rw [hfound, Option.map_some, if_neg hid] at hmap
    rw [Books.payment?, hpayments]
    exact hmap
  · intro r hr
    rw [hreceipts, List.mem_append, List.mem_singleton] at hr
    rcases hr with hr | rfl
    · exact h.receipt r hr
    · rw [hreceipt, hmoved]
      exact Ne.symm hid
  · intro a ha
    rw [hallocations, List.mem_append, List.mem_singleton] at ha
    rcases ha with ha | rfl
    · exact h.allocation a ha
    · have hpayment : (moved.allocationTo bill.id).payment = payment.id := hmoved
      rw [hpayment]
      exact Ne.symm hid

/-- What a success leaves behind, and the state the next one starts from. -/
theorem Folding.settled (h : Folding db bill cn paid closed used (payment :: waiting) s)
    {parties : Parties} {u : DB} (hdirectory : u.toDirectory = s.toDirectory)
    (hloaded : parties.Of db.toDirectory bill payment)
    (hnumbers : u.controlNumbers = s.controlNumbers)
    (hpayments : u.payments = s.payments.map fun p =>
      if p.id = payment.id then (payment.moveTo env.now .successful "").saveStatus p else p)
    (hallocations : u.allocations = s.allocations) (hreceipts : u.receipts = s.receipts)
    (hnotifications : u.notifications = s.notifications)
    (hsettles : SettlesBill env (payment.moveTo env.now .successful "") cn bill parties
      (paid + payment.amount.cents) closed u t) :
    AppliedTo bill (paid + payment.amount.cents) closed payment s t ∧
      Folding db bill cn (paid + payment.amount.cents) closed
        (used ++ [(payment.tenant, env.gen.receiptNumber payment.id)]) waiting t := by
  obtain ⟨row, hrow, hstatus⟩ := hsettles.row
  obtain ⟨receipt, hreceipt, hpayment, htenant, hnumber, hremaining⟩ := hsettles.receipts
  obtain ⟨rows, hrows, hsent⟩ := hsettles.notifications
  have hwaits := h.waits payment List.mem_cons_self
  have hallocated : t.allocations = s.allocations ++ [payment.allocationTo bill.id] := by
    rw [hsettles.allocations, hallocations]
    rfl
  have hreceipted : t.receipts = s.receipts ++ [receipt] := by
    rw [hreceipt, hreceipts]
  constructor
  · constructor
    · rw [hrow.found, Option.map_some, hstatus]
    · have hnone : s.allocations.filter (·.payment = payment.id) = [] := by
        rw [List.filter_eq_nil_iff]
        intro a ha
        simpa using hwaits.allocation a ha
      rw [hallocated, List.filter_append, hnone]
      simp [Payment.allocationTo]
    · refine ⟨receipt, ?_, hremaining⟩
      have hnone : s.receipts.filter (·.payment = payment.id) = [] := by
        rw [List.filter_eq_nil_iff]
        intro r hr
        simpa using hwaits.receipt r hr
      have hown : receipt.payment = payment.id := hpayment
      rw [hreceipted, List.filter_append, hnone]
      simp [hown]
    · refine ⟨parties.customer, ?_, rows, ?_, successNotices_headings hsent⟩
      · have hcustomers : s.customers = db.customers := congrArg (·.customers) h.directory
        rw [hcustomers]
        exact List.mem_of_find?_eq_some hloaded.customer
      · rw [hrows, hnotifications]
  · have hdistinct := h.distinct
    rw [List.map_cons, List.nodup_cons] at hdistinct
    have hsum := h.fits
    rw [List.map_cons, List.sum_cons] at hsum
    constructor
    · exact hsettles.directory.trans (hdirectory.trans h.directory)
    · rw [hsettles.controlNumbers, hnumbers]
      exact h.number
    · exact h.owner
    · exact ⟨row, hrow⟩
    · intro p hp
      have hid : p.id ≠ payment.id := by
        intro hid
        exact hdistinct.1 (List.mem_map.mpr ⟨p, hp, hid⟩)
      have hmoved : t.payments = s.payments.map fun p =>
          if p.id = payment.id then (payment.moveTo env.now .successful "").saveStatus p else p :=
        hsettles.payments.trans hpayments
      exact (h.waits p (List.mem_cons_of_mem _ hp)).after payment
        (payment.moveTo env.now .successful "") hid rfl hmoved hallocated hreceipted hpayment
    · exact hdistinct.2
    · rw [DB.receiptNumbers, hreceipted, List.map_append, ← h.used, DB.receiptNumbers,
        List.map_singleton, htenant, hnumber]
      rfl
    · exact add_nonneg h.nonneg (le_of_lt payment.amount.pos)
    · linarith

/-- A success applies, and leaves the bill with its sum, where it can be stored. -/
theorem Folding.confirm_ok (h : Folding db bill cn paid closed used (payment :: waiting) s)
    (hpos : 0 < bill.totalAmount.cents) {parties : Parties}
    (hstorable : Storable env db used payment cn bill parties
      (foldEvent bill.totalAmount.cents (paid + payment.amount.cents) closed)
      (bill.totalAmount.cents - (paid + payment.amount.cents))) :
    ∃ t, (confirmPayment env payment.id).exec s = .ok ((), t) ∧
      AppliedTo bill (paid + payment.amount.cents) closed payment s t ∧
      Folding db bill cn (paid + payment.amount.cents) closed
        (used ++ [(payment.tenant, env.gen.receiptNumber payment.id)]) waiting t := by
  obtain ⟨row, hrow⟩ := h.row
  have hwaits := h.waits payment List.mem_cons_self
  obtain ⟨u, moved, hexec, rfl, hrowU, hdirectory, hnumbers, hpayments, hallocations, hreceipts,
    hnotifications⟩ := exec_confirmPayment hstorable.auditable hwaits h.number h.owner hrow
  have hnone : u.toBooks.receiptOf payment.id = none := by
    rw [Books.receiptOf, hreceipts, List.find?_eq_none]
    intro r hr
    simpa using hwaits.receipt r hr
  have hused : u.receiptNumbers = used := by
    rw [DB.receiptNumbers, hreceipts]
    exact h.used
  have hloaded := hstorable.loaded
  rw [← hused, ← storable_moveTo .successful "",
    ← Storable.congr (hdirectory.trans h.directory)] at hstorable
  obtain ⟨t, ht, hsettles⟩ :=
    settleBill_ok (payment.moveTo env.now .successful "") hrowU hnone rfl
      (h.remaining_fits hpos) hstorable
  exact ⟨t, hexec.trans ht, h.settled hdirectory hloaded hnumbers hpayments hallocations hreceipts
    hnotifications hsettles⟩

/-- Where a success applies, it could be stored. -/
theorem Folding.storable (h : Folding db bill cn paid closed used (payment :: waiting) s)
    (hpos : 0 < bill.totalAmount.cents)
    (hexec : (confirmPayment env payment.id).exec s = .ok ((), t)) :
    ∃ parties, Storable env db used payment cn bill parties
      (foldEvent bill.totalAmount.cents (paid + payment.amount.cents) closed)
      (bill.totalAmount.cents - (paid + payment.amount.cents)) := by
  obtain ⟨row, hrow⟩ := h.row
  have hwaits := h.waits payment List.mem_cons_self
  have hauditable := auditable_of_confirmPayment hwaits hexec
  obtain ⟨u, moved, hsettles, rfl, hrowU, hdirectory, -, -, -, hreceipts, -⟩ :=
    exec_confirmPayment hauditable hwaits h.number h.owner hrow
  have hnone : u.toBooks.receiptOf payment.id = none := by
    rw [Books.receiptOf, hreceipts, List.find?_eq_none]
    intro r hr
    simpa using hwaits.receipt r hr
  have hused : u.receiptNumbers = used := by
    rw [DB.receiptNumbers, hreceipts]
    exact h.used
  obtain ⟨parties, hstorable⟩ :=
    storable_of_settleBill (payment.moveTo env.now .successful "") hauditable hrowU hnone rfl
      (h.remaining_fits hpos) (hsettles.symm.trans hexec)
  rw [hused] at hstorable
  exact ⟨parties, (Storable.congr (hdirectory.trans h.directory)).mp
    ((storable_moveTo .successful "").mp hstorable)⟩

/-- A payment that waits still waits after the bill is cancelled. -/
theorem Waits.congr {p : Payment} (h : Waits cn p s) (hpayments : t.payments = s.payments)
    (hallocations : t.allocations = s.allocations) (hreceipts : t.receipts = s.receipts) :
    Waits cn p t := by
  constructor
  · rw [Books.payment?, hpayments]
    exact h.found
  · exact h.number
  · exact h.allowed
  · exact h.reason
  · rw [hreceipts]
    exact h.receipt
  · rw [hallocations]
    exact h.allocation

theorem exec_dispatchBillEvent_fold (hcorrelated : Support.Text.Fits 64 env.correlationId)
    (bill : Bill) (totalAmount eventType : String) (s : DB) :
    (∃ account u, s.accounts.find? (·.id = bill.customerAccount) = some account ∧
        u.billing = s.billing ∧
        (dispatchBillEvent env bill totalAmount eventType).exec s = .ok ((), u)) ∨
      (s.accounts.find? (·.id = bill.customerAccount) = none ∧
        (dispatchBillEvent env bill totalAmount eventType).exec s = .error .doesNotExist) := by
  cases hfind : s.accounts.find? (·.id = bill.customerAccount) with
  | some account =>
      have hdispatch : ∀ payload, ∃ u, u.billing = s.billing ∧
          (dispatchEvent env bill.tenant eventType payload).exec s = .ok ((), u) := by
        intro payload
        refine ⟨_, ?_, exec_dispatchEvent env s bill.tenant hcorrelated eventType payload⟩
        rfl
      obtain ⟨u, hu, hexec⟩ := hdispatch _
      refine Or.inl ⟨account, u, rfl, hu, ?_⟩
      rw [dispatchBillEvent, getAccount, Txn.exec_bind, exec_getRow, hfind]
      exact hexec
  | none =>
      refine Or.inr ⟨rfl, ?_⟩
      rw [dispatchBillEvent, getAccount, Txn.exec_bind, exec_getRow, hfind]

/-- The bill is closed, and the payments that wait still wait. -/
theorem Folding.closes (h : Folding db bill cn paid false used waiting s) {row moved : Bill}
    (hrow : RowOf bill paid false row s) (hmoved : moved = row.moveTo env.now .cancelled)
    (hfound : t.bills.find? (·.id = bill.id) = some moved)
    (hdirectory : t.toDirectory = s.toDirectory) (hnumbers : t.controlNumbers = s.controlNumbers)
    (hpayments : t.payments = s.payments) (hallocations : t.allocations = s.allocations)
    (hreceipts : t.receipts = s.receipts) : Folding db bill cn paid true used waiting t := by
  constructor
  · exact hdirectory.trans h.directory
  · rw [hnumbers]
    exact h.number
  · exact h.owner
  · refine ⟨moved, hfound, ?_, ?_, ?_, ?_, ?_, ?_⟩
    · rw [hmoved]
      exact hrow.id
    · rw [hmoved]
      exact hrow.customerAccount
    · rw [hmoved]
      exact hrow.billNumber
    · rw [hmoved]
      exact hrow.totalAmount
    · rw [hmoved]
      exact Or.inl rfl
    · rw [Books.amountPaid, hallocations]
      exact hrow.paid
  · intro p hp
    exact (h.waits p hp).congr hpayments hallocations hreceipts
  · exact h.distinct
  · rw [DB.receiptNumbers, hreceipts]
    exact h.used
  · exact h.nonneg
  · exact h.fits

/-- The cancellation needs its audit row, and the account of the bill for its event. -/
theorem Folding.cancel (h : Folding db bill cn paid false used waiting s)
    (hopen : paid < bill.totalAmount.cents) (env : Env) :
    (∃ t, (cancelRow env bill.id).exec s = .ok ((), t) ∧
        (env.Auditable ∧
          ∃ account, db.accounts.find? (·.id = bill.customerAccount) = some account) ∧
        Folding db bill cn paid true used waiting t) ∨
      ((∀ t, (cancelRow env bill.id).exec s ≠ .ok ((), t)) ∧
        ¬(env.Auditable ∧
          ∃ account, db.accounts.find? (·.id = bill.customerAccount) = some account)) := by
  obtain ⟨row, hrow⟩ := h.row
  have hallowed : BillStatus.cancelled ∈ row.status.allowedTransitions := by
    rcases hrow.open_or_done with ⟨hactive | hpart, -⟩ | ⟨-, -, -, hclosed | hfull⟩
    · rw [hactive]; decide
    · rw [hpart]; decide
    · exact absurd hclosed Bool.false_ne_true
    · exact absurd hfull (not_le.mpr hopen)
  have hget : (getBill bill.id).exec s = .ok (row, s) := by
    rw [getBill, exec_getRow, hrow.found]
  obtain ⟨moved, hmoved⟩ : ∃ moved, moved = row.moveTo env.now .cancelled := ⟨_, rfl⟩
  obtain ⟨v, hv⟩ : ∃ v, v = inBooks (·.updateBill row.id moved.saveStatus) s := ⟨_, rfl⟩
  have hmove : (row.transitionTo env .cancelled).exec s = .ok (moved, v) := by
    rw [hv, hmoved]
    exact exec_billTransitionTo env hallowed
  have hfound : v.bills.find? (·.id = bill.id) = some moved := by
    have hkey : s.bills.find? (·.id = row.id) = some row := by
      rw [hrow.id]
      exact hrow.found
    have hupdated := find?_updateBill env hkey .cancelled
    rw [← hmoved, ← hv, hrow.id] at hupdated
    exact hupdated
  by_cases hauditable : env.Auditable
  swap
  · refine Or.inr ⟨?_, fun h => hauditable h.1⟩
    intro t hexec
    simp only [cancelRow, cancelBill, Txn.exec_bind, hget, hmove, exec_recordAuditEvent,
      if_neg hauditable, reduceCtorEq] at hexec
  obtain ⟨w, haudit, hw⟩ : ∃ w, (recordAuditEvent env "bill.cancelled" (some moved.tenant)
      (some (.bill moved.id))).exec v = .ok ((), w) ∧ w.billing = v.billing := by
    rw [exec_recordAuditEvent, if_pos hauditable]
    exact ⟨_, rfl, rfl⟩
  have hcancel : (cancelRow env bill.id).exec s =
      (dispatchBillEvent env moved moved.totalAmount.cents.str "bill.cancelled").exec w := by
    simp only [cancelRow, cancelBill, Txn.exec_bind, hget, hmove, haudit, Txn.pure_eq_ret,
      Txn.exec_ret]
    cases (dispatchBillEvent env moved moved.totalAmount.cents.str "bill.cancelled").exec w with
    | ok r => rfl
    | error e => rfl
  have haccounts : w.accounts = db.accounts := by
    have hdirectory : w.toDirectory = v.toDirectory := congrArg (·.1) hw
    rw [hdirectory, hv]
    exact congrArg (·.accounts) h.directory
  have haccount : moved.customerAccount = bill.customerAccount := by
    rw [hmoved]
    exact hrow.customerAccount
  rcases exec_dispatchBillEvent_fold hauditable.1 moved moved.totalAmount.cents.str
      "bill.cancelled" w with
    ⟨account, u, hfind, hu, hdispatch⟩ | ⟨hfind, hdispatch⟩
  · rw [haccounts, haccount] at hfind
    rw [hdispatch] at hcancel
    have hbilling := hu.trans hw
    simp only [DB.billing, Prod.mk.injEq] at hbilling
    obtain ⟨hdirectory, hnumbers, hbills, hpayments, hallocations, hreceipts, -⟩ := hbilling
    refine Or.inl ⟨u, hcancel, ⟨hauditable, account, hfind⟩,
      h.closes hrow hmoved ?_ ?_ ?_ ?_ ?_ ?_⟩
    · rw [hbills]
      exact hfound
    · rw [hdirectory, hv]; rfl
    · rw [hnumbers, hv]; rfl
    · rw [hpayments, hv]; rfl
    · rw [hallocations, hv]; rfl
    · rw [hreceipts, hv]; rfl
  · rw [haccounts, haccount] at hfind
    rw [hdispatch] at hcancel
    refine Or.inr ⟨?_, ?_⟩
    · intro t hexec
      rw [hcancel] at hexec
      cases hexec
    · rintro ⟨-, account, hsome⟩
      rw [hfind] at hsome
      cases hsome

/-- The fold, from any state on the way. -/
theorem Folding.folded_iff (hpos : 0 < bill.totalAmount.cents) (steps : List FoldStep) :
    ∀ {paid : Money} {closed : Bool} {used : List (ℕ × String)} {s : DB},
      Folding db bill cn paid closed used (FoldStep.payments steps) s →
      FoldStep.Legal bill.totalAmount.cents paid closed steps →
      (Folded bill paid closed s steps ↔ AllStorable db bill cn paid closed used steps) := by
  induction steps with
  | nil => exact fun _ _ => Iff.rfl
  | cons step steps ih =>
      intro paid closed used s h hlegal
      cases step with
      | confirm env payment =>
          constructor
          · rintro ⟨t, hexec, happlied, hrest⟩
            obtain ⟨parties, hstorable⟩ := h.storable hpos hexec
            obtain ⟨t', hexec', -, hnext⟩ := h.confirm_ok hpos hstorable
            rw [hexec] at hexec'
            obtain ⟨-, rfl⟩ := Prod.mk.inj (Except.ok.inj hexec')
            exact ⟨⟨parties, hstorable⟩, (ih hnext hlegal).mp hrest⟩
          · rintro ⟨⟨parties, hstorable⟩, hrest⟩
            obtain ⟨t, hexec, happlied, hnext⟩ := h.confirm_ok hpos hstorable
            exact ⟨t, hexec, happlied, (ih hnext hlegal).mpr hrest⟩
      | cancel env =>
          obtain ⟨rfl, hopen, hlegal⟩ := hlegal
          rcases h.cancel hopen env with ⟨t, hexec, haccount, hnext⟩ | ⟨hfails, hnone⟩
          · constructor
            · intro hfolded _
              exact (ih hnext hlegal).mp (hfolded t hexec)
            · intro hstorable t' hexec'
              rw [hexec] at hexec'
              obtain ⟨-, rfl⟩ := Prod.mk.inj (Except.ok.inj hexec')
              exact (ih hnext hlegal).mpr (hstorable haccount)
          · constructor
            · intro _ haccount
              exact absurd haccount hnone
            · intro _ t hexec
              exact absurd hexec (hfails t)

/-- A payment that may still succeed waits. -/
theorem waits_of_balanced (h : Balanced db.toBooks) (hpayment : payment ∈ db.payments)
    (hnumber : payment.controlNumber = cn.id)
    (hallowed : PaymentStatus.successful ∈ payment.status.allowedTransitions) :
    Waits cn payment db := by
  have hunsettled : payment.status.settled = false :=
    PaymentStatus.not_settled_of_allows_successful hallowed
  constructor
  · exact payment?_eq_some h.keyed hpayment
  · exact hnumber
  · exact hallowed
  · exact h.reasons payment hpayment
  · intro r hr hown
    have hstated : r.stated ∈ db.settled.map Payment.Fixed.stated :=
      h.receipts.subset (List.mem_map_of_mem hr)
    obtain ⟨x, hx, heq⟩ := List.mem_map.mp hstated
    have hid : x.id = payment.id := (congrArg (·.2.1) heq).trans hown
    have hsettled := (fixed_of_mem_inClass h.toBooked hx hpayment hid).2
    rw [hunsettled] at hsettled
    cases hsettled
  · intro a ha hown
    have hnone := allocations_of_payment h hpayment
    rw [hunsettled, if_neg Bool.false_ne_true] at hnone
    have hmem : a ∈ db.allocations.filter (·.payment = payment.id) :=
      List.mem_filter.mpr ⟨ha, by simpa using hown⟩
    exact List.not_mem_nil (hnone.subset hmem)

/-- Before the first success. -/
theorem folding_of_reachable (h : Reachable db) (hbill : bill ∈ db.bills)
    (hactive : bill.status = .active) (hcn : cn ∈ db.controlNumbers)
    (howner : cn.owner = .bill bill.id)
    (hwaiting : ∀ p ∈ waiting, p ∈ db.payments ∧ p.controlNumber = cn.id ∧
      PaymentStatus.successful ∈ p.status.allowedTransitions)
    (hdistinct : (waiting.map (·.id)).Nodup)
    (hfits : bill.totalAmount.cents + (waiting.map (·.amount.cents)).sum < 10 ^ 18) :
    Folding db bill cn 0 false db.receiptNumbers waiting db := by
  have hbalanced := h.balanced
  constructor
  · rfl
  · exact Support.find?_key hbalanced.keys.controlNumbers hcn
  · exact howner
  · refine ⟨bill, Support.find?_key hbalanced.keys.bills hbill, rfl, rfl, rfl, rfl,
      Or.inr ⟨hactive, rfl, rfl⟩, ?_⟩
    have hnone : db.allocations.filter (·.bill = bill.id) = [] := by
      rw [List.filter_eq_nil_iff]
      intro a ha
      simpa using (hbalanced.bills bill hbill).active hactive a ha
    rw [Books.amountPaid, hnone]
    rfl
  · intro p hp
    obtain ⟨hmem, hnumber, hallowed⟩ := hwaiting p hp
    exact waits_of_balanced hbalanced hmem hnumber hallowed
  · exact hdistinct
  · rfl
  · exact le_refl _
  · rw [add_zero]
    exact hfits

end Fold

/-- A school whose subject line for partial payments has an unbalanced brace. -/
def bracedInstallation : DB :=
  reachableCustomer.withTemplates
    [⟨1, .paymentPartial, .email, "Paid \x7b", "Thank you.", true⟩]

theorem bracedInstallation_initial : Initial bracedInstallation where
  books := rfl
  directory := by constructor <;> decide

end Kusanya
