import Kusanya.Moves.Billing
import Kusanya.Moves.Outbox

/-!
# The rows of a new bill

What the savepoint of `get_or_create_bill` leaves behind when it is released, row by row,
and the discipline of the bill table: the unique keys of a bill are locked before its
insert, so that nobody else takes them before the commit.
-/

namespace Kusanya

open ReadCommitted

/-! ## Keys -/

/-- The keys that the unique constraints of `Bill` make unique. -/
def Bill.uniqueKeys (bill : Bill) : List Resource :=
  .bill bill.id :: .billKey bill.tenant bill.billNumber ::
    if bill.externalReference = "" then []
    else [.billReference bill.tenant bill.externalReference]

/-- The constraints of the billing tables. -/
structure Books.BillTables (b : Books) : Prop where
  unique : b.bills.Pairwise fun x y => ∀ k ∈ x.uniqueKeys, k ∉ y.uniqueKeys
  foreign : ∀ item ∈ b.billItems, ∃ bill ∈ b.bills, bill.id = item.bill

/-- Some bill has the key. -/
abbrev BillKeyTaken (k : Resource) (db : DB) : Prop :=
  Taken (fun db : DB => db.bills) Bill.uniqueKeys k db

/-- Bills are only added, and the directory stays as it is. -/
def billDiscipline : Discipline DB Resource :=
  Discipline.ofKeys (fun db : DB => db.bills) Bill.uniqueKeys (fun db => db.toBooks.BillTables)
    (fun s t => s.toDirectory = t.toDirectory ∧ s.bills <+: t.bills)
    (fun _ => ⟨rfl, List.prefix_refl _⟩)
    fun h h' => ⟨h.1.trans h'.1, h.2.trans h'.2⟩

section Keys

variable {s t : DB} {bill : Bill} {k : Resource}

theorem BillKeyTaken.mono (h : BillKeyTaken k s) (hst : s.bills <+: t.bills) :
    BillKeyTaken k t := by
  obtain ⟨row, hmem, hk⟩ := h
  exact ⟨row, hst.subset hmem, hk⟩

theorem billKeyTaken_id {id : ℕ} (hmem : bill ∈ s.bills) (hid : bill.id = id) :
    BillKeyTaken (.bill id) s := by
  subst hid
  exact ⟨bill, hmem, List.mem_cons_self⟩

theorem reference_mem_uniqueKeys {tenant : ℕ} {reference : String} (htenant : bill.tenant = tenant)
    (hreference : bill.externalReference = reference) (hblank : reference ≠ "") :
    .billReference tenant reference ∈ bill.uniqueKeys := by
  subst htenant hreference
  simp [Bill.uniqueKeys, hblank]

theorem billClash_iff :
    s.toBooks.billClash bill = true ↔ ∃ k ∈ bill.uniqueKeys, BillKeyTaken k s := by
  unfold Books.billClash
  rw [List.any_eq_true]
  constructor
  · rintro ⟨row, hmem, hclash⟩
    simp only [Bool.or_eq_true, Bool.and_eq_true, decide_eq_true_eq, bne_iff_ne] at hclash
    rcases hclash with (hid | hnumber) | hreference
    · refine ⟨.bill bill.id, List.mem_cons_self, row, hmem, ?_⟩
      rw [← hid]
      exact List.mem_cons_self
    · refine ⟨.billKey bill.tenant bill.billNumber, by simp [Bill.uniqueKeys], row, hmem, ?_⟩
      simp [Bill.uniqueKeys, hnumber.1, hnumber.2]
    · obtain ⟨⟨htenant, hblank⟩, hsame⟩ := hreference
      exact ⟨.billReference bill.tenant bill.externalReference,
        reference_mem_uniqueKeys rfl rfl hblank, row, hmem,
        reference_mem_uniqueKeys htenant hsame hblank⟩
  · rintro ⟨k, hk, row, hmem, hrow⟩
    refine ⟨row, hmem, ?_⟩
    unfold Bill.uniqueKeys at hk hrow
    by_cases hblank : bill.externalReference = "" <;>
      by_cases hblank' : row.externalReference = "" <;>
      simp only [hblank, hblank', if_true, if_false, List.mem_cons, List.not_mem_nil,
        or_false] at hk hrow <;>
      grind

/-- A bill whose id is free has no items yet. -/
theorem Books.BillTables.no_items {id : ℕ} (h : s.toBooks.BillTables)
    (hfree : ¬BillKeyTaken (.bill id) s) : s.billItems.filter (·.bill = id) = [] := by
  rw [List.filter_eq_nil_iff]
  intro item hitem hid
  obtain ⟨bill, hbill, hsame⟩ := h.foreign item hitem
  exact hfree (billKeyTaken_id hbill (hsame.trans (of_decide_eq_true hid)))

end Keys

/-! ## Rows -/

/-- Everything that one successful attempt inserts. -/
structure BillRows where
  bill : Bill
  items : List BillItem
  audit : AuditLog
  deliveries : List WebhookDelivery
  notifications : List Notification

def BillRows.addTo (rows : BillRows) (db : DB) : DB :=
  { db with
    bills := db.bills ++ [rows.bill]
    billItems := db.billItems ++ rows.items
    auditLog := db.auditLog ++ [rows.audit]
    deliveries := db.deliveries ++ rows.deliveries
    notifications := db.notifications ++ rows.notifications
    onCommit := db.onCommit ++ rows.deliveries.map .deliverWebhook ++
      rows.notifications.map .deliverNotification }

/-- The audit row of a new bill. -/
def Bill.creationAudit (env : Env) (bill : Bill) : AuditLog :=
  { action := "bill.created"
    actor := env.actor
    tenant := some bill.tenant
    target := some (.bill bill.id)
    after := [("total_amount", bill.recalculatedText), ("status", bill.status.value)]
    metadata := []
    ipAddress := env.storedAddress
    userAgent := env.userAgent
    correlationId := env.correlationId
    createdAt := env.now }

/-- The payload of the bill events. -/
def Bill.eventPayload (bill : Bill) (totalAmount : String) (account : CustomerAccount) :
    List (String × Option String) :=
  [("bill_id", some (toString bill.id)),
   ("bill_number", some bill.billNumber),
   ("status", some bill.status.value),
   ("total_amount", some totalAmount),
   ("currency", some bill.currency),
   ("customer_account", some account.name)]

/-- The rows are those of a call with this input, its generated values and this directory. -/
structure BillRows.Of (rows : BillRows) (env : Env) (input : BillInput) (db : DB) : Prop where
  bill : ∃ k total, rows.bill =
    { input.newBill (env.gen.billId k) (env.gen.billNumber k) with totalAmount := total }
  items : input.items.mapM (·.row? input.tenant rows.bill.id) = some rows.items
  total : rows.bill.totalAmount.cents = (rows.items.map (·.lineTotal.cents)).sum
  audit : rows.audit = rows.bill.creationAudit env
  side : ∃ account customer tenant,
    db.accounts.find? (·.id = input.customerAccount) = some account ∧
    db.customers.find? (·.id = account.customer) = some customer ∧
    db.tenants.find? (·.id = input.tenant) = some tenant ∧
    rows.deliveries = deliveriesTo env input.tenant "bill.created"
      (rows.bill.eventPayload rows.bill.recalculatedText account)
      (activeEndpoints db input.tenant) ∧
    notices env db input.tenant .billCreated
      [("institution_name", tenant.name), ("customer_name", customer.fullName),
       ("bill_number", rows.bill.billNumber)]
      customer.email customer.phoneNumber = .ok rows.notifications

/-! ## An attempt that runs alone -/

section Alone

variable {s t : DB} {env : Env} {input : BillInput} {k : ℕ} {bill b : Bill}

theorem exec_insertBill (bill : Bill) (s : DB) :
    (insertBill bill).exec s =
      if Varchar 100 bill.externalReference then
        if s.toBooks.billClash bill then .error .integrityError
        else .ok ((), inBooks (·.addBill bill) s)
      else .error .dataError := by
  unfold insertBill
  rw [Txn.exec_bind, exec_checkVarchar]
  by_cases hlength : Varchar 100 bill.externalReference
  · simp only [hlength, if_true, Txn.exec_bind, Txn.exec_acquire, exec_acquireUnlessBlank,
      Txn.exec_fetch, exec_raiseIf]
    by_cases hclash : s.toBooks.billClash bill = true
    · rw [if_pos hclash, if_pos hclash]
    · rw [if_neg hclash, if_neg hclash]
      rfl
  · rw [if_neg hlength, if_neg hlength]

theorem createItems_exec {tenant bill : ℕ} {items : List ItemInput}
    (h : (createItems tenant bill items).exec s = .ok ((), t)) :
    ∃ rows, items.mapM (·.row? tenant bill) = some rows ∧ t = inBooks (·.addItems rows) s := by
  unfold createItems at h
  cases hrows : items.mapM (·.row? tenant bill) with
  | none =>
      rw [hrows] at h
      cases h
  | some rows =>
      rw [hrows] at h
      obtain ⟨-, rfl⟩ := Prod.mk.inj (Except.ok.inj h)
      exact ⟨rows, rfl, rfl⟩

theorem exec_storeNumeric_ok {m : Money} {n : Numeric} (h : (storeNumeric m).exec s = .ok (n, t)) :
    Numeric.ofMoney? m = some n ∧ t = s := by
  unfold storeNumeric at h
  cases hm : Numeric.ofMoney? m with
  | none =>
      rw [hm] at h
      cases h
  | some n' =>
      rw [hm] at h
      obtain ⟨rfl, rfl⟩ := Prod.mk.inj (Except.ok.inj h)
      exact ⟨rfl, rfl⟩

theorem exec_sendNotification_ok {tenant : ℕ} {eventType : NotificationEventType}
    {context : List (String × String)} {email phone : String}
    (h : (sendNotification env tenant eventType context email phone).exec s = .ok ((), t)) :
    ∃ rows, notices env s tenant eventType context email phone = .ok rows ∧
      t = inTrail (·.addNotifications rows) s := by
  rw [exec_sendNotification] at h
  cases hrows : notices env s tenant eventType context email phone with
  | error e =>
      rw [hrows] at h
      cases h
  | ok rows =>
      rw [hrows] at h
      obtain ⟨-, rfl⟩ := Prod.mk.inj (Except.ok.inj h)
      exact ⟨rows, rfl, rfl⟩

/-- The update of the total reaches the new row only. -/
theorem updateBill_addItems {b : Books} {bill : Bill} {items : List BillItem} {f : Bill → Bill}
    (hfree : ∀ row ∈ b.bills, row.id ≠ bill.id) :
    ((b.addBill bill).addItems items).updateBill bill.id f =
      { b with bills := b.bills ++ [f bill], billItems := b.billItems ++ items } := by
  have hbills : (b.bills ++ [bill]).map (fun row => if row.id = bill.id then f row else row) =
      b.bills ++ [f bill] := by
    rw [List.map_append, List.map_singleton, if_pos rfl]
    congr 1
    exact (List.map_congr_left fun row hrow => if_neg (hfree row hrow)).trans (List.map_id _)
  simp only [Books.updateBill, Books.addItems, Books.addBill, hbills]

theorem recalculateTotal_exec (h : (bill.recalculateTotal).exec s = .ok (b, t)) :
    ∃ total : Numeric, b = { bill with totalAmount := total } ∧
      total.cents = ((s.billItems.filter (·.bill = bill.id)).map (·.lineTotal.cents)).sum ∧
      t = inBooks (·.updateBill bill.id fun row => { row with totalAmount := total }) s := by
  unfold Bill.recalculateTotal at h
  obtain ⟨sum, _, hsum, h₁⟩ := (Txn.exec_bind_ok _).mp h
  obtain ⟨rfl, rfl⟩ := Prod.mk.inj (Except.ok.inj hsum)
  obtain ⟨total, _, hstore, h₂⟩ := (Txn.exec_bind_ok _).mp h₁
  obtain ⟨hstored, rfl⟩ := exec_storeNumeric_ok hstore
  obtain ⟨rfl, rfl⟩ := Prod.mk.inj (Except.ok.inj h₂)
  exact ⟨total, rfl, Numeric.ofMoney?_cents hstored, rfl⟩

theorem dispatchBillEvent_exec {totalAmount eventType : String}
    (h : (dispatchBillEvent env bill totalAmount eventType).exec s = .ok ((), t)) :
    ∃ account, s.accounts.find? (·.id = bill.customerAccount) = some account ∧
      t = inTrail (·.addDeliveries (deliveriesTo env bill.tenant eventType
        (bill.eventPayload totalAmount account) (activeEndpoints s bill.tenant))) s := by
  unfold dispatchBillEvent at h
  obtain ⟨account, _, hget, h₁⟩ := (Txn.exec_bind_ok _).mp h
  obtain ⟨haccount, rfl⟩ := exec_getRow_ok hget
  obtain rfl := exec_dispatchEvent_ok h₁
  exact ⟨account, haccount, rfl⟩

theorem notifyBillCreated_exec (h : (notifyBillCreated env bill).exec s = .ok ((), t)) :
    ∃ account customer tenant rows,
      s.accounts.find? (·.id = bill.customerAccount) = some account ∧
      s.customers.find? (·.id = account.customer) = some customer ∧
      s.tenants.find? (·.id = bill.tenant) = some tenant ∧
      notices env s bill.tenant .billCreated
        [("institution_name", tenant.name), ("customer_name", customer.fullName),
         ("bill_number", bill.billNumber)]
        customer.email customer.phoneNumber = .ok rows ∧
      t = inTrail (·.addNotifications rows) s := by
  unfold notifyBillCreated customerOf at h
  obtain ⟨customer, _, hcustomerOf, h₁⟩ := (Txn.exec_bind_ok _).mp h
  obtain ⟨account, _, hget, hgetCustomer⟩ := (Txn.exec_bind_ok _).mp hcustomerOf
  obtain ⟨haccount, rfl⟩ := exec_getRow_ok hget
  obtain ⟨hcustomer, rfl⟩ := exec_getRow_ok hgetCustomer
  obtain ⟨tenant, _, hgetTenant, h₂⟩ := (Txn.exec_bind_ok _).mp h₁
  obtain ⟨htenant, rfl⟩ := exec_getRow_ok hgetTenant
  obtain ⟨rows, hrows, rfl⟩ := exec_sendNotification_ok h₂
  exact ⟨account, customer, tenant, rows, haccount, hcustomer, htenant, hrows, rfl⟩

theorem insertBill_exec (h : (insertBill bill).exec s = .ok ((), t)) :
    t = inBooks (·.addBill bill) s ∧ ∀ key ∈ bill.uniqueKeys, ¬BillKeyTaken key s := by
  rw [exec_insertBill] at h
  split at h
  · split at h
    · cases h
    · next hclash =>
        obtain ⟨-, rfl⟩ := Prod.mk.inj (Except.ok.inj h)
        exact ⟨rfl, fun key hkey htaken => hclash (billClash_iff.mpr ⟨key, hkey, htaken⟩)⟩
  · cases h

/-- A successful attempt adds the rows of its call, under keys that were free. -/
theorem createBill_exec (hs : s.toBooks.BillTables)
    (h : (createBill env input k).exec s = .ok (b, t)) :
    ∃ rows : BillRows, rows.Of env input s ∧ rows.bill = b ∧ t = rows.addTo s ∧
      ∀ key ∈ b.uniqueKeys, ¬BillKeyTaken key s := by
  unfold createBill at h
  obtain ⟨_, s₁, hinsert, h₁⟩ := (Txn.exec_bind_ok s).mp h
  obtain ⟨_, s₂, hitems, h₂⟩ := (Txn.exec_bind_ok s₁).mp h₁
  obtain ⟨b', s₃, htotal, h₃⟩ := (Txn.exec_bind_ok s₂).mp h₂
  obtain ⟨_, s₄, haudit, h₄⟩ := (Txn.exec_bind_ok s₃).mp h₃
  obtain ⟨_, s₅, hdispatch, h₅⟩ := (Txn.exec_bind_ok s₄).mp h₄
  obtain ⟨_, s₆, hnotify, h₆⟩ := (Txn.exec_bind_ok s₅).mp h₅
  obtain ⟨rfl, rfl⟩ := Prod.mk.inj (Except.ok.inj h₆)
  obtain ⟨rfl, hfree⟩ := insertBill_exec hinsert
  have hid : ¬BillKeyTaken (.bill (env.gen.billId k)) s := hfree _ List.mem_cons_self
  obtain ⟨items, hrows, rfl⟩ := createItems_exec hitems
  obtain ⟨total, rfl, hcents, rfl⟩ := recalculateTotal_exec htotal
  obtain ⟨-, rfl⟩ := exec_recordAuditEvent_ok haudit
  obtain ⟨account, haccount, rfl⟩ := dispatchBillEvent_exec hdispatch
  obtain ⟨account', customer, tenant, notifications, haccount', hcustomer, htenant, hnotices,
    rfl⟩ := notifyBillCreated_exec hnotify
  obtain rfl : account = account' := Option.some.inj (haccount.symm.trans haccount')
  have hsame : ((s.billItems ++ items).filter (·.bill = env.gen.billId k)) = items := by
    rw [List.filter_append, hs.no_items hid, List.nil_append, List.filter_eq_self]
    exact fun item hitem => decide_eq_true (items_bill hrows item hitem)
  have hfresh : ∀ row ∈ s.bills, row.id ≠ env.gen.billId k :=
    fun row hrow hrowId => hid (billKeyTaken_id hrow hrowId)
  have hbooks : ((s.toBooks.addBill (input.newBill (env.gen.billId k)
      (env.gen.billNumber k))).addItems items).updateBill (env.gen.billId k)
        (fun row => { row with totalAmount := total }) = _ :=
    updateBill_addItems hfresh
  let bill := { input.newBill (env.gen.billId k) (env.gen.billNumber k) with totalAmount := total }
  let rows : BillRows :=
    ⟨bill, items, bill.creationAudit env, deliveriesTo env input.tenant "bill.created"
      (bill.eventPayload bill.recalculatedText account) (activeEndpoints s input.tenant),
      notifications⟩
  refine ⟨rows, ⟨⟨k, total, rfl⟩, hrows, ?_, rfl, account, customer, tenant, haccount, hcustomer,
    htenant, rfl, hnotices⟩, rfl, ?_, hfree⟩
  · exact hcents.trans
      (congrArg (fun rows : List BillItem => (rows.map (·.lineTotal.cents)).sum) hsame)
  · have hdb : ∀ b : Books, b = (rows.addTo s).toBooks →
        inTrail (·.addNotifications notifications) (inTrail (·.addDeliveries rows.deliveries)
          (inTrail (·.addAudit rows.audit) { s with toBooks := b })) = rows.addTo s := by
      rintro _ rfl
      rfl
    exact hdb _ hbooks

end Alone

end Kusanya
