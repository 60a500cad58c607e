import Kusanya.Guarantees.CredentialLifecycle
import Kusanya.Model.ReadApi

/-!
# The API shows a tenant its own rows

The answer to a `GET` is that of the database without the rows of other tenants.  Every list starts
from the rows of the credential's tenant, every detail looks for a row of that tenant, and what the
serializers follow from such a row stays with the tenant as long as foreign keys do.
-/

namespace Kusanya.Api

open Support

/-- Foreign keys join rows of one tenant. -/
structure Coherent (db : Tables) : Prop where
  accounts : ∀ a ∈ db.accounts, ∀ c ∈ db.customers, a.customer = c.id → a.tenant = c.tenant
  bills : ∀ b ∈ db.bills, ∀ a ∈ db.accounts, b.customerAccount = a.id → b.tenant = a.tenant
  items : ∀ i ∈ db.items, ∀ b ∈ db.bills, i.bill = b.id → i.tenant = b.tenant
  billNumbers : ∀ cn ∈ db.controlNumbers, ∀ b ∈ db.bills, cn.bill? = some b.id →
    cn.tenant = b.tenant
  accountNumbers : ∀ cn ∈ db.controlNumbers, ∀ a ∈ db.accounts,
    cn.owner = .customerAccount a.id → cn.tenant = a.tenant
  payments : ∀ p ∈ db.payments, ∀ cn ∈ db.controlNumbers, p.controlNumber = cn.id →
    p.tenant = cn.tenant
  batches : ∀ p ∈ db.payments, ∀ b ∈ db.batches, p.settlementBatch = some b.id →
    p.tenant = b.tenant
  allocatedPayments : ∀ l ∈ db.allocations, ∀ p ∈ db.payments, l.payment = p.id →
    l.tenant = p.tenant
  allocatedBills : ∀ l ∈ db.allocations, ∀ b ∈ db.bills, l.bill = b.id → l.tenant = b.tenant

/-- The database with the rows of one tenant, and the tables that belong to none. -/
def Tables.of (db : Tables) (tenant : ℕ) : Tables :=
  { db with
    customers := db.customers.filter (·.tenant = tenant)
    accounts := db.accounts.filter (·.tenant = tenant)
    bills := db.bills.filter (·.tenant = tenant)
    items := db.items.filter (·.tenant = tenant)
    controlNumbers := db.controlNumbers.filter (·.tenant = tenant)
    payments := db.payments.filter (·.tenant = tenant)
    allocations := db.allocations.filter (·.tenant = tenant)
    runs := db.runs.filter (·.tenant = tenant)
    batches := db.batches.filter (·.tenant = tenant)
    endpoints := db.endpoints.filter (·.tenant = tenant)
    notifications := db.notifications.filter (·.tenant = tenant) }

/-! ## Lists -/

section Lists

variable {α β : Type} {p q : α → Bool} {l : List α}

/-- Rows that pass `q` anyway pass `p` need not be filtered by `p` first. -/
theorem filter_filter_of_imp (h : ∀ x ∈ l, q x = true → p x = true) :
    (l.filter p).filter q = l.filter q := by
  rw [List.filter_filter]
  apply List.filter_congr
  intro x hx
  by_cases hq : q x = true
  · rw [hq, h x hx hq]
    rfl
  · rw [Bool.not_eq_true] at hq
    rw [hq]
    rfl

theorem find?_filter_of_imp (h : ∀ x ∈ l, q x = true → p x = true) :
    (l.filter p).find? q = l.find? q := by
  rw [← List.head?_filter, filter_filter_of_imp h, List.head?_filter]

theorem filter_twice (l : List α) (p : α → Bool) : (l.filter p).filter p = l.filter p :=
  filter_filter_of_imp fun _ _ h => h

theorem mapM_congr {f g : α → Except ViewError β} (h : ∀ x ∈ l, f x = g x) :
    l.mapM f = l.mapM g := by
  induction l with
  | nil => rfl
  | cons x rest ih =>
      rw [List.mapM_cons, List.mapM_cons, h x List.mem_cons_self,
        ih fun y hy => h y (List.mem_cons_of_mem x hy)]

/-- Filtering by a parameter only leaves rows out. -/
theorem mem_of_mem_filterBy {get : Get} {key : String} {column : α → String} {x : α}
    (h : x ∈ get.filterBy key column l) : x ∈ l := by
  unfold Get.filterBy at h
  split at h
  · exact (List.mem_filter.mp h).1
  · exact h

theorem mem_of_mem_newestFirst {stamp : α → Time} {x : α} (h : x ∈ newestFirst stamp l) : x ∈ l :=
  List.mem_mergeSort.mp h

end Lists

/-! ## What a serializer follows -/

section Serializers

variable {db : Tables} {tenant : ℕ} (hcoherent : Coherent db)
include hcoherent

theorem itemsOf_of {bill : BillRow} (hbill : bill ∈ db.bills) (htenant : bill.tenant = tenant) :
    (db.of tenant).itemsOf bill.id = db.itemsOf bill.id := by
  unfold Tables.itemsOf Tables.of
  dsimp only
  rw [filter_filter_of_imp]
  intro item hitem hof
  have hsame := hcoherent.items item hitem bill hbill (of_decide_eq_true hof)
  exact decide_eq_true (hsame.trans htenant)

theorem amountPaid_of {bill : BillRow} (hbill : bill ∈ db.bills) (htenant : bill.tenant = tenant) :
    (db.of tenant).amountPaid bill.id = db.amountPaid bill.id := by
  unfold Tables.amountPaid Tables.of
  dsimp only
  rw [filter_filter_of_imp]
  intro allocation hallocation hof
  have hsame := hcoherent.allocatedBills allocation hallocation bill hbill (of_decide_eq_true hof)
  exact decide_eq_true (hsame.trans htenant)

theorem controlNumberOf_of {bill : BillRow} (hbill : bill ∈ db.bills)
    (htenant : bill.tenant = tenant) :
    (db.of tenant).controlNumberOf bill.id = db.controlNumberOf bill.id := by
  apply find?_filter_of_imp
  intro cn hcn hof
  have hsame := hcoherent.billNumbers cn hcn bill hbill (of_decide_eq_true hof)
  exact decide_eq_true (hsame.trans htenant)

theorem billSerializer_of (formats : Formats) {bill : BillRow} (hbill : bill ∈ db.bills)
    (htenant : bill.tenant = tenant) :
    billSerializer formats (db.of tenant) bill = billSerializer formats db bill := by
  unfold billSerializer
  rw [itemsOf_of hcoherent hbill htenant, amountPaid_of hcoherent hbill htenant,
    controlNumberOf_of hcoherent hbill htenant]

theorem controlNumber_of {payment : Payment} (hpayment : payment ∈ db.payments)
    (htenant : payment.tenant = tenant) :
    (db.of tenant).controlNumber payment.controlNumber =
      db.controlNumber payment.controlNumber := by
  apply find?_filter_of_imp
  intro cn hcn hof
  have hsame := hcoherent.payments payment hpayment cn hcn (of_decide_eq_true hof).symm
  exact decide_eq_true (hsame.symm.trans htenant)

theorem bill_of {cn : ControlNumberRow} (hcn : cn ∈ db.controlNumbers)
    (htenant : cn.tenant = tenant) {id : ℕ} (hid : cn.bill? = some id) :
    (db.of tenant).bill id = db.bill id := by
  apply find?_filter_of_imp
  intro bill hbill hof
  obtain rfl := of_decide_eq_true hof
  have hsame := hcoherent.billNumbers cn hcn bill hbill hid
  exact decide_eq_true (hsame.symm.trans htenant)

theorem getBillNumber_of {cn : ControlNumberRow} (hcn : cn ∈ db.controlNumbers)
    (htenant : cn.tenant = tenant) : getBillNumber (db.of tenant) cn = getBillNumber db cn := by
  unfold getBillNumber
  split
  · rfl
  · next id hid => rw [bill_of hcoherent hcn htenant hid]

theorem paymentSerializer_of (formats : Formats) {payment : Payment}
    (hpayment : payment ∈ db.payments) (htenant : payment.tenant = tenant) :
    paymentSerializer formats (db.of tenant) payment = paymentSerializer formats db payment := by
  unfold paymentSerializer
  rw [controlNumber_of hcoherent hpayment htenant]
  cases hfound : db.controlNumber payment.controlNumber with
  | none => rfl
  | some cn =>
      have hcn : cn ∈ db.controlNumbers := List.mem_of_find?_eq_some hfound
      have hfit := List.find?_some hfound
      have hid : cn.id = payment.controlNumber := of_decide_eq_true hfit
      have hsame := hcoherent.payments payment hpayment cn hcn hid.symm
      have hnumber := getBillNumber_of hcoherent hcn (hsame.symm.trans htenant)
      simp only [Option.map_some, Option.getD_some, bind, Except.bind, hnumber]

end Serializers

/-! ## Views -/

section Views

variable {db : Tables} {tenant : ℕ} (hcoherent : Coherent db) (formats : Formats) (get : Get)
include hcoherent

theorem billList_of :
    billList formats (db.of tenant) tenant get = billList formats db tenant get := by
  unfold billList
  rw [show (db.of tenant).bills = db.bills.filter (·.tenant = tenant) from rfl, filter_twice]
  dsimp only
  rw [mapM_congr]
  intro bill hbill
  have hmem := List.mem_filter.mp <| mem_of_mem_newestFirst <| mem_of_mem_filterBy <|
    mem_of_mem_filterBy <| List.mem_of_mem_take hbill
  exact billSerializer_of hcoherent formats hmem.1 (of_decide_eq_true hmem.2)

theorem paymentList_of :
    paymentList formats (db.of tenant) tenant get = paymentList formats db tenant get := by
  unfold paymentList
  rw [show (db.of tenant).payments = db.payments.filter (·.tenant = tenant) from rfl, filter_twice]
  dsimp only
  rw [mapM_congr]
  intro payment hpayment
  have hmem := List.mem_filter.mp <| mem_of_mem_newestFirst <| mem_of_mem_filterBy <|
    List.mem_of_mem_take hpayment
  exact paymentSerializer_of hcoherent formats hmem.1 (of_decide_eq_true hmem.2)

omit hcoherent in
/-- A detail of the tenant is found among the rows of the tenant. -/
theorem find?_own {α : Type} (id tenantOf : α → ℕ) (rows : List α) (pk : ℕ) :
    ((rows.filter fun row => tenantOf row = tenant).find? fun row =>
        id row = pk && tenantOf row = tenant) =
      rows.find? fun row => id row = pk && tenantOf row = tenant := by
  apply find?_filter_of_imp
  intro row _ hrow
  exact (Bool.and_eq_true_iff.mp hrow).2

theorem detail_of (pk : ℕ) (kind : Detail) :
    detail formats (db.of tenant) tenant pk kind = detail formats db tenant pk kind := by
  cases kind with
  | customer =>
      unfold detail Tables.of
      dsimp only
      rw [find?_own (α := CustomerRow) (·.id) (·.tenant)]
  | settlementBatch =>
      unfold detail Tables.of
      dsimp only
      rw [find?_own (α := SettlementBatch) (·.id) (·.tenant)]
  | bill =>
      unfold detail
      rw [show (db.of tenant).bills = db.bills.filter (·.tenant = tenant) from rfl,
        find?_own (α := BillRow) (·.id) (·.tenant)]
      dsimp only
      cases hfound : db.bills.find? fun b => b.id = pk && b.tenant = tenant with
      | none => rfl
      | some bill =>
          have hfit := List.find?_some hfound
          have htenant := (Bool.and_eq_true_iff.mp hfit).2
          exact billSerializer_of hcoherent formats (List.mem_of_find?_eq_some hfound)
            (of_decide_eq_true htenant)
  | payment =>
      unfold detail
      rw [show (db.of tenant).payments = db.payments.filter (·.tenant = tenant) from rfl,
        find?_own (α := Payment) (·.id) (·.tenant)]
      dsimp only
      cases hfound : db.payments.find? fun p => p.id = pk && p.tenant = tenant with
      | none => rfl
      | some payment =>
          have hfit := List.find?_some hfound
          have htenant := (Bool.and_eq_true_iff.mp hfit).2
          exact paymentSerializer_of hcoherent formats (List.mem_of_find?_eq_some hfound)
            (of_decide_eq_true htenant)

/-- Every view shows what it would show without the rows of other tenants. -/
theorem view_of (endpoint : Endpoint) :
    view formats (db.of tenant) tenant get endpoint = view formats db tenant get endpoint := by
  cases endpoint with
  | schema => rfl
  | docs => rfl
  | institutionMe => rfl
  | customerList => simp only [view, customerList, Tables.of, filter_twice]
  | accountList => simp only [view, accountList, Tables.of, filter_twice]
  | billList => exact billList_of hcoherent formats get
  | paymentList => exact paymentList_of hcoherent formats get
  | reconciliationList => simp only [view, reconciliationRunList, Tables.of, filter_twice]
  | settlementList => simp only [view, settlementBatchList, Tables.of, filter_twice]
  | webhookList => simp only [view, webhookEndpointList, Tables.of, filter_twice]
  | notificationList => simp only [view, notificationList, Tables.of, filter_twice]
  | detail kind pk => exact detail_of hcoherent formats pk kind

end Views

/-! ## Noninterference -/

/-- The tenant whose credential the header carries. -/
def credentialTenant (setting : Setting) (db : Tables) (get : Get) : Option ℕ :=
  db.access.authenticatesAs setting.hasher setting.now get.header

/-- Two databases with the same credentials, the same tables that belong to no tenant, and the same
rows of `tenant`. -/
structure AgreeFor (tenant : Option ℕ) (db db' : Tables) : Prop where
  tenants : db.tenants = db'.tenants
  credentials : db.credentials = db'.credentials
  rows : ∀ t ∈ tenant, db.of t = db'.of t

/-- No row with this key belongs to the tenant, whether or not there is one at all. -/
def Absent (db : Tables) (tenant : ℕ) (pk : ℕ) : Detail → Prop
  | .customer => ∀ row ∈ db.customers, row.id = pk → row.tenant ≠ tenant
  | .bill => ∀ row ∈ db.bills, row.id = pk → row.tenant ≠ tenant
  | .payment => ∀ row ∈ db.payments, row.id = pk → row.tenant ≠ tenant
  | .settlementBatch => ∀ row ∈ db.batches, row.id = pk → row.tenant ≠ tenant

section Noninterference

variable {setting : Setting} {db db' : Tables} {get : Get}

/-- Nothing but the outcome of authentication decides before the view runs. -/
theorem respond_eq (haccess : db.access = db'.access)
    (hview : ∀ t, credentialTenant setting db get = some t →
      view setting.formats db t get get.endpoint = view setting.formats db' t get get.endpoint) :
    respond setting db get = respond setting db' get := by
  unfold credentialTenant Access.authenticatesAs at hview
  unfold respond
  rw [← haccess]
  split
  · rfl
  · rfl
  · rfl
  · next credential tenant access hexec =>
      rw [hexec] at hview
      rw [hview tenant.id rfl]

theorem answer_eq (h : respond setting db get = respond setting db' get) :
    answer setting db get = answer setting db' get := by
  unfold answer
  split
  · rfl
  · rfl
  · exact h

theorem find?_absent {α : Type} {id tenantOf : α → ℕ} {rows : List α} {tenant pk : ℕ}
    (h : ∀ row ∈ rows, id row = pk → tenantOf row ≠ tenant) :
    (rows.find? fun row => id row = pk && tenantOf row = tenant) = none := by
  rw [List.find?_eq_none]
  intro row hrow hfit
  obtain ⟨hid, htenant⟩ := Bool.and_eq_true_iff.mp hfit
  exact h row hrow (of_decide_eq_true hid) (of_decide_eq_true htenant)

/-- The name of the model in the message of a 404. -/
def Detail.model : Detail → String
  | customer => "Customer"
  | bill => "Bill"
  | payment => "Payment"
  | settlementBatch => "SettlementBatch"

/-- What is not the tenant's is answered as what does not exist. -/
theorem detail_absent (formats : Formats) {tenant pk : ℕ} {kind : Detail}
    (h : Absent db tenant pk kind) :
    detail formats db tenant pk kind =
      .error (.http404 ("No " ++ kind.model ++ " matches the given query.")) := by
  cases kind with
  | customer =>
      unfold detail
      rw [find?_absent (α := CustomerRow) h]
      rfl
  | bill =>
      unfold detail
      rw [find?_absent (α := BillRow) h]
      rfl
  | payment =>
      unfold detail
      rw [find?_absent (α := Payment) h]
      rfl
  | settlementBatch =>
      unfold detail
      rw [find?_absent (α := SettlementBatch) h]
      rfl

end Noninterference

/-- Two coherent databases that agree for the credential's tenant give the same answer to every
`GET`; and the key of another tenant's row is answered as a key that no row has. -/
theorem read_noninterference (setting : Setting) (db db' : Tables) (get : Get)
    (hcoherent : Coherent db) (hcoherent' : Coherent db')
    (hagree : AgreeFor (credentialTenant setting db get) db db') :
    answer setting db get = answer setting db' get ∧
      ∀ kind pk pk', (∀ t ∈ credentialTenant setting db get, Absent db t pk kind) →
        (∀ t ∈ credentialTenant setting db get, Absent db' t pk' kind) →
        answer setting db { get with endpoint := .detail kind pk } =
          answer setting db' { get with endpoint := .detail kind pk' } := by
  have haccess : db.access = db'.access := by
    unfold Tables.access
    rw [hagree.tenants, hagree.credentials]
  constructor
  · apply answer_eq
    apply respond_eq haccess
    intro t ht
    rw [← view_of hcoherent, ← view_of hcoherent', hagree.rows t ht]
  · intro kind pk pk' habsent habsent'
    unfold answer
    dsimp only
    unfold respond
    rw [← haccess]
    dsimp only
    split
    · rfl
    · rfl
    · rfl
    · next credential tenant access hexec =>
        have htenant : credentialTenant setting db get = some tenant.id := by
          unfold credentialTenant Access.authenticatesAs
          rw [hexec]
        simp only [view, detail_absent setting.formats (habsent _ htenant),
          detail_absent setting.formats (habsent' _ htenant)]

/-- Two institutions, a credential and a customer of the first one, and other customers. -/
def twoInstitutions (others : List CustomerRow) : Tables :=
  { tenants :=
      [⟨⟨1, "School", "TZS", .clawback⟩, "education", .active, 0⟩,
       ⟨⟨2, "Clinic", "TZS", .clawback⟩, "healthcare", .active, 0⟩]
    credentials :=
      [⟨1, 1, lateKeyId, ['!', 's'], ['E', 'R', 'P'], true, none, none, none⟩]
    customers := ⟨⟨1, 1, "Asha", "", ""⟩, "", true, 0⟩ :: others
    accounts := []
    bills := []
    items := []
    controlNumbers := []
    payments := []
    allocations := []
    runs := []
    batches := []
    endpoints := []
    notifications := [] }

/-- Keys and instants written as numbers. -/
def numeralSetting : Setting where
  hasher := markingHasher
  now := 0
  formats :=
    { uuid := Text.decimal
      datetime := Text.decimal
      date := Text.decimal
      parseUuid := fun _ => none
      parseInt := fun _ => none }
  throttled := fun _ => none

/-- `GET /customers/7/` with the credential of the first institution. -/
def customerSeven : Get where
  endpoint := .detail .customer 7
  params := []
  header := bearer ++ ['k', '.', 's']
  pageUrl := fun _ => []

theorem customerSeven_tenant (others : List CustomerRow) :
    credentialTenant numeralSetting (twoInstitutions others) customerSeven = some 1 := rfl

/-- A customer of the clinic with the key 7 makes no difference to the school. -/
theorem read_noninterference_customer :
    answer numeralSetting (twoInstitutions [⟨⟨7, 2, "Juma", "", ""⟩, "", true, 0⟩]) customerSeven =
      answer numeralSetting (twoInstitutions []) customerSeven := by
  refine (read_noninterference numeralSetting
    (twoInstitutions [⟨⟨7, 2, "Juma", "", ""⟩, "", true, 0⟩])
    (twoInstitutions []) customerSeven ?_ ?_ ?_).1
  · constructor <;> decide
  · constructor <;> decide
  · refine ⟨rfl, rfl, fun t ht => ?_⟩
    rw [customerSeven_tenant] at ht
    obtain rfl := Option.some.inj ht
    rfl

end Kusanya.Api
