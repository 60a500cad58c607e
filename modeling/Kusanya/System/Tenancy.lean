import Kusanya.Invariants.Concerns
import Kusanya.Moves.Persistence
import Kusanya.System.Accounting
import Kusanya.System.RowIdentity

/-!
# Rows that belong together belong to one tenant

Nearly every table has a column for the tenant next to its other foreign keys, and no constraint
ties the two.  A foreign key leads to a row of the same tenant because each request looks rows up
within its tenant, or follows foreign keys from a row that it found so.  Requests of different
tenants run next to each other, and a provider's callback runs in nobody's name.
-/

namespace Kusanya

open ReadCommitted Support

/-! ## Foreign keys -/

/-- The row that a generic foreign key leads to is the tenant's. -/
def Source.Exists (source : Source) (tenant : ℕ) (b : Books) : Prop :=
  match source with
  | .bill id => ∃ row ∈ b.bills, row.id = id ∧ row.tenant = tenant
  | .controlNumber id => ∃ row ∈ b.controlNumbers, row.id = id ∧ row.tenant = tenant
  | .payment id => ∃ row ∈ b.payments, row.id = id ∧ row.tenant = tenant
  | .callbackEvent id => ∃ row ∈ b.callbackEvents, row.id = id
  | .settlementBatch id => ∃ row ∈ b.batches, row.id = id ∧ row.tenant = tenant

/-- An allocation goes from a payment to the bill behind the payment's control number. -/
structure PaymentAllocation.Routed (a : PaymentAllocation) (p : Payment) (cn : ControlNumber)
    (bill : Bill) : Prop where
  payment : p.id = a.payment ∧ p.tenant = a.tenant
  controlNumber : cn.id = p.controlNumber ∧ cn.tenant = a.tenant
  owner : cn.owner = .bill bill.id
  bill : bill.id = a.bill ∧ bill.tenant = a.tenant

/-- Every foreign key of the money tables leads to a row of the same tenant. -/
structure Books.Tenanted (d : Directory) (b : Books) : Prop where
  bills : ∀ bill ∈ b.bills, ∃ account ∈ d.accounts,
    account.id = bill.customerAccount ∧ account.tenant = bill.tenant
  billItems : ∀ item ∈ b.billItems, ∃ bill ∈ b.bills, bill.id = item.bill ∧
    bill.tenant = item.tenant
  controlNumbers : ∀ cn ∈ b.controlNumbers, cn.owner.Exists cn.tenant d b
  payments : ∀ p ∈ b.payments, ∃ cn ∈ b.controlNumbers, cn.id = p.controlNumber ∧
    cn.tenant = p.tenant
  settled : ∀ p ∈ b.payments, ∀ id, p.settlementBatch = some id →
    ∃ batch ∈ b.batches, batch.id = id ∧ batch.tenant = p.tenant
  allocations : ∀ a ∈ b.allocations, ∃ p ∈ b.payments, ∃ cn ∈ b.controlNumbers, ∃ bill ∈ b.bills,
    a.Routed p cn bill
  receipts : ∀ row ∈ b.receipts, ∃ p ∈ b.payments, p.id = row.payment ∧ p.tenant = row.tenant
  ledger : ∀ row ∈ b.ledger, ∀ source, row.source = some source → source.Exists row.tenant b
  related : ∀ row ∈ b.ledger, ∀ original, row.relatedEntry = some original →
    original.tenant = row.tenant ∧ ∃ old ∈ b.ledger, old.toPosting = original
  revenue : ∀ e ∈ b.revenue, e.source.Exists e.tenant b
  posted : ∀ e ∈ b.revenue, ∀ row, e.ledgerEntry = some row → row ∈ b.ledger ∧ row.tenant = e.tenant

section Growth

variable {b b' : Books} {d : Directory}

/-- A row with given columns is still there when the tables have grown. -/
theorem Books.Grows.bill (h : b.Grows b') {id tenant : ℕ}
    (hrow : ∃ row ∈ b.bills, row.id = id ∧ row.tenant = tenant) :
    ∃ row ∈ b'.bills, row.id = id ∧ row.tenant = tenant := by
  obtain ⟨row, hrow, rfl, rfl⟩ := hrow
  obtain ⟨row', hrow', hfixed⟩ := h.bills.mem hrow
  exact ⟨row', hrow', congrArg Bill.Fixed.id hfixed, congrArg Bill.Fixed.tenant hfixed⟩

theorem Books.Grows.controlNumber (h : b.Grows b') {id tenant : ℕ}
    (hrow : ∃ row ∈ b.controlNumbers, row.id = id ∧ row.tenant = tenant) :
    ∃ row ∈ b'.controlNumbers, row.id = id ∧ row.tenant = tenant := by
  obtain ⟨row, hrow, rfl, rfl⟩ := hrow
  obtain ⟨row', hrow', hfixed⟩ := h.controlNumbers.mem hrow
  exact ⟨row', hrow', congrArg ControlNumber.Fixed.id hfixed,
    congrArg ControlNumber.Fixed.tenant hfixed⟩

theorem Books.Grows.payment (h : b.Grows b') {id tenant : ℕ}
    (hrow : ∃ row ∈ b.payments, row.id = id ∧ row.tenant = tenant) :
    ∃ row ∈ b'.payments, row.id = id ∧ row.tenant = tenant := by
  obtain ⟨row, hrow, rfl, rfl⟩ := hrow
  obtain ⟨row', hrow', hfixed⟩ := h.payments.mem hrow
  exact ⟨row', hrow', congrArg Payment.Fixed.id hfixed, congrArg Payment.Fixed.tenant hfixed⟩

theorem Books.Grows.batch (h : b.Grows b') {id tenant : ℕ}
    (hrow : ∃ row ∈ b.batches, row.id = id ∧ row.tenant = tenant) :
    ∃ row ∈ b'.batches, row.id = id ∧ row.tenant = tenant := by
  obtain ⟨row, hrow, rfl, rfl⟩ := hrow
  obtain ⟨row', hrow', hfixed⟩ := h.batches.mem hrow
  exact ⟨row', hrow', congrArg SettlementBatch.Fixed.id hfixed,
    congrArg SettlementBatch.Fixed.tenant hfixed⟩

theorem Source.Exists.grows {source : Source} {tenant : ℕ} (hsource : source.Exists tenant b)
    (h : b.Grows b') : source.Exists tenant b' := by
  cases source with
  | bill id => exact h.bill hsource
  | controlNumber id => exact h.controlNumber hsource
  | payment id => exact h.payment hsource
  | callbackEvent id =>
      obtain ⟨row, hrow, hid⟩ := hsource
      obtain ⟨row', hrow', hfixed⟩ := h.callbackEvents.mem hrow
      exact ⟨row', hrow', (congrArg PaymentCallbackEvent.Fixed.id hfixed).trans hid⟩
  | settlementBatch id => exact h.batch hsource

theorem Owner.Exists.grows {owner : Owner} {tenant : ℕ} (howner : owner.Exists tenant d b)
    (h : b.Grows b') : owner.Exists tenant d b' := by
  cases owner with
  | bill id => exact h.bill howner
  | customerAccount id => exact howner

end Growth

/-- Only the settlement moves payments into batches. -/
theorem Move.onPayment_claim {m : Move} (hnot : ∀ batch claimed, m ≠ .openBatch batch claimed)
    (row : Payment) : (m.onPayment row).claim = row.claim := by
  cases m with
  | refer id reference raw =>
      by_cases hid : row.id = id
      · simp only [Move.onPayment, if_pos hid]
        rfl
      · simp only [Move.onPayment, if_neg hid]
  | enter payment =>
      by_cases hid : row.id = payment.id
      · simp only [Move.onPayment, if_pos hid]
        rfl
      · simp only [Move.onPayment, if_neg hid]
  | settle s =>
      by_cases hid : row.id = s.payment.id
      · simp only [Move.onPayment, if_pos hid]
        rfl
      · simp only [Move.onPayment, if_neg hid]
  | undo env payment fee metadata =>
      by_cases hid : row.id = payment.id
      · simp only [Move.onPayment, if_pos hid]
        rfl
      · simp only [Move.onPayment, if_neg hid]
  | openBatch batch claimed => exact absurd rfl (hnot batch claimed)
  | _ => rfl

/-! ## A commit -/

/-- The moves of one commit: what the request saw is in the tables that the commit finds, and the
moves are about rows that it knows. -/
structure Committing (view : View) (ms : List Move) (d : Directory) (b : Books) : Prop where
  chain : view.Chain ms
  orderly : ∀ m ∈ ms, m.Orderly
  sees : view.Within d.accounts b
  concerns : ∀ m ∈ ms, (∃ tenant, m.Concerns view ms tenant) ∨ ∃ f, m = .editControlNumbers f
  claims : ∀ batch claimed, .openBatch batch claimed ∈ ms →
    ms = [.openBatch batch claimed] ∧ batch.Claims claimed b
  undoes : ∀ env payment fee metadata, .undo env payment fee metadata ∈ ms →
    UndoGuard view payment fee
  payments : ((Move.runAll ms b).payments.map (·.id)).Nodup
  ids : (Move.runAll ms b).ids.Nodup

namespace Committing

variable {view : View} {ms : List Move} {d : Directory} {b : Books}

section Rows

variable (h : Committing view ms d b)

include h

theorem grows : b.Grows (Move.runAll ms b) := h.chain.grows h.orderly b

theorem newIn : ∀ m ∈ ms, m.NewIn (Move.runAll ms b) := h.chain.newIn h.orderly b

/-- What the request saw is there in the end. -/
theorem seen : view.Within d.accounts (Move.runAll ms b) := by
  intro what d' b' hview
  obtain ⟨haccounts, hwithin⟩ := h.sees what d' b' hview
  have hgrows := h.grows.within
  refine ⟨haccounts, fun row hrow => ?_, fun row hrow => ?_, fun row hrow => ?_,
    fun row hrow => hgrows.ledger row (hwithin.ledger row hrow),
    fun e he => hgrows.revenue e (hwithin.revenue e he)⟩
  · obtain ⟨row', hrow', hfixed⟩ := hwithin.bills row hrow
    obtain ⟨row'', hrow'', hfixed'⟩ := hgrows.bills row' hrow'
    exact ⟨row'', hrow'', hfixed'.trans hfixed⟩
  · obtain ⟨row', hrow', hfixed⟩ := hwithin.controlNumbers row hrow
    obtain ⟨row'', hrow'', hfixed'⟩ := hgrows.controlNumbers row' hrow'
    exact ⟨row'', hrow'', hfixed'.trans hfixed⟩
  · obtain ⟨row', hrow', hfixed⟩ := hwithin.payments row hrow
    obtain ⟨row'', hrow'', hfixed'⟩ := hgrows.payments row' hrow'
    exact ⟨row'', hrow'', hfixed'.trans hfixed⟩

theorem guards : ∀ m ∈ ms, ∃ view' : View, view'.Within d.accounts (Move.runAll ms b) ∧
    m.Guard view' :=
  h.chain.guards h.seen h.newIn

theorem payment_eq {p q : Payment} (hp : p ∈ (Move.runAll ms b).payments)
    (hq : q ∈ (Move.runAll ms b).payments) (hid : p.id = q.id) : p = q :=
  eq_of_key h.payments hp hq hid

theorem bill_eq {row row' : Bill} (hrow : row ∈ (Move.runAll ms b).bills)
    (hrow' : row' ∈ (Move.runAll ms b).bills) (hid : row.id = row'.id) : row = row' :=
  eq_of_key (List.nodup_append.mp h.ids).1 hrow hrow' (congrArg Resource.bill hid)

theorem controlNumber_eq {cn cn' : ControlNumber} (hcn : cn ∈ (Move.runAll ms b).controlNumbers)
    (hcn' : cn' ∈ (Move.runAll ms b).controlNumbers) (hid : cn.id = cn'.id) : cn = cn' :=
  eq_of_key (List.nodup_append.mp h.ids).2.1 hcn hcn' (congrArg Resource.controlNumber hid)

/-- A payment that the request knows is there in the end. -/
theorem known {p : Payment} (hp : view.Holds p ∨ ∃ m ∈ ms, p ∈ m.opened) :
    ∃ row ∈ (Move.runAll ms b).payments, row.fixed = p.fixed := by
  rcases hp with hheld | ⟨m, hm, hopened⟩
  · exact h.seen.payment hheld
  · exact (h.newIn m hm).payments p hopened

/-- A payment whose status is saved is there in the end. -/
theorem entered {m : Move} (hm : m ∈ ms) {p : Payment} (hp : m.entered = some p) :
    ∃ row ∈ (Move.runAll ms b).payments, row.fixed = p.fixed := by
  obtain ⟨q, hq, hfixed⟩ := h.chain.entered hm hp
  obtain ⟨row, hrow, hsame⟩ := h.known hq
  exact ⟨row, hrow, hsame.trans hfixed⟩

/-! ### Tables -/

theorem items_tenant {items : List BillItem} {bill : Bill} {now : Time}
    (hm : .openBill items bill now ∈ ms) : ∀ item ∈ items, item.tenant = bill.tenant := by
  rcases h.concerns _ hm with ⟨tenant, hconcerns⟩ | ⟨f, hf⟩
  · cases hconcerns with
    | billOpened opens => exact fun item hitem => (opens.items item hitem).trans opens.bill.symm
    | payment _ _ about => exact about.elim
  · cases hf

/-- The fee that is taken back was booked for the payment's tenant. -/
theorem undone_fee {env : Env} {payment : Payment} {f : RevenueEvent}
    {metadata : List (String × String)} (hm : .undo env payment (some f) metadata ∈ ms) :
    f ∈ b.revenue ∧ f.tenant = payment.tenant := by
  obtain ⟨original, tenant, ⟨what, d', b', hseen, horiginal⟩, -, hclawback⟩ :=
    (h.undoes _ _ _ _ hm).fee
  rw [original_of_clawback hclawback] at horiginal
  obtain ⟨hmem, hkey⟩ := List.mem_filter.mp (newestEvent_mem horiginal)
  simp only [Bool.and_eq_true, decide_eq_true_eq] at hkey
  exact ⟨(h.sees what d' b' hseen).2.revenue f hmem, hkey.1.1⟩

variable (hb : b.Tenanted d)

include hb

theorem bills : ∀ bill ∈ (Move.runAll ms b).bills, ∃ account ∈ d.accounts,
    account.id = bill.customerAccount ∧ account.tenant = bill.tenant := by
  intro bill hbill
  rcases mem_runAll_keyed Move.run_bills (fun m _ row => m.onBill_fixed row) hbill with
    ⟨old, hold, hfixed⟩ | ⟨m, hm, new, hnew, hfixed⟩
  · obtain ⟨account, haccount, hid, htenant⟩ := hb.bills old hold
    exact ⟨account, haccount, hid.trans (congrArg Bill.Fixed.customerAccount hfixed),
      htenant.trans (congrArg Bill.Fixed.tenant hfixed)⟩
  · obtain ⟨view', hview, hguard⟩ := h.guards m hm
    cases m with
    | openBill items opened now =>
        obtain ⟨-, -, -, -, -, what, d', b', hseen, account, haccount, hid, htenant⟩ := hguard
        rw [(hview what d' b' hseen).1] at haccount
        rw [List.mem_singleton.mp hnew] at hfixed
        exact ⟨account, haccount, hid.trans (congrArg Bill.Fixed.customerAccount hfixed),
          htenant.trans (congrArg Bill.Fixed.tenant hfixed)⟩
    | _ => cases hnew

theorem billItems : ∀ item ∈ (Move.runAll ms b).billItems, ∃ bill ∈ (Move.runAll ms b).bills,
    bill.id = item.bill ∧ bill.tenant = item.tenant := by
  intro item hitem
  rcases mem_runAll_appended Move.run_billItems hitem with hold | ⟨m, hm, hnew⟩
  · exact h.grows.bill (hb.billItems item hold)
  · obtain ⟨view', hview, hguard⟩ := h.guards m hm
    cases m with
    | openBill items opened now =>
        obtain ⟨-, hitems, -⟩ := hguard
        obtain ⟨row, hrow, hfixed⟩ := (h.newIn _ hm).bills _ (List.mem_singleton.mpr rfl)
        refine ⟨row, hrow, ?_, ?_⟩
        · rw [hitems item hnew]
          exact congrArg Bill.Fixed.id hfixed
        · rw [h.items_tenant hm item hnew]
          exact congrArg Bill.Fixed.tenant hfixed
    | _ => cases hnew

theorem controlNumbers : ∀ cn ∈ (Move.runAll ms b).controlNumbers,
    cn.owner.Exists cn.tenant d (Move.runAll ms b) := by
  intro cn hcn
  have hkept : ∀ m ∈ ms, ∀ row : ControlNumber, (m.onControlNumber row).fixed = row.fixed := by
    intro m hm row
    obtain ⟨view', -, hguard⟩ := h.guards m hm
    exact Move.onControlNumber_fixed hguard row
  have hmoved : ∀ old : ControlNumber, old.fixed = cn.fixed →
      old.owner.Exists old.tenant d (Move.runAll ms b) →
      cn.owner.Exists cn.tenant d (Move.runAll ms b) := by
    intro old hfixed hexists
    have howner : old.owner = cn.owner := congrArg ControlNumber.Fixed.owner hfixed
    have htenant : old.tenant = cn.tenant := congrArg ControlNumber.Fixed.tenant hfixed
    rw [howner, htenant] at hexists
    exact hexists
  rcases mem_runAll_keyed Move.run_controlNumbers hkept hcn with
    ⟨old, hold, hfixed⟩ | ⟨m, hm, new, hnew, hfixed⟩
  · exact hmoved old hfixed ((hb.controlNumbers old hold).grows h.grows)
  · obtain ⟨view', hview, hguard⟩ := h.guards m hm
    cases m with
    | issue env issued currency =>
        obtain ⟨-, howner, -⟩ := hguard
        rw [List.mem_singleton.mp hnew] at hfixed
        exact hmoved issued hfixed (hview.owner howner rfl)
    | _ => cases hnew

/-- A control number that was seen has the tenant of the bill behind it. -/
theorem seen_number {view' : View} (hview : view'.Within d.accounts (Move.runAll ms b))
    {cn : ControlNumber} (hcn : view'.Sees fun _ b => cn ∈ b.controlNumbers) {bill : Bill}
    (hbill : view'.Sees fun _ b => bill ∈ b.bills) (howner : cn.owner = .bill bill.id) :
    bill.tenant = cn.tenant := by
  obtain ⟨cn', hcn', hfixed⟩ := hview.controlNumber hcn
  obtain ⟨bill', hbill', hbillfixed⟩ := hview.bill hbill
  have hexists := h.controlNumbers hb cn' hcn'
  have hsame_owner : cn'.owner = cn.owner := congrArg ControlNumber.Fixed.owner hfixed
  rw [hsame_owner, howner] at hexists
  obtain ⟨row, hrow, hid, htenant⟩ := hexists
  have hsame : row = bill' :=
    h.bill_eq hrow hbill' (hid.trans (congrArg Bill.Fixed.id hbillfixed).symm)
  rw [hsame] at htenant
  calc bill.tenant = bill'.tenant := (congrArg Bill.Fixed.tenant hbillfixed).symm
    _ = cn'.tenant := htenant
    _ = cn.tenant := congrArg ControlNumber.Fixed.tenant hfixed

theorem payments_number : ∀ p ∈ (Move.runAll ms b).payments,
    ∃ cn ∈ (Move.runAll ms b).controlNumbers, cn.id = p.controlNumber ∧ cn.tenant = p.tenant := by
  intro p hp
  rcases mem_runAll_keyed Move.run_payments (fun m _ row => m.onPayment_fixed row) hp with
    ⟨old, hold, hfixed⟩ | ⟨m, hm, new, hnew, hfixed⟩
  · have hnumber : old.controlNumber = p.controlNumber :=
      congrArg Payment.Fixed.controlNumber hfixed
    have htenant : old.tenant = p.tenant := congrArg Payment.Fixed.tenant hfixed
    rw [← hnumber, ← htenant]
    exact h.grows.controlNumber (hb.payments old hold)
  · obtain ⟨view', hview, hguard⟩ := h.guards m hm
    cases m with
    | openPayment opened =>
        obtain ⟨-, -, -, -, -, ⟨cn, hsees, hid, howns⟩, -⟩ := hguard
        rw [List.mem_singleton.mp hnew] at hfixed
        have hnumber : opened.controlNumber = p.controlNumber :=
          congrArg Payment.Fixed.controlNumber hfixed
        have hsame : opened.tenant = p.tenant := congrArg Payment.Fixed.tenant hfixed
        rw [← hnumber, ← hsame]
        have htenant : cn.tenant = opened.tenant := by
          rcases howns with htenant | ⟨bill, hbill, htenant, hseesbill⟩
          · exact htenant
          · rw [← htenant]
            refine (h.seen_number hb hview hsees hseesbill ?_).symm
            unfold ControlNumber.bill? at hbill
            cases howner : cn.owner with
            | bill id =>
                rw [howner] at hbill
                exact congrArg Owner.bill (Option.some.inj hbill)
            | customerAccount id =>
                rw [howner] at hbill
                cases hbill
        obtain ⟨cn', hcn', hcnfixed⟩ := hview.controlNumber hsees
        exact ⟨cn', hcn', (congrArg ControlNumber.Fixed.id hcnfixed).trans hid,
          (congrArg ControlNumber.Fixed.tenant hcnfixed).trans htenant⟩
    | _ => cases hnew

/-- The control number that was read for a payment has the payment's tenant. -/
theorem loaded_tenant {view' : View} (hview : view'.Within d.accounts (Move.runAll ms b))
    {payment : Payment} {cn : ControlNumber} {bill : Option Bill}
    (hloaded : Loaded view' payment cn bill) {row : Payment}
    (hrow : row ∈ (Move.runAll ms b).payments) (hfixed : row.fixed = payment.fixed) :
    cn.tenant = payment.tenant := by
  obtain ⟨cn', hcn', hid, htenant⟩ := h.payments_number hb row hrow
  obtain ⟨cn'', hcn'', hcnfixed⟩ := hview.controlNumber hloaded.controlNumber
  have hkey : cn'.id = cn''.id := by
    calc cn'.id = row.controlNumber := hid
      _ = payment.controlNumber := congrArg Payment.Fixed.controlNumber hfixed
      _ = cn.id := hloaded.id.symm
      _ = cn''.id := (congrArg ControlNumber.Fixed.id hcnfixed).symm
  have hsame : cn' = cn'' := h.controlNumber_eq hcn' hcn'' hkey
  calc cn.tenant = cn''.tenant := (congrArg ControlNumber.Fixed.tenant hcnfixed).symm
    _ = cn'.tenant := congrArg ControlNumber.tenant hsame.symm
    _ = row.tenant := htenant
    _ = payment.tenant := congrArg Payment.Fixed.tenant hfixed

/-- The bill that was read for a payment has the payment's tenant. -/
theorem loaded_bill {view' : View} (hview : view'.Within d.accounts (Move.runAll ms b))
    {payment : Payment} {cn : ControlNumber} {bill : Bill}
    (hloaded : Loaded view' payment cn (some bill)) {row : Payment}
    (hrow : row ∈ (Move.runAll ms b).payments) (hfixed : row.fixed = payment.fixed) :
    cn.owner = .bill bill.id ∧ bill.tenant = payment.tenant ∧
      view'.Sees fun _ b => bill ∈ b.bills := by
  cases howner : cn.owner with
  | customerAccount id =>
      have hnone : cn.bill? = none := by
        unfold ControlNumber.bill?
        rw [howner]
      cases hloaded.unbound hnone
  | bill id =>
      have hsome : cn.bill? = some id := by
        unfold ControlNumber.bill?
        rw [howner]
      obtain ⟨found, hfound, hid, hsees⟩ := hloaded.bound id hsome
      obtain rfl := Option.some.inj hfound
      have hbill : cn.owner = .bill bill.id := by rw [howner, hid]
      refine ⟨congrArg Owner.bill hid.symm, ?_, hsees.sees⟩
      rw [h.seen_number hb hview hloaded.controlNumber hsees.sees hbill]
      exact h.loaded_tenant hb hview hloaded hrow hfixed

theorem allocations : ∀ a ∈ (Move.runAll ms b).allocations, ∃ p ∈ (Move.runAll ms b).payments,
    ∃ cn ∈ (Move.runAll ms b).controlNumbers, ∃ bill ∈ (Move.runAll ms b).bills,
      a.Routed p cn bill := by
  intro a ha
  rcases mem_runAll_appended Move.run_allocations ha with hold | ⟨m, hm, hnew⟩
  · obtain ⟨p, hp, cn, hcn, bill, hbill, hrouted⟩ := hb.allocations a hold
    obtain ⟨p', hp', hpfixed⟩ := h.grows.payments.mem hp
    obtain ⟨cn', hcn', hcnfixed⟩ := h.grows.controlNumbers.mem hcn
    obtain ⟨bill', hbill', hbillfixed⟩ := h.grows.bills.mem hbill
    refine ⟨p', hp', cn', hcn', bill', hbill', ⟨?_, ?_⟩, ⟨?_, ?_⟩, ?_, ⟨?_, ?_⟩⟩
    · exact (congrArg Payment.Fixed.id hpfixed).trans hrouted.payment.1
    · exact (congrArg Payment.Fixed.tenant hpfixed).trans hrouted.payment.2
    · exact (congrArg ControlNumber.Fixed.id hcnfixed).trans (hrouted.controlNumber.1.trans
        (congrArg Payment.Fixed.controlNumber hpfixed).symm)
    · exact (congrArg ControlNumber.Fixed.tenant hcnfixed).trans hrouted.controlNumber.2
    · exact (congrArg ControlNumber.Fixed.owner hcnfixed).trans (hrouted.owner.trans
        (congrArg (fun f : Bill.Fixed => Owner.bill f.id) hbillfixed).symm)
    · exact (congrArg Bill.Fixed.id hbillfixed).trans hrouted.bill.1
    · exact (congrArg Bill.Fixed.tenant hbillfixed).trans hrouted.bill.2
  · obtain ⟨view', hview, hguard⟩ := h.guards m hm
    cases m with
    | settle s =>
        have hsettle : s.Guard view' := hguard
        obtain ⟨bill, hbill, rfl⟩ := Option.map_eq_some_iff.mp (Option.mem_toList.mp hnew)
        have hloaded : Loaded view' s.payment s.controlNumber (some bill) := hbill ▸ hsettle.loaded
        obtain ⟨row, hrow, hfixed⟩ := h.entered hm (p := s.payment) rfl
        obtain ⟨howner, htenant, hsees⟩ := h.loaded_bill hb hview hloaded hrow hfixed
        obtain ⟨cn, hcn, hcnfixed⟩ := hview.controlNumber hloaded.controlNumber
        obtain ⟨bill', hbill', hbillfixed⟩ := hview.bill hsees
        refine ⟨row, hrow, cn, hcn, bill', hbill', ⟨?_, ?_⟩, ⟨?_, ?_⟩, ?_, ⟨?_, ?_⟩⟩
        · exact congrArg Payment.Fixed.id hfixed
        · exact congrArg Payment.Fixed.tenant hfixed
        · exact (congrArg ControlNumber.Fixed.id hcnfixed).trans (hloaded.id.trans
            (congrArg Payment.Fixed.controlNumber hfixed).symm)
        · exact (congrArg ControlNumber.Fixed.tenant hcnfixed).trans
            (h.loaded_tenant hb hview hloaded hrow hfixed)
        · exact (congrArg ControlNumber.Fixed.owner hcnfixed).trans (howner.trans
            (congrArg (fun f : Bill.Fixed => Owner.bill f.id) hbillfixed).symm)
        · exact congrArg Bill.Fixed.id hbillfixed
        · exact (congrArg Bill.Fixed.tenant hbillfixed).trans htenant
    | _ => cases hnew

theorem receipts : ∀ row ∈ (Move.runAll ms b).receipts, ∃ p ∈ (Move.runAll ms b).payments,
    p.id = row.payment ∧ p.tenant = row.tenant := by
  intro row hrow
  rcases mem_runAll_appended Move.run_receipts hrow with hold | ⟨m, hm, hnew⟩
  · exact h.grows.payment (hb.receipts row hold)
  · obtain ⟨view', -, hguard⟩ := h.guards m hm
    cases m with
    | settle s =>
        have hsettle : s.Guard view' := hguard
        obtain ⟨hpayment, htenant, -⟩ := hsettle.receipts.inserted row (Option.mem_toList.mp hnew)
        obtain ⟨p, hp, hfixed⟩ := h.entered hm (p := s.payment) rfl
        exact ⟨p, hp, (congrArg Payment.Fixed.id hfixed).trans hpayment.symm,
          (congrArg Payment.Fixed.tenant hfixed).trans htenant.symm⟩
    | _ => cases hnew

/-- The row that takes a fee back repeats what the fee's own row is about. -/
theorem undone_row {env : Env} {payment : Payment} {fee : Option RevenueEvent}
    {metadata : List (String × String)} (hm : .undo env payment fee metadata ∈ ms)
    {row : LedgerEntry} (hrow : fee.bind (·.takenBack env payment.status) = some row) :
    ∃ original ∈ b.ledger, original.tenant = payment.tenant ∧ row.tenant = original.tenant ∧
      row.source = original.source ∧ row.relatedEntry = some original.toPosting := by
  obtain ⟨f, rfl, htaken⟩ := Option.bind_eq_some_iff.mp hrow
  obtain ⟨original, hentry, rfl⟩ := Option.map_eq_some_iff.mp htaken
  obtain ⟨hf, htenant⟩ := h.undone_fee hm
  obtain ⟨hposted, hsame⟩ := hb.posted f hf original hentry
  exact ⟨original, hposted, hsame.trans htenant, rfl, rfl, rfl⟩

theorem ledger : ∀ row ∈ (Move.runAll ms b).ledger, ∀ source, row.source = some source →
    source.Exists row.tenant (Move.runAll ms b) := by
  intro row hrow source hsource
  rcases mem_runAll_appended Move.run_ledger hrow with hold | ⟨m, hm, hnew⟩
  · exact (hb.ledger row hold source hsource).grows h.grows
  · cases m with
    | issue env cn currency =>
        obtain ⟨cn', hcn', hfixed⟩ := (h.newIn _ hm).controlNumbers cn (List.mem_singleton.mpr rfl)
        rw [List.mem_singleton.mp hnew] at hsource ⊢
        rw [← Option.some.inj hsource]
        exact ⟨cn', hcn', congrArg ControlNumber.Fixed.id hfixed,
          congrArg ControlNumber.Fixed.tenant hfixed⟩
    | settle s =>
        obtain ⟨p, hp, hfixed⟩ := h.entered hm (p := s.payment) rfl
        have hown : row.source = some (.payment s.payment.id) ∧ row.tenant = s.payment.tenant := by
          simp only [Move.postings, List.mem_cons, List.not_mem_nil, or_false] at hnew
          rcases hnew with rfl | rfl | rfl
          · exact ⟨rfl, rfl⟩
          · exact ⟨rfl, rfl⟩
          · exact ⟨rfl, rfl⟩
        rw [hown.1] at hsource
        rw [← Option.some.inj hsource, hown.2]
        exact ⟨p, hp, congrArg Payment.Fixed.id hfixed, congrArg Payment.Fixed.tenant hfixed⟩
    | undo env payment fee metadata =>
        obtain ⟨original, horiginal, -, htenant, hsame, -⟩ :=
          h.undone_row hb hm (Option.mem_toList.mp hnew)
        rw [hsame] at hsource
        rw [htenant]
        exact (hb.ledger original horiginal source hsource).grows h.grows
    | _ => cases hnew

theorem related : ∀ row ∈ (Move.runAll ms b).ledger, ∀ original,
    row.relatedEntry = some original → original.tenant = row.tenant ∧
      ∃ old ∈ (Move.runAll ms b).ledger, old.toPosting = original := by
  intro row hrow original hrelated
  rcases mem_runAll_appended Move.run_ledger hrow with hold | ⟨m, hm, hnew⟩
  · obtain ⟨htenant, old, hmem, hposting⟩ := hb.related row hold original hrelated
    exact ⟨htenant, old, h.grows.ledger.subset hmem, hposting⟩
  · cases m with
    | issue env cn currency =>
        rw [List.mem_singleton.mp hnew] at hrelated
        cases hrelated
    | settle s =>
        simp only [Move.postings, List.mem_cons, List.not_mem_nil, or_false] at hnew
        rcases hnew with rfl | rfl | rfl
        · cases hrelated
        · cases hrelated
        · cases hrelated
    | undo env payment fee metadata =>
        obtain ⟨taken, htaken, -, htenant, -, hsame⟩ :=
          h.undone_row hb hm (Option.mem_toList.mp hnew)
        rw [hsame] at hrelated
        rw [← Option.some.inj hrelated]
        exact ⟨htenant.symm, taken, h.grows.ledger.subset htaken, rfl⟩
    | _ => cases hnew

theorem revenue : ∀ e ∈ (Move.runAll ms b).revenue,
    e.source.Exists e.tenant (Move.runAll ms b) := by
  intro e he
  have hpayment : ∀ p : Payment, (∃ row ∈ (Move.runAll ms b).payments, row.fixed = p.fixed) →
      (Source.payment p.id).Exists p.tenant (Move.runAll ms b) := by
    rintro p ⟨row, hrow, hfixed⟩
    exact ⟨row, hrow, congrArg Payment.Fixed.id hfixed, congrArg Payment.Fixed.tenant hfixed⟩
  rcases mem_runAll_appended Move.run_revenue he with hold | ⟨m, hm, hnew⟩
  · exact (hb.revenue e hold).grows h.grows
  · cases m with
    | issue env cn currency =>
        obtain ⟨cn', hcn', hfixed⟩ := (h.newIn _ hm).controlNumbers cn (List.mem_singleton.mpr rfl)
        rw [List.mem_singleton.mp hnew]
        exact ⟨cn', hcn', congrArg ControlNumber.Fixed.id hfixed,
          congrArg ControlNumber.Fixed.tenant hfixed⟩
    | note event =>
        rw [List.mem_singleton.mp hnew]
        rcases h.concerns _ hm with ⟨tenant, hconcerns⟩ | ⟨f, hf⟩
        · cases hconcerns with
          | reused found =>
              obtain ⟨cn', hcn', hfixed⟩ := h.seen.controlNumber found
              exact ⟨cn', hcn', congrArg ControlNumber.Fixed.id hfixed,
                congrArg ControlNumber.Fixed.tenant hfixed⟩
          | @payment p _ known _ about =>
              obtain ⟨hsource, htenant⟩ := about
              rw [hsource, htenant]
              exact hpayment p (h.known known)
        · cases hf
    | settle s =>
        rw [List.mem_singleton.mp hnew]
        exact hpayment s.payment (h.entered hm rfl)
    | undo env payment fee metadata =>
        rw [List.mem_singleton.mp hnew]
        exact hpayment payment (h.entered hm rfl)
    | _ => cases hnew

theorem posted : ∀ e ∈ (Move.runAll ms b).revenue, ∀ row, e.ledgerEntry = some row →
    row ∈ (Move.runAll ms b).ledger ∧ row.tenant = e.tenant := by
  intro e he row hrow
  rcases mem_runAll_appended Move.run_revenue he with hold | ⟨m, hm, hnew⟩
  · obtain ⟨hmem, htenant⟩ := hb.posted e hold row hrow
    exact ⟨h.grows.ledger.subset hmem, htenant⟩
  · obtain ⟨view', -, hguard⟩ := h.guards m hm
    have hposted := (h.newIn m hm).ledger
    cases m with
    | issue env cn currency =>
        rw [List.mem_singleton.mp hnew] at hrow ⊢
        rw [← Option.some.inj hrow]
        exact ⟨hposted _ (List.mem_singleton.mpr rfl), rfl⟩
    | note event =>
        obtain ⟨-, hnone, -⟩ := hguard
        rw [List.mem_singleton.mp hnew, hnone] at hrow
        cases hrow
    | settle s =>
        rw [List.mem_singleton.mp hnew] at hrow ⊢
        rw [← Option.some.inj hrow]
        exact ⟨hposted _ (by simp [Move.postings]), rfl⟩
    | undo env payment fee metadata =>
        rw [List.mem_singleton.mp hnew] at hrow ⊢
        obtain ⟨original, -, htenant, hsame, -⟩ := h.undone_row hb hm hrow
        exact ⟨hposted row (Option.mem_toList.mpr hrow), hsame.trans htenant⟩
    | _ => cases hnew

theorem settled : ∀ p ∈ (Move.runAll ms b).payments, ∀ id, p.settlementBatch = some id →
    ∃ batch ∈ (Move.runAll ms b).batches, batch.id = id ∧ batch.tenant = p.tenant := by
  intro p hp id hid
  by_cases hopens : ∃ batch claimed, .openBatch batch claimed ∈ ms
  · obtain ⟨batch, claimed, hm⟩ := hopens
    obtain ⟨hms, hclaims⟩ := h.claims batch claimed hm
    have hpayments : (Move.runAll ms b).payments =
        b.payments.map (Move.openBatch batch claimed).onPayment := by
      rw [hms, Move.runAll_cons, Move.runAll_nil, Move.run_payments]
      exact List.append_nil _
    have hbatch : batch ∈ (Move.runAll ms b).batches := by
      rw [hms, Move.runAll_cons, Move.runAll_nil, Move.run_batches]
      exact List.mem_append_right _ (List.mem_singleton.mpr rfl)
    have hrow := hp
    rw [hpayments] at hrow
    obtain ⟨old, hold, rfl⟩ := List.mem_map.mp hrow
    by_cases hclaimed : claimed.any (·.id = old.id) = true
    · simp only [Move.onPayment, if_pos hclaimed, Option.some.injEq] at hid
      obtain ⟨q, hq, hqid⟩ := List.any_eq_true.mp hclaimed
      obtain ⟨q', hq', hfixed⟩ := h.grows.payments.mem (hclaims.mem hq)
      have hkey : q'.id = ((Move.openBatch batch claimed).onPayment old).id := by
        rw [Move.onPayment_id]
        exact (congrArg Payment.Fixed.id hfixed).trans (of_decide_eq_true hqid)
      rw [← h.payment_eq hq' hp hkey]
      refine ⟨batch, hbatch, hid, ?_⟩
      rw [← unsettled_tenant (hclaims.due q hq)]
      exact (congrArg Payment.Fixed.tenant hfixed).symm
    · simp only [Move.onPayment, if_neg hclaimed] at hid ⊢
      exact h.grows.batch (hb.settled old hold id hid)
  · have hkept : ∀ m ∈ ms, ∀ row : Payment, (m.onPayment row).claim = row.claim := by
      intro m hm row
      apply Move.onPayment_claim
      rintro batch claimed rfl
      exact hopens ⟨batch, claimed, hm⟩
    rcases mem_runAll_keyed Move.run_payments hkept hp with
      ⟨old, hold, hclaim⟩ | ⟨m, hm, new, hnew, hclaim⟩
    · have htenant : old.tenant = p.tenant :=
        congrArg (fun c : Payment.Fixed × Option ℕ => c.1.tenant) hclaim
      have hbatch : old.settlementBatch = p.settlementBatch := congrArg Prod.snd hclaim
      rw [← htenant]
      exact h.grows.batch (hb.settled old hold id (hbatch.trans hid))
    · obtain ⟨view', -, hguard⟩ := h.guards m hm
      cases m with
      | openPayment opened =>
          obtain ⟨-, -, -, hnone, -⟩ := hguard
          rw [List.mem_singleton.mp hnew] at hclaim
          have hbatch : opened.settlementBatch = p.settlementBatch := congrArg Prod.snd hclaim
          rw [hnone, hid] at hbatch
          cases hbatch
      | _ => cases hnew

/-- The moves of a commit keep every foreign key within its tenant. -/
theorem tenanted : (Move.runAll ms b).Tenanted d where
  bills := h.bills hb
  billItems := h.billItems hb
  controlNumbers := h.controlNumbers hb
  payments := h.payments_number hb
  settled := h.settled hb
  allocations := h.allocations hb
  receipts := h.receipts hb
  ledger := h.ledger hb
  related := h.related hb
  revenue := h.revenue hb
  posted := h.posted hb

end Rows

end Committing

/-! ## Every schedule -/

/-- A batch is opened by a request that does nothing else. -/
theorem Action.Acts.batch_alone {view : View} {env : Env} {action : Action} {ms : List Move}
    (h : action.Acts view env ms) {batch : SettlementBatch} {claimed : List Payment}
    (hm : .openBatch batch claimed ∈ ms) : ms = [.openBatch batch claimed] := by
  cases action with
  | generateBatch =>
      obtain ⟨batch', claimed', -, rfl⟩ := h
      rw [List.mem_singleton.mp hm]
  | payBill | paymentListCreate | paymentQuery | paymentRefund | paymentReverse
  | providerCallback | triggerRun => exact absurd hm (not_openBatch (Action.Acts.works h rfl))
  | changeFeeRefundPolicy | changeDefaultCurrency => cases h
  | _ =>
      have hbatches := (Action.Acts.aside h rfl _ hm).batches
      cases hbatches

section Commits

variable {s t : DB} {seen : List (Resource × DB)} {request : Request}

/-- What a transaction has read, and the tables when it commits. -/
structure Developed (s t : DB) : Prop where
  grows : s.toBooks.Grows t.toBooks
  accounts : s.accounts = t.accounts

theorem developed_refl (s : DB) : Developed s s where
  grows := .refl _
  accounts := rfl

theorem Developed.trans {u : DB} (h : Developed s t) (h' : Developed t u) : Developed s u where
  grows := h.grows.trans h'.grows
  accounts := h.accounts.trans h'.accounts

theorem Request.Commits.developed (h : request.Commits (Read seen) s t) : Developed s t where
  grows := h.grows
  accounts := by
    cases h with
    | saved _ _ hsaved =>
        obtain ⟨f, -, hdirectory, -⟩ := hsaved
        exact (congrArg Directory.accounts hdirectory).symm
    | acted _ _ hdirectory _ _ => exact (congrArg Directory.accounts hdirectory).symm

/-- The moves of a commit. -/
theorem committing {ms : List Move}
    (hacts : request.action.Acts (viewOf (Read seen) id) request.env ms)
    (hchain : (viewOf (Read seen) id).Chain ms) (hbooks : t.toBooks = Move.runAll ms s.toBooks)
    (hclaims : ∀ batch claimed, .openBatch batch claimed ∈ ms → batch.Claims claimed s.toBooks)
    (hread : ∀ x ∈ seen, Developed x.2 s) (hpayments : (t.payments.map (·.id)).Nodup)
    (hids : t.ids.Nodup) :
    Committing (viewOf (Read seen) id) ms s.toDirectory s.toBooks where
  chain := hchain
  orderly := hacts.orderly
  sees := by
    rintro what d b ⟨v, hv, rfl, rfl⟩
    exact ⟨(hread _ hv).accounts, (hread _ hv).grows.within⟩
  concerns := by
    intro m hm
    by_cases hall : request.action = .expireOverdue none
    · rw [hall] at hacts
      obtain ⟨locked, -, rfl⟩ := hacts
      exact Or.inr ⟨_, List.mem_singleton.mp hm⟩
    · obtain ⟨tenant, -, hconcerns⟩ := hacts.concerns hall
      exact Or.inl ⟨tenant, hconcerns m hm⟩
  claims batch claimed hm := ⟨hacts.batch_alone hm, hclaims batch claimed hm⟩
  undoes := by
    intro env payment fee metadata hm
    by_cases hundo : Undoes ms
    · obtain ⟨env', payment', fee', metadata', rfl⟩ := hundo
      obtain ⟨hguard, -⟩ := hchain
      rw [← List.mem_singleton.mp hm] at hguard
      exact hguard
    · exact absurd hm (hacts.no_undo hundo)
  payments := by
    rw [← hbooks]
    exact hpayments
  ids := by
    rw [← hbooks]
    exact hids

/-- Every commit keeps the foreign keys within their tenants. -/
theorem Request.Commits.tenanted (h : request.Commits (Read seen) s t)
    (hread : ∀ x ∈ seen, Developed x.2 s) (hpayments : (t.payments.map (·.id)).Nodup)
    (hids : t.ids.Nodup) (hs : s.toBooks.Tenanted s.toDirectory) :
    t.toBooks.Tenanted t.toDirectory := by
  have haccounts := h.developed.accounts
  have hkept : ∀ b : Books, b.Tenanted s.toDirectory → b.Tenanted t.toDirectory := by
    intro b hb
    have hbills := hb.bills
    have hnumbers := hb.controlNumbers
    rw [haccounts] at hbills
    refine { hb with bills := hbills, controlNumbers := fun cn hcn => ?_ }
    have hexists := hnumbers cn hcn
    cases howner : cn.owner with
    | bill id =>
        rw [howner] at hexists
        exact hexists
    | customerAccount id =>
        rw [howner] at hexists
        obtain ⟨account, haccount, hrow⟩ := hexists
        rw [haccounts] at haccount
        exact ⟨account, haccount, hrow⟩
  cases h with
  | saved _ _ hsaved =>
      obtain ⟨-, -, -, hbooks⟩ := hsaved
      rw [hbooks]
      exact hkept _ hs
  | acted hacts hchain _ hbooks hclaims =>
      have hcommitting := committing hacts hchain hbooks hclaims hread hpayments hids
      rw [hbooks]
      exact hkept _ (hcommitting.tenanted hs)

end Commits

/-- Along every schedule each commit finds tables whose foreign keys keep to their tenants, and so
do the states that the request has read. -/
theorem run_tenanted (requests : List Request) {start : DB}
    (hstart : start.toBooks.SettlementTables) (hids : start.ids.Nodup)
    (htenanted : start.toBooks.Tenanted start.toDirectory) (schedule : List Event) :
    Recorded (fun i (_ : Unit) seen s t =>
        CommitOf (Discipline.unique DB.ids) requests i seen s t ∧ s.toBooks.Tenanted s.toDirectory ∧
          ∀ x ∈ seen, x.2.toBooks.Tenanted x.2.toDirectory ∧ Developed x.2 s) start
      ((Config.start start (requests.map Request.handler)).commitOrder schedule)
      ((Config.start start (requests.map Request.handler)).run schedule).past
      ((Config.start start (requests.map Request.handler)).run schedule).store := by
  obtain ⟨hrun, -⟩ := run_requests_under (Discipline.unique DB.ids) _ requests hstart hids
    (fun request _ => keepsTo_unique request hids) schedule
  refine hrun.strengthen (J := fun s => s.toBooks.Tenanted s.toDirectory) (G := Developed) htenanted
    developed_refl (fun _ _ _ h h' => h.trans h') fun i _ seen s t h hs hread => ?_
  obtain ⟨request, -, hcommits⟩ := h.commits
  exact ⟨hcommits.tenanted (fun x hx => (hread x hx).2) h.after.payments h.left hs,
    hcommits.developed⟩

/-- Whatever requests run for whatever tenants, and however they interleave, in every committed
state each foreign key of the money tables leads to a row of the same tenant. -/
theorem foreign_keys_keep_tenants (requests : List Request) (start : DB)
    (hstart : start.toBooks.SettlementTables) (hids : start.ids.Nodup)
    (htenanted : start.toBooks.Tenanted start.toDirectory) (schedule : List Event) :
    ∀ s ∈ ((Config.start start (requests.map Request.handler)).run schedule).history,
      s.toBooks.Tenanted s.toDirectory := by
  have hrun := run_tenanted requests hstart hids htenanted schedule
  have hinvariant := hrun.invariant (J := fun s => s.toBooks.Tenanted s.toDirectory)
    (G := Developed) htenanted developed_refl (fun _ _ _ h h' => h.trans h')
    fun i _ seen s t h hs hread => by
      obtain ⟨request, -, hcommits⟩ := h.1.commits
      exact ⟨hcommits.tenanted (fun x hx => (hread x hx).2) h.1.after.payments h.1.left hs,
        hcommits.developed⟩
  exact fun s hs => (hinvariant.1 s hs).1

/-! ## Two institutions -/

/-- Two institutions on one platform, each with an account and a bill that has its control
number. -/
def twoInstitutions : DB :=
  { smallInstallation with
    tenants := [⟨1, "A", "TZS", .clawback⟩, ⟨2, "B", "TZS", .clawback⟩]
    customers := [⟨1, 1, "C", "", ""⟩, ⟨2, 2, "D", "", ""⟩]
    accounts := [⟨1, 1, 1, "C"⟩, ⟨2, 2, 2, "D"⟩]
    bills := [BillInput.newBill ⟨1, 1, [], ""⟩ 1 "1", BillInput.newBill ⟨2, 2, [], ""⟩ 2 "1"]
    controlNumbers := [⟨1, 1, "1", .oneTime, .active, .bill 1, none, none, none⟩,
      ⟨2, 2, "2", .oneTime, .active, .bill 2, none, none, none⟩] }

/-- Both institutions take a payment; the first one then gives its money back while the provider
calls back, and the second one issues a bill. -/
def bothAtWork : List Request :=
  let successful := answering .successful "p" "e"
  [{ env := envAt 3 successful
     action := .paymentListCreate 1 "1" "mock" none (amountOf 4000) "0700" "" [] },
   { env := envAt 4 (answering .pending "q" "e")
     action := .paymentListCreate 2 "2" "mock" none (amountOf 5000) "0701" "" [] },
   { env := envAt 5 successful, action := .paymentRefund 1 3 none },
   { env := envAt 6 (answering .successful "q" "e"), action := .providerCallback "mock" ⟨[], []⟩ },
   { env := envAt 7 successful
     action := .billCreate ⟨2, 2, [⟨"Rent", ⟨1, 0⟩, ⟨5000, -2⟩⟩], ""⟩ }]

/-- The payments run next to each other, and so do the three requests after them. -/
def inTwoRounds : List Event :=
  (List.replicate 60 [Event.advance 0, .advance 1]).flatten ++
    (List.replicate 80 [Event.advance 2, .advance 3, .advance 4]).flatten

theorem twoInstitutions_settlementTables : twoInstitutions.toBooks.SettlementTables where
  payments := List.nodup_nil
  batches := List.nodup_nil
  pointers _ hp := absurd hp List.not_mem_nil
  exact _ hbatch := absurd hbatch List.not_mem_nil
  successes _ he := absurd he List.not_mem_nil

theorem twoInstitutions_ids : twoInstitutions.ids.Nodup := by
  decide

theorem twoInstitutions_tenanted :
    twoInstitutions.toBooks.Tenanted twoInstitutions.toDirectory where
  bills := by decide
  billItems _ hitem := absurd hitem List.not_mem_nil
  controlNumbers := by
    intro cn hcn
    simp only [twoInstitutions, List.mem_cons, List.not_mem_nil, or_false] at hcn
    rcases hcn with rfl | rfl
    · exact ⟨_, List.mem_cons_self, rfl, rfl⟩
    · exact ⟨_, List.mem_cons_of_mem _ List.mem_cons_self, rfl, rfl⟩
  payments _ hp := absurd hp List.not_mem_nil
  settled _ hp := absurd hp List.not_mem_nil
  allocations _ ha := absurd ha List.not_mem_nil
  receipts _ hrow := absurd hrow List.not_mem_nil
  ledger _ hrow := absurd hrow List.not_mem_nil
  related _ hrow := absurd hrow List.not_mem_nil
  revenue _ he := absurd he List.not_mem_nil
  posted _ he := absurd he List.not_mem_nil

theorem foreign_keys_keep_tenants_bothAtWork :
    let c := (Config.start twoInstitutions (bothAtWork.map Request.handler)).run inTwoRounds
    c.store.toBooks.Tenanted c.store.toDirectory :=
  foreign_keys_keep_tenants bothAtWork twoInstitutions twoInstitutions_settlementTables
    twoInstitutions_ids twoInstitutions_tenanted inTwoRounds _ (Config.store_mem_history _)

end Kusanya
