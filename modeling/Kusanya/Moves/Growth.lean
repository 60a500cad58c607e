import Kusanya.Moves.Tables
import Kusanya.Support.Growing

/-!
# The money tables only grow

A move inserts rows and updates a few columns of the rows that are there.  The other columns of
each table, its fixed ones, are written once, when their row is inserted.
-/

namespace Kusanya

open Support

/-! ## Items and batches -/

namespace Move

/-- The items a move adds. -/
def addedItems : Move → List BillItem
  | openBill items _ _ => items
  | _ => []

/-- The batches a move opens. -/
def openedBatches : Move → List SettlementBatch
  | openBatch batch _ => [batch]
  | _ => []

/-- What a move does to a batch row. -/
def onBatch : Move → SettlementBatch → SettlementBatch
  | editBatch id f, row => if row.id = id then f row else row
  | _, row => row

variable (m : Move) (b : Books)

theorem run_billItems : (m.run b).billItems = b.billItems ++ m.addedItems := by
  cases m with
  | openBill items bill now => rfl
  | settle s =>
      rw [run_settle]
      exact (List.append_nil _).symm
  | undo env payment fee metadata =>
      rw [run_undo]
      exact (List.append_nil _).symm
  | _ => exact (List.append_nil _).symm

theorem run_batches : (m.run b).batches = b.batches.map m.onBatch ++ m.openedBatches := by
  have hid : b.batches = b.batches.map (fun row => row) ++ [] := by simp
  cases m with
  | settle s =>
      rw [run_settle]
      exact hid
  | undo env payment fee metadata =>
      rw [run_undo]
      exact hid
  | openBatch batch claimed =>
      change b.batches ++ [batch] = b.batches.map (fun row => row) ++ [batch]
      rw [List.map_id']
  | editBatch => exact (List.append_nil _).symm
  | _ => exact hid

end Move

/-! ## Fixed columns -/

/-- The columns of a bill that no statement updates once it is issued. -/
structure Bill.Fixed where
  id : ℕ
  tenant : ℕ
  customerAccount : ℕ
  billNumber : String
  currency : String
  externalReference : String

def Bill.fixed (bill : Bill) : Bill.Fixed :=
  { id := bill.id
    tenant := bill.tenant
    customerAccount := bill.customerAccount
    billNumber := bill.billNumber
    currency := bill.currency
    externalReference := bill.externalReference }

/-- The columns of a control number that no statement updates. -/
structure ControlNumber.Fixed where
  id : ℕ
  tenant : ℕ
  value : String
  scope : ControlNumberScope
  owner : Owner
  expiresAt : Option Time
  createdBy : Option ℕ

def ControlNumber.fixed (cn : ControlNumber) : ControlNumber.Fixed :=
  { id := cn.id
    tenant := cn.tenant
    value := cn.value
    scope := cn.scope
    owner := cn.owner
    expiresAt := cn.expiresAt
    createdBy := cn.createdBy }

/-- The columns of a callback row that no statement updates. -/
structure PaymentCallbackEvent.Fixed where
  id : ℕ
  provider : ℕ
  externalEventId : String
  rawPayload : String

def PaymentCallbackEvent.fixed (row : PaymentCallbackEvent) : PaymentCallbackEvent.Fixed :=
  { id := row.id
    provider := row.provider
    externalEventId := row.externalEventId
    rawPayload := row.rawPayload }

/-- The columns of a batch that no statement updates. -/
structure SettlementBatch.Fixed where
  id : ℕ
  tenant : ℕ
  provider : ℕ
  reference : String
  periodStart : Time
  periodEnd : Time
  grossAmount : Numeric
  platformFeeTotal : Numeric
  providerFeeTotal : Numeric
  netAmount : Numeric
  currency : String

def SettlementBatch.fixed (batch : SettlementBatch) : SettlementBatch.Fixed :=
  { id := batch.id
    tenant := batch.tenant
    provider := batch.provider
    reference := batch.reference
    periodStart := batch.periodStart
    periodEnd := batch.periodEnd
    grossAmount := batch.grossAmount
    platformFeeTotal := batch.platformFeeTotal
    providerFeeTotal := batch.providerFeeTotal
    netAmount := batch.netAmount
    currency := batch.currency }

namespace Move

/-- A move that keeps the totals of the batches it updates. -/
def Orderly (m : Move) : Prop := ∀ row, (m.onBatch row).fixed = row.fixed

theorem onBill_fixed (m : Move) (row : Bill) : (m.onBill row).fixed = row.fixed := by
  cases m with
  | openBill items bill now =>
      by_cases hid : row.id = bill.id
      · simp only [onBill, if_pos hid]
        rfl
      · simp only [onBill, if_neg hid]
  | cancelBill bill =>
      by_cases hid : row.id = bill.id
      · simp only [onBill, if_pos hid]
        rfl
      · simp only [onBill, if_neg hid]
  | settle s =>
      simp only [onBill]
      split
      · next bill status _ _ =>
          by_cases hid : row.id = bill.id
          · rw [if_pos hid]
            rfl
          · rw [if_neg hid]
      · rfl
  | _ => rfl

theorem onControlNumber_fixed {m : Move} {view : View} (h : m.Guard view) (row : ControlNumber) :
    (m.onControlNumber row).fixed = row.fixed := by
  cases m with
  | editControlNumbers f =>
      obtain ⟨status, cancelledAt, hf⟩ := h row
      simp only [onControlNumber, hf]
      rfl
  | _ => rfl

theorem onCallback_fixed {m : Move} {view : View} (h : m.Guard view) (row : PaymentCallbackEvent) :
    (m.onCallback row).fixed = row.fixed := by
  cases m with
  | editCallback id f =>
      obtain ⟨payment, outcome, hf⟩ := h row
      by_cases hid : row.id = id
      · simp only [onCallback, if_pos hid, hf]
        rfl
      · simp only [onCallback, if_neg hid]
  | _ => rfl

end Move

/-! ## Growth -/

/-- The money tables after a commit: rows are inserted, and of the rows that were there only
columns have changed that are not fixed.  The ledger and what is derived from it never change. -/
structure Books.Grows (b b' : Books) : Prop where
  bills : Grown Bill.fixed b.bills b'.bills
  billItems : b.billItems <+: b'.billItems
  controlNumbers : Grown ControlNumber.fixed b.controlNumbers b'.controlNumbers
  payments : Grown Payment.fixed b.payments b'.payments
  allocations : b.allocations <+: b'.allocations
  callbackEvents : Grown PaymentCallbackEvent.fixed b.callbackEvents b'.callbackEvents
  ledger : b.ledger <+: b'.ledger
  revenue : b.revenue <+: b'.revenue
  receipts : b.receipts <+: b'.receipts
  batches : Grown SettlementBatch.fixed b.batches b'.batches

theorem Books.Grows.refl (b : Books) : b.Grows b where
  bills := .refl _ _
  billItems := List.prefix_refl _
  controlNumbers := .refl _ _
  payments := .refl _ _
  allocations := List.prefix_refl _
  callbackEvents := .refl _ _
  ledger := List.prefix_refl _
  revenue := List.prefix_refl _
  receipts := List.prefix_refl _
  batches := .refl _ _

theorem Books.Grows.trans {b b' b'' : Books} (h : b.Grows b') (h' : b'.Grows b'') :
    b.Grows b'' where
  bills := h.bills.trans h'.bills
  billItems := h.billItems.trans h'.billItems
  controlNumbers := h.controlNumbers.trans h'.controlNumbers
  payments := h.payments.trans h'.payments
  allocations := h.allocations.trans h'.allocations
  callbackEvents := h.callbackEvents.trans h'.callbackEvents
  ledger := h.ledger.trans h'.ledger
  revenue := h.revenue.trans h'.revenue
  receipts := h.receipts.trans h'.receipts
  batches := h.batches.trans h'.batches

/-- A move that passed its guard. -/
theorem Move.grows {m : Move} {view : View} (h : m.Guard view) (horderly : m.Orderly) (b : Books) :
    b.Grows (m.run b) where
  bills := by
    rw [m.run_bills]
    exact grown_map_append (fun row _ => m.onBill_fixed row) _
  billItems := by
    rw [m.run_billItems]
    exact List.prefix_append _ _
  controlNumbers := by
    rw [m.run_controlNumbers]
    exact grown_map_append (fun row _ => Move.onControlNumber_fixed h row) _
  payments := by
    rw [m.run_payments]
    exact grown_map_append (fun row _ => m.onPayment_fixed row) _
  allocations := by
    rw [m.run_allocations]
    exact List.prefix_append _ _
  callbackEvents := by
    rw [m.run_callbackEvents]
    exact grown_map_append (fun row _ => Move.onCallback_fixed h row) _
  ledger := by
    rw [m.run_ledger]
    exact List.prefix_append _ _
  revenue := by
    rw [m.run_revenue]
    exact List.prefix_append _ _
  receipts := by
    rw [m.run_receipts]
    exact List.prefix_append _ _
  batches := by
    rw [m.run_batches]
    exact grown_map_append (fun row _ => horderly row) _

/-- Several moves. -/
theorem View.Chain.grows {view : View} {ms : List Move} (h : view.Chain ms)
    (horderly : ∀ m ∈ ms, m.Orderly) (b : Books) : b.Grows (Move.runAll ms b) := by
  induction ms generalizing view b with
  | nil => exact .refl b
  | cons m ms ih =>
      obtain ⟨hguard, hrest⟩ := h
      have hfirst : b.Grows (m.run b) := m.grows hguard (horderly m List.mem_cons_self) b
      exact hfirst.trans
        (ih hrest (fun m' hm' => horderly m' (List.mem_cons_of_mem _ hm')) (m.run b))

/-! ## Totals of bills -/

/-- Only a move that opens a bill writes a total, to the bill it opens. -/
theorem Move.onBill_totalAmount {m : Move} {row : Bill}
    (hothers : ∀ bill ∈ m.openedBills, row.id ≠ bill.id) :
    (m.onBill row).totalAmount = row.totalAmount := by
  cases m with
  | openBill items bill now =>
      have hid : row.id ≠ bill.id := hothers (bill.moveTo now .active) List.mem_cons_self
      simp only [onBill, if_neg hid]
  | cancelBill bill =>
      simp only [onBill]
      split <;> rfl
  | settle s =>
      simp only [onBill]
      split
      · split <;> rfl
      · rfl
  | _ => rfl

theorem runAll_billIds (ms : List Move) (b : Books) :
    Grown Bill.id b.bills (Move.runAll ms b).bills := by
  induction ms generalizing b with
  | nil => exact .refl _ _
  | cons m ms ih =>
      have hfirst : Grown Bill.id b.bills (m.run b).bills := by
        rw [m.run_bills]
        exact grown_map_append (fun row _ => m.onBill_id row) _
      exact hfirst.trans (ih (m.run b))

/-- Where no two bills share a primary key, a bill that was there keeps its total. -/
theorem runAll_totals {ms : List Move} {b : Books}
    (hids : ((Move.runAll ms b).bills.map Bill.id).Nodup) :
    Grown Bill.totalAmount b.bills (Move.runAll ms b).bills := by
  induction ms generalizing b with
  | nil => exact .refl _ _
  | cons m ms ih =>
      have hfirst : ((m.run b).bills.map Bill.id).Nodup :=
        (runAll_billIds ms (m.run b)).sublist.nodup hids
      have hothers : ∀ row ∈ b.bills, ∀ bill ∈ m.openedBills, row.id ≠ bill.id := by
        rw [m.run_bills, List.map_append, List.map_map] at hfirst
        obtain ⟨-, -, hdisjoint⟩ := List.nodup_append.mp hfirst
        intro row hrow bill hbill
        have hkept : row.id ∈ b.bills.map (Bill.id ∘ m.onBill) :=
          List.mem_map.mpr ⟨row, hrow, m.onBill_id row⟩
        exact hdisjoint _ hkept _ (List.mem_map_of_mem hbill)
      have hkept : Grown Bill.totalAmount b.bills (m.run b).bills := by
        rw [m.run_bills]
        exact grown_map_append (fun row hrow => Move.onBill_totalAmount (hothers row hrow)) _
      exact hkept.trans (ih hids)

end Kusanya
