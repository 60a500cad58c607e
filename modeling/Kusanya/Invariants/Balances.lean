import Kusanya.Invariants.Fees
import Mathlib.Tactic.Linarith

/-!
# Allocations, bills and receipts

What requests processed one at a time keep beyond `Booked`: every settled payment on
a bill's control number has its allocation, every settled payment its receipt, a
bill's status is in step with its allocations, and `completed_at` with the status.
-/

namespace Kusanya

open ReadCommitted

/-! ## What is kept -/

/-- The bill that owns a control number. -/
def Books.billOf (b : Books) (controlNumber : ℕ) : Option ℕ :=
  (b.controlNumbers.find? (·.id = controlNumber)).bind (·.bill?)

def Payment.Fixed.allocationTo (p : Payment.Fixed) (bill : ℕ) : PaymentAllocation :=
  { tenant := p.tenant
    payment := p.id
    bill
    amount := p.amount.toNumeric }

/-- The allocation of a settled payment, if its control number has a bill. -/
def Books.allocationsOf (b : Books) (p : Payment.Fixed) : List PaymentAllocation :=
  ((b.billOf p.controlNumber).map p.allocationTo).toList

/-- What a receipt says about its payment. -/
def Receipt.stated (r : Receipt) : ℕ × ℕ × Numeric × String :=
  (r.tenant, r.payment, r.amount, r.currency)

def Payment.Fixed.stated (p : Payment.Fixed) : ℕ × ℕ × Numeric × String :=
  (p.tenant, p.id, p.amount.toNumeric, p.currency)

/-- A bill's status is in step with its allocations. -/
structure Bill.InStep (b : Books) (bill : Bill) : Prop where
  status : bill.status ∈ [BillStatus.active, .partiallyPaid, .paid, .cancelled]
  active : bill.status = .active → ∀ a ∈ b.allocations, a.bill ≠ bill.id
  partiallyPaid : bill.status = .partiallyPaid → b.amountPaid bill.id < bill.totalAmount.cents
  paid : bill.status = .paid → bill.totalAmount.cents ≤ b.amountPaid bill.id

/-- What requests processed one at a time keep. -/
structure Balanced (b : Books) : Prop extends Booked b, Fees b where
  keys : Keyed b
  references : ∀ p ∈ b.payments, ∃ cn ∈ b.controlNumbers, cn.id = p.controlNumber
  allocations : b.allocations.Perm (b.settled.flatMap b.allocationsOf)
  targets : ∀ a ∈ b.allocations, ∃ bill ∈ b.bills, bill.id = a.bill
  receipts : (b.receipts.map Receipt.stated).Perm (b.settled.map Payment.Fixed.stated)
  bills : ∀ bill ∈ b.bills, bill.InStep b
  completed : ∀ p ∈ b.payments, p.completedAt.isSome = p.status.completes
  reasons : ∀ p ∈ b.payments, Varchar 255 p.failureReason

theorem balanced_empty : Balanced .empty where
  toBooked := booked_empty
  toFees := fees_empty
  keys := keyed_empty
  references _ h := absurd h List.not_mem_nil
  allocations := List.Perm.nil
  targets _ h := absurd h List.not_mem_nil
  receipts := List.Perm.nil
  bills _ h := absurd h List.not_mem_nil
  completed _ h := absurd h List.not_mem_nil
  reasons _ h := absurd h List.not_mem_nil

section Steps

variable {d : Directory} {b : Books} {m : Move}

/-! ## Control numbers -/

/-- A control number keeps its bill. -/
theorem billOf_run (hm : m.Guard (View.alone d b)) {id : ℕ}
    (h : ∃ cn ∈ b.controlNumbers, cn.id = id) : (m.run b).billOf id = b.billOf id := by
  have hkey : ((fun cn : ControlNumber => decide (cn.id = id)) ∘ m.onControlNumber) =
      fun cn => decide (cn.id = id) := by
    funext cn
    simp [(Move.onControlNumber_same hm cn).1]
  obtain ⟨cn, hcn, hid⟩ := h
  obtain ⟨found, hfound⟩ : ∃ found, b.controlNumbers.find? (fun cn => decide (cn.id = id)) =
      some found := by
    rw [← Option.isSome_iff_exists, List.find?_isSome]
    exact ⟨cn, hcn, by simpa using hid⟩
  have hbill : (m.onControlNumber found).bill? = found.bill? := by
    unfold ControlNumber.bill?
    rw [(Move.onControlNumber_same hm found).2.2.2]
  rw [Books.billOf, Books.billOf, Move.run_controlNumbers, List.find?_append, List.find?_map, hkey,
    hfound]
  simpa using hbill

theorem references_run (h : Balanced b) (hm : m.Guard (View.alone d b)) :
    ∀ p ∈ (m.run b).payments, ∃ cn ∈ (m.run b).controlNumbers, cn.id = p.controlNumber := by
  have hkept : ∀ cn ∈ b.controlNumbers,
      ∃ cn' ∈ (m.run b).controlNumbers, cn'.id = cn.id := by
    intro cn hcn
    rw [Move.run_controlNumbers]
    exact ⟨_, List.mem_append_left _ (List.mem_map_of_mem hcn), (Move.onControlNumber_same hm cn).1⟩
  intro p hp
  rw [Move.run_payments] at hp
  rcases List.mem_append.mp hp with hp | hp
  · obtain ⟨row, hrow, rfl⟩ := List.mem_map.mp hp
    obtain ⟨cn, hcn, hid⟩ := h.references row hrow
    obtain ⟨cn', hcn', hid'⟩ := hkept cn hcn
    exact ⟨cn', hcn', hid'.trans (hid.trans
      (congrArg Payment.Fixed.controlNumber (m.onPayment_fixed row)).symm)⟩
  · cases m with
    | openPayment payment =>
        obtain rfl := List.mem_singleton.mp hp
        obtain ⟨-, -, -, -, -, ⟨cn, hcn, hid, -⟩, -⟩ := hm
        rw [View.sees_alone] at hcn
        obtain ⟨cn', hcn', hid'⟩ := hkept cn hcn
        exact ⟨cn', hcn', hid'.trans hid⟩
    | _ => cases hp

/-! ## Allocations -/

/-- The bill that a settlement found is the one behind the control number. -/
theorem Settlement.Guard.billOf {s : Settlement} (h : Balanced b)
    (hs : s.Guard (View.alone d b)) :
    b.billOf s.payment.controlNumber = s.bill.map (·.id) := by
  obtain ⟨hsees, hid, hunbound, hbound⟩ := hs.loaded
  rw [View.sees_alone] at hsees
  have hfind := Support.find?_key h.keys.controlNumbers hsees
  rw [Books.billOf, ← hid, hfind, Option.bind_some]
  cases hbill : s.controlNumber.bill? with
  | none => rw [hunbound hbill]; rfl
  | some id =>
      obtain ⟨row, hrow, hrowid, -⟩ := hbound id hbill
      rw [hrow, Option.map_some, hrowid]

theorem allocations_run (h : Balanced b) (hm : m.Guard (View.alone d b)) :
    (m.run b).allocations.Perm ((m.run b).settled.flatMap (m.run b).allocationsOf) := by
  have hsame : b.settled.flatMap (m.run b).allocationsOf = b.settled.flatMap b.allocationsOf := by
    refine List.flatMap_congr fun x hx => ?_
    obtain ⟨p, hp, -, rfl⟩ := mem_inClass_iff.mp hx
    have hkept : (m.run b).billOf p.fixed.controlNumber = b.billOf p.fixed.controlNumber :=
      billOf_run hm (h.references p hp)
    unfold Books.allocationsOf
    rw [hkept]
  rw [Move.run_allocations]
  by_cases hsettle : ∃ s, m = .settle s
  · obtain ⟨s, rfl⟩ := hsettle
    have hguard : s.Guard (View.alone d b) := hm
    obtain ⟨old, henters⟩ := hguard.enters
    obtain ⟨hold, hfixed, -⟩ := henters.found
    have hcn : s.payment.controlNumber = old.controlNumber :=
      congrArg Payment.Fixed.controlNumber hfixed
    have hadded : (Move.settle s).allocations =
        ((Move.settle s).run b).allocationsOf s.payment.fixed := by
      have hbill := hguard.billOf h
      have hkept : ((Move.settle s).run b).billOf s.payment.fixed.controlNumber =
          s.bill.map (·.id) := by
        rw [← hbill]
        refine billOf_run hm ?_
        obtain ⟨cn, hmem, hid⟩ := h.references old hold
        exact ⟨cn, hmem, hid.trans hcn.symm⟩
      unfold Books.allocationsOf
      rw [hkept]
      cases hcase : s.bill with
      | none => simp [Move.allocations, hcase]
      | some bill =>
          simp [Move.allocations, hcase, Payment.allocationTo, Payment.Fixed.allocationTo,
          Payment.fixed]
    have hperm := (settled_settle hm.lawful h.keyed).flatMap_right
      ((Move.settle s).run b).allocationsOf
    rw [List.flatMap_cons, hsame, ← hadded] at hperm
    exact List.perm_append_comm.trans ((h.allocations.append_left _).trans hperm.symm)
  · have hnot : ∀ s, m ≠ .settle s := fun s hm => hsettle ⟨s, hm⟩
    rw [allocations_other hnot, List.append_nil, settled_same hm.lawful h.keyed hnot, hsame]
    exact h.allocations

theorem amountPaid_run (m : Move) (b : Books) (bill : ℕ) :
    (m.run b).amountPaid bill =
      b.amountPaid bill + ((m.allocations.filter (·.bill = bill)).map (·.amount.cents)).sum := by
  rw [Books.amountPaid, Move.run_allocations, List.filter_append, List.map_append,
    List.sum_append]
  rfl

/-- The allocations of a settlement go to the bill it found. -/
theorem mem_allocations_settle {s : Settlement} {a : PaymentAllocation}
    (ha : a ∈ (Move.settle s).allocations) :
    ∃ bill, s.bill = some bill ∧ a = s.payment.allocationTo bill.id := by
  simp only [Move.allocations, Option.mem_toList, Option.map_eq_some_iff] at ha
  obtain ⟨bill, hbill, rfl⟩ := ha
  exact ⟨bill, hbill, rfl⟩

theorem allocated_move {a : PaymentAllocation} (ha : a ∈ m.allocations) :
    ∃ s bill, m = .settle s ∧ s.bill = some bill ∧ a = s.payment.allocationTo bill.id := by
  cases m with
  | settle s =>
      obtain ⟨bill, hbill, rfl⟩ := mem_allocations_settle ha
      exact ⟨s, bill, rfl, hbill, rfl⟩
  | _ => cases ha

/-- The bill that a settlement found is a row. -/
theorem Settlement.Guard.bill_mem {s : Settlement} (hs : s.Guard (View.alone d b)) {bill : Bill}
    (hbill : s.bill = some bill) : bill ∈ b.bills := by
  obtain ⟨-, -, hunbound, hbound⟩ := hs.loaded
  cases hcase : s.controlNumber.bill? with
  | none => rw [hunbound hcase] at hbill; cases hbill
  | some id =>
      obtain ⟨row, hrow, -, hsees⟩ := hbound id hcase
      obtain rfl := Option.some.inj (hbill.symm.trans hrow)
      simpa using hsees

theorem exists_bill_run (m : Move) {id : ℕ} (h : ∃ bill ∈ b.bills, bill.id = id) :
    ∃ bill ∈ (m.run b).bills, bill.id = id := by
  obtain ⟨bill, hbill, rfl⟩ := h
  rw [Move.run_bills]
  exact ⟨_, List.mem_append_left _ (List.mem_map_of_mem hbill), m.onBill_id bill⟩

theorem targets_run (h : Balanced b) (hm : m.Guard (View.alone d b)) :
    ∀ a ∈ (m.run b).allocations, ∃ bill ∈ (m.run b).bills, bill.id = a.bill := by
  intro a ha
  rw [Move.run_allocations] at ha
  rcases List.mem_append.mp ha with ha | ha
  · exact exists_bill_run m (h.targets a ha)
  · obtain ⟨s, bill, rfl, hbill, rfl⟩ := allocated_move ha
    have hguard : s.Guard (View.alone d b) := hm
    exact exists_bill_run _ ⟨bill, hguard.bill_mem hbill, rfl⟩

/-! ## Bills -/

/-- Nothing happened to the bill. -/
theorem Bill.InStep.same {row : Bill} (h : row.InStep b)
    (hnone : ∀ a ∈ m.allocations, a.bill ≠ row.id) : row.InStep (m.run b) := by
  have hfilter : m.allocations.filter (·.bill = row.id) = [] :=
    List.filter_eq_nil_iff.mpr fun a ha => by simpa using hnone a ha
  have hpaid : (m.run b).amountPaid row.id = b.amountPaid row.id := by
    rw [amountPaid_run, hfilter]
    exact add_zero _
  refine ⟨h.status, fun hactive a ha => ?_, by rw [hpaid]; exact h.partiallyPaid,
    by rw [hpaid]; exact h.paid⟩
  rw [Move.run_allocations] at ha
  rcases List.mem_append.mp ha with ha | ha
  · exact h.active hactive a ha
  · exact hnone a ha

/-- The status that `_allocate_to_bill` leaves behind is in step. -/
theorem inStep_settle (h : Balanced b) {s : Settlement} (hs : s.Guard (View.alone d b))
    {row : Bill} (hrow : row ∈ b.bills) :
    ((Move.settle s).onBill row).InStep ((Move.settle s).run b) := by
  cases hbill : s.bill with
  | none =>
      have hon : (Move.settle s).onBill row = row := by simp [Move.onBill, hbill]
      rw [hon]
      refine (h.bills row hrow).same fun a ha => ?_
      obtain ⟨bill, hcase, -⟩ := mem_allocations_settle ha
      rw [hbill] at hcase
      cases hcase
  | some bill =>
      have hmem := hs.bill_mem hbill
      by_cases hid : row.id = bill.id
      · obtain rfl : row = bill := Support.eq_of_key h.keys.bills hrow hmem hid
        have hold := h.bills row hrow
        have hallocations : (Move.settle s).allocations = [s.payment.allocationTo row.id] := by
          simp [Move.allocations, hbill]
        have hpaid : ((Move.settle s).run b).amountPaid row.id =
            b.amountPaid row.id + s.payment.amount.cents := by
          rw [amountPaid_run, hallocations]
          simp [Payment.allocationTo]
        have hpos := s.payment.amount.pos
        have hdecided : s.entered = settledStatus row.status
            (row.totalAmount.cents - (b.amountPaid row.id + s.payment.amount.cents)) := by
          rcases hs.allocates.bound row hbill with hsees | ⟨hnone, hstatus⟩
          · simpa using hsees
          · rw [hnone, settledStatus, if_pos hstatus]
        have hon : ∀ status, s.entered = some status →
            (Move.settle s).onBill row = (row.moveTo s.env.now status).saveStatus row := by
          intro status hentered
          simp [Move.onBill, hbill, hentered]
        have hkept : s.entered = none → (Move.settle s).onBill row = row := by
          intro hentered
          simp [Move.onBill, hbill, hentered]
        by_cases hpayable : row.status ≠ .active ∧ row.status ≠ .partiallyPaid
        · rw [settledStatus, if_pos hpayable] at hdecided
          rw [hkept hdecided]
          refine ⟨hold.status, fun hactive => absurd hactive hpayable.1,
            fun hpart => absurd hpart hpayable.2, fun hp => ?_⟩
          rw [hpaid]
          have hbefore := hold.paid hp
          linarith
        · rw [settledStatus, if_neg hpayable] at hdecided
          split at hdecided
          · next hbalance =>
              rw [hon _ hdecided]
              refine ⟨by simp [Bill.saveStatus, Bill.moveTo], (fun h => by cases h),
                (fun h => by cases h),
                fun _ => ?_⟩
              change row.totalAmount.cents ≤ ((Move.settle s).run b).amountPaid row.id
              rw [hpaid]
              linarith
          · next hbalance =>
              have hless : row.totalAmount.cents >
                  ((Move.settle s).run b).amountPaid row.id := by
                rw [hpaid]
                linarith
              split at hdecided
              · rw [hon _ hdecided]
                exact ⟨by simp [Bill.saveStatus, Bill.moveTo], (fun h => by cases h),
                  fun _ => hless, fun h => by cases h⟩
              · next hactive =>
                  rw [hkept hdecided]
                  have hpart : row.status = .partiallyPaid := by
                    by_contra hne
                    exact hpayable ⟨hactive, hne⟩
                  refine ⟨hold.status, fun h => absurd h hactive, fun _ => hless, fun h => ?_⟩
                  rw [hpart] at h
                  cases h
      · have hon : (Move.settle s).onBill row = row := by
          simp only [Move.onBill, hbill]
          split
          · next bill' status hbill' _ =>
              obtain rfl := Option.some.inj hbill'
              exact if_neg hid
          · rfl
        rw [hon]
        refine (h.bills row hrow).same fun a ha hbad => ?_
        obtain ⟨bill', hcase, rfl⟩ := mem_allocations_settle ha
        obtain rfl := Option.some.inj (hbill.symm.trans hcase)
        exact hid hbad.symm

theorem bills_run (h : Balanced b) (hm : m.Guard (View.alone d b)) :
    ∀ bill ∈ (m.run b).bills, bill.InStep (m.run b) := by
  intro bill hbill
  rw [Move.run_bills] at hbill
  rcases List.mem_append.mp hbill with hbill | hbill
  · obtain ⟨row, hrow, rfl⟩ := List.mem_map.mp hbill
    have hsame : m.onBill row = row → m.allocations = [] → (m.onBill row).InStep (m.run b) :=
      fun hon hnone => by
        rw [hon]
        exact (h.bills row hrow).same fun a ha => absurd (hnone ▸ ha) List.not_mem_nil
    cases m with
    | settle s => exact inStep_settle h hm hrow
    | openBill items new now =>
        obtain ⟨-, -, hclash, -⟩ := hm
        rw [View.sees_alone] at hclash
        refine hsame (if_neg fun hid => ?_) rfl
        have hany := List.any_eq_false.mp hclash row hrow
        simp [hid] at hany
    | cancelBill new =>
        by_cases hid : row.id = new.id
        · obtain ⟨old, now, -, -, hnew⟩ := hm
          have hon : (Move.cancelBill new).onBill row = new.saveStatus row := if_pos hid
          have hstatus : (new.saveStatus row).status = .cancelled := by rw [hnew]; rfl
          rw [hon]
          refine ⟨by rw [hstatus]; decide, fun hbad => ?_, fun hbad => ?_, fun hbad => ?_⟩ <;>
            rw [hstatus] at hbad <;> cases hbad
        · exact hsame (if_neg hid) rfl
    | _ => exact hsame rfl rfl
  · cases m with
    | openBill items new now =>
        obtain rfl := List.mem_singleton.mp hbill
        obtain ⟨-, -, hclash, -⟩ := hm
        rw [View.sees_alone] at hclash
        refine ⟨by simp [Bill.moveTo], fun _ a ha hbad => ?_, nofun, nofun⟩
        rw [Move.run_allocations] at ha
        rcases List.mem_append.mp ha with ha | ha
        · obtain ⟨row, hrow, hid⟩ := h.targets a ha
          have hany := List.any_eq_false.mp hclash row hrow
          have hnew : row.id = new.id := hid.trans hbad
          simp [hnew] at hany
        · cases ha
    | _ => cases hbill

/-! ## Receipts -/

theorem receipts_run (h : Balanced b) (hm : m.Guard (View.alone d b)) :
    ((m.run b).receipts.map Receipt.stated).Perm
      ((m.run b).settled.map Payment.Fixed.stated) := by
  rw [Move.run_receipts, List.map_append]
  by_cases hsettle : ∃ s, m = .settle s
  · obtain ⟨s, rfl⟩ := hsettle
    have hguard : s.Guard (View.alone d b) := hm
    obtain ⟨old, henters⟩ := hguard.enters
    obtain ⟨hold, hfixed, hallowed⟩ := henters.found
    have hid : s.payment.id = old.id := congrArg Payment.Fixed.id hfixed
    -- a payment that is not settled yet has no receipt
    have hissued : ∃ row, s.receipt = some row := by
      cases hreceipt : s.receipt with
      | some row => exact ⟨row, rfl⟩
      | none =>
          have hexists := hguard.receipts.existing hreceipt
          rw [View.sees_alone] at hexists
          obtain ⟨row, hrow⟩ := Option.isSome_iff_exists.mp hexists
          have hstated : row.stated ∈ b.settled.map Payment.Fixed.stated :=
            h.receipts.subset (List.mem_map_of_mem (List.mem_of_find?_eq_some hrow))
          obtain ⟨x, hx, hxstated⟩ := List.mem_map.mp hstated
          have hxid : x.id = old.id := by
            have hpayment : row.payment = s.payment.id := by simpa using List.find?_some hrow
            exact (congrArg (·.2.1) hxstated).trans (hpayment.trans hid)
          have hsettled := (fixed_of_mem_inClass h.toBooked hx hold hxid).2
          rw [hguard.successful] at hallowed
          rw [PaymentStatus.not_settled_of_allows_successful hallowed] at hsettled
          cases hsettled
    obtain ⟨row, hrow⟩ := hissued
    obtain ⟨hpayment, htenant, hamount, hcurrency, -⟩ := hguard.receipts.inserted row hrow
    have hadded : (Move.settle s).receipts.map Receipt.stated = [s.payment.fixed.stated] := by
      simp [Move.receipts, hrow, Receipt.stated, Payment.Fixed.stated, Payment.fixed, hpayment,
        htenant, hamount, hcurrency]
    rw [hadded]
    exact (List.perm_append_singleton _ _).trans ((h.receipts.cons _).trans
      ((settled_settle hm.lawful h.keyed).map _).symm)
  · have hnot : ∀ s, m ≠ .settle s := fun s hm => hsettle ⟨s, hm⟩
    have hnone : m.receipts = [] := by
      cases m with
      | settle s => exact absurd rfl (hnot s)
      | _ => rfl
    rw [hnone, settled_same hm.lawful h.keyed hnot]
    simpa using h.receipts

/-! ## Completion -/

/-- A property of the saved columns that every transition keeps holds of all rows. -/
theorem progress_run (hm : m.Guard (View.alone d b))
    {P : Payment.Progress → Prop} (hrows : ∀ p ∈ b.payments, P p.progress)
    (hopen : ∀ p, m = .openPayment p → P p.progress)
    (hstep : ∀ old new, Enters (View.alone d b) old new → P old.progress → P new.progress) :
    ∀ p ∈ (m.run b).payments, P p.progress := by
  intro p hp
  rw [Move.run_payments] at hp
  rcases List.mem_append.mp hp with hp | hp
  · obtain ⟨row, hrow, rfl⟩ := List.mem_map.mp hp
    rw [m.onPayment_progress row]
    cases hentered : m.entered with
    | none => exact hrows row hrow
    | some new =>
        dsimp only
        split
        · obtain ⟨old, henters⟩ := hm.enters hentered
          exact hstep old new henters (hrows old henters.found.1)
        · exact hrows row hrow
  · cases m with
    | openPayment payment =>
        obtain rfl := List.mem_singleton.mp hp
        exact hopen _ rfl
    | _ => cases hp

theorem completes_step {old new : PaymentStatus} (h : new ∈ old.allowedTransitions)
    (hnew : new.completes = false) : old.completes = false := by
  cases old <;> cases new <;> simp_all [PaymentStatus.allowedTransitions, PaymentStatus.completes]

theorem completed_run (h : Balanced b) (hm : m.Guard (View.alone d b)) :
    ∀ p ∈ (m.run b).payments, p.completedAt.isSome = p.status.completes := by
  refine progress_run (P := fun q => q.completedAt.isSome = q.status.completes) hm h.completed
    (fun p hp => ?_) fun old new henters hold => ?_
  · subst hp
    obtain ⟨hstatus, hcompleted, -⟩ := hm
    change p.completedAt.isSome = p.status.completes
    rw [hstatus, hcompleted]
    rfl
  · obtain ⟨-, hallowed, ⟨now, reason, hmoved⟩, -⟩ := henters
    change new.completedAt.isSome = new.status.completes
    have hcompleted : new.completedAt =
        if new.status.completes then some now else old.completedAt := by
      rw [hmoved]
      rfl
    cases hcompletes : new.status.completes with
    | true => rw [hcompleted, hcompletes]; rfl
    | false =>
        have hbefore : old.completedAt.isSome = old.status.completes := hold
        rw [hcompleted, hcompletes, if_neg Bool.false_ne_true, hbefore,
          completes_step hallowed hcompletes]

theorem reasons_run (h : Balanced b) (hm : m.Guard (View.alone d b)) :
    ∀ p ∈ (m.run b).payments, Varchar 255 p.failureReason := by
  refine progress_run (P := fun q => Varchar 255 q.failureReason) hm h.reasons
    (fun p hp => ?_) fun old new henters _ => henters.reasonFits
  subst hp
  obtain ⟨-, -, hreason, -⟩ := hm
  change Varchar 255 p.failureReason
  rw [hreason]
  decide

/-- Every move keeps the balance. -/
theorem Balanced.run (h : Balanced b) (hm : m.Guard (View.alone d b)) : Balanced (m.run b) where
  toBooked := h.toBooked.run hm.lawful
  toFees := h.toFees.run h.toBooked hm
  keys := h.keys.run hm
  references := references_run h hm
  allocations := allocations_run h hm
  targets := targets_run h hm
  receipts := receipts_run h hm
  bills := bills_run h hm
  completed := completed_run h hm
  reasons := reasons_run h hm

end Steps

/-! ## Runs -/

/-- The states that requests processed one at a time pass through are balanced. -/
theorem balanced_commit (request : Request) {s : DB} (h : Balanced s.toBooks) :
    Balanced (request.handler.commit s).toBooks := by
  rcases step_cases request h.keyed with heq | ⟨id, f, -, -, hbooks⟩ | ⟨ms, -, hchain, -, hbooks⟩
  · rw [heq]
    exact h
  · rw [hbooks]
    exact h
  · rw [hbooks]
    exact chain_invariant (I := fun _ b => Balanced b) (fun b m hb hm => hb.run hm) hchain h

theorem Initial.balanced {db : DB} (h : Initial db) : Balanced db.toBooks := by
  rw [h.books]
  exact balanced_empty

theorem balanced_afterAll {db : DB} (h : Initial db) (requests : List Request) :
    Balanced (afterAll db requests).toBooks :=
  after_invariant (I := fun s : DB => Balanced s.toBooks) h.balanced
    (fun _ r hs => balanced_commit r hs) requests

theorem coherent_afterAll {db : DB} (h : Initial db) (requests : List Request) :
    (afterAll db requests).toDirectory.Coherent := by
  have hboth : Balanced (afterAll db requests).toBooks ∧
      (afterAll db requests).toDirectory.Coherent :=
    after_invariant (I := fun s : DB => Balanced s.toBooks ∧ s.toDirectory.Coherent)
      ⟨h.balanced, h.directory⟩
      (fun _ r hs => ⟨balanced_commit r hs.1, coherent_commit r hs.1.keyed hs.2⟩) requests
  exact hboth.2

theorem Reachable.balanced {db : DB} (h : Reachable db) : Balanced db.toBooks := by
  obtain ⟨start, requests, hinitial, rfl⟩ := h
  exact balanced_afterAll hinitial requests

end Kusanya
