import Kusanya.Invariants.Sums
import Mathlib.Algebra.Order.BigOperators.Group.List

/-!
# Refunds and reversals do not unwind

A success books the ledger, the allocation and the bill's status; a refund or a
reversal only compensates the platform's fee.  So the books say what the payments
that are `SUCCESSFUL` now say exactly as long as no payment was refunded or reversed.
-/

namespace Kusanya

open ReadCommitted

/-- The amounts of the payments on a bill that are `SUCCESSFUL` now. -/
def Books.successfulOn (b : Books) (bill : ℕ) : Money :=
  ((b.payments.filter fun p => p.status = .successful && decide (p.OnBill b bill)).map
    (·.amount.cents)).sum

/-- The amounts of a tenant's payments that are `SUCCESSFUL` now. -/
def Books.successfulTotal (b : Books) (tenant : ℕ) : Money :=
  ((b.payments.filter fun p => p.status = .successful && p.tenant = tenant).map
    (·.amount.cents)).sum

/-- The bills and the institution's account stand for the payments that are `SUCCESSFUL` now. -/
structure Unwound (b : Books) : Prop where
  amountPaid : ∀ bill ∈ b.bills, b.amountPaid bill.id = b.successfulOn bill.id
  paid : ∀ bill ∈ b.bills, bill.status = .paid →
    bill.totalAmount.cents ≤ b.successfulOn bill.id
  institution : ∀ tenant, b.accountTotal tenant .institution = b.successfulTotal tenant

section Sums

/-- What is settled is what is `SUCCESSFUL` and what was undone. -/
theorem settled_sum (payments : List Payment) (P : Payment → Bool) :
    ((payments.filter fun p => p.status.settled && P p).map (·.amount.cents)).sum =
      ((payments.filter fun p => p.status = .successful && P p).map (·.amount.cents)).sum +
        ((payments.filter fun p => p.status.undone && P p).map (·.amount.cents)).sum := by
  induction payments with
  | nil => rfl
  | cons p payments ih =>
      cases hP : P p with
      | false => simpa [hP] using ih
      | true =>
          cases hstatus : p.status <;>
            simp [hP, hstatus, PaymentStatus.settled, PaymentStatus.undone] at ih ⊢ <;> linarith

/-- The amount of an undone payment is missing. -/
theorem undone_sum_pos {payments : List Payment} {P : Payment → Bool} {p : Payment}
    (hp : p ∈ payments) (hundone : p.status.undone = true) (hP : P p = true) :
    0 < ((payments.filter fun p => p.status.undone && P p).map (·.amount.cents)).sum := by
  have hmem : p ∈ payments.filter fun p => p.status.undone && P p :=
    List.mem_filter.mpr ⟨hp, by rw [hundone, hP]; rfl⟩
  refine List.sum_pos _ (fun x hx => ?_) fun hnil => ?_
  · obtain ⟨q, -, rfl⟩ := List.mem_map.mp hx
    exact q.amount.pos
  · rw [List.map_eq_nil_iff] at hnil
    rw [hnil] at hmem
    cases hmem

theorem undone_sum_zero {payments : List Payment} (P : Payment → Bool)
    (hnone : ∀ p ∈ payments, p.status.undone = false) :
    ((payments.filter fun p => p.status.undone && P p).map (·.amount.cents)).sum = 0 := by
  have hfilter : (payments.filter fun p => p.status.undone && P p) = [] :=
    List.filter_eq_nil_iff.mpr fun p hp => by simp [hnone p hp]
  rw [hfilter]
  rfl

variable {b : Books}

theorem settledOn_sum (h : Balanced b) (bill : ℕ) :
    ((b.settledOn bill).map (·.amount.cents)).sum =
      ((b.payments.filter fun p => p.status.settled && decide (p.OnBill b bill)).map
        (·.amount.cents)).sum := by
  rw [Books.settledOn, Books.settled, Books.inClass, List.filter_map, List.map_map,
    List.filter_filter]
  refine congrArg List.sum (congrArg (List.map _) (List.filter_congr fun p hp => ?_))
  rw [decide_eq_decide.mpr (onBill_iff h hp bill), Bool.and_comm]
  rfl

theorem settledTotal_sum (b : Books) (tenant : ℕ) :
    ((b.settled.filter (·.tenant = tenant)).map (·.amount.cents)).sum =
      ((b.payments.filter fun p => p.status.settled && p.tenant = tenant).map
        (·.amount.cents)).sum := by
  rw [Books.settled, Books.inClass, List.filter_map, List.map_map, List.filter_filter]
  refine congrArg List.sum (congrArg (List.map _) (List.filter_congr fun p _ => ?_))
  exact Bool.and_comm _ _

end Sums

theorem undone_false_iff (s : PaymentStatus) :
    s.undone = false ↔ s ≠ .refunded ∧ s ≠ .reversed := by
  cases s <;> decide

/-- The books stand for the current payments exactly as long as none was refunded or reversed. -/
theorem unwound_iff {db : DB} (h : Reachable db) :
    Unwound db.toBooks ↔
      ∀ p ∈ db.payments, p.status ≠ .refunded ∧ p.status ≠ .reversed := by
  have hb := h.balanced
  constructor
  · intro hunwound p hp
    rw [← undone_false_iff]
    by_contra hundone
    rw [Bool.not_eq_false] at hundone
    have htotal := hunwound.institution p.tenant
    rw [institutionTotal_eq hb, settledTotal_sum, settled_sum] at htotal
    have hpos := undone_sum_pos (P := fun q => q.tenant = p.tenant) hp hundone (by simp)
    rw [Books.successfulTotal] at htotal
    linarith
  · intro hnone
    have hundone : ∀ p ∈ db.payments, p.status.undone = false := fun p hp =>
      (undone_false_iff _).mpr (hnone p hp)
    have hpaid : ∀ bill, db.amountPaid bill = db.successfulOn bill := by
      intro bill
      rw [amountPaid_eq hb, settledOn_sum hb, settled_sum, undone_sum_zero _ hundone, add_zero]
      rfl
    refine ⟨fun bill _ => hpaid bill.id, fun bill hbill hstatus => ?_, fun tenant => ?_⟩
    · rw [← hpaid]
      exact (hb.bills bill hbill).paid hstatus
    · rw [institutionTotal_eq hb, settledTotal_sum, settled_sum, undone_sum_zero _ hundone,
        add_zero]
      rfl

/-- A bill paid in full, and the payment refunded. -/
def refundedPayment : List Request :=
  [issueBill,
   payIssuedBill 2 (answering .successful "p" "") (amountOf 10000),
   { env := envAt 3 (answering .successful "p" ""), action := .paymentRefund 1 2 none }]

theorem unwound_iff_paid :
    Reachable (afterAll smallInstallation (refundedPayment.take 2)) ∧
      Unwound (afterAll smallInstallation (refundedPayment.take 2)).toBooks := by
  have hreachable : Reachable (afterAll smallInstallation (refundedPayment.take 2)) :=
    ⟨_, _, smallInstallation_initial, rfl⟩
  exact ⟨hreachable, (unwound_iff hreachable).mpr (by decide)⟩

/-- After the refund the bill is still `PAID` with nothing to show for it. -/
theorem refund_leaves_bill_paid : ¬ ∀ db, Reachable db → Unwound db.toBooks := by
  intro h
  have hunwound := h _ ⟨_, refundedPayment, smallInstallation_initial, rfl⟩
  have hbill : ∃ bill ∈ (afterAll smallInstallation refundedPayment).bills,
      bill.status = .paid ∧ ¬bill.totalAmount.cents ≤
        (afterAll smallInstallation refundedPayment).successfulOn bill.id := by decide
  obtain ⟨bill, hmem, hpaid, hless⟩ := hbill
  exact hless (hunwound.paid bill hmem hpaid)

end Kusanya
