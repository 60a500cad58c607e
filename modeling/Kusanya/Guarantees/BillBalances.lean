import Kusanya.Invariants.Sums

/-!
# Ledger, allocations and bill balance

In every state that requests processed one at a time reach, the ledger, the
allocations and `amount_paid` of a bill agree, and the allocations are those of the
payments that were ever `SUCCESSFUL`.
-/

namespace Kusanya

open ReadCommitted

section Allocations

variable {b : Books}

/-- A payment's row among the settled ones. -/
theorem settled_filter (h : Booked b) {p : Payment} (hp : p ∈ b.payments) :
    b.settled.filter (·.id = p.id) = if p.status.settled then [p.fixed] else [] := by
  split
  · next hsettled =>
      exact Support.filter_key (a := p.fixed) (settled_ids_nodup h)
        (mem_inClass hp hsettled)
  · next hsettled =>
      refine List.filter_eq_nil_iff.mpr fun x hx hid => hsettled ?_
      exact (fixed_of_mem_inClass h hx hp (by simpa using hid)).2

/-- The allocations of a payment: its own if it is settled, none otherwise. -/
theorem allocations_of_payment (h : Balanced b) {p : Payment} (hp : p ∈ b.payments) :
    (b.allocations.filter (·.payment = p.id)).Perm
      (if p.status.settled then b.allocationsOf p.fixed else []) := by
  have hselect := h.allocations.filter fun a => decide (a.payment = p.id)
  have hone : ∀ x ∈ b.settled,
      (b.allocationsOf x).filter (fun a => decide (a.payment = p.id)) =
        if decide (x.id = p.id) then b.allocationsOf x else [] := by
    intro x _
    unfold Books.allocationsOf
    cases b.billOf x.controlNumber with
    | none => simp
    | some bill => by_cases hid : x.id = p.id <;> simp [Payment.Fixed.allocationTo, hid]
  rw [List.filter_flatMap, List.flatMap_congr hone, Support.flatMap_ite,
    settled_filter h.toBooked hp] at hselect
  refine hselect.trans (List.Perm.of_eq ?_)
  split
  · rw [List.flatMap_cons, List.flatMap_nil, List.append_nil]
  · rfl

end Allocations

/-- The ledger, the allocations and the bills never drift apart. -/
theorem bill_balances_agree {start : DB} (hstart : Initial start) (requests : List Request) :
    (∀ bill ∈ (afterAll start requests).bills,
        (afterAll start requests).entryTotal bill.id .paymentReceived =
          (afterAll start requests).amountPaid bill.id ∧
        (afterAll start requests).entryTotal bill.id .institutionEntitlement =
          (afterAll start requests).amountPaid bill.id ∧
        (afterAll start requests).allocationTotal bill.id =
          (afterAll start requests).amountPaid bill.id) ∧
      (∀ p ∈ (afterAll start requests).payments, ∀ bill,
        p.OnBill (afterAll start requests).toBooks bill →
        EverSuccessful start requests p.id →
        (afterAll start requests).allocations.filter (·.payment = p.id) =
          [{ tenant := p.tenant, payment := p.id, bill, amount := p.amount.toNumeric }]) ∧
      ∀ a ∈ (afterAll start requests).allocations, ∃ p ∈ (afterAll start requests).payments,
        a.payment = p.id ∧ EverSuccessful start requests p.id ∧
          p.OnBill (afterAll start requests).toBooks a.bill := by
  have h := balanced_afterAll hstart requests
  refine ⟨fun bill _ => ?_, fun p hp bill hbill hsuccess => ?_, fun a ha => ?_⟩
  · rw [amountPaid_eq h, allocationTotal_eq h]
    exact ⟨entryTotal_eq h _ (received_entries h.toBooked) (fun _ => rfl) fun _ => rfl,
      entryTotal_eq h _ (entitlement_entries h.toBooked) (fun _ => rfl) fun _ => rfl, rfl⟩
  · have hsettled := (everSuccessful_iff hstart requests hp).mp hsuccess
    have hperm := allocations_of_payment h hp
    have hbillOf : (afterAll start requests).billOf p.fixed.controlNumber = some bill :=
      (onBill_iff h hp bill).mp hbill
    rw [if_pos hsettled, Books.allocationsOf, hbillOf] at hperm
    exact List.perm_singleton.mp hperm
  · obtain ⟨x, hx, hax⟩ := List.mem_flatMap.mp (h.allocations.subset ha)
    obtain ⟨p, hp, hsettled, rfl⟩ := mem_inClass_iff.mp hx
    simp only [Books.allocationsOf, Option.mem_toList, Option.map_eq_some_iff] at hax
    obtain ⟨bill, hbill, rfl⟩ := hax
    exact ⟨p, hp, rfl, (everSuccessful_iff hstart requests hp).mpr hsettled,
      (onBill_iff h hp bill).mpr hbill⟩

/-- Two payments of one bill, the second settled by a query. -/
def twoPayments : List Request :=
  [issueBill,
   payIssuedBill 2 (answering .successful "a" "") (amountOf 4000),
   payIssuedBill 3 (answering .pending "b" "") (amountOf 6000),
   { env := envAt 4 (answering .successful "b" ""), action := .paymentQuery 1 3 }]

theorem bill_balances_agree_twoPayments :
    Initial smallInstallation ∧
      (afterAll smallInstallation twoPayments).entryTotal 1 .paymentReceived = 10000 := by
  refine ⟨smallInstallation_initial, ?_⟩
  have hagree := (bill_balances_agree smallInstallation_initial twoPayments).1
  have hpaid : (afterAll smallInstallation twoPayments).amountPaid 1 = 10000 := by decide
  have hbill : ∃ bill ∈ (afterAll smallInstallation twoPayments).bills, bill.id = 1 := by decide
  obtain ⟨bill, hmem, hid⟩ := hbill
  have hreceived := (hagree bill hmem).1
  rw [hid] at hreceived
  exact hreceived.trans hpaid

end Kusanya
