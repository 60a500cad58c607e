import Kusanya.Invariants.Histories

/-!
# Sums over settled payments

The mirrors of `Balanced`, summed: the ledger entries and the allocations of a bill
or a tenant, each as a sum over the settled payments.
-/

namespace Kusanya

/-- The payment is on the control number of the bill. -/
def Payment.OnBill (b : Books) (p : Payment) (bill : ℕ) : Prop :=
  ∃ cn ∈ b.controlNumbers, cn.id = p.controlNumber ∧ cn.owner = .bill bill

instance (b : Books) (p : Payment) (bill : ℕ) : Decidable (p.OnBill b bill) :=
  inferInstanceAs (Decidable (∃ cn ∈ b.controlNumbers, cn.id = p.controlNumber ∧ _))

/-- The sum of the ledger entries of one type over the payments on a bill's control number. -/
def Books.entryTotal (b : Books) (bill : ℕ) (entryType : LedgerEntryType) : Money :=
  ((b.ledger.filter fun e => e.entryType = entryType &&
    b.payments.any fun p => decide (p.OnBill b bill) && e.source = some (.payment p.id)).map
      (·.amount.cents)).sum

/-- The sum of the allocations over the payments on a bill's control number. -/
def Books.allocationTotal (b : Books) (bill : ℕ) : Money :=
  ((b.allocations.filter fun a =>
    b.payments.any fun p => decide (p.OnBill b bill) && a.payment = p.id).map
      (·.amount.cents)).sum

/-- The settled payments on a bill's control number. -/
def Books.settledOn (b : Books) (bill : ℕ) : List Payment.Fixed :=
  b.settled.filter fun x => b.billOf x.controlNumber = some bill

section Sums

variable {b : Books}

theorem bill?_eq_some {cn : ControlNumber} {bill : ℕ} :
    cn.bill? = some bill ↔ cn.owner = .bill bill := by
  unfold ControlNumber.bill?
  cases cn.owner <;> simp

theorem onBill_iff (h : Balanced b) {p : Payment} (hp : p ∈ b.payments) (bill : ℕ) :
    p.OnBill b bill ↔ b.billOf p.controlNumber = some bill := by
  obtain ⟨cn, hcn, hid⟩ := h.references p hp
  have hfind := Support.find?_key h.keys.controlNumbers hcn
  rw [Books.billOf, ← hid, hfind, Option.bind_some, bill?_eq_some]
  constructor
  · rintro ⟨cn', hcn', hid', howner⟩
    obtain rfl : cn' = cn := Support.eq_of_key h.keys.controlNumbers hcn' hcn (hid'.trans hid.symm)
    exact howner
  · exact fun howner => ⟨cn, hcn, hid, howner⟩

/-- Some payment on the bill has this key: the settled payment is on the bill. -/
theorem any_onBill (h : Balanced b) {x : Payment.Fixed} (hx : x ∈ b.settled) (bill : ℕ) :
    (b.payments.any fun p => decide (p.OnBill b bill) && decide (x.id = p.id)) =
      decide (b.billOf x.controlNumber = some bill) := by
  obtain ⟨p, hp, -, rfl⟩ := mem_inClass_iff.mp hx
  rw [Bool.eq_iff_iff, List.any_eq_true, decide_eq_true_eq]
  constructor
  · rintro ⟨q, hq, hboth⟩
    simp only [Bool.and_eq_true, decide_eq_true_eq] at hboth
    obtain rfl : p = q := Support.eq_of_key h.keyed hp hq hboth.2
    exact (onBill_iff h hp bill).mp hboth.1
  · intro hbill
    refine ⟨p, hp, ?_⟩
    simp only [Bool.and_eq_true, decide_eq_true_eq]
    exact ⟨(onBill_iff h hp bill).mpr hbill, rfl⟩

/-- The entries of one type on a bill add up to the settled payments on it. -/
theorem entryTotal_eq (h : Balanced b) (bill : ℕ) {entryType : LedgerEntryType}
    {booking : Payment.Fixed → LedgerEntry}
    (hentries : ((b.ledger.filter (·.entryType = entryType)).map LedgerEntry.plain).Perm
      (b.settled.map booking))
    (hsource : ∀ x : Payment.Fixed, (booking x).source = some (.payment x.id))
    (hamount : ∀ x : Payment.Fixed, (booking x).amount = x.amount.toNumeric) :
    b.entryTotal bill entryType = ((b.settledOn bill).map (·.amount.cents)).sum := by
  have hselect := hentries.filter fun e =>
    b.payments.any fun p => decide (p.OnBill b bill) && decide (e.source = some (.payment p.id))
  have hsum := (hselect.map fun e : LedgerEntry => e.amount.cents).sum_eq
  rw [List.filter_map, List.filter_filter, List.map_map, List.filter_map, List.map_map] at hsum
  have hleft : b.entryTotal bill entryType =
      ((b.ledger.filter fun e => ((fun e : LedgerEntry => b.payments.any fun p =>
        decide (p.OnBill b bill) && decide (e.source = some (.payment p.id))) ∘
          LedgerEntry.plain) e && decide (e.entryType = entryType)).map
          ((fun e : LedgerEntry => e.amount.cents) ∘ LedgerEntry.plain)).sum := by
    unfold Books.entryTotal
    refine congrArg List.sum (congrArg (List.map _) (List.filter_congr fun e _ => ?_))
    exact Bool.and_comm _ _
  rw [hleft, hsum]
  have hright : b.settled.filter ((fun e : LedgerEntry => b.payments.any fun p =>
      decide (p.OnBill b bill) && decide (e.source = some (.payment p.id))) ∘ booking) =
      b.settledOn bill := by
    refine List.filter_congr fun x hx => ?_
    simp only [Function.comp, hsource, Option.some.injEq, Source.payment.injEq]
    exact any_onBill h hx bill
  rw [hright]
  refine congrArg List.sum (List.map_congr_left fun x _ => ?_)
  simp only [Function.comp, hamount]

/-- Allocations selected by their bill, as a sum over the settled payments on it. -/
theorem allocations_sum (h : Balanced b) {bill : ℕ} {P : PaymentAllocation → Bool}
    (hP : ∀ x ∈ b.settled, ∀ id, b.billOf x.controlNumber = some id →
      P (x.allocationTo id) = decide (id = bill)) :
    ((b.allocations.filter P).map (·.amount.cents)).sum =
      ((b.settledOn bill).map (·.amount.cents)).sum := by
  have hsum := ((h.allocations.filter P).map fun a : PaymentAllocation => a.amount.cents).sum_eq
  rw [hsum, List.filter_flatMap]
  have hone : ∀ x ∈ b.settled, (b.allocationsOf x).filter P =
      if b.billOf x.controlNumber = some bill then [x.allocationTo bill] else [] := by
    intro x hx
    unfold Books.allocationsOf
    cases hbill : b.billOf x.controlNumber with
    | none => simp
    | some id =>
        have hselected := hP x hx id hbill
        by_cases hid : id = bill
        · subst hid
          simpa using hselected
        · simpa [hid] using hselected
  rw [List.flatMap_congr hone, Books.settledOn]
  induction b.settled with
  | nil => rfl
  | cons x xs ih =>
      rw [List.flatMap_cons, List.map_append, List.sum_append, ih]
      by_cases hbill : b.billOf x.controlNumber = some bill <;>
        simp [hbill, Payment.Fixed.allocationTo]

theorem amountPaid_eq (h : Balanced b) (bill : ℕ) :
    b.amountPaid bill = ((b.settledOn bill).map (·.amount.cents)).sum :=
  allocations_sum h fun _ _ _ _ => rfl

/-- The allocations of the payments on a bill are the allocations to the bill. -/
theorem allocationTotal_eq (h : Balanced b) (bill : ℕ) :
    b.allocationTotal bill = ((b.settledOn bill).map (·.amount.cents)).sum := by
  refine allocations_sum h fun x hx id hbill => ?_
  have hany := any_onBill h hx bill
  rw [hbill] at hany
  simp only [Option.some.injEq] at hany
  exact hany

/-- The institution's account adds up to the settled payments of the tenant. -/
theorem institutionTotal_eq (h : Balanced b) (tenant : ℕ) :
    b.accountTotal tenant .institution =
      ((b.settled.filter (·.tenant = tenant)).map (·.amount.cents)).sum := by
  have hselect := (entitlement_entries h.toBooked).filter fun e => decide (e.tenant = tenant)
  have hsum := (hselect.map fun e : LedgerEntry => e.amount.cents).sum_eq
  rw [List.filter_map, List.filter_filter, List.map_map, List.filter_map, List.map_map] at hsum
  have haccount : ∀ e ∈ b.ledger,
      (e.account = .institution ↔ e.entryType = .institutionEntitlement) := by
    intro e he
    rw [h.accounts e he]
    cases e.entryType <;> simp [LedgerEntryType.bookedOn]
  have hleft : b.accountTotal tenant .institution =
      ((b.ledger.filter fun e => ((fun e : LedgerEntry => decide (e.tenant = tenant)) ∘
        LedgerEntry.plain) e && decide (e.entryType = .institutionEntitlement)).map
          ((fun e : LedgerEntry => e.amount.cents) ∘ LedgerEntry.plain)).sum := by
    unfold Books.accountTotal
    refine congrArg List.sum (congrArg (List.map _) (List.filter_congr fun e he => ?_))
    rw [decide_eq_decide.mpr (haccount e he)]
    rfl
  rw [hleft, hsum]
  rfl

end Sums

end Kusanya
