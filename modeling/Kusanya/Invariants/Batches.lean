import Kusanya.Invariants.Booked
import Kusanya.ReadCommitted.Disciplined

/-!
# Settlement batches

What the batch table and the payments that point into it have in common, what a row lock on a
payment keeps, and what becomes of both when a transaction that has locked its payments commits
a batch.
-/

namespace Kusanya

open ReadCommitted

/-! ## Batches and their payments -/

/-- The payments that point to a batch. -/
def Books.claimedBy (b : Books) (batch : ℕ) : List Payment :=
  b.payments.filter (·.settlementBatch = some batch)

/-- The `PAYMENT_SUCCESSFUL` events of a payment. -/
def Books.successes (b : Books) (payment : ℕ) : List RevenueEvent :=
  b.revenue.filter fun e => e.eventType = .paymentSuccessful && e.source = .payment payment

/-- What the platform earned on a payment. -/
def Books.feesOf (b : Books) (payment : ℕ) : Money :=
  ((b.successes payment).map (·.amount.cents)).sum

/-- The totals of a batch are those of the payments that point to it. -/
structure SettlementBatch.Exact (batch : SettlementBatch) (b : Books) : Prop where
  gross : batch.grossAmount.cents = ((b.claimedBy batch.id).map (·.amount.cents)).sum
  net : batch.netAmount.cents =
    batch.grossAmount.cents - batch.platformFeeTotal.cents - batch.providerFeeTotal.cents

/-- The keys and foreign keys of batches, payments and success events, and exact batches. -/
structure Books.SettlementTables (b : Books) : Prop where
  payments : (b.payments.map (·.id)).Nodup
  batches : (b.batches.map (·.id)).Nodup
  pointers : ∀ p ∈ b.payments, ∀ id, p.settlementBatch = some id → ∃ batch ∈ b.batches,
    batch.id = id
  exact : ∀ batch ∈ b.batches, batch.Exact b
  successes : ∀ e ∈ b.revenue, e.eventType = .paymentSuccessful →
    ∃ p ∈ b.payments, e.source = .payment p.id ∧ e.tenant = p.tenant

/-- The row is what has become of the payment: it stays in its batch. -/
structure Payment.Stays (p row : Payment) : Prop where
  fixed : row.fixed = p.fixed
  batch : ∀ id, p.settlementBatch = some id → row.settlementBatch = some id

theorem Payment.Stays.refl (p : Payment) : p.Stays p := ⟨rfl, fun _ h => h⟩

theorem Payment.Stays.trans {p q row : Payment} (h : p.Stays q) (h' : q.Stays row) : p.Stays row :=
  ⟨h'.fixed.trans h.fixed, fun id hid => h'.batch id (h.batch id hid)⟩

theorem Payment.Stays.id_eq {p row : Payment} (h : p.Stays row) : row.id = p.id :=
  congrArg Payment.Fixed.id h.fixed

theorem Payment.Stays.tenant_eq {p row : Payment} (h : p.Stays row) : row.tenant = p.tenant :=
  congrArg Payment.Fixed.tenant h.fixed

/-- What the lock of a payment or of a batch key keeps as it was. -/
def LockKeeps : Resource → DB → DB → Prop
  | .payment id, s, t =>
      t.toBooks.payment? id = s.toBooks.payment? id ∧
        t.toBooks.successes id = s.toBooks.successes id
  | .batch id, s, t => (∀ batch ∈ s.batches, batch.id ≠ id) → ∀ batch ∈ t.batches, batch.id ≠ id
  | _, _, _ => True

def settlementDiscipline : Discipline DB Resource where
  inv db := db.toBooks.SettlementTables
  evolves s t := ∀ p ∈ s.payments, ∃ row ∈ t.payments, p.Stays row
  keeps := LockKeeps
  evolves_refl _ p hp := ⟨p, hp, .refl p⟩
  evolves_trans h h' p hp := by
    obtain ⟨q, hq, hstays⟩ := h p hp
    obtain ⟨row, hrow, hstays'⟩ := h' q hq
    exact ⟨row, hrow, hstays.trans hstays'⟩
  keeps_refl k s := by
    cases k <;> first | trivial | exact ⟨rfl, rfl⟩ | exact fun h => h
  keeps_trans {k s t u} h h' := by
    cases k <;>
      first | trivial | exact ⟨h'.1.trans h.1, h'.2.trans h.2⟩ | exact fun hs => h' (h hs)

/-! ## From one committed state to the next -/

/-- A payment is settled by the batch: it was eligible when it was claimed. -/
structure Books.Settled (s t : Books) (batch : SettlementBatch) : Prop where
  fees : batch.platformFeeTotal.cents = ((t.claimedBy batch.id).map fun q => s.feesOf q.id).sum
  due : ∀ q ∈ t.claimedBy batch.id, ∃ p ∈ s.payments, p.Stays q ∧
    p.unsettled batch.tenant batch.provider batch.periodStart batch.periodEnd = true

/-- From one committed state to the next payments stay in their batches and batches stay as they
are; a new batch has counted the fees of its payments and each of them was eligible; no payment
enters a batch that was there before. -/
structure Books.SettlementStep (s t : Books) : Prop where
  payments : ∀ p ∈ s.payments, ∃ row ∈ t.payments, p.Stays row
  batches : ∀ batch ∈ s.batches, batch ∈ t.batches
  claimed : ∀ batch ∈ s.batches, ∀ q ∈ t.claimedBy batch.id,
    ∃ p ∈ s.claimedBy batch.id, p.Stays q
  settled : ∀ batch ∈ t.batches, batch ∉ s.batches → s.Settled t batch

/-! ## Claiming payments -/

/-- A batch may be built from the payments `claimed`: all of them are eligible, its totals are
theirs, and its key is free. -/
structure SettlementBatch.Claims (batch : SettlementBatch) (claimed : List Payment) (b : Books) :
    Prop where
  ids : (claimed.map (·.id)).Nodup
  found : ∀ p ∈ claimed, b.payment? p.id = some p
  due : ∀ p ∈ claimed,
    p.unsettled batch.tenant batch.provider batch.periodStart batch.periodEnd = true
  gross : batch.grossAmount.cents = (claimed.map (·.amount.cents)).sum
  fees : batch.platformFeeTotal.cents = (claimed.map fun p => b.feesOf p.id).sum
  net : batch.netAmount.cents =
    batch.grossAmount.cents - batch.platformFeeTotal.cents - batch.providerFeeTotal.cents
  fresh : ∀ row ∈ b.batches, row.id ≠ batch.id

/-- The `UPDATE` that lets payments point to their batch. -/
def Payment.claimFor (batch : ℕ) (claimed : List Payment) (p : Payment) : Payment :=
  if claimed.any (·.id = p.id) then { p with settlementBatch := some batch } else p

section Claims

variable {b : Books} {batch : SettlementBatch} {claimed : List Payment}

theorem claimFor_id (id : ℕ) (claimed : List Payment) (p : Payment) :
    (p.claimFor id claimed).id = p.id := by
  unfold Payment.claimFor
  split <;> rfl

theorem claimFor_amount (id : ℕ) (claimed : List Payment) (p : Payment) :
    (p.claimFor id claimed).amount = p.amount := by
  unfold Payment.claimFor
  split <;> rfl

theorem claimFor_fixed (id : ℕ) (claimed : List Payment) (p : Payment) :
    (p.claimFor id claimed).fixed = p.fixed := by
  unfold Payment.claimFor
  split <;> rfl

theorem unsettled_batch {tenant provider : ℕ} {periodStart periodEnd : Time} {p : Payment}
    (h : p.unsettled tenant provider periodStart periodEnd = true) : p.settlementBatch = none := by
  unfold Payment.unsettled at h
  simp only [Bool.and_eq_true, decide_eq_true_eq] at h
  exact h.1.2

theorem unsettled_tenant {tenant provider : ℕ} {periodStart periodEnd : Time} {p : Payment}
    (h : p.unsettled tenant provider periodStart periodEnd = true) : p.tenant = tenant := by
  unfold Payment.unsettled at h
  simp only [Bool.and_eq_true, decide_eq_true_eq] at h
  exact h.1.1.1.1

theorem SettlementBatch.Claims.mem (h : batch.Claims claimed b) {p : Payment} (hp : p ∈ claimed) :
    p ∈ b.payments :=
  (payment?_mem (h.found p hp)).1

/-- Nothing points to a batch that is not there yet. -/
theorem SettlementBatch.Claims.unclaimed (h : batch.Claims claimed b) (hb : b.SettlementTables) :
    ∀ p ∈ b.payments, p.settlementBatch ≠ some batch.id := by
  intro p hp hpoints
  obtain ⟨row, hrow, hid⟩ := hb.pointers p hp batch.id hpoints
  exact h.fresh row hrow hid

/-- A payment that is claimed was in no batch. -/
theorem SettlementBatch.Claims.any_iff (h : batch.Claims claimed b) (hb : b.SettlementTables)
    {p : Payment} (hp : p ∈ b.payments) : claimed.any (·.id = p.id) = true ↔ p ∈ claimed := by
  rw [List.any_eq_true]
  constructor
  · rintro ⟨q, hq, hid⟩
    rw [← Support.eq_of_key hb.payments (h.mem hq) hp (of_decide_eq_true hid)]
    exact hq
  · intro hmem
    exact ⟨p, hmem, decide_eq_true rfl⟩

theorem SettlementBatch.Claims.claimFor_eq (h : batch.Claims claimed b) (hb : b.SettlementTables)
    {p : Payment} (hp : p ∈ b.payments) :
    p.claimFor batch.id claimed =
      if p ∈ claimed then { p with settlementBatch := some batch.id } else p := by
  unfold Payment.claimFor
  by_cases hmem : p ∈ claimed
  · rw [if_pos ((h.any_iff hb hp).mpr hmem), if_pos hmem]
  · rw [if_neg fun hany => hmem ((h.any_iff hb hp).mp hany), if_neg hmem]

/-- A payment stays where it was when a batch claims the free ones. -/
theorem SettlementBatch.Claims.stays (h : batch.Claims claimed b) (hb : b.SettlementTables)
    {p : Payment} (hp : p ∈ b.payments) : p.Stays (p.claimFor batch.id claimed) := by
  refine ⟨claimFor_fixed _ _ p, fun id hid => ?_⟩
  rw [h.claimFor_eq hb hp]
  split
  · next hmem =>
      rw [unsettled_batch (h.due p hmem)] at hid
      cases hid
  · exact hid

/-- Which payments point to which batch afterwards. -/
theorem SettlementBatch.Claims.claimed_iff (h : batch.Claims claimed b) (hb : b.SettlementTables)
    {p : Payment} (hp : p ∈ b.payments) (id : ℕ) :
    (p.claimFor batch.id claimed).settlementBatch = some id ↔
      if id = batch.id then p ∈ claimed else p.settlementBatch = some id := by
  rw [h.claimFor_eq hb hp]
  by_cases hid : id = batch.id
  · subst hid
    rw [if_pos rfl]
    by_cases hmem : p ∈ claimed
    · rw [if_pos hmem]
      exact ⟨fun _ => hmem, fun _ => rfl⟩
    · rw [if_neg hmem]
      exact ⟨fun hpoints => absurd hpoints (h.unclaimed hb p hp), fun hin => absurd hin hmem⟩
  · rw [if_neg hid]
    by_cases hmem : p ∈ claimed
    · rw [if_pos hmem, unsettled_batch (h.due p hmem)]
      constructor
      · intro hsome
        exact absurd (Option.some.inj hsome).symm hid
      · intro hnone
        cases hnone
    · rw [if_neg hmem]

theorem run_openBatch_payments :
    ((Move.openBatch batch claimed).run b).payments =
      b.payments.map (Payment.claimFor batch.id claimed) := rfl

theorem run_openBatch_batches :
    ((Move.openBatch batch claimed).run b).batches = b.batches ++ [batch] := rfl

/-- The payments of the new batch are the claimed ones. -/
theorem SettlementBatch.Claims.claimedBy_new (h : batch.Claims claimed b)
    (hb : b.SettlementTables) :
    ∃ rows : List Payment, rows.Perm claimed ∧ (∀ p ∈ rows, p ∈ b.payments) ∧
      ((Move.openBatch batch claimed).run b).claimedBy batch.id =
        rows.map (Payment.claimFor batch.id claimed) := by
  refine ⟨b.payments.filter fun p => claimed.any fun a => a.id = p.id,
    Support.filter_any_perm hb.payments h.ids fun p hp => h.mem hp,
    fun p hp => (List.mem_filter.mp hp).1, ?_⟩
  unfold Books.claimedBy
  rw [run_openBatch_payments, List.filter_map]
  congr 1
  apply List.filter_congr
  intro p hp
  rw [Function.comp, Bool.eq_iff_iff, decide_eq_true_iff, h.claimed_iff hb hp, if_pos rfl,
    h.any_iff hb hp]

/-- The payments of the other batches stay. -/
theorem SettlementBatch.Claims.claimedBy_old (h : batch.Claims claimed b) (hb : b.SettlementTables)
    {id : ℕ} (hid : id ≠ batch.id) :
    ((Move.openBatch batch claimed).run b).claimedBy id =
      (b.claimedBy id).map (Payment.claimFor batch.id claimed) := by
  unfold Books.claimedBy
  rw [run_openBatch_payments, List.filter_map]
  congr 1
  apply List.filter_congr
  intro p hp
  rw [Function.comp, Bool.eq_iff_iff, decide_eq_true_iff, decide_eq_true_iff,
    h.claimed_iff hb hp, if_neg hid]

theorem map_claimFor_amounts (rows : List Payment) (id : ℕ) :
    (rows.map (Payment.claimFor id claimed)).map (·.amount.cents) = rows.map (·.amount.cents) := by
  rw [List.map_map]
  exact List.map_congr_left fun p _ => congrArg (·.cents) (claimFor_amount id claimed p)

theorem map_claimFor_fees (rows : List Payment) (id : ℕ) :
    (rows.map (Payment.claimFor id claimed)).map (fun q => b.feesOf q.id) =
      rows.map fun q => b.feesOf q.id := by
  rw [List.map_map]
  exact List.map_congr_left fun p _ => congrArg b.feesOf (claimFor_id id claimed p)

/-- The totals stay exact when a batch is built. -/
theorem SettlementBatch.Claims.tables (h : batch.Claims claimed b) (hb : b.SettlementTables) :
    ((Move.openBatch batch claimed).run b).SettlementTables where
  payments := by
    rw [run_openBatch_payments, Support.map_key (claimFor_id batch.id claimed)]
    exact hb.payments
  batches := by
    rw [run_openBatch_batches, List.map_append, List.map_singleton]
    refine List.nodup_append.mpr
      ⟨hb.batches, List.pairwise_singleton _ _, fun id hid id' hid' => ?_⟩
    obtain ⟨row, hrow, rfl⟩ := List.mem_map.mp hid
    rw [List.mem_singleton.mp hid']
    exact h.fresh row hrow
  pointers := by
    intro q hq id hid
    rw [run_openBatch_payments] at hq
    obtain ⟨p, hp, rfl⟩ := List.mem_map.mp hq
    rw [run_openBatch_batches]
    by_cases hnew : id = batch.id
    · exact ⟨batch, List.mem_append_right _ (List.mem_singleton.mpr rfl), hnew.symm⟩
    · rw [h.claimed_iff hb hp, if_neg hnew] at hid
      obtain ⟨row, hrow, hrowid⟩ := hb.pointers p hp id hid
      exact ⟨row, List.mem_append_left _ hrow, hrowid⟩
  exact := by
    intro row hrow
    rcases List.mem_append.mp hrow with hrow | hrow
    · refine ⟨?_, (hb.exact row hrow).net⟩
      rw [h.claimedBy_old hb (h.fresh row hrow), map_claimFor_amounts]
      exact (hb.exact row hrow).gross
    · obtain rfl := List.mem_singleton.mp hrow
      refine ⟨?_, h.net⟩
      obtain ⟨rows, hperm, -, hrows⟩ := h.claimedBy_new hb
      rw [hrows, map_claimFor_amounts, h.gross]
      exact ((hperm.map _).sum_eq).symm
  successes := by
    intro e he hsuccess
    obtain ⟨p, hp, hsource, htenant⟩ := hb.successes e he hsuccess
    refine ⟨p.claimFor batch.id claimed, List.mem_map_of_mem hp, ?_, ?_⟩
    · rw [claimFor_id]
      exact hsource
    · rw [htenant]
      exact ((h.stays hb hp).tenant_eq).symm

theorem SettlementBatch.Claims.step (h : batch.Claims claimed b) (hb : b.SettlementTables) :
    b.SettlementStep ((Move.openBatch batch claimed).run b) where
  payments p hp := ⟨_, List.mem_map_of_mem hp, h.stays hb hp⟩
  batches row hrow := List.mem_append_left _ hrow
  claimed := by
    intro row hrow q hq
    rw [h.claimedBy_old hb (h.fresh row hrow)] at hq
    obtain ⟨p, hp, rfl⟩ := List.mem_map.mp hq
    exact ⟨p, hp, h.stays hb (List.mem_filter.mp hp).1⟩
  settled := by
    intro row hrow hnew
    obtain rfl : row = batch := by
      rcases List.mem_append.mp hrow with hrow | hrow
      · exact absurd hrow hnew
      · exact List.mem_singleton.mp hrow
    obtain ⟨rows, hperm, hmem, hrows⟩ := h.claimedBy_new hb
    constructor
    · rw [hrows, map_claimFor_fees, h.fees]
      exact ((hperm.map _).sum_eq).symm
    · intro q hq
      rw [hrows] at hq
      obtain ⟨p, hp, rfl⟩ := List.mem_map.mp hq
      exact ⟨p, hmem p hp, h.stays hb (hmem p hp), h.due p (hperm.mem_iff.mp hp)⟩

/-- What the locks do not cover is as it was. -/
theorem claimFor_keeps {id : ℕ} (hid : ∀ p ∈ claimed, p.id ≠ id) :
    ((Move.openBatch batch claimed).run b).payment? id = b.payment? id := by
  unfold Books.payment?
  rw [run_openBatch_payments, Support.find?_map_key (claimFor_id batch.id claimed)]
  cases hfound : b.payments.find? (·.id = id) with
  | none => rfl
  | some p =>
      have hp : p.id = id := by simpa using List.find?_some hfound
      have hany : claimed.any (·.id = p.id) = false := by
        rw [List.any_eq_false]
        intro q hq
        simpa [hp] using hid q hq
      rw [Option.map_some, Payment.claimFor, hany]
      rfl

end Claims

/-! ## The fees of a batch -/

/-- The aggregate of `generate_settlement_batch` adds up the fees of its payments. -/
theorem platformFees_eq {b : Books} (hb : b.SettlementTables) {tenant : ℕ} {payments : List Payment}
    (hids : (payments.map (·.id)).Nodup)
    (hrows : ∀ p ∈ payments, p ∈ b.payments ∧ p.tenant = tenant) :
    b.platformFees tenant payments = (payments.map fun p => b.feesOf p.id).sum := by
  have hfilter : (b.revenue.filter fun e => e.tenant = tenant && e.eventType = .paymentSuccessful &&
        payments.any fun p => e.source = .payment p.id) =
      b.revenue.filter fun e => payments.any fun p =>
        e.eventType = .paymentSuccessful && e.source = .payment p.id := by
    apply List.filter_congr
    intro e he
    rw [Bool.eq_iff_iff]
    simp only [Bool.and_eq_true, decide_eq_true_eq, List.any_eq_true]
    constructor
    · rintro ⟨⟨-, hsuccess⟩, p, hp, hsource⟩
      exact ⟨p, hp, hsuccess, hsource⟩
    · rintro ⟨p, hp, hsuccess, hsource⟩
      obtain ⟨q, hq, hsource', htenant⟩ := hb.successes e he hsuccess
      rw [hsource] at hsource'
      have hpq : p = q :=
        Support.eq_of_key hb.payments (hrows p hp).1 hq (Source.payment.inj hsource')
      rw [← hpq] at htenant
      exact ⟨⟨htenant.trans (hrows p hp).2, hsuccess⟩, p, hp, hsource⟩
  unfold Books.platformFees
  rw [hfilter, Support.sum_filter_any _ ?_]
  · rfl
  · refine (List.pairwise_map.mp hids).imp fun {p q} hne e _ he => ?_
    simp only [Bool.and_eq_true, decide_eq_true_eq] at he
    rw [he.2]
    simp [hne]

end Kusanya
