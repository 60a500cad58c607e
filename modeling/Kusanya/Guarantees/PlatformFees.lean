import Kusanya.Invariants.Histories

/-!
# The platform's accounting equation

For every tenant and every run of requests processed one at a time: revenue equals
the platform's ledger account, and both are fifty units for each control number and
for each payment that was ever `SUCCESSFUL`, less fifty for each payment refunded or
reversed while the policy was `CLAWBACK`.
-/

namespace Kusanya

open ReadCommitted

/-- The tenant's `fee_refund_policy`. -/
def DB.policyOf (db : DB) (tenant : ℕ) : Option FeeRefundPolicy :=
  (db.tenants.find? (·.id = tenant)).map (·.feeRefundPolicy)

/-- The payments of a tenant that are refunded or reversed. -/
def DB.undoneCount (db : DB) (tenant : ℕ) : ℕ :=
  (db.payments.filter fun p => p.status.undone && p.tenant = tenant).length

/-- The payments that a list of requests refunds or reverses while the tenant's policy is
`CLAWBACK`. -/
def clawbacks (tenant : ℕ) : DB → List Request → ℕ
  | _, [] => 0
  | db, r :: rs =>
      (if db.policyOf tenant = some .clawback then
        (r.handler.commit db).undoneCount tenant - db.undoneCount tenant
      else 0) + clawbacks tenant (r.handler.commit db) rs

/-- The payments of a tenant that were `SUCCESSFUL` at some time of the run. -/
def successCount (start : DB) (requests : List Request) (tenant : ℕ) : ℕ :=
  ((afterAll start requests).payments.filter fun p =>
    p.tenant = tenant && decide (EverSuccessful start requests p.id)).length

section Counting

variable {db : DB} {tenant : ℕ}

theorem countIn_eq (b : Books) (c : PaymentStatus → Bool) (tenant : ℕ) :
    b.countIn c tenant = (b.payments.filter fun p => c p.status && p.tenant = tenant).length := by
  rw [Books.countIn, Books.inClass, List.filter_map, List.length_map, List.filter_filter]
  refine congrArg List.length (List.filter_congr fun p _ => ?_)
  exact Bool.and_comm _ _

theorem undoneCount_eq (db : DB) (tenant : ℕ) :
    db.undoneCount tenant = db.countIn PaymentStatus.undone tenant :=
  (countIn_eq db.toBooks _ tenant).symm

theorem successCount_eq {start : DB} (hstart : Initial start) (requests : List Request) :
    successCount start requests tenant =
      (afterAll start requests).countIn PaymentStatus.settled tenant := by
  rw [countIn_eq, successCount]
  refine congrArg List.length (List.filter_congr fun p hp => ?_)
  rw [Bool.and_comm, Bool.eq_iff_iff, Bool.and_eq_true, Bool.and_eq_true, decide_eq_true_eq,
    everSuccessful_iff hstart requests hp]

end Counting

/-! ## One request -/

section Requests

variable {d : Directory} {b : Books} {tenant taken : ℕ}

theorem chain_fees {ms : List Move} (hb : Balanced b) (h : FeeEquation b tenant taken)
    (hchain : (View.alone d b).Chain ms) :
    FeeEquation (Move.runAll ms b) tenant (taken + (ms.map (·.takesBack tenant)).sum) := by
  induction ms generalizing b taken with
  | nil => exact h
  | cons m ms ih =>
      obtain ⟨hguard, hrest⟩ := hchain
      rw [View.map_alone] at hrest
      have hnext := ih (hb.run hguard) (h.run hb.toBooked hb.toFees hguard) hrest
      rw [List.map_cons, List.sum_cons, ← Nat.add_assoc]
      exact hnext

theorem chain_undone {ms : List Move} (hb : Balanced b) (hchain : (View.alone d b).Chain ms) :
    (Move.runAll ms b).countIn PaymentStatus.undone tenant =
      b.countIn PaymentStatus.undone tenant + (ms.map (·.undoes tenant)).sum := by
  induction ms generalizing b with
  | nil => rfl
  | cons m ms ih =>
      obtain ⟨hguard, hrest⟩ := hchain
      rw [View.map_alone] at hrest
      rw [Move.runAll_cons, ih (hb.run hguard) hrest, undone_count_run hb.toBooked hguard.lawful,
        List.map_cons, List.sum_cons, Nat.add_assoc]

/-- A chain takes back a fee for each payment it undoes under `CLAWBACK`, and none
under `RETAIN`. -/
theorem chain_takesBack {ms : List Move} (hb : Balanced b)
    (hchain : (View.alone d b).Chain ms) :
    (ms.map (·.takesBack tenant)).sum =
      if (d.tenants.find? (·.id = tenant)).map (·.feeRefundPolicy) = some .clawback then
        (ms.map (·.undoes tenant)).sum
      else 0 := by
  induction ms generalizing b with
  | nil => simp
  | cons m ms ih =>
      obtain ⟨hguard, hrest⟩ := hchain
      rw [View.map_alone] at hrest
      rw [List.map_cons, List.sum_cons, List.map_cons, List.sum_cons, ih (hb.run hguard) hrest]
      have hhead : m.takesBack tenant =
          if (d.tenants.find? (·.id = tenant)).map (·.feeRefundPolicy) = some .clawback then
            m.undoes tenant
          else 0 := by
        cases m with
        | undo env p fee metadata =>
            have htakes := UndoGuard.takesBack hb.toBooked hguard
            by_cases htenant : p.tenant = tenant
            · subst htenant
              obtain ⟨row, hrow⟩ := htakes.tenantExists
              by_cases hpolicy : row.feeRefundPolicy = .clawback
              · simp [Move.takesBack, Move.undoes, hrow, hpolicy,
                  htakes.clawedBack row hrow hpolicy]
              · simp [Move.takesBack, hrow, hpolicy, htakes.retained row hrow hpolicy]
            · simp [Move.takesBack, Move.undoes, htenant]
        | _ => simp [Move.takesBack, Move.undoes]
      rw [hhead]
      split <;> rfl

theorem feeEquation_commit (request : Request) {s : DB} (hs : Balanced s.toBooks)
    (h : FeeEquation s.toBooks tenant taken) :
    FeeEquation (request.handler.commit s).toBooks tenant
      (taken + if s.policyOf tenant = some .clawback then
        (request.handler.commit s).undoneCount tenant - s.undoneCount tenant else 0) := by
  have hsame : (request.handler.commit s).toBooks = s.toBooks → (taken +
      if s.policyOf tenant = some .clawback then
        (request.handler.commit s).undoneCount tenant - s.undoneCount tenant else 0) = taken := by
    intro hbooks
    rw [undoneCount_eq, undoneCount_eq, hbooks, Nat.sub_self, ite_self, Nat.add_zero]
  rcases step_cases request hs.keyed with heq | ⟨id, f, -, -, hbooks⟩ | ⟨ms, -, hchain, -, hbooks⟩
  · rw [hsame (congrArg DB.toBooks heq), heq]
    exact h
  · rw [hsame hbooks, hbooks]
    exact h
  · rw [undoneCount_eq, undoneCount_eq, hbooks, chain_undone hs hchain, Nat.add_sub_cancel_left]
    have hfees := chain_fees hs h hchain
    rw [chain_takesBack hs hchain] at hfees
    exact hfees

end Requests

theorem feeEquation_afterAll {s : DB} {tenant taken : ℕ} (hs : Balanced s.toBooks)
    (h : FeeEquation s.toBooks tenant taken) (requests : List Request) :
    FeeEquation (afterAll s requests).toBooks tenant (taken + clawbacks tenant s requests) := by
  induction requests generalizing s taken with
  | nil => exact h
  | cons r rs ih =>
      have hnext := ih (balanced_commit r hs) (feeEquation_commit r hs h)
      rw [afterAll, after_cons, clawbacks, ← Nat.add_assoc]
      exact hnext

/-! ## Nothing is rewritten -/

theorem runAll_prefix (ms : List Move) (b : Books) :
    b.revenue <+: (Move.runAll ms b).revenue ∧ b.ledger <+: (Move.runAll ms b).ledger := by
  induction ms generalizing b with
  | nil => exact ⟨List.prefix_refl _, List.prefix_refl _⟩
  | cons m ms ih =>
      obtain ⟨hrevenue, hledger⟩ := ih (m.run b)
      rw [Move.run_revenue] at hrevenue
      rw [Move.run_ledger] at hledger
      exact ⟨(List.prefix_append _ _).trans hrevenue, (List.prefix_append _ _).trans hledger⟩

theorem commit_prefix (request : Request) {s : DB} (hs : Balanced s.toBooks) :
    s.revenue <+: (request.handler.commit s).revenue ∧
      s.ledger <+: (request.handler.commit s).ledger := by
  rcases step_cases request hs.keyed with heq | ⟨id, f, -, -, hbooks⟩ | ⟨ms, -, -, -, hbooks⟩
  · rw [heq]
    exact ⟨List.prefix_refl _, List.prefix_refl _⟩
  · rw [hbooks]
    exact ⟨List.prefix_refl _, List.prefix_refl _⟩
  · rw [hbooks]
    exact runAll_prefix ms s.toBooks

theorem afterAll_prefix {s : DB} (hs : Balanced s.toBooks) (requests : List Request) :
    s.revenue <+: (afterAll s requests).revenue ∧ s.ledger <+: (afterAll s requests).ledger := by
  induction requests generalizing s with
  | nil => exact ⟨List.prefix_refl _, List.prefix_refl _⟩
  | cons r rs ih =>
      obtain ⟨hrevenue, hledger⟩ := commit_prefix r hs
      obtain ⟨hrevenue', hledger'⟩ := ih (balanced_commit r hs)
      exact ⟨hrevenue.trans hrevenue', hledger.trans hledger'⟩

/-! ## The equation -/

/-- The accounting equation, the links between the two tables, and that neither is
ever rewritten. -/
theorem platform_accounting {start : DB} (hstart : Initial start) (requests : List Request)
    (tenant : ℕ) :
    (afterAll start requests).revenueTotal tenant =
        (afterAll start requests).accountTotal tenant .platform ∧
      (afterAll start requests).revenueTotal tenant =
        5000 * ((afterAll start requests).controlNumberCount tenant : ℤ) +
          5000 * successCount start requests tenant - 5000 * clawbacks tenant start requests ∧
      (∀ ev ∈ (afterAll start requests).revenue, ev.amount ≠ .zero →
        ∃ e ∈ (afterAll start requests).ledger, ev.ledgerEntry = some e ∧
          e.amount = ev.amount ∧ e.currency = ev.currency) ∧
      (∀ ev ∈ (afterAll start requests).revenue, ev.amount = .zero → ev.ledgerEntry = none) ∧
      ∀ earlier later, requests = earlier ++ later →
        (afterAll start earlier).revenue <+: (afterAll start requests).revenue ∧
          (afterAll start earlier).ledger <+: (afterAll start requests).ledger := by
  have hbalanced := balanced_afterAll hstart requests
  have hzero : FeeEquation start.toBooks tenant 0 := by
    rw [hstart.books]
    exact feeEquation_empty tenant
  have hequation := feeEquation_afterAll hstart.balanced hzero requests
  rw [Nat.zero_add] at hequation
  refine ⟨hequation.platform, ?_, fun ev hev hne => ?_, fun ev hev hamount => ?_, ?_⟩
  · rw [hequation.fees, successCount_eq hstart]
  · have hlinked := hbalanced.linked ev hev
    unfold RevenueEvent.Linked at hlinked
    split at hlinked
    · exact absurd hlinked hne
    · next e hentry =>
        obtain ⟨-, hmem, -, hamount, hcurrency, -⟩ := hlinked
        exact ⟨e, hmem, hentry, hamount, hcurrency⟩
  · have hlinked := hbalanced.linked ev hev
    unfold RevenueEvent.Linked at hlinked
    split at hlinked
    · next hentry => exact hentry
    · exact absurd hamount hlinked.1
  · rintro earlier later rfl
    rw [show afterAll start (earlier ++ later) = afterAll (afterAll start earlier) later from
      after_append _ _ _ _]
    exact afterAll_prefix (balanced_afterAll hstart earlier) later

/-- A bill with its control number, a payment of it, and the refund of the payment. -/
def refundedRun : List Request :=
  [issueBill,
   payIssuedBill 2 (answering .successful "p" "") (amountOf 4000),
   { env := envAt 3 (answering .successful "p" ""), action := .paymentRefund 1 2 none }]

theorem platform_accounting_refunded :
    Initial smallInstallation ∧
      (afterAll smallInstallation refundedRun).revenueTotal 1 = 5000 * 1 + 5000 * 1 - 5000 * 1 := by
  refine ⟨smallInstallation_initial, ?_⟩
  have hequation := (platform_accounting smallInstallation_initial refundedRun 1).2.1
  have hnumbers : (afterAll smallInstallation refundedRun).controlNumberCount 1 = 1 := by decide
  have hsuccesses : successCount smallInstallation refundedRun 1 = 1 := by decide
  have hclawbacks : clawbacks 1 smallInstallation refundedRun = 1 := by decide
  rw [hnumbers, hsuccesses, hclawbacks] at hequation
  exact hequation

end Kusanya
