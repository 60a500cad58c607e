import Kusanya.System.RowIdentity
import Kusanya.Invariants.Fees

/-!
# Double entry

Money that a customer paid is owed to the institution, in rows of the same amount; what the
platform earned or gave back is a revenue event, and its ledger rows are those of the events.
Requests of all kinds run next to each other, also such that read the same payment and take it
back twice; in every committed state the two sides of the ledger agree, and so do the ledger and
the revenue (`books_balance`), and no row of either is ever changed or deleted
(`books_only_grow`).
-/

namespace Kusanya

open ReadCommitted Support

/-! ## Tables that balance -/

/-- What the two rows of a receipt of money share. -/
structure Posting.Side where
  tenant : ℕ
  amount : Numeric
  currency : String
  reference : String
  source : Option Source

def Posting.side (p : Posting) : Posting.Side :=
  { tenant := p.tenant
    amount := p.amount
    currency := p.currency
    reference := p.reference
    source := p.source }

/-- The rows of one type. -/
def entriesOf (entryType : LedgerEntryType) (rows : List LedgerEntry) : List LedgerEntry :=
  rows.filter (·.entryType = entryType)

/-- The platform's rows. -/
def platformRows (rows : List LedgerEntry) : List LedgerEntry :=
  rows.filter (·.account = .platform)

/-- The amount of an event is that of its ledger row; an event without one is about nothing. -/
structure RevenueEvent.Priced (e : RevenueEvent) : Prop where
  unposted : e.ledgerEntry = none → e.amount = .zero
  posted : ∀ row, e.ledgerEntry = some row →
    row.amount = e.amount ∧ row.tenant = e.tenant ∧ row.currency = e.currency

/-- Rows of the ledger and events that belong together. -/
structure Tally (ledger : List LedgerEntry) (revenue : List RevenueEvent) : Prop where
  mirrored : (entriesOf .paymentReceived ledger).map (·.toPosting.side) =
    (entriesOf .institutionEntitlement ledger).map (·.toPosting.side)
  explained : revenue.filterMap (·.ledgerEntry) = platformRows ledger
  priced : ∀ e ∈ revenue, e.Priced

/-- The double entry of the books: ledger and revenue tally, and what was earned was earned on
payments. -/
structure Books.DoubleEntry (b : Books) : Prop where
  tally : Tally b.ledger b.revenue
  successes : ∀ e ∈ b.revenue, e.eventType = .paymentSuccessful →
    ∃ p ∈ b.payments, e.source = .payment p.id ∧ e.tenant = p.tenant ∧ e.currency = p.currency

theorem tally_nil : Tally [] [] where
  mirrored := rfl
  explained := rfl
  priced _ he := absurd he List.not_mem_nil

theorem Tally.append {ledger ledger' : List LedgerEntry} {revenue revenue' : List RevenueEvent}
    (h : Tally ledger revenue) (h' : Tally ledger' revenue') :
    Tally (ledger ++ ledger') (revenue ++ revenue') where
  mirrored := by
    unfold entriesOf
    rw [List.filter_append, List.filter_append, List.map_append, List.map_append]
    exact congrArg₂ _ h.mirrored h'.mirrored
  explained := by
    unfold platformRows
    rw [List.filterMap_append, List.filter_append]
    exact congrArg₂ _ h.explained h'.explained
  priced e he := by
    rcases List.mem_append.mp he with he | he
    · exact h.priced e he
    · exact h'.priced e he

/-- The row of an event is one of the platform's. -/
theorem Tally.platform {ledger : List LedgerEntry} {revenue : List RevenueEvent}
    (h : Tally ledger revenue) {e : RevenueEvent} (he : e ∈ revenue) {row : LedgerEntry}
    (hrow : e.ledgerEntry = some row) : row.account = .platform := by
  have hmem : row ∈ platformRows ledger := by
    rw [← h.explained]
    exact List.mem_filterMap.mpr ⟨e, he, hrow⟩
  exact of_decide_eq_true (List.mem_filter.mp hmem).2

/-! ## Totals -/

/-- The sum of a tenant's rows of one type in one currency. -/
def Books.posted (b : Books) (entryType : LedgerEntryType) (tenant : ℕ) (currency : String) :
    Money :=
  (((entriesOf entryType b.ledger).filter fun row =>
    row.tenant = tenant && row.currency = currency).map (·.amount.cents)).sum

/-- The sum of a tenant's rows on the platform's account in one currency. -/
def Books.platformTotal (b : Books) (tenant : ℕ) (currency : String) : Money :=
  (((platformRows b.ledger).filter fun row =>
    row.tenant = tenant && row.currency = currency).map (·.amount.cents)).sum

/-- The sum of a tenant's revenue events in one currency. -/
def Books.earned (b : Books) (tenant : ℕ) (currency : String) : Money :=
  ((b.revenue.filter fun e => e.tenant = tenant && e.currency = currency).map (·.amount.cents)).sum

/-- A sum over rows of a tenant and a currency is one over their sides. -/
theorem sum_sides (rows : List LedgerEntry) (tenant : ℕ) (currency : String) :
    ((rows.filter fun row => row.tenant = tenant && row.currency = currency).map
      (·.amount.cents)).sum =
    (((rows.map (·.toPosting.side)).filter fun side =>
      side.tenant = tenant && side.currency = currency).map (·.amount.cents)).sum := by
  rw [List.filter_map, List.map_map]
  congr 1

/-- Priced events add up to their ledger rows. -/
theorem sum_priced {revenue : List RevenueEvent} (h : ∀ e ∈ revenue, e.Priced) (tenant : ℕ)
    (currency : String) :
    ((revenue.filter fun e => e.tenant = tenant && e.currency = currency).map
      (·.amount.cents)).sum =
    (((revenue.filterMap (·.ledgerEntry)).filter fun row =>
      row.tenant = tenant && row.currency = currency).map (·.amount.cents)).sum := by
  induction revenue with
  | nil => rfl
  | cons e revenue ih =>
      obtain ⟨hpriced, hrest⟩ := List.forall_mem_cons.mp h
      have ih := ih hrest
      cases hrow : e.ledgerEntry with
      | none =>
          rw [List.filterMap_cons_none hrow, ← ih, List.filter_cons]
          split
          · rw [List.map_cons, List.sum_cons, hpriced.unposted hrow, Numeric.zero_cents, zero_add]
          · rfl
      | some row =>
          obtain ⟨hamount, htenant, hcurrency⟩ := hpriced.posted row hrow
          rw [List.filterMap_cons_some hrow, List.filter_cons, List.filter_cons, htenant, hcurrency]
          split
          · rw [List.map_cons, List.map_cons, List.sum_cons, List.sum_cons, ih, hamount]
          · exact ih

theorem Books.DoubleEntry.received_eq {b : Books} (h : b.DoubleEntry) (tenant : ℕ)
    (currency : String) :
    b.posted .paymentReceived tenant currency =
      b.posted .institutionEntitlement tenant currency := by
  unfold Books.posted
  rw [sum_sides, h.tally.mirrored, ← sum_sides]

theorem Books.DoubleEntry.earned_eq {b : Books} (h : b.DoubleEntry) (tenant : ℕ)
    (currency : String) : b.earned tenant currency = b.platformTotal tenant currency := by
  unfold Books.earned Books.platformTotal
  rw [sum_priced h.tally.priced, h.tally.explained]

/-! ## What a move adds -/

section Moves

variable {view : View} {ms : List Move} {m : Move} {b : Books} {env : Env}

/-- The rows and events that a move adds tally. -/
def Move.Tallies (m : Move) : Prop := Tally m.postings m.events

theorem priced_of_row {e : RevenueEvent} {row : LedgerEntry} (h : e.ledgerEntry = some row)
    (hamount : row.amount = e.amount) (htenant : row.tenant = e.tenant)
    (hcurrency : row.currency = e.currency) : e.Priced where
  unposted hnone := by
    rw [h] at hnone
    cases hnone
  posted row' hrow' := by
    rw [h] at hrow'
    obtain rfl := Option.some.inj hrow'
    exact ⟨hamount, htenant, hcurrency⟩

theorem priced_of_zero {e : RevenueEvent} (h : e.ledgerEntry = none) (hamount : e.amount = .zero) :
    e.Priced where
  unposted _ := hamount
  posted row hrow := by
    rw [h] at hrow
    cases hrow

theorem Tally.single {ledger : List LedgerEntry} {e : RevenueEvent}
    (hreceived : entriesOf .paymentReceived ledger = [])
    (hentitled : entriesOf .institutionEntitlement ledger = [])
    (hexplained : e.ledgerEntry.toList = platformRows ledger) (hpriced : e.Priced) :
    Tally ledger [e] where
  mirrored := by
    rw [hreceived, hentitled]
  explained := by
    rw [← hexplained]
    cases hrow : e.ledgerEntry with
    | none => exact List.filterMap_cons_none hrow
    | some row => exact List.filterMap_cons_some hrow
  priced e' he' := by
    rw [List.mem_singleton.mp he']
    exact hpriced

/-- A success posts both sides of its receipt, and its fee. -/
theorem tallies_settle (s : Settlement) : (Move.settle s).Tallies where
  mirrored := rfl
  explained := rfl
  priced e he := by
    rw [List.mem_singleton.mp he]
    exact priced_of_row rfl rfl rfl rfl

theorem tallies_issue (cn : ControlNumber) (currency : String) :
    (Move.issue env cn currency).Tallies :=
  Tally.single rfl rfl rfl (priced_of_row rfl rfl rfl rfl)

theorem tallies_note {event : RevenueEvent} (h : (Move.note event).Guard view) :
    (Move.note event).Tallies := by
  obtain ⟨hamount, hentry, -⟩ := h
  refine Tally.single rfl rfl ?_ (priced_of_zero hentry hamount)
  rw [hentry]
  rfl

/-- The fee that a refund or reversal takes back was earned on the payment. -/
structure TakenFrom (payment : Payment) (fee : RevenueEvent) : Prop where
  priced : fee.Priced
  tenant : fee.tenant = payment.tenant
  currency : fee.currency = payment.currency
  platform : ∀ row, fee.ledgerEntry = some row → row.account = .platform

theorem compensation_types (status : PaymentStatus) :
    status.compensation.2 ≠ .paymentReceived ∧ status.compensation.2 ≠ .institutionEntitlement := by
  cases status <;> simp [PaymentStatus.compensation]

theorem tallies_undo {payment : Payment} {fee : Option RevenueEvent}
    {metadata : List (String × String)} (h : ∀ f, fee = some f → TakenFrom payment f) :
    (Move.undo env payment fee metadata).Tallies := by
  have hnone : fee.bind (·.takenBack env payment.status) = none →
      (Move.compensationAmount fee) = .zero → (Move.undo env payment fee metadata).Tallies := by
    intro hentry hamount
    unfold Move.Tallies
    simp only [Move.postings, Move.events, hentry]
    exact Tally.single rfl rfl rfl (priced_of_zero rfl hamount)
  cases fee with
  | none => exact hnone rfl rfl
  | some f =>
      obtain ⟨hpriced, htenant, hcurrency, hplatform⟩ := h f rfl
      cases hrow : f.ledgerEntry with
      | none =>
          refine hnone ?_ ?_
          · simp [RevenueEvent.takenBack, hrow]
          · simp [Move.compensationAmount, hpriced.unposted hrow, Numeric.ext_iff]
      | some row =>
          obtain ⟨hamount, hrowtenant, hrowcurrency⟩ := hpriced.posted row hrow
          obtain ⟨hreceived, hentitled⟩ := compensation_types payment.status
          unfold Move.Tallies
          simp only [Move.postings, Move.events, Option.bind_some, RevenueEvent.takenBack, hrow,
            Option.map_some, Option.toList_some]
          apply Tally.single
          · simp [entriesOf, hreceived]
          · simp [entriesOf, hentitled]
          · simp [platformRows, Payment.event, hplatform row hrow]
          · refine priced_of_row rfl rfl ?_ ?_
            · exact hrowtenant.trans htenant
            · exact hrowcurrency.trans hcurrency

/-- Any other move. -/
theorem Move.Guard.tallies (h : m.Guard view)
    (hundo : ∀ env payment fee metadata, m ≠ .undo env payment fee metadata) : m.Tallies := by
  cases m with
  | settle s => exact tallies_settle s
  | issue env cn currency => exact tallies_issue cn currency
  | note event => exact tallies_note h
  | undo env payment fee metadata => exact absurd rfl (hundo env payment fee metadata)
  | _ => exact tally_nil

theorem runAll_tally (hb : Tally b.ledger b.revenue) (h : ∀ m ∈ ms, m.Tallies) :
    Tally (Move.runAll ms b).ledger (Move.runAll ms b).revenue := by
  induction ms generalizing b with
  | nil => exact hb
  | cons m ms ih =>
      obtain ⟨hm, hms⟩ := List.forall_mem_cons.mp h
      refine ih ?_ hms
      rw [m.run_ledger, m.run_revenue]
      exact hb.append hm

/-- Every move of a chain passed its guard. -/
theorem View.Chain.guard (h : view.Chain ms) (hm : m ∈ ms) : ∃ view' : View, m.Guard view' := by
  induction ms generalizing view with
  | nil => cases hm
  | cons m' ms ih =>
      rcases List.mem_cons.mp hm with rfl | hm
      · exact ⟨view, h.1⟩
      · exact ih h.2 hm

/-- A payment whose status is saved was found or opened by the transaction. -/
theorem View.Chain.entered (h : view.Chain ms) (hm : m ∈ ms) {q : Payment}
    (hq : m.entered = some q) :
    ∃ p : Payment, (view.Holds p ∨ ∃ m' ∈ ms, p ∈ m'.opened) ∧ p.fixed = q.fixed := by
  induction ms generalizing view with
  | nil => cases hm
  | cons m' ms ih =>
      obtain ⟨hguard, hrest⟩ := h
      rcases List.mem_cons.mp hm with rfl | hm
      · have henters : ∃ old, Enters view old q := by
          cases m with
          | enter payment =>
              obtain rfl := Option.some.inj hq
              exact hguard.1
          | settle s =>
              obtain rfl := Option.some.inj hq
              have hsettle : s.Guard view := hguard
              exact hsettle.enters
          | undo env payment fee metadata =>
              obtain rfl := Option.some.inj hq
              have hundo : UndoGuard view payment fee := hguard
              obtain ⟨old, henters, -⟩ := hundo.enters
              exact ⟨old, henters⟩
          | _ => cases hq
        obtain ⟨old, henters⟩ := henters
        obtain ⟨now, reason, hmoved⟩ := henters.moved
        refine ⟨old, Or.inl henters.holds, ?_⟩
        rw [hmoved]
        rfl
      · obtain ⟨p, hp, hfixed⟩ := ih hrest hm
        rcases hp with ⟨what, hgives, hsees⟩ | ⟨m'', hm'', hopened⟩
        · rw [View.seesAt_map] at hsees
          obtain ⟨d, b, hview, hrow⟩ := hsees
          rw [Move.run_payments] at hrow
          rcases List.mem_append.mp hrow with hrow | hrow
          · obtain ⟨old, hold, rfl⟩ := List.mem_map.mp hrow
            exact ⟨old, Or.inl ⟨what, hgives, d, b, hview, hold⟩,
              (m'.onPayment_fixed old).symm.trans hfixed⟩
          · exact ⟨p, Or.inr ⟨m', List.mem_cons_self, hrow⟩, hfixed⟩
        · exact ⟨p, Or.inr ⟨m'', List.mem_cons_of_mem _ hm'', hopened⟩, hfixed⟩

/-- A success is booked by a settlement. -/
theorem settles_of_success {e : RevenueEvent} (h : m.Guard view) (he : e ∈ m.events)
    (hsuccess : e.eventType = .paymentSuccessful) :
    ∃ q, m.entered = some q ∧ e.source = .payment q.id ∧ e.tenant = q.tenant ∧
      e.currency = q.currency := by
  cases m with
  | settle s =>
      obtain rfl := List.mem_singleton.mp he
      exact ⟨s.payment, rfl, rfl, rfl, rfl⟩
  | note event =>
      obtain rfl := List.mem_singleton.mp he
      obtain ⟨-, -, htype⟩ := h
      rw [hsuccess] at htype
      simp at htype
  | undo env p fee metadata =>
      obtain rfl := List.mem_singleton.mp he
      cases hstatus : p.status <;>
        simp [Payment.event, PaymentStatus.compensation, hstatus] at hsuccess
  | issue env cn currency =>
      obtain rfl := List.mem_singleton.mp he
      cases hsuccess
  | _ => cases he

end Moves

/-! ## Commits -/

section Commits

variable {s t : DB} {seen : List (Resource × DB)} {request : Request}

/-- The rows that a transaction found are still there when it commits. -/
theorem held_kept {p : Payment} (hread : ∀ x ∈ seen, x.2.toBooks.Grows s.toBooks)
    (hp : (viewOf (Read seen) id).Holds p) : ∃ row ∈ s.payments, row.fixed = p.fixed := by
  obtain ⟨what, -, d, b, ⟨v, hv, rfl, rfl⟩, hp⟩ := hp
  exact (hread _ hv).payments.mem hp

/-- What is taken back is the event of the success. -/
theorem original_of_clawback {policy : FeeRefundPolicy} {original : Option RevenueEvent}
    {fee : RevenueEvent} (h : clawback? policy original = some fee) : original = some fee := by
  unfold clawback? at h
  split at h
  · split at h
    · exact congrArg some (Option.some.inj h)
    · cases h
  · cases h

/-- A fee that is taken back was earned on the payment. -/
theorem UndoGuard.takenFrom (hs : s.toBooks.DoubleEntry)
    (hids : (s.payments.map (·.id)).Nodup) (hread : ∀ x ∈ seen, x.2.toBooks.Grows s.toBooks)
    {payment : Payment} {fee : Option RevenueEvent}
    (h : UndoGuard (viewOf (Read seen) id) payment fee) :
    ∀ f, fee = some f → TakenFrom payment f := by
  rintro f rfl
  obtain ⟨original, tenant, ⟨what, d, b, ⟨v, hv, rfl, rfl⟩, horiginal⟩, -, hclawback⟩ := h.fee
  rw [original_of_clawback hclawback] at horiginal
  obtain ⟨hmem, hkey⟩ := List.mem_filter.mp (newestEvent_mem horiginal)
  simp only [Bool.and_eq_true, decide_eq_true_eq] at hkey
  obtain ⟨⟨htenant, hsuccess⟩, hsource⟩ := hkey
  have hf : f ∈ s.revenue := (hread _ hv).revenue.subset hmem
  -- the payment that was found and the one of the event are the same row by now
  obtain ⟨old, henters, -⟩ := h.enters
  obtain ⟨now, reason, hmoved⟩ := henters.moved
  have hfixed : old.fixed = payment.fixed := by
    rw [hmoved]
    rfl
  obtain ⟨row, hrow, hrowfixed⟩ := held_kept hread henters.holds
  obtain ⟨p, hp, hpsource, -, hpcurrency⟩ := hs.successes f hf hsuccess
  have hid : p.id = row.id := by
    rw [hsource] at hpsource
    rw [← Source.payment.inj hpsource]
    exact (congrArg Payment.Fixed.id (hrowfixed.trans hfixed)).symm
  obtain rfl : p = row := Support.eq_of_key hids hp hrow hid
  refine ⟨hs.tally.priced f hf, htenant, ?_, fun _ hentry => hs.tally.platform hf hentry⟩
  rw [hpcurrency]
  exact congrArg Payment.Fixed.currency (hrowfixed.trans hfixed)

/-- Every commit keeps the double entry. -/
theorem Request.Commits.doubleEntry (h : request.Commits (Read seen) s t)
    (hread : ∀ x ∈ seen, x.2.toBooks.Grows s.toBooks) (hids : (s.payments.map (·.id)).Nodup)
    (hs : s.toBooks.DoubleEntry) : t.toBooks.DoubleEntry := by
  have hgrows := h.grows
  cases h with
  | saved _ _ hsaved =>
      obtain ⟨-, -, -, hbooks⟩ := hsaved
      rw [hbooks]
      exact hs
  | @acted ms hacts hchain _ hbooks _ =>
      have htallies : ∀ m ∈ ms, m.Tallies := by
        intro m hm
        by_cases hundo : Undoes ms
        · obtain ⟨env, payment, fee, metadata, rfl⟩ := hundo
          obtain ⟨hguard, -⟩ := hchain
          rw [List.mem_singleton.mp hm]
          exact tallies_undo (UndoGuard.takenFrom hs hids hread hguard)
        · obtain ⟨view', hguard⟩ := hchain.guard hm
          refine hguard.tallies fun env payment fee metadata hm' => ?_
          subst hm'
          exact hacts.no_undo hundo hm
      rw [hbooks] at hgrows ⊢
      refine ⟨runAll_tally hs.tally htallies, fun e he hsuccess => ?_⟩
      rcases mem_runAll_revenue he with hold | ⟨m, hm, hnew⟩
      · obtain ⟨p, hp, hsource, htenant, hcurrency⟩ := hs.successes e hold hsuccess
        obtain ⟨row, hrow, hfixed⟩ := hgrows.payments.mem hp
        refine ⟨row, hrow, ?_, ?_, ?_⟩
        · rw [hsource]
          exact congrArg (fun f : Payment.Fixed => Source.payment f.id) hfixed.symm
        · rw [htenant]
          exact congrArg Payment.Fixed.tenant hfixed.symm
        · rw [hcurrency]
          exact congrArg Payment.Fixed.currency hfixed.symm
      · obtain ⟨view', hguard⟩ := hchain.guard hm
        obtain ⟨q, hentered, hsource, htenant, hcurrency⟩ := settles_of_success hguard hnew hsuccess
        have hrow : ∃ row ∈ (Move.runAll ms s.toBooks).payments, row.fixed = q.fixed := by
          obtain ⟨p, hp, hfixed⟩ := hchain.entered hm hentered
          rw [← hfixed]
          rcases hp with hheld | ⟨m', hm', hopened⟩
          · obtain ⟨row, hrow, hrowfixed⟩ := held_kept hread hheld
            obtain ⟨row', hrow', hrow'fixed⟩ := hgrows.payments.mem hrow
            exact ⟨row', hrow', hrow'fixed.trans hrowfixed⟩
          · exact mem_runAll_opened hm' hopened
        obtain ⟨row, hrow, hfixed⟩ := hrow
        refine ⟨row, hrow, ?_, ?_, ?_⟩
        · rw [hsource]
          exact congrArg (fun f : Payment.Fixed => Source.payment f.id) hfixed.symm
        · rw [htenant]
          exact congrArg Payment.Fixed.tenant hfixed.symm
        · rw [hcurrency]
          exact congrArg Payment.Fixed.currency hfixed.symm

end Commits

/-! ## Every schedule -/

/-- A commit that leaves the primary keys unique leaves the totals of bills alone. -/
theorem Request.Commits.totals {φ : Resource → DB → Prop} {request : Request} {s t : DB}
    (h : request.Commits φ s t) (hids : t.ids.Nodup) : Grown Bill.totalAmount s.bills t.bills := by
  have hbills : (t.bills.map Bill.id).Nodup := by
    have hkeys := (List.nodup_append.mp hids).1
    rw [← Function.comp_def Resource.bill Bill.id, ← List.map_map] at hkeys
    exact hkeys.of_map _
  cases h with
  | saved _ _ hsaved =>
      obtain ⟨-, -, -, hbooks⟩ := hsaved
      rw [hbooks]
      exact .refl _ _
  | acted _ _ _ hbooks _ =>
      rw [hbooks] at hbills ⊢
      exact runAll_totals hbills

/-- Whatever requests run, and however they interleave, from one committed state to the next rows
are only inserted, and of the rows that were there only columns change that are not fixed; rows of
the ledger, of the revenue, of allocations, receipts and bill items never change, nor do the totals
of bills. -/
theorem books_only_grow (requests : List Request) (start : DB)
    (hstart : start.toBooks.SettlementTables) (hids : start.ids.Nodup) (schedule : List Event) :
    ((Config.start start (requests.map Request.handler)).run schedule).history.IsChain
      fun s t => s.toBooks.Grows t.toBooks ∧ Grown Bill.totalAmount s.bills t.bills := by
  obtain ⟨hrun, -⟩ := run_requests_under (Discipline.unique DB.ids) _ requests hstart hids
    (fun request _ => keepsTo_unique request hids) schedule
  have hrefl : ∀ s : DB, s.toBooks.Grows s.toBooks ∧ Grown Bill.totalAmount s.bills s.bills :=
    fun s => ⟨.refl s.toBooks, .refl _ _⟩
  have htrans : ∀ s t u : DB,
      s.toBooks.Grows t.toBooks ∧ Grown Bill.totalAmount s.bills t.bills →
      t.toBooks.Grows u.toBooks ∧ Grown Bill.totalAmount t.bills u.bills →
      s.toBooks.Grows u.toBooks ∧ Grown Bill.totalAmount s.bills u.bills :=
    fun s t u h h' => ⟨h.1.trans h'.1, h.2.trans h'.2⟩
  refine (hrun.invariant (J := fun _ => True) trivial hrefl htrans
    fun i _ seen s t h _ _ => ⟨trivial, ?_⟩).2
  obtain ⟨request, -, hcommits⟩ := h.commits
  exact ⟨hcommits.grows, hcommits.totals h.left⟩

/-- Whatever requests run, and however they interleave, in every committed state the two sides of
the ledger agree, tenant by tenant and currency by currency, and so do the platform's rows and the
revenue. -/
theorem books_balance (requests : List Request) (start : DB)
    (hstart : start.toBooks.SettlementTables) (hbooks : start.toBooks.DoubleEntry)
    (schedule : List Event) :
    ∀ s ∈ ((Config.start start (requests.map Request.handler)).run schedule).history,
      s.toBooks.DoubleEntry ∧ ∀ tenant currency,
        s.toBooks.posted .paymentReceived tenant currency =
          s.toBooks.posted .institutionEntitlement tenant currency ∧
        s.toBooks.earned tenant currency = s.toBooks.platformTotal tenant currency := by
  obtain ⟨hrun, -⟩ := run_requests requests hstart schedule
  have hinvariant := hrun.invariant (J := fun s => s.toBooks.DoubleEntry)
    (G := fun s t => s.toBooks.Grows t.toBooks) hbooks (fun s => .refl s.toBooks)
    (fun s t u h h' => .trans h h') fun i _ seen s t h hs hread => by
      obtain ⟨request, -, hcommits⟩ := h.commits
      exact ⟨hcommits.doubleEntry (fun x hx => (hread x hx).2) h.before.payments hs, hcommits.grows⟩
  intro s hs
  have hdouble := (hinvariant.1 s hs).1
  exact ⟨hdouble, fun tenant currency =>
    ⟨hdouble.received_eq tenant currency, hdouble.earned_eq tenant currency⟩⟩

/-! ## A payment that two requests take back -/

/-- A payment is settled; then a refund and a reversal read it before either commits. -/
def takenBackTwice : List Request :=
  let successful := answering .successful "p" ""
  [{ env := envAt 2 successful
     action := .paymentListCreate 1 "1" "mock" none (amountOf 4000) "0700" "" [] },
   { env := envAt 3 successful, action := .paymentRefund 1 2 none },
   { env := envAt 4 successful, action := .paymentReverse 1 2 }]

/-- The payment commits; the other two take turns. -/
def twoInTurns : List Event :=
  List.replicate 60 (Event.advance 0) ++
    (List.replicate 60 [Event.advance 1, .advance 2]).flatten

theorem numberedInstallation_doubleEntry : numberedInstallation.toBooks.DoubleEntry where
  tally := tally_nil
  successes _ he := absurd he List.not_mem_nil

theorem books_only_grow_takenBackTwice :
    ((Config.start numberedInstallation
      (takenBackTwice.map Request.handler)).run twoInTurns).history.IsChain
      fun s t => s.toBooks.Grows t.toBooks ∧ Grown Bill.totalAmount s.bills t.bills :=
  books_only_grow takenBackTwice numberedInstallation numberedInstallation_settlementTables
    (by decide) twoInTurns

theorem books_balance_takenBackTwice :
    let c := (Config.start numberedInstallation (takenBackTwice.map Request.handler)).run twoInTurns
    c.store.toBooks.DoubleEntry ∧ ∀ tenant currency,
      c.store.toBooks.posted .paymentReceived tenant currency =
        c.store.toBooks.posted .institutionEntitlement tenant currency ∧
      c.store.toBooks.earned tenant currency = c.store.toBooks.platformTotal tenant currency :=
  books_balance takenBackTwice numberedInstallation numberedInstallation_settlementTables
    numberedInstallation_doubleEntry twoInTurns _ (Config.store_mem_history _)

end Kusanya
