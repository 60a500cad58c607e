import Kusanya.Guarantees.Settlement

/-!
# Chains of settlement runs

A tenant's payments through a provider are settled by one run for each of a chain of periods.
`completed_at` is stamped when a transaction makes a payment successful, and what a run can find
depends on what is committed when it looks.  A payment that is stamped within a period and
committed after the period's run has looked is in none of the batches; when no commit comes late
in this way, every payment ends in exactly one.
-/

namespace Kusanya

open ReadCommitted

/-! ## Payments of a period -/

/-- The payment is a success within the period. -/
def Payment.due (tenant provider : ℕ) (periodStart periodEnd : Time) (p : Payment) : Bool :=
  p.tenant = tenant && p.provider = provider && p.status = .successful &&
    p.completedAt.any fun t => periodStart ≤ t && t < periodEnd

/-- The payment is a success within the period of the batch. -/
abbrev Payment.dueIn (batch : SettlementBatch) (p : Payment) : Bool :=
  p.due batch.tenant batch.provider batch.periodStart batch.periodEnd

theorem unsettled_iff {tenant provider : ℕ} {periodStart periodEnd : Time} {p : Payment} :
    p.unsettled tenant provider periodStart periodEnd = true ↔
      p.due tenant provider periodStart periodEnd = true ∧ p.settlementBatch = none := by
  unfold Payment.unsettled Payment.due
  simp only [Bool.and_eq_true, decide_eq_true_eq]
  tauto

/-- Among the rows, the payment is a success within the period of the batch. -/
def Payment.dueAmong (rows : List Payment) (batch : SettlementBatch) (p : Payment) : Bool :=
  rows.any fun q => q.id = p.id && q.dueIn batch

theorem dueAmong_iff {rows : List Payment} {batch : SettlementBatch} {p : Payment} :
    p.dueAmong rows batch = true ↔ ∃ q ∈ rows, q.id = p.id ∧ q.dueIn batch = true := by
  unfold Payment.dueAmong
  simp only [List.any_eq_true, Bool.and_eq_true, decide_eq_true_eq]

/-- No commit comes late.  A commit lets no payment enter the period of a batch that is there; and
when a batch is committed, every payment of its period was in it whenever the run looked. -/
def InTime (tenant provider : ℕ) (s : DB) (pend : DB → DB) (seen : List (Resource × DB)) : Prop :=
  (∀ batch ∈ s.batches, batch.tenant = tenant → batch.provider = provider →
    ∀ p ∈ (pend s).payments, p.dueIn batch = true → p.dueAmong s.payments batch = true) ∧
  ∀ batch ∈ (pend s).batches, batch ∉ s.batches → batch.tenant = tenant →
    batch.provider = provider → ∀ p ∈ s.payments, p.dueIn batch = true →
      ∀ x ∈ seen, x.1.givesPayments = true → p.dueAmong x.2.payments batch = true

instance (tenant provider : ℕ) (s : DB) (pend : DB → DB) (seen : List (Resource × DB)) :
    Decidable (InTime tenant provider s pend seen) :=
  inferInstanceAs (Decidable (_ ∧ _))

/-! ## What a run finds -/

section Finding

variable {φ : Resource → DB → Prop} {env : Env} {tenant provider : ℕ} {periodStart periodEnd : Time}

/-- A payment that is kept whenever it is looked at is among the locked ones. -/
theorem wp_selectForUpdate_keeps (hunique : ∀ k v, φ k v → (v.payments.map (·.id)).Nodup)
    (keep : Payment → Bool) (found : List Payment) :
    (selectForUpdate keep found).wp (fun _ => True) φ id
      (fun payments pend' => pend' = id ∧ ∀ p ∈ found,
        (∀ v, φ (.payment p.id) v → ∃ q ∈ v.payments, q.id = p.id ∧ keep q = true) →
        ∃ q ∈ payments, q.id = p.id)
      fun _ _ => True := by
  induction found with
  | nil => exact ⟨rfl, fun _ hp => absurd hp List.not_mem_nil⟩
  | cons payment rest ih =>
      simp only [selectForUpdate, Txn.wp_bind, Txn.wp_acquire, Txn.wp_fetch]
      intro v hv
      refine Txn.wp_consequence ih (fun payments pend' h => ⟨h.1, fun p hp hkeep => ?_⟩)
        fun _ _ h => h
      rcases List.mem_cons.mp hp with rfl | hp
      · obtain ⟨q, hq, hid, hq'⟩ := hkeep v hv
        have hfound : v.toBooks.payment? p.id = some q := by
          rw [← hid]
          exact payment?_eq_some (hunique _ v hv) hq
        refine ⟨q, List.mem_append_left _ (Option.mem_toList.mpr ?_), hid⟩
        exact Option.mem_filter_iff.mpr ⟨hfound, hq'⟩
      · obtain ⟨q, hq, hid⟩ := h.2 p hp hkeep
        exact ⟨q, List.mem_append_right _ hq, hid⟩

/-- A run commits one batch for its period, and the batch takes every payment that was eligible
whenever the run looked. -/
theorem wp_generateSettlementBatch_takes
    (hunique : ∀ k v, φ k v → (v.payments.map (·.id)).Nodup) :
    (generateSettlementBatch env tenant provider periodStart periodEnd).wp (fun _ => True) φ id
      (fun batch pend' => batch.tenant = tenant ∧ batch.provider = provider ∧
        batch.periodStart = periodStart ∧ batch.periodEnd = periodEnd ∧
        ∃ claimed : List Payment,
          (∀ s, (pend' s).toBooks = (Move.openBatch batch claimed).run s.toBooks) ∧
          ∀ id, (∀ k v, φ k v → k.givesPayments = true → ∃ q ∈ v.payments, q.id = id ∧
            q.unsettled tenant provider periodStart periodEnd = true) →
            ∃ p ∈ claimed, p.id = id)
      fun _ _ => True := by
  simp only [generateSettlementBatch, Txn.wp_bind, Txn.wp_fetch]
  intro v hv
  refine Txn.wp_consequence (wp_selectForUpdate_keeps hunique _ _) (fun payments pend' h => ?_)
    fun _ _ h => h
  obtain ⟨rfl, htaken⟩ := h
  simp only [getTenant, wp_getRow, wp_storeNumeric, insertBatch, Txn.wp_bind, Txn.wp_acquire,
    Txn.wp_fetch, wp_raiseIf, wp_onBooks, recordAuditEvent, wp_onTrail]
  intro v₁ hv₁ v₂ hv₂
  refine ⟨fun row _ => ⟨fun gross _ => ⟨fun fee _ => ⟨fun net _ v₃ hv₃ => ⟨fun _ => trivial,
    fun _ => ⟨fun _ => trivial, fun _ => ?_⟩⟩, fun _ => trivial⟩, fun _ => trivial⟩,
    fun _ => trivial⟩, fun _ => trivial⟩
  refine ⟨rfl, rfl, rfl, rfl, payments, fun s => rfl, fun id hid => ?_⟩
  obtain ⟨q, hq, hqid, hkept⟩ := hid _ v hv rfl
  obtain ⟨p, hp, hpid⟩ := htaken q (List.mem_filter.mpr ⟨hq, hkept⟩) fun v' hv' => by
    rw [hqid]
    exact hid _ v' hv' rfl
  exact ⟨p, hp, hpid.trans hqid⟩

end Finding

/-! ## Commits in time -/

/-- The runs of a tenant and provider so far: their payments are in their batches, the batches
have the periods of the runs, and no success within one of these periods is left out. -/
structure Books.Chained (tenant provider : ℕ) (periods : List (Time × Time)) (b : Books) :
    Prop where
  owned : ∀ p ∈ b.payments, p.tenant = tenant → p.provider = provider →
    ∀ id, p.settlementBatch = some id →
      ∃ batch ∈ b.batches, batch.id = id ∧ batch.tenant = tenant ∧ batch.provider = provider
  periods : ∀ batch ∈ b.batches, batch.tenant = tenant → batch.provider = provider →
    (batch.periodStart, batch.periodEnd) ∈ periods
  swept : ∀ batch ∈ b.batches, batch.tenant = tenant → batch.provider = provider →
    ∀ p ∈ b.payments, p.dueIn batch = true → p.settlementBatch.isSome = true

section Chained

variable {tenant provider : ℕ} {periods : List (Time × Time)}

/-- A commit in time keeps the chain, if it does so for a batch that it adds. -/
theorem Books.Chained.step {s t : Books} (h : s.Chained tenant provider periods)
    (ht : t.SettlementTables) (hstep : s.SettlementStep t)
    (hearly : ∀ batch ∈ s.batches, batch.tenant = tenant → batch.provider = provider →
      ∀ p ∈ t.payments, p.dueIn batch = true → p.dueAmong s.payments batch = true)
    (hperiods : ∀ batch ∈ t.batches, batch ∉ s.batches → batch.tenant = tenant →
      batch.provider = provider → (batch.periodStart, batch.periodEnd) ∈ periods)
    (hswept : ∀ batch ∈ t.batches, batch ∉ s.batches → batch.tenant = tenant →
      batch.provider = provider → ∀ p ∈ t.payments, p.dueIn batch = true →
        p.settlementBatch.isSome = true) :
    t.Chained tenant provider periods where
  owned q hq htenant hprovider id hid := by
    obtain ⟨batch, hbatch, rfl⟩ := ht.pointers q hq id hid
    have hclaimed : q ∈ t.claimedBy batch.id := List.mem_filter.mpr ⟨hq, decide_eq_true hid⟩
    refine ⟨batch, hbatch, rfl, ?_⟩
    by_cases hold : batch ∈ s.batches
    · obtain ⟨p, hp, hstays⟩ := hstep.claimed batch hold q hclaimed
      obtain ⟨hp, hpoints⟩ := List.mem_filter.mp hp
      have hpprovider : p.provider = q.provider :=
        (congrArg Payment.Fixed.provider hstays.fixed).symm
      obtain ⟨row, hrow, hrowid, hrest⟩ := h.owned p hp (hstays.tenant_eq.symm.trans htenant)
        (hpprovider.trans hprovider) batch.id (of_decide_eq_true hpoints)
      rw [← Support.eq_of_key ht.batches (hstep.batches row hrow) hbatch hrowid]
      exact hrest
    · obtain ⟨p, hp, hstays, hdue⟩ := (hstep.settled batch hbatch hold).due q hclaimed
      have hpprovider : q.provider = p.provider := congrArg Payment.Fixed.provider hstays.fixed
      have hdue := (unsettled_iff.mp hdue).1
      unfold Payment.due at hdue
      simp only [Bool.and_eq_true, decide_eq_true_eq] at hdue
      exact ⟨hdue.1.1.1.symm.trans (hstays.tenant_eq.symm.trans htenant),
        hdue.1.1.2.symm.trans (hpprovider.symm.trans hprovider)⟩
  periods batch hbatch htenant hprovider := by
    by_cases hold : batch ∈ s.batches
    · exact h.periods batch hold htenant hprovider
    · exact hperiods batch hbatch hold htenant hprovider
  swept batch hbatch htenant hprovider p hp hdue := by
    by_cases hold : batch ∈ s.batches
    · obtain ⟨q, hq, hid, hqdue⟩ := dueAmong_iff.mp (hearly batch hold htenant hprovider p hp hdue)
      obtain ⟨id, hqbatch⟩ := Option.isSome_iff_exists.mp
        (h.swept batch hold htenant hprovider q hq hqdue)
      obtain ⟨row, hrow, hstays⟩ := hstep.payments q hq
      rw [← Support.eq_of_key ht.payments hrow hp (hstays.id_eq.trans hid), hstays.batch id hqbatch]
      rfl
    · exact hswept batch hbatch hold htenant hprovider p hp hdue

theorem claimFor_dueIn (batch : SettlementBatch) (id : ℕ) (claimed : List Payment) (p : Payment) :
    (p.claimFor id claimed).dueIn batch = p.dueIn batch := by
  unfold Payment.claimFor
  split <;> rfl

/-- A run in time leaves no success of its period out. -/
theorem run_sweeps {batch : SettlementBatch} {claimed : List Payment} {s : DB} {t : Books}
    {seen : List (Resource × DB)} (hs : s.toBooks.SettlementTables)
    (hseen : ∀ x ∈ seen, settlementDiscipline.evolves x.2 s)
    (ht : t = (Move.openBatch batch claimed).run s.toBooks)
    (hstays : ∀ p ∈ s.payments, p.Stays (p.claimFor batch.id claimed))
    (htakes : ∀ id, (∀ k v, (k, v) ∈ seen → k.givesPayments = true → ∃ q ∈ v.payments, q.id = id ∧
      q.unsettled batch.tenant batch.provider batch.periodStart batch.periodEnd = true) →
      ∃ p ∈ claimed, p.id = id)
    (hseenDue : ∀ p ∈ s.payments, p.dueIn batch = true → ∀ x ∈ seen, x.1.givesPayments = true →
      p.dueAmong x.2.payments batch = true) :
    ∀ p ∈ t.payments, p.dueIn batch = true → p.settlementBatch.isSome = true := by
  intro row hrow hdue
  rw [ht, run_openBatch_payments] at hrow
  obtain ⟨p, hp, rfl⟩ := List.mem_map.mp hrow
  rw [claimFor_dueIn] at hdue
  cases hbatch : p.settlementBatch with
  | some id =>
      rw [(hstays p hp).batch id hbatch]
      rfl
  | none =>
      obtain ⟨q, hq, hid⟩ := htakes p.id fun k v hv hgives => by
        obtain ⟨q, hq, hid, hqdue⟩ := dueAmong_iff.mp (hseenDue p hp hdue (k, v) hv hgives)
        refine ⟨q, hq, hid, unsettled_iff.mpr ⟨hqdue, ?_⟩⟩
        -- a payment that was in a batch by then still is
        obtain ⟨row, hrow, hstays'⟩ := hseen (k, v) hv q hq
        obtain rfl := Support.eq_of_key hs.payments hrow hp (hstays'.id_eq.trans hid)
        cases hqbatch : q.settlementBatch with
        | none => rfl
        | some id =>
            rw [hstays'.batch id hqbatch] at hbatch
            cases hbatch
      have hany : claimed.any (·.id = p.id) = true :=
        List.any_eq_true.mpr ⟨q, hq, decide_eq_true hid⟩
      rw [Payment.claimFor, if_pos hany]
      rfl

end Chained

/-! ## Every interleaving whose commits are in time -/

/-- A batch of the tenant and provider for the period is there. -/
def Books.HasRun (tenant provider : ℕ) (period : Time × Time) (b : Books) : Prop :=
  ∃ batch ∈ b.batches, batch.tenant = tenant ∧ batch.provider = provider ∧
    (batch.periodStart, batch.periodEnd) = period

/-- The commit of a request keeps the chain, and leaves a batch when it was a run's. -/
structure ChainCommit (tenant provider : ℕ) (periods : List (Time × Time)) (request : Request)
    (s t : DB) : Prop where
  chained : s.toBooks.Chained tenant provider periods → t.toBooks.Chained tenant provider periods
  run : ∀ period : Time × Time,
    request.action = .generateBatch tenant provider period.1 period.2 →
    t.toBooks.HasRun tenant provider period

theorem chain_commit {tenant provider : ℕ} {periods : List (Time × Time)} {request : Request}
    (hruns : ∀ periodStart periodEnd,
      request.action = .generateBatch tenant provider periodStart periodEnd →
      (periodStart, periodEnd) ∈ periods)
    {l : Local DB Resource} {s : DB} {seen : List (Resource × DB)} (hl : request.action.Ends l)
    (hs : l.Sees settlementDiscipline s)
    (hseen : ∀ x ∈ seen, settlementDiscipline.inv x.2 ∧ settlementDiscipline.evolves x.2 s)
    (hleaves : request.handler.Leaves seen (.ret ()) l.pend)
    (hintime : InTime tenant provider s l.pend seen) (hcommit : SettlementCommit s (l.pend s)) :
    ChainCommit tenant provider periods request s (l.pend s) := by
  rcases hl.cases with ⟨hother, hworking⟩ |
      ⟨tenant', provider', periodStart, periodEnd, haction, batch, hbuilt⟩
  · refine ⟨fun h => h.step hcommit.tables hcommit.step hintime.1 ?_ ?_, fun period haction =>
      absurd haction (hother _ _ _ _)⟩
    · intro batch hbatch hnew
      rw [hworking.batches] at hbatch
      exact absurd hbatch hnew
    · intro batch hbatch hnew
      rw [hworking.batches] at hbatch
      exact absurd hbatch hnew
  · obtain ⟨env, action⟩ := request
    obtain rfl : action = _ := haction
    obtain ⟨claimed, hclaims, -, hwrites⟩ := hbuilt.claims_at hs
    have hwp : (generateBatch env tenant' provider' periodStart periodEnd).wp (fun _ => True)
        (fun k v => (k, v) ∈ seen) id
        (fun _ pend' => ∃ (batch : SettlementBatch) (claimed : List Payment),
          batch.tenant = tenant' ∧ batch.provider = provider' ∧ batch.periodStart = periodStart ∧
          batch.periodEnd = periodEnd ∧
          (∀ s, (pend' s).toBooks = (Move.openBatch batch claimed).run s.toBooks) ∧
          ∀ id, (∀ k v, (k, v) ∈ seen → k.givesPayments = true → ∃ q ∈ v.payments, q.id = id ∧
            q.unsettled tenant' provider' periodStart periodEnd = true) →
            ∃ p ∈ claimed, p.id = id)
        fun _ _ => True := by
      simp only [generateBatch, getProvider, Txn.wp_bind, wp_getRow]
      intro v hv
      refine ⟨fun row _ => ?_, fun _ => trivial⟩
      refine Txn.wp_consequence (wp_generateSettlementBatch_takes fun k v hv =>
        (hseen _ hv).1.payments) (fun batch pend' h => ?_) fun _ _ h => h
      obtain ⟨h₁, h₂, h₃, h₄, claimed, hwrites, htakes⟩ := h
      exact ⟨batch, claimed, h₁, h₂, h₃, h₄, hwrites, htakes⟩
    obtain ⟨batch', claimed', rfl, rfl, rfl, rfl, hwrites', htakes⟩ :=
      hleaves _ _ _ _ (fun x hx => hx) hwp
    -- both analyses speak of the one batch that is added
    obtain rfl : batch' = batch := by
      have hsame := congrArg Books.batches ((hwrites' s).symm.trans hwrites)
      simpa [run_openBatch_batches] using hsame
    have hnewOnly : ∀ row ∈ (l.pend s).batches, row ∉ s.batches → row = batch' := by
      intro row hrow hnew
      rw [hwrites, run_openBatch_batches] at hrow
      rcases List.mem_append.mp hrow with hrow | hrow
      · exact absurd hrow hnew
      · exact List.mem_singleton.mp hrow
    have hadded : batch' ∈ (l.pend s).batches := by
      rw [hwrites, run_openBatch_batches]
      exact List.mem_append_right _ (List.mem_singleton.mpr rfl)
    refine ⟨fun h => h.step hcommit.tables hcommit.step hintime.1 ?_ ?_, fun period haction => ?_⟩
    · intro row hrow hnew htenant hprovider
      rw [hnewOnly row hrow hnew] at htenant hprovider ⊢
      subst htenant hprovider
      exact hruns _ _ rfl
    · intro row hrow hnew htenant hprovider
      have hdue := hintime.2 row hrow hnew htenant hprovider
      rw [hnewOnly row hrow hnew] at hdue ⊢
      refine run_sweeps hs.inv (fun x hx => (hseen x hx).2) (hwrites' s)
        (fun p hp => ?_) htakes hdue
      have hsame : p.claimFor batch'.id claimed' = p.claimFor batch'.id claimed := by
        apply Support.eq_of_key hcommit.tables.payments
        · rw [hwrites']
          exact List.mem_map_of_mem hp
        · rw [hwrites]
          exact List.mem_map_of_mem hp
        · exact (claimFor_id _ _ p).trans (claimFor_id _ _ p).symm
      rw [hsame]
      exact hclaims.stays hs.inv hp
    · injection haction with htenant hprovider hstart hend
      exact ⟨batch', hadded, htenant, hprovider, Prod.ext hstart hend⟩

/-- The rest of the history keeps payments in their batches and the batches themselves. -/
structure Books.Keeps (s t : Books) : Prop where
  payments : ∀ p ∈ s.payments, ∃ row ∈ t.payments, p.Stays row
  batches : ∀ batch ∈ s.batches, batch ∈ t.batches

/-- A chain of contiguous periods leaves no gap. -/
theorem exists_period {periods : List (Time × Time)}
    (hchain : periods.IsChain fun a b => a.2 = b.1) {first last : Time × Time}
    (hfirst : periods.head? = some first) (hlast : periods.getLast? = some last) {t : Time}
    (hstart : first.1 ≤ t) (hend : t < last.2) : ∃ period ∈ periods, period.1 ≤ t ∧
    t < period.2 := by
  induction periods generalizing first with
  | nil => cases hfirst
  | cons period rest ih =>
      obtain rfl : period = first := Option.some.inj hfirst
      by_cases hin : t < period.2
      · exact ⟨period, List.mem_cons_self, hstart, hin⟩
      · cases rest with
        | nil =>
            obtain rfl : period = last := by simpa using hlast
            exact absurd hend hin
        | cons next rest =>
            rw [List.isChain_cons_cons] at hchain
            obtain ⟨found, hfound, hperiod⟩ := ih hchain.2 rfl (by simpa using hlast)
              (hchain.1 ▸ not_lt.mp hin)
            exact ⟨found, List.mem_cons_of_mem _ hfound, hperiod⟩

/-- Every success of the tenant and provider within the chain of periods whose period's run was
done by `u` has ended in a batch of one of the runs. -/
def SettlesAll (tenant provider : ℕ) (periods : List (Time × Time)) (u final : Books) : Prop :=
  ∀ first last, periods.head? = some first → periods.getLast? = some last →
    ∀ p ∈ u.payments, p.tenant = tenant → p.provider = provider → p.status = .successful →
    ∀ t, p.completedAt = some t → first.1 ≤ t → t < last.2 →
    (∀ period ∈ periods, period.1 ≤ t → t < period.2 → u.HasRun tenant provider period) →
    ∃ q ∈ final.payments, q.id = p.id ∧ ∃ batch ∈ final.batches, q.settlementBatch = some batch.id ∧
      batch.tenant = tenant ∧ batch.provider = provider ∧
      (batch.periodStart, batch.periodEnd) ∈ periods

theorem Books.Chained.settlesAll {tenant provider : ℕ} {periods : List (Time × Time)}
    {u final : Books} (hu : u.Chained tenant provider periods)
    (hfinal : final.Chained tenant provider periods) (hkeeps : u.Keeps final)
    (hchain : periods.IsChain fun a b => a.2 = b.1) :
    SettlesAll tenant provider periods u final := by
  intro first last hfirst hlast p hp htenant hprovider hsuccess t ht hstart hend hdone
  obtain ⟨period, hperiod, hfrom, huntil⟩ := exists_period hchain hfirst hlast hstart hend
  obtain ⟨batch, hbatch, hbtenant, hbprovider, hbperiod⟩ := hdone period hperiod hfrom huntil
  have hdue : p.dueIn batch = true := by
    obtain ⟨hbstart, hbend⟩ := Prod.mk.inj (hbperiod.trans (Prod.mk.eta (p := period)).symm)
    unfold Payment.dueIn Payment.due
    simp [htenant, hprovider, hsuccess, ht, hbtenant, hbprovider, hbstart, hbend, hfrom, huntil]
  obtain ⟨id, hid⟩ := Option.isSome_iff_exists.mp
    (hu.swept batch hbatch hbtenant hbprovider p hp hdue)
  obtain ⟨row, hrow, hstays⟩ := hkeeps.payments p hp
  have hrowProvider : row.provider = p.provider := congrArg Payment.Fixed.provider hstays.fixed
  obtain ⟨owner, howner, rfl, hotenant, hoprovider⟩ := hfinal.owned row hrow
    (hstays.tenant_eq.trans htenant) (hrowProvider.trans hprovider) id (hstays.batch id hid)
  exact ⟨row, hrow, hstays.id_eq, owner, howner, hstays.batch _ hid, hotenant, hoprovider,
    hfinal.periods owner howner hotenant hoprovider⟩

theorem settlement_chain_complete (requests : List Request)
    (hrequests : ∀ r ∈ requests, r.action.settlesOrWorks = true) (tenant provider : ℕ)
    (periods : List (Time × Time)) (hchain : periods.IsChain fun a b => a.2 = b.1)
    (hruns : ∀ r ∈ requests, ∀ periodStart periodEnd,
      r.action = .generateBatch tenant provider periodStart periodEnd →
      (periodStart, periodEnd) ∈ periods)
    (start : DB) (hstart : start.toBooks.SettlementTables)
    (hfresh : ∀ p ∈ start.payments, p.tenant = tenant → p.provider = provider →
      p.settlementBatch = none)
    (hnone : ∀ batch ∈ start.batches, batch.tenant = tenant → batch.provider ≠ provider)
    (schedule : List Event)
    (hintime : Config.CommitsMeet (InTime tenant provider)
      (Config.start start (requests.map Request.handler)) schedule) :
    (∀ u ∈ ((Config.start start (requests.map Request.handler)).run schedule).history,
      SettlesAll tenant provider periods u.toBooks
        ((Config.start start (requests.map Request.handler)).run schedule).store.toBooks) ∧
    ∀ (i : ℕ) (r : Request) (period : Time × Time), requests[i]? = some r →
      r.action = .generateBatch tenant provider period.1 period.2 →
      ((Config.start start (requests.map Request.handler)).run schedule).sessions[i]? =
        some (.committed ()) →
      ((Config.start start (requests.map Request.handler)).run
        schedule).store.toBooks.HasRun tenant provider period := by
  obtain ⟨log, hrun⟩ := run_settlements (P := ChainCommit tenant provider periods) hrequests hstart
    hintime fun r hr l s seen hl hs hseen hleaves hM hcommit =>
      chain_commit (hruns r hr) hl hs hseen hleaves hM hcommit
  have hstartChained : start.toBooks.Chained tenant provider periods := by
    constructor
    · intro p hp htenant hprovider id hid
      rw [hfresh p hp htenant hprovider] at hid
      cases hid
    · exact fun batch hbatch htenant hprovider => absurd hprovider (hnone batch hbatch htenant)
    · exact fun batch hbatch htenant hprovider => absurd hprovider (hnone batch hbatch htenant)
  obtain ⟨hchained, -⟩ := hrun.commits.history (R := fun _ _ => True) hstartChained
    fun i _ s t h hs => by
      obtain ⟨-, r, -, hP⟩ := h
      exact ⟨hP.chained hs, trivial⟩
  have hreaches := hrun.commits.reaches (R := fun s t => s.toBooks.Keeps t.toBooks)
    (fun s => ⟨fun p hp => ⟨p, hp, .refl p⟩, fun _ h => h⟩)
    (fun s t u h h' => ⟨settlementDiscipline.evolves_trans h.payments h'.payments,
      fun batch hbatch => h'.batches batch (h.batches batch hbatch)⟩)
    fun i _ s t h => ⟨h.1.step.payments, h.1.step.batches⟩
  refine ⟨fun u hu => ?_, fun i r period hr haction hcommitted => ?_⟩
  · exact (hchained u hu).settlesAll (hchained _ (Config.store_mem_history _))
      (hreaches u hu) hchain
  · refine hrun.commits.persists
      (P := fun i _ s => ∀ r, requests[i]? = some r →
        r.action = .generateBatch tenant provider period.1 period.2 →
        s.toBooks.HasRun tenant provider period)
      (fun i _ s t h r hr haction => ?_) (fun i _ s t h j _ hold r hr haction => ?_)
      (i, ()) ((hrun.logged i ()).mp hcommitted) r hr haction
    · obtain ⟨-, r', hr', hP⟩ := h
      obtain rfl := Option.some.inj (hr.symm.trans hr')
      exact hP.run period haction
    · obtain ⟨batch, hbatch, hrest⟩ := hold r hr haction
      exact ⟨batch, h.1.step.batches batch hbatch, hrest⟩

/-! ## A success that is committed late -/

/-- One payment of 40.00, which the provider left pending. -/
def onePending : DB :=
  { numberedInstallation with
    payments :=
      [{ id := 1
         tenant := 1
         controlNumber := 1
         provider := 1
         channel := none
         status := .pending
         amount := amountOf 4000
         currency := "TZS"
         payerReference := "0700"
         merchantReference := "1"
         providerReference := "p"
         idempotencyKey := ""
         initiatedAt := 0
         completedAt := none
         failureReason := ""
         rawProviderResponse := ""
         settlementBatch := none }] }

/-- At 4 the provider reports success; at 6 the period from 0 to 5 is settled. -/
def queryAndRun : List Request :=
  let successful := answering .successful "p" ""
  [{ env := envAt 4 successful, action := .paymentQuery 1 1 },
   { env := envAt 6 successful, action := .generateBatch 1 1 0 5 }]

/-- The run begins and ends between the stamp of the success and its commit. -/
def runBeforeCommit : List Event :=
  List.replicate 20 (.advance 0) ++ List.replicate 20 (.advance 1) ++ List.replicate 20 (.advance 0)

/-- The success is committed when the run begins. -/
def runAfterCommit : List Event :=
  List.replicate 40 (.advance 0) ++ List.replicate 20 (.advance 1)

theorem onePending_settlementTables : onePending.toBooks.SettlementTables where
  payments := List.pairwise_singleton _ _
  batches := List.nodup_nil
  pointers p hp id hid := by
    rw [List.mem_singleton.mp hp] at hid
    cases hid
  exact _ hbatch := absurd hbatch List.not_mem_nil
  successes _ he := absurd he List.not_mem_nil

/-- The payment is a success of the period, the period's run is done, and no batch has it. -/
theorem settlement_misses_lateCommit :
    ¬SettlesAll 1 1 [(0, 5)]
      ((Config.start onePending (queryAndRun.map Request.handler)).run
        runBeforeCommit).store.toBooks
      ((Config.start onePending
        (queryAndRun.map Request.handler)).run runBeforeCommit).store.toBooks := by
  generalize hfinal : ((Config.start onePending (queryAndRun.map Request.handler)).run
    runBeforeCommit).store.toBooks = final
  have hrows : final.payments.map (fun p => (p.tenant, p.provider, p.status, p.completedAt,
      p.settlementBatch)) = [(1, 1, .successful, some 4, none)] := by
    rw [← hfinal]
    decide +kernel
  have hbatches : final.batches.map (fun b => (b.tenant, b.provider, b.periodStart, b.periodEnd)) =
      [(1, 1, 0, 5)] := by
    rw [← hfinal]
    decide +kernel
  obtain ⟨p, hpayments, hp⟩ := List.map_eq_singleton_iff.mp hrows
  obtain ⟨batch, hbatch, hb⟩ := List.map_eq_singleton_iff.mp hbatches
  simp only [Prod.mk.injEq] at hp hb
  intro hall
  obtain ⟨q, hq, -, owner, -, hpoints, -⟩ := hall (0, 5) (0, 5) rfl rfl p (by simp [hpayments])
    hp.1 hp.2.1 hp.2.2.1 4 hp.2.2.2.1 (by decide) (by decide) fun period hperiod _ _ => by
      rw [List.mem_singleton.mp hperiod]
      exact ⟨batch, by simp [hbatch], hb.1, hb.2.1, Prod.ext hb.2.2.1 hb.2.2.2⟩
  rw [hpayments, List.mem_singleton] at hq
  rw [hq, hp.2.2.2.2] at hpoints
  cases hpoints

theorem settlement_chain_onePeriod :
    (∀ u ∈ ((Config.start onePending (queryAndRun.map Request.handler)).run runAfterCommit).history,
      SettlesAll 1 1 [(0, 5)] u.toBooks
        ((Config.start onePending
          (queryAndRun.map Request.handler)).run runAfterCommit).store.toBooks) ∧
    ∀ (i : ℕ) (r : Request) (period : Time × Time), queryAndRun[i]? = some r →
      r.action = .generateBatch 1 1 period.1 period.2 →
      ((Config.start onePending (queryAndRun.map Request.handler)).run
        runAfterCommit).sessions[i]? =
        some (.committed ()) →
      ((Config.start onePending (queryAndRun.map Request.handler)).run
        runAfterCommit).store.toBooks.HasRun 1 1 period :=
  settlement_chain_complete queryAndRun (by decide) 1 1 [(0, 5)] (List.isChain_singleton _)
    (by simp [queryAndRun]) onePending onePending_settlementTables (by decide) (by decide)
    runAfterCommit (by decide +kernel)

end Kusanya
