import Kusanya.Invariants.Concurrent

/-!
# Exactly-once money effects under concurrency

The only guard of a query, a callback, a refund or a reversal is the check of
`transition_to` on the object that the request loaded.  As long as every transaction
that saves a status commits while the row still has the status it loaded, each payment
is booked once and its statuses follow `ALLOWED_TRANSITIONS`.  Without that, two
queries of one payment both settle it.
-/

namespace Kusanya

open ReadCommitted

/-- What may be booked once for a payment is booked at most once. -/
structure BookedOnce (b : Books) (id : ℕ) : Prop where
  success : (b.revenue.filter fun e =>
    e.eventType = .paymentSuccessful && e.source = .payment id).length ≤ 1
  fee : (b.ledger.filter fun e =>
    e.entryType = .platformPaymentFee && e.source = some (.payment id)).length ≤ 1
  received : (b.ledger.filter fun e =>
    e.entryType = .paymentReceived && e.source = some (.payment id)).length ≤ 1
  entitlement : (b.ledger.filter fun e =>
    e.entryType = .institutionEntitlement && e.source = some (.payment id)).length ≤ 1
  allocation : (b.allocations.filter fun a => a.payment = id).length ≤ 1
  /-- A refund or a reversal, not both. -/
  compensation : (b.revenue.filter fun e =>
    e.eventType.ofUndo && e.source = .payment id).length ≤ 1

/-- The committed statuses of a payment, in order. -/
def committedStatuses (states : List DB) (id : ℕ) : List PaymentStatus :=
  states.filterMap fun db => (db.payment? id).map (·.status)

section Booked

variable {b : Books}

/-- A selection whose sources are all different has one row for each source. -/
theorem once_of_nodup {α κ : Type} [DecidableEq κ] {rows : List α} {P : α → Bool} {source : α → κ}
    (h : ((rows.filter P).map source).Nodup) (k : κ) :
    (rows.filter fun row => P row && source row = k).length ≤ 1 := by
  have hone := Support.length_filter_key_le_one h k
  rw [List.filter_filter] at hone
  have hcomm : (rows.filter fun row => P row && decide (source row = k)) =
      rows.filter fun row => decide (source row = k) && P row :=
    List.filter_congr fun row _ => Bool.and_comm _ _
  rw [hcomm]
  exact hone

theorem paymentSource_injective : Function.Injective Source.payment :=
  fun _ _ h => Source.payment.inj h

/-- The ledger rows of one type that a success posts come from different payments. -/
theorem entry_sources_nodup (h : Booked b) {entryType : LedgerEntryType}
    {booking : Payment.Fixed → LedgerEntry}
    (hrows : ((b.ledger.filter (·.entryType = entryType)).map LedgerEntry.plain).Perm
      (b.settled.map booking))
    (hsource : ∀ p, (booking p).source = some (.payment p.id)) :
    ((b.ledger.filter (·.entryType = entryType)).map (·.source)).Nodup := by
  have hperm := hrows.map (·.source)
  rw [List.map_map, List.map_map] at hperm
  have hids : b.settled.map ((fun e : LedgerEntry => e.source) ∘ booking) =
      (b.settled.map (·.id)).map fun id => some (.payment id) := by
    rw [List.map_map]
    exact List.map_congr_left fun p _ => hsource p
  rw [hids] at hperm
  refine hperm.nodup_iff.mpr ((settled_ids_nodup h).map fun i j hij => ?_)
  exact paymentSource_injective (Option.some.inj hij)

/-- Where successes and compensations are in step with the payments, each is booked once. -/
theorem Booked.once (h : Booked b) (id : ℕ) : BookedOnce b id where
  success := by
    have hperm := h.successes.map (·.source)
    rw [List.map_map, List.map_map] at hperm
    have hids : b.settled.map ((fun e : RevenueEvent => e.source) ∘ Payment.Fixed.success) =
        (b.settled.map (·.id)).map Source.payment := by
      rw [List.map_map]
      rfl
    rw [hids] at hperm
    have hnodup := (settled_ids_nodup h).map paymentSource_injective
    exact once_of_nodup (hperm.nodup_iff.mpr hnodup) (.payment id)
  fee := once_of_nodup (entry_sources_nodup h (fee_entries h) fun _ => rfl) _
  received := once_of_nodup (entry_sources_nodup h (received_entries h) fun _ => rfl) _
  entitlement := once_of_nodup (entry_sources_nodup h (entitlement_entries h) fun _ => rfl) _
  allocation := by
    obtain ⟨ids, hperm, hsub⟩ := h.allocated
    have hnodup := hperm.nodup_iff.mp ((settled_ids_nodup h).sublist hsub)
    exact Support.length_filter_key_le_one hnodup id
  compensation := by
    have hids : b.undone.map (·.id) = (b.payments.filter (·.status.undone)).map (·.id) := by
      rw [Books.undone, Books.inClass, List.map_map]
      rfl
    have hnodup : (b.undone.map (·.id)).Nodup := by
      rw [hids]
      exact h.keyed.sublist (List.filter_sublist.map _)
    have hperm := h.compensations
    rw [show b.undone.map (fun p => Source.payment p.id) =
      (b.undone.map (·.id)).map Source.payment from (List.map_map).symm] at hperm
    exact once_of_nodup (hperm.nodup_iff.mpr (hnodup.map paymentSource_injective)) (.payment id)

end Booked

section History

variable {payments : List Payment.Fixed} {id : ℕ}

/-- A payment that is there in one committed state has one status in each of them. -/
theorem committedStatuses_cons {s : DB} {states : List DB} (hs : Consistent payments s)
    {p : Payment}
    (hp : p ∈ s.payments) :
    committedStatuses (s :: states) p.id = p.status :: committedStatuses states p.id := by
  simp [committedStatuses, payment?_eq_some hs.booked.keyed hp]

/-- Steps from one committed state to the next make a path of statuses. -/
theorem committedStatuses_isChain {states : List DB} (hstates : ∀ s ∈ states, Consistent payments s)
    (hsteps : states.IsChain Steps) (hid : id ∈ payments.map (·.id)) :
    (committedStatuses states id).IsChain PaymentStatus.Step := by
  have hrow : ∀ s ∈ states, ∃ p ∈ s.payments, p.id = id := by
    intro s hs
    obtain ⟨x, hx, rfl⟩ := List.mem_map.mp hid
    rw [← (hstates s hs).same] at hx
    obtain ⟨p, hp, rfl⟩ := List.mem_map.mp hx
    exact ⟨p, hp, rfl⟩
  induction states with
  | nil => exact List.isChain_nil
  | cons s states ih =>
      obtain ⟨p, hp, rfl⟩ := hrow s List.mem_cons_self
      have hs := hstates s List.mem_cons_self
      have hrest : ∀ t ∈ states, Consistent payments t := fun t ht =>
        hstates t (List.mem_cons_of_mem _ ht)
      have hchain := ih hrest hsteps.tail fun t ht => hrow t (List.mem_cons_of_mem _ ht)
      rw [committedStatuses_cons hs hp]
      cases states with
      | nil => exact List.isChain_singleton _
      | cons t states =>
          have hstep : Steps s t := (List.isChain_cons_cons.mp hsteps).1
          obtain ⟨q, hq, hfixed, hstatus⟩ := hstep p hp
          have hqid : q.id = p.id := congrArg Payment.Fixed.id hfixed
          rw [← hqid, committedStatuses_cons (hrest t List.mem_cons_self) hq] at hchain ⊢
          exact List.isChain_cons_cons.mpr ⟨hstatus, hchain⟩

end History

/-- Every payment is booked once and its committed statuses are a path of
`ALLOWED_TRANSITIONS`. -/
def EffectsOnce (c : Config DB Resource Error Call Unit) : Prop :=
  ∀ p ∈ c.store.payments, BookedOnce c.store.toBooks p.id ∧
    (committedStatuses c.history p.id).IsChain PaymentStatus.Step

/-- In every interleaving whose commits save statuses over the rows that they loaded, money
effects happen once. -/
theorem effects_once {db : DB} (h : Reachable db) {requests : List Request}
    (hfollow : ∀ r ∈ requests, r.action.isFollowUp = true) (schedule : List Event)
    (hmeets : Config.CommitsMeet LoadsCurrent
      (Config.start db (requests.map Request.handler)) schedule) :
    EffectsOnce ((Config.start db (requests.map Request.handler)).run schedule) := by
  have hinit : Consistent (db.payments.map Payment.fixed) db := ⟨h.balanced.toBooked, rfl⟩
  have hsound : Config.Sound (Consistent (db.payments.map Payment.fixed)) Steps
      (requests.map Request.handler)
      ((Config.start db (requests.map Request.handler)).run schedule) := by
    refine Config.run_invariant (fun program hprogram s pend seen _ hs hseen hleaves hcurrent => ?_)
      (Config.sound_start hinit) schedule hmeets
    obtain ⟨r, hr, rfl⟩ := List.mem_map.mp hprogram
    exact followUp_commit (hfollow r hr) hs hseen hleaves hcurrent
  intro p hp
  have hstore := hsound.committed _ (Config.store_mem_history _)
  constructor
  · exact hstore.booked.once p.id
  · refine committedStatuses_isChain hsound.committed hsound.chain ?_
    rw [← hstore.same, List.map_map]
    exact List.mem_map_of_mem hp

/-! ## Two queries of one payment -/

/-- Two queries of the payment, both answered `SUCCESSFUL`. -/
def twoQueries : List Request :=
  [{ env := envAt 3 (answering .successful "p" ""), action := .paymentQuery 1 2 },
   { env := envAt 4 (answering .successful "p" ""), action := .paymentQuery 1 2 }]

/-- The two queries about to start. -/
abbrev queriesStart : Config DB Resource Error Call Unit :=
  Config.start (afterAll smallInstallation pendingPayment) (twoQueries.map Request.handler)

/-- The first query runs to its end, then the second. -/
def oneByOne : List Event :=
  List.replicate 40 (.advance 0) ++ List.replicate 40 (.advance 1)

/-- Both queries load the payment before either commits. -/
def bothLoaded : List Event :=
  [.advance 0, .advance 1] ++ oneByOne

/-- No payment has moved since a read of the transaction. -/
def LoadsLatest (s : DB) (_ : DB → DB) (seen : List (Resource × DB)) : Prop :=
  ∀ p ∈ s.payments, ∀ x ∈ seen, ∀ old ∈ x.2.payments, old.id = p.id → old.status = p.status

instance (s : DB) (pend : DB → DB) (seen : List (Resource × DB)) :
    Decidable (LoadsLatest s pend seen) := by
  unfold LoadsLatest
  infer_instance

theorem twoQueries_followUp : ∀ r ∈ twoQueries, r.action.isFollowUp = true := by
  decide

theorem effects_once_oneByOne :
    Reachable (afterAll smallInstallation pendingPayment) ∧
      (∀ r ∈ twoQueries, r.action.isFollowUp = true) ∧
      Config.CommitsMeet LoadsCurrent queriesStart oneByOne ∧
      EffectsOnce (queriesStart.run oneByOne) := by
  have hlatest : Config.CommitsMeet LoadsLatest queriesStart oneByOne := by decide +kernel
  have hmeets : Config.CommitsMeet LoadsCurrent queriesStart oneByOne :=
    hlatest.mono fun s pend seen hs p hp _ x hx _ old hold hid => hs p hp x hx old hold hid
  exact ⟨pendingPayment_reachable, twoQueries_followUp, hmeets,
    effects_once pendingPayment_reachable twoQueries_followUp oneByOne hmeets⟩

/-- Both queries settle the payment that both have loaded as `PENDING`. -/
theorem concurrent_queries_settle_twice :
    ¬ ∀ (db : DB) (requests : List Request) (schedule : List Event), Reachable db →
      (∀ r ∈ requests, r.action.isFollowUp = true) →
      EffectsOnce ((Config.start db (requests.map Request.handler)).run schedule) := by
  intro h
  have hall : EffectsOnce (queriesStart.run bothLoaded) :=
    h _ twoQueries bothLoaded pendingPayment_reachable twoQueries_followUp
  have htwice : ∃ p ∈ (queriesStart.run bothLoaded).store.payments,
      ((queriesStart.run bothLoaded).store.revenue.filter fun e =>
        e.eventType = .paymentSuccessful && e.source = .payment p.id).length = 2 := by
    decide +kernel
  obtain ⟨p, hp, hlength⟩ := htwice
  have hsuccess := (hall p hp).1.success
  rw [hlength] at hsuccess
  omega

end Kusanya
