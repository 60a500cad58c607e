import Kusanya.Invariants.Histories
import Kusanya.Invariants.Settling

/-!
# Settlement counts every payment once

Batches are generated while payments are initiated, succeed, are refunded and reversed, in any
interleaving.  In every committed state the totals of each batch are those of the payments that
point to it, and from one committed state to the next a payment stays in its batch, and a batch
that is new took only payments that were eligible at that moment.
-/

namespace Kusanya

open ReadCommitted

/-! ## What a commit makes of the tables -/

section Events

variable {view : View} {ms : List Move} {b : Books}

theorem mem_runAll_revenue {e : RevenueEvent} (he : e ∈ (Move.runAll ms b).revenue) :
    e ∈ b.revenue ∨ ∃ m ∈ ms, e ∈ m.events := by
  induction ms generalizing b with
  | nil => exact Or.inl he
  | cons m ms ih =>
      rcases ih he with he | ⟨m', hm', he⟩
      · rw [Move.run_revenue] at he
        rcases List.mem_append.mp he with he | he
        · exact Or.inl he
        · exact Or.inr ⟨m, List.mem_cons_self, he⟩
      · exact Or.inr ⟨m', List.mem_cons_of_mem _ hm', he⟩

theorem mem_runAll_opened {m : Move} (hm : m ∈ ms) {p : Payment} (hp : p ∈ m.opened) :
    ∃ row ∈ (Move.runAll ms b).payments, row.fixed = p.fixed := by
  induction ms generalizing b with
  | nil => cases hm
  | cons m' ms ih =>
      rcases List.mem_cons.mp hm with rfl | hm
      · have hrow : p ∈ (m.run b).payments := by
          rw [Move.run_payments]
          exact List.mem_append_right _ hp
        obtain ⟨row, hrow, hfixed, -⟩ := chain_source ms (m.run b) hrow
        exact ⟨row, hrow, hfixed⟩
      · exact ih hm

/-- A success is booked for a payment that the transaction found or opened, in its tenant. -/
theorem View.Chain.success (h : view.Chain ms) {m : Move} (hm : m ∈ ms) {e : RevenueEvent}
    (he : e ∈ m.events) (hsuccess : e.eventType = .paymentSuccessful) :
    ∃ p : Payment, (view.Holds p ∨ ∃ m' ∈ ms, p ∈ m'.opened) ∧ e.source = .payment p.id ∧
      e.tenant = p.tenant := by
  induction ms generalizing view with
  | nil => cases hm
  | cons m' ms ih =>
      obtain ⟨hguard, hrest⟩ := h
      rcases List.mem_cons.mp hm with rfl | hm
      · cases m with
        | settle s =>
            obtain rfl := List.mem_singleton.mp he
            have hsettle : s.Guard view := hguard
            obtain ⟨old, henters⟩ := hsettle.enters
            obtain ⟨now, reason, hmoved⟩ := henters.moved
            refine ⟨old, Or.inl henters.holds, ?_, ?_⟩
            · rw [Payment.successEvent, Payment.event, hmoved]
              rfl
            · rw [Payment.successEvent, Payment.event, hmoved]
              rfl
        | note event =>
            obtain rfl := List.mem_singleton.mp he
            rcases hguard.2.2 with htype | htype | htype <;> rw [htype] at hsuccess <;>
              cases hsuccess
        | undo env p fee metadata =>
            obtain rfl := List.mem_singleton.mp he
            cases hstatus : p.status <;>
              simp [Payment.event, PaymentStatus.compensation, hstatus] at hsuccess
        | issue env cn currency =>
            obtain rfl := List.mem_singleton.mp he
            cases hsuccess
        | _ => cases he
      · obtain ⟨p, hp, hsource, htenant⟩ := ih hrest hm
        rcases hp with ⟨what, hgives, hsees⟩ | ⟨m'', hm'', hopened⟩
        · rw [View.seesAt_map] at hsees
          obtain ⟨d, b, hview, hrow⟩ := hsees
          rw [Move.run_payments] at hrow
          rcases List.mem_append.mp hrow with hrow | hrow
          · obtain ⟨old, hold, rfl⟩ := List.mem_map.mp hrow
            have hfixed := m'.onPayment_fixed old
            refine ⟨old, Or.inl ⟨what, hgives, d, b, hview, hold⟩, ?_, ?_⟩
            · rw [hsource, m'.onPayment_id]
            · rw [htenant]
              exact congrArg Payment.Fixed.tenant hfixed
          · exact ⟨p, Or.inr ⟨m', List.mem_cons_self, hrow⟩, hsource, htenant⟩
        · exact ⟨p, Or.inr ⟨m'', List.mem_cons_of_mem _ hm'', hopened⟩, hsource, htenant⟩

end Events

section Commits

variable {l : Local DB Resource} {s : DB}

/-- What has become of a payment with the same claim. -/
theorem stays_of_claim {p row : Payment} (h : row.claim = p.claim) : p.Stays row where
  fixed := congrArg Prod.fst h
  batch _ hid := (congrArg Prod.snd h).trans hid

theorem claimedBy_claims (b : Books) (id : ℕ) :
    (b.claimedBy id).map Payment.claim = (b.payments.map Payment.claim).filter (·.2 = some id) := by
  rw [List.filter_map]
  rfl

/-- A transaction on payments changes nothing about who is in which batch. -/
theorem Working.claimedBy (h : Working l) (id : ℕ) :
    ((l.pend s).toBooks.claimedBy id).map Payment.claim =
    (s.toBooks.claimedBy id).map Payment.claim := by
  obtain ⟨opened, hnone, hclaims⟩ := h.opened
  rw [claimedBy_claims, claimedBy_claims, hclaims, List.filter_append]
  refine List.append_right_eq_self.mpr (List.filter_eq_nil_iff.mpr fun x hx => ?_)
  simp [hnone x hx]

theorem Working.stays (h : Working l) {p : Payment} (hp : p ∈ s.payments) :
    ∃ row ∈ (l.pend s).payments, p.Stays row := by
  obtain ⟨opened, -, hclaims⟩ := h.opened
  have hmem : p.claim ∈ (l.pend s).payments.map Payment.claim := by
    rw [hclaims]
    exact List.mem_append_left _ (List.mem_map_of_mem hp)
  obtain ⟨row, hrow, hclaim⟩ := List.mem_map.mp hmem
  exact ⟨row, hrow, stays_of_claim hclaim⟩

theorem Working.step (h : Working l) : s.toBooks.SettlementStep (l.pend s).toBooks where
  payments p hp := h.stays hp
  batches batch hbatch := by
    rw [h.batches]
    exact hbatch
  claimed batch _ q hq := by
    have hmem : q.claim ∈ (s.toBooks.claimedBy batch.id).map Payment.claim := by
      rw [← h.claimedBy]
      exact List.mem_map_of_mem hq
    obtain ⟨p, hp, hclaim⟩ := List.mem_map.mp hmem
    exact ⟨p, hp, stays_of_claim hclaim.symm⟩
  settled batch hbatch hnew := by
    rw [h.batches] at hbatch
    exact absurd hbatch hnew

theorem Working.tables (h : Working l) (hs : l.Sees settlementDiscipline s)
    (hsuccesses : ∀ e ∈ (l.pend s).revenue, e.eventType = .paymentSuccessful →
      ∃ p ∈ (l.pend s).payments, e.source = .payment p.id ∧ e.tenant = p.tenant) :
    (l.pend s).toBooks.SettlementTables where
  payments := h.unique s hs
  batches := by
    rw [h.batches]
    exact hs.inv.batches
  pointers q hq id hid := by
    have hmem : q.claim ∈ (s.toBooks.claimedBy id).map Payment.claim := by
      rw [← h.claimedBy]
      exact List.mem_map_of_mem (List.mem_filter.mpr ⟨hq, decide_eq_true hid⟩)
    obtain ⟨p, hp, -⟩ := List.mem_map.mp hmem
    obtain ⟨hp, hpid⟩ := List.mem_filter.mp hp
    rw [h.batches]
    exact hs.inv.pointers p hp id (of_decide_eq_true hpid)
  exact batch hbatch := by
    rw [h.batches] at hbatch
    refine ⟨?_, (hs.inv.exact batch hbatch).net⟩
    rw [(hs.inv.exact batch hbatch).gross]
    have hamounts := congrArg (fun claims => claims.map fun c : Payment.Fixed × Option ℕ =>
      c.1.amount.cents) (h.claimedBy (s := s) batch.id)
    rw [List.map_map, List.map_map] at hamounts
    exact congrArg List.sum hamounts.symm
  successes := hsuccesses

theorem Working.keeps (h : Working l) (k : Resource) (hk : k ∉ l.held) :
    LockKeeps k s (l.pend s) := by
  cases k with
  | payment id => exact h.covered s id hk
  | batch id =>
      intro hfree
      rw [h.batches]
      exact hfree
  | _ => trivial

/-- A batch that is built when its transaction commits. -/
theorem Built.claims_at {batch : SettlementBatch} (h : Built batch l)
    (hs : l.Sees settlementDiscipline s) :
    ∃ claimed : List Payment, batch.Claims claimed s.toBooks ∧
      (∀ p ∈ claimed, .payment p.id ∈ l.held) ∧
      (l.pend s).toBooks = (Move.openBatch batch claimed).run s.toBooks := by
  obtain ⟨claimed, hclaims, hlocked, hwrites⟩ := h.claims
  refine ⟨claimed, ⟨hclaims.ids, fun p hp => ?_, hclaims.due, hclaims.gross, ?_, hclaims.net, ?_⟩,
    hlocked, hwrites s⟩
  · exact (hs.keeps _ (hlocked p hp)).1.trans (hclaims.found p hp)
  · rw [hclaims.fees]
    refine congrArg List.sum (List.map_congr_left fun p hp => ?_)
    have hsame : s.toBooks.successes p.id = l.last.toBooks.successes p.id :=
      (hs.keeps _ (hlocked p hp)).2
    unfold Books.feesOf
    rw [hsame]
  · exact hs.keeps _ h.key hclaims.fresh

end Commits

/-! ## Every interleaving -/

/-- The requests that settle and those that work on payments. -/
def Action.settlesOrWorks : Action → Bool
  | generateBatch .. => true
  | action => action.worksOnPayments

/-- What the transaction of a request knows at its end. -/
def Action.Ends (action : Action) (l : Local DB Resource) : Prop :=
  match action with
  | .generateBatch .. => ∃ batch, Built batch l
  | _ => Working l

theorem Action.Ends.of_working {action : Action} (h : action.worksOnPayments = true)
    {l : Local DB Resource} (hl : Working l) : action.Ends l := by
  cases action <;> first | exact hl | cases h

theorem Action.Ends.cases {action : Action} {l : Local DB Resource} (h : action.Ends l) :
    (∀ tenant provider periodStart periodEnd,
      action ≠ .generateBatch tenant provider periodStart periodEnd) ∧ Working l ∨
    ∃ tenant provider periodStart periodEnd,
      action = .generateBatch tenant provider periodStart periodEnd ∧ ∃ batch, Built batch l := by
  cases action with
  | generateBatch => exact Or.inr ⟨_, _, _, _, rfl, h⟩
  | _ => exact Or.inl ⟨fun _ _ _ _ => nofun, h⟩

theorem settlesOrWorks_lwp {request : Request} (h : request.action.settlesOrWorks = true) {s : DB}
    (hs : s.toBooks.SettlementTables) :
    request.handler.lwp settlementDiscipline (Local.fresh s) (fun _ l => request.action.Ends l)
      fun _ _ => True := by
  have hworks : request.action.worksOnPayments = true →
      request.handler.lwp settlementDiscipline (Local.fresh s) (fun _ l => request.action.Ends l)
        fun _ _ => True := fun hworks =>
    Txn.lwp_consequence (handler_lwp hworks rfl hs) (fun _ _ h => .of_working hworks h)
      fun _ _ h => h
  obtain ⟨env, action⟩ := request
  cases action with
  | generateBatch tenant provider periodStart periodEnd =>
      change Txn.lwp _ (generateBatch ..) _ _ _
      simp only [generateBatch, getProvider, Txn.lwp_bind, lwp_getRow]
      intro v hv
      refine ⟨fun row _ => ?_, fun _ => trivial⟩
      exact Txn.lwp_consequence (generateSettlementBatch_lwp (l := { Local.fresh s with last := v })
        rfl) (fun batch _ h => ⟨batch, h⟩) fun _ _ h => h
  | _ => exact hworks h

theorem settlesOrWorks_savesTenant {action : Action} (h : action.settlesOrWorks = true) :
    action.savesTenant = false := by
  cases action <;> first | rfl | cases h

/-- Successes are booked for payments of their tenant. -/
theorem commit_successes {request : Request} (hnot : request.action.savesTenant = false)
    {l : Local DB Resource} {s : DB} {seen : List (Resource × DB)} (hl : Working l)
    (hs : s.toBooks.SettlementTables)
    (hseen : ∀ x ∈ seen, settlementDiscipline.inv x.2 ∧ settlementDiscipline.evolves x.2 s)
    (hleaves : request.handler.Leaves seen (.ret ()) l.pend) :
    ∀ e ∈ (l.pend s).revenue, e.eventType = .paymentSuccessful →
      ∃ p ∈ (l.pend s).payments, e.source = .payment p.id ∧ e.tenant = p.tenant := by
  obtain ⟨ms, -, heffect⟩ : request.Did (fun k v => (k, v) ∈ seen) l.pend :=
    hleaves _ _ _ _ (fun x hx => hx)
      (wp_handler request hnot fun k v hv => (hseen _ hv).1.payments)
  have hbooks : (l.pend s).toBooks = Move.runAll ms s.toBooks :=
    congrArg Prod.snd (heffect.writes s)
  have hkept : ∀ p ∈ s.payments, ∃ row ∈ (l.pend s).payments, row.id = p.id ∧
      row.tenant = p.tenant := by
    intro p hp
    obtain ⟨row, hrow, hstays⟩ := hl.stays hp
    exact ⟨row, hrow, hstays.id_eq, hstays.tenant_eq⟩
  intro e he hsuccess
  have he' : e ∈ (Move.runAll ms s.toBooks).revenue := by
    rw [← hbooks]
    exact he
  rcases mem_runAll_revenue he' with hold | ⟨m, hm, hnew⟩
  · obtain ⟨p, hp, hsource, htenant⟩ := hs.successes e hold hsuccess
    obtain ⟨row, hrow, hid, hrowTenant⟩ := hkept p hp
    exact ⟨row, hrow, by rw [hid, hsource], by rw [hrowTenant, htenant]⟩
  · obtain ⟨p, hp, hsource, htenant⟩ := heffect.chain.success hm hnew hsuccess
    rcases hp with ⟨what, -, -, -, ⟨v, hv, rfl, rfl⟩, hp⟩ | ⟨m', hm', hopened⟩
    · obtain ⟨q, hq, hstays⟩ := (hseen _ hv).2 p hp
      obtain ⟨row, hrow, hid, hrowTenant⟩ := hkept q hq
      exact ⟨row, hrow, by rw [hid, hstays.id_eq, hsource],
        by rw [hrowTenant, hstays.tenant_eq, htenant]⟩
    · obtain ⟨row, hrow, hfixed⟩ := mem_runAll_opened (b := s.toBooks) hm' hopened
      rw [← hbooks] at hrow
      refine ⟨row, hrow, ?_, ?_⟩
      · rw [hsource]
        exact congrArg (fun f : Payment.Fixed => Source.payment f.id) hfixed.symm
      · rw [htenant]
        exact congrArg Payment.Fixed.tenant hfixed.symm

/-- From one committed state to the next the tables stay in order and make one step. -/
structure SettlementCommit (s t : DB) : Prop where
  tables : t.toBooks.SettlementTables
  step : s.toBooks.SettlementStep t.toBooks

theorem settlesOrWorks_commit {request : Request} (hnot : request.action.savesTenant = false)
    {l : Local DB Resource} {s : DB} {seen : List (Resource × DB)} (hl : request.action.Ends l)
    (hs : l.Sees settlementDiscipline s)
    (hseen : ∀ x ∈ seen, settlementDiscipline.inv x.2 ∧ settlementDiscipline.evolves x.2 s)
    (hleaves : request.handler.Leaves seen (.ret ()) l.pend) :
    SettlementCommit s (l.pend s) ∧ ∀ k, k ∉ l.held → LockKeeps k s (l.pend s) := by
  rcases hl.cases with ⟨-, hl⟩ | ⟨_, _, _, _, -, batch, hl⟩
  · exact ⟨⟨hl.tables hs (commit_successes hnot hl hs.inv hseen hleaves), hl.step⟩, hl.keeps⟩
  · obtain ⟨claimed, hclaims, hlocked, hwrites⟩ := hl.claims_at hs
    refine ⟨⟨?_, ?_⟩, fun k hk => ?_⟩
    · rw [hwrites]
      exact hclaims.tables hs.inv
    · rw [hwrites]
      exact hclaims.step hs.inv
    · cases k with
      | payment id =>
          change (l.pend s).toBooks.payment? id = _ ∧ (l.pend s).toBooks.successes id = _
          rw [hwrites]
          refine ⟨claimFor_keeps fun p hp hid => hk ?_, rfl⟩
          rw [← hid]
          exact hlocked p hp
      | batch id =>
          intro hfree
          have hne : batch.id ≠ id := fun h => hk (h ▸ hl.key)
          rw [hwrites, run_openBatch_batches]
          intro row hrow
          rcases List.mem_append.mp hrow with hrow | hrow
          · exact hfree row hrow
          · rw [List.mem_singleton.mp hrow]
            exact hne
      | _ => trivial

/-- A schedule of such requests whose commits meet `M`: every commit keeps the tables in order and
has what `P` says of its request. -/
theorem run_settlements {requests : List Request}
    (hrequests : ∀ r ∈ requests, r.action.settlesOrWorks = true) {start : DB}
    (hstart : start.toBooks.SettlementTables) {schedule : List Event}
    {M : DB → (DB → DB) → List (Resource × DB) → Prop}
    (hmeets : Config.CommitsMeet M (Config.start start (requests.map Request.handler)) schedule)
    {P : Request → DB → DB → Prop}
    (hP : ∀ r ∈ requests, ∀ (l : Local DB Resource) (s : DB) (seen : List (Resource × DB)),
      r.action.Ends l → l.Sees settlementDiscipline s →
      (∀ x ∈ seen, settlementDiscipline.inv x.2 ∧ settlementDiscipline.evolves x.2 s) →
      r.handler.Leaves seen (.ret ()) l.pend → M s l.pend seen →
      SettlementCommit s (l.pend s) → P r s (l.pend s)) :
    ∃ log, Config.Disciplined settlementDiscipline (requests.map Request.handler)
      (fun i _ l => ∀ r, requests[i]? = some r → r.action.Ends l)
      (fun i _ s t => SettlementCommit s t ∧ ∃ r, requests[i]? = some r ∧ P r s t) start log
      ((Config.start start (requests.map Request.handler)).run schedule) := by
  have hget : ∀ (i : ℕ) (p : Tx Unit), (requests.map Request.handler)[i]? = some p →
      ∃ r, requests[i]? = some r ∧ p = r.handler := by
    intro i p hp
    rw [List.getElem?_map, Option.map_eq_some_iff] at hp
    obtain ⟨r, hr, rfl⟩ := hp
    exact ⟨r, hr, rfl⟩
  apply Config.run_disciplined (M := M) hstart _ _ schedule hmeets
  · intro i p hp
    obtain ⟨r, hr, rfl⟩ := hget i p hp
    refine Txn.lwp_consequence (settlesOrWorks_lwp (hrequests r (List.mem_of_getElem? hr)) hstart)
      (fun _ l h r' hr' => ?_) fun _ _ h => h
    rw [← Option.some.inj (hr.symm.trans hr')]
    exact h
  · intro i p a l seen s hp hleaves hseen hl hs hM
    obtain ⟨r, hr, rfl⟩ := hget i p hp
    have hmem : r ∈ requests := List.mem_of_getElem? hr
    obtain ⟨hcommit, hkeeps⟩ := settlesOrWorks_commit
      (settlesOrWorks_savesTenant (hrequests r hmem)) (hl r hr) hs hseen hleaves
    exact ⟨hcommit.tables, hcommit.step.payments, hkeeps, hcommit, r, hr,
      hP r hmem l s seen (hl r hr) hs hseen hleaves hM hcommit⟩

theorem settlement_counts_once (requests : List Request)
    (hrequests : ∀ r ∈ requests, r.action.settlesOrWorks = true) (start : DB)
    (hstart : start.toBooks.SettlementTables) (schedule : List Event) :
    (∀ s ∈ ((Config.start start (requests.map Request.handler)).run schedule).history,
      s.toBooks.SettlementTables) ∧
    ((Config.start start (requests.map Request.handler)).run schedule).history.IsChain
      fun s t => s.toBooks.SettlementStep t.toBooks := by
  obtain ⟨log, hrun⟩ := run_settlements (P := fun _ _ _ => True) hrequests hstart
    (Config.commitsMeet_trivial _ schedule) fun _ _ _ _ _ _ _ _ _ _ _ => trivial
  exact hrun.commits.history hstart fun _ _ s t h _ => ⟨h.1.tables, h.1.step⟩

/-! ## A settlement run next to a payment -/

/-- One bill with its control number, and nothing paid yet. -/
def numberedInstallation : DB :=
  { smallInstallation with
    bills := [BillInput.newBill ⟨1, 1, [], ""⟩ 1 "1"]
    controlNumbers := [⟨1, 1, "1", .oneTime, .active, .bill 1, none, none, none⟩] }

/-- A payment, two settlement runs over overlapping periods, and a reversal. -/
def overlappingRuns : List Request :=
  let successful := answering .successful "p" ""
  [{ env := envAt 2 successful
     action := .paymentListCreate 1 "1" "mock" none (amountOf 4000) "0700" "" [] },
   { env := envAt 3 successful, action := .generateBatch 1 1 0 5 },
   { env := envAt 4 successful, action := .generateBatch 1 1 1 9 },
   { env := envAt 5 successful, action := .paymentReverse 1 2 }]

/-- The payment commits; the other three take turns. -/
def runsInTurns : List Event :=
  List.replicate 60 (Event.advance 0) ++
    (List.replicate 60 [Event.advance 1, .advance 2, .advance 3]).flatten

theorem numberedInstallation_settlementTables :
    numberedInstallation.toBooks.SettlementTables where
  payments := List.nodup_nil
  batches := List.nodup_nil
  pointers _ hp := absurd hp List.not_mem_nil
  exact _ hbatch := absurd hbatch List.not_mem_nil
  successes _ he := absurd he List.not_mem_nil

theorem settlement_overlappingRuns :
    (∀ s ∈ ((Config.start numberedInstallation
      (overlappingRuns.map Request.handler)).run runsInTurns).history,
      s.toBooks.SettlementTables) ∧
    ((Config.start numberedInstallation
      (overlappingRuns.map Request.handler)).run runsInTurns).history.IsChain
      fun s t => s.toBooks.SettlementStep t.toBooks :=
  settlement_counts_once overlappingRuns (by decide) numberedInstallation
    numberedInstallation_settlementTables runsInTurns

end Kusanya
