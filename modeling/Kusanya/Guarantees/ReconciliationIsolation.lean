import Kusanya.Guarantees.ConflictingReports
import Kusanya.Guarantees.Reconciliation
import Kusanya.Moves.Consequences

/-!
# One payment that stops a reconciliation run

The run queries the `UNKNOWN` payments one after the other in the transaction of the request.  An
adapter that raises, or an answer that the state machine does not admit, unwinds all of it: the
run, its exceptions, and the payments that were resolved before.
-/

namespace Kusanya

open ReadCommitted

/-! ## Answers -/

/-- The row of a payment after the first loop, as far as the second reads it. -/
def DB.queried (s : DB) (env : Env) (payment : Payment) : Payment :=
  match s.answer env payment with
  | some result =>
      if payment.status = .unknown then
        { payment with
          status := payment.statusAfter result.outcome
          providerReference := payment.referenceAfter result.providerReference }
      else payment
  | none => payment

/-- `_check_settled_payments` compares the row with the provider. -/
def Payment.isCompared (payment : Payment) : Bool :=
  (payment.status = .successful || payment.status = .failed) && payment.providerReference != ""

/-- The queries can be made and recorded and their answers applied, one after the other. -/
def Resolvable (env : Env) : DB → List Payment → Prop
  | _, [] => True
  | s, payment :: rest => ∃ result, s.answer env payment = some result ∧
      env.Auditable ∧ (payment.LearnsFrom result → Varchar 100 result.providerReference) ∧
      Applies env s payment {} result.outcome ∧
      Resolvable env (s.afterOutcome env payment {} result.outcome) rest

/-- Every answer of the run can be applied, and the provider shows every settled payment. -/
structure Answerable (env : Env) (tenant : ℕ) (s : DB) : Prop where
  queries : Resolvable env s (s.unknownOf tenant)
  views : ∀ payment ∈ s.payments, payment.tenant = tenant →
    (s.queried env payment).isCompared = true →
      (s.providerView env (s.queried env payment)).isSome = true

/-- The provider says the same about the payment. -/
structure AnswersAlike (s : DB) (env : Env) (registry : String → Option Adapter)
    (payment : Payment) : Prop where
  query : s.answer { env with registry } payment = s.answer env payment
  view : s.providerView { env with registry } (s.queried env payment) =
    s.providerView env (s.queried env payment)

/-- What a run records on a payment: the status of its row and the exceptions of the run. -/
def DB.recorded (t : DB) (run payment : ℕ) : Option PaymentStatus × List ExceptionType :=
  ((t.payments.find? (·.id = payment)).map (·.status),
    (t.exceptions.filter fun row => row.run = run && row.payment = payment).map (·.exceptionType))

/-- The run completes and is committed, every payment that was `UNKNOWN` is resolved or stuck, and
what is recorded on a payment is the same whatever is answered about the others. -/
def Reconciles (env : Env) (tenant : ℕ) (s : DB) : Prop :=
  ∃ run t, (runReconciliation env tenant).exec s = .ok (run, t) ∧
    afterAll s [⟨env, .triggerRun tenant⟩] = t ∧ run.status = .completed ∧ run ∈ t.runs ∧
    (∀ payment ∈ s.unknownOf tenant,
      (∃ row ∈ t.payments, row.id = payment.id ∧ row.status ≠ .unknown) ∨
        ∃ row ∈ t.exceptions, row.entry = (tenant, run.id, payment.id, .stuckUnknown)) ∧
    ∀ registry run' t', (runReconciliation { env with registry } tenant).exec s = .ok (run', t') →
      ∀ payment ∈ s.payments, AnswersAlike s env registry payment →
        t'.recorded run'.id payment.id = t.recorded run.id payment.id

section Loops

variable {env : Env} {s t : DB} {payment payment' : Payment} {run run' : ReconciliationRun}

theorem answer_congr (h : t.toDirectory = s.toDirectory) (payment : Payment) :
    t.answer env payment = s.answer env payment := by
  rw [DB.answer, DB.answer, h]

theorem providerView_congr (h : t.toDirectory = s.toDirectory) (payment : Payment) :
    t.providerView env payment = s.providerView env payment := by
  rw [DB.providerView, DB.providerView, h]

theorem resolvable_congr {payments : List Payment} (h : t.looked = s.looked) :
    Resolvable env t payments ↔ Resolvable env s payments := by
  induction payments generalizing s t with
  | nil => exact Iff.rfl
  | cons payment rest ih =>
      have hanswer : t.answer env payment = s.answer env payment :=
        answer_congr (congrArg (·.1) h) payment
      have happlies : ∀ outcome, Applies env t payment {} outcome ↔
        Applies env s payment {} outcome :=
        applies_congr h rfl rfl rfl rfl rfl rfl rfl rfl rfl
      have hrest : ∀ outcome, Resolvable env (t.afterOutcome env payment {} outcome) rest ↔
          Resolvable env (s.afterOutcome env payment {} outcome) rest := fun outcome =>
        ih (afterOutcome_congr h rfl rfl rfl rfl rfl rfl rfl rfl rfl outcome)
      simp only [Resolvable, hanswer, happlies, hrest]

/-- A query ends normally exactly where its answer can be applied. -/
theorem completes_query : Completes (queryPayment env payment) s ↔
    ∃ result, s.answer env payment = some result ∧ env.Auditable ∧
      (payment.LearnsFrom result → Varchar 100 result.providerReference) ∧
      Applies env s payment {} result.outcome := by
  constructor
  · rintro ⟨⟨payment', t⟩, hexec⟩
    obtain ⟨result, hanswer, -⟩ := queryPayment_exec hexec
    obtain ⟨provider, adapter, hprovider, hregistered, hok⟩ := answer_eq_some hanswer
    obtain ⟨hfits, hauditable⟩ := fits_of_queryPayment hprovider hregistered hok ⟨_, hexec⟩
    rw [queryPayment_eq hprovider hregistered hok hfits hauditable] at hexec
    exact ⟨result, hanswer, hauditable, hfits, completes_learned.mp ⟨_, hexec⟩⟩
  · rintro ⟨result, hanswer, hauditable, hfits, happlies⟩
    obtain ⟨provider, adapter, hprovider, hregistered, hok⟩ := answer_eq_some hanswer
    obtain ⟨r, hexec⟩ := completes_learned.mpr happlies
    refine ⟨r, ?_⟩
    rw [queryPayment_eq hprovider hregistered hok hfits hauditable]
    exact hexec

/-- The first loop ends normally exactly where its answers can be applied in turn. -/
theorem completes_resolveUnknown {unknown : List Payment} :
    Completes (resolveUnknown env run unknown) s ↔ Resolvable env s unknown := by
  induction unknown generalizing s run with
  | nil => exact ⟨fun _ => trivial, fun _ => completes_ret _ _⟩
  | cons payment rest ih =>
      have hturn : ∀ payment' u, (queryPayment env payment).exec s = .ok (payment', u) →
          (Completes (if payment'.status ≠ .unknown then
              resolveUnknown env { run with
                totalChecked := run.totalChecked + 1
                resolvedUnknownCount := run.resolvedUnknownCount + 1 } rest
            else do
              let run ← openException { run with totalChecked := run.totalChecked + 1 } payment'
                .stuckUnknown [("note", "Still UNKNOWN after querying the provider.")]
              resolveUnknown env run rest) u ↔ Resolvable env u rest) := by
        intro payment' u _
        by_cases hresolved : payment'.status ≠ .unknown
        · rw [if_pos hresolved]
          exact ih
        · rw [if_neg hresolved]
          obtain ⟨run'', v, hopen, hv⟩ : ∃ run'' v, (openException
              { run with totalChecked := run.totalChecked + 1 } payment' .stuckUnknown
                [("note", "Still UNKNOWN after querying the provider.")]).exec u = .ok (run'', v) ∧
              v.looked = u.looked := ⟨_, _, rfl, rfl⟩
          rw [completes_bind hopen, ih, resolvable_congr hv]
      rw [resolveUnknown, completes_bind_exists]
      constructor
      · rintro ⟨payment', u, hquery, hrest⟩
        obtain ⟨result, hanswer, hauditable, hfits, happlies⟩ := completes_query.mp ⟨_, hquery⟩
        obtain ⟨result', hanswer', hlooked, -⟩ := queryPayment_exec hquery
        obtain rfl := Option.some.inj (hanswer.symm.trans hanswer')
        refine ⟨result, hanswer, hauditable, hfits, happlies, ?_⟩
        rw [← resolvable_congr hlooked]
        exact (hturn payment' u hquery).mp hrest
      · rintro ⟨result, hanswer, hauditable, hfits, happlies, hrest⟩
        obtain ⟨⟨payment', u⟩, hquery⟩ :=
          completes_query.mpr ⟨result, hanswer, hauditable, hfits, happlies⟩
        obtain ⟨result', hanswer', hlooked, -⟩ := queryPayment_exec hquery
        obtain rfl := Option.some.inj (hanswer.symm.trans hanswer')
        refine ⟨payment', u, hquery, (hturn payment' u hquery).mpr ?_⟩
        rw [resolvable_congr hlooked]
        exact hrest

/-- The second loop ends normally exactly where the provider shows each payment. -/
theorem completes_checkSettled {settled : List Payment} :
    Completes (checkSettled env run settled) s ↔
      ∀ payment ∈ settled, (s.providerView env payment).isSome = true := by
  induction settled generalizing s run with
  | nil => exact ⟨fun _ _ h => absurd h List.not_mem_nil, fun _ => completes_ret _ _⟩
  | cons payment rest ih =>
      rw [List.forall_mem_cons]
      constructor
      · rintro ⟨⟨run', t⟩, hexec⟩
        obtain ⟨-, hcompared⟩ := exec_checkSettled hexec
        exact List.forall_mem_cons.mp hcompared.viewed
      · rintro ⟨hview, hrest⟩
        obtain ⟨view, hview⟩ := Option.isSome_iff_exists.mp hview
        obtain ⟨provider, hprovider, h₁⟩ := Option.bind_eq_some_iff.mp hview
        obtain ⟨adapter, hadapter, h₂⟩ := Option.bind_eq_some_iff.mp h₁
        cases hanswer : adapter.reconcile payment.providerReference with
        | error e =>
            rw [hanswer] at h₂
            cases h₂
        | ok result =>
            have hfound : (adapterOf env payment).exec s = .ok (adapter, s) := by
              rw [adapterOf, getProvider, Txn.exec_bind, (looks_getRow _ _).exec hprovider]
              dsimp only
              rw [getAdapter, hadapter]
              rfl
            have hask : (askProvider (.reconcile payment.providerReference)
                (adapter.reconcile payment.providerReference)).exec s = .ok (result, s) := by
              rw [hanswer]
              rfl
            rw [checkSettled, completes_bind hfound, completes_bind hask]
            obtain ⟨run', u, hcompare⟩ : ∃ run' u, (compareWithProvider
                { run with totalChecked := run.totalChecked + 1 } payment result.outcome).exec s =
                  .ok (run', u) := by
              unfold compareWithProvider
              split
              · exact ⟨_, _, rfl⟩
              · split
                · exact ⟨_, _, rfl⟩
                · exact ⟨_, _, rfl⟩
            obtain ⟨-, hdirectory, -⟩ := exec_compareWithProvider hcompare
            rw [completes_bind hcompare, ih]
            intro p hp
            rw [providerView_congr hdirectory]
            exact hrest p hp

/-- What the second loop and the caller read of a row. -/
def Payment.facts (payment : Payment) : (ℕ × ℕ × ℕ × String) × PaymentStatus × String :=
  (payment.subject, payment.status, payment.providerReference)

theorem queried_congr (h : t.toDirectory = s.toDirectory) (payment : Payment) :
    t.queried env payment = s.queried env payment := by
  rw [DB.queried, DB.queried, answer_congr h]

theorem facts_queryPayment (hstatus : payment.status = .unknown)
    (h : (queryPayment env payment).exec s = .ok (payment', t)) :
    payment'.facts = (s.queried env payment).facts := by
  obtain ⟨result, hanswer, -, hsubject, hafter, hreference⟩ := queryPayment_exec h
  rw [DB.queried, hanswer, Payment.facts, hsubject, hafter, hreference]
  dsimp only
  rw [if_pos hstatus]
  rfl

/-- The exception of a payment that is still `UNKNOWN`. -/
def DB.stuck (s : DB) (env : Env) (run : ReconciliationRun) (payment : Payment) :
    List (ℕ × ℕ × ℕ × ExceptionType) :=
  if (s.queried env payment).status = .unknown then
    [(run.tenant, run.id, payment.id, .stuckUnknown)]
  else []

/-- What the first loop does to the rows, and the exceptions that it opens. -/
theorem resolveUnknown_records {unknown : List Payment} (hs : s.PaymentsUnique)
    (hunknown : ∀ p ∈ unknown, p ∈ s.payments ∧ p.status = .unknown)
    (hnodup : (unknown.map (·.id)).Nodup)
    (h : (resolveUnknown env run unknown).exec s = .ok (run', t)) :
    t.payments.map Payment.facts = s.payments.map (fun row =>
        if row ∈ unknown then (s.queried env row).facts else row.facts) ∧
      ∃ opened, t.exceptions = s.exceptions ++ opened ∧
        opened.map (·.entry) = unknown.flatMap (s.stuck env run) := by
  induction unknown generalizing run s with
  | nil =>
      obtain ⟨rfl, rfl⟩ := Prod.mk.inj (Except.ok.inj h)
      refine ⟨?_, [], (List.append_nil _).symm, rfl⟩
      exact List.map_congr_left fun row _ => (if_neg List.not_mem_nil).symm
  | cons payment rest ih =>
      obtain ⟨hfirst, hothers⟩ := List.nodup_cons.mp hnodup
      obtain ⟨⟨hmem, hstatus⟩, hrest⟩ := List.forall_mem_cons.mp hunknown
      obtain ⟨payment', u, hquery, h₁⟩ := (Txn.exec_bind_ok _).mp h
      have hturn := exec_queryPayment hs hmem hquery
      have hfacts := facts_queryPayment hstatus hquery
      have haside := queryPayment_aside env payment s _ _ hquery
      have hu := hturn.unique hs
      have hdirectory : u.toDirectory = s.toDirectory := congrArg (·.1) haside
      have hexceptions : u.exceptions = s.exceptions := congrArg (·.2.2) haside
      have hother : ∀ p ∈ rest, p.id ≠ payment.id := fun p hp hid =>
        hfirst (List.mem_map.mpr ⟨p, hp, hid⟩)
      have hkept : ∀ p ∈ rest, p ∈ u.payments ∧ p.status = .unknown := by
        intro p hp
        refine ⟨?_, (hrest p hp).2⟩
        rw [hturn.payments]
        exact List.mem_map.mpr ⟨p, (hrest p hp).1, if_neg (hother p hp)⟩
      -- the rows after the rest of the loop, read off the rows before the first query
      have hrows : ∀ v : DB, v.toDirectory = u.toDirectory → u.payments.map (fun row =>
          if row ∈ rest then (v.queried env row).facts else row.facts) =
          s.payments.map fun row =>
            if row ∈ payment :: rest then (s.queried env row).facts else row.facts := by
        intro v hv
        rw [hturn.payments, List.map_map]
        refine List.map_congr_left fun row hrow => ?_
        by_cases hid : row.id = payment.id
        · obtain rfl := Support.eq_of_key hs hrow hmem hid
          have hnot : payment' ∉ rest := fun hp => hother payment' hp hturn.id
          rw [Function.comp_apply, if_pos rfl, if_neg hnot, if_pos List.mem_cons_self, hfacts]
        · have hne : row ≠ payment := fun heq => hid (congrArg (·.id) heq)
          rw [Function.comp_apply, if_neg hid, queried_congr (hv.trans hdirectory)]
          simp only [List.mem_cons, hne, false_or]
      have hstuck : ∀ (v : DB) (middle : ReconciliationRun), v.toDirectory = u.toDirectory →
          middle.tenant = run.tenant → middle.id = run.id →
          rest.flatMap (v.stuck env middle) = rest.flatMap (s.stuck env run) := by
        intro v middle hv htenant hrun
        refine List.flatMap_congr fun p _ => ?_
        rw [DB.stuck, DB.stuck, queried_congr (hv.trans hdirectory), htenant, hrun]
      have hafter : (s.queried env payment).status = payment'.status :=
        (congrArg (·.2.1) hfacts).symm
      dsimp only at h₁
      rw [List.flatMap_cons]
      by_cases hresolved : payment'.status ≠ .unknown
      · rw [if_pos hresolved] at h₁
        obtain ⟨hpayments, opened, hopened, hentries⟩ := ih hu hkept hothers h₁
        refine ⟨hpayments.trans (hrows u rfl), opened, ?_, ?_⟩
        · rw [hopened, hexceptions]
        · rw [hentries.trans (hstuck u _ rfl rfl rfl), DB.stuck, hafter, if_neg hresolved]
          rfl
      · rw [if_neg hresolved] at h₁
        obtain ⟨middle, v, hopen, h₂⟩ := (Txn.exec_bind_ok _).mp h₁
        obtain ⟨rfl, hbooks, hv, -, row, hrow, hentry⟩ := exec_openException hopen
        have hpaymentsV : v.payments = u.payments := congrArg Books.payments hbooks
        have hvunique : v.PaymentsUnique := by
          unfold DB.PaymentsUnique
          rw [hpaymentsV]
          exact hu
        obtain ⟨hpayments, opened, hopened, hentries⟩ :=
          ih hvunique (by rw [hpaymentsV]; exact hkept) hothers h₂
        rw [hpaymentsV] at hpayments
        refine ⟨hpayments.trans (hrows v hv), row :: opened, ?_, ?_⟩
        · rw [hopened, hrow, hexceptions, List.append_assoc]
          rfl
        · rw [List.map_cons, hentries.trans (hstuck v _ hv rfl rfl), hentry, DB.stuck, hafter,
            if_pos (not_not.mp hresolved), hturn.id]
          rfl

end Loops

/-! ## The run -/

section Run

variable {env : Env} {tenant : ℕ} {run : ReconciliationRun} {s t : DB}

/-- The two loops of a run. -/
theorem runReconciliation_exec : (runReconciliation env tenant).exec s = .ok (run, t) ↔
    ∃ run₁ u run₂ v,
      (resolveUnknown env (openedRun env tenant) (s.unknownOf tenant)).exec
        (inTrail (·.addRun (openedRun env tenant)) s) = .ok (run₁, u) ∧
      (checkSettled env run₁ (u.settledOf run₁.tenant)).exec (inTrail (·.saveRun run₁) u) =
        .ok (run₂, v) ∧
      run = { run₂ with status := .completed, completedAt := some env.now } ∧
      t = inTrail (·.saveRun run) (inTrail (·.saveRun run₂) v) := by
  constructor
  · intro h
    obtain ⟨_, s₁, hadd, h₁⟩ := (Txn.exec_bind_ok _).mp h
    obtain ⟨run₁, s₂, hresolve, h₂⟩ := (Txn.exec_bind_ok _).mp h₁
    obtain ⟨run₂, s₃, hcheck, h₃⟩ := (Txn.exec_bind_ok _).mp h₂
    obtain ⟨-, rfl⟩ := Prod.mk.inj (Except.ok.inj hadd)
    unfold resolveUnknownPayments at hresolve
    rw [Txn.exec_bind, Txn.exec_fetch] at hresolve
    obtain ⟨run₁', u, hloop, hsave⟩ := (Txn.exec_bind_ok _).mp hresolve
    obtain ⟨rfl, rfl⟩ := Prod.mk.inj (Except.ok.inj hsave)
    unfold checkSettledPayments at hcheck
    rw [Txn.exec_bind, Txn.exec_fetch] at hcheck
    obtain ⟨run₂', v, hcompare, hsave'⟩ := (Txn.exec_bind_ok _).mp hcheck
    obtain ⟨rfl, rfl⟩ := Prod.mk.inj (Except.ok.inj hsave')
    obtain ⟨rfl, rfl⟩ := Prod.mk.inj (Except.ok.inj h₃)
    exact ⟨run₁', u, run₂', v, hloop, hcompare, rfl, rfl⟩
  · rintro ⟨run₁, u, run₂, v, hloop, hcompare, rfl, rfl⟩
    have hresolve : (resolveUnknownPayments env (openedRun env tenant)).exec
        (inTrail (·.addRun (openedRun env tenant)) s) = .ok (run₁, inTrail (·.saveRun run₁) u) := by
      rw [resolveUnknownPayments, Txn.exec_bind, Txn.exec_fetch]
      exact (Txn.exec_bind_ok _).mpr ⟨run₁, u, hloop, rfl⟩
    have hcheck : (checkSettledPayments env run₁).exec (inTrail (·.saveRun run₁) u) =
        .ok (run₂, inTrail (·.saveRun run₂) v) := by
      rw [checkSettledPayments, Txn.exec_bind, Txn.exec_fetch]
      exact (Txn.exec_bind_ok _).mpr ⟨run₂, v, hcompare, rfl⟩
    refine (Txn.exec_bind_ok _).mpr ⟨(), _, rfl, ?_⟩
    refine (Txn.exec_bind_ok _).mpr ⟨run₁, _, hresolve, ?_⟩
    exact (Txn.exec_bind_ok _).mpr ⟨run₂, _, hcheck, rfl⟩

/-- The row of a payment after the first loop of a run for `tenant`. -/
def DB.queriedFor (s : DB) (env : Env) (tenant : ℕ) (payment : Payment) : Payment :=
  if payment.tenant = tenant then s.queried env payment else payment

theorem queried_of_known {payment : Payment} (h : payment.status ≠ .unknown) :
    s.queried env payment = payment := by
  unfold DB.queried
  split
  · rw [if_neg h]
  · rfl

theorem queriedFor_subject (payment : Payment) :
    (s.queriedFor env tenant payment).subject = payment.subject := by
  unfold DB.queriedFor DB.queried
  split
  · split
    · split
      · rfl
      · rfl
    · rfl
  · rfl

theorem mem_settledOf {payment : Payment} : payment ∈ s.settledOf tenant ↔
    payment ∈ s.payments ∧ payment.tenant = tenant ∧ payment.isCompared = true := by
  rw [DB.settledOf, mem_newestFirst, List.mem_filter, Payment.isCompared, Bool.and_assoc,
    Bool.and_eq_true,
    decide_eq_true_iff]

theorem isCompared_facts {p q : Payment} (h : p.facts = q.facts) : p.isCompared = q.isCompared := by
  have hstatus : p.status = q.status := congrArg (·.2.1) h
  have hreference : p.providerReference = q.providerReference := congrArg (·.2.2) h
  rw [Payment.isCompared, Payment.isCompared, hstatus, hreference]

theorem providerView_facts {p q : Payment} (h : p.facts = q.facts) :
    s.providerView env p = s.providerView env q := by
  have hprovider : p.provider = q.provider := congrArg (·.1.2.2.1) h
  have hreference : p.providerReference = q.providerReference := congrArg (·.2.2) h
  rw [DB.providerView, DB.providerView, hprovider, hreference]

/-- The rows after the first loop. -/
theorem rows_queried {u : DB} {run₁ : ReconciliationRun} (hs : s.PaymentsUnique)
    (h : (resolveUnknown env (openedRun env tenant) (s.unknownOf tenant)).exec
      (inTrail (·.addRun (openedRun env tenant)) s) = .ok (run₁, u)) :
    u.payments.map Payment.facts =
        s.payments.map (fun row => (s.queriedFor env tenant row).facts) ∧
      ∃ opened, u.exceptions = s.exceptions ++ opened ∧
        opened.map (·.entry) =
          (s.unknownOf tenant).flatMap (s.stuck env (openedRun env tenant)) := by
  have hs₁ : (inTrail (·.addRun (openedRun env tenant)) s).PaymentsUnique := hs
  have hunknown : ∀ p ∈ s.unknownOf tenant, p ∈ s.payments ∧ p.status = .unknown := by
    intro p hp
    obtain ⟨hmem, -, hstatus⟩ := mem_unknownOf.mp hp
    exact ⟨hmem, hstatus⟩
  obtain ⟨hrows, opened, hopened, hentries⟩ :=
    resolveUnknown_records hs₁ hunknown (unknownOf_nodup hs) h
  refine ⟨hrows.trans (List.map_congr_left fun row hrow => ?_), opened, hopened, hentries⟩
  by_cases hunknown : row ∈ s.unknownOf tenant
  · rw [if_pos hunknown, DB.queriedFor, if_pos (mem_unknownOf.mp hunknown).2.1]
    rfl
  · rw [if_neg hunknown]
    by_cases htenant : row.tenant = tenant
    · have hknown : row.status ≠ .unknown := by
        intro hstatus
        exact hunknown (mem_unknownOf.mpr ⟨hrow, htenant, hstatus⟩)
      rw [DB.queriedFor, if_pos htenant, queried_of_known hknown]
    · rw [DB.queriedFor, if_neg htenant]

/-- A run ends normally exactly where every answer of it can be applied. -/
theorem completes_runReconciliation (hs : s.PaymentsUnique) :
    Completes (runReconciliation env tenant) s ↔ Answerable env tenant s := by
  have hqueries : ∀ run, Completes (resolveUnknown env run (s.unknownOf tenant))
      (inTrail (·.addRun (openedRun env tenant)) s) ↔ Resolvable env s (s.unknownOf tenant) :=
    fun run => completes_resolveUnknown.trans (resolvable_congr rfl)
  -- the second loop, in terms of the rows before the run
  have hviews : ∀ run₁ u, (resolveUnknown env (openedRun env tenant) (s.unknownOf tenant)).exec
      (inTrail (·.addRun (openedRun env tenant)) s) = .ok (run₁, u) →
      (Completes (checkSettled env run₁ (u.settledOf run₁.tenant)) (inTrail (·.saveRun run₁) u) ↔
        ∀ payment ∈ s.payments, payment.tenant = tenant →
          (s.queried env payment).isCompared = true →
            (s.providerView env (s.queried env payment)).isSome = true) := by
    intro run₁ u hloop
    obtain ⟨hrows, -⟩ := rows_queried hs hloop
    have hs₁ : (inTrail (·.addRun (openedRun env tenant)) s).PaymentsUnique := hs
    obtain ⟨-, hresolved⟩ := exec_resolveUnknown_counts hs₁
      (fun p hp => (mem_unknownOf.mp hp).1) (unknownOf_nodup hs) hloop
    have htenant : run₁.tenant = tenant := hresolved.run_tenant
    have hdirectory : (inTrail (·.saveRun run₁) u).toDirectory = s.toDirectory :=
      hresolved.directory
    rw [completes_checkSettled, htenant]
    constructor
    · intro hshown payment hpayment hown hcompared
      have hmem : (s.queriedFor env tenant payment).facts ∈ u.payments.map Payment.facts := by
        rw [hrows]
        exact List.mem_map.mpr ⟨payment, hpayment, rfl⟩
      obtain ⟨row, hrow, hfacts⟩ := List.mem_map.mp hmem
      rw [DB.queriedFor, if_pos hown] at hfacts
      have hrowTenant : row.tenant = tenant := by
        have hsubject : (s.queriedFor env tenant payment).subject = payment.subject :=
          queriedFor_subject payment
        rw [DB.queriedFor, if_pos hown] at hsubject
        exact ((congrArg (·.1.2.1) hfacts).trans (congrArg (·.2.1) hsubject)).trans hown
      have hview := hshown row (mem_settledOf.mpr
        ⟨hrow, hrowTenant, (isCompared_facts hfacts).trans hcompared⟩)
      rw [providerView_congr hdirectory, providerView_facts hfacts] at hview
      exact hview
    · intro hshown row hrow
      obtain ⟨hmem, hrowTenant, hcompared⟩ := mem_settledOf.mp hrow
      have hfacts : row.facts ∈ s.payments.map fun row => (s.queriedFor env tenant row).facts := by
        rw [← hrows]
        exact List.mem_map.mpr ⟨row, hmem, rfl⟩
      obtain ⟨payment, hpayment, hfacts⟩ := List.mem_map.mp hfacts
      have hown : payment.tenant = tenant := by
        have hsubject : (s.queriedFor env tenant payment).subject = payment.subject :=
          queriedFor_subject payment
        exact (congrArg (·.2.1) hsubject).symm.trans
          ((congrArg (·.1.2.1) hfacts).trans hrowTenant)
      rw [DB.queriedFor, if_pos hown] at hfacts
      rw [providerView_congr hdirectory, ← providerView_facts hfacts]
      exact hshown payment hpayment hown ((isCompared_facts hfacts).trans hcompared)
  constructor
  · rintro ⟨⟨run, t⟩, hexec⟩
    obtain ⟨run₁, u, run₂, v, hloop, hcompare, -, -⟩ := runReconciliation_exec.mp hexec
    exact ⟨(hqueries _).mp ⟨_, hloop⟩, (hviews run₁ u hloop).mp ⟨_, hcompare⟩⟩
  · rintro ⟨hresolvable, hshown⟩
    obtain ⟨⟨run₁, u⟩, hloop⟩ := (hqueries (openedRun env tenant)).mpr hresolvable
    obtain ⟨⟨run₂, v⟩, hcompare⟩ := (hviews run₁ u hloop).mpr hshown
    exact ⟨_, runReconciliation_exec.mpr ⟨run₁, u, run₂, v, hloop, hcompare, rfl, rfl⟩⟩

/-- The exceptions that a run for `tenant` opens on a payment. -/
def DB.findings (s : DB) (env : Env) (tenant : ℕ) (payment : Payment) : List ExceptionType :=
  if payment.tenant = tenant then
    (if payment.status = .unknown ∧ (s.queried env payment).status = .unknown then
      [.stuckUnknown] else []) ++
    if (s.queried env payment).isCompared then
      match s.providerView env (s.queried env payment) with
      | some view => (s.queried env payment).status.exceptionsFor view
      | none => []
    else []
  else []

/-- The entries of one payment among those of a run over `rows`. -/
theorem own_entries {rows : List Payment} {g : Payment → List (ℕ × ℕ × ℕ × ExceptionType)}
    {key : ℕ} {payment : Payment} (hs : s.PaymentsUnique) (hrows : ∀ p ∈ rows, p ∈ s.payments)
    (hnodup : (rows.map (·.id)).Nodup)
    (hg : ∀ p ∈ rows, ∀ e ∈ g p, e.2.1 = key ∧ e.2.2.1 = p.id) (hmem : payment ∈ s.payments) :
    ((rows.flatMap g).filter fun e => e.2.1 = key && e.2.2.1 = payment.id) =
      if payment ∈ rows then g payment else [] := by
  have hkey : ((rows.flatMap g).filter fun e => e.2.1 = key && e.2.2.1 = payment.id) =
      (rows.flatMap g).filter fun e => e.2.2.1 = payment.id := by
    refine List.filter_congr fun e he => ?_
    obtain ⟨p, hp, hep⟩ := List.mem_flatMap.mp he
    rw [decide_eq_true (hg p hp e hep).1, Bool.true_and]
  rw [hkey]
  by_cases hown : payment ∈ rows
  · rw [if_pos hown]
    exact Support.filter_flatMap_key hnodup (fun p hp e he => (hg p hp e he).2) hown
  · rw [if_neg hown, List.filter_eq_nil_iff]
    intro e he hid
    obtain ⟨p, hp, hep⟩ := List.mem_flatMap.mp he
    have hsame : p.id = payment.id := (hg p hp e hep).2.symm.trans (of_decide_eq_true hid)
    obtain rfl := Support.eq_of_key hs (hrows p hp) hmem hsame
    exact hown hp

theorem types_of_entries (rows : List ReconciliationException) (key payment : ℕ) :
    (rows.filter fun row => row.run = key && row.payment = payment).map (·.exceptionType) =
      ((rows.map (·.entry)).filter fun e => e.2.1 = key && e.2.2.1 = payment).map (·.2.2.2) := by
  rw [List.filter_map, List.map_map]
  rfl

/-- The first loop opens an exception on a payment that stays `UNKNOWN`. -/
theorem types_stuck {opened : List ReconciliationException} (hs : s.PaymentsUnique)
    (hentries : opened.map (·.entry) =
      (s.unknownOf tenant).flatMap (s.stuck env (openedRun env tenant)))
    {payment : Payment} (hmem : payment ∈ s.payments) :
    (opened.filter fun e => e.run = env.gen.runId && e.payment = payment.id).map
        (·.exceptionType) =
      if payment.tenant = tenant ∧ payment.status = .unknown ∧
        (s.queried env payment).status = .unknown then [.stuckUnknown] else [] := by
  rw [types_of_entries, hentries, own_entries hs (fun p hp => (mem_unknownOf.mp hp).1)
    (unknownOf_nodup hs) ?_ hmem]
  · by_cases hunknown : payment ∈ s.unknownOf tenant
    · obtain ⟨-, htenant, hstatus⟩ := mem_unknownOf.mp hunknown
      rw [if_pos hunknown, DB.stuck]
      by_cases hstuck : (s.queried env payment).status = .unknown
      · rw [if_pos hstuck, if_pos ⟨htenant, hstatus, hstuck⟩]
        rfl
      · rw [if_neg hstuck, if_neg fun h => hstuck h.2.2]
        rfl
    · have hnone : ¬(payment.tenant = tenant ∧ payment.status = .unknown ∧
          (s.queried env payment).status = .unknown) :=
        fun h => hunknown (mem_unknownOf.mpr ⟨hmem, h.1, h.2.1⟩)
      rw [if_neg hunknown, if_neg hnone]
      rfl
  · intro p _ e he
    unfold DB.stuck at he
    split at he
    · rw [List.mem_singleton.mp he]
      exact ⟨rfl, rfl⟩
    · cases he

/-- The second loop opens the exceptions that the provider's view of a row calls for. -/
theorem types_compared {u : DB} {run₁ : ReconciliationRun} {found : List ReconciliationException}
    (hu : u.PaymentsUnique) (hrun : run₁.id = env.gen.runId)
    (hentries : found.map (·.entry) =
      (u.settledOf tenant).flatMap fun p => p.discrepancies run₁ (u.providerView env p))
    {row : Payment} (hrow : row ∈ u.payments) :
    (found.filter fun e => e.run = env.gen.runId && e.payment = row.id).map (·.exceptionType) =
      if row.tenant = tenant ∧ row.isCompared = true then
        match u.providerView env row with
        | some view => row.status.exceptionsFor view
        | none => []
      else [] := by
  rw [types_of_entries, hentries, own_entries hu (fun p hp => (mem_settledOf.mp hp).1)
    (settledOf_nodup hu) ?_ hrow]
  · by_cases hcompared : row.tenant = tenant ∧ row.isCompared = true
    · rw [if_pos (mem_settledOf.mpr ⟨hrow, hcompared⟩), if_pos hcompared]
      unfold Payment.discrepancies
      cases u.providerView env row with
      | none => rfl
      | some view =>
          dsimp only
          rw [List.map_map]
          exact List.map_id _
    · rw [if_neg fun h => hcompared (mem_settledOf.mp h).2, if_neg hcompared]
      rfl
  · intro p _ e he
    obtain ⟨hkey, hpayment, -⟩ := mem_discrepancies he
    exact ⟨hkey.trans hrun, hpayment⟩

/-- A payment that stays `UNKNOWN` has an exception of the run. -/
theorem stuck_of_exec (hs : s.PaymentsUnique)
    (h : (runReconciliation env tenant).exec s = .ok (run, t)) {payment : Payment}
    (hunknown : payment ∈ s.unknownOf tenant)
    (hstuck : (s.queried env payment).status = .unknown) :
    ∃ row ∈ t.exceptions, row.entry = (tenant, env.gen.runId, payment.id, .stuckUnknown) := by
  obtain ⟨run₁, u, run₂, v, hloop, hcompare, rfl, rfl⟩ := runReconciliation_exec.mp h
  obtain ⟨-, opened, hopened, hentries⟩ := rows_queried hs hloop
  obtain ⟨-, hcompared⟩ := exec_checkSettled hcompare
  obtain ⟨found, matched, hfound, -⟩ := hcompared.opened
  have hentry : (tenant, env.gen.runId, payment.id, .stuckUnknown) ∈ opened.map (·.entry) := by
    rw [hentries]
    refine List.mem_flatMap.mpr ⟨payment, hunknown, ?_⟩
    rw [DB.stuck, if_pos hstuck]
    exact List.mem_singleton_self _
  obtain ⟨row, hrow, hrowEntry⟩ := List.mem_map.mp hentry
  refine ⟨row, ?_, hrowEntry⟩
  change row ∈ v.exceptions
  rw [hfound]
  refine List.mem_append_left _ ?_
  change row ∈ u.exceptions
  rw [hopened]
  exact List.mem_append_right _ hrow

/-- What a run records on a payment is what the provider says about it. -/
theorem recorded_eq (hs : s.PaymentsUnique)
    (h : (runReconciliation env tenant).exec s = .ok (run, t)) {payment : Payment}
    (hmem : payment ∈ s.payments) :
    run.id = env.gen.runId ∧ run.status = .completed ∧
      t.recorded run.id payment.id = (some (s.queriedFor env tenant payment).status,
        (s.exceptions.filter fun row => row.run = env.gen.runId && row.payment = payment.id).map
          (·.exceptionType) ++ s.findings env tenant payment) := by
  obtain ⟨run₁, u, run₂, v, hloop, hcompare, rfl, rfl⟩ := runReconciliation_exec.mp h
  obtain ⟨hrows, opened, hopened, hentries⟩ := rows_queried hs hloop
  have hs₁ : (inTrail (·.addRun (openedRun env tenant)) s).PaymentsUnique := hs
  obtain ⟨-, hresolved⟩ := exec_resolveUnknown_counts hs₁
    (fun p hp => (mem_unknownOf.mp hp).1) (unknownOf_nodup hs) hloop
  obtain ⟨-, hcompared⟩ := exec_checkSettled hcompare
  obtain ⟨found, matched, hfound, hdiscrepancies, -, rfl⟩ := hcompared.opened
  have hrun : run₁.id = env.gen.runId := hresolved.run_id
  have htenant : run₁.tenant = tenant := hresolved.run_tenant
  have hdirectory : (inTrail (·.saveRun run₁) u).toDirectory = s.toDirectory := hresolved.directory
  have hpayments : v.payments = u.payments := congrArg Books.payments hcompared.books
  have hu : u.PaymentsUnique := by
    have hids := congrArg (List.map fun facts => facts.1.1) hrows
    rw [List.map_map, List.map_map] at hids
    have hsame : u.payments.map (·.id) = s.payments.map (·.id) :=
      hids.trans (List.map_congr_left fun row _ => congrArg (·.1) (queriedFor_subject row))
    unfold DB.PaymentsUnique
    rw [hsame]
    exact hs
  -- the row of the payment after the first loop
  have hrow : (s.queriedFor env tenant payment).facts ∈ u.payments.map Payment.facts := by
    rw [hrows]
    exact List.mem_map.mpr ⟨payment, hmem, rfl⟩
  obtain ⟨row, hrow, hfacts⟩ := List.mem_map.mp hrow
  have hsubject : row.subject = payment.subject :=
    (congrArg (·.1) hfacts).trans (queriedFor_subject payment)
  have hid : row.id = payment.id := congrArg (·.1) hsubject
  have howner : row.tenant = payment.tenant := congrArg (·.2.1) hsubject
  refine ⟨hrun, rfl, Prod.ext ?_ ?_⟩
  · have hfind : u.payments.find? (·.id = payment.id) = some row := by
      rw [← hid]
      exact Support.find?_key hu hrow
    change (v.payments.find? (·.id = payment.id)).map (·.status) = _
    rw [hpayments, hfind]
    exact congrArg some (congrArg (·.2.1) hfacts)
  · have hstuck := types_stuck hs hentries hmem
    rw [htenant] at hdiscrepancies
    have hcomparison := types_compared hu hrun hdiscrepancies hrow
    have hsame : u.providerView env row = s.providerView env row :=
      providerView_congr hdirectory row
    have hstatus : row.status = (s.queriedFor env tenant payment).status := congrArg (·.2.1) hfacts
    rw [hsame, providerView_facts hfacts, isCompared_facts hfacts, hstatus, hid, howner]
      at hcomparison
    have hrows : v.exceptions = s.exceptions ++ opened ++ found := by
      rw [hfound]
      exact congrArg (· ++ found) hopened
    change (v.exceptions.filter fun e => e.run = run₁.id && e.payment = payment.id).map
      (·.exceptionType) = _
    rw [hrun, hrows, List.filter_append, List.filter_append, List.map_append, List.map_append,
      hstuck, hcomparison, List.append_assoc, DB.findings]
    congr 1
    by_cases hown : payment.tenant = tenant
    · rw [DB.queriedFor, if_pos hown, if_pos hown]
      simp only [hown, true_and]
    · rw [if_neg hown, if_neg fun h => hown h.1, if_neg fun h => hown h.1]
      rfl

end Run

theorem timedOutPayment_unique : (afterAll smallInstallation timedOutPayment).PaymentsUnique :=
  (balanced_afterAll smallInstallation_initial timedOutPayment).toBooked.keyed

end Kusanya
