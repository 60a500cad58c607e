import Kusanya.Invariants.Confinement
import Kusanya.Invariants.Balances
import Kusanya.Moves.Calls
import Kusanya.Moves.Composed
import Kusanya.Moves.TurnOperations

/-!
# What a reconciliation run counts and touches

`run_reconciliation` queries the payments that are `UNKNOWN` and then compares the settled ones
with the provider.  Its counters are the lengths of what it did, and only the first half writes
to the money tables, for the payments that it queries.
-/

namespace Kusanya

open ReadCommitted

/-- The directory, the runs and the exceptions. -/
def DB.backoffice (db : DB) : Directory × List ReconciliationRun × List ReconciliationException :=
  (db.toDirectory, db.runs, db.exceptions)

/-- A query leaves the rows of reconciliation alone. -/
theorem queryPayment_aside (env : Env) (payment : Payment) :
    (queryPayment env payment).Keeps DB.backoffice := by
  have hcomposed : Composed env (fun _ => False) (queryPayment env payment) := queryPayment_composed
  refine hcomposed.keeps fun w hw s => ?_
  cases hw with
  | extra w h => exact h.elim
  | _ => rfl

/-- The payments that `_check_settled_payments` iterates over. -/
def DB.settledOf (db : DB) (tenant : ℕ) : List Payment :=
  newestFirst (db.payments.filter fun p =>
    p.tenant = tenant && (p.status = .successful || p.status = .failed) &&
      p.providerReference != "")

theorem settledOf_nodup {db : DB} {tenant : ℕ} (h : db.PaymentsUnique) :
    ((db.settledOf tenant).map (·.id)).Nodup :=
  nodup_newestFirst_ids (nodup_filter_ids h _)

/-- The provider's view of a payment, where it has one. -/
def DB.providerView (db : DB) (env : Env) (payment : Payment) : Option ProviderOutcome := do
  let provider ← db.providers.find? (·.id = payment.provider)
  let adapter ← env.registry provider.code
  match adapter.reconcile payment.providerReference with
  | .ok result => some result.outcome
  | .error _ => none

/-- The exceptions that a view of a settled payment calls for: one if the provider does not know
it, one if it knows it in another status, none if the two agree. -/
def PaymentStatus.exceptionsFor (status : PaymentStatus) (view : ProviderOutcome) :
    List ExceptionType :=
  if view = .unknown then [.missingAtProvider]
  else if view.toStatus? = some status then []
  else [.statusMismatch]

/-! ## One payment -/

section Single

variable {env : Env} {payment payment' : Payment} {s t : DB}

theorem adapterOf_silent {κ : Call → Bool} : Txn.Silent κ (adapterOf env payment) :=
  Txn.silent_bind (getRow_onTrail _ _).silent fun _ => getAdapter_silent _

theorem learnReference_silent {κ : Call → Bool} (reference : String) :
    Txn.Silent κ (learnReference payment reference) :=
  Txn.silent_ite (Txn.silent_bind (checkVarchar_onTrail _ _).silent fun _ =>
    Txn.silent_bind (Txn.silent_acquire _) fun _ =>
      Txn.silent_bind (onBooks_silent _) fun _ => Txn.silent_ret _) (Txn.silent_ret _)

/-- A query that returns asked the provider once, about this payment. -/
theorem queryPayment_calls (h : (queryPayment env payment).exec s = .ok (payment', t)) :
    (queryPayment env payment).calls s = [.queryPayment payment.merchantReference] := by
  unfold queryPayment at h ⊢
  obtain ⟨adapter, s₁, hadapter, h₁⟩ := (Txn.exec_bind_ok _).mp h
  obtain ⟨result, s₂, hanswer, h₂⟩ := (Txn.exec_bind_ok _).mp h₁
  obtain ⟨-, -, hcall⟩ := exec_askProvider hanswer
  rw [Txn.calls_bind_ok _ hadapter, Txn.calls_bind_ok _ hanswer, adapterOf_silent.calls, hcall]
  have hrest : ∀ learnt : Payment, Txn.Silent (fun _ => true) (do
      recordAuditEvent env "payment.queried" (some learnt.tenant) (some (.payment learnt.id))
        [] [("provider_outcome", result.outcome.value)]
      applyOutcome env learnt {} result.outcome) := fun learnt =>
    Txn.silent_bind (recordAuditEvent_onTrail _ _ _ _ _ _).silent fun _ => applyOutcome_silent _ _
  rw [(Txn.silent_bind (learnReference_silent _) hrest).calls]
  rfl

/-- A query touches what belongs to its payment. -/
theorem queryPayment_onlyTouches (hs : s.PaymentsUnique) (hmem : payment ∈ s.payments)
    (h : (queryPayment env payment).exec s = .ok (payment', t)) :
    OnlyTouches s.toBooks t.toBooks (· = payment) := by
  have hview : viewOf (fun _ v => v = s) id = View.alone s.toDirectory s.toBooks :=
    viewOf_alone s id
  have hheld : (viewOf (fun _ v => v = s) id).Holds payment := by
    rw [hview, View.holds_alone]
    exact hmem
  have hwp : (queryPayment env payment).wp (fun _ => True) (fun _ v => v = s) id
      (fun after pend => ∃ result ms, Queried env payment result ms after ∧
        Effect (fun _ v => v = s) id ms pend) fun _ _ => True :=
    wp_queryPayment hheld trivial (fun _ _ => trivial)
      fun adapter result ms after pend _ _ hqueried heffect => ⟨result, ms, hqueried, heffect⟩
  obtain ⟨pend, rfl, result, ms, hqueried, heffect⟩ := Txn.exec_ok_of_wp hwp h
  have hbooks : (pend s).toBooks = Move.runAll ms s.toBooks := congrArg Prod.snd (heffect.writes s)
  have hchain := heffect.chain
  rw [hview] at hchain
  rw [hbooks]
  exact hqueried.onlyTouches hchain hs hmem

end Single

/-! ## The payments that are `UNKNOWN` -/

/-- What an exception row says. -/
def ReconciliationException.entry (row : ReconciliationException) : ℕ × ℕ × ℕ × ExceptionType :=
  (row.tenant, row.run, row.payment, row.exceptionType)

section Loops

variable {env : Env} {run run' : ReconciliationRun} {s t : DB}

theorem exec_openException {payment : Payment} {exceptionType : ExceptionType}
    {details : List (String × String)}
    (h : (openException run payment exceptionType details).exec s = .ok (run', t)) :
    run' = { run with exceptionCount := run.exceptionCount + 1 } ∧
      t.toBooks = s.toBooks ∧ t.toDirectory = s.toDirectory ∧ t.runs = s.runs ∧
      ∃ row, t.exceptions = s.exceptions ++ [row] ∧
        row.entry = (run.tenant, run.id, payment.id, exceptionType) := by
  obtain ⟨rfl, rfl⟩ := Prod.mk.inj (Except.ok.inj h)
  exact ⟨rfl, rfl, rfl, rfl, _, rfl, rfl⟩

/-- What the first loop did. -/
structure Resolved (s t : DB) (run run' : ReconciliationRun) (unknown : List Payment) : Prop where
  checked : run'.totalChecked = run.totalChecked + unknown.length
  counted : run'.resolvedUnknownCount + run'.exceptionCount =
    run.resolvedUnknownCount + run.exceptionCount + unknown.length
  matched : run'.matchedCount = run.matchedCount
  run_id : run'.id = run.id
  run_tenant : run'.tenant = run.tenant
  opened : ∃ stuck, t.exceptions = s.exceptions ++ stuck ∧
    run'.exceptionCount = run.exceptionCount + stuck.length ∧
    ∀ row ∈ stuck, ∃ p ∈ unknown, row.entry = (run.tenant, run.id, p.id, .stuckUnknown)
  runs : t.runs = s.runs
  directory : t.toDirectory = s.toDirectory
  touches : OnlyTouches s.toBooks t.toBooks (· ∈ unknown)

theorem Resolved.nil (s : DB) (run : ReconciliationRun) : Resolved s s run run [] where
  checked := rfl
  counted := rfl
  matched := rfl
  run_id := rfl
  run_tenant := rfl
  opened := ⟨[], (List.append_nil _).symm, rfl, fun _ hrow => absurd hrow List.not_mem_nil⟩
  runs := rfl
  directory := rfl
  touches := OnlyTouches.refl _ _

/-- One payment before the others: either it is resolved, or it opens one exception. -/
theorem Resolved.cons {u v : DB} {payment : Payment} {rest : List Payment}
    {middle : ReconciliationRun} (hs : s.PaymentsUnique) (hmem : payment ∈ s.payments)
    (hrest : ∀ p ∈ rest, p ∈ s.payments) (haside : u.backoffice = s.backoffice)
    (htouches : OnlyTouches s.toBooks u.toBooks (· = payment))
    (hbooks : v.toBooks = u.toBooks) (hdirectory : v.toDirectory = u.toDirectory)
    (hruns : v.runs = u.runs) {opened : List ReconciliationException}
    (hopened : v.exceptions = u.exceptions ++ opened)
    (hentries : ∀ row ∈ opened, row.entry = (run.tenant, run.id, payment.id, .stuckUnknown))
    (hmiddle : ∃ resolved, resolved + opened.length = 1 ∧
      middle = { run with
        totalChecked := run.totalChecked + 1
        resolvedUnknownCount := run.resolvedUnknownCount + resolved
        exceptionCount := run.exceptionCount + opened.length })
    (h : Resolved v t middle run' rest) : Resolved s t run run' (payment :: rest) := by
  obtain ⟨resolved, hone, rfl⟩ := hmiddle
  have hkept : u.toDirectory = s.toDirectory ∧ u.runs = s.runs ∧ u.exceptions = s.exceptions :=
    ⟨congrArg (·.1) haside, congrArg (·.2.1) haside, congrArg (·.2.2) haside⟩
  constructor
  · rw [h.checked, List.length_cons]
    dsimp only
    omega
  · have hcounted := h.counted
    dsimp only at hcounted
    rw [List.length_cons]
    omega
  · exact h.matched
  · exact h.run_id
  · exact h.run_tenant
  · obtain ⟨stuck, hstuck, hcount, hrows⟩ := h.opened
    refine ⟨opened ++ stuck, ?_, ?_, fun row hrow => ?_⟩
    · rw [hstuck, hopened, hkept.2.2, List.append_assoc]
    · rw [hcount, List.length_append]
      dsimp only
      omega
    · rcases List.mem_append.mp hrow with hrow | hrow
      · exact ⟨payment, List.mem_cons_self, hentries row hrow⟩
      · obtain ⟨p, hp, hentry⟩ := hrows row hrow
        exact ⟨p, List.mem_cons_of_mem _ hp, hentry⟩
  · exact h.runs.trans (hruns.trans hkept.2.1)
  · exact h.directory.trans (hdirectory.trans hkept.1)
  · have hfirst : OnlyTouches s.toBooks v.toBooks (· ∈ payment :: rest) := by
      rw [hbooks]
      exact ⟨htouches.toConfined.mono fun p _ hp => hp ▸ List.mem_cons_self, by
        obtain ⟨new, hnew, hevents⟩ := htouches.revenue
        refine ⟨new, hnew, fun e he => ?_⟩
        obtain ⟨p, hp, rfl, hsource⟩ := hevents e he
        exact ⟨p, hp, List.mem_cons_self, hsource⟩, htouches.controlNumbers⟩
    refine hfirst.trans h.touches hs fun p _ hp => ?_
    exact ⟨p, hrest p hp, List.mem_cons_of_mem _ hp, rfl, rfl⟩

/-- The first loop. -/
theorem exec_resolveUnknown_counts {unknown : List Payment} (hs : s.PaymentsUnique)
    (hunknown : ∀ p ∈ unknown, p ∈ s.payments) (hnodup : (unknown.map (·.id)).Nodup)
    (h : (resolveUnknown env run unknown).exec s = .ok (run', t)) :
    (resolveUnknown env run unknown).calls s =
        unknown.map (fun p => Call.queryPayment p.merchantReference) ∧
      Resolved s t run run' unknown := by
  induction unknown generalizing run s with
  | nil =>
      obtain ⟨rfl, rfl⟩ := Prod.mk.inj (Except.ok.inj h)
      exact ⟨rfl, Resolved.nil _ _⟩
  | cons payment rest ih =>
      obtain ⟨hfirst, hothers⟩ := List.nodup_cons.mp hnodup
      have hmem := hunknown payment List.mem_cons_self
      have hrest : ∀ p ∈ rest, p ∈ s.payments := fun p hp =>
        hunknown p (List.mem_cons_of_mem _ hp)
      unfold resolveUnknown at h ⊢
      obtain ⟨payment', u, hquery, h₁⟩ := (Txn.exec_bind_ok _).mp h
      have hturn := exec_queryPayment hs hmem hquery
      have haside := queryPayment_aside env payment s _ _ hquery
      have htouches := queryPayment_onlyTouches hs hmem hquery
      have hu := hturn.unique hs
      have hkept : ∀ p ∈ rest, p ∈ u.payments := by
        intro p hp
        rw [hturn.payments]
        refine List.mem_map.mpr ⟨p, hrest p hp, if_neg fun hid => hfirst ?_⟩
        exact List.mem_map.mpr ⟨p, hp, hid⟩
      rw [Txn.calls_bind_ok _ hquery, queryPayment_calls hquery, List.map_cons,
        ← List.singleton_append]
      dsimp only at h₁ ⊢
      by_cases hresolved : payment'.status ≠ .unknown
      · rw [if_pos hresolved] at h₁ ⊢
        obtain ⟨hcalls, hdone⟩ := ih hu hkept hothers h₁
        refine ⟨congrArg (_ :: ·) hcalls, hdone.cons hs hmem hrest haside htouches rfl rfl rfl
          (List.append_nil _).symm (fun _ hrow => absurd hrow List.not_mem_nil) ⟨1, rfl, rfl⟩⟩
      · rw [if_neg hresolved] at h₁ ⊢
        obtain ⟨middle, v, hopen, h₂⟩ := (Txn.exec_bind_ok _).mp h₁
        have hid : payment'.id = payment.id := hturn.id
        obtain ⟨rfl, hbooks, hdirectory, hruns, row, hrow, hentry⟩ := exec_openException hopen
        have hv : v.PaymentsUnique := by
          unfold DB.PaymentsUnique
          rw [hbooks]
          exact hu
        obtain ⟨hcalls, hdone⟩ := ih hv (by rw [hbooks]; exact hkept) hothers h₂
        rw [Txn.calls_bind_ok _ hopen]
        refine ⟨congrArg (_ :: ·) hcalls, ?_⟩
        refine hdone.cons hs hmem hrest haside htouches hbooks hdirectory hruns hrow ?_
          ⟨0, rfl, rfl⟩
        intro row' hrow'
        rw [List.mem_singleton.mp hrow', hentry, hid]

/-! ## The settled payments -/

/-- The exceptions that the second loop opens for a payment. -/
def Payment.discrepancies (payment : Payment) (run : ReconciliationRun)
    (view : Option ProviderOutcome) : List (ℕ × ℕ × ℕ × ExceptionType) :=
  match view with
  | none => []
  | some view => (payment.status.exceptionsFor view).map fun exceptionType =>
      (run.tenant, run.id, payment.id, exceptionType)

/-- What the second loop did. -/
structure Compared (env : Env) (s t : DB) (run run' : ReconciliationRun) (settled : List Payment) :
    Prop where
  viewed : ∀ p ∈ settled, (s.providerView env p).isSome
  opened : ∃ found matched, t.exceptions = s.exceptions ++ found ∧
    found.map (·.entry) = settled.flatMap (fun p => p.discrepancies run (s.providerView env p)) ∧
    matched + found.length = settled.length ∧
    run' = { run with
      totalChecked := run.totalChecked + settled.length
      matchedCount := run.matchedCount + matched
      exceptionCount := run.exceptionCount + found.length }
  runs : t.runs = s.runs
  books : t.toBooks = s.toBooks
  directory : t.toDirectory = s.toDirectory

theorem compareWithProvider_onTrail (payment : Payment) (outcome : ProviderOutcome) :
    OnTrail (compareWithProvider run payment outcome) :=
  Txn.frame_ite (openException_onTrail _ _ _ _)
    (Txn.frame_ite (openException_onTrail _ _ _ _) (Txn.frame_ret _))

theorem exec_compareWithProvider {payment : Payment} {outcome : ProviderOutcome}
    (h : (compareWithProvider run payment outcome).exec s = .ok (run', t)) :
    t.toBooks = s.toBooks ∧ t.toDirectory = s.toDirectory ∧ t.runs = s.runs ∧
      ∃ found, t.exceptions = s.exceptions ++ found ∧
        found.map (·.entry) = payment.discrepancies run (some outcome) ∧
        ∃ matched, matched + found.length = 1 ∧
          run' = { run with
            matchedCount := run.matchedCount + matched
            exceptionCount := run.exceptionCount + found.length } := by
  unfold compareWithProvider at h
  by_cases hmissing : outcome = .unknown
  · rw [if_pos hmissing] at h
    obtain ⟨rfl, hbooks, hdirectory, hruns, row, hrow, hentry⟩ := exec_openException h
    refine ⟨hbooks, hdirectory, hruns, [row], hrow, ?_, 0, rfl, rfl⟩
    rw [List.map_singleton, hentry, Payment.discrepancies, PaymentStatus.exceptionsFor,
      if_pos hmissing]
    rfl
  · rw [if_neg hmissing] at h
    by_cases hsame : outcome.toStatus? = some payment.status
    · rw [if_neg (not_not.mpr hsame)] at h
      obtain ⟨rfl, rfl⟩ := Prod.mk.inj (Except.ok.inj h)
      refine ⟨rfl, rfl, rfl, [], (List.append_nil _).symm, ?_, 1, rfl, rfl⟩
      rw [Payment.discrepancies, PaymentStatus.exceptionsFor, if_neg hmissing, if_pos hsame]
      rfl
    · rw [if_pos hsame] at h
      obtain ⟨rfl, hbooks, hdirectory, hruns, row, hrow, hentry⟩ := exec_openException h
      refine ⟨hbooks, hdirectory, hruns, [row], hrow, ?_, 0, rfl, rfl⟩
      rw [List.map_singleton, hentry, Payment.discrepancies, PaymentStatus.exceptionsFor,
        if_neg hmissing, if_neg hsame]
      rfl

theorem discrepancies_counters {payment : Payment} {view : Option ProviderOutcome}
    (hid : run'.id = run.id) (htenant : run'.tenant = run.tenant) :
    payment.discrepancies run' view = payment.discrepancies run view := by
  unfold Payment.discrepancies
  rw [hid, htenant]

/-- The second loop. -/
theorem exec_checkSettled {settled : List Payment}
    (h : (checkSettled env run settled).exec s = .ok (run', t)) :
    (checkSettled env run settled).calls s =
        settled.map (fun p => Call.reconcile p.providerReference) ∧
      Compared env s t run run' settled := by
  induction settled generalizing run s with
  | nil =>
      obtain ⟨rfl, rfl⟩ := Prod.mk.inj (Except.ok.inj h)
      refine ⟨rfl, fun p hp => absurd hp List.not_mem_nil, ?_, rfl, rfl, rfl⟩
      exact ⟨[], 0, (List.append_nil _).symm, rfl, rfl, rfl⟩
  | cons payment rest ih =>
      unfold checkSettled at h ⊢
      obtain ⟨adapter, s₁, hadapter, h₁⟩ := (Txn.exec_bind_ok _).mp h
      obtain ⟨result, s₂, hanswer, h₂⟩ := (Txn.exec_bind_ok _).mp h₁
      obtain ⟨middle, u, hcompare, h₃⟩ := (Txn.exec_bind_ok _).mp h₂
      obtain ⟨rfl, provider, hprovider, hregistered⟩ := exec_adapterOf hadapter
      obtain ⟨rfl, hresult, hcall⟩ := exec_askProvider hanswer
      obtain ⟨hbooks, hdirectory, hruns, found, hfound, hentries, matched, hone, rfl⟩ :=
        exec_compareWithProvider hcompare
      obtain ⟨hcalls, hrest⟩ := ih h₃
      have hview : s₂.providerView env payment = some result.outcome := by
        simp [DB.providerView, hprovider, hregistered, hresult]
      have hsame : ∀ p, u.providerView env p = s₂.providerView env p := by
        intro p
        unfold DB.providerView
        rw [hdirectory]
      have hsilent : Txn.Silent (fun _ => true) (compareWithProvider
          { run with totalChecked := run.totalChecked + 1 } payment result.outcome) :=
        (compareWithProvider_onTrail _ _).silent
      constructor
      · rw [Txn.calls_bind_ok _ hadapter, Txn.calls_bind_ok _ hanswer,
          Txn.calls_bind_ok _ hcompare, adapterOf_silent.calls, hcall, hsilent.calls, hcalls]
        rfl
      · constructor
        · intro p hp
          rcases List.mem_cons.mp hp with rfl | hp
          · rw [hview]
            rfl
          · rw [← hsame]
            exact hrest.viewed p hp
        · obtain ⟨found', matched', hfound', hentries', hall, rfl⟩ := hrest.opened
          refine ⟨found ++ found', matched + matched', ?_, ?_, ?_, ?_⟩
          · rw [hfound', hfound, List.append_assoc]
          · rw [List.map_append, hentries, hentries', List.flatMap_cons, hview]
            congr 1
            refine List.flatMap_congr fun p _ => ?_
            rw [hsame]
            exact discrepancies_counters rfl rfl
          · rw [List.length_append, List.length_cons]
            omega
          · rw [List.length_append, List.length_cons]
            congr 1 <;> dsimp only <;> omega
        · exact hrest.runs.trans hruns
        · exact hrest.books.trans hbooks
        · exact hrest.directory.trans hdirectory

end Loops

/-! ## The run -/

/-- What a run for `tenant` counted, opened, asked and touched. -/
structure Accounted (env : Env) (tenant : ℕ) (s t : DB) (run : ReconciliationRun) : Prop where
  stored : run ∈ t.runs
  total : run.totalChecked = run.matchedCount + run.exceptionCount + run.resolvedUnknownCount
  opened : ∃ stuck found, t.exceptions = s.exceptions ++ (stuck ++ found) ∧
    run.exceptionCount = (stuck ++ found).length ∧
    (∀ row ∈ stuck, ∃ p ∈ s.unknownOf tenant,
      row.entry = (tenant, run.id, p.id, .stuckUnknown)) ∧
    found.map (·.entry) =
      (t.settledOf tenant).flatMap (fun p => p.discrepancies run (t.providerView env p))
  viewed : ∀ p ∈ t.settledOf tenant, (t.providerView env p).isSome
  calls : (runReconciliation env tenant).calls s =
    (s.unknownOf tenant).map (fun p => Call.queryPayment p.merchantReference) ++
      (t.settledOf tenant).map fun p => Call.reconcile p.providerReference
  touches : OnlyTouches s.toBooks t.toBooks (· ∈ s.unknownOf tenant)

section Run

variable {env : Env} {tenant : ℕ} {run run' : ReconciliationRun} {s t : DB}

theorem exec_resolveUnknownPayments (hs : s.PaymentsUnique)
    (h : (resolveUnknownPayments env run).exec s = .ok (run', t)) :
    (resolveUnknownPayments env run).calls s =
        (s.unknownOf run.tenant).map (fun p => Call.queryPayment p.merchantReference) ∧
      ∃ u, Resolved s u run run' (s.unknownOf run.tenant) ∧ t = inTrail (·.saveRun run') u := by
  unfold resolveUnknownPayments at h ⊢
  have hfound : newestFirst (s.payments.filter fun p =>
      p.tenant = run.tenant && p.status = .unknown) = s.unknownOf run.tenant := rfl
  rw [Txn.exec_bind, Txn.exec_fetch] at h
  dsimp only at h
  rw [hfound] at h
  obtain ⟨run'', u, hloop, h₁⟩ := (Txn.exec_bind_ok _).mp h
  obtain ⟨rfl, rfl⟩ := Prod.mk.inj (Except.ok.inj h₁)
  obtain ⟨hcalls, hresolved⟩ := exec_resolveUnknown_counts hs
    (fun p hp => (mem_unknownOf.mp hp).1) (unknownOf_nodup hs) hloop
  refine ⟨?_, u, hresolved, rfl⟩
  rw [Txn.calls_bind, Txn.exec_fetch]
  dsimp only
  rw [hfound, Txn.calls_bind_ok _ hloop, hcalls]
  exact List.append_nil _

theorem exec_checkSettledPayments
    (h : (checkSettledPayments env run).exec s = .ok (run', t)) :
    (checkSettledPayments env run).calls s =
        (s.settledOf run.tenant).map (fun p => Call.reconcile p.providerReference) ∧
      ∃ u, Compared env s u run run' (s.settledOf run.tenant) ∧
        t = inTrail (·.saveRun run') u := by
  unfold checkSettledPayments at h ⊢
  have hfound : newestFirst (s.payments.filter fun p =>
      p.tenant = run.tenant && (p.status = .successful || p.status = .failed) &&
        p.providerReference != "") = s.settledOf run.tenant := rfl
  rw [Txn.exec_bind, Txn.exec_fetch] at h
  dsimp only at h
  rw [hfound] at h
  obtain ⟨run'', u, hloop, h₁⟩ := (Txn.exec_bind_ok _).mp h
  obtain ⟨rfl, rfl⟩ := Prod.mk.inj (Except.ok.inj h₁)
  obtain ⟨hcalls, hcompared⟩ := exec_checkSettled hloop
  refine ⟨?_, u, hcompared, rfl⟩
  rw [Txn.calls_bind, Txn.exec_fetch]
  dsimp only
  rw [hfound, Txn.calls_bind_ok _ hloop, hcalls]
  exact List.append_nil _

theorem mem_saveRun {row : ReconciliationRun} (hrow : row ∈ s.runs) (hid : row.id = run.id) :
    run ∈ (inTrail (·.saveRun run) s).runs :=
  List.mem_map.mpr ⟨row, hrow, if_pos hid⟩

/-- A run that returns has accounted for what it did. -/
theorem accounted_of_exec (hs : s.PaymentsUnique)
    (h : (runReconciliation env tenant).exec s = .ok (run, t)) : Accounted env tenant s t run := by
  obtain ⟨_, s₁, hadd, h₁⟩ := (Txn.exec_bind_ok _).mp h
  obtain ⟨run₁, s₂, hresolve, h₂⟩ := (Txn.exec_bind_ok _).mp h₁
  obtain ⟨run₂, s₃, hcheck, h₃⟩ := (Txn.exec_bind_ok _).mp h₂
  obtain ⟨_, s₄, hsave, h₄⟩ := (Txn.exec_bind_ok _).mp h₃
  have hcalls : (runReconciliation env tenant).calls s =
      (resolveUnknownPayments env (openedRun env tenant)).calls s₁ ++
        (checkSettledPayments env run₁).calls s₂ := by
    unfold runReconciliation
    dsimp only
    rw [Txn.calls_bind_ok _ hadd, Txn.calls_bind_ok _ hresolve, Txn.calls_bind_ok _ hcheck]
    exact congrArg ((resolveUnknownPayments env (openedRun env tenant)).calls s₁ ++ ·)
      (List.append_nil _)
  obtain ⟨rfl, rfl⟩ := Prod.mk.inj (Except.ok.inj h₄)
  obtain ⟨-, rfl⟩ := Prod.mk.inj (Except.ok.inj hadd)
  obtain ⟨hqueried, u, hresolved, rfl⟩ := exec_resolveUnknownPayments (by exact hs) hresolve
  obtain ⟨hreconciled, v, hcompared, rfl⟩ := exec_checkSettledPayments hcheck
  obtain ⟨-, rfl⟩ := Prod.mk.inj (Except.ok.inj hsave)
  have htenant : run₁.tenant = tenant := hresolved.run_tenant
  have hid : run₁.id = (openedRun env tenant).id := hresolved.run_id
  obtain ⟨stuck, hstuck, hcount, hrows⟩ := hresolved.opened
  obtain ⟨found, matched, hfound, hentries, hlength, rfl⟩ := hcompared.opened
  have hpayments : v.payments = u.payments := congrArg Books.payments hcompared.books
  have hsettled : v.settledOf tenant = u.settledOf run₁.tenant := by
    unfold DB.settledOf
    rw [hpayments, htenant]
  have hview : ∀ p, v.providerView env p = u.providerView env p := by
    intro p
    unfold DB.providerView
    rw [hcompared.directory]
    rfl
  constructor
  · have hopened : openedRun env tenant ∈ u.runs := by
      rw [hresolved.runs]
      exact List.mem_append_right _ (List.mem_singleton_self _)
    have hsaved : run₁ ∈ v.runs := by
      rw [hcompared.runs]
      exact mem_saveRun hopened hid.symm
    exact mem_saveRun (mem_saveRun hsaved rfl) rfl
  · have hchecked := hresolved.checked
    have hcounted := hresolved.counted
    have hmatched := hresolved.matched
    dsimp only [openedRun] at hchecked hcounted hmatched ⊢
    omega
  · refine ⟨stuck, found, ?_, ?_, ?_, ?_⟩
    · change v.exceptions = _
      rw [hfound]
      change u.exceptions ++ found = _
      rw [hstuck, List.append_assoc]
      rfl
    · rw [List.length_append]
      dsimp only [openedRun] at hcount ⊢
      omega
    · intro row hrow
      obtain ⟨p, hp, hentry⟩ := hrows row hrow
      refine ⟨p, hp, ?_⟩
      rw [hentry]
      dsimp only
      rw [hid]
      rfl
    · rw [hentries]
      change _ = (v.settledOf tenant).flatMap _
      rw [hsettled]
      refine List.flatMap_congr fun p _ => ?_
      change _ = Payment.discrepancies p _ (v.providerView env p)
      rw [hview]
      rfl
  · intro p hp
    have hp' : p ∈ v.settledOf tenant := hp
    rw [hsettled] at hp'
    change (v.providerView env p).isSome = true
    rw [hview]
    exact hcompared.viewed p hp'
  · have hlist : (v.settledOf tenant).map (fun p => Call.reconcile p.providerReference) =
        (u.settledOf run₁.tenant).map fun p => Call.reconcile p.providerReference := by
          rw [hsettled]
    exact hcalls.trans (congrArg₂ (· ++ ·) hqueried (hreconciled.trans hlist.symm))
  · have htouches := hresolved.touches
    change OnlyTouches s.toBooks v.toBooks _
    rw [hcompared.books]
    exact htouches

/-- The exceptions of a run. -/
def DB.exceptionsOf (db : DB) (run : ℕ) : List ReconciliationException :=
  db.exceptions.filter (·.run = run)

theorem mem_discrepancies {payment : Payment} {view : Option ProviderOutcome}
    {entry : ℕ × ℕ × ℕ × ExceptionType} (h : entry ∈ payment.discrepancies run view) :
    entry.2.1 = run.id ∧ entry.2.2.1 = payment.id ∧ entry.2.2.2 ≠ .stuckUnknown := by
  unfold Payment.discrepancies at h
  cases view with
  | none => cases h
  | some view =>
      obtain ⟨exceptionType, htype, rfl⟩ := List.mem_map.mp h
      refine ⟨rfl, rfl, ?_⟩
      unfold PaymentStatus.exceptionsFor at htype
      split at htype
      · rw [List.mem_singleton.mp htype]
        simp
      · split at htype
        · cases htype
        · rw [List.mem_singleton.mp htype]
          simp

/-- The rows of a new run are those that it opened. -/
theorem Accounted.exceptionsOf (h : Accounted env tenant s t run)
    (hnew : ∀ row ∈ s.exceptions, row.run ≠ run.id) :
    ∃ stuck found, t.exceptionsOf run.id = stuck ++ found ∧
      run.exceptionCount = (stuck ++ found).length ∧
      (∀ row ∈ stuck, row.exceptionType = .stuckUnknown) ∧
      found.map (·.entry) =
        (t.settledOf tenant).flatMap fun p => p.discrepancies run (t.providerView env p) := by
  obtain ⟨stuck, found, hrows, hcount, hstuck, hfound⟩ := h.opened
  have hold : s.exceptions.filter (·.run = run.id) = [] := by
    rw [List.filter_eq_nil_iff]
    intro row hrow hrun
    exact hnew row hrow (of_decide_eq_true hrun)
  have hall : (stuck ++ found).filter (·.run = run.id) = stuck ++ found := by
    rw [List.filter_eq_self]
    intro row hrow
    rw [decide_eq_true_eq]
    rcases List.mem_append.mp hrow with hrow | hrow
    · obtain ⟨p, -, hentry⟩ := hstuck row hrow
      exact congrArg (·.2.1) hentry
    · have hmem : row.entry ∈ found.map (·.entry) := List.mem_map_of_mem hrow
      rw [hfound] at hmem
      obtain ⟨p, -, hentry⟩ := List.mem_flatMap.mp hmem
      exact (mem_discrepancies hentry).1
  refine ⟨stuck, found, ?_, hcount, fun row hrow => ?_, hfound⟩
  · rw [DB.exceptionsOf, hrows, List.filter_append, hold, hall, List.nil_append]
  · obtain ⟨p, -, hentry⟩ := hstuck row hrow
    exact congrArg (·.2.2.2) hentry

end Run

/-- Run alone, `run_reconciliation` queries each `UNKNOWN` payment once, compares each settled
one once, counts what it did, and touches only what belongs to the payments that it queried.
Where the key of the run is new, its exceptions are as many as it counts, and each compared
payment has those that the provider's view calls for. -/
theorem reconciliation_accounting (env : Env) (tenant : ℕ) (s : DB) (hs : s.PaymentsUnique)
    (run : ReconciliationRun) (t : DB) (h : (runReconciliation env tenant).exec s = .ok (run, t)) :
    Accounted env tenant s t run ∧ ((∀ row ∈ s.exceptions, row.run ≠ run.id) →
      (t.exceptionsOf run.id).length = run.exceptionCount ∧
      ∀ p ∈ t.settledOf tenant, ∃ view, t.providerView env p = some view ∧
        ((t.exceptionsOf run.id).filter fun row =>
          row.payment = p.id && row.exceptionType ≠ .stuckUnknown).map (·.exceptionType) =
            p.status.exceptionsFor view) := by
  have haccounted := accounted_of_exec hs h
  refine ⟨haccounted, fun hnew => ?_⟩
  obtain ⟨stuck, found, hrows, hcount, hstuck, hfound⟩ := haccounted.exceptionsOf hnew
  refine ⟨by rw [hrows, hcount], fun p hp => ?_⟩
  obtain ⟨view, hview⟩ := Option.isSome_iff_exists.mp (haccounted.viewed p hp)
  refine ⟨view, hview, ?_⟩
  have hunique : ((t.settledOf tenant).map (·.id)).Nodup :=
    settledOf_nodup ((exec_runReconciliation hs h).unique hs)
  have hentry : ∀ row ∈ found, row.exceptionType ≠ .stuckUnknown := by
    intro row hrow
    have hmem : row.entry ∈ found.map (·.entry) := List.mem_map_of_mem hrow
    rw [hfound] at hmem
    obtain ⟨q, -, hq⟩ := List.mem_flatMap.mp hmem
    exact (mem_discrepancies hq).2.2
  have hnone : (stuck.filter fun row =>
      row.payment = p.id && row.exceptionType ≠ .stuckUnknown) = [] := by
    rw [List.filter_eq_nil_iff]
    intro row hrow
    simp [hstuck row hrow]
  have hown : (found.filter fun row =>
      row.payment = p.id && row.exceptionType ≠ .stuckUnknown) =
        found.filter fun row => row.entry.2.2.1 = p.id := by
    refine List.filter_congr fun row hrow => ?_
    rw [Bool.eq_iff_iff, Bool.and_eq_true, decide_eq_true_iff, decide_eq_true_iff,
      decide_eq_true_iff]
    exact and_iff_left (hentry row hrow)
  have hkeys : (found.map (·.entry)).filter (fun entry => entry.2.2.1 = p.id) =
      p.discrepancies run (some view) := by
    rw [hfound,
      Support.filter_flatMap_key hunique (fun q _ entry hq => (mem_discrepancies hq).2.1) hp, hview]
  rw [List.filter_map] at hkeys
  rw [hrows, List.filter_append, hnone, hown, List.nil_append]
  have htypes := congrArg (List.map fun entry => entry.2.2.2) hkeys
  rw [List.map_map, Payment.discrepancies, List.map_map] at htypes
  exact htypes.trans (List.map_id _)

/-- A bill whose payment the provider has settled. -/
def settledPayment : List Request :=
  [issueBill, payIssuedBill 2 (answering .successful "p" "") (amountOf 4000)]

/-- The provider now says that it failed: one mismatch, and nothing is corrected. -/
theorem reconciliation_accounting_mismatch :
    ∃ run t, (runReconciliation (envAt 3 (answering .failed "p" "")) 1).exec
        (afterAll smallInstallation settledPayment) = .ok (run, t) ∧
      run.totalChecked = 1 ∧ (t.exceptionsOf run.id).length = run.exceptionCount ∧
      run.exceptionCount = 1 := by
  have hs : (afterAll smallInstallation settledPayment).PaymentsUnique :=
    (balanced_afterAll smallInstallation_initial settledPayment).toBooked.keyed
  have hcounts : (match (runReconciliation (envAt 3 (answering .failed "p" "")) 1).exec
      (afterAll smallInstallation settledPayment) with
    | .ok (run, _) => run.totalChecked == 1 && run.exceptionCount == 1
    | .error _ => false) = true := by decide +kernel
  have hnone : (afterAll smallInstallation settledPayment).exceptions.length = 0 := by
    decide +kernel
  cases h : (runReconciliation (envAt 3 (answering .failed "p" "")) 1).exec
      (afterAll smallInstallation settledPayment) with
  | error e =>
      rw [h] at hcounts
      cases hcounts
  | ok r =>
      obtain ⟨run, t⟩ := r
      rw [h] at hcounts
      simp only [Bool.and_eq_true, beq_iff_eq] at hcounts
      have hrows := (reconciliation_accounting _ _ _ hs run t h).2
      rw [List.length_eq_zero_iff.mp hnone] at hrows
      exact ⟨run, t, rfl, hcounts.1, (hrows fun _ hrow => absurd hrow List.not_mem_nil).1,
        hcounts.2⟩

end Kusanya
