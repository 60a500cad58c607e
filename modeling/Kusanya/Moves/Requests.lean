import Kusanya.Moves.Operations
import Kusanya.Moves.Billing
import Kusanya.Moves.Tables

/-!
# The moves of a request

Reconciliation, settlement and the views: whatever its reads find, a request does
to the money tables what `Action.Moves` lists for it, each move with its guard.
-/

namespace Kusanya

open ReadCommitted

variable {κ : Call → Prop} {φ : Resource → DB → Prop} {pend : DB → DB}
variable {R : Error → (DB → DB) → Prop} {env : Env}

/-! ## Rows that a move leaves alone -/

theorem mem_run_payments {m : Move} {b : Books} {row : Payment} (h : row ∈ b.payments)
    (hm : m.onPayment row = row) : row ∈ (m.run b).payments := by
  rw [Move.run_payments]
  exact List.mem_append_left _ (List.mem_map.mpr ⟨row, h, hm⟩)

theorem mem_runAll_payments {ms : List Move} {b : Books} {row : Payment} (h : row ∈ b.payments)
    (hms : ∀ m ∈ ms, m.onPayment row = row) : row ∈ (Move.runAll ms b).payments := by
  induction ms generalizing b with
  | nil => exact h
  | cons m ms ih =>
      exact ih (mem_run_payments h (hms m List.mem_cons_self)) fun m' hm' =>
        hms m' (List.mem_cons_of_mem _ hm')

/-- A row keeps its status through moves that save none. -/
theorem runAll_status_kept {ms : List Move} {b : Books} {row : Payment} (h : row ∈ b.payments)
    (hms : ∀ m ∈ ms, m.entered = none) :
    ∃ q ∈ (Move.runAll ms b).payments, q.id = row.id ∧ q.status = row.status := by
  induction ms generalizing b row with
  | nil => exact ⟨row, h, rfl, rfl⟩
  | cons m ms ih =>
      have hnext : m.onPayment row ∈ (m.run b).payments := by
        rw [Move.run_payments]
        exact List.mem_append_left _ (List.mem_map_of_mem h)
      obtain ⟨q, hq, hid, hstatus⟩ := ih hnext fun m' hm' => hms m' (List.mem_cons_of_mem _ hm')
      refine ⟨q, hq, hid.trans (m.onPayment_id row), hstatus.trans ?_⟩
      rw [m.onPayment_status row, hms m List.mem_cons_self]

/-- An outcome for one payment leaves the other payments alone. -/
theorem Applied.onPayment_other {payment after : Payment} {outcome : ProviderOutcome}
    {ms : List Move} (h : Applied env payment outcome ms after) {row : Payment}
    (hrow : row.id ≠ payment.id) : ∀ m ∈ ms, m.onPayment row = row := by
  have hmoved : ∀ new : PaymentStatus, row.id ≠ (payment.moveTo env.now new "").id := fun _ => hrow
  cases h with
  | inconclusive | repeated => simp
  | unknown | pending =>
      intro m hm
      obtain rfl := List.mem_singleton.mp hm
      exact if_neg (hmoved _)
  | failed =>
      intro m hm
      rcases List.mem_cons.mp hm with rfl | hm
      · exact if_neg (hmoved _)
      · obtain rfl := List.mem_singleton.mp hm
        rfl
  | successful _ s _ hpayment =>
      intro m hm
      obtain rfl := List.mem_singleton.mp hm
      exact if_neg (hpayment ▸ hmoved _)

theorem Learned.id_eq {payment object : Payment} {reference : String} {ms : List Move}
    (h : Learned payment reference ms object) : object.id = payment.id := by
  cases h <;> rfl

theorem Queried.onPayment_other {payment after : Payment} {result : ProviderResult}
    {ms : List Move} (h : Queried env payment result ms after) {row : Payment}
    (hrow : row.id ≠ payment.id) : ∀ m ∈ ms, m.onPayment row = row := by
  obtain ⟨hlearned, happlied⟩ := h
  intro m hm
  rcases List.mem_append.mp hm with hm | hm
  · cases hlearned with
    | known => cases hm
    | learned =>
        obtain rfl := List.mem_singleton.mp hm
        exact if_neg hrow
  · exact happlied.onPayment_other (hlearned.id_eq ▸ hrow) m hm

/-! ## Reconciliation -/

theorem Serves.of_map {view : View} {w : Books → Books} {payment : Payment} {adapter : Adapter}
    (h : Serves (view.map w) env payment adapter) : Serves view env payment adapter := by
  obtain ⟨provider, hsees, hadapter⟩ := h
  rw [View.sees_map] at hsees
  exact ⟨provider, hsees, hadapter⟩

/-- The moves of the queries of a reconciliation run. -/
inductive Reconciled (view : View) (env : Env) : List Payment → List Move → Prop
  | nil : Reconciled view env [] []
  | cons {payment after : Payment} {payments : List Payment} {adapter : Adapter}
      {result : ProviderResult} {ms ms' : List Move} (serves : Serves view env payment adapter)
      (answer : adapter.queryPayment payment.merchantReference = .ok result)
      (queried : Queried env payment result ms after)
      (rest : Reconciled view env payments ms') :
      Reconciled view env (payment :: payments) (ms ++ ms')

theorem Reconciled.of_map {view : View} {w : Books → Books} {payments : List Payment}
    {ms : List Move} (h : Reconciled (view.map w) env payments ms) :
    Reconciled view env payments ms := by
  induction h with
  | nil => exact .nil
  | cons serves answer queried _ ih => exact .cons serves.of_map answer queried ih

theorem openException_onTrail (run : ReconciliationRun) (payment : Payment)
    (exceptionType : ExceptionType) (details : List (String × String)) :
    OnTrail (openException run payment exceptionType details) :=
  Txn.frame_bind (onTrail_onTrail _) fun _ => Txn.frame_ret _

theorem wp_resolveUnknown {Q : ReconciliationRun → (DB → DB) → Prop} {payments : List Payment}
    (hκ : ∀ r, κ (.queryPayment r)) (hR : ∀ e p, R e p)
    (hheld : ∀ payment ∈ payments, (viewOf φ pend).Holds payment)
    (hnodup : (payments.map (·.id)).Nodup)
    (hQ : ∀ run ms pend', Reconciled (viewOf φ pend) env payments ms → Effect φ pend ms pend' →
      Q run pend') (run : ReconciliationRun) :
    (resolveUnknown env run payments).wp κ φ pend Q R := by
  induction payments generalizing pend run with
  | nil => exact hQ run [] pend .nil Effect.refl
  | cons payment payments ih =>
      obtain ⟨hfresh, hnodup⟩ := List.nodup_cons.mp hnodup
      simp only [resolveUnknown, Txn.wp_bind]
      refine wp_queryPayment (hheld payment List.mem_cons_self) (hκ _) hR
        fun adapter result ms after p₁ hserves hanswer hqueried h₁ => ?_
      have hother : ∀ row ∈ payments, row.id ≠ payment.id := fun row hrow hid =>
        hfresh (List.mem_map.mpr ⟨row, hrow, hid⟩)
      -- the rest of the list was loaded before the loop and is still current
      have hrest : ∀ p, (∀ s, (p s).core = (p₁ s).core) → ∀ run,
          (resolveUnknown env run payments).wp κ φ p Q R := by
        intro p hp run
        have heffect : Effect φ pend ms p := h₁.then_core hp
        refine ih (fun row hrow => ?_) hnodup (fun run ms' p₂ hreconciled h₂ => ?_) run
        · rw [heffect.view]
          exact (hheld row (List.mem_cons_of_mem _ hrow)).map fun b hb =>
            mem_runAll_payments hb (hqueried.onPayment_other (hother row hrow))
        · rw [heffect.view] at hreconciled
          exact hQ run _ p₂ (.cons hserves hanswer hqueried hreconciled.of_map) (heffect.trans h₂)
      rw [Txn.wp_ite]
      refine ⟨fun _ => hrest p₁ (fun _ => rfl) _, fun _ => ?_⟩
      rw [Txn.wp_bind]
      refine (openException_onTrail _ _ _ _).wp (fun run p₂ h₂ => ?_) fun e p _ _ => hR e p
      exact hrest p₂ h₂ run

theorem wp_checkSettled {Q : ReconciliationRun → (DB → DB) → Prop} {payments : List Payment}
    (hκ : ∀ r, κ (.reconcile r)) (hR : ∀ e p, R e p)
    (hQ : ∀ run pend', (∀ s, (pend' s).core = (pend s).core) → Q run pend')
    (run : ReconciliationRun) :
    (checkSettled env run payments).wp κ φ pend Q R := by
  induction payments generalizing pend run with
  | nil => exact hQ run pend fun _ => rfl
  | cons payment payments ih =>
      simp only [checkSettled, Txn.wp_bind]
      refine wp_adapterOf (fun e _ => hR e _) fun adapter _ => ?_
      rw [wp_askProvider]
      refine ⟨hκ _, fun result _ => ?_, fun e _ => hR _ _⟩
      have hcompare : ∀ run, OnTrail (compareWithProvider run payment result.outcome) := fun run =>
        Txn.frame_ite (openException_onTrail _ _ _ _)
          (Txn.frame_ite (openException_onTrail _ _ _ _) (Txn.frame_ret _))
      refine (hcompare _).wp (fun run p₁ h₁ => ?_) fun e p _ _ => hR e p
      exact ih (fun run p₂ h₂ => hQ run p₂ fun s => (h₂ s).trans (h₁ s)) run

theorem newestFirst_perm (payments : List Payment) : (newestFirst payments).Perm payments :=
  List.perm_insertionSort _ _

theorem mem_newestFirst {payments : List Payment} {payment : Payment} :
    payment ∈ newestFirst payments ↔ payment ∈ payments :=
  (newestFirst_perm payments).mem_iff

theorem nodup_newestFirst_ids {payments : List Payment} (h : (payments.map (·.id)).Nodup) :
    ((newestFirst payments).map (·.id)).Nodup :=
  ((newestFirst_perm payments).map _).nodup_iff.mpr h

theorem nodup_filter_ids {rows : List Payment} (h : (rows.map (·.id)).Nodup)
    (keep : Payment → Bool) : ((rows.filter keep).map (·.id)).Nodup :=
  h.sublist (List.filter_sublist.map _)

/-- A run queries the payments that its first query has found. -/
theorem wp_runReconciliation_queried {Q : ReconciliationRun → (DB → DB) → Prop} {tenant : ℕ}
    (hunique : ∀ k v, φ k v → ((pend v).payments.map (·.id)).Nodup)
    (hquery : ∀ r, κ (.queryPayment r)) (hreconcile : ∀ r, κ (.reconcile r)) (hR : ∀ e p, R e p)
    (hQ : ∀ run v ms pend', φ (.paymentsOf tenant) v →
      Reconciled (viewOf φ pend) env (newestFirst ((pend v).payments.filter fun p =>
        p.tenant = tenant && p.status = .unknown)) ms → Effect φ pend ms pend' → Q run pend') :
    (runReconciliation env tenant).wp κ φ pend Q R := by
  simp only [runReconciliation, Txn.wp_bind]
  refine (onTrail_onTrail _).wp (fun _ p₀ h₀ => ?_) fun e p _ _ => hR e p
  simp only [resolveUnknownPayments, checkSettledPayments, Txn.wp_bind, wp_onTrail, Txn.wp_fetch,
    Txn.pure_eq_ret, Txn.wp_ret]
  intro v hv
  have hview : viewOf φ p₀ = viewOf φ pend := viewOf_core h₀
  have hbooks : (p₀ v).toBooks = (pend v).toBooks := congrArg Prod.snd (h₀ v)
  rw [hbooks]
  have hfound : ∀ payment ∈ newestFirst ((pend v).payments.filter fun p =>
      p.tenant = tenant && p.status = .unknown), (viewOf φ pend).Holds payment := fun payment h =>
    ⟨_, rfl, seesAt_viewOf (P := fun _ b => payment ∈ b.payments) hv
      (List.mem_filter.mp (mem_newestFirst.mp h)).1⟩
  refine wp_resolveUnknown hquery hR (fun payment hpayment => hview ▸ hfound payment hpayment)
    (nodup_newestFirst_ids (nodup_filter_ids (hunique _ v hv) _))
    (fun run ms p₁ hreconciled h₁ => ?_) _
  intro u hu
  refine wp_checkSettled hreconcile hR (fun run p₂ h₂ => ?_) _
  exact hQ _ v ms _ hv (hview ▸ hreconciled)
    (((Effect.of_core h₀).trans h₁).then_core fun s => h₂ s)

/-- The payments that a run queries, and the moves of the queries. -/
theorem wp_runReconciliation {Q : ReconciliationRun → (DB → DB) → Prop} {tenant : ℕ}
    (hunique : ∀ k v, φ k v → ((pend v).payments.map (·.id)).Nodup)
    (hquery : ∀ r, κ (.queryPayment r)) (hreconcile : ∀ r, κ (.reconcile r)) (hR : ∀ e p, R e p)
    (hQ : ∀ run payments ms pend',
      (∀ payment ∈ payments, (viewOf φ pend).Holds payment ∧ payment.tenant = tenant ∧
        payment.status = .unknown) → (payments.map (·.id)).Nodup →
      Reconciled (viewOf φ pend) env payments ms → Effect φ pend ms pend' → Q run pend') :
    (runReconciliation env tenant).wp κ φ pend Q R := by
  refine wp_runReconciliation_queried hunique hquery hreconcile hR
    fun run v ms p hv hreconciled heffect => hQ run _ ms p (fun payment hpayment => ?_)
      (nodup_newestFirst_ids (nodup_filter_ids (hunique _ v hv) _)) hreconciled heffect
  obtain ⟨hmem, hfilter⟩ := List.mem_filter.mp (mem_newestFirst.mp hpayment)
  refine ⟨⟨_, rfl, seesAt_viewOf (P := fun _ b => payment ∈ b.payments) hv hmem⟩, ?_⟩
  simpa using hfilter

/-! ## Settlement -/

theorem selectForUpdate_onTrail (keep : Payment → Bool) (payments : List Payment) :
    OnTrail (selectForUpdate keep payments) := by
  induction payments with
  | nil => exact Txn.frame_ret _
  | cons payment rest ih =>
      have hlock : OnTrail (Txn.acquire (.payment payment.id)) := fun _ _ => rfl
      exact Txn.frame_bind hlock fun _ => Txn.frame_bind (Txn.frame_fetch _ _) fun _ =>
        Txn.frame_bind ih fun _ => Txn.frame_ret _

theorem wp_generateSettlementBatch {Q : SettlementBatch → (DB → DB) → Prop}
    {tenant provider : ℕ} {periodStart periodEnd : Time} (hR : ∀ e p, R e p)
    (hQ : ∀ batch claimed pend', Effect φ pend [.openBatch batch claimed] pend' →
      Q batch pend') :
    (generateSettlementBatch env tenant provider periodStart periodEnd).wp κ φ pend Q R := by
  simp only [generateSettlementBatch, Txn.wp_bind]
  have hfetch : ∀ {α : Type} (k : Resource) (q : DB → α), OnTrail (Txn.fetch k q) := fun k q =>
    Txn.frame_fetch k q
  refine (hfetch _ _).wp (fun found p₁ h₁ => ?_) fun e p _ _ => hR e p
  refine (selectForUpdate_onTrail _ _).wp (fun claimed p₂ h₂ => ?_) fun e p _ _ => hR e p
  refine (hfetch _ _).wp (fun fees p₃ h₃ => ?_) fun e p _ _ => hR e p
  refine (getRow_onTrail _ _).wp (fun row p₄ h₄ => ?_) fun e p _ _ => hR e p
  have hcore : ∀ s, (p₄ s).core = (pend s).core := fun s =>
    (h₄ s).trans <| (h₃ s).trans <| (h₂ s).trans (h₁ s)
  simp only [wp_storeNumeric, insertBatch, Txn.wp_bind, Txn.wp_acquire, Txn.wp_fetch, wp_raiseIf,
    wp_onBooks, Txn.pure_eq_ret, Txn.wp_ret]
  refine ⟨fun gross _ => ⟨fun fee _ => ⟨fun net _ v hv => ⟨fun _ => hR _ _, fun _ => ?_⟩,
    fun _ => hR _ _⟩, fun _ => hR _ _⟩, fun _ => hR _ _⟩
  refine (recordAuditEvent_onTrail _ _ _ _ _ _).wp (fun _ p₅ h₅ => ?_) fun e p _ _ => hR e p
  refine hQ _ claimed p₅
    ((Effect.single (m := .openBatch _ claimed) trivial fun s => ?_).then_core h₅)
  have hd : (p₄ s).toDirectory = (pend s).toDirectory := congrArg Prod.fst (hcore s)
  have hb : (p₄ s).toBooks = (pend s).toBooks := congrArg Prod.snd (hcore s)
  simp only [Function.comp, inBooks_core]
  rw [← hd, ← hb]
  rfl

theorem wp_markSettlementCompleted {Q : Unit → (DB → DB) → Prop} {batch : SettlementBatch}
    {reference : String} (hR : ∀ e p, R e p)
    (hQ : ∀ id f pend', Effect φ pend [.editBatch id f] pend' → Q () pend') :
    (markSettlementCompleted env batch reference).wp κ φ pend Q R := by
  simp only [markSettlementCompleted, Txn.wp_bind, wp_checkVarchar, wp_onBooks]
  refine ⟨fun _ => ?_, fun _ => hR _ _⟩
  refine (recordAuditEvent_onTrail _ _ _ _ _ _).wp (fun _ p₁ h₁ => ?_) fun e p _ _ => hR e p
  refine (dispatchEvent_onTrail _ _ _ _).wp (fun _ p₂ h₂ => ?_) fun e p _ _ => hR e p
  exact hQ batch.id _ p₂ (((Effect.single (m := .editBatch batch.id _) trivial
    (writes_inBooks _ _)).then_core h₁).then_core h₂)

/-! ## Views -/

/-- Moves that neither open a payment nor enter a status of one. -/
def Move.isClerical : Move → Bool
  | openPayment _ | refer .. | enter _ | settle _ | undo .. => false
  | _ => true

/-- The calls of a request: only an initiation calls `adapter.initiate_payment`, and
with a merchant reference that no payment has. -/
def Action.Permits (view : View) (action : Action) (call : Call) : Prop :=
  ∀ args, call = .initiatePayment args →
    (view.Sees fun _ b => ∀ row ∈ b.payments, row.merchantReference ≠ args.merchantReference) ∧
    match action with
    | .payBill .. | .paymentListCreate .. => True
    | _ => False

/-- What an initiation did: nothing for a repeated key, or the moves that the answer
of the adapter leads to. -/
def StartsPayment (view : View) (env : Env) (tenant : ℕ) (amount : Amount)
    (metadata : List (String × String)) (ms : List Move) : Prop :=
  ms = [] ∨ ∃ input adapter after, input.tenant = tenant ∧ input.amount = amount ∧
    input.metadata = metadata ∧ (view.Sees fun _ b => input.controlNumber ∈ b.controlNumbers) ∧
    (view.Sees fun d _ => input.provider ∈ d.providers) ∧
    env.registry input.provider.code = some adapter ∧ Initiated env input adapter ms after

/-- The moves that a request may make, with the provider's answer behind them. -/
def Action.Moves (view : View) (env : Env) (action : Action) (ms : List Move) : Prop :=
  match action with
  | .paymentQuery tenant pk => ∃ payment adapter result after, view.Holds payment ∧
      payment.id = pk ∧ payment.tenant = tenant ∧ Serves view env payment adapter ∧
      adapter.queryPayment payment.merchantReference = .ok result ∧
      Queried env payment result ms after
  | .paymentRefund tenant pk _ => ms = [] ∨ ∃ payment after, view.Holds payment ∧
      payment.id = pk ∧ payment.tenant = tenant ∧ Undone env payment .refunded ms after
  | .paymentReverse tenant pk => ms = [] ∨ ∃ payment after, view.Holds payment ∧
      payment.id = pk ∧ payment.tenant = tenant ∧ Undone env payment .reversed ms after
  | .providerCallback code inbound => ms = [] ∨ ∃ provider adapter,
      (view.Sees fun d _ => d.providers.find? (·.code = code) = some provider) ∧
      env.registry provider.code = some adapter ∧
      CalledBack view env provider (adapter.processCallback inbound) ms
  | .payBill tenant _ _ amount _ metadata =>
      StartsPayment view env tenant amount.toAmount metadata ms
  | .paymentListCreate tenant _ _ _ amount _ _ metadata =>
      StartsPayment view env tenant amount metadata ms
  | .triggerRun tenant => ∃ payments, (∀ payment ∈ payments, view.Holds payment ∧
      payment.tenant = tenant ∧ payment.status = .unknown) ∧ (payments.map (·.id)).Nodup ∧
      Reconciled view env payments ms
  | _ => ∀ m ∈ ms, m.isClerical = true

/-- What a request that ends normally did. -/
def Request.Did (φ : Resource → DB → Prop) (request : Request) (pend' : DB → DB) : Prop :=
  ∃ ms, request.action.Moves (viewOf φ id) request.env ms ∧ Effect φ id ms pend'

section Views

variable {tenant pk : ℕ} {code : String}

theorem wp_billOr404 {Q : Bill → (DB → DB) → Prop} (hR : R .http404 pend)
    (hQ : ∀ bill, bill.id = pk → bill.tenant = tenant →
      (viewOf φ pend).SeesAt (.bill pk) (fun _ b => bill ∈ b.bills) → Q bill pend) :
    (billOr404 tenant pk).wp κ φ pend Q R := by
  simp only [billOr404, wp_getOr404]
  intro v hv
  refine ⟨fun bill hfound => ?_, fun _ => hR⟩
  have hkey : bill.id = pk ∧ bill.tenant = tenant := by simpa using List.find?_some hfound
  exact hQ bill hkey.1 hkey.2 (seesAt_viewOf (P := fun _ b => bill ∈ b.bills) hv
    (List.mem_of_find?_eq_some hfound))

theorem wp_paymentOr404 {Q : Payment → (DB → DB) → Prop} (hR : R .http404 pend)
    (hQ : ∀ payment, payment.id = pk → payment.tenant = tenant →
      (viewOf φ pend).Holds payment → Q payment pend) :
    (paymentOr404 tenant pk).wp κ φ pend Q R := by
  simp only [paymentOr404, wp_getOr404]
  intro v hv
  refine ⟨fun payment hfound => ?_, fun _ => hR⟩
  have hkey : payment.id = pk ∧ payment.tenant = tenant := by simpa using List.find?_some hfound
  exact hQ payment hkey.1 hkey.2 ⟨_, rfl, seesAt_viewOf (P := fun _ b => payment ∈ b.payments) hv
    (List.mem_of_find?_eq_some hfound)⟩

theorem wp_accountOr404 {Q : CustomerAccount → (DB → DB) → Prop} (hR : R .http404 pend)
    (hQ : ∀ account, account.id = pk → account.tenant = tenant →
      (viewOf φ pend).Sees (fun d _ => account ∈ d.accounts) → Q account pend) :
    (accountOr404 tenant pk).wp κ φ pend Q R := by
  simp only [accountOr404, wp_getOr404]
  intro v hv
  refine ⟨fun account hfound => ?_, fun _ => hR⟩
  have hkey : account.id = pk ∧ account.tenant = tenant := by simpa using List.find?_some hfound
  exact hQ account hkey.1 hkey.2 (seesAt_viewOf (P := fun d _ => account ∈ d.accounts) hv
    (List.mem_of_find?_eq_some hfound)).sees

/-- A view that shows validation errors: where one is raised nothing was written. -/
theorem wp_showingErrors {Q : Unit → (DB → DB) → Prop} {p : Tx Unit}
    (h : p.wp κ φ pend Q fun e pend' => if e.isValidationError then Q () pend' else R e pend') :
    (showingErrors p).wp κ φ pend Q R := by
  refine Txn.wp_handle (Txn.wp_consequence h (fun _ _ h => h) fun e pend' he => ?_)
  split at he
  · next hcatch =>
      rw [if_pos hcatch]
      exact he
  · next hcatch =>
      rw [if_neg hcatch]
      exact he

/-- A `ValidationError` of `p` is raised before anything is written. -/
abbrev Early {α : Type} (p : Tx α) : Prop :=
  p.wp (fun _ => True) (fun _ _ => True) id (fun _ _ => True)
    fun e pend => e.isValidationError = true → pend = id

/-- What is left of an outcome, reached from `s`, once its `ValidationError` is shown. -/
def shown (s : DB) : Except Error (Unit × DB) → Except Error (Unit × DB)
  | .ok r => .ok r
  | .error e => if e.isValidationError then .ok ((), s) else .error e

/-- Where the errors that a view shows are early, there is nothing to undo. -/
theorem exec_showingErrors {p : Tx Unit} {s : DB} (hearly : Early p) :
    (showingErrors p).exec s = shown s (p.exec s) := by
  have hwp : (showingErrors p).wp (fun _ => True) (fun _ v => v = s) id
      (fun a pend => shown s (p.exec s) = .ok (a, pend s))
      fun e _ => shown s (p.exec s) = .error e := by
    have hhere := Txn.wp_mono (fun _ h => h) (fun _ v (_ : v = s) => trivial) (fun _ _ h => h)
      (fun _ _ h => h) hearly
    refine wp_showingErrors (Txn.wp_consequence (Txn.wp_conj (Txn.wp_exec p id) hhere) ?_ ?_)
    · intro a pend hok
      rw [show p.exec s = .ok (a, pend s) from hok.1]
      rfl
    · intro e pend herror
      rw [show p.exec s = .error e from herror.1]
      split
      · next hcatch =>
          rw [herror.2 hcatch]
          exact if_pos hcatch
      · next hcatch => exact if_neg hcatch
  have hsound := Txn.exec_of_wp hwp
  simp only [id_eq] at hsound
  split at hsound
  · next hexec =>
      obtain ⟨pend, rfl, heq⟩ := hsound
      exact hexec.trans heq.symm
  · next hexec =>
      obtain ⟨pend, heq⟩ := hsound
      exact hexec.trans heq.symm

theorem exec_ok_showingErrors {p : Tx Unit} {s t : DB} (hearly : Early p)
    (h : (showingErrors p).exec s = .ok ((), t)) : p.exec s = .ok ((), t) ∨ t = s := by
  rw [exec_showingErrors hearly] at h
  unfold shown at h
  split at h
  · next hexec => exact Or.inl (hexec.trans h)
  · split at h
    · exact Or.inr (Prod.mk.inj (Except.ok.inj h)).2.symm
    · cases h

theorem issued_clerical {ms : List Move} {owner : Owner} (h : Issued env tenant owner ms) :
    ∀ m ∈ ms, m.isClerical = true := by
  cases h <;> simp [Move.isClerical]

theorem clerical_append {ms ms' : List Move} (h : ∀ m ∈ ms, m.isClerical = true)
    (h' : ∀ m ∈ ms', m.isClerical = true) : ∀ m ∈ ms ++ ms', m.isClerical = true := by
  intro m hm
  rcases List.mem_append.mp hm with hm | hm
  · exact h m hm
  · exact h' m hm

/-- A view that does only clerical moves. -/
def DidClerical (φ : Resource → DB → Prop) (pend' : DB → DB) : Prop :=
  ∃ ms, (∀ m ∈ ms, m.isClerical = true) ∧ Effect φ id ms pend'

theorem wp_billCreate {Q : Unit → (DB → DB) → Prop} {input : BillInput} (hR : ∀ e p, R e p)
    (hQ : ∀ pend', DidClerical φ pend' → Q () pend') :
    (billCreate env input).wp κ φ id Q R := by
  simp only [billCreate, Txn.wp_bind]
  refine wp_accountOr404 (hR _ _) fun account hid htenant hsees => ?_
  refine wp_getOrCreateBill (hsees.mono fun d _ h => ⟨account, h, hid, htenant⟩) hR
    fun result p₁ hgot => ?_
  cases hgot with
  | existing h₁ => exact hQ p₁ ⟨[], by simp, Effect.of_core h₁⟩
  | created hdrafted hwrites =>
      simp only [if_true, Txn.wp_bind, Txn.pure_eq_ret, Txn.wp_ret]
      refine wp_activate hdrafted hwrites hR fun p₂ h₂ hexists => ?_
      refine wp_getOrCreateForBill hexists hR fun ms' _ p₃ hissued h₃ => ?_
      exact hQ p₃ ⟨_, clerical_append (by simp [Move.isClerical]) (issued_clerical hissued),
        h₂.trans h₃⟩

theorem wp_billListCreate {Q : Unit → (DB → DB) → Prop} {input : BillInput} (hR : ∀ e p, R e p)
    (hQ : ∀ pend', DidClerical φ pend' → Q () pend') :
    (billListCreate env input).wp κ φ id Q R := by
  simp only [billListCreate, Txn.wp_bind]
  refine wp_accountOr404 (hR _ _) fun account hid htenant hsees => ?_
  refine wp_getOrCreateBill (hsees.mono fun d _ h => ⟨account, h, hid, htenant⟩) hR
    fun result p₁ hgot => ?_
  cases hgot with
  | existing h₁ => exact hQ p₁ ⟨[], by simp, Effect.of_core h₁⟩
  | created hdrafted hwrites =>
      simp only [if_true, Txn.wp_bind, Txn.pure_eq_ret, Txn.wp_ret]
      exact wp_activate hdrafted hwrites hR fun p₂ h₂ _ =>
        hQ p₂ ⟨_, by simp [Move.isClerical], h₂⟩

/-- The move of `bill_cancel`, if the bill can be cancelled. -/
theorem wp_billCancel {Q : Unit → (DB → DB) → Prop} (hR : ∀ e p, R e p)
    (hkept : Q () id)
    (hQ : ∀ bill pend', bill.id = pk → bill.tenant = tenant →
      (viewOf φ id).SeesAt (.bill pk) (fun _ b => bill ∈ b.bills) →
      .cancelled ∈ bill.status.allowedTransitions →
      Effect φ id [.cancelBill (bill.moveTo env.now .cancelled)] pend' → Q () pend') :
    (billCancel env tenant pk).wp κ φ id Q R := by
  simp only [billCancel, Txn.wp_bind]
  refine wp_billOr404 (hR _ _) fun bill hid htenant hsees => ?_
  refine wp_showingErrors ?_
  simp only [Txn.wp_bind, Txn.pure_eq_ret, Txn.wp_ret]
  refine wp_cancelBill hsees.sees (fun e p he => ?_) fun p₁ hallowed h₁ =>
    hQ bill p₁ hid htenant hsees hallowed h₁
  split
  · next hcatch => rw [he hcatch]; exact hkept
  · exact hR _ _

theorem wp_billRequestControlNumber {Q : Unit → (DB → DB) → Prop} (hR : ∀ e p, R e p)
    (hQ : ∀ pend', DidClerical φ pend' → Q () pend') :
    (billRequestControlNumber env tenant pk).wp κ φ id Q R := by
  simp only [billRequestControlNumber, Txn.wp_bind, Txn.pure_eq_ret, Txn.wp_ret]
  refine wp_billOr404 (hR _ _) fun bill hid htenant hsees => ?_
  refine wp_getOrCreateForBill (hsees.sees.mono fun _ b hb => ⟨bill, hb, rfl, htenant⟩) hR
    fun ms _ p₁ hissued h₁ => hQ p₁ ⟨ms, issued_clerical hissued, h₁⟩

theorem wp_accountRequestControlNumber {Q : Unit → (DB → DB) → Prop} {expiresAt : Option Time}
    (hR : ∀ e p, R e p) (hQ : ∀ pend', DidClerical φ pend' → Q () pend') :
    (accountRequestControlNumber env tenant pk expiresAt).wp κ φ id Q R := by
  simp only [accountRequestControlNumber, Txn.wp_bind, Txn.pure_eq_ret, Txn.wp_ret]
  refine wp_accountOr404 (hR _ _) fun account hid htenant hsees => ?_
  refine wp_getOrCreateForAccount (hsees.mono fun d _ h => ⟨account, h, rfl, htenant⟩) hR
    fun ms _ p₁ hissued h₁ => hQ p₁ ⟨ms, issued_clerical hissued, h₁⟩

/-- A row found by its code is a row of the table. -/
theorem wp_providerByCode {Q : PaymentProvider → (DB → DB) → Prop} (hR : ∀ e p, R e p)
    (hQ : ∀ provider, (viewOf φ pend).Sees (fun d _ => provider ∈ d.providers) → Q provider pend)
    (q : Bool) :
    (if q then providerOr404 code else
      getRow (.providerCode code) fun db => db.providers.find? (·.code = code)).wp κ φ pend Q
        R := by
  have hfound : ∀ v, φ (.providerCode code) v → ∀ provider,
      (pend v).providers.find? (·.code = code) = some provider → Q provider pend :=
    fun v hv provider hprovider => hQ provider (seesAt_viewOf
      (P := fun d _ => provider ∈ d.providers) hv (List.mem_of_find?_eq_some hprovider)).sees
  cases q with
  | true =>
      simp only [if_true, providerOr404, wp_getOr404]
      exact fun v hv => ⟨hfound v hv, fun _ => hR _ _⟩
  | false =>
      simp only [Bool.false_eq_true, if_false, wp_getRow]
      exact fun v hv => ⟨hfound v hv, fun _ => hR _ _⟩

/-- The initiation of the two views that start a payment. -/
theorem wp_startPayment {Q : Payment → (DB → DB) → Prop} (input : InitiateInput)
    {bill : Option Bill} (hvalid : input.Valid (viewOf φ pend) bill) (hR : ∀ e p, R e p)
    (hκ : ∀ args, ((viewOf φ pend).Sees fun _ b =>
        ∀ row ∈ b.payments, row.merchantReference ≠ args.merchantReference) →
      κ (.initiatePayment args))
    (hQ : ∀ payment ms pend',
      StartsPayment (viewOf φ pend) env input.tenant input.amount input.metadata ms →
      Effect φ pend ms pend' → Q payment pend') :
    (initiatePayment env input bill).wp κ φ pend Q R := by
  refine wp_initiatePayment hvalid (fun currency hclash => hκ _ (hclash.mono ?_)) hR
    (fun payment p₁ h₁ => hQ payment [] p₁ (Or.inl rfl) h₁)
    fun adapter ms after p₁ hadapter hinit h₁ => hQ after ms p₁ (Or.inr ⟨input, adapter, after,
      rfl, rfl, rfl, hvalid.controlNumber, hvalid.provider, hadapter, hinit⟩) h₁
  intro _ b hclash row hrow hsame
  have hany := List.any_eq_false.mp hclash row hrow
  have hreference : row.merchantReference =
      (input.newPayment env currency).merchantReference := hsame
  simp [hreference] at hany

theorem wp_payBill {Q : Unit → (DB → DB) → Prop} {amount : EnteredAmount} {payer : String}
    {metadata : List (String × String)} (hR : ∀ e p, R e p)
    (hκ : ∀ args, ((viewOf φ id).Sees fun _ b =>
        ∀ row ∈ b.payments, row.merchantReference ≠ args.merchantReference) →
      κ (.initiatePayment args))
    (hQ : ∀ ms pend', StartsPayment (viewOf φ id) env tenant amount.toAmount metadata ms →
      Effect φ id ms pend' → Q () pend') :
    (payBill env tenant pk code amount payer metadata).wp κ φ id Q R := by
  simp only [payBill, controlNumberOfBill, Txn.wp_bind]
  refine wp_billOr404 (hR _ _) fun bill hid htenant hsees => ?_
  rw [Txn.wp_fetch]
  intro v hv
  split
  · exact hQ [] id (Or.inl rfl) Effect.refl
  · next cn hfound =>
      have hmem : cn ∈ v.toBooks.controlNumbers := List.mem_of_find?_eq_some hfound
      have howner : cn.owner = .bill bill.id := by simpa using List.find?_some hfound
      have hbound : cn.bill? = some bill.id := by rw [ControlNumber.bill?, howner]
      simp only [Txn.wp_bind, Txn.pure_eq_ret, Txn.wp_ret]
      refine wp_providerByCode (q := false) hR fun provider hprovider => ?_
      refine wp_startPayment ⟨tenant, cn, provider, none, amount.toAmount, amount.text, payer, "",
          metadata⟩
        ⟨(seesAt_viewOf (P := fun _ b => cn ∈ b.controlNumbers) hv hmem).sees,
          Or.inr ⟨bill, hbound, htenant, hsees.sees⟩, hprovider, fun row hrow => ?_⟩ hR hκ
        fun _ ms p₁ hstarts h₁ => hQ ms p₁ hstarts h₁
      obtain rfl := Option.some.inj hrow
      exact ⟨hbound, hid ▸ hsees⟩

theorem wp_paymentListCreate {Q : Unit → (DB → DB) → Prop} {value payer key : String}
    {channel : Option String} {amount : Amount} {metadata : List (String × String)}
    (hR : ∀ e p, R e p)
    (hκ : ∀ args, ((viewOf φ id).Sees fun _ b =>
        ∀ row ∈ b.payments, row.merchantReference ≠ args.merchantReference) →
      κ (.initiatePayment args))
    (hQ : ∀ ms pend', StartsPayment (viewOf φ id) env tenant amount metadata ms →
      Effect φ id ms pend' → Q () pend') :
    (paymentListCreate env tenant value code channel amount payer key metadata).wp κ φ id Q R := by
  simp only [paymentListCreate, Txn.wp_bind, wp_getOr404, Txn.pure_eq_ret, Txn.wp_ret]
  intro v hv
  refine ⟨fun cn hfound => ?_, fun _ => hR _ _⟩
  have hmem : cn ∈ v.toBooks.controlNumbers := List.mem_of_find?_eq_some hfound
  have hkey : cn.value = value ∧ cn.tenant = tenant := by simpa using List.find?_some hfound
  refine wp_providerByCode (q := true) hR fun provider hprovider => ?_
  exact wp_startPayment
    ⟨tenant, cn, provider, channel, amount, amount.cents.str, payer, key, metadata⟩
    ⟨(seesAt_viewOf (P := fun _ b => cn ∈ b.controlNumbers) hv hmem).sees, Or.inl hkey.2,
      hprovider, fun _ h => by cases h⟩ hR hκ fun _ ms p₁ hstarts h₁ => hQ ms p₁ hstarts h₁

theorem wp_paymentQuery {Q : Unit → (DB → DB) → Prop} (hR : ∀ e p, R e p)
    (hκ : ∀ r, κ (.queryPayment r))
    (hQ : ∀ payment adapter result ms after pend', (viewOf φ id).Holds payment →
      payment.id = pk → payment.tenant = tenant → Serves (viewOf φ id) env payment adapter →
      adapter.queryPayment payment.merchantReference = .ok result →
      Queried env payment result ms after → Effect φ id ms pend' → Q () pend') :
    (paymentQuery env tenant pk).wp κ φ id Q R := by
  simp only [paymentQuery, Txn.wp_bind, Txn.pure_eq_ret, Txn.wp_ret]
  refine wp_paymentOr404 (hR _ _) fun payment hid htenant hheld => ?_
  exact wp_queryPayment hheld (hκ _) hR
    fun adapter result ms after p₁ hserves hanswer hqueried h₁ =>
    hQ payment adapter result ms after p₁ hheld hid htenant hserves hanswer hqueried h₁

theorem wp_paymentRefund {Q : Unit → (DB → DB) → Prop} {amount : Option Amount}
    (hR : ∀ e p, R e p) (hκ : ∀ r a, κ (.refund r a)) (hkept : Q () id)
    (hQ : ∀ payment ms after pend', (viewOf φ id).Holds payment → payment.id = pk →
      payment.tenant = tenant → Undone env payment .refunded ms after → Effect φ id ms pend' →
      Q () pend') :
    (paymentRefund env tenant pk amount).wp κ φ id Q R := by
  simp only [paymentRefund, Txn.wp_bind]
  refine wp_paymentOr404 (hR _ _) fun payment hid htenant hheld => ?_
  refine wp_showingErrors ?_
  simp only [Txn.wp_bind, Txn.pure_eq_ret, Txn.wp_ret]
  refine wp_refundPayment hheld hκ (fun e p he => ?_) fun ms after p₁ hundone h₁ =>
    hQ payment ms after p₁ hheld hid htenant hundone h₁
  split
  · next hcatch => rw [he hcatch]; exact hkept
  · exact hR _ _

theorem wp_paymentReverse {Q : Unit → (DB → DB) → Prop}
    (hR : ∀ e p, R e p) (hκ : ∀ r, κ (.reverse r)) (hkept : Q () id)
    (hQ : ∀ payment ms after pend', (viewOf φ id).Holds payment → payment.id = pk →
      payment.tenant = tenant → Undone env payment .reversed ms after → Effect φ id ms pend' →
      Q () pend') :
    (paymentReverse env tenant pk).wp κ φ id Q R := by
  simp only [paymentReverse, Txn.wp_bind]
  refine wp_paymentOr404 (hR _ _) fun payment hid htenant hheld => ?_
  refine wp_showingErrors ?_
  simp only [Txn.wp_bind, Txn.pure_eq_ret, Txn.wp_ret]
  refine wp_reversePayment hheld hκ (fun e p he => ?_) fun ms after p₁ hundone h₁ =>
    hQ payment ms after p₁ hheld hid htenant hundone h₁
  split
  · next hcatch => rw [he hcatch]; exact hkept
  · exact hR _ _

theorem wp_providerCallback {Q : Unit → (DB → DB) → Prop} {inbound : InboundCallback}
    (hR : ∀ e p, R e p) (hkept : Q () id)
    (hQ : ∀ provider adapter ms pend',
      ((viewOf φ id).Sees fun d _ => d.providers.find? (·.code = code) = some provider) →
      env.registry provider.code = some adapter →
      CalledBack (viewOf φ id) env provider (adapter.processCallback inbound) ms →
      Effect φ id ms pend' → Q () pend') :
    (providerCallback env code inbound).wp κ φ id Q R := by
  simp only [providerCallback, Txn.wp_bind, Txn.wp_fetch]
  intro v hv
  split
  · exact hkept
  · next provider hfound =>
      simp only [Txn.wp_bind, Txn.pure_eq_ret, Txn.wp_ret]
      have hsees : (viewOf φ id).Sees fun d _ =>
          d.providers.find? (·.code = code) = some provider :=
        (seesAt_viewOf (P := fun d _ =>
          d.providers.find? (·.code = code) = some provider) hv hfound).sees
      exact wp_processCallback hR fun adapter _ ms p₁ hadapter hback h₁ =>
        hQ provider adapter ms p₁ hsees hadapter hback h₁

end Views

/-! ## The handler -/

/-- A tenant saved in the admin. -/
def Action.savesTenant : Action → Bool
  | changeFeeRefundPolicy .. | changeDefaultCurrency .. => true
  | _ => false

theorem DidClerical.moves {pend' : DB → DB} {P : List Move → Prop} (h : DidClerical φ pend')
    (hP : ∀ ms, (∀ m ∈ ms, m.isClerical = true) → P ms) :
    ∃ ms, P ms ∧ Effect φ id ms pend' := by
  obtain ⟨ms, hms, heffect⟩ := h
  exact ⟨ms, hP ms hms, heffect⟩

/-- A request makes the moves of its action and nothing else, whatever committed
states its statements find. -/
theorem wp_handler (request : Request) (hnot : request.action.savesTenant = false)
    (hunique : ∀ k v, φ k v → (v.payments.map (·.id)).Nodup) :
    request.handler.wp (request.action.Permits (viewOf φ id)) φ id
      (fun _ pend' => request.Did φ pend') fun _ _ => True := by
  obtain ⟨env, action⟩ := request
  have hR : ∀ (e : Error) (p : DB → DB), True := fun _ _ => trivial
  cases action with
  | billCreate input => exact wp_billCreate hR fun p h => h.moves fun _ hms => hms
  | billListCreate input => exact wp_billListCreate hR fun p h => h.moves fun _ hms => hms
  | billCancel tenant pk =>
      exact wp_billCancel hR ⟨[], by simp [Action.Moves], Effect.refl⟩
        fun bill p _ _ _ _ h => ⟨_, by simp [Action.Moves, Move.isClerical], h⟩
  | billRequestControlNumber tenant pk =>
      exact wp_billRequestControlNumber hR fun p h => h.moves fun _ hms => hms
  | accountRequestControlNumber tenant pk expiresAt =>
      exact wp_accountRequestControlNumber hR fun p h => h.moves fun _ hms => hms
  | controlNumberCancel tenant pk =>
      simp only [Request.handler, controlNumberCancel, Txn.wp_bind, wp_getOr404]
      refine fun v _ => ⟨fun cn _ => wp_cancelControlNumber hR fun f p h => ?_, fun _ => trivial⟩
      exact ⟨_, by simp [Action.Moves, Move.isClerical], h⟩
  | expireOverdue tenant =>
      exact wp_expireOverdue hR fun f p h => ⟨_, by simp [Action.Moves, Move.isClerical], h⟩
  | payBill tenant pk code amount payer metadata =>
      refine wp_payBill hR (fun args hfresh _ h => ?_) fun ms p hstarts h => ⟨ms, hstarts, h⟩
      obtain rfl := Call.initiatePayment.inj h
      exact ⟨hfresh, trivial⟩
  | paymentListCreate tenant value code channel amount payer key metadata =>
      refine wp_paymentListCreate hR (fun args hfresh _ h => ?_)
        fun ms p hstarts h => ⟨ms, hstarts, h⟩
      obtain rfl := Call.initiatePayment.inj h
      exact ⟨hfresh, trivial⟩
  | paymentQuery tenant pk =>
      exact wp_paymentQuery hR (fun _ _ h => by cases h)
        fun payment adapter result ms after p hheld hid htenant hserves hanswer hqueried h =>
          ⟨ms, ⟨payment, adapter, result, after, hheld, hid, htenant, hserves, hanswer,
            hqueried⟩, h⟩
  | paymentRefund tenant pk amount =>
      exact wp_paymentRefund hR (fun _ _ _ h => by cases h) ⟨[], Or.inl rfl, Effect.refl⟩
        fun payment ms after p hheld hid htenant hundone h =>
          ⟨ms, Or.inr ⟨payment, after, hheld, hid, htenant, hundone⟩, h⟩
  | paymentReverse tenant pk =>
      exact wp_paymentReverse hR (fun _ _ h => by cases h) ⟨[], Or.inl rfl, Effect.refl⟩
        fun payment ms after p hheld hid htenant hundone h =>
          ⟨ms, Or.inr ⟨payment, after, hheld, hid, htenant, hundone⟩, h⟩
  | providerCallback code inbound =>
      exact wp_providerCallback hR ⟨[], Or.inl rfl, Effect.refl⟩
        fun provider adapter ms p hsees hadapter hback h =>
          ⟨ms, Or.inr ⟨provider, adapter, hsees, hadapter, hback⟩, h⟩
  | triggerRun tenant =>
      simp only [Request.handler, triggerRun, Txn.wp_bind, Txn.pure_eq_ret, Txn.wp_ret]
      exact wp_runReconciliation hunique (fun _ _ h => by cases h) (fun _ _ h => by cases h) hR
        fun _ payments ms p hfound hnodup hreconciled h =>
          ⟨ms, ⟨payments, hfound, hnodup, hreconciled⟩, h⟩
  | generateBatch tenant provider periodStart periodEnd =>
      simp only [Request.handler, generateBatch, getProvider, Txn.wp_bind, wp_getRow,
        Txn.pure_eq_ret, Txn.wp_ret]
      refine fun v _ => ⟨fun _ _ => wp_generateSettlementBatch hR fun batch claimed p h => ?_,
        fun _ => trivial⟩
      exact ⟨_, by simp [Action.Moves, Move.isClerical], h⟩
  | markCompleted pk reference =>
      simp only [Request.handler, markCompleted, Txn.wp_bind, wp_getOr404]
      refine fun v _ => ⟨fun batch _ => wp_markSettlementCompleted hR fun id f p h => ?_,
        fun _ => trivial⟩
      exact ⟨_, by simp [Action.Moves, Move.isClerical], h⟩
  | changeFeeRefundPolicy => cases hnot
  | changeDefaultCurrency => cases hnot

end Kusanya
