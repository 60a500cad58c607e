import Kusanya.Moves.Requests
import Kusanya.ReadCommitted.Sequential

/-!
# Runs of the platform

The platform starts with empty money tables and processes requests one at a time.
`step_cases` is the only fact about a request that the invariants use: it saved a
tenant, or it made the moves of its action.
-/

namespace Kusanya

open ReadCommitted

/-- The directory that the platform administrator maintains: keys are unique and
foreign keys resolve. -/
structure Directory.Coherent (d : Directory) : Prop where
  tenants : (d.tenants.map (·.id)).Nodup
  accounts : (d.accounts.map (·.id)).Nodup
  providers : (d.providers.map (·.id)).Nodup
  codes : (d.providers.map (·.code)).Nodup
  accountTenant : ∀ account ∈ d.accounts, ∃ tenant ∈ d.tenants, tenant.id = account.tenant
  accountCustomer : ∀ account ∈ d.accounts, ∃ customer ∈ d.customers,
    customer.id = account.customer

/-- The money tables of a new installation. -/
def Books.empty : Books :=
  { bills := []
    billItems := []
    controlNumbers := []
    payments := []
    allocations := []
    callbackEvents := []
    ledger := []
    revenue := []
    receipts := []
    batches := [] }

/-- A state in which the platform may start. -/
structure Initial (db : DB) : Prop where
  books : db.toBooks = .empty
  directory : db.toDirectory.Coherent

/-- The state after requests processed one at a time. -/
abbrev afterAll (db : DB) (requests : List Request) : DB := after Request.handler db requests

/-- A state that requests processed one at a time can reach. -/
def Reachable (db : DB) : Prop := ∃ start requests, Initial start ∧ db = afterAll start requests

/-! ## A small installation -/

/-- One school, one account without contact details, the mock provider. -/
def smallInstallation : DB :=
  { tenants := [⟨1, "School", "TZS", .clawback⟩]
    customers := [⟨1, 1, "Asha", "", ""⟩]
    accounts := [⟨1, 1, 1, "Fees"⟩]
    providers := [⟨1, "mock", "Mock", true⟩]
    endpoints := []
    templates := []
    bills := []
    billItems := []
    controlNumbers := []
    payments := []
    allocations := []
    callbackEvents := []
    ledger := []
    revenue := []
    receipts := []
    batches := []
    auditLog := []
    notifications := []
    deliveries := []
    onCommit := []
    runs := []
    exceptions := [] }

theorem smallInstallation_initial : Initial smallInstallation where
  books := rfl
  directory := by constructor <;> decide

/-- A money column that holds `cents`, or nothing where they do not fit. -/
def numericOf (cents : Money) : Numeric :=
  (Numeric.ofMoney? cents).getD .zero

/-- An amount of `cents`, or of one hundredth where no form accepts them. -/
def amountOf (cents : ℕ) : Amount :=
  if h : 0 < cents ∧ cents < 10 ^ 18 then ⟨⟨cents, h.2⟩, Int.natCast_pos.mpr h.1⟩
  else ⟨⟨1, by decide⟩, by decide⟩

/-- A provider that gives every call the same answer; callbacks carry `eventId`. -/
def answering (outcome : ProviderOutcome) (reference eventId : String) : Adapter :=
  let result : ProviderResult :=
    { outcome, providerReference := reference, rawResponse := some emptyDict }
  { initiatePayment := fun _ => .ok result
    queryPayment := fun _ => .ok result
    processCallback := fun _ => .ok
      { outcome
        providerReference := reference
        externalEventId := eventId
        rawResponse := some emptyDict }
    refund := fun _ _ => .ok result
    reverse := fun _ => .ok result
    reconcile := fun _ => .ok result }

/-- The environment of the `n`-th request: every key it draws is `n`. -/
def envAt (n : ℕ) (adapter : Adapter) : Env :=
  { now := n
    actor := none
    correlationId := []
    ipAddress := none
    userAgent := []
    isAddress := dottedAddress
    gen :=
      { paymentId := n
        merchantReference := toString n
        callbackEventId := fun k => n + k
        billId := fun k => n + k
        billNumber := fun k => toString (n + k)
        controlNumberId := fun k => n + k
        controlNumberValue := fun k => toString (n + k)
        receiptNumber := toString
        runId := n
        batchId := n
        batchReference := toString n }
    registry := fun code => if code = "mock" then some adapter else none
    interpreter := .plain }

/-- A bill over 100.00 with its control number. -/
def issueBill : Request where
  env := envAt 1 (answering .pending "" "")
  action := .billCreate
    { tenant := 1
      customerAccount := 1
      items := [⟨"Tuition", ⟨1, 0⟩, ⟨10000, -2⟩⟩]
      externalReference := "" }

/-- A payment of `cents` on the bill, as the `n`-th request. -/
def payIssuedBill (n : ℕ) (adapter : Adapter) (amount : Amount) : Request where
  env := envAt n adapter
  action := .payBill 1 1 "mock" { toAmount := amount, text := amount.cents.str } "0700" []

/-- A bill, and a payment of 40.00 on it that the provider left pending. -/
def pendingPayment : List Request :=
  [issueBill, payIssuedBill 2 (answering .pending "p" "") (amountOf 4000)]

theorem pendingPayment_reachable : Reachable (afterAll smallInstallation pendingPayment) :=
  ⟨_, _, smallInstallation_initial, rfl⟩

/-- A tenant saved in the admin. -/
def Directory.saveTenant (d : Directory) (id : ℕ) (f : Tenant → Tenant) : Directory :=
  { d with tenants := d.tenants.map fun row => if row.id = id then f row else row }

/-- The request saved a tenant and left the money tables alone. -/
def SavedTenant (s t : DB) : Prop :=
  ∃ id f, (∀ row : Tenant, (f row).id = row.id ∧ (f row).name = row.name) ∧
    t.toDirectory = s.toDirectory.saveTenant id f ∧ t.toBooks = s.toBooks

/-- The view of a request that runs alone from `s`. -/
abbrev DB.view (s : DB) : View := View.alone s.toDirectory s.toBooks

/-- The request made moves on the money tables and left the directory alone. -/
def Moved (request : Request) (s t : DB) (ms : List Move) : Prop :=
  request.action.Moves s.view request.env ms ∧ s.view.Chain ms ∧
    t.toDirectory = s.toDirectory ∧ t.toBooks = Move.runAll ms s.toBooks

theorem savesTenant_cases {request : Request} {s t : DB}
    (hsaves : request.action.savesTenant = true)
    (h : request.handler.exec s = .ok ((), t)) : SavedTenant s t := by
  obtain ⟨env, action⟩ := request
  cases action with
  | changeFeeRefundPolicy tenant policy =>
      simp only [Request.handler, changeFeeRefundPolicy, saveTenant, Txn.exec_modify,
        Except.ok.injEq, Prod.mk.injEq, true_and] at h
      subst h
      exact ⟨tenant, fun row => { row with feeRefundPolicy := policy }, fun _ => ⟨rfl, rfl⟩, rfl,
        rfl⟩
  | changeDefaultCurrency tenant currency =>
      simp only [Request.handler, changeDefaultCurrency, Txn.exec_bind_ok] at h
      obtain ⟨_, u, hcheck, hsave⟩ := h
      have hu : s = u := by
        unfold checkVarchar at hcheck
        split at hcheck
        · exact (Prod.mk.inj (Except.ok.inj hcheck)).2
        · cases hcheck
      subst hu
      simp only [saveTenant, Txn.exec_modify, Except.ok.injEq, Prod.mk.injEq, true_and] at hsave
      subst hsave
      exact ⟨tenant, fun row => { row with defaultCurrency := currency }, fun _ => ⟨rfl, rfl⟩, rfl,
        rfl⟩
  | _ => cases hsaves

/-- What a request that ends normally did. -/
theorem exec_cases {request : Request} {s t : DB} (hunique : (s.payments.map (·.id)).Nodup)
    (h : request.handler.exec s = .ok ((), t)) : SavedTenant s t ∨ ∃ ms, Moved request s t ms := by
  cases hsaves : request.action.savesTenant with
  | true => exact Or.inl (savesTenant_cases hsaves h)
  | false =>
      have hwp := wp_handler (φ := fun _ v => v = s) request hsaves fun _ v hv => hv ▸ hunique
      obtain ⟨pend, rfl, ms, hmoves, heffect⟩ := Txn.exec_ok_of_wp hwp h
      have hview : viewOf (fun _ v => v = s) id = s.view := viewOf_alone s id
      rw [hview] at hmoves
      have hchain := heffect.chain
      rw [hview] at hchain
      exact Or.inr ⟨ms, hmoves, hchain, congrArg Prod.fst (heffect.writes s),
        congrArg Prod.snd (heffect.writes s)⟩

/-- One request: it raised, it saved a tenant, or it made its moves. -/
theorem step_cases (request : Request) {s : DB} (hunique : (s.payments.map (·.id)).Nodup) :
    request.handler.commit s = s ∨ SavedTenant s (request.handler.commit s) ∨
      ∃ ms, Moved request s (request.handler.commit s) ms := by
  rcases request.handler.commit_cases s with ⟨-, h⟩ | h
  · exact Or.inl h
  · exact Or.inr (exec_cases hunique h)

/-! ## The directory -/

theorem Directory.Coherent.saved {s t : DB} (h : s.toDirectory.Coherent)
    (hsaved : SavedTenant s t) :
    t.toDirectory.Coherent := by
  obtain ⟨id, f, hf, hdirectory, -⟩ := hsaved
  rw [hdirectory]
  have hrow : ∀ row : Tenant, (if row.id = id then f row else row).id = row.id := by
    intro row
    split
    · exact (hf row).1
    · rfl
  refine ⟨?_, h.accounts, h.providers, h.codes, fun account haccount => ?_, h.accountCustomer⟩
  · have hids : (s.toDirectory.saveTenant id f).tenants.map (·.id) = s.tenants.map (·.id) := by
      rw [Directory.saveTenant, List.map_map]
      exact List.map_congr_left fun row _ => hrow row
    rw [hids]
    exact h.tenants
  · obtain ⟨tenant, htenant, hid⟩ := h.accountTenant account haccount
    exact ⟨_, List.mem_map_of_mem htenant, (hrow tenant).trans hid⟩

theorem coherent_commit (request : Request) {s : DB} (hunique : (s.payments.map (·.id)).Nodup)
    (h : s.toDirectory.Coherent) : (request.handler.commit s).toDirectory.Coherent := by
  rcases step_cases request hunique with heq | hsaved | ⟨ms, -, -, hdirectory, -⟩
  · rw [heq]
    exact h
  · exact h.saved hsaved
  · rw [hdirectory]
    exact h

/-- A chain of moves keeps what each move keeps. -/
theorem chain_invariant {I : Directory → Books → Prop} {d : Directory} {b : Books}
    {ms : List Move}
    (hmove : ∀ (b : Books) (m : Move), I d b → m.Guard (View.alone d b) → I d (m.run b))
    (hchain : (View.alone d b).Chain ms) (h : I d b) : I d (Move.runAll ms b) := by
  induction ms generalizing b with
  | nil => exact h
  | cons m ms ih =>
      obtain ⟨hguard, hrest⟩ := hchain
      rw [View.map_alone] at hrest
      exact ih hrest (hmove b m h hguard)

end Kusanya
