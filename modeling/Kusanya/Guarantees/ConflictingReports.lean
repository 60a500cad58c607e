import Kusanya.Guarantees.CallbackConfinement
import Kusanya.Moves.Completions
import Kusanya.Moves.Composed

/-!
# Reports that a payment does not admit

`_apply_outcome` raises where the status of the payment does not admit the outcome, and nothing
between it and the surrounding transaction catches the exception.  The request is rolled back, and
with it the row of the callback event or the audit row of the query.
-/

namespace Kusanya

open ReadCommitted

/-! ## Reports -/

/-- What a provider reports on a payment: a verified callback, or the answer to a query. -/
inductive Report where
  | event (parsed : ProviderCallbackResult)
  | answer (result : ProviderResult)

def Report.outcome : Report → ProviderOutcome
  | event parsed => parsed.outcome
  | answer result => result.outcome

/-- The request takes in the report on the payment. -/
inductive Report.TakenIn (request : Request) (s : DB) (payment : Payment) : Report → Prop
  | event {code : String} {inbound : InboundCallback} {provider : PaymentProvider}
      {parsed : ProviderCallbackResult} (action : request.action = .providerCallback code inbound)
      (verified : Verified request.env s code inbound provider parsed)
      (fresh : s.knowsEvent provider.id parsed.externalEventId = false)
      (found : s.matchReference parsed.providerReference = some payment) :
      TakenIn request s payment (.event parsed)
  | answer {tenant pk : ℕ} {provider : PaymentProvider} {adapter : Adapter}
      {result : ProviderResult} (action : request.action = .paymentQuery tenant pk)
      (found : s.payments.find? (fun p => p.id = pk && p.tenant = tenant) = some payment)
      (served : s.providers.find? (·.id = payment.provider) = some provider)
      (registered : request.env.registry provider.code = some adapter)
      (answers : adapter.queryPayment payment.merchantReference = .ok result) :
      TakenIn request s payment (.answer result)

/-- The status neither is the one reported nor may become it. -/
def PaymentStatus.Refuses (status : PaymentStatus) (outcome : ProviderOutcome) : Prop :=
  ¬status.Accepts outcome

/-- The trace of the report in the database. -/
def Report.Recorded (payment : Payment) (s t : DB) : Report → Prop
  | event parsed => ∃ row, t.callbackEvents = s.callbackEvents ++ [row] ∧
      row.outcome = .processed ∧ row.externalEventId = parsed.externalEventId ∧
        row.payment = some payment.id ∧
      parsed.rawResponse = some row.rawPayload
  | answer result => ∃ row ∈ t.auditLog.drop s.auditLog.length, row.action = "payment.queried" ∧
      row.target = some (.payment payment.id) ∧
      row.metadata = [("provider_outcome", result.outcome.value)]

/-- The request ends normally and the report is recorded; where the status refuses the outcome,
the payment and the money are as before. -/
def Report.Survives (request : Request) (s : DB) (payment : Payment) (report : Report) : Prop :=
  ∃ t, request.handler.exec s = .ok ((), t) ∧ report.Recorded payment s t ∧
    (payment.status.Refuses report.outcome →
      t.toBooks = { s.toBooks with callbackEvents := t.callbackEvents })

/-- A query is the first to learn the reference of the payment. -/
def Payment.LearnsFrom (payment : Payment) (result : ProviderResult) : Prop :=
  result.providerReference ≠ "" ∧ payment.providerReference = ""

instance (payment : Payment) (result : ProviderResult) :
    Decidable (payment.LearnsFrom result) :=
  inferInstanceAs (Decidable (_ ∧ _))

/-- The rows that record the report can be stored; and a query learns no reference on the side
where the status refuses its outcome. -/
def Report.Fits (env : Env) (s : DB) (payment : Payment) : Report → Prop
  | event parsed => parsed.Fits ∧ s.FreshEvent (env.gen.callbackEventId 0) ∧
      '\x00' ∉ parsed.providerReference.toList
  | answer result => env.Auditable ∧ (payment.LearnsFrom result →
      Varchar 100 result.providerReference ∧ payment.status.Accepts result.outcome)

section Reports

variable {env : Env} {request : Request} {s t : DB} {payment after : Payment} {report : Report}

/-- Where an outcome is applied that the status refuses, it changes nothing. -/
theorem Applies.stays {given : Related} {outcome : ProviderOutcome}
    (h : Applies env s payment given outcome) (hrefuses : payment.status.Refuses outcome) :
    payment.status.moves outcome = false := by
  have hknown : ∀ target, outcome.toStatus? = some target → outcome.reported = target →
      payment.status.moves outcome = false := by
    intro target htarget hreported
    rw [Applies, htarget] at h
    rcases h with hsame | ⟨hallowed, -⟩
    · exact absurd (Or.inl (hsame.trans hreported.symm)) hrefuses
    · rw [← hreported] at hallowed
      exact absurd (Or.inr hallowed) hrefuses
  cases outcome with
  | successful | failed | pending => exact hknown _ rfl rfl
  | unknown =>
      have hnot : PaymentStatus.unknown ∉ payment.status.allowedTransitions :=
        fun hallowed => hrefuses (Or.inr hallowed)
      revert hnot
      cases payment.status <;> decide

/-- A callback that is applied is on record. -/
theorem applied_event_survives {provider : PaymentProvider} {parsed : ProviderCallbackResult}
    (hp : payment ∈ s.payments) (hfirst : FirstDelivery env s.toBooks provider.id parsed)
    (happlies : Applies env s payment {} parsed.outcome)
    (happly : (applyOutcome env payment {} parsed.outcome).exec (inBooks (·.linkEvent
      (parsed.newEvent (env.gen.callbackEventId 0) provider.id) payment.id) s) =
        .ok (after, t)) :
    (Report.event parsed).Recorded payment s t ∧
      (payment.status.Refuses parsed.outcome →
        t.toBooks = { s.toBooks with callbackEvents := t.callbackEvents }) := by
  obtain ⟨raw, hraw⟩ := Option.isSome_iff_exists.mp hfirst.fits.2
  obtain ⟨new, hnew⟩ : ∃ new, new = parsed.newEvent (env.gen.callbackEventId 0) provider.id :=
    ⟨_, rfl⟩
  rw [← hnew] at happly
  have hrow : payment ∈ (inBooks (·.linkEvent new payment.id) s).payments := hp
  obtain ⟨ms, happlied, -, -, hbooks⟩ := applyOutcome_moves hrow happly
  have hfresh : s.FreshEvent new.id := by
    rw [hnew]
    exact hfirst.fresh
  constructor
  · refine ⟨{ new with payment := some payment.id }, ?_, ?_, ?_, rfl, ?_⟩
    · rw [hbooks, happlied.callbackEvents]
      exact update_newEvent hfresh _
    · rw [hnew]
      rfl
    · rw [hnew]
      rfl
    · rw [hnew, ProviderCallbackResult.newEvent, hraw]
      rfl
  · intro hrefuses
    rw [applyOutcome_stays (happlies.stays hrefuses)] at happly
    obtain ⟨-, rfl⟩ := Prod.mk.inj (Except.ok.inj happly)
    rfl

theorem event_survives {provider : PaymentProvider} {parsed : ProviderCallbackResult}
    (hnew : s.knowsEvent provider.id parsed.externalEventId = false)
    (hfound : s.matchReference parsed.providerReference = some payment) :
    (∃ event t, (onParsed env provider parsed).exec s = .ok (event, t) ∧
        (Report.event parsed).Recorded payment s t ∧
        (payment.status.Refuses parsed.outcome →
          t.toBooks = { s.toBooks with callbackEvents := t.callbackEvents })) ↔
      (Report.event parsed).Fits env s payment ∧ Applies env s payment {} parsed.outcome := by
  constructor
  · rintro ⟨event, t, hexec, ⟨row, hrows, hprocessed, -⟩, -⟩
    rcases delivery_cases hexec with ⟨-, hagain⟩ | ⟨hfirst, -⟩
    · -- A second row of the event is a duplicate.
      obtain ⟨-, dup, _, hduplicate, hbooks⟩ := onDuplicate_ok hagain
      have hlast : s.callbackEvents ++ [row] = s.callbackEvents ++ [dup] :=
        hrows.symm.trans (congrArg Books.callbackEvents hbooks)
      obtain rfl := (List.cons.inj (List.append_cancel_left hlast)).1
      rw [hduplicate] at hprocessed
      cases hprocessed
    · have happlies := (completes_onParsed env hfirst hfound).mp ⟨_, hexec⟩
      exact ⟨⟨hfirst.fits, hfirst.fresh, hfirst.reference⟩, happlies⟩
  · rintro ⟨⟨hfits, hfresh, hreference⟩, happlies⟩
    have hfirst : FirstDelivery env s.toBooks provider.id parsed :=
      ⟨hfits, hnew, hfresh, hreference⟩
    obtain ⟨⟨event, t⟩, hexec⟩ := (completes_onParsed env hfirst hfound).mpr happlies
    refine ⟨event, t, hexec, ?_⟩
    rcases delivery_cases hexec with ⟨hagain, -⟩ | ⟨-, ⟨hnone, -⟩ | ⟨matched, _, hmatch, happly⟩⟩
    · exact absurd hfirst hagain
    · rw [hfound] at hnone
      cases hnone
    · obtain rfl := Option.some.inj (hfound.symm.trans hmatch)
      exact applied_event_survives (matchReference_mem hfound).1 hfirst happlies happly

/-! ### Queries -/

/-- The payment with the reference that a query learns. -/
def Payment.learned (payment : Payment) (result : ProviderResult) : Payment :=
  { payment with
    providerReference :=
      if payment.LearnsFrom result then result.providerReference else payment.providerReference }

/-- The row of the payment with the reference that a query learns. -/
def DB.learned (s : DB) (payment : Payment) (result : ProviderResult) : DB :=
  if payment.LearnsFrom result then
    inBooks (·.updatePayment payment.id fun row =>
      { row with providerReference := result.providerReference }) s
  else s

/-- The row that records a query. -/
def queriedRow (env : Env) (payment : Payment) (result : ProviderResult) : AuditLog :=
  { action := "payment.queried"
    actor := env.actor
    tenant := some payment.tenant
    target := some (.payment payment.id)
    after := []
    metadata := [("provider_outcome", result.outcome.value)]
    ipAddress := env.storedAddress
    userAgent := env.userAgent
    correlationId := env.correlationId
    createdAt := env.now }

theorem learnReference_eq (payment : Payment) (result : ProviderResult) (s : DB) :
    (learnReference payment result.providerReference).exec s =
      if payment.LearnsFrom result → Varchar 100 result.providerReference then
        .ok (payment.learned result, s.learned payment result)
      else .error .dataError := by
  unfold learnReference Payment.learned DB.learned
  by_cases hlearns : payment.LearnsFrom result
  · have hcond : result.providerReference ≠ "" ∧ payment.providerReference = "" := hlearns
    rw [if_pos hcond, if_pos hlearns, if_pos hlearns, Txn.exec_bind, exec_checkVarchar]
    by_cases hfits : Varchar 100 result.providerReference
    · rw [if_pos hfits, if_pos fun _ => hfits]
      rfl
    · rw [if_neg hfits, if_neg fun h => hfits (h hlearns)]
  · have hcond : ¬(result.providerReference ≠ "" ∧ payment.providerReference = "") := hlearns
    rw [if_neg hcond, if_neg hlearns, if_neg hlearns, if_pos fun h => absurd h hlearns]
    rfl

/-- The audit log and what an outcome looks at do not depend on the reference. -/
theorem learned_reads (s : DB) (payment : Payment) (result : ProviderResult) :
    (s.learned payment result).auditLog = s.auditLog ∧
      (s.learned payment result).looked = s.looked := by
  unfold DB.learned
  split
  · exact ⟨rfl, rfl⟩
  · exact ⟨rfl, rfl⟩

/-- A reference that is learned is a change to the payment. -/
theorem learned_books {result : ProviderResult} (hp : payment ∈ s.payments) :
    (s.learned payment result).toBooks = { s.toBooks with
      callbackEvents := (s.learned payment result).callbackEvents } ↔
      ¬payment.LearnsFrom result := by
  unfold DB.learned
  by_cases hlearns : payment.LearnsFrom result
  · rw [if_pos hlearns]
    refine iff_of_false ?_ (not_not.mpr hlearns)
    intro hsame
    have hrows : s.payments.map (fun row => if row.id = payment.id then
        { row with providerReference := result.providerReference } else row) = s.payments.map id :=
      (congrArg Books.payments hsame).trans (List.map_id _).symm
    have hrow := List.map_inj_left.mp hrows payment hp
    rw [if_pos rfl] at hrow
    exact hlearns.1 ((congrArg Payment.providerReference hrow).trans hlearns.2)
  · rw [if_neg hlearns]
    exact iff_of_true rfl hlearns

section Query

variable {provider : PaymentProvider} {adapter : Adapter} {result : ProviderResult}

/-- A query whose rows can be stored applies its outcome. -/
theorem queryPayment_eq
    (hprovider : s.providers.find? (·.id = payment.provider) = some provider)
    (hregistered : env.registry provider.code = some adapter)
    (hanswers : adapter.queryPayment payment.merchantReference = .ok result)
    (hfits : payment.LearnsFrom result → Varchar 100 result.providerReference)
    (hauditable : env.Auditable) :
    (queryPayment env payment).exec s =
      (applyOutcome env (payment.learned result) {} result.outcome).exec
        (inTrail (·.addAudit (queriedRow env payment result)) (s.learned payment result)) := by
  have hadapter : (adapterOf env payment).exec s = .ok (adapter, s) := by
    rw [adapterOf, getProvider, Txn.exec_bind, (looks_getRow _ _).exec hprovider]
    dsimp only
    rw [getAdapter, hregistered]
    rfl
  have hask : (askProvider (.queryPayment payment.merchantReference)
      (adapter.queryPayment payment.merchantReference)).exec s = .ok (result, s) := by
    rw [hanswers]
    rfl
  simp only [queryPayment, Txn.exec_bind, hadapter, hask, learnReference_eq, if_pos hfits,
    exec_recordAuditEvent, if_pos hauditable]
  rfl

/-- A query that ends could store its rows. -/
theorem fits_of_queryPayment
    (hprovider : s.providers.find? (·.id = payment.provider) = some provider)
    (hregistered : env.registry provider.code = some adapter)
    (hanswers : adapter.queryPayment payment.merchantReference = .ok result)
    (h : Completes (queryPayment env payment) s) :
    (payment.LearnsFrom result → Varchar 100 result.providerReference) ∧ env.Auditable := by
  obtain ⟨⟨after, t⟩, hexec⟩ := h
  obtain ⟨found, s₁, hadapter, h₁⟩ := (Txn.exec_bind_ok _).mp hexec
  obtain ⟨answer, s₂, hask, h₂⟩ := (Txn.exec_bind_ok _).mp h₁
  obtain ⟨learned, s₃, hlearn, h₃⟩ := (Txn.exec_bind_ok _).mp h₂
  obtain ⟨_, s₄, haudit, -⟩ := (Txn.exec_bind_ok _).mp h₃
  obtain ⟨row, s₀, hrow, hget⟩ := (Txn.exec_bind_ok _).mp hadapter
  obtain ⟨hfound, rfl⟩ := (looks_getRow _ _).exec_ok hrow
  obtain rfl := Option.some.inj (hfound.symm.trans hprovider)
  rw [getAdapter, hregistered] at hget
  obtain ⟨rfl, rfl⟩ := Prod.mk.inj (Except.ok.inj hget)
  rw [hanswers] at hask
  obtain ⟨rfl, rfl⟩ := Prod.mk.inj (Except.ok.inj hask)
  constructor
  · by_contra hwide
    rw [learnReference_eq, if_neg hwide] at hlearn
    cases hlearn
  · exact (completes_recordAuditEvent (s := s₃)).mp ⟨_, haudit⟩

/-- A query leaves its audit row, whatever is applied after it. -/
theorem queried_recorded
    (h : (applyOutcome env (payment.learned result) {} result.outcome).exec
      (inTrail (·.addAudit (queriedRow env payment result)) (s.learned payment result)) =
        .ok (after, t)) :
    (Report.answer result).Recorded payment s t := by
  obtain ⟨rows, hrows⟩ := (applyOutcome_composed {} result.outcome).audits h
  refine ⟨queriedRow env payment result, ?_, rfl, rfl, rfl⟩
  have hsplit : t.auditLog = s.auditLog ++ (queriedRow env payment result :: rows) := by
    rw [← hrows, ← (learned_reads s payment result).1]
    exact List.append_assoc _ _ _
  rw [hsplit, List.drop_left]
  exact List.mem_cons_self

theorem completes_learned :
    Completes (applyOutcome env (payment.learned result) {} result.outcome)
        (inTrail (·.addAudit (queriedRow env payment result)) (s.learned payment result)) ↔
      Applies env s payment {} result.outcome := by
  have hlooked : (inTrail (·.addAudit (queriedRow env payment result))
      (s.learned payment result)).looked = s.looked := (learned_reads s payment result).2
  rw [completes_applyOutcome]
  exact applies_congr hlooked rfl rfl rfl rfl rfl rfl rfl rfl rfl _

theorem answer_survives (hp : payment ∈ s.payments)
    (hprovider : s.providers.find? (·.id = payment.provider) = some provider)
    (hregistered : env.registry provider.code = some adapter)
    (hanswers : adapter.queryPayment payment.merchantReference = .ok result) :
    (∃ after t, (queryPayment env payment).exec s = .ok (after, t) ∧
        (Report.answer result).Recorded payment s t ∧
        (payment.status.Refuses result.outcome →
          t.toBooks = { s.toBooks with callbackEvents := t.callbackEvents })) ↔
      (Report.answer result).Fits env s payment ∧ Applies env s payment {} result.outcome := by
  -- Where the status refuses an outcome that is applied, the query ends with what it learned.
  have hrest : payment.status.Refuses result.outcome → Applies env s payment {} result.outcome →
      ∀ {after t}, (applyOutcome env (payment.learned result) {} result.outcome).exec
        (inTrail (·.addAudit (queriedRow env payment result)) (s.learned payment result)) =
          .ok (after, t) →
        (t.toBooks = { s.toBooks with callbackEvents := t.callbackEvents } ↔
          ¬payment.LearnsFrom result) := by
    intro hrefuses happlies after t h
    have hstays : (payment.learned result).status.moves result.outcome = false :=
      happlies.stays hrefuses
    rw [applyOutcome_stays hstays] at h
    obtain ⟨-, rfl⟩ := Prod.mk.inj (Except.ok.inj h)
    exact learned_books hp
  constructor
  · rintro ⟨after, t, hquery, -, hbooks⟩
    obtain ⟨hfits, hauditable⟩ :=
      fits_of_queryPayment hprovider hregistered hanswers ⟨_, hquery⟩
    rw [queryPayment_eq hprovider hregistered hanswers hfits hauditable] at hquery
    have happlies := completes_learned.mp ⟨_, hquery⟩
    refine ⟨⟨hauditable, fun hlearns => ⟨hfits hlearns, ?_⟩⟩, happlies⟩
    by_contra hrefuses
    exact (hrest hrefuses happlies hquery).mp (hbooks hrefuses) hlearns
  · rintro ⟨⟨hauditable, hlearning⟩, happlies⟩
    obtain ⟨⟨after, t⟩, hexec⟩ := completes_learned.mpr happlies
    refine ⟨after, t, ?_, queried_recorded hexec, fun hrefuses => ?_⟩
    · rw [queryPayment_eq hprovider hregistered hanswers (fun hlearns => (hlearning hlearns).1)
        hauditable]
      exact hexec
    · exact (hrest hrefuses happlies hexec).mpr fun hlearns =>
        hrefuses (hlearning hlearns).2

end Query

/-- The request ends as the service does that takes in the report. -/
theorem survives_of_service {α : Type} {p : Tx α}
    (h : ∀ t, request.handler.exec s = .ok ((), t) ↔ ∃ result, p.exec s = .ok (result, t)) :
    report.Survives request s payment ↔
      ∃ result t, p.exec s = .ok (result, t) ∧ report.Recorded payment s t ∧
        (payment.status.Refuses report.outcome →
          t.toBooks = { s.toBooks with callbackEvents := t.callbackEvents }) := by
  constructor
  · rintro ⟨t, hexec, hsurvives⟩
    obtain ⟨result, hservice⟩ := (h t).mp hexec
    exact ⟨result, t, hservice, hsurvives⟩
  · rintro ⟨result, t, hservice, hsurvives⟩
    exact ⟨t, (h t).mpr ⟨result, hservice⟩, hsurvives⟩

/-- A verified callback ends as the service does with what was parsed. -/
theorem providerCallback_ok {code : String} {inbound : InboundCallback}
    {provider : PaymentProvider} {parsed : ProviderCallbackResult}
    (h : Verified env s code inbound provider parsed) (t : DB) :
    (providerCallback env code inbound).exec s = .ok ((), t) ↔
      ∃ event, (onParsed env provider parsed).exec s = .ok (event, t) := by
  rw [providerCallback_exec h]
  cases (onParsed env provider parsed).exec s with
  | error e =>
      constructor
      · intro hexec
        cases hexec
      · rintro ⟨event, hexec⟩
        cases hexec
  | ok r =>
      obtain ⟨event, u⟩ := r
      constructor
      · intro hexec
        obtain ⟨-, rfl⟩ := Prod.mk.inj (Except.ok.inj hexec)
        exact ⟨event, rfl⟩
      · rintro ⟨_, hexec⟩
        obtain ⟨-, rfl⟩ := Prod.mk.inj (Except.ok.inj hexec)
        rfl

theorem paymentQuery_ok {tenant pk : ℕ}
    (h : s.payments.find? (fun p => p.id = pk && p.tenant = tenant) = some payment) (t : DB) :
    (paymentQuery env tenant pk).exec s = .ok ((), t) ↔
      ∃ after, (queryPayment env payment).exec s = .ok (after, t) := by
  have hload : (paymentOr404 tenant pk).exec s = .ok (payment, s) := by
    rw [paymentOr404, getOr404, Txn.exec_bind, Txn.exec_fetch, h]
    rfl
  rw [paymentQuery, Txn.exec_bind, hload]
  dsimp only
  rw [Txn.exec_bind_ok]
  constructor
  · rintro ⟨after, u, hexec, hret⟩
    obtain ⟨-, rfl⟩ := Prod.mk.inj (Except.ok.inj hret)
    exact ⟨after, hexec⟩
  · rintro ⟨after, hexec⟩
    exact ⟨after, t, hexec, rfl⟩

end Reports

/-- A bill, and a payment on it that the provider refused. -/
def failedPayment : List Request :=
  [issueBill, payIssuedBill 2 (answering .failed "p" "") (amountOf 4000)]

end Kusanya
