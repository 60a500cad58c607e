import Kusanya.Invariants.Balances
import Kusanya.Moves.Composed
import Kusanya.Moves.TurnOperations

/-!
# Event completeness

Each status of its own event that a payment enters is announced by one audit row, one
notification per address of the customer and one delivery per subscribed endpoint, by whatever
operation it is entered.  The branch of `initiate_payment` for a `ProviderError` has no
`_dispatch`: a subscriber of `payment.failed` is not told.
-/

namespace Kusanya

open ReadCommitted Support

/-- The requests that run an operation of `apps.payments` or `apps.reconciliation`. -/
def Request.isPaymentOperation (request : Request) : Bool :=
  match request.action with
  | .payBill .. | .paymentListCreate .. | .paymentQuery .. | .paymentRefund ..
  | .paymentReverse .. | .providerCallback .. | .triggerRun .. => true
  | _ => false

/-- An initiation that reaches the provider and is refused while somebody of the tenant is
subscribed to `payment.failed`. -/
def Request.Drops (request : Request) (db : DB) : Prop :=
  ∃ input bill, request.initiation? db = some (input, bill) ∧
    input.reaches request.env db = true ∧ input.Drops request.env db

/-- Where no adapter refuses, nobody misses anything. -/
theorem not_drops_of_answers {request : Request} {db : DB}
    (h : ∀ code adapter call, request.env.registry code = some adapter →
      refusal? (adapter.initiatePayment call) = none) : ¬request.Drops db := by
  rintro ⟨input, bill, -, -, tenant, adapter, message, -, hadapter, hrefusal, -⟩
  rw [h _ _ _ hadapter] at hrefusal
  cases hrefusal

section Requests

variable {env : Env} {s t : DB}

/-- An initiation, from a view that has found its objects. -/
theorem complete_payAndForget {input : InitiateInput} {bill : Option Bill} (hs : s.PaymentsUnique)
    (hcn : input.controlNumber ∈ s.controlNumbers)
    (hbill : ∀ row, bill = some row → input.controlNumber.bill? = some row.id ∧ row ∈ s.bills)
    (hheard : ¬(input.reaches env s = true ∧ input.Drops env s))
    (h : (payAndForget env input bill).exec s = .ok ((), t)) : Complete s t := by
  unfold payAndForget at h
  obtain ⟨payment, u, hinitiate, hret⟩ := (Txn.exec_bind_ok _).mp h
  obtain ⟨-, rfl⟩ := Prod.mk.inj (Except.ok.inj hret)
  exact exec_initiatePayment hs hcn hbill hheard hinitiate

theorem complete_payBill {tenant pk : ℕ} {code payer : String} {amount : EnteredAmount}
    {metadata : List (String × String)} (hs : s.PaymentsUnique)
    (hheard : ¬Request.Drops ⟨env, .payBill tenant pk code amount payer metadata⟩ s)
    (h : (payBill env tenant pk code amount payer metadata).exec s = .ok ((), t)) :
    Complete s t := by
  unfold payBill billOr404 controlNumberOfBill at h
  rw [Txn.exec_bind, exec_getOr404] at h
  cases hbill : s.bills.find? fun b => b.id = pk && b.tenant = tenant with
  | none =>
      rw [hbill] at h
      cases h
  | some bill =>
      rw [hbill] at h
      dsimp only at h
      rw [Txn.exec_bind, Txn.exec_fetch] at h
      dsimp only at h
      cases hcn : s.controlNumbers.find? (·.owner = .bill bill.id) with
      | none =>
          rw [hcn] at h
          obtain ⟨-, rfl⟩ := Prod.mk.inj (Except.ok.inj h)
          exact Complete.refl _
      | some cn =>
          rw [hcn] at h
          dsimp only at h
          rw [Txn.exec_bind, exec_getRow] at h
          cases hprovider : s.providers.find? (·.code = code) with
          | none =>
              rw [hprovider] at h
              cases h
          | some provider =>
              rw [hprovider] at h
              have hinitiation : Request.initiation?
                  ⟨env, .payBill tenant pk code amount payer metadata⟩ s =
                    some (⟨tenant, cn, provider, none, amount.toAmount, amount.text, payer, "",
                      metadata⟩, some bill) := by
                simp [Request.initiation?, hbill, hcn, hprovider]
              have howner : cn.owner = .bill bill.id := by simpa using List.find?_some hcn
              refine complete_payAndForget hs (List.mem_of_find?_eq_some hcn) ?_
                (fun hdrops => hheard ⟨_, _, hinitiation, hdrops⟩) h
              rintro row hrow
              obtain rfl := Option.some.inj hrow
              exact ⟨by simp [ControlNumber.bill?, howner], List.mem_of_find?_eq_some hbill⟩

theorem complete_paymentListCreate {tenant : ℕ} {value code : String} {channel : Option String}
    {amount : Amount} {payer key : String} {metadata : List (String × String)}
    (hs : s.PaymentsUnique)
    (hheard : ¬Request.Drops
      ⟨env, .paymentListCreate tenant value code channel amount payer key metadata⟩ s)
    (h : (paymentListCreate env tenant value code channel amount payer key metadata).exec s =
      .ok ((), t)) : Complete s t := by
  unfold paymentListCreate providerOr404 at h
  rw [Txn.exec_bind, exec_getOr404] at h
  cases hcn : s.controlNumbers.find? fun c => c.value = value && c.tenant = tenant with
  | none =>
      rw [hcn] at h
      cases h
  | some cn =>
      rw [hcn] at h
      dsimp only at h
      rw [Txn.exec_bind, exec_getOr404] at h
      cases hprovider : s.providers.find? (·.code = code) with
      | none =>
          rw [hprovider] at h
          cases h
      | some provider =>
          rw [hprovider] at h
          have hinitiation : Request.initiation?
              ⟨env, .paymentListCreate tenant value code channel amount payer key metadata⟩ s =
                some (⟨tenant, cn, provider, channel, amount, amount.cents.str, payer, key,
                  metadata⟩, none) := by
            simp [Request.initiation?, hcn, hprovider]
          exact complete_payAndForget hs (List.mem_of_find?_eq_some hcn)
            (fun row hrow => by cases hrow)
            (fun hdrops => hheard ⟨_, _, hinitiation, hdrops⟩) h

/-- What a view does to the payment it has found. -/
theorem complete_paymentOr404 {tenant pk : ℕ} {then' : Payment → Tx Unit}
    (hthen : ∀ payment, payment ∈ s.payments → (then' payment).exec s = .ok ((), t) →
      Complete s t)
    (h : (paymentOr404 tenant pk >>= then').exec s = .ok ((), t)) : Complete s t := by
  unfold paymentOr404 at h
  rw [Txn.exec_bind, exec_getOr404] at h
  cases hfound : s.payments.find? fun p => p.id = pk && p.tenant = tenant with
  | none =>
      rw [hfound] at h
      cases h
  | some payment =>
      rw [hfound] at h
      exact hthen payment (List.mem_of_find?_eq_some hfound) h

theorem complete_paymentQuery {tenant pk : ℕ} (hs : s.PaymentsUnique)
    (h : (paymentQuery env tenant pk).exec s = .ok ((), t)) : Complete s t := by
  refine complete_paymentOr404 (fun payment hmem hquery => ?_) h
  obtain ⟨payment', u, hqueried, hret⟩ := (Txn.exec_bind_ok _).mp hquery
  obtain ⟨-, rfl⟩ := Prod.mk.inj (Except.ok.inj hret)
  exact (exec_queryPayment hs hmem hqueried).complete hs hmem

theorem complete_paymentRefund {tenant pk : ℕ} {amount : Option Amount} (hs : s.PaymentsUnique)
    (h : (paymentRefund env tenant pk amount).exec s = .ok ((), t)) : Complete s t := by
  refine complete_paymentOr404 (fun payment hmem hrefund => ?_) h
  have hearly : Early (refundPayment env payment amount) := refundPayment_early amount
  rcases exec_ok_showingErrors ((Txn.wp_bind _ _).mpr hearly) hrefund with hok | rfl
  · obtain ⟨payment', u, hrefunded, hret⟩ := (Txn.exec_bind_ok _).mp hok
    obtain ⟨-, rfl⟩ := Prod.mk.inj (Except.ok.inj hret)
    exact (exec_refundPayment hs hmem hrefunded).complete hs hmem
  · exact Complete.refl _

theorem complete_paymentReverse {tenant pk : ℕ} (hs : s.PaymentsUnique)
    (h : (paymentReverse env tenant pk).exec s = .ok ((), t)) : Complete s t := by
  refine complete_paymentOr404 (fun payment hmem hreverse => ?_) h
  have hearly : Early (reversePayment env payment) := reversePayment_early
  rcases exec_ok_showingErrors ((Txn.wp_bind _ _).mpr hearly) hreverse with hok | rfl
  · obtain ⟨payment', u, hreversed, hret⟩ := (Txn.exec_bind_ok _).mp hok
    obtain ⟨-, rfl⟩ := Prod.mk.inj (Except.ok.inj hret)
    exact (exec_reversePayment hs hmem hreversed).complete hs hmem
  · exact Complete.refl _

theorem complete_providerCallback {code : String} {inbound : InboundCallback}
    (hs : s.PaymentsUnique) (h : (providerCallback env code inbound).exec s = .ok ((), t)) :
    Complete s t := by
  unfold providerCallback at h
  rw [Txn.exec_bind, Txn.exec_fetch] at h
  dsimp only at h
  split at h
  · obtain ⟨-, rfl⟩ := Prod.mk.inj (Except.ok.inj h)
    exact Complete.refl _
  · obtain ⟨event, u, hprocess, hret⟩ := (Txn.exec_bind_ok _).mp h
    obtain ⟨-, rfl⟩ := Prod.mk.inj (Except.ok.inj hret)
    exact exec_processCallback hs hprocess

theorem complete_triggerRun {tenant : ℕ} (hs : s.PaymentsUnique)
    (h : (triggerRun env tenant).exec s = .ok ((), t)) : Complete s t := by
  obtain ⟨run, u, hreconcile, hret⟩ := (Txn.exec_bind_ok _).mp h
  obtain ⟨-, rfl⟩ := Prod.mk.inj (Except.ok.inj hret)
  exact (exec_runReconciliation hs hreconcile).complete

/-- One step. -/
theorem complete_commit {request : Request} (hs : s.PaymentsUnique)
    (hpayment : request.isPaymentOperation = true) (hheard : ¬request.Drops s) :
    Complete s (request.handler.commit s) := by
  rcases request.handler.commit_cases s with ⟨-, hsame⟩ | hok
  · rw [hsame]
    exact Complete.refl s
  · obtain ⟨env, action⟩ := request
    cases action with
    | payBill => exact complete_payBill hs hheard hok
    | paymentListCreate => exact complete_paymentListCreate hs hheard hok
    | paymentQuery => exact complete_paymentQuery hs hok
    | paymentRefund => exact complete_paymentRefund hs hok
    | paymentReverse => exact complete_paymentReverse hs hok
    | providerCallback => exact complete_providerCallback hs hok
    | triggerRun => exact complete_triggerRun hs hok
    | _ => cases hpayment

end Requests

/-- In every run without such an initiation, each payment operation announces exactly the statuses
that payments enter in it. -/
theorem event_completeness {start : DB} (hstart : Initial start) (requests : List Request)
    (hheard : ∀ earlier request, earlier ++ [request] <+: requests →
      ¬request.Drops (afterAll start earlier)) (earlier : List Request) (request : Request)
    (hrun : earlier ++ [request] <+: requests) (hpayment : request.isPaymentOperation = true) :
    Complete (afterAll start earlier) (afterAll start (earlier ++ [request])) := by
  have hafter :
      afterAll start (earlier ++ [request]) = request.handler.commit (afterAll start earlier) :=
    after_concat _ _ _ _
  have hunique : (afterAll start earlier).PaymentsUnique :=
    (balanced_afterAll hstart earlier).toBooked.keyed
  rw [hafter]
  exact complete_commit hunique hpayment (hheard earlier request hrun)

/-- An installation with a webhook endpoint that is subscribed to everything. -/
def listeningInstallation : DB := { smallInstallation with endpoints := [⟨1, 1, true, []⟩] }

theorem listeningInstallation_initial : Initial listeningInstallation where
  books := rfl
  directory := by constructor <;> decide

theorem envAt_answers (n : ℕ) (outcome : ProviderOutcome) (reference eventId : String) :
    ∀ code adapter call,
      (envAt n (answering outcome reference eventId)).registry code = some adapter →
      refusal? (adapter.initiatePayment call) = none := by
  intro code adapter call h
  unfold envAt at h
  dsimp only at h
  split at h
  · obtain rfl := Option.some.inj h
    rfl
  · cases h

/-- A pending payment that a query finds successful. -/
theorem event_completeness_query :
    Complete (afterAll listeningInstallation pendingPayment)
      (afterAll listeningInstallation (pendingPayment ++
        [{ env := envAt 3 (answering .successful "p" ""), action := .paymentQuery 1 2 }])) := by
  refine event_completeness listeningInstallation_initial _ ?_ pendingPayment _
    (List.prefix_refl _) rfl
  intro earlier request hrun
  have hmem : request ∈ pendingPayment ++
      [{ env := envAt 3 (answering .successful "p" ""), action := .paymentQuery 1 2 }] :=
    hrun.subset (List.mem_append_right _ (List.mem_singleton_self _))
  apply not_drops_of_answers
  simp only [pendingPayment, List.cons_append, List.nil_append, List.mem_cons, List.not_mem_nil,
    or_false] at hmem
  rcases hmem with rfl | rfl | rfl <;> exact envAt_answers _ _ _ _

/-- Each delivery that a complete step owes is a row that it adds. -/
theorem Complete.deliveries_length {s t : DB} (h : Complete s t) :
    t.deliveries.length =
      s.deliveries.length + ((s.entered t).flatMap (·.deliveriesFrom s)).length := by
  obtain ⟨entries, hentered, hannounced⟩ := h
  obtain ⟨rows, hrows, hkeys⟩ := hannounced.deliveries
  have hlength : rows.length = (entries.flatMap (·.deliveriesFrom s)).length := by
    rw [← hkeys, List.length_map]
  rw [hrows, List.length_append, hlength, (hentered.flatMap_right _).length_eq]

/-- A provider that refuses every initiation. -/
def refusing : Adapter :=
  { answering .failed "" "" with initiatePayment := fun _ => .error (.providerError "refused") }

/-- The refused payment fails, and the endpoint is not told. -/
theorem event_completeness_refused :
    ¬∀ start, Initial start → ∀ (earlier : List Request) (request : Request),
      request.isPaymentOperation = true →
        Complete (afterAll start earlier) (afterAll start (earlier ++ [request])) := by
  intro hall
  have hcomplete := hall _ listeningInstallation_initial [issueBill]
    (payIssuedBill 2 refusing (amountOf 4000)) rfl
  exact absurd hcomplete.deliveries_length (by decide +kernel)

end Kusanya
