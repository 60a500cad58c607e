import Kusanya.Moves.Payments

/-!
# The moves of the payment operations

`initiate_payment`, `query_payment`, `process_callback`, `refund_payment` and
`reverse_payment`.  The inductive types list the moves each of them may make, with
the answer of the provider that leads there.
-/

namespace Kusanya

open ReadCommitted

variable {κ : Call → Prop} {φ : Resource → DB → Prop} {pend : DB → DB}
variable {R : Error → (DB → DB) → Prop} {env : Env}

/-! ## Asking the provider -/

/-- The adapter that serves a payment. -/
def Serves (view : View) (env : Env) (payment : Payment) (adapter : Adapter) : Prop :=
  ∃ provider, (view.Sees fun d _ => d.providers.find? (·.id = payment.provider) = some provider) ∧
    env.registry provider.code = some adapter

theorem wp_getAdapter {Q : Adapter → (DB → DB) → Prop} (provider : PaymentProvider)
    (hR : ∀ e, R (.adapter e) pend)
    (hQ : ∀ adapter, env.registry provider.code = some adapter → Q adapter pend) :
    (getAdapter env provider).wp κ φ pend Q R := by
  unfold getAdapter
  split
  · next adapter hadapter => exact hQ adapter hadapter
  · exact hR _

theorem wp_adapterOf {Q : Adapter → (DB → DB) → Prop} {payment : Payment}
    (hR : ∀ e, e.isValidationError = false → R e pend)
    (hQ : ∀ adapter, Serves (viewOf φ pend) env payment adapter → Q adapter pend) :
    (adapterOf env payment).wp κ φ pend Q R := by
  simp only [adapterOf, getProvider, Txn.wp_bind, wp_getRow]
  intro v hv
  refine ⟨fun provider hfound => ?_, fun _ => hR _ rfl⟩
  refine wp_getAdapter provider (fun e => hR _ rfl) fun adapter hadapter => ?_
  exact hQ adapter ⟨provider, (seesAt_viewOf
    (P := fun d _ => d.providers.find? (·.id = payment.provider) = some provider) hv hfound).sees,
    hadapter⟩

@[simp] theorem wp_askProvider {α : Type} {Q : α → (DB → DB) → Prop} (call : Call)
    (answer : Except AdapterError α) :
    (askProvider call answer).wp κ φ pend Q R ↔ κ call ∧
      (∀ result, answer = .ok result → Q result pend) ∧
      (∀ e, answer = .error e → R (.adapter e) pend) := by
  unfold askProvider
  rw [Txn.wp_bind, Txn.wp_invoke]
  cases answer <;> simp

/-! ## References -/

/-- A payment object after the provider's reference has been stored. -/
def Payment.refer (payment : Payment) (reference : String) (raw : Option String) : Payment :=
  { payment with
    providerReference := reference
    rawProviderResponse := raw.getD payment.rawProviderResponse }

theorem mem_updatePayment {books : Books} {row : Payment} (h : row ∈ books.payments)
    (f : Payment → Payment) : f row ∈ (books.updatePayment row.id f).payments := by
  refine List.mem_map.mpr ⟨row, h, ?_⟩
  rw [if_pos rfl]

/-- Storing the reference keeps the object and its row together. -/
theorem effect_refer {payment : Payment} {reference : String} (raw : Option String)
    (h : Varchar 100 reference) :
    Effect φ pend [.refer payment.id reference raw]
      (inBooks (fun b => (Move.refer payment.id reference raw).run b) ∘ pend) :=
  Effect.single h (writes_inBooks _ _)

theorem holds_refer {pend' : DB → DB} {payment : Payment} {reference : String}
    {raw : Option String} (hheld : (viewOf φ pend).Holds payment)
    (h : Effect φ pend [.refer payment.id reference raw] pend') :
    (viewOf φ pend').Holds (payment.refer reference raw) := by
  rw [h.view]
  exact hheld.map fun b hb => mem_updatePayment hb (·.refer reference raw)

/-! ## Queries -/

/-- The moves of the first half of `query_payment`. -/
inductive Learned (payment : Payment) (reference : String) : List Move → Payment → Prop
  | known : Learned payment reference [] payment
  | learned (h : payment.providerReference = "") (hlength : Varchar 100 reference) :
      Learned payment reference [.refer payment.id reference none] (payment.refer reference none)

theorem wp_learnReference {Q : Payment → (DB → DB) → Prop} {payment : Payment}
    {reference : String} (hheld : (viewOf φ pend).Holds payment) (hR : ∀ e p, R e p)
    (hQ : ∀ ms object pend', Learned payment reference ms object → Effect φ pend ms pend' →
      (viewOf φ pend').Holds object → Q object pend') :
    (learnReference payment reference).wp κ φ pend Q R := by
  simp only [learnReference, Txn.wp_ite, Txn.wp_bind, wp_checkVarchar, Txn.wp_acquire, wp_onBooks,
    Txn.pure_eq_ret, Txn.wp_ret]
  refine ⟨fun hlearn => ⟨fun hlength => ?_, fun _ => hR _ _⟩, fun _ => ?_⟩
  · have heffect : Effect φ pend [.refer payment.id reference none] _ := effect_refer none hlength
    exact hQ _ _ _ (.learned hlearn.2 hlength) heffect (holds_refer hheld heffect)
  · exact hQ _ _ _ .known Effect.refl hheld

/-- The moves of `query_payment` after the provider answered `result`. -/
inductive Queried (env : Env) (payment : Payment) (result : ProviderResult) :
    List Move → Payment → Prop
  | mk {refs ms : List Move} {object after : Payment}
      (learned : Learned payment result.providerReference refs object)
      (applied : Applied env object result.outcome ms after) :
      Queried env payment result (refs ++ ms) after

theorem wp_queryPayment {Q : Payment → (DB → DB) → Prop} {payment : Payment}
    (hheld : (viewOf φ pend).Holds payment)
    (hκ : κ (.queryPayment payment.merchantReference)) (hR : ∀ e p, R e p)
    (hQ : ∀ adapter result ms after pend', Serves (viewOf φ pend) env payment adapter →
      adapter.queryPayment payment.merchantReference = .ok result →
      Queried env payment result ms after → Effect φ pend ms pend' → Q after pend') :
    (queryPayment env payment).wp κ φ pend Q R := by
  simp only [queryPayment, Txn.wp_bind]
  refine wp_adapterOf (fun e _ => hR e _) fun adapter hserves => ?_
  rw [wp_askProvider]
  refine ⟨hκ, fun result hresult => ?_, fun e _ => hR _ _⟩
  refine wp_learnReference hheld hR fun refs object p₁ hlearned h₁ hheld₁ => ?_
  refine (recordAuditEvent_onTrail _ _ _ _ _ _).wp (fun _ p₂ h₂ => ?_) fun e p _ _ => hR e p
  have hheld₂ : (viewOf φ p₂).Holds object := viewOf_core (φ := φ) h₂ ▸ hheld₁
  refine wp_applyOutcome hheld₂ (Related.valid_empty _ _) hR fun ms after p₃ happlied h₃ => ?_
  exact hQ adapter result _ after p₃ hserves hresult (.mk hlearned happlied)
    ((h₁.then_core h₂).trans h₃)

/-! ## Callbacks -/

/-- The moves of `process_callback`, by what the adapter made of the request. -/
inductive CalledBack (view : View) (env : Env) (provider : PaymentProvider) :
    Except AdapterError ProviderCallbackResult → List Move → Prop
  | invalid {message : String} {row : PaymentCallbackEvent} :
      CalledBack view env provider (.error (.invalidSignature message)) [.addCallback row]
  | orphanDuplicate {parsed : ProviderCallbackResult} {row : PaymentCallbackEvent} :
      CalledBack view env provider (.ok parsed) [.addCallback row]
  | duplicate {parsed : ProviderCallbackResult} {row : PaymentCallbackEvent} {payment : Payment} :
      CalledBack view env provider (.ok parsed)
        [.addCallback row, .note (payment.event env .paymentDuplicate .zero none [])]
  | unmatched {parsed : ProviderCallbackResult} {row : PaymentCallbackEvent} :
      CalledBack view env provider (.ok parsed)
        [.addCallback row, .editCallback row.id fun row => { row with outcome := .unmatched }]
  | matched {parsed : ProviderCallbackResult} {row : PaymentCallbackEvent}
      {payment after : Payment} {ms : List Move}
      (found : view.SeesAt (.providerReference parsed.providerReference) fun _ b =>
        b.matchReference parsed.providerReference = some payment)
      (applied : Applied env payment parsed.outcome ms after) :
      CalledBack view env provider (.ok parsed)
        (.addCallback row ::
          .editCallback row.id (fun row => { row with payment := some payment.id })
          :: ms)

theorem wp_insertCallbackEvent {Q : PaymentCallbackEvent → (DB → DB) → Prop} {id provider : ℕ}
    {externalEventId : String} {outcome : CallbackOutcome} {payment : Option ℕ}
    {rawPayload : Option String} (hR : ∀ e p, R e p)
    (hQ : ∀ row pend', Effect φ pend [.addCallback row] pend' → Q row pend') :
    (insertCallbackEvent id provider externalEventId outcome payment rawPayload).wp
      κ φ pend Q R := by
  simp only [insertCallbackEvent, Txn.wp_bind, wp_checkVarchar, wp_storeJson, Txn.wp_acquire,
    wp_acquireUnlessBlank, Txn.wp_fetch, wp_raiseIf, wp_onBooks, Txn.pure_eq_ret, Txn.wp_ret]
  refine ⟨fun hlength => ⟨fun raw _ v hv => ⟨fun _ => hR _ _, fun hclash => ?_⟩,
    fun _ => hR _ _⟩, fun _ => hR _ _⟩
  refine hQ _ _ (Effect.single ⟨hlength, ?_⟩ (writes_inBooks _ _))
  exact (seesAt_viewOf (P := fun _ b => b.callbackClash _ = false) hv
    (Bool.eq_false_iff.mpr hclash)).sees

theorem newestPayment_mem {payments : List Payment} {payment : Payment}
    (h : newestPayment payments = some payment) : payment ∈ payments := by
  induction payments generalizing payment with
  | nil => cases h
  | cons p rest ih =>
      unfold newestPayment at h
      split at h
      · obtain rfl := Option.some.inj h
        exact List.mem_cons_self
      · next later hlater =>
          split at h
          · obtain rfl := Option.some.inj h
            exact List.mem_cons_of_mem _ (ih hlater)
          · obtain rfl := Option.some.inj h
            exact List.mem_cons_self

theorem newestPayment_eq_none {payments : List Payment} (h : newestPayment payments = none) :
    payments = [] := by
  cases payments with
  | nil => rfl
  | cons p rest =>
      unfold newestPayment at h
      split at h
      · cases h
      · split at h
        · cases h
        · cases h

/-- A matched payment is a row with that provider reference. -/
theorem matchReference_mem {books : Books} {reference : String} {payment : Payment}
    (h : books.matchReference reference = some payment) :
    payment ∈ books.payments ∧ payment.providerReference = reference := by
  have hmem := newestPayment_mem h
  rw [List.mem_filter] at hmem
  exact ⟨hmem.1, by simpa using hmem.2⟩

theorem wp_onDuplicate {Q : PaymentCallbackEvent → (DB → DB) → Prop}
    {provider : PaymentProvider} {parsed : ProviderCallbackResult} (hR : ∀ e p, R e p)
    (hQ : ∀ row ms pend', CalledBack (viewOf φ pend) env provider (.ok parsed) ms →
      Effect φ pend ms pend' → Q row pend') :
    (onDuplicate env provider parsed).wp κ φ pend Q R := by
  simp only [onDuplicate, Txn.wp_bind, Txn.wp_fetch]
  intro v hv
  refine wp_insertCallbackEvent hR fun row p₁ h₁ => ?_
  split
  · rw [Txn.wp_bind]
    refine (recordAuditEvent_onTrail _ _ _ _ _ _).wp (fun _ p₂ h₂ => ?_) fun e p _ _ => hR e p
    exact hQ row _ p₂ .orphanDuplicate (h₁.then_core h₂)
  · simp only [Txn.wp_bind, wp_getRow]
    intro u hu
    refine ⟨fun payment _ => ?_, fun _ => hR _ _⟩
    refine (recordAuditEvent_onTrail _ _ _ _ _ _).wp (fun _ p₂ h₂ => ?_) fun e p _ _ => hR e p
    refine wp_recordEvent (hR _ _) ?_
    exact hQ row _ _ .duplicate ((h₁.then_core h₂).trans
      (effect_note env payment (Or.inr (Or.inr rfl))))

theorem wp_onFirstDelivery {Q : PaymentCallbackEvent → (DB → DB) → Prop}
    (provider : PaymentProvider) {parsed : ProviderCallbackResult} {row : PaymentCallbackEvent}
    {start : DB → DB} (hrow : Effect φ start [.addCallback row] pend) (hR : ∀ e p, R e p)
    (hQ : ∀ row ms pend', CalledBack (viewOf φ start) env provider (.ok parsed) ms →
      Effect φ start ms pend' → Q row pend') :
    (onFirstDelivery env row parsed).wp κ φ pend Q R := by
  simp only [onFirstDelivery, Txn.wp_bind, wp_checkParameter, Txn.wp_fetch]
  refine ⟨fun _ => hR _ _, fun _ v hv => ?_⟩
  split
  · simp only [Txn.wp_bind, wp_onBooks]
    refine (recordAuditEvent_onTrail _ _ _ _ _ _).wp (fun _ p₁ h₁ => ?_) fun e p _ _ => hR e p
    have hedit : Effect φ pend [.editCallback row.id fun row => { row with outcome := .unmatched }]
        (inBooks (·.updateCallbackEvent row.id fun row => { row with outcome := .unmatched }) ∘
          pend) :=
      Effect.single (fun row => ⟨row.payment, .unmatched, rfl⟩) (writes_inBooks _ _)
    exact hQ _ _ p₁ .unmatched ((hrow.trans hedit).then_core h₁)
  · next payment hfound =>
      simp only [Txn.wp_bind, wp_onBooks]
      have hedit : Effect φ pend
          [.editCallback row.id fun row => { row with payment := some payment.id }]
          (inBooks (·.updateCallbackEvent row.id fun row =>
            { row with payment := some payment.id }) ∘ pend) :=
        Effect.single (fun row => ⟨some payment.id, row.outcome, rfl⟩) (writes_inBooks _ _)
      have hsees : (viewOf φ start).SeesAt (.providerReference parsed.providerReference) fun _ b =>
          b.matchReference parsed.providerReference = some payment := by
        have hsees := seesAt_viewOf (P := fun _ b =>
          b.matchReference parsed.providerReference = some payment) hv hfound
        rw [hrow.view, View.seesAt_map] at hsees
        exact hsees
      refine wp_applyOutcome ?_ (Related.valid_empty _ _) hR fun ms after p₁ happlied h₁ => ?_
      · rw [(hrow.trans hedit).view]
        refine ⟨.providerReference parsed.providerReference, rfl, ?_⟩
        rw [View.seesAt_map]
        exact hsees.mono fun _ b hb => (matchReference_mem hb).1
      · exact hQ _ _ p₁ (.matched hsees happlied) ((hrow.trans hedit).trans h₁)

theorem wp_processCallback {Q : PaymentCallbackEvent → (DB → DB) → Prop}
    {provider : PaymentProvider} {inbound : InboundCallback} (hR : ∀ e p, R e p)
    (hQ : ∀ adapter row ms pend', env.registry provider.code = some adapter →
      CalledBack (viewOf φ pend) env provider (adapter.processCallback inbound) ms →
      Effect φ pend ms pend' → Q row pend') :
    (processCallback env provider inbound).wp κ φ pend Q R := by
  simp only [processCallback, Txn.wp_bind]
  refine wp_getAdapter provider (fun e => hR _ _) fun adapter hadapter => ?_
  split
  · next message hanswer =>
      rw [Txn.wp_bind]
      refine wp_insertCallbackEvent hR fun row p₁ h₁ => ?_
      rw [Txn.wp_bind]
      refine (recordAuditEvent_onTrail _ _ _ _ _ _).wp (fun _ p₂ h₂ => ?_) fun e p _ _ => hR e p
      exact hQ adapter row _ p₂ hadapter (hanswer ▸ .invalid) (h₁.then_core h₂)
  · exact hR _ _
  · next parsed hanswer =>
      simp only [onParsed, Txn.wp_bind]
      refine Txn.wp_tryAtomic (Txn.wp_consequence (wp_insertCallbackEvent
        (R := fun _ _ => True) (fun _ _ => trivial) fun row p₁ h₁ => ?_) (fun _ _ h => h)
        fun e p _ => ?_)
      · exact wp_onFirstDelivery provider h₁ hR fun row ms pend' hback heffect =>
          hQ adapter row ms pend' hadapter (hanswer ▸ hback) heffect
      · split
        · exact wp_onDuplicate hR fun row ms pend' hback heffect =>
            hQ adapter row ms pend' hadapter (hanswer ▸ hback) heffect
        · exact hR _ _

/-! ## Initiation -/

/-- The arguments of `initiate_payment` are rows that some read found; `bill` is
the bill that the control number has cached. -/
structure InitiateInput.Valid (view : View) (input : InitiateInput) (bill : Option Bill) :
    Prop where
  controlNumber : view.Sees fun _ b => input.controlNumber ∈ b.controlNumbers
  tenant : TenantOwns view input.controlNumber input.tenant
  provider : view.Sees fun d _ => input.provider ∈ d.providers
  bill : ∀ row, bill = some row → input.controlNumber.bill? = some row.id ∧
    view.SeesAt (.bill row.id) fun _ b => row ∈ b.bills

/-- The moves of `initiate_payment`, by the answer of the adapter. -/
inductive Initiated (env : Env) (input : InitiateInput) (adapter : Adapter) :
    List Move → Payment → Prop
  | timedOut {payment : Payment} {currency message : String}
      (hpayment : payment = input.newPayment env currency)
      (answer : adapter.initiatePayment (input.call payment) = .error (.timeout message)) :
      Initiated env input adapter
        [.openPayment payment, .enter (payment.moveTo env.now .unknown timeoutReason)]
        (payment.moveTo env.now .unknown timeoutReason)
  | refused {payment : Payment} {currency message : String} {e : AdapterError}
      (hpayment : payment = input.newPayment env currency)
      (answer : adapter.initiatePayment (input.call payment) = .error e)
      (he : e = .providerError message ∨ e = .invalidSignature message) :
      Initiated env input adapter
        [.openPayment payment, .enter (payment.moveTo env.now .failed message),
         .note ((payment.moveTo env.now .failed message).event env .paymentFailed .zero none [])]
        (payment.moveTo env.now .failed message)
  | answered {payment after : Payment} {currency : String} {result : ProviderResult}
      {ms : List Move} (hpayment : payment = input.newPayment env currency)
      (answer : adapter.initiatePayment (input.call payment) = .ok result)
      (applied : Applied env (payment.refer result.providerReference result.rawResponse)
        result.outcome ms after) :
      Initiated env input adapter
        (.openPayment payment ::
          .refer payment.id result.providerReference result.rawResponse :: ms)
        after

theorem keepsLookups_addPayment (payment : Payment) : KeepsLookups (·.addPayment payment) :=
  ⟨fun _ => rfl, fun _ => rfl, fun _ => rfl, fun _ => rfl⟩

theorem keepsLookups_refer (id : ℕ) (reference : String) (raw : Option String) :
    KeepsLookups (Move.refer id reference raw).run :=
  ⟨fun _ => rfl, fun _ => rfl, fun _ => rfl, fun _ => rfl⟩

theorem wp_insertPayment {Q : Unit → (DB → DB) → Prop} {payment : Payment}
    (hR : ∀ e p, R e p)
    (hQ : ∀ pend', (viewOf φ pend).SeesAt (.idempotencyKey payment.tenant payment.idempotencyKey)
        (fun _ b => b.paymentClash payment = false) →
      Writes (·.addPayment payment) pend pend' → Q () pend') :
    (insertPayment payment).wp κ φ pend Q R := by
  simp only [insertPayment, Txn.wp_bind, wp_raiseIf, wp_checkVarchar, Txn.wp_acquire,
    wp_acquireUnlessBlank, Txn.wp_fetch,
    wp_onBooks]
  refine ⟨fun _ => hR _ _, fun _ => ⟨fun _ v hv => ⟨fun _ => hR _ _, fun hclash => ?_⟩,
    fun _ => hR _ _⟩⟩
  refine hQ _ ?_ (writes_inBooks _ _)
  exact seesAt_viewOf (P := fun _ b => b.paymentClash payment = false) hv
    (Bool.eq_false_iff.mpr hclash)

/-- What `initiate_payment` does with the answer of the adapter. -/
theorem wp_onInitiated {Q : Payment → (DB → DB) → Prop} {input : InitiateInput}
    {adapter : Adapter} {currency : String} {start : DB → DB} {related : Related}
    (hopen : Effect φ start [.openPayment (input.newPayment env currency)] pend)
    (hheld : (viewOf φ pend).Holds (input.newPayment env currency))
    (hrel : related.Valid (viewOf φ pend) (input.newPayment env currency)) (hR : ∀ e p, R e p)
    (hQ : ∀ ms after pend', Initiated env input adapter ms after → Effect φ start ms pend' →
      Q after pend') :
    (onInitiated env (input.newPayment env currency) related
      (adapter.initiatePayment (input.call (input.newPayment env currency)))).wp κ φ pend Q R := by
  generalize hpayment : input.newPayment env currency = payment at *
  have hfail : ∀ e message, adapter.initiatePayment (input.call payment) = .error e →
      (e = .providerError message ∨ e = .invalidSignature message) →
      (onProviderError env payment related message).wp κ φ pend Q R := by
    intro e message hanswer he
    simp only [onProviderError, Txn.wp_bind, wp_paymentTransitionTo]
    refine ⟨fun _ => hR _ _, fun hallowed => ⟨fun hreason => ?_, fun _ => hR _ _⟩⟩
    have henter := effect_enter hheld hallowed hreason (Or.inr (Or.inl rfl))
    refine (recordAuditEvent_onTrail _ _ _ _ _ _).wp (fun _ p₁ h₁ => ?_) fun e p _ _ => hR e p
    refine wp_recordEvent (hR _ _) ?_
    have hnote := (henter.then_core h₁).trans
      (effect_note env (payment.moveTo env.now .failed message) (Or.inr (Or.inl rfl)))
    refine (loadRelated_onTrail _ _).wp (fun cnbill p₂ h₂ => ?_) fun e p _ _ => hR e p
    refine (notify_onTrail _ _ _ _ _ _).wp (fun _ p₃ h₃ => ?_) fun e p _ _ => hR e p
    exact hQ _ _ p₃ (.refused hpayment.symm hanswer he)
      (hopen.trans ((hnote.then_core h₂).then_core h₃))
  cases hanswer : adapter.initiatePayment (input.call payment) with
  | error e =>
      cases e with
      | providerError message => exact hfail _ message hanswer (Or.inl rfl)
      | invalidSignature message => exact hfail _ message hanswer (Or.inr rfl)
      | other => exact hR _ _
      | timeout message =>
          simp only [onInitiated, onTimeout, Txn.wp_bind, wp_paymentTransitionTo]
          refine ⟨fun _ => hR _ _, fun hallowed => ⟨fun hreason => ?_, fun _ => hR _ _⟩⟩
          have henter := effect_enter hheld hallowed hreason (Or.inr (Or.inr rfl))
          refine (recordAuditEvent_onTrail _ _ _ _ _ _).wp (fun _ p₁ h₁ => ?_) fun e p _ _ =>
            hR e p
          exact hQ _ _ p₁ (.timedOut hpayment.symm hanswer) (hopen.trans (henter.then_core h₁))
  | ok result =>
      obtain ⟨outcome, reference, rawResponse⟩ := result
      simp only [onInitiated, saveProviderResult, Txn.wp_bind, wp_checkVarchar, wp_storeJson,
        Txn.wp_acquire, wp_onBooks, Txn.pure_eq_ret, Txn.wp_ret]
      refine ⟨fun hlength => ⟨fun raw hraw => ?_, fun _ => hR _ _⟩, fun _ => hR _ _⟩
      subst hraw
      have hrefer : Effect φ pend [.refer payment.id reference (some raw)] _ :=
        effect_refer (some raw) hlength
      refine wp_applyOutcome (holds_refer hheld hrefer) ?_ hR fun ms after p₁ happlied h₁ => ?_
      · have hrel' := hrel.map (keepsLookups_refer payment.id reference (some raw))
        have hview := hrefer.view
        exact hview ▸ ⟨hrel'.controlNumber, hrel'.bill⟩
      · exact hQ _ _ p₁ (.answered hpayment.symm hanswer happlied)
          (hopen.trans (hrefer.trans h₁))

/-- The payment that a query by key finds. -/
def CarriesKey (tenant : ℕ) (key : String) (b : Books) : Prop :=
  key ≠ "" ∧ ∃ payment ∈ b.payments, payment.tenant = tenant ∧ payment.idempotencyKey = key

theorem wp_paymentByKey {Q : Option Payment → (DB → DB) → Prop} {tenant : ℕ} {key : String}
    (hQ : ∀ found, (found.isSome → (viewOf φ pend).Sees fun _ b => CarriesKey tenant key b) →
      Q found pend) :
    (paymentByKey tenant key).wp κ φ pend Q R := by
  simp only [paymentByKey, Txn.wp_ite, Txn.pure_eq_ret, Txn.wp_ret, Txn.wp_fetch]
  constructor
  · exact fun _ => hQ none fun h => absurd h Bool.false_ne_true
  · intro hkey v hv
    apply hQ
    intro hfound
    obtain ⟨payment, hpayment⟩ := Option.isSome_iff_exists.mp hfound
    have hcolumns : payment.tenant = tenant ∧ payment.idempotencyKey = key := by
      simpa using List.find?_some hpayment
    exact (seesAt_viewOf (P := fun _ b => CarriesKey tenant key b) hv
      ⟨hkey, payment, List.mem_of_find?_eq_some hpayment, hcolumns⟩).sees

/-- `initiate_payment`; where it finds a payment, that carries the key. -/
theorem wp_initiatePayment_found {Q : Payment → (DB → DB) → Prop} {input : InitiateInput}
    {bill : Option Bill} (hvalid : input.Valid (viewOf φ pend) bill)
    (hκ : ∀ currency, (viewOf φ pend).Sees (fun _ b =>
        b.paymentClash (input.newPayment env currency) = false) →
      κ (.initiatePayment (input.call (input.newPayment env currency))))
    (hR : ∀ e p, R e p)
    (hold : ∀ existing pend',
      (viewOf φ pend).Sees (fun _ b => CarriesKey input.tenant input.idempotencyKey b) →
      Effect φ pend [] pend' → Q existing pend')
    (hnew : ∀ adapter ms after pend', env.registry input.provider.code = some adapter →
      Initiated env input adapter ms after → Effect φ pend ms pend' → Q after pend') :
    (initiatePayment env input bill).wp κ φ pend Q R := by
  simp only [initiatePayment, Txn.wp_bind]
  refine wp_paymentByKey fun found hfound => ?_
  cases found with
  | some existing =>
      simp only [Txn.wp_bind]
      refine (recordAuditEvent_onTrail _ _ _ _ _ _).wp (fun _ p₁ h₁ => ?_) fun e p _ _ => hR e p
      exact hold existing p₁ (hfound rfl) (Effect.of_core h₁)
  | none =>
      simp only [Txn.wp_bind, getTenant, wp_getRow]
      intro v hv
      refine ⟨fun tenant htenant => ?_, fun _ => hR _ _⟩
      have hcurrency : (viewOf φ pend).Sees fun d _ => ∃ row,
          d.tenants.find? (·.id = input.tenant) = some row ∧
            tenant.defaultCurrency = row.defaultCurrency :=
        (seesAt_viewOf (P := fun d _ => ∃ row,
          d.tenants.find? (·.id = input.tenant) = some row ∧
            tenant.defaultCurrency = row.defaultCurrency) hv ⟨tenant, htenant, rfl⟩).sees
      refine wp_insertPayment hR fun p₁ hclash h₁ => ?_
      have hopen : Effect φ pend
          [.openPayment (input.newPayment env tenant.defaultCurrency)] p₁ :=
        Effect.single ⟨rfl, rfl, rfl, rfl, hclash.sees,
          ⟨_, hvalid.controlNumber, rfl, hvalid.tenant⟩,
          hvalid.provider.mono fun d _ h => ⟨_, h, rfl⟩, hcurrency⟩ h₁
      refine (recordAuditEvent_onTrail _ _ _ _ _ _).wp (fun _ p₂ h₂ => ?_) fun e p _ _ => hR e p
      have hopen₂ := hopen.then_core h₂
      have hheld : (viewOf φ p₂).Holds (input.newPayment env tenant.defaultCurrency) := by
        rw [hopen₂.view]
        refine ⟨.idempotencyKey input.tenant input.idempotencyKey, rfl, ?_⟩
        rw [View.seesAt_map]
        exact hclash.mono fun _ b _ => List.mem_append_right _ List.mem_cons_self
      have hrel : Related.Valid (viewOf φ p₂) (input.newPayment env tenant.defaultCurrency)
          (input.related bill) := by
        have hstart : Related.Valid (viewOf φ pend) (input.newPayment env tenant.defaultCurrency)
            (input.related bill) := by
          refine ⟨fun cn hcn => ?_, fun row hrow =>
            ⟨input.controlNumber, rfl, hvalid.bill row hrow⟩⟩
          obtain rfl := Option.some.inj hcn
          exact ⟨hvalid.controlNumber, rfl⟩
        rw [hopen₂.view]
        exact hstart.map (keepsLookups_addPayment _)
      refine wp_getAdapter _ (fun e => hR _ _) fun adapter hadapter => ?_
      rw [Txn.wp_invoke]
      exact ⟨hκ _ hclash.sees,
        wp_onInitiated hopen₂ hheld hrel hR fun ms after pend' hinit heffect =>
        hnew adapter ms after pend' hadapter hinit heffect⟩

theorem wp_initiatePayment {Q : Payment → (DB → DB) → Prop} {input : InitiateInput}
    {bill : Option Bill} (hvalid : input.Valid (viewOf φ pend) bill)
    (hκ : ∀ currency, (viewOf φ pend).Sees (fun _ b =>
        b.paymentClash (input.newPayment env currency) = false) →
      κ (.initiatePayment (input.call (input.newPayment env currency))))
    (hR : ∀ e p, R e p)
    (hold : ∀ existing pend', Effect φ pend [] pend' → Q existing pend')
    (hnew : ∀ adapter ms after pend', env.registry input.provider.code = some adapter →
      Initiated env input adapter ms after → Effect φ pend ms pend' → Q after pend') :
    (initiatePayment env input bill).wp κ φ pend Q R :=
  wp_initiatePayment_found hvalid hκ hR
    (fun existing pend' _ heffect => hold existing pend' heffect)
    hnew

/-! ## Refunds and reversals -/

theorem wp_compensate {Q : Unit → (DB → DB) → Prop} (payment : Payment)
    (hR : ∀ e p, e.isValidationError = false → R e p)
    (hQ : ∀ fee metadata pend', Compensates (viewOf φ pend) payment fee →
      Writes (·.compensate env payment fee metadata) pend pend' → Q () pend') :
    (compensate env payment payment.status.compensation.1 payment.status.compensation.2).wp κ φ
      pend Q R := by
  simp only [compensate, Txn.wp_bind, Txn.wp_fetch, getTenant, wp_getRow]
  intro v hv u hu
  refine ⟨fun tenant htenant => ?_, fun _ => hR _ _ rfl⟩
  have hfound : ∀ fee, clawback? tenant.feeRefundPolicy
      (originalEvent payment.tenant payment.id (pend v).toBooks) = fee →
      Compensates (viewOf φ pend) payment fee := fun fee hfee =>
    ⟨_, tenant, (seesAt_viewOf (P := fun _ b => originalEvent payment.tenant payment.id b = _) hv
      rfl).sees, (seesAt_viewOf (P := fun d _ =>
        d.tenants.find? (·.id = payment.tenant) = some tenant) hu htenant).sees, hfee⟩
  generalize compensationMetadata tenant.feeRefundPolicy _ = metadata
  split
  · next hnone =>
      refine wp_recordEvent (hR _ _ rfl) ?_
      exact hQ none metadata _ (hfound none hnone) (writes_inBooks _ _)
  · next fee hsome =>
      cases hentry : fee.ledgerEntry with
      | none =>
          simp only [compensateEntry, hentry, Txn.wp_bind, Txn.pure_eq_ret, Txn.wp_ret]
          refine wp_recordEvent (hR _ _ rfl) ?_
          refine hQ (some fee) metadata _ (hfound _ hsome) fun s => ?_
          simp only [Books.compensate, RevenueEvent.takenBack, hentry]
          rfl
      | some original =>
          simp only [compensateEntry, hentry, postCompensatingEntry, Txn.wp_bind,
            Txn.pure_eq_ret, Txn.wp_ret]
          refine wp_postEntry (hR _ _ rfl) (wp_recordEvent (hR _ _ rfl) ?_)
          refine hQ (some fee) metadata _ (hfound _ hsome) fun s => ?_
          simp only [Books.compensate, RevenueEvent.takenBack, hentry]
          rfl

/-- The moves of `refund_payment` and `reverse_payment`: none, or the transition to
`status` with its compensation. -/
inductive Undone (env : Env) (payment : Payment) (status : PaymentStatus) :
    List Move → Payment → Prop
  | kept : Undone env payment status [] payment
  | undone {fee : Option RevenueEvent} {metadata : List (String × String)} :
      Undone env payment status [.undo env (payment.moveTo env.now status "") fee metadata]
        (payment.moveTo env.now status "")

theorem effect_undo {pend' : DB → DB} {payment : Payment} {status : PaymentStatus}
    {fee : Option RevenueEvent} {metadata : List (String × String)}
    (hheld : (viewOf φ pend).Holds payment) (hsuccess : payment.status = .successful)
    (hstatus : status = .reversed ∨ status = .refunded)
    (hreason : Varchar 255 (payment.moveTo env.now status "").failureReason)
    (hfound : Compensates (viewOf φ (inBooks (·.savePayment (payment.moveTo env.now status "")) ∘
      pend)) (payment.moveTo env.now status "") fee)
    (hwrites : Writes (·.compensate env (payment.moveTo env.now status "") fee metadata)
      (inBooks (·.savePayment (payment.moveTo env.now status "")) ∘ pend) pend') :
    Effect φ pend [.undo env (payment.moveTo env.now status "") fee metadata] pend' := by
  have hsave := writes_inBooks (·.savePayment (payment.moveTo env.now status "")) pend
  refine Effect.single ⟨⟨payment, ⟨hheld, ?_, ⟨env.now, "", rfl⟩, hreason⟩, hsuccess⟩, hstatus, ?_⟩
    (hsave.trans hwrites)
  · rw [hsuccess]
    rcases hstatus with rfl | rfl <;> simp [Payment.moveTo, PaymentStatus.allowedTransitions]
  · rw [hsave.view] at hfound
    simpa [Compensates, originalEvent, Books.savePayment, Books.updatePayment] using hfound

/-- The common tail of refunds and reversals. -/
theorem wp_undoPayment {Q : Payment → (DB → DB) → Prop} {payment : Payment}
    {status : PaymentStatus} {record : Payment → Tx Unit} {name : String}
    {metadata : List (String × String)} {notification : NotificationEventType}
    (hheld : (viewOf φ pend).Holds payment) (hsuccess : payment.status = .successful)
    (hstatus : status = .reversed ∨ status = .refunded)
    (hrecord : record (payment.moveTo env.now status "") =
      compensate env (payment.moveTo env.now status "") status.compensation.1
        status.compensation.2)
    (hR : ∀ e p, (e.isValidationError = true → p = pend) → R e p)
    (hQ : ∀ ms after pend', Undone env payment status ms after → Effect φ pend ms pend' →
      Q after pend') :
    (undoPayment env payment status record name metadata notification).wp κ φ pend Q R := by
  have hR' : ∀ e p, e.isValidationError = false → R e p := fun e p he =>
    hR e p fun h => by simp [he] at h
  simp only [undoPayment, Txn.wp_bind, wp_paymentTransitionTo, hrecord]
  refine ⟨fun _ => hR _ _ fun _ => rfl, fun _ => ⟨fun hreason => ?_, fun _ => hR' _ _ rfl⟩⟩
  refine (recordAuditEvent_onTrail _ _ _ _ _ _).wp (fun _ p₁ h₁ => ?_) fun e p he _ => hR' e p he
  refine wp_compensate (payment.moveTo env.now status "") hR'
    fun fee metadata p₂ hfound h₂ => ?_
  rw [viewOf_core h₁] at hfound
  have heffect := effect_undo hheld hsuccess hstatus hreason hfound (Writes.after_core h₁ h₂)
  refine (loadRelated_onTrail _ _).wp (fun cnbill p₃ h₃ => ?_) fun e p he _ => hR' e p he
  refine (dispatch_onTrail _ _ _ _ _ _).wp (fun _ p₄ h₄ => ?_) fun e p he _ => hR' e p he
  refine (notify_onTrail _ _ _ _ _ _).wp (fun _ p₅ h₅ => ?_) fun e p he _ => hR' e p he
  exact hQ _ _ p₅ .undone (((heffect.then_core h₃).then_core h₄).then_core h₅)

theorem wp_refundPayment {Q : Payment → (DB → DB) → Prop} {payment : Payment}
    {amount : Option Amount} (hheld : (viewOf φ pend).Holds payment)
    (hκ : ∀ r a, κ (.refund r a)) (hR : ∀ e p, (e.isValidationError = true → p = pend) → R e p)
    (hQ : ∀ ms after pend', Undone env payment .refunded ms after → Effect φ pend ms pend' →
      Q after pend') :
    (refundPayment env payment amount).wp κ φ pend Q R := by
  have hR' : ∀ e p, e.isValidationError = false → R e p := fun e p he =>
    hR e p fun h => by simp [he] at h
  simp only [refundPayment, Txn.wp_bind, wp_raiseIf, not_not]
  refine ⟨fun _ => hR _ _ fun _ => rfl, fun hsuccess => ?_⟩
  refine wp_adapterOf (fun e he => hR' e _ he) fun adapter _ => ?_
  rw [wp_askProvider]
  refine ⟨hκ _ _, fun result _ => ?_, fun e _ => hR' _ _ rfl⟩
  rw [Txn.wp_ite]
  exact ⟨fun _ => wp_undoPayment hheld hsuccess (Or.inr rfl) rfl hR hQ,
    fun _ => hQ _ _ _ .kept Effect.refl⟩

theorem wp_reversePayment {Q : Payment → (DB → DB) → Prop} {payment : Payment}
    (hheld : (viewOf φ pend).Holds payment)
    (hκ : ∀ r, κ (.reverse r)) (hR : ∀ e p, (e.isValidationError = true → p = pend) → R e p)
    (hQ : ∀ ms after pend', Undone env payment .reversed ms after → Effect φ pend ms pend' →
      Q after pend') :
    (reversePayment env payment).wp κ φ pend Q R := by
  have hR' : ∀ e p, e.isValidationError = false → R e p := fun e p he =>
    hR e p fun h => by simp [he] at h
  simp only [reversePayment, Txn.wp_bind, wp_raiseIf, not_not]
  refine ⟨fun _ => hR _ _ fun _ => rfl, fun hsuccess => ?_⟩
  refine wp_adapterOf (fun e he => hR' e _ he) fun adapter _ => ?_
  rw [wp_askProvider]
  refine ⟨hκ _, fun result _ => ?_, fun e _ => hR' _ _ rfl⟩
  rw [Txn.wp_ite]
  exact ⟨fun _ => wp_undoPayment hheld hsuccess (Or.inl rfl) rfl hR hQ,
    fun _ => hQ _ _ _ .kept Effect.refl⟩

end Kusanya
