import Kusanya.Moves.Deliveries

/-!
# The unique columns of payments and callback events

A client that repeats a request sends its idempotency key again, a provider that repeats a report
sends its event id again.  Both have a unique column, and here is what the moves of a request add
to these columns, and what a request found in them when it adds nothing.
-/

namespace Kusanya

open ReadCommitted

/-! ## Unique columns -/

/-- What is unique about a payment besides its id; a blank key is exempt. -/
def paymentKeys (merchantReference : String) (tenant : ℕ) (idempotencyKey : String) :
    List Resource :=
  .merchantReference merchantReference ::
    if idempotencyKey = "" then [] else [.idempotencyKey tenant idempotencyKey]

/-- What is unique about a callback event; a blank id is exempt. -/
def eventKeys (provider : ℕ) (eventId : String) : List Resource :=
  if eventId = "" then [] else [.callbackKey provider eventId]

def Payment.uniqueKeys (payment : Payment) : List Resource :=
  paymentKeys payment.merchantReference payment.tenant payment.idempotencyKey

def PaymentCallbackEvent.uniqueKeys (row : PaymentCallbackEvent) : List Resource :=
  eventKeys row.provider row.externalEventId

theorem paymentKeys_nodup (merchantReference : String) (tenant : ℕ) (idempotencyKey : String) :
    (paymentKeys merchantReference tenant idempotencyKey).Nodup := by
  unfold paymentKeys
  split <;> simp

theorem eventKeys_nodup (provider : ℕ) (eventId : String) : (eventKeys provider eventId).Nodup := by
  unfold eventKeys
  split <;> simp

/-- The unique keys of the payments and the callback events. -/
def Books.uniqueKeys (b : Books) : List Resource :=
  b.payments.flatMap Payment.uniqueKeys ++
    b.callbackEvents.flatMap PaymentCallbackEvent.uniqueKeys

theorem CarriesKey.uniqueKey {tenant : ℕ} {key : String} {b : Books} (h : CarriesKey tenant key b) :
    .idempotencyKey tenant key ∈ b.uniqueKeys := by
  obtain ⟨hkey, payment, hpayment, rfl, rfl⟩ := h
  apply List.mem_append_left
  rw [List.mem_flatMap]
  refine ⟨payment, hpayment, List.mem_cons_of_mem _ ?_⟩
  rw [if_neg hkey]
  exact List.mem_singleton.mpr rfl

theorem knowsEvent_iff {b : Books} {provider : ℕ} {eventId : String} :
    b.knowsEvent provider eventId = true ↔
      eventId ≠ "" ∧ .callbackKey provider eventId ∈ b.uniqueKeys := by
  simp only [Books.knowsEvent, List.any_eq_true, Bool.and_eq_true, bne_iff_ne, decide_eq_true_eq,
    Books.uniqueKeys, List.mem_append, List.mem_flatMap]
  constructor
  · rintro ⟨row, hrow, ⟨hblank, hprovider⟩, hevent⟩
    refine ⟨hblank, Or.inr ⟨row, hrow, ?_⟩⟩
    rw [PaymentCallbackEvent.uniqueKeys, eventKeys, hevent, if_neg hblank, hprovider]
    exact List.mem_singleton.mpr rfl
  · rintro ⟨hblank, ⟨payment, -, hkey⟩ | ⟨row, hrow, hkey⟩⟩
    · unfold Payment.uniqueKeys paymentKeys at hkey
      split at hkey <;> simp at hkey
    · unfold PaymentCallbackEvent.uniqueKeys eventKeys at hkey
      split at hkey
      · exact absurd hkey List.not_mem_nil
      · obtain ⟨rfl, rfl⟩ := Resource.callbackKey.inj (List.mem_singleton.mp hkey)
        exact ⟨row, hrow, ⟨hblank, rfl⟩, rfl⟩

/-- The insert of a payment whose key is taken clashes. -/
theorem paymentClash_of_mem {b : Books} {payment : Payment} {k : Resource}
    (hk : k ∈ payment.uniqueKeys) (htaken : k ∈ b.uniqueKeys) : b.paymentClash payment = true := by
  unfold Payment.uniqueKeys paymentKeys at hk
  have htakenBy : ∀ {row : Payment}, row ∈ b.payments → k ∈ row.uniqueKeys →
      b.paymentClash payment = true := by
    intro row hrow hkey
    refine List.any_eq_true.mpr ⟨row, hrow, ?_⟩
    unfold Payment.uniqueKeys paymentKeys at hkey
    rcases List.mem_cons.mp hk with rfl | hk
    · have hreference : payment.merchantReference = row.merchantReference := by
        rcases List.mem_cons.mp hkey with hkey | hkey
        · exact Resource.merchantReference.inj hkey
        · split at hkey <;> simp at hkey
      simp [hreference]
    · split at hk
      · exact absurd hk List.not_mem_nil
      · next hblank =>
          obtain rfl := List.mem_singleton.mp hk
          have hcolumns : payment.tenant = row.tenant ∧
              payment.idempotencyKey = row.idempotencyKey := by
            rcases List.mem_cons.mp hkey with hkey | hkey
            · cases hkey
            · split at hkey
              · exact absurd hkey List.not_mem_nil
              · exact Resource.idempotencyKey.inj (List.mem_singleton.mp hkey)
          simp [hcolumns.1, ← hcolumns.2, hblank]
  rcases List.mem_append.mp htaken with htaken | htaken
  · obtain ⟨row, hrow, hkey⟩ := List.mem_flatMap.mp htaken
    exact htakenBy hrow hkey
  · obtain ⟨row, -, hkey⟩ := List.mem_flatMap.mp htaken
    unfold PaymentCallbackEvent.uniqueKeys eventKeys at hkey
    split at hkey
    · exact absurd hkey List.not_mem_nil
    · obtain rfl := List.mem_singleton.mp hkey
      split at hk <;> simp at hk

namespace Move

/-- The unique keys that a move takes. -/
def uniqueKeys (m : Move) : List Resource :=
  m.opened.flatMap Payment.uniqueKeys ++ m.called.flatMap PaymentCallbackEvent.uniqueKeys

theorem onPayment_uniqueKeys (m : Move) (row : Payment) :
    (m.onPayment row).uniqueKeys = row.uniqueKeys := by
  cases m with
  | refer | enter | settle | undo | openBatch =>
      simp only [onPayment]
      split <;> rfl
  | _ => rfl

theorem onCallback_uniqueKeys {m : Move} {view : View} (h : m.Guard view)
    (row : PaymentCallbackEvent) : (m.onCallback row).uniqueKeys = row.uniqueKeys := by
  cases m with
  | editCallback id f =>
      obtain ⟨payment, outcome, hf⟩ := h row
      simp only [onCallback]
      split
      · rw [hf]
        rfl
      · rfl
  | _ => rfl

variable {view : View} {ms : List Move}

/-- Nothing is ever changed in these columns. -/
theorem run_uniqueKeys {m : Move} (h : m.Guard view) (b : Books) :
    (m.run b).uniqueKeys.Perm (m.uniqueKeys ++ b.uniqueKeys) := by
  have hpayments : (b.payments.map m.onPayment).flatMap Payment.uniqueKeys =
      b.payments.flatMap Payment.uniqueKeys := by
    rw [List.flatMap_map]
    exact List.flatMap_congr fun row _ => m.onPayment_uniqueKeys row
  have hevents : (b.callbackEvents.map m.onCallback).flatMap PaymentCallbackEvent.uniqueKeys =
      b.callbackEvents.flatMap PaymentCallbackEvent.uniqueKeys := by
    rw [List.flatMap_map]
    exact List.flatMap_congr fun row _ => onCallback_uniqueKeys h row
  rw [Books.uniqueKeys, m.run_payments, m.run_callbackEvents, List.flatMap_append,
    List.flatMap_append, hpayments, hevents, List.perm_iff_count]
  intro k
  simp only [uniqueKeys, Books.uniqueKeys, List.count_append]
  omega

/-- The unique keys after several moves. -/
theorem runAll_uniqueKeys (h : view.Chain ms) (b : Books) :
    (runAll ms b).uniqueKeys.Perm (ms.flatMap uniqueKeys ++ b.uniqueKeys) := by
  induction ms generalizing view b with
  | nil => exact List.Perm.refl _
  | cons m ms ih =>
      obtain ⟨hguard, hrest⟩ := h
      have hstep := (ih hrest (m.run b)).trans ((run_uniqueKeys hguard b).append_left _)
      refine hstep.trans ?_
      rw [List.perm_iff_count]
      intro k
      simp only [List.flatMap_cons, List.count_append]
      omega

end Move

/-- None of the moves takes a unique key. -/
def Keyless (ms : List Move) : Prop := ∀ m ∈ ms, m.uniqueKeys = []

section Keyless

variable {env : Env} {payment after : Payment} {ms ms' : List Move} {m : Move}

theorem keyless_nil : Keyless [] := fun _ hm => absurd hm List.not_mem_nil

theorem keyless_cons (hm : m.uniqueKeys = []) (h : Keyless ms) : Keyless (m :: ms) :=
  List.forall_mem_cons.mpr ⟨hm, h⟩

theorem keyless_append (h : Keyless ms) (h' : Keyless ms') : Keyless (ms ++ ms') :=
  List.forall_mem_append.mpr ⟨h, h'⟩

theorem Keyless.flatMap (h : Keyless ms) : ms.flatMap Move.uniqueKeys = [] :=
  List.flatMap_eq_nil_iff.mpr h

theorem Applied.keyless {outcome : ProviderOutcome} (h : Applied env payment outcome ms after) :
    Keyless ms := by
  cases h with
  | inconclusive | repeated => exact keyless_nil
  | unknown | pending | successful => exact keyless_cons rfl keyless_nil
  | failed => exact keyless_cons rfl (keyless_cons rfl keyless_nil)

theorem Queried.keyless {result : ProviderResult} (h : Queried env payment result ms after) :
    Keyless ms := by
  obtain ⟨hlearned, happlied⟩ := h
  apply keyless_append _ happlied.keyless
  cases hlearned with
  | known => exact keyless_nil
  | learned => exact keyless_cons rfl keyless_nil

theorem Undone.keyless {status : PaymentStatus} (h : Undone env payment status ms after) :
    Keyless ms := by
  cases h with
  | kept => exact keyless_nil
  | undone => exact keyless_cons rfl keyless_nil

theorem Reconciled.keyless {view : View} {payments : List Payment}
    (h : Reconciled view env payments ms) : Keyless ms := by
  induction h with
  | nil => exact keyless_nil
  | cons _ _ queried _ ih => exact keyless_append queried.keyless ih

end Keyless

/-! ## Initiations -/

/-- What an initiation did: nothing where there is nothing to pay or the key is known, and
otherwise it opened a payment under the key. -/
inductive Initiates (view : View) (env : Env) (tenant : ℕ) (key : String) : List Move → Prop
  | unpayable (blank : key = "") : Initiates view env tenant key []
  | repeated (found : view.Sees fun _ b => CarriesKey tenant key b) :
      Initiates view env tenant key []
  | opened {payment : Payment} {ms : List Move}
      (keys : payment.uniqueKeys = paymentKeys env.gen.merchantReference tenant key)
      (rest : Keyless ms) :
      Initiates view env tenant key (.openPayment payment :: ms)

theorem Initiated.initiates {view : View} {env : Env} {input : InitiateInput} {adapter : Adapter}
    {ms : List Move} {after : Payment} (h : Initiated env input adapter ms after) :
    Initiates view env input.tenant input.idempotencyKey ms := by
  cases h with
  | timedOut hpayment =>
      subst hpayment
      exact .opened rfl (keyless_cons rfl keyless_nil)
  | refused hpayment =>
      subst hpayment
      exact .opened rfl (keyless_cons rfl (keyless_cons rfl keyless_nil))
  | answered hpayment _ happlied =>
      subst hpayment
      exact .opened rfl (keyless_cons rfl happlied.keyless)

theorem flatMap_openPayment {payment : Payment} {ms : List Move} (hrest : Keyless ms) :
    (Move.openPayment payment :: ms).flatMap Move.uniqueKeys = payment.uniqueKeys := by
  rw [List.flatMap_cons, hrest.flatMap, List.append_nil]
  simp [Move.uniqueKeys, Move.opened, Move.called]

/-- An initiation takes all of its keys or none. -/
theorem Initiates.uniqueKeys {view : View} {env : Env} {tenant : ℕ} {key : String}
    {ms : List Move} (h : Initiates view env tenant key ms) :
    ms = [] ∨ ms.flatMap Move.uniqueKeys = paymentKeys env.gen.merchantReference tenant key := by
  cases h with
  | unpayable | repeated => exact Or.inl rfl
  | opened hkeys hrest => exact Or.inr ((flatMap_openPayment hrest).trans hkeys)

section Initiations

variable {φ : Resource → DB → Prop} {env : Env} {tenant pk : ℕ} {code payer key : String}
variable {metadata : List (String × String)}

theorem wp_initiatePayment_initiates {input : InitiateInput} {bill : Option Bill}
    (hvalid : input.Valid (viewOf φ id) bill) :
    (initiatePayment env input bill).wp (fun _ => True) φ id
      (fun _ pend' => ∃ ms, Initiates (viewOf φ id) env input.tenant input.idempotencyKey ms ∧
        Effect φ id ms pend') fun _ _ => True := by
  refine wp_initiatePayment_found hvalid (fun _ _ => trivial) (fun _ _ => trivial) ?_ ?_
  · exact fun _ _ hfound heffect => ⟨[], .repeated hfound, heffect⟩
  · exact fun _ ms _ _ _ hinitiated heffect => ⟨ms, hinitiated.initiates, heffect⟩

theorem wp_payBill_initiates {amount : EnteredAmount} :
    (payBill env tenant pk code amount payer metadata).wp (fun _ => True) φ id
      (fun _ pend' => ∃ ms, Initiates (viewOf φ id) env tenant "" ms ∧ Effect φ id ms pend')
      fun _ _ => True := by
  simp only [payBill, controlNumberOfBill, Txn.wp_bind]
  refine wp_billOr404 trivial fun bill hid htenant hsees => ?_
  rw [Txn.wp_fetch]
  intro v hv
  split
  · exact ⟨[], .unpayable rfl, Effect.refl⟩
  · next cn hfound =>
      have hmem : cn ∈ v.toBooks.controlNumbers := List.mem_of_find?_eq_some hfound
      have howner : cn.owner = .bill bill.id := by simpa using List.find?_some hfound
      have hbound : cn.bill? = some bill.id := by rw [ControlNumber.bill?, howner]
      simp only [Txn.wp_bind, Txn.pure_eq_ret, Txn.wp_ret]
      refine wp_providerByCode (q := false) (fun _ _ => trivial) fun provider hprovider => ?_
      apply wp_initiatePayment_initiates
      constructor
      · exact (seesAt_viewOf (P := fun _ b => cn ∈ b.controlNumbers) hv hmem).sees
      · exact Or.inr ⟨bill, hbound, htenant, hsees.sees⟩
      · exact hprovider
      · intro row hrow
        obtain rfl := Option.some.inj hrow
        exact ⟨hbound, hid ▸ hsees⟩

theorem wp_paymentListCreate_initiates {value : String} {channel : Option String}
    {amount : Amount} :
    (paymentListCreate env tenant value code channel amount payer key metadata).wp (fun _ => True) φ
      id (fun _ pend' => ∃ ms, Initiates (viewOf φ id) env tenant key ms ∧ Effect φ id ms pend')
      fun _ _ => True := by
  simp only [paymentListCreate, Txn.wp_bind, wp_getOr404, Txn.pure_eq_ret, Txn.wp_ret]
  intro v hv
  refine ⟨fun cn hfound => ?_, fun _ => trivial⟩
  have hmem : cn ∈ v.toBooks.controlNumbers := List.mem_of_find?_eq_some hfound
  have hcolumns : cn.value = value ∧ cn.tenant = tenant := by simpa using List.find?_some hfound
  refine wp_providerByCode (q := true) (fun _ _ => trivial) fun provider hprovider => ?_
  apply wp_initiatePayment_initiates
  constructor
  · exact (seesAt_viewOf (P := fun _ b => cn ∈ b.controlNumbers) hv hmem).sees
  · exact Or.inl hcolumns.2
  · exact hprovider
  · intro row hrow
    cases hrow

end Initiations

/-! ## Deliveries -/

/-- The moves of a delivery of a known event: a row without an id, and an event without an
amount. -/
inductive Redelivers (env : Env) : List Move → Prop
  | orphan {row : PaymentCallbackEvent} (blank : row.externalEventId = "") :
      Redelivers env [.addCallback row]
  | noted {row : PaymentCallbackEvent} {payment : Payment} (blank : row.externalEventId = "") :
      Redelivers env [.addCallback row, .note (payment.event env .paymentDuplicate .zero none [])]

/-- What a delivery did: it was refused, a key of its row was taken, or it took the key of its
event. -/
inductive Processed (view : View) (env : Env) (provider : PaymentProvider) :
    Except AdapterError ProviderCallbackResult → List Move → Prop
  | refused {e : AdapterError} {row : PaymentCallbackEvent} (blank : row.externalEventId = "") :
      Processed view env provider (.error e) [.addCallback row]
  | again {parsed : ProviderCallbackResult} {ms : List Move}
      (taken : view.Sees fun _ b => ¬(b.FreshEvent (env.gen.callbackEventId 0) ∧
        b.knowsEvent provider.id parsed.externalEventId = false))
      (redelivers : Redelivers env ms) : Processed view env provider (.ok parsed) ms
  | first {parsed : ProviderCallbackResult} {row : PaymentCallbackEvent} {ms : List Move}
      (hprovider : row.provider = provider.id)
        (hevent : row.externalEventId = parsed.externalEventId)
      (rest : Keyless ms) : Processed view env provider (.ok parsed) (.addCallback row :: ms)

theorem flatMap_addCallback {row : PaymentCallbackEvent} {ms : List Move} (hrest : Keyless ms) :
    (Move.addCallback row :: ms).flatMap Move.uniqueKeys = row.uniqueKeys := by
  rw [List.flatMap_cons, hrest.flatMap, List.append_nil]
  simp [Move.uniqueKeys, Move.opened, Move.called]

theorem uniqueKeys_of_blank {row : PaymentCallbackEvent} (h : row.externalEventId = "") :
    row.uniqueKeys = [] :=
  if_pos h

theorem Redelivers.uniqueKeys {env : Env} {ms : List Move} (h : Redelivers env ms) :
    ms.flatMap Move.uniqueKeys = [] := by
  cases h with
  | orphan hblank => exact (flatMap_addCallback keyless_nil).trans (uniqueKeys_of_blank hblank)
  | noted hblank =>
      exact (flatMap_addCallback (keyless_cons rfl keyless_nil)).trans (uniqueKeys_of_blank hblank)

/-- A delivery takes the key of its event or none. -/
theorem Processed.uniqueKeys {view : View} {env : Env} {provider : PaymentProvider}
    {answer : Except AdapterError ProviderCallbackResult} {ms : List Move}
    (h : Processed view env provider answer ms) : ms.flatMap Move.uniqueKeys = [] ∨
      ∃ parsed, answer = .ok parsed ∧
        ms.flatMap Move.uniqueKeys = eventKeys provider.id parsed.externalEventId := by
  cases h with
  | refused hblank =>
      exact Or.inl ((flatMap_addCallback keyless_nil).trans (uniqueKeys_of_blank hblank))
  | again _ hredelivers => exact Or.inl hredelivers.uniqueKeys
  | @first parsed row ms hprovider hevent hrest =>
      refine Or.inr ⟨parsed, rfl, ?_⟩
      rw [flatMap_addCallback hrest, PaymentCallbackEvent.uniqueKeys, hprovider, hevent]

section Deliveries

variable {φ : Resource → DB → Prop} {pend : DB → DB} {env : Env} {provider : PaymentProvider}
variable {parsed : ProviderCallbackResult}

/-- The row that is inserted, or why it is not. -/
theorem wp_insertCallbackEvent_row {rowId providerId : ℕ} {eventId : String}
    {outcome : CallbackOutcome} {payment : Option ℕ} {raw : Option String} :
    (insertCallbackEvent rowId providerId eventId outcome payment raw).wp (fun _ => True) φ pend
      (fun row pend' => Effect φ pend [.addCallback row] pend' ∧ row.provider = providerId ∧
        row.externalEventId = eventId)
      fun e _ => e.isIntegrityError = true → (viewOf φ pend).Sees fun _ b =>
        ¬(b.FreshEvent rowId ∧ b.knowsEvent providerId eventId = false) := by
  have hfields : (insertCallbackEvent rowId providerId eventId outcome payment raw).wp
      (fun _ => True) φ pend
      (fun row _ => row.provider = providerId ∧ row.externalEventId = eventId)
      fun e _ => e.isIntegrityError = true → (viewOf φ pend).Sees fun _ b =>
        ¬(b.FreshEvent rowId ∧ b.knowsEvent providerId eventId = false) := by
    simp only [insertCallbackEvent, Txn.wp_bind, wp_checkVarchar, wp_storeJson, Txn.wp_acquire,
      wp_acquireUnlessBlank, Txn.wp_fetch, wp_raiseIf, wp_onBooks, Txn.pure_eq_ret, Txn.wp_ret]
    refine ⟨fun _ => ⟨fun text _ v hv => ⟨fun hclash _ => ?_, fun _ => ⟨trivial, trivial⟩⟩, ?_⟩, ?_⟩
    · refine (seesAt_viewOf (P := fun _ b => ¬(b.FreshEvent rowId ∧
        b.knowsEvent providerId eventId = false)) hv ?_).sees
      exact (callbackClash_iff _ _).mp hclash
    · intro _ h
      cases h
    · intro _ h
      cases h
  have heffect : (insertCallbackEvent rowId providerId eventId outcome payment raw).wp
      (fun _ => True) φ pend (fun row pend' => Effect φ pend [.addCallback row] pend')
      fun _ _ => True :=
    wp_insertCallbackEvent (fun _ _ => trivial) fun _ _ h => h
  exact Txn.wp_consequence (Txn.wp_conj heffect hfields) (fun _ _ h => h) fun _ _ h => h.2

theorem wp_onDuplicate_redelivers :
    (onDuplicate env provider parsed).wp (fun _ => True) φ pend
      (fun _ pend' => ∃ ms, Redelivers env ms ∧ Effect φ pend ms pend') fun _ _ => True := by
  simp only [onDuplicate, Txn.wp_bind, Txn.wp_fetch]
  intro v hv
  refine Txn.wp_consequence wp_insertCallbackEvent_row (fun row p₁ h => ?_) fun _ _ _ => trivial
  obtain ⟨h₁, -, hblank⟩ := h
  split
  · rw [Txn.wp_bind]
    refine (recordAuditEvent_onTrail _ _ _ _ _ _).wp (fun _ p₂ h₂ => ?_) fun _ _ _ _ => trivial
    exact ⟨_, .orphan hblank, h₁.then_core h₂⟩
  · simp only [Txn.wp_bind, wp_getRow]
    intro u hu
    refine ⟨fun payment _ => ?_, fun _ => trivial⟩
    refine (recordAuditEvent_onTrail _ _ _ _ _ _).wp (fun _ p₂ h₂ => ?_) fun _ _ _ _ => trivial
    refine wp_recordEvent trivial ?_
    exact ⟨_, .noted hblank,
      (h₁.then_core h₂).trans (effect_note env payment (Or.inr (Or.inr rfl)))⟩

theorem wp_onFirstDelivery_first {row : PaymentCallbackEvent} {start : DB → DB}
    (hrow : Effect φ start [.addCallback row] pend) :
    (onFirstDelivery env row parsed).wp (fun _ => True) φ pend
      (fun _ pend' => ∃ ms, Keyless ms ∧ Effect φ start (.addCallback row :: ms) pend')
      fun _ _ => True := by
  simp only [onFirstDelivery, Txn.wp_bind, wp_checkParameter, Txn.wp_fetch]
  refine ⟨fun _ => trivial, fun _ v hv => ?_⟩
  split
  · simp only [Txn.wp_bind, wp_onBooks]
    refine (recordAuditEvent_onTrail _ _ _ _ _ _).wp (fun _ p₁ h₁ => ?_) fun _ _ _ _ => trivial
    have hedit : Effect φ pend [.editCallback row.id fun row => { row with outcome := .unmatched }]
        (inBooks (·.updateCallbackEvent row.id fun row => { row with outcome := .unmatched }) ∘
          pend) :=
      Effect.single (fun row => ⟨row.payment, .unmatched, rfl⟩) (writes_inBooks _ _)
    exact ⟨_, keyless_cons rfl keyless_nil, (hrow.trans hedit).then_core h₁⟩
  · next payment hfound =>
      simp only [Txn.wp_bind, wp_onBooks]
      have hedit : Effect φ pend
          [.editCallback row.id fun row => { row with payment := some payment.id }]
          (inBooks (·.updateCallbackEvent row.id fun row =>
            { row with payment := some payment.id }) ∘ pend) :=
        Effect.single (fun row => ⟨some payment.id, row.outcome, rfl⟩) (writes_inBooks _ _)
      have hheld : (viewOf φ pend).Holds payment :=
        ⟨.providerReference parsed.providerReference, rfl,
          seesAt_viewOf (P := fun _ b => payment ∈ b.payments) hv (matchReference_mem hfound).1⟩
      refine wp_applyOutcome ?_ (Related.valid_empty _ _) (fun _ _ => trivial)
        fun ms after p₁ happlied h₁ => ?_
      · rw [hedit.view]
        exact hheld.map fun b hb => hb
      · exact ⟨_, keyless_cons rfl happlied.keyless, (hrow.trans hedit).trans h₁⟩

theorem wp_processCallback_processed {inbound : InboundCallback} :
    (processCallback env provider inbound).wp (fun _ => True) φ pend
      (fun _ pend' => ∃ adapter ms, env.registry provider.code = some adapter ∧
        Processed (viewOf φ pend) env provider (adapter.processCallback inbound) ms ∧
        Effect φ pend ms pend') fun _ _ => True := by
  simp only [processCallback, Txn.wp_bind]
  refine wp_getAdapter provider (fun _ => trivial) fun adapter hadapter => ?_
  split
  · next message hanswer =>
      rw [Txn.wp_bind]
      refine Txn.wp_consequence wp_insertCallbackEvent_row (fun row p₁ h => ?_) fun _ _ _ => trivial
      obtain ⟨h₁, -, hblank⟩ := h
      rw [Txn.wp_bind]
      refine (recordAuditEvent_onTrail _ _ _ _ _ _).wp (fun _ p₂ h₂ => ?_) fun _ _ _ _ => trivial
      exact ⟨adapter, _, hadapter, hanswer ▸ .refused hblank, h₁.then_core h₂⟩
  · trivial
  · next parsed hanswer =>
      simp only [onParsed, Txn.wp_bind]
      refine Txn.wp_tryAtomic (Txn.wp_consequence wp_insertCallbackEvent_row (fun row p₁ h => ?_)
        fun e p hknown => ?_)
      · obtain ⟨h₁, hprovider, hevent⟩ := h
        refine Txn.wp_consequence (wp_onFirstDelivery_first h₁) (fun _ p₂ h₂ => ?_) fun _ _ h => h
        obtain ⟨ms, hrest, heffect⟩ := h₂
        exact ⟨adapter, _, hadapter, hanswer ▸ .first hprovider hevent hrest, heffect⟩
      · split
        · next hcaught =>
            refine Txn.wp_consequence wp_onDuplicate_redelivers (fun _ p₂ h₂ => ?_) fun _ _ h => h
            obtain ⟨ms, hredelivers, heffect⟩ := h₂
            exact ⟨adapter, ms, hadapter, hanswer ▸ .again (hknown hcaught) hredelivers, heffect⟩
        · trivial

/-- What a delivery to the endpoint of a provider did. -/
inductive Received (view : View) (env : Env) (inbound : InboundCallback) :
    Option PaymentProvider → List Move → Prop
  | unknown : Received view env inbound none []
  | processed {provider : PaymentProvider} {adapter : Adapter} {ms : List Move}
      (registered : env.registry provider.code = some adapter)
      (processed : Processed view env provider (adapter.processCallback inbound) ms) :
      Received view env inbound (some provider) ms

theorem wp_providerCallback_received {code : String} {inbound : InboundCallback} :
    (providerCallback env code inbound).wp (fun _ => True) φ id
      (fun _ pend' => ∃ v ms, φ (.providerCode code) v ∧
        Received (viewOf φ id) env inbound (v.providers.find? (·.code = code)) ms ∧
        Effect φ id ms pend') fun _ _ => True := by
  simp only [providerCallback, Txn.wp_bind, Txn.wp_fetch]
  intro v hv
  cases hprovider : (id v).providers.find? (·.code = code) with
  | none =>
      have hreceived : Received (viewOf φ id) env inbound (v.providers.find? (·.code = code)) [] :=
        (show v.providers.find? (·.code = code) = none from hprovider) ▸ .unknown
      exact ⟨v, [], hv, hreceived, Effect.refl⟩
  | some provider =>
      simp only [Txn.wp_bind, Txn.pure_eq_ret, Txn.wp_ret]
      refine Txn.wp_consequence wp_processCallback_processed (fun _ p h => ?_) fun _ _ h => h
      obtain ⟨adapter, ms, hadapter, hprocessed, heffect⟩ := h
      have hreceived : Received (viewOf φ id) env inbound (v.providers.find? (·.code = code)) ms :=
        (show v.providers.find? (·.code = code) = some provider from hprovider) ▸
          .processed hadapter hprocessed
      exact ⟨v, ms, hv, hreceived, heffect⟩

end Deliveries

end Kusanya
