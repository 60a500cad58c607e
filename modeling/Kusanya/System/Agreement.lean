import Kusanya.Invariants.Agreement
import Kusanya.Model.Sandbox
import Kusanya.Moves.Persistence
import Kusanya.System.Accounting

/-!
# The platform and its providers agree

A provider answers from its records, but an answer may be lost, a query may come too early, and
callbacks may report anything.  Requests run next to each other.  Still no payment is `FAILED` that
the provider has on record as a success, no money is booked for one that it has on record as a
failure, and a reconciliation run settles the successes that it finds `UNKNOWN`, for good.
-/

namespace Kusanya

open ReadCommitted Support

/-! ## Answers -/

/-- The metadata that a request hands to the provider. -/
def Action.metadata? : Action → Option (List (String × String))
  | .payBill _ _ _ _ _ metadata | .paymentListCreate _ _ _ _ _ _ _ metadata => some metadata
  | _ => none

/-- An answer to an initiation: the outcome on record, a success that is not heard of, or an
exception that takes the request with it. -/
def AnswersInitiation (onRecord : ProviderOutcome) : Except AdapterError ProviderResult → Prop
  | .ok result => result.outcome = onRecord
  | .error (.timeout _) => onRecord = .successful
  | .error e => e = .other

/-- An answer to a query: the outcome on record, or that nothing is known yet. -/
def AnswersQuery (onRecord : ProviderOutcome) (result : ProviderResult) : Prop :=
  result.outcome = onRecord ∨ result.outcome = .unknown ∧ result.providerReference = ""

/-- What the providers answer during a request agrees with what they have on record.  Callbacks may
report any outcome; they name the transaction that they are about. -/
structure Request.AnsweredFrom (onRecord : String → ProviderOutcome) (request : Request) :
    Prop where
  initiates : ∀ code adapter call, request.env.registry code = some adapter →
    call.merchantReference = request.env.gen.merchantReference →
    request.action.metadata? = some call.metadata →
    AnswersInitiation (onRecord call.merchantReference) (adapter.initiatePayment call)
  queries : ∀ code adapter reference result, request.env.registry code = some adapter →
    adapter.queryPayment reference = .ok result → AnswersQuery (onRecord reference) result
  names : ∀ code inbound registered adapter parsed,
    request.action = .providerCallback code inbound →
    request.env.registry registered = some adapter →
    adapter.processCallback inbound = .ok parsed → parsed.providerReference ≠ ""

/-- The mock provider answers from its transactions: each row has the outcome on record, and the
hint of an initiation asks for it. -/
theorem Sandbox.answeredFrom {sandbox : Sandbox} {request : Request}
    {onRecord : String → ProviderOutcome} (hregistry : request.env.registry = sandbox.registry)
    (hkept : ∀ row ∈ sandbox.transactions, row.outcome = onRecord row.merchantReference)
    (hdrawn : ∀ metadata, request.action.metadata? = some metadata →
      actualOutcome (outcomeHint metadata) = onRecord request.env.gen.merchantReference)
    (hnamed : ∀ code inbound parsed, request.action = .providerCallback code inbound →
      sandbox.processCallback inbound = .ok parsed → parsed.providerReference ≠ "") :
    request.AnsweredFrom onRecord := by
  have hadapter : ∀ code adapter, request.env.registry code = some adapter →
      adapter = sandbox.adapter := by
    intro code adapter h
    rw [hregistry, Sandbox.registry] at h
    split at h
    · exact (Option.some.inj h).symm
    · cases h
  constructor
  · intro code adapter call h hreference hmetadata
    rw [hadapter code adapter h, hreference, ← hdrawn _ hmetadata]
    change AnswersInitiation _ (sandbox.initiatePayment call)
    dsimp only [Sandbox.initiatePayment]
    by_cases haccepts : sandbox.accepts (sandbox.newTransaction call) = false
    · rw [if_pos haccepts]
      exact Eq.refl AdapterError.other
    · rw [if_neg haccepts]
      by_cases hhint : outcomeHint call.metadata = "timeout"
      · rw [if_pos hhint, hhint]
        exact Eq.refl ProviderOutcome.successful
      · rw [if_neg hhint]
        exact Eq.refl (actualOutcome (outcomeHint call.metadata))
  · intro code adapter reference result h hanswer
    rw [hadapter code adapter h] at hanswer
    change sandbox.queryPayment reference = .ok result at hanswer
    unfold Sandbox.queryPayment at hanswer
    split at hanswer
    · obtain rfl := Except.ok.inj hanswer
      exact Or.inr ⟨rfl, rfl⟩
    · next row hfound =>
        obtain rfl := Except.ok.inj hanswer
        have hreference : row.merchantReference = reference :=
          of_decide_eq_true (List.find?_some hfound :)
        left
        rw [← hreference]
        exact hkept row (List.mem_of_find?_eq_some hfound)
  · intro code inbound registered adapter parsed haction h hparsed
    rw [hadapter registered adapter h] at hparsed
    exact hnamed code inbound parsed haction hparsed

/-- Where a column can hold the ids of a callback, the endpoint of the mock provider is the one of
every provider. -/
theorem Sandbox.processCallback_eq {sandbox : Sandbox} {env : Env} {provider : PaymentProvider}
    {inbound : InboundCallback} {parsed : MockCallbackResult} {eventId reference : String}
    (hregistered : env.registry provider.code = some sandbox.adapter)
    (hparsed : mockProcessCallback sandbox.setting inbound = .ok parsed)
    (heventId : sandbox.setting.column parsed.externalEventId = some eventId)
    (hreference : sandbox.setting.column parsed.providerReference = some reference) :
    Kusanya.processCallback env provider inbound =
      processMockCallback sandbox.setting env provider inbound := by
  have hadapter :
      sandbox.adapter.processCallback inbound = .ok (parsed.withIds eventId reference) := by
    change sandbox.processCallback inbound = _
    rw [Sandbox.processCallback, hparsed]
    dsimp only
    rw [heventId, hreference]
  have hinsert : insertMockEvent sandbox.setting (env.gen.callbackEventId 0) provider.id parsed =
      insertCallbackEvent (env.gen.callbackEventId 0) provider.id eventId .processed none
        parsed.rawPayload := by
    rw [insertMockEvent, heventId]
  rw [Kusanya.processCallback, getAdapter, hregistered, processMockCallback, hparsed]
  simp only [Txn.pure_eq_ret, Txn.ret_bind, hadapter]
  rw [onParsed, onMockParsed, hinsert]
  refine congrArg _ (funext fun inserted => ?_)
  cases inserted with
  | error e =>
      dsimp only
      rw [onMockDuplicate, heventId]
      rfl
  | ok event =>
      dsimp only
      rw [onMockFirstDelivery, hreference]
      rfl

/-! ## Moves -/

section Moves

variable {onRecord : String → ProviderOutcome} {ref : ℕ → String}
variable {view : View} {env : Env} {payment after : Payment} {ms : List Move} {b : Books}

/-- The outcome that a query applies is on record, or changes nothing. -/
theorem Queried.faithful {result : ProviderResult} (h : Queried env payment result ms after)
    (hanswer : AnswersQuery (onRecord (ref payment.id)) result) : Faithful onRecord ref ms := by
  obtain ⟨hlearned, happlied⟩ := h
  intro p hp hfailed
  have hid := hlearned.id_eq
  rcases List.mem_append.mp hp with hp | hp
  · cases hlearned with
    | known => cases hp
    | learned => cases List.mem_singleton.mp hp
  · cases happlied with
    | inconclusive | repeated => cases hp
    | unknown | pending =>
        obtain rfl := Move.enter.inj (List.mem_singleton.mp hp)
        cases hfailed
    | failed hreported =>
        rcases List.mem_cons.mp hp with hp | hp
        · obtain rfl := Move.enter.inj hp
          intro hsuccess
          have hsame : onRecord (ref payment.id) = .successful := by
            rw [← hid]
            exact hsuccess
          rw [AnswersQuery, hsame, hreported] at hanswer
          rcases hanswer with hanswer | ⟨hanswer, -⟩
          · cases hanswer
          · cases hanswer
        · cases List.mem_singleton.mp hp
    | successful => cases List.mem_singleton.mp hp

/-- A query that learns the reference of a success on record finds it settled, or settles it. -/
theorem Queried.learnt {result : ProviderResult} (h : Queried env payment result ms after)
    (hanswer : AnswersQuery (onRecord (ref payment.id)) result) {id : ℕ} {reference : String}
    {raw : Option String} (hm : .refer id reference raw ∈ ms)
    (hsuccess : onRecord (ref id) = .successful) :
    id = payment.id ∧ (reference = "" ∨ payment.status.settled = true ∨
      ∃ s, .settle s ∈ ms ∧ s.payment.id = id) := by
  obtain ⟨hlearned, happlied⟩ := h
  have hnot : ∀ {object : Payment} {rest : List Move},
      Applied env object result.outcome rest after → .refer id reference raw ∉ rest := by
    intro object rest happlied hm
    cases happlied with
    | inconclusive | repeated => cases hm
    | unknown | pending | successful => cases List.mem_singleton.mp hm
    | failed =>
        rcases List.mem_cons.mp hm with hm | hm
        · cases hm
        · cases List.mem_singleton.mp hm
  cases hlearned with
  | known => exact absurd hm (hnot happlied)
  | learned =>
      rcases List.mem_append.mp hm with hm | hm
      · obtain ⟨rfl, rfl, -⟩ := Move.refer.inj (List.mem_singleton.mp hm)
        refine ⟨rfl, ?_⟩
        rw [AnswersQuery, hsuccess] at hanswer
        rcases hanswer with hreported | ⟨-, hblank⟩
        · right
          rw [hreported] at happlied
          cases happlied with
          | inconclusive h _ | unknown h _ => cases h
          | repeated hsame =>
              left
              have hstatus : PaymentStatus.successful = payment.status := Option.some.inj hsame
              rw [← hstatus]
              rfl
          | pending h | failed h => cases h
          | successful _ s _ hpayment =>
              right
              refine ⟨s, List.mem_append_right _ (List.mem_singleton.mpr rfl), ?_⟩
              rw [hpayment]
              rfl
        · exact Or.inl hblank
      · exact absurd hm (hnot happlied)

/-- A run queries each payment that it has found. -/
theorem Reconciled.answered {request : Request} {payments : List Payment}
    (h : Reconciled view request.env payments ms) (hanswered : request.AnsweredFrom onRecord)
    (href : ∀ p ∈ payments, p.merchantReference = ref p.id)
    (hopen : ∀ p ∈ payments, p.status = .unknown) :
    Faithful onRecord ref ms ∧ Learnt onRecord ref b ms := by
  induction h with
  | nil =>
      exact ⟨fun p hp => absurd hp List.not_mem_nil, fun _ _ _ hm => absurd hm List.not_mem_nil⟩
  | @cons payment after payments adapter result ms ms' serves answer queried _ ih =>
      obtain ⟨hfirst, hothers⟩ := List.forall_mem_cons.mp href
      obtain ⟨hunknown, hunknowns⟩ := List.forall_mem_cons.mp hopen
      obtain ⟨hfaithful, hlearnt⟩ := ih hothers hunknowns
      obtain ⟨provider, -, hregistered⟩ := serves
      have hanswer := hanswered.queries _ _ _ _ hregistered answer
      rw [hfirst] at hanswer
      constructor
      · intro p hp
        rcases List.mem_append.mp hp with hp | hp
        · exact queried.faithful hanswer p hp
        · exact hfaithful p hp
      · intro id reference raw hm hsuccess
        rcases List.mem_append.mp hm with hm | hm
        · obtain ⟨-, hblank | hsettled | ⟨s, hs, hid⟩⟩ := queried.learnt hanswer hm hsuccess
          · exact Or.inl hblank
          · rw [hunknown] at hsettled
            cases hsettled
          · exact Or.inr (Or.inr ⟨s, List.mem_append_left _ hs, hid⟩)
        · rcases hlearnt id reference raw hm hsuccess with hblank | hsettled | ⟨s, hs, hid⟩
          · exact Or.inl hblank
          · exact Or.inr (Or.inl hsettled)
          · exact Or.inr (Or.inr ⟨s, List.mem_append_right _ hs, hid⟩)

/-- What a transaction has read agrees with the records; a success that it has found settled is
settled by now. -/
structure View.Informed (onRecord : String → ProviderOutcome) (ref : ℕ → String) (b : Books)
    (view : View) : Prop where
  agrees : ∀ what d b', view what d b' → ∀ p ∈ b'.payments,
    p.merchantReference = ref p.id ∧ p.AgreesWith onRecord
  settled : ∀ what d b', view what d b' → ∀ p ∈ b'.payments, onRecord (ref p.id) = .successful →
    p.status.settled = true → ∀ row ∈ b.payments, row.id = p.id → row.status.settled = true

theorem View.Informed.stands (h : view.Informed onRecord ref b) : view.Stands onRecord ref := by
  intro what d b' hb p hp
  obtain ⟨href, hagrees⟩ := h.agrees what d b' hb p hp
  have hstatus := hagrees.status
  rw [href] at hstatus
  exact ⟨href, hstatus⟩

theorem View.Informed.held (h : view.Informed onRecord ref b) (hp : view.Holds payment) :
    payment.merchantReference = ref payment.id ∧ payment.AgreesWith onRecord ∧
      (onRecord (ref payment.id) = .successful → payment.status.settled = true →
        ∀ row ∈ b.payments, row.id = payment.id → row.status.settled = true) := by
  obtain ⟨what, -, d, b', hb, hmem⟩ := hp
  obtain ⟨href, hagrees⟩ := h.agrees what d b' hb payment hmem
  exact ⟨href, hagrees, h.settled what d b' hb payment hmem⟩

/-- A callback that names its transaction takes no success on record for a failure: the payment
that it finds is settled. -/
theorem CalledBack.faithful {provider : PaymentProvider}
    {answer : Except AdapterError ProviderCallbackResult}
    (h : CalledBack view env provider answer ms) (hchain : view.Chain ms)
    (hview : view.Informed onRecord ref b)
    (hnames : ∀ parsed, answer = .ok parsed → parsed.providerReference ≠ "") :
    Faithful onRecord ref ms := by
  intro p hp hfailed hsuccess
  cases h with
  | invalid | orphanDuplicate => cases List.mem_singleton.mp hp
  | duplicate | unmatched =>
      rcases List.mem_cons.mp hp with hp | hp
      · cases hp
      · cases List.mem_singleton.mp hp
  | @matched parsed row payment after ms' found applied =>
      obtain ⟨d, b', hb, hfound⟩ := found
      have hreference := (matchReference_mem hfound).2
      rcases List.mem_cons.mp hp with hp | hp
      · cases hp
      rcases List.mem_cons.mp hp with hp | hp
      · cases hp
      cases applied with
      | inconclusive | repeated => cases hp
      | unknown | pending =>
          obtain rfl := Move.enter.inj (List.mem_singleton.mp hp)
          cases hfailed
      | successful => cases List.mem_singleton.mp hp
      | failed =>
          rcases List.mem_cons.mp hp with hp | hp
          · obtain rfl := Move.enter.inj hp
            obtain ⟨-, -, ⟨⟨old, henters⟩, -⟩, -⟩ := hchain
            obtain ⟨what, -, d', _, ⟨_, ⟨b'', hb'', rfl⟩, rfl⟩, hold⟩ := henters.holds
            obtain ⟨now, reason, hmoved⟩ := henters.moved
            -- the transition was checked on an object with the reference of the callback
            have hids := congrArg Payment.id hmoved
            have hid : payment.id = old.id := hids
            have hnames' := congrArg Payment.providerReference hmoved
            have hname : payment.providerReference = old.providerReference := hnames'
            obtain ⟨href, hagrees⟩ := hview.agrees what d' b'' hb'' old hold
            have hrecord : onRecord old.merchantReference = .successful := by
              rw [href, ← hid]
              exact hsuccess
            have hstatus := hagrees.status
            rw [hrecord] at hstatus
            rcases hstatus with hsettled | hunknown
            · have hallowed : PaymentStatus.failed ∈ old.status.allowedTransitions :=
                henters.allowed
              revert hsettled hallowed
              cases old.status <;> simp [PaymentStatus.settled, PaymentStatus.allowedTransitions]
            · have hblank := hagrees.unheard hrecord hunknown
              exact hnames parsed rfl (hreference.symm.trans (hname.trans hblank))
          · cases List.mem_singleton.mp hp

theorem CalledBack.not_refer {provider : PaymentProvider}
    {answer : Except AdapterError ProviderCallbackResult}
    (h : CalledBack view env provider answer ms) {id : ℕ} {reference : String}
    {raw : Option String} : .refer id reference raw ∉ ms := by
  intro hm
  cases h with
  | invalid | orphanDuplicate => cases List.mem_singleton.mp hm
  | duplicate | unmatched =>
      rcases List.mem_cons.mp hm with hm | hm
      · cases hm
      · cases List.mem_singleton.mp hm
  | matched _ applied =>
      rcases List.mem_cons.mp hm with hm | hm
      · cases hm
      rcases List.mem_cons.mp hm with hm | hm
      · cases hm
      cases applied with
      | inconclusive | repeated => cases hm
      | unknown | pending | successful => cases List.mem_singleton.mp hm
      | failed =>
          rcases List.mem_cons.mp hm with hm | hm
          · cases hm
          · cases List.mem_singleton.mp hm

/-! ## New payments -/

/-- What an initiation opens agrees with the records when the request ends. -/
structure Opens (onRecord : String → ProviderOutcome) (payment : Payment) (ms rest : List Move) :
    Prop where
  first : ms = .openPayment payment :: rest
  opens : ∀ m ∈ rest, m.opened = []
  others : ∀ row : Payment, row.id ≠ payment.id → row.after rest = row
  agrees : (payment.after rest).AgreesWith onRecord
  enters : ∀ m ∈ ms, ∀ p, m.entered = some p → p.id = payment.id ∧
    (p.status.settled = true → onRecord payment.merchantReference = .successful)

theorem after_enter (p : Payment) (now : Time) (new : PaymentStatus) (reason : String) :
    p.after [.enter (p.moveTo now new reason)] = (p.moveTo now new reason).saveStatus p :=
  if_pos rfl

theorem onPayment_refer (p : Payment) (reference : String) (raw : Option String) :
    (Move.refer p.id reference raw).onPayment p = p.refer reference raw :=
  if_pos rfl

/-- The outcome on record, applied to a payment that is being initiated. -/
theorem Applied.initiated {outcome : ProviderOutcome} (h : Applied env payment outcome ms after)
    (hinitiated : payment.status = .initiated)
    (hrecord : onRecord payment.merchantReference = outcome) :
    (payment.after ms).AgreesWith onRecord ∧
      ∀ m ∈ ms, ∀ p, m.entered = some p → p.id = payment.id ∧
        (p.status.settled = true → outcome = .successful) := by
  have hsame : onRecord (payment.after ms).merchantReference = outcome := by
    rw [payment.after_merchantReference]
    exact hrecord
  cases h with
  | inconclusive _ hs => exact absurd hinitiated hs.1
  | repeated hstays =>
      rw [hinitiated] at hstays
      cases outcome <;> cases hstays
  | unknown hnone _ =>
      rw [after_enter] at hsame ⊢
      refine ⟨⟨?_, fun hsuccess _ => ?_⟩, fun m hm p hp => ?_⟩
      · rw [hsame]
        cases outcome with
        | unknown => exact fun h => PaymentStatus.noConfusion h
        | _ => cases hnone
      · rw [hsame] at hsuccess
        rw [hsuccess] at hnone
        cases hnone
      · rw [List.mem_singleton.mp hm] at hp
        obtain rfl := Option.some.inj hp
        exact ⟨rfl, fun hsettled => by cases hsettled⟩
  | pending hpending =>
      subst hpending
      rw [after_enter] at hsame ⊢
      refine ⟨⟨?_, fun hsuccess _ => ?_⟩, fun m hm p hp => ?_⟩
      · rw [hsame]
        exact fun h => PaymentStatus.noConfusion h
      · rw [hsame] at hsuccess
        cases hsuccess
      · rw [List.mem_singleton.mp hm] at hp
        obtain rfl := Option.some.inj hp
        exact ⟨rfl, fun hsettled => by cases hsettled⟩
  | failed hfailed =>
      subst hfailed
      have hrow : payment.after [.enter (payment.moveTo env.now .failed ""),
          .note ((payment.moveTo env.now .failed "").event env .paymentFailed .zero none [])] =
          (payment.moveTo env.now .failed "").saveStatus payment := if_pos rfl
      rw [hrow] at hsame ⊢
      refine ⟨⟨?_, fun hsuccess _ => ?_⟩, fun m hm p hp => ?_⟩
      · rw [hsame]
        rfl
      · rw [hsame] at hsuccess
        cases hsuccess
      · rcases List.mem_cons.mp hm with rfl | hm
        · obtain rfl := Option.some.inj hp
          exact ⟨rfl, fun hsettled => by cases hsettled⟩
        · rw [List.mem_singleton.mp hm] at hp
          cases hp
  | successful hsuccess s _ hpayment =>
      subst hsuccess
      have hrow : payment.after [.settle s] = s.payment.saveStatus payment := by
        apply if_pos
        rw [hpayment]
        rfl
      have hstatus : (payment.after [.settle s]).status = .successful := by
        rw [hrow, hpayment]
        rfl
      refine ⟨⟨?_, fun _ hunknown => ?_⟩, fun m hm p hp => ⟨?_, fun _ => rfl⟩⟩
      · rw [hsame, hstatus]
        exact Or.inl rfl
      · rw [hstatus] at hunknown
        cases hunknown
      · rw [List.mem_singleton.mp hm] at hp
        obtain rfl := Option.some.inj hp
        rw [hpayment]
        rfl

theorem Initiated.opens_answered {input : InitiateInput} {adapter : Adapter}
    (h : Initiated env input adapter ms after)
    (hanswer : ∀ call : InitiateCall, call.merchantReference = env.gen.merchantReference →
      call.metadata = input.metadata →
      AnswersInitiation (onRecord call.merchantReference) (adapter.initiatePayment call)) :
    ∃ payment rest, Opens onRecord payment ms rest := by
  cases h with
  | @timedOut payment currency message hpayment answer =>
      subst hpayment
      have hlost := hanswer (input.call (input.newPayment env currency)) rfl rfl
      rw [answer] at hlost
      have hrecord : onRecord (input.newPayment env currency).merchantReference = .successful :=
        hlost
      refine ⟨_, _, rfl, fun m hm => ?_, fun row hrow => if_neg hrow, ⟨?_, fun _ _ => ?_⟩, ?_⟩
      · rw [List.mem_singleton.mp hm]
        rfl
      · rw [Payment.after_merchantReference, hrecord, after_enter]
        exact Or.inr rfl
      · rw [after_enter]
        rfl
      · intro m hm p hp
        rcases List.mem_cons.mp hm with rfl | hm
        · cases hp
        · rw [List.mem_singleton.mp hm] at hp
          obtain rfl := Option.some.inj hp
          exact ⟨rfl, fun _ => hrecord⟩
  | @refused payment currency message e hpayment answer he =>
      have hraised := hanswer (input.call payment) (by rw [hpayment]; rfl) rfl
      rw [answer] at hraised
      rcases he with rfl | rfl
      · cases hraised
      · cases hraised
  | @answered payment after currency result ms' hpayment answer applied =>
      subst hpayment
      have hreported := hanswer (input.call (input.newPayment env currency)) rfl rfl
      rw [answer] at hreported
      have hrecord : onRecord (input.newPayment env currency).merchantReference = result.outcome :=
        Eq.symm hreported
      obtain ⟨hagrees, henters⟩ := applied.initiated rfl hrecord
      refine ⟨_, _, rfl, List.forall_mem_cons.mpr ⟨rfl, applied.opened⟩, fun row hrow => ?_, ?_, ?_⟩
      · refine Payment.after_other (List.forall_mem_cons.mpr ⟨if_neg hrow, ?_⟩)
        exact applied.onPayment_other hrow
      · rw [Payment.after_cons, onPayment_refer]
        exact hagrees
      · intro m hm p hp
        rcases List.mem_cons.mp hm with rfl | hm
        · cases hp
        rcases List.mem_cons.mp hm with rfl | hm
        · cases hp
        · obtain ⟨hid, hsettles⟩ := henters m hm p hp
          exact ⟨hid, fun hsettled => hrecord.trans (hsettles hsettled)⟩

end Moves

/-! ## A commit -/

/-- A payment of the tables that the provider has not refused. -/
def Books.Unrefused (onRecord : String → ProviderOutcome) (b : Books) (id : ℕ) : Prop :=
  ∃ p ∈ b.payments, p.id = id ∧ onRecord p.merchantReference ≠ .failed

/-- The money tables agree with what the providers have on record: each payment does, and money is
booked only for payments that were not refused. -/
structure Books.AgreesWith (onRecord : String → ProviderOutcome) (b : Books) : Prop where
  payments : ∀ p ∈ b.payments, p.AgreesWith onRecord
  ledger : ∀ row ∈ b.ledger, ∀ id, row.source = some (.payment id) → b.Unrefused onRecord id
  allocations : ∀ a ∈ b.allocations, b.Unrefused onRecord a.payment
  receipts : ∀ row ∈ b.receipts, b.Unrefused onRecord row.payment
  revenue : ∀ e ∈ b.revenue, ∀ id, e.source = .payment id → e.amount.cents ≠ 0 →
    b.Unrefused onRecord id
  fees : ∀ e ∈ b.revenue, ∀ row, e.ledgerEntry = some row → ∀ id,
    row.source = some (.payment id) → b.Unrefused onRecord id

/-- How committed states follow each other: the tables grow, and a success on record that is settled
stays settled. -/
structure Proceeds (onRecord : String → ProviderOutcome) (s t : DB) : Prop where
  grows : s.toBooks.Grows t.toBooks
  settled : ∀ p ∈ s.payments, onRecord p.merchantReference = .successful →
    p.status.settled = true → ∃ q ∈ t.payments, q.fixed = p.fixed ∧ q.status.settled = true

section Commits

variable {onRecord : String → ProviderOutcome} {s t u : DB} {seen : List (Resource × DB)}
variable {request : Request} {ms : List Move} {b b' : Books} {ref : ℕ → String} {view : View}

theorem Books.Unrefused.grows {id : ℕ} (h : b.Unrefused onRecord id) (hgrows : b.Grows b') :
    b'.Unrefused onRecord id := by
  obtain ⟨p, hp, rfl, hrecord⟩ := h
  obtain ⟨q, hq, hfixed⟩ := hgrows.payments.mem hp
  refine ⟨q, hq, congrArg Payment.Fixed.id hfixed, ?_⟩
  rw [show q.merchantReference = p.merchantReference from
    congrArg Payment.Fixed.merchantReference hfixed]
  exact hrecord

theorem proceeds_refl (s : DB) : Proceeds onRecord s s where
  grows := .refl _
  settled p hp _ hsettled := ⟨p, hp, rfl, hsettled⟩

theorem Proceeds.trans (h : Proceeds onRecord s t) (h' : Proceeds onRecord t u) :
    Proceeds onRecord s u where
  grows := h.grows.trans h'.grows
  settled p hp hrecord hsettled := by
    obtain ⟨q, hq, hfixed, hq'⟩ := h.settled p hp hrecord hsettled
    have hreference : q.merchantReference = p.merchantReference :=
      congrArg Payment.Fixed.merchantReference hfixed
    obtain ⟨row, hrow, hfixed', hrow'⟩ := h'.settled q hq (hreference ▸ hrecord) hq'
    exact ⟨row, hrow, hfixed'.trans hfixed, hrow'⟩

/-- The merchant references of a table, by primary key. -/
def Books.reference (b : Books) (id : ℕ) : String :=
  ((b.payments.find? (·.id = id)).map (·.merchantReference)).getD ""

theorem reference_eq {p : Payment} (hkeys : (b.payments.map (·.id)).Nodup) (hp : p ∈ b.payments) :
    p.merchantReference = b.reference p.id := by
  have hfound : b.payments.find? (·.id = p.id) = some p := payment?_eq_some hkeys hp
  rw [Books.reference, hfound]
  rfl

/-- What a transaction has read, when it commits. -/
theorem informed_of_read (hkeys : (s.payments.map (·.id)).Nodup)
    (hread : ∀ x ∈ seen, x.2.toBooks.AgreesWith onRecord ∧ Proceeds onRecord x.2 s) :
    (viewOf (Read seen) id).Informed onRecord s.toBooks.reference s.toBooks where
  agrees := by
    rintro what d _ ⟨v, hv, rfl, rfl⟩ p hp
    obtain ⟨hagrees, hproceeds⟩ := hread _ hv
    obtain ⟨q, hq, hfixed⟩ := hproceeds.grows.payments.mem hp
    refine ⟨?_, hagrees.payments p hp⟩
    calc p.merchantReference = q.merchantReference :=
          (congrArg Payment.Fixed.merchantReference hfixed).symm
      _ = s.toBooks.reference q.id := reference_eq hkeys hq
      _ = s.toBooks.reference p.id := congrArg _ (congrArg Payment.Fixed.id hfixed)
  settled := by
    rintro what d _ ⟨v, hv, rfl, rfl⟩ p hp hsuccess hsettled row hrow hid
    obtain ⟨hagrees, hproceeds⟩ := hread _ hv
    obtain ⟨q, hq, hfixed⟩ := hproceeds.grows.payments.mem hp
    have hqid : q.id = p.id := congrArg Payment.Fixed.id hfixed
    have hrecord : onRecord p.merchantReference = .successful := by
      have hreference : q.merchantReference = s.toBooks.reference q.id := reference_eq hkeys hq
      rw [← hsuccess, ← hqid, ← hreference]
      exact congrArg onRecord (congrArg Payment.Fixed.merchantReference hfixed).symm
    obtain ⟨q', hq', hfixed', hsettled'⟩ := hproceeds.settled p hp hrecord hsettled
    have hsame : row = q' :=
      eq_of_key hkeys hrow hq' (hid.trans (congrArg Payment.Fixed.id hfixed').symm)
    rw [hsame]
    exact hsettled'

/-- The moves of a request that opens no payment. -/
structure Reports (onRecord : String → ProviderOutcome) (ref : ℕ → String) (b : Books)
    (ms : List Move) : Prop where
  opens : ∀ m ∈ ms, m.opened = []
  faithful : Faithful onRecord ref ms
  learnt : Learnt onRecord ref b ms

theorem reports_clerical (h : ∀ m ∈ ms, m.isClerical = true) : Reports onRecord ref b ms where
  opens m hm := opened_of_clerical (h m hm)
  faithful p hp := by cases h _ hp
  learnt _ _ _ hm := by cases h _ hm

theorem reports_nil : Reports onRecord ref b [] :=
  reports_clerical fun _ hm => absurd hm List.not_mem_nil

theorem Undone.reports {env : Env} {payment after : Payment} {status : PaymentStatus}
    (h : Undone env payment status ms after) : Reports onRecord ref b ms := by
  cases h with
  | kept => exact reports_nil
  | undone =>
      constructor
      · intro m hm
        rw [List.mem_singleton.mp hm]
        rfl
      · intro p hp
        cases List.mem_singleton.mp hp
      · intro _ _ _ hm
        cases List.mem_singleton.mp hm

/-- What a request does, by what its providers have on record: it opens a payment that agrees, or
it reports on payments that are there. -/
theorem Action.Moves.reports (h : request.action.Moves view request.env ms)
    (hchain : view.Chain ms) (hanswered : request.AnsweredFrom onRecord)
    (hview : view.Informed onRecord ref b) :
    (∃ payment rest, Opens onRecord payment ms rest) ∨ Reports onRecord ref b ms := by
  have hstarts : ∀ {tenant : ℕ} {amount : Amount} {metadata : List (String × String)},
      request.action.metadata? = some metadata →
      StartsPayment view request.env tenant amount metadata ms →
      (∃ payment rest, Opens onRecord payment ms rest) ∨ Reports onRecord ref b ms := by
    intro tenant amount metadata hmetadata hstarted
    rcases hstarted with rfl | ⟨input, adapter, after, -, -, rfl, -, -, hregistered, hinitiated⟩
    · exact Or.inr reports_nil
    · left
      refine hinitiated.opens_answered fun call hreference hsame => ?_
      exact hanswered.initiates _ adapter call hregistered hreference
        (by rw [hsame]; exact hmetadata)
  obtain ⟨env, action⟩ := request
  cases action with
  | payBill | paymentListCreate => exact hstarts rfl h
  | paymentQuery tenant pk =>
      obtain ⟨payment, adapter, result, after, hheld, -, -, ⟨provider, -, hregistered⟩, hanswer,
        hqueried⟩ := h
      obtain ⟨href, -, hsettled⟩ := hview.held hheld
      have hanswers := hanswered.queries _ _ _ _ hregistered hanswer
      rw [href] at hanswers
      right
      refine ⟨hqueried.opened, hqueried.faithful hanswers, fun id reference raw hm hsuccess => ?_⟩
      obtain ⟨rfl, hblank | hdone | hsettles⟩ := hqueried.learnt hanswers hm hsuccess
      · exact Or.inl hblank
      · exact Or.inr (Or.inl (hsettled hsuccess hdone))
      · exact Or.inr (Or.inr hsettles)
  | paymentRefund | paymentReverse =>
      right
      rcases h with rfl | ⟨payment, after, -, -, -, hundone⟩
      · exact reports_nil
      · exact hundone.reports
  | providerCallback code inbound =>
      right
      rcases h with rfl | ⟨provider, adapter, -, hregistered, hback⟩
      · exact reports_nil
      · refine ⟨hback.opened, hback.faithful hchain hview fun parsed hparsed => ?_, ?_⟩
        · exact hanswered.names _ _ _ _ _ rfl hregistered hparsed
        · exact fun _ _ _ hm => absurd hm hback.not_refer
  | triggerRun tenant =>
      obtain ⟨payments, hfound, -, hreconciled⟩ := h
      right
      obtain ⟨hfaithful, hlearnt⟩ := hreconciled.answered hanswered
        (fun p hp => (hview.held (hfound p hp).1).1) fun p hp => (hfound p hp).2.2
      exact ⟨hreconciled.opened, hfaithful, hlearnt⟩
  | _ => exact Or.inr (reports_clerical h)

/-! ### Payments -/

theorem Opens.payments {payment : Payment} {rest : List Move}
    (h : Opens onRecord payment ms rest) (b : Books) :
    (Move.runAll ms b).payments = (b.payments ++ [payment]).map (·.after rest) := by
  rw [h.first, Move.runAll_cons, runAll_payments h.opens]
  rfl

/-- The primary key of a new payment was free. -/
theorem Opens.fresh {payment : Payment} {rest : List Move} (h : Opens onRecord payment ms rest)
    (hkeys : ((Move.runAll ms b).payments.map (·.id)).Nodup) :
    ∀ row ∈ b.payments, row.id ≠ payment.id := by
  intro row hrow hid
  have hsame : ((b.payments ++ [payment]).map (·.after rest)).map (·.id) =
      b.payments.map (·.id) ++ [payment.id] := by
    rw [List.map_map, List.map_append]
    exact congrArg₂ _ (List.map_congr_left fun row _ => row.after_id rest)
      (congrArg (fun id => [id]) (payment.after_id rest))
  rw [h.payments, hsame] at hkeys
  have hdisjoint := (List.nodup_append.mp hkeys).2.2
  exact hdisjoint row.id (List.mem_map_of_mem hrow) payment.id (List.mem_singleton.mpr rfl) hid

/-- What a commit makes of the payments and of the money that is booked for them. -/
structure Reporting (onRecord : String → ProviderOutcome) (ms : List Move) (b : Books) : Prop where
  grows : b.Grows (Move.runAll ms b)
  guards : ∀ m ∈ ms, ∃ view : View, m.Guard view
  payments : ∀ p ∈ (Move.runAll ms b).payments, p.AgreesWith onRecord
  settled : ∀ p ∈ b.payments, onRecord p.merchantReference = .successful →
    p.status.settled = true →
    ∃ q ∈ (Move.runAll ms b).payments, q.fixed = p.fixed ∧ q.status.settled = true
  paid : ∀ m ∈ ms, ∀ p, m.entered = some p → p.status.settled = true →
    (Move.runAll ms b).Unrefused onRecord p.id
  fees : ∀ env p f metadata, .undo env p (some f) metadata ∈ ms → ∀ row,
    f.ledgerEntry = some row → ∀ id, row.source = some (.payment id) →
    (Move.runAll ms b).Unrefused onRecord id

theorem Opens.paid {payment : Payment} {rest : List Move} (h : Opens onRecord payment ms rest)
    (b : Books) : ∀ m ∈ ms, ∀ p, m.entered = some p → p.status.settled = true →
      (Move.runAll ms b).Unrefused onRecord p.id := by
  intro m hm p hp hsettled
  obtain ⟨hid, hsettles⟩ := h.enters m hm p hp
  refine ⟨payment.after rest, ?_, (payment.after_id rest).trans hid.symm, ?_⟩
  · rw [h.payments]
    exact List.mem_map_of_mem (List.mem_append_right _ (List.mem_singleton.mpr rfl))
  · rw [payment.after_merchantReference, hsettles hsettled]
    exact fun h => ProviderOutcome.noConfusion h

theorem Reports.paid (h : Reports onRecord ref b ms) (hchain : view.Chain ms)
    (hview : view.Informed onRecord ref b)
    (hthere : ∀ p : Payment, view.Holds p → ∃ row ∈ b.payments, row.fixed = p.fixed) :
    ∀ m ∈ ms, ∀ p, m.entered = some p → p.status.settled = true → b.Unrefused onRecord p.id := by
  intro m hm p hp hsettled
  have hkeeps := hchain.keeps hview.stands h.opens h.faithful m hm
  have hrecord : onRecord (ref p.id) ≠ .failed := by
    intro hfailed
    have hagrees := (hkeeps.entered hp).1
    rw [hfailed] at hagrees
    rw [show p.status = .failed from hagrees] at hsettled
    cases hsettled
  obtain ⟨q, hq, hfixed⟩ := hchain.entered hm hp
  rcases hq with hheld | ⟨m', hm', hopened⟩
  · obtain ⟨row, hrow, hrowfixed⟩ := hthere q hheld
    have hid : q.id = p.id := congrArg Payment.Fixed.id hfixed
    have hreference : row.merchantReference = ref p.id := by
      rw [← hid, ← (hview.held hheld).1]
      exact congrArg Payment.Fixed.merchantReference hrowfixed
    refine ⟨row, hrow, (congrArg Payment.Fixed.id hrowfixed).trans hid, ?_⟩
    rw [hreference]
    exact hrecord
  · rw [h.opens m' hm'] at hopened
    cases hopened

theorem CalledBack.works {env : Env} {provider : PaymentProvider}
    {answer : Except AdapterError ProviderCallbackResult}
    (h : CalledBack view env provider answer ms) : Works ms := by
  cases h with
  | invalid | orphanDuplicate => exact works_cons rfl works_nil
  | duplicate | unmatched => exact works_cons rfl (works_cons rfl works_nil)
  | matched _ applied => exact works_cons rfl (works_cons rfl applied.works)

/-- A refund or reversal stands alone. -/
theorem Action.Moves.undo_alone {env : Env} {action : Action} (h : action.Moves view env ms)
    {env' : Env} {payment : Payment} {fee : Option RevenueEvent}
    {metadata : List (String × String)} (hm : .undo env' payment fee metadata ∈ ms) :
    ms = [.undo env' payment fee metadata] := by
  have hworks : ∀ {ms : List Move}, Works ms → .undo env' payment fee metadata ∉ ms :=
    fun hworks hm => Bool.false_ne_true (hworks _ hm)
  cases action with
  | payBill | paymentListCreate => exact absurd hm (hworks (StartsPayment.works h))
  | paymentQuery =>
      obtain ⟨_, _, _, _, -, -, -, -, -, hqueried⟩ := h
      exact absurd hm (hworks hqueried.works)
  | paymentRefund | paymentReverse =>
      rcases h with rfl | ⟨_, _, -, -, -, hundone⟩
      · cases hm
      · cases hundone with
        | kept => cases hm
        | undone => rw [List.mem_singleton.mp hm]
  | providerCallback =>
      rcases h with rfl | ⟨_, _, -, -, hback⟩
      · cases hm
      · exact absurd hm (hworks hback.works)
  | triggerRun =>
      obtain ⟨_, -, -, hreconciled⟩ := h
      exact absurd hm (hworks hreconciled.works)
  | _ => cases h _ hm

/-- The fee that is taken back was booked for a payment that was not refused. -/
theorem undone_fee_unrefused {env : Env} {payment : Payment} {f : RevenueEvent}
    {metadata : List (String × String)}
    (hguard : (Move.undo env payment (some f) metadata).Guard view)
    (hview : ∀ what d b', view what d b' → b'.AgreesWith onRecord ∧ b'.Grows b) {row : LedgerEntry}
    (hrow : f.ledgerEntry = some row) {id : ℕ} (hsource : row.source = some (.payment id)) :
    b.Unrefused onRecord id := by
  have hundo : UndoGuard view payment (some f) := hguard
  obtain ⟨original, tenant, ⟨what, d, b', hseen, horiginal⟩, -, hclawback⟩ := hundo.fee
  rw [original_of_clawback hclawback] at horiginal
  obtain ⟨hmem, -⟩ := List.mem_filter.mp (newestEvent_mem horiginal)
  obtain ⟨hagrees, hgrows⟩ := hview what d b' hseen
  exact (hagrees.fees f hmem row hrow id hsource).grows hgrows

/-! ### The other tables -/

namespace Reporting

variable (h : Reporting onRecord ms b) (hb : b.AgreesWith onRecord)

include h hb

theorem ledger : ∀ row ∈ (Move.runAll ms b).ledger, ∀ id, row.source = some (.payment id) →
    (Move.runAll ms b).Unrefused onRecord id := by
  intro row hrow id hsource
  rcases mem_runAll_appended Move.run_ledger hrow with hold | ⟨m, hm, hnew⟩
  · exact (hb.ledger row hold id hsource).grows h.grows
  · obtain ⟨view, hguard⟩ := h.guards m hm
    cases m with
    | issue env cn currency =>
        rw [List.mem_singleton.mp hnew] at hsource
        cases hsource
    | settle s =>
        have hsettle : s.Guard view := hguard
        have hown : row.source = some (.payment s.payment.id) := by
          simp only [Move.postings, List.mem_cons, List.not_mem_nil, or_false] at hnew
          rcases hnew with rfl | rfl | rfl
          · rfl
          · rfl
          · rfl
        rw [hown] at hsource
        rw [← Source.payment.inj (Option.some.inj hsource)]
        exact h.paid _ hm s.payment rfl (by rw [hsettle.successful]; rfl)
    | undo env payment fee metadata =>
        obtain ⟨f, rfl, htaken⟩ := Option.bind_eq_some_iff.mp (Option.mem_toList.mp hnew)
        obtain ⟨original, hentry, rfl⟩ := Option.map_eq_some_iff.mp htaken
        exact h.fees env payment f metadata hm original hentry id hsource
    | _ => cases hnew

theorem allocations : ∀ a ∈ (Move.runAll ms b).allocations,
    (Move.runAll ms b).Unrefused onRecord a.payment := by
  intro a ha
  rcases mem_runAll_appended Move.run_allocations ha with hold | ⟨m, hm, hnew⟩
  · exact (hb.allocations a hold).grows h.grows
  · obtain ⟨view, hguard⟩ := h.guards m hm
    cases m with
    | settle s =>
        have hsettle : s.Guard view := hguard
        obtain ⟨bill, -, rfl⟩ := Option.map_eq_some_iff.mp (Option.mem_toList.mp hnew)
        exact h.paid _ hm s.payment rfl (by rw [hsettle.successful]; rfl)
    | _ => cases hnew

theorem receipts : ∀ row ∈ (Move.runAll ms b).receipts,
    (Move.runAll ms b).Unrefused onRecord row.payment := by
  intro row hrow
  rcases mem_runAll_appended Move.run_receipts hrow with hold | ⟨m, hm, hnew⟩
  · exact (hb.receipts row hold).grows h.grows
  · obtain ⟨view, hguard⟩ := h.guards m hm
    cases m with
    | settle s =>
        have hsettle : s.Guard view := hguard
        obtain ⟨hpayment, -⟩ := hsettle.receipts.inserted row (Option.mem_toList.mp hnew)
        rw [hpayment]
        exact h.paid _ hm s.payment rfl (by rw [hsettle.successful]; rfl)
    | _ => cases hnew

/-- An event with an amount, or the row that it posted, is about a payment that was not refused. -/
theorem revenue : ∀ e ∈ (Move.runAll ms b).revenue,
    (∀ id, e.source = .payment id → e.amount.cents ≠ 0 →
      (Move.runAll ms b).Unrefused onRecord id) ∧
    ∀ row, e.ledgerEntry = some row → ∀ id, row.source = some (.payment id) →
      (Move.runAll ms b).Unrefused onRecord id := by
  intro e he
  rcases mem_runAll_appended Move.run_revenue he with hold | ⟨m, hm, hnew⟩
  · constructor
    · exact fun id hsource hamount => (hb.revenue e hold id hsource hamount).grows h.grows
    · exact fun row hrow id hsource => (hb.fees e hold row hrow id hsource).grows h.grows
  · obtain ⟨view, hguard⟩ := h.guards m hm
    cases m with
    | issue env cn currency =>
        rw [List.mem_singleton.mp hnew]
        constructor
        · intro id hsource
          cases hsource
        · intro row hrow id hsource
          rw [← Option.some.inj hrow] at hsource
          cases hsource
    | note event =>
        obtain ⟨hzero, hnone, -⟩ := hguard
        rw [List.mem_singleton.mp hnew]
        constructor
        · intro id _ hamount
          rw [hzero] at hamount
          exact absurd rfl hamount
        · intro row hrow
          rw [hnone] at hrow
          cases hrow
    | settle s =>
        have hsettle : s.Guard view := hguard
        have hpaid := h.paid _ hm s.payment rfl (by rw [hsettle.successful]; rfl)
        rw [List.mem_singleton.mp hnew]
        constructor
        · intro id hsource _
          rw [← Source.payment.inj hsource]
          exact hpaid
        · intro row hrow id hsource
          rw [← Option.some.inj hrow] at hsource
          rw [← Source.payment.inj (Option.some.inj hsource)]
          exact hpaid
    | undo env payment fee metadata =>
        have hundo : UndoGuard view payment fee := hguard
        have hsettled : payment.status.settled = true := by
          rcases hundo.status with hstatus | hstatus
          · rw [hstatus]
            rfl
          · rw [hstatus]
            rfl
        rw [List.mem_singleton.mp hnew]
        constructor
        · intro id hsource _
          rw [← Source.payment.inj hsource]
          exact h.paid _ hm payment rfl hsettled
        · intro row hrow id hsource
          obtain ⟨f, rfl, htaken⟩ := Option.bind_eq_some_iff.mp hrow
          obtain ⟨original, hentry, rfl⟩ := Option.map_eq_some_iff.mp htaken
          exact h.fees env payment f metadata hm original hentry id hsource
    | _ => cases hnew

theorem agreesWith : (Move.runAll ms b).AgreesWith onRecord where
  payments := h.payments
  ledger := h.ledger hb
  allocations := h.allocations hb
  receipts := h.receipts hb
  revenue e he := (h.revenue hb e he).1
  fees e he := (h.revenue hb e he).2

end Reporting

/-! ### The commit of a request -/

/-- A request that commits has saved a tenant, or its moves apply. -/
theorem leaves_moved {pend : DB → DB} (hleaves : request.handler.Leaves seen (.ret ()) pend)
    (hunique : ∀ x ∈ seen, x.2.toBooks.SettlementTables) (s : DB) :
    (pend s).toBooks = s.toBooks ∨
      ∃ ms, request.action.Moves (viewOf (Read seen) id) request.env ms ∧
        (viewOf (Read seen) id).Chain ms ∧ (pend s).toBooks = Move.runAll ms s.toBooks := by
  cases hsaves : request.action.savesTenant with
  | true =>
      obtain ⟨tenant, -, hsaved⟩ := hleaves _ (Read seen) _ _ (fun _ hx => hx)
        (wp_savesTenant hsaves)
      obtain ⟨-, -, -, hbooks⟩ := hsaved s
      exact Or.inl hbooks
  | false =>
      obtain ⟨ms, hmoves, heffect⟩ := hleaves _ (Read seen) _ _ (fun _ hx => hx)
        (wp_handler request hsaves fun _ _ hv => (hunique _ hv).payments)
      exact Or.inr ⟨ms, hmoves, heffect.chain, congrArg Prod.snd (heffect.writes s)⟩

/-- The moves of a commit report what the providers have on record. -/
theorem reporting (hmoves : request.action.Moves (viewOf (Read seen) id) request.env ms)
    (hchain : (viewOf (Read seen) id).Chain ms)
    (hgrows : s.toBooks.Grows (Move.runAll ms s.toBooks))
    (hanswered : request.AnsweredFrom onRecord) (hkeys : (s.payments.map (·.id)).Nodup)
    (hafter : ((Move.runAll ms s.toBooks).payments.map (·.id)).Nodup)
    (hs : s.toBooks.AgreesWith onRecord)
    (hread : ∀ x ∈ seen, x.2.toBooks.AgreesWith onRecord ∧ Proceeds onRecord x.2 s) :
    Reporting onRecord ms s.toBooks := by
  have hview := informed_of_read hkeys hread
  have hguards : ∀ m ∈ ms, ∃ view : View, m.Guard view := fun m hm => hchain.guard hm
  have hthere : ∀ p : Payment, (viewOf (Read seen) id).Holds p →
      ∃ row ∈ s.payments, row.fixed = p.fixed := by
    rintro p ⟨what, -, d, _, ⟨v, hv, rfl, rfl⟩, hp⟩
    exact (hread _ hv).2.grows.payments.mem hp
  have hfees : ∀ env p f metadata, .undo env p (some f) metadata ∈ ms → ∀ row,
      f.ledgerEntry = some row → ∀ id, row.source = some (.payment id) →
      (Move.runAll ms s.toBooks).Unrefused onRecord id := by
    intro env p f metadata hm row hrow id hsource
    rw [hmoves.undo_alone hm] at hchain
    obtain ⟨hguard, -⟩ := hchain
    refine (undone_fee_unrefused hguard ?_ hrow hsource).grows hgrows
    rintro what d _ ⟨v, hv, rfl, rfl⟩
    exact ⟨(hread _ hv).1, (hread _ hv).2.grows⟩
  rcases hmoves.reports hchain hanswered hview with ⟨payment, rest, hopens⟩ | hreports
  · have hothers : ∀ row ∈ s.payments, row.after rest = row := fun row hrow =>
      hopens.others row (hopens.fresh hafter row hrow)
    refine ⟨hgrows, hguards, fun p hp => ?_, fun p hp _ hsettled => ?_, hopens.paid _, hfees⟩
    · rw [hopens.payments] at hp
      obtain ⟨row, hrow, rfl⟩ := List.mem_map.mp hp
      rcases List.mem_append.mp hrow with hrow | hrow
      · rw [hothers row hrow]
        exact hs.payments row hrow
      · rw [List.mem_singleton.mp hrow]
        exact hopens.agrees
    · refine ⟨p, ?_, rfl, hsettled⟩
      rw [hopens.payments]
      exact List.mem_map.mpr ⟨p, List.mem_append_left _ hp, hothers p hp⟩
  · have hkeeps := hchain.keeps hview.stands hreports.opens hreports.faithful
    have hrows := runAll_payments (b := s.toBooks) hreports.opens
    refine ⟨hgrows, hguards, fun p hp => ?_, fun p hp hrecord hsettled => ?_,
      fun m hm p hp hsettled => ?_, hfees⟩
    · rw [hrows] at hp
      obtain ⟨row, hrow, rfl⟩ := List.mem_map.mp hp
      exact Payment.after_agreesWith hkeeps hreports.learnt hrow (reference_eq hkeys hrow)
        (hs.payments row hrow)
    · refine ⟨p.after ms, ?_, p.after_fixed ms, ?_⟩
      · rw [hrows]
        exact List.mem_map_of_mem hp
      · rw [reference_eq hkeys hp] at hrecord
        exact Payment.after_settled hkeeps hrecord hsettled
    · exact (hreports.paid hchain hview hthere m hm p hp hsettled).grows hgrows

theorem CommitOf.agrees {D : Discipline DB Resource} {requests : List Request} {i : ℕ}
    (h : CommitOf D requests i seen s t)
    (hanswered : ∀ request ∈ requests, request.AnsweredFrom onRecord)
    (hs : s.toBooks.AgreesWith onRecord)
    (hread : ∀ x ∈ seen, x.2.toBooks.AgreesWith onRecord ∧ Proceeds onRecord x.2 s) :
    t.toBooks.AgreesWith onRecord ∧ Proceeds onRecord s t := by
  obtain ⟨request, pend, hget, hleaves, rfl⟩ := h.ran
  obtain ⟨request', -, hcommits⟩ := h.commits
  rcases leaves_moved hleaves (fun x hx => (h.read x hx).1) s with
    hsame | ⟨ms, hmoves, hchain, hbooks⟩
  · rw [hsame]
    refine ⟨hs, hcommits.grows, fun p hp _ hsettled => ⟨p, ?_, rfl, hsettled⟩⟩
    have hpayments : (pend s).payments = s.payments := congrArg Books.payments hsame
    rw [hpayments]
    exact hp
  · have hgrows := hcommits.grows
    have hafter := h.after.payments
    rw [hbooks] at hgrows hafter
    have hreporting :=
      reporting hmoves hchain hgrows (hanswered request (List.mem_of_getElem? hget))
      h.before.payments hafter hs hread
    rw [hbooks]
    refine ⟨hreporting.agreesWith hs, hcommits.grows, fun p hp hrecord hsettled => ?_⟩
    have hpayments : (pend s).payments = (Move.runAll ms s.toBooks).payments :=
      congrArg Books.payments hbooks
    rw [hpayments]
    exact hreporting.settled p hp hrecord hsettled

end Commits

/-! ## Every schedule -/

/-- Along every schedule each commit finds tables that agree with the records, and has read such. -/
theorem run_agreeing (requests : List Request) {start : DB} {onRecord : String → ProviderOutcome}
    (hstart : start.toBooks.SettlementTables) (hagrees : start.toBooks.AgreesWith onRecord)
    (hanswered : ∀ request ∈ requests, request.AnsweredFrom onRecord) (schedule : List Event) :
    Recorded (fun i (_ : Unit) seen s t => (CommitOf .free requests i seen s t ∧
        s.toBooks.AgreesWith onRecord ∧
        ∀ x ∈ seen, x.2.toBooks.AgreesWith onRecord ∧ Proceeds onRecord x.2 s)) start
      ((Config.start start (requests.map Request.handler)).commitOrder schedule)
      ((Config.start start (requests.map Request.handler)).run schedule).past
      ((Config.start start (requests.map Request.handler)).run schedule).store ∧
    (∀ s ∈ ((Config.start start (requests.map Request.handler)).run schedule).history,
      s.toBooks.AgreesWith onRecord) ∧
    ((Config.start start (requests.map Request.handler)).run schedule).history.IsChain
      (Proceeds onRecord) := by
  obtain ⟨hrun, -⟩ := run_requests requests hstart schedule
  have hcommit : ∀ i (a : Unit) seen (s t : DB), CommitOf .free requests i seen s t →
      s.toBooks.AgreesWith onRecord →
      (∀ x ∈ seen, x.2.toBooks.AgreesWith onRecord ∧ Proceeds onRecord x.2 s) →
      t.toBooks.AgreesWith onRecord ∧ Proceeds onRecord s t :=
    fun _ _ _ _ _ h hs hread => h.agrees hanswered hs hread
  have htrans : ∀ s t u : DB, Proceeds onRecord s t → Proceeds onRecord t u →
      Proceeds onRecord s u := fun _ _ _ h h' => h.trans h'
  obtain ⟨hinvariant, hchain⟩ :=
    hrun.invariant (J := fun s => s.toBooks.AgreesWith onRecord) hagrees
    proceeds_refl htrans hcommit
  refine ⟨?_, fun s hs => (hinvariant s hs).1, hchain⟩
  exact hrun.strengthen (J := fun s => s.toBooks.AgreesWith onRecord) hagrees proceeds_refl htrans
    hcommit

/-- However requests interleave, and whatever answers are lost or callbacks report, in every
committed state the payments agree with what their providers have on record, and money is booked
only for payments that were not refused. -/
theorem payments_agree_with_providers (requests : List Request) (start : DB)
    (onRecord : String → ProviderOutcome) (hstart : start.toBooks.SettlementTables)
    (hagrees : start.toBooks.AgreesWith onRecord)
    (hanswered : ∀ request ∈ requests, request.AnsweredFrom onRecord) (schedule : List Event) :
    ∀ s ∈ ((Config.start start (requests.map Request.handler)).run schedule).history,
      s.toBooks.AgreesWith onRecord :=
  (run_agreeing requests hstart hagrees hanswered schedule).2.1

/-! ## Reconciliation -/

/-- The providers know each success on record by the time of the request. -/
def Request.Heard (onRecord : String → ProviderOutcome) (request : Request) : Prop :=
  ∀ code adapter reference result, request.env.registry code = some adapter →
    adapter.queryPayment reference = .ok result → onRecord reference = .successful →
    result.outcome = .successful

/-- A mock provider that has a transaction for each success on record is heard. -/
theorem Sandbox.heard {sandbox : Sandbox} {request : Request} {onRecord : String → ProviderOutcome}
    (hregistry : request.env.registry = sandbox.registry)
    (hkept : ∀ row ∈ sandbox.transactions, row.outcome = onRecord row.merchantReference)
    (hknown : ∀ reference, onRecord reference = .successful →
      ∃ row ∈ sandbox.transactions, row.merchantReference = reference) :
    request.Heard onRecord := by
  intro code adapter reference result h hanswer hrecord
  rw [hregistry, Sandbox.registry] at h
  split at h
  · obtain rfl := Option.some.inj h
    change sandbox.queryPayment reference = .ok result at hanswer
    unfold Sandbox.queryPayment at hanswer
    split at hanswer
    · next hnone =>
        obtain ⟨row, hrow, hreference⟩ := hknown reference hrecord
        exact absurd (decide_eq_true hreference) (List.find?_eq_none.mp hnone row hrow)
    · next row hfound =>
        obtain rfl := Except.ok.inj hanswer
        have hreference : row.merchantReference = reference :=
          of_decide_eq_true (List.find?_some hfound :)
        rw [← hrecord, ← hreference]
        exact hkept row (List.mem_of_find?_eq_some hfound)
  · cases h

theorem Learned.status_eq {payment object : Payment} {reference : String} {refs : List Move}
    (h : Learned payment reference refs object) : object.status = payment.status := by
  cases h with
  | known | learned => rfl

section Heard

variable {onRecord : String → ProviderOutcome} {view : View} {env : Env} {ms : List Move}
variable {request : Request} {s t : DB} {seen : List (Resource × DB)}

/-- A run settles each success on record that it queries. -/
theorem Reconciled.settles {payments : List Payment}
    (h : Reconciled view request.env payments ms) (hheard : request.Heard onRecord) {p : Payment}
    (hp : p ∈ payments) (hunknown : p.status = .unknown)
    (hrecord : onRecord p.merchantReference = .successful) :
    ∃ s, .settle s ∈ ms ∧ s.payment.id = p.id := by
  induction h with
  | nil => cases hp
  | @cons payment after payments adapter result ms ms' serves answer queried _ ih =>
      rcases List.mem_cons.mp hp with rfl | hp
      · obtain ⟨provider, -, hregistered⟩ := serves
        have hreported := hheard _ _ _ _ hregistered answer hrecord
        obtain ⟨hlearned, happlied⟩ := queried
        have hid := hlearned.id_eq
        have hstatus := hlearned.status_eq
        rw [hreported] at happlied
        cases happlied with
        | inconclusive h _ | unknown h _ => cases h
        | repeated hsame =>
            rw [hstatus, hunknown] at hsame
            cases hsame
        | pending h | failed h => cases h
        | successful _ s _ hpayment =>
            refine ⟨s, List.mem_append_left _ (List.mem_append_right _
              (List.mem_singleton.mpr rfl)), ?_⟩
            rw [hpayment]
            exact hid
      · obtain ⟨s, hs, hid⟩ := ih hp
        exact ⟨s, List.mem_append_right _ hs, hid⟩

/-- What the commit of a reconciliation run leaves settled: each success on record that was there
whenever the run looked. -/
def RunSettles (onRecord : String → ProviderOutcome) (tenant : ℕ) (seen : List (Resource × DB))
    (t : DB) : Prop :=
  ∀ id reference, onRecord reference = .successful →
    (∀ x ∈ seen, ∃ p ∈ x.2.payments, p.id = id ∧ p.tenant = tenant ∧
      p.merchantReference = reference) →
    ∃ q ∈ t.payments, q.id = id ∧ q.status.settled = true

theorem CommitOf.runSettles {D : Discipline DB Resource} {requests : List Request} {i : ℕ}
    {tenant : ℕ} (h : CommitOf D requests i seen s t)
    (hrequest : requests[i]? = some request) (haction : request.action = .triggerRun tenant)
    (hheard : request.Heard onRecord)
    (hanswered : ∀ request ∈ requests, request.AnsweredFrom onRecord)
    (hs : s.toBooks.AgreesWith onRecord)
    (hread : ∀ x ∈ seen, x.2.toBooks.AgreesWith onRecord ∧ Proceeds onRecord x.2 s) :
    RunSettles onRecord tenant seen t := by
  have hproceeds := (h.agrees hanswered hs hread).2
  obtain ⟨r, pend, hget, hleaves, rfl⟩ := h.ran
  obtain rfl := Option.some.inj (hrequest.symm.trans hget)
  have hhandler : request.handler = triggerRun request.env tenant := by
    rw [Request.handler, haction]
  rw [hhandler] at hleaves
  obtain ⟨v, ms, hv, hreconciled, heffect⟩ : ∃ v ms, Read seen (.paymentsOf tenant) v ∧
      Reconciled (viewOf (Read seen) id) request.env (newestFirst (v.payments.filter fun p =>
        p.tenant = tenant && p.status = .unknown)) ms ∧ Effect (Read seen) id ms pend := by
    refine hleaves (fun _ => True) (Read seen) (fun _ pend' => ∃ v ms,
      Read seen (.paymentsOf tenant) v ∧ Reconciled (viewOf (Read seen) id) request.env
        (newestFirst (v.payments.filter fun p => p.tenant = tenant && p.status = .unknown)) ms ∧
      Effect (Read seen) id ms pend') (fun _ _ => True) (fun _ hx => hx) ?_
    simp only [triggerRun, Txn.wp_bind, Txn.pure_eq_ret, Txn.wp_ret]
    exact wp_runReconciliation_queried (fun _ _ hv => (h.read _ hv).1.payments)
      (fun _ => trivial) (fun _ => trivial) (fun _ _ => trivial) fun _ v ms p hv hms heffect =>
        ⟨v, ms, hv, hms, heffect⟩
  intro id reference hrecord hthere
  obtain ⟨p, hp, rfl, htenant, rfl⟩ := hthere _ hv
  obtain ⟨hagrees, hsince⟩ := hread _ hv
  have hstatus := (hagrees.payments p hp).status
  rw [hrecord] at hstatus
  rcases hstatus with hsettled | hunknown
  · obtain ⟨q, hq, hfixed, hsettled'⟩ := (hsince.trans hproceeds).settled p hp hrecord hsettled
    exact ⟨q, hq, congrArg Payment.Fixed.id hfixed, hsettled'⟩
  · have hqueried : p ∈ newestFirst (v.payments.filter fun p =>
        p.tenant = tenant && p.status = .unknown) :=
      mem_newestFirst.mpr (List.mem_filter.mpr ⟨hp, by simp [htenant, hunknown]⟩)
    obtain ⟨settlement, hsettle, hid⟩ := hreconciled.settles hheard hqueried hunknown hrecord
    have hview := informed_of_read h.before.payments hread
    have hknown : ∀ p ∈ v.payments, p.merchantReference = s.toBooks.reference p.id :=
      fun p hp => (hview.agrees _ _ _ ⟨v, hv, rfl, rfl⟩ p hp).1
    have hanswers : Faithful onRecord s.toBooks.reference ms ∧
        Learnt onRecord s.toBooks.reference s.toBooks ms := by
      refine hreconciled.answered (hanswered request (List.mem_of_getElem? hget)) ?_ ?_
      · exact fun p hp => hknown p (List.mem_filter.mp (mem_newestFirst.mp hp)).1
      · intro p hp
        have hfilter := (List.mem_filter.mp (mem_newestFirst.mp hp)).2
        simp only [Bool.and_eq_true, decide_eq_true_eq] at hfilter
        exact hfilter.2
    have hkeeps := heffect.chain.keeps hview.stands hreconciled.opened hanswers.1
    obtain ⟨row, hrow, hfixed⟩ := hsince.grows.payments.mem hp
    have hrowid : row.id = p.id := congrArg Payment.Fixed.id hfixed
    have hrowrecord : onRecord (s.toBooks.reference row.id) = .successful := by
      rw [hrowid, ← hknown p hp]
      exact hrecord
    have hbooks : (pend s).payments = s.payments.map (·.after ms) :=
      (congrArg (fun core : Directory × Books => core.2.payments) (heffect.writes s)).trans
        (runAll_payments hreconciled.opened)
    refine ⟨row.after ms, ?_, (row.after_id ms).trans hrowid, ?_⟩
    · rw [hbooks]
      exact List.mem_map_of_mem hrow
    · exact Payment.after_settle hkeeps hrowrecord hsettle (hrowid.trans hid.symm)

end Heard

/-- However requests interleave, a reconciliation run that commits leaves each success on record
settled that was there whenever it looked, and no later commit takes that back. -/
theorem reconciliation_settles (requests : List Request) (start : DB)
    (onRecord : String → ProviderOutcome) (hstart : start.toBooks.SettlementTables)
    (hagrees : start.toBooks.AgreesWith onRecord)
    (hanswered : ∀ request ∈ requests, request.AnsweredFrom onRecord) (schedule : List Event) :
    Recorded (fun i (_ : Unit) seen _ t => ∀ request tenant, requests[i]? = some request →
        request.action = .triggerRun tenant → request.Heard onRecord →
        RunSettles onRecord tenant seen t) start
      ((Config.start start (requests.map Request.handler)).commitOrder schedule)
      ((Config.start start (requests.map Request.handler)).run schedule).past
      ((Config.start start (requests.map Request.handler)).run schedule).store ∧
    ((Config.start start (requests.map Request.handler)).run schedule).history.IsChain
      (Proceeds onRecord) := by
  obtain ⟨hrecorded, -, hchain⟩ := run_agreeing requests hstart hagrees hanswered schedule
  refine ⟨hrecorded.mono fun i _ seen s t h request tenant hrequest haction hheard => ?_, hchain⟩
  obtain ⟨hcommit, hs, hread⟩ := h
  exact hcommit.runSettles hrequest haction hheard hanswered hs hread

/-! ## A lost answer -/

/-- The `n`-th request, and the mock provider with the transactions that it finds. -/
def sandboxAt (n : ℕ) (transactions : List MockProviderTransaction) (action : Action) :
    Request where
  env :=
    { envAt n (answering .unknown "" "") with
      registry := Sandbox.registry
        { setting :=
            { callbackSecret := "mock-provider-callback-secret".toList
              float? := fun _ => none
              str := fun _ => []
              decodeError := fun _ => "" }
          transactions
          hex := toString n } }
  action

/-- A success whose answer was lost, and a failure. -/
def lostAndRefused : List MockProviderTransaction :=
  [⟨"2", "MOCK-2", .successful⟩, ⟨"3", "MOCK-3", .failed⟩]

def lostOrRefused (reference : String) : ProviderOutcome :=
  if reference = "2" then .successful else if reference = "3" then .failed else .pending

/-- Two payments are initiated next to each other; then a reconciliation run meets a query. -/
def lostAnswer : List Request :=
  let pay := fun amount outcome => Action.paymentListCreate 1 "1" "mock" none (amountOf amount)
    "0700" "" [("mock_outcome", outcome)]
  [sandboxAt 2 [] (pay 4000 "timeout"), sandboxAt 3 [] (pay 5000 "failed"),
    sandboxAt 4 lostAndRefused (.triggerRun 1), sandboxAt 5 lostAndRefused (.paymentQuery 1 2)]

def lostInTurns : List Event :=
  (List.replicate 60 [Event.advance 0, .advance 1]).flatten ++
    (List.replicate 80 [Event.advance 2, .advance 3]).flatten

theorem lostAndRefused_kept :
    ∀ row ∈ lostAndRefused, row.outcome = lostOrRefused row.merchantReference := by
  decide

theorem lostAnswer_answeredFrom : ∀ request ∈ lostAnswer, request.AnsweredFrom lostOrRefused := by
  have hnone : ∀ row ∈ ([] : List MockProviderTransaction),
      row.outcome = lostOrRefused row.merchantReference := by decide
  intro request hrequest
  simp only [lostAnswer, List.mem_cons, List.not_mem_nil, or_false] at hrequest
  rcases hrequest with rfl | rfl | rfl | rfl
  · refine Sandbox.answeredFrom rfl hnone (fun metadata hmetadata => ?_) fun _ _ _ h => by cases h
    obtain rfl := Option.some.inj hmetadata
    decide +kernel
  · refine Sandbox.answeredFrom rfl hnone (fun metadata hmetadata => ?_) fun _ _ _ h => by cases h
    obtain rfl := Option.some.inj hmetadata
    decide +kernel
  · exact Sandbox.answeredFrom rfl lostAndRefused_kept (fun _ h => by cases h) fun _ _ _ h =>
      by cases h
  · exact Sandbox.answeredFrom rfl lostAndRefused_kept (fun _ h => by cases h) fun _ _ _ h =>
      by cases h

theorem numberedInstallation_agreesWith :
    numberedInstallation.toBooks.AgreesWith lostOrRefused where
  payments _ hp := absurd hp List.not_mem_nil
  ledger _ hrow := absurd hrow List.not_mem_nil
  allocations _ ha := absurd ha List.not_mem_nil
  receipts _ hrow := absurd hrow List.not_mem_nil
  revenue _ he := absurd he List.not_mem_nil
  fees _ he := absurd he List.not_mem_nil

theorem payments_agree_with_providers_lostAnswer :
    let c := (Config.start numberedInstallation (lostAnswer.map Request.handler)).run lostInTurns
    c.store.toBooks.AgreesWith lostOrRefused :=
  payments_agree_with_providers lostAnswer numberedInstallation lostOrRefused
    numberedInstallation_settlementTables numberedInstallation_agreesWith lostAnswer_answeredFrom
    lostInTurns _ (Config.store_mem_history _)

theorem lostAnswer_heard (action : Action) (n : ℕ) :
    (sandboxAt n lostAndRefused action).Heard lostOrRefused := by
  refine Sandbox.heard rfl lostAndRefused_kept fun reference h => ?_
  refine ⟨⟨"2", "MOCK-2", .successful⟩, List.mem_cons_self, ?_⟩
  unfold lostOrRefused at h
  split at h
  · next hreference => exact hreference.symm
  · split at h <;> cases h

theorem reconciliation_settles_lostAnswer :
    Recorded (fun i (_ : Unit) seen _ t => i = 2 → RunSettles lostOrRefused 1 seen t)
      numberedInstallation
      ((Config.start numberedInstallation (lostAnswer.map Request.handler)).commitOrder lostInTurns)
      ((Config.start numberedInstallation (lostAnswer.map Request.handler)).run lostInTurns).past
      ((Config.start numberedInstallation
        (lostAnswer.map Request.handler)).run lostInTurns).store :=
  (reconciliation_settles lostAnswer numberedInstallation lostOrRefused
    numberedInstallation_settlementTables numberedInstallation_agreesWith lostAnswer_answeredFrom
    lostInTurns).1.mono fun _ _ _ _ _ h hi => by
      subst hi
      exact h _ 1 rfl rfl (lostAnswer_heard _ 4)

end Kusanya
