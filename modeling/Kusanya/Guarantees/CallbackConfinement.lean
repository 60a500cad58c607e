import Kusanya.Invariants.Confinement
import Kusanya.Moves.Completions

/-!
# Which payments a callback can touch

`process_callback` looks a payment up by the reference alone.  Its outcome is applied to
the newest payment that carries the reference, whatever its provider, and a blank
reference finds the payments that have none yet.  So a verified callback stays within
its own payments exactly as long as that lookup finds one of them, or nothing; and an event
that matches nothing must be one that can be recorded.
-/

namespace Kusanya

open ReadCommitted

/-! ## Deliveries -/

/-- The payment is one of the provider's and carries the reference, which is not blank. -/
def Payment.Named (p : Payment) (provider : ℕ) (reference : String) : Prop :=
  p.provider = provider ∧ p.providerReference = reference ∧ reference ≠ ""

instance (p : Payment) (provider : ℕ) (reference : String) :
    Decidable (p.Named provider reference) :=
  inferInstanceAs (Decidable (_ ∧ _ ∧ _))

/-- The adapter of the provider behind `code` accepts the signature and reads `parsed`. -/
structure Verified (env : Env) (db : DB) (code : String) (inbound : InboundCallback)
    (provider : PaymentProvider) (parsed : ProviderCallbackResult) : Prop where
  found : db.providers.find? (·.code = code) = some provider
  reads : ∃ adapter, env.registry provider.code = some adapter ∧
    adapter.processCallback inbound = .ok parsed

/-- Only a payment that the callback names may change; where it names none, none changes and
the event is recorded `UNMATCHED`, unless its key was recorded before. -/
structure Confinement (s t : Books) (provider : ℕ) (parsed : ProviderCallbackResult) : Prop where
  confined : Confined s t fun p => p.Named provider parsed.providerReference
  unmatched : (∀ p ∈ s.payments, ¬p.Named provider parsed.providerReference) →
    t.payments = s.payments ∧ (s.knowsEvent provider parsed.externalEventId = false →
      ∃ event, t.callbackEvents = s.callbackEvents ++ [event] ∧ event.provider = provider ∧
        event.externalEventId = parsed.externalEventId ∧ event.outcome = .unmatched)

/-- The outcome asks for another status than the payment has. -/
def PaymentStatus.moves (s : PaymentStatus) (outcome : ProviderOutcome) : Bool :=
  match outcome.toStatus? with
  | none => s = .initiated || s = .pending
  | some target => target != s

/-- The status that an outcome reports. -/
def ProviderOutcome.reported : ProviderOutcome → PaymentStatus
  | successful => .successful
  | failed => .failed
  | pending => .pending
  | unknown => .unknown

/-- The status is the one reported or may become it. -/
def PaymentStatus.Accepts (status : PaymentStatus) (outcome : ProviderOutcome) : Prop :=
  status = outcome.reported ∨ outcome.reported ∈ status.allowedTransitions

instance (status : PaymentStatus) (outcome : ProviderOutcome) :
    Decidable (status.Accepts outcome) :=
  inferInstanceAs (Decidable (_ ∨ _))

/-- The key was recorded before; or the lookup by reference finds nothing, and the event can be
recorded so; or it finds a payment that the callback names; or another one next to it, which is
left as it is or makes the request raise. -/
def LooksUpNamed (env : Env) (s : DB) (provider : ℕ) (parsed : ProviderCallbackResult) : Prop :=
  s.knowsEvent provider parsed.externalEventId = true ∨
    match s.matchReference parsed.providerReference with
    | none => FirstDelivery env s.toBooks provider parsed ∧ env.Auditable
    | some p => p.Named provider parsed.providerReference ∨
        (∃ q ∈ s.payments, q.Named provider parsed.providerReference) ∧
          ¬(FirstDelivery env s.toBooks provider parsed ∧
            p.status.moves parsed.outcome = true ∧ Applies env s p {} parsed.outcome)

section Deliveries

variable {env : Env} {code : String} {inbound : InboundCallback} {provider : PaymentProvider}
variable {parsed : ProviderCallbackResult} {s t : DB}

theorem providerCallback_exec (h : Verified env s code inbound provider parsed) :
    (providerCallback env code inbound).exec s =
      match (onParsed env provider parsed).exec s with
      | .ok (_, t) => .ok ((), t)
      | .error e => .error e := by
  obtain ⟨adapter, hadapter, hparsed⟩ := h.reads
  simp only [providerCallback, processCallback, getAdapter, Txn.exec_bind, Txn.exec_fetch,
    h.found, hadapter, hparsed, Txn.pure_eq_ret, Txn.exec_ret]
  cases (onParsed env provider parsed).exec s <;> rfl

/-- A delivery that completes is a duplicate, is left unmatched, or has its outcome applied to the
payment that the lookup found. -/
theorem delivery_cases {event : PaymentCallbackEvent}
    (h : (onParsed env provider parsed).exec s = .ok (event, t)) :
    (¬FirstDelivery env s.toBooks provider.id parsed ∧
        (onDuplicate env provider parsed).exec s = .ok (event, t)) ∨
      FirstDelivery env s.toBooks provider.id parsed ∧
        ((s.matchReference parsed.providerReference = none ∧ env.Auditable ∧
            t.toBooks = s.toBooks.leaveUnmatched
              (parsed.newEvent (env.gen.callbackEventId 0) provider.id)) ∨
          ∃ p after, s.matchReference parsed.providerReference = some p ∧
            (applyOutcome env p {} parsed.outcome).exec (inBooks (·.linkEvent
              (parsed.newEvent (env.gen.callbackEventId 0) provider.id) p.id) s) =
                .ok (after, t)) := by
  have hdelivered := h
  rw [onParsed_exec] at h
  by_cases hfits : parsed.Fits
  swap
  · rw [if_neg hfits] at h
    cases h
  rw [if_pos hfits] at h
  by_cases hfree : s.FreshEvent (env.gen.callbackEventId 0) ∧
      s.knowsEvent provider.id parsed.externalEventId = false
  swap
  · rw [if_neg hfree] at h
    exact Or.inl ⟨fun hfirst => hfree ⟨hfirst.fresh, hfirst.unknown⟩, h⟩
  rw [if_pos hfree] at h
  obtain ⟨hreference, haudited⟩ := onFirstDelivery_ok h
  refine Or.inr ⟨⟨hfits, hfree.2, hfree.1, hreference⟩, ?_⟩
  generalize parsed.newEvent (env.gen.callbackEventId 0) provider.id = new at *
  cases hmatch : s.matchReference parsed.providerReference with
  | none =>
      have hauditable := haudited hmatch
      obtain ⟨u, hexec, hcore⟩ : ∃ u, (onFirstDelivery env new parsed).exec _ = _ ∧ _ :=
        onFirstDelivery_unmatched hauditable hreference hmatch
      rw [hexec] at h
      obtain ⟨-, rfl⟩ := Prod.mk.inj (Except.ok.inj h)
      exact Or.inl ⟨rfl, hauditable, congrArg Prod.snd hcore⟩
  | some p =>
      rw [onFirstDelivery_matched hreference hmatch] at h
      cases happly : (applyOutcome env p {} parsed.outcome).exec
          (inBooks (·.linkEvent new p.id) s) with
      | error e =>
          rw [happly] at h
          cases h
      | ok r =>
          obtain ⟨after, u⟩ := r
          rw [happly] at h
          obtain ⟨-, rfl⟩ := Prod.mk.inj (Except.ok.inj h)
          exact Or.inr ⟨p, after, rfl, happly⟩

/-- An outcome that asks for no other status leaves everything as it is. -/
theorem applyOutcome_stays {p : Payment} {related : Related} {outcome : ProviderOutcome}
    (hstays : p.status.moves outcome = false) :
    (applyOutcome env p related outcome).exec s = .ok (p, s) := by
  unfold PaymentStatus.moves at hstays
  unfold applyOutcome
  cases htarget : outcome.toStatus? with
  | none =>
      rw [htarget] at hstays
      simp only [Bool.or_eq_false_iff, decide_eq_false_iff_not] at hstays
      simp only [hstays.1, hstays.2, or_self, if_false, Txn.pure_eq_ret, Txn.exec_ret]
  | some target =>
      rw [htarget] at hstays
      have hsame : p.status = target := (bne_eq_false_iff_eq.mp hstays).symm
      simp only [hsame, if_true, Txn.pure_eq_ret, Txn.exec_ret]

/-- An outcome that asks for another status shows in the payment's row when it is applied. -/
theorem applyOutcome_moved {p after : Payment} {outcome : ProviderOutcome}
    (hmoves : p.status.moves outcome = true) (hp : p ∈ s.payments)
    (h : (applyOutcome env p {} outcome).exec s = .ok (after, t)) :
    ∃ q ∈ t.payments, q.id = p.id ∧ q.status ≠ p.status := by
  obtain ⟨ms, happlied, -, -, hbooks⟩ := applyOutcome_moves hp h
  have hentered : ∀ m ms' new, ms = m :: ms' → m.entered = some new → new.id = p.id →
      new.status ≠ p.status → (∀ m' ∈ ms', m'.entered = none) →
      ∃ q ∈ t.payments, q.id = p.id ∧ q.status ≠ p.status := by
    rintro m ms' new rfl hnew hid hstatus hrest
    have hrow : m.onPayment p ∈ (m.run s.toBooks).payments := by
      rw [Move.run_payments]
      exact List.mem_append_left _ (List.mem_map_of_mem hp)
    obtain ⟨q, hq, hqid, hqstatus⟩ := runAll_status_kept hrow hrest
    refine ⟨q, by rw [hbooks]; exact hq, hqid.trans (m.onPayment_id p), ?_⟩
    rw [hqstatus, m.onPayment_status p, hnew]
    simpa only [hid, if_true] using hstatus
  unfold PaymentStatus.moves at hmoves
  cases happlied with
  | inconclusive hnone hs => simp [hnone, hs.1, hs.2] at hmoves
  | repeated hsome => simp [hsome] at hmoves
  | unknown hnone hs =>
      refine hentered _ _ _ rfl rfl rfl ?_ (by simp)
      change PaymentStatus.unknown ≠ p.status
      rcases hs with hs | hs <;> rw [hs] <;> decide
  | pending houtcome =>
      subst houtcome
      refine hentered _ _ _ rfl rfl rfl ?_ (by simp)
      exact bne_iff_ne.mp hmoves
  | failed houtcome =>
      subst houtcome
      refine hentered _ _ _ rfl rfl rfl ?_ (by simp [Move.entered])
      exact bne_iff_ne.mp hmoves
  | successful houtcome x _ hpayment =>
      subst houtcome
      refine hentered _ _ _ rfl rfl (by rw [hpayment]; rfl) ?_ (by simp)
      rw [hpayment]
      exact bne_iff_ne.mp hmoves

/-- No outcome touches the event rows. -/
theorem Applied.callbackEvents {p after : Payment} {outcome : ProviderOutcome} {ms : List Move}
    (h : Applied env p outcome ms after) (b : Books) :
    (Move.runAll ms b).callbackEvents = b.callbackEvents := by
  cases h with
  | successful _ x =>
      have hsame : (Move.settle x).onCallback = fun row => row := rfl
      rw [Move.runAll_cons, Move.runAll_nil, Move.run_callbackEvents, hsame, List.map_id']
      exact List.append_nil _
  | _ => rfl

end Deliveries

/-! ## Confinement -/

section Confinement

variable {env : Env} {code : String} {inbound : InboundCallback} {provider : PaymentProvider}
variable {parsed : ProviderCallbackResult} {s t : DB} {event : PaymentCallbackEvent} {id : ℕ}

theorem money_leaveUnmatched (b : Books) (event : PaymentCallbackEvent) :
    (b.leaveUnmatched event).money = b.money := rfl

theorem confinement_unchanged (hknown : s.knowsEvent provider.id parsed.externalEventId = true ∨
      ∃ p ∈ s.payments, p.Named provider.id parsed.providerReference)
    (h : t.toBooks.money = s.toBooks.money) :
    Confinement s.toBooks t.toBooks provider.id parsed where
  confined := Confined.of_money h
  unmatched hnone := by
    refine ⟨congrArg Prod.fst h, fun hunknown => ?_⟩
    rcases hknown with hknown | ⟨p, hp, hnamed⟩
    · rw [hunknown] at hknown
      cases hknown
    · exact absurd hnamed (hnone p hp)

/-- An event that is left unmatched is the new row. -/
theorem confinement_unmatched (hfresh : s.FreshEvent (env.gen.callbackEventId 0))
    (hbooks : t.toBooks = s.toBooks.leaveUnmatched
      (parsed.newEvent (env.gen.callbackEventId 0) provider.id)) :
    Confinement s.toBooks t.toBooks provider.id parsed where
  confined := by
    apply Confined.of_money
    rw [hbooks, money_leaveUnmatched]
  unmatched _ := by
    rw [hbooks]
    exact ⟨rfl, fun _ => ⟨_, update_newEvent hfresh _, rfl, rfl, rfl⟩⟩

/-- Applying the outcome to a payment that the callback names is confined. -/
theorem confinement_named {p after : Payment} (hkeys : (s.payments.map (·.id)).Nodup)
    (hp : p ∈ s.payments) (hnamed : p.Named provider.id parsed.providerReference)
    (happly : (applyOutcome env p {} parsed.outcome).exec
      (inBooks (·.linkEvent event p.id) s) = .ok (after, t)) :
    Confinement s.toBooks t.toBooks provider.id parsed where
  confined := by
    have hp' : p ∈ (inBooks (·.linkEvent event p.id) s).payments := hp
    obtain ⟨ms, happlied, hchain, -, hbooks⟩ := applyOutcome_moves hp' happly
    rw [hbooks]
    have hlinked := happlied.confined hchain hkeys hp'
    have hconfined : Confined s.toBooks _ (· = p) := hlinked.congr rfl rfl rfl
    refine hconfined.mono fun q _ hq => ?_
    rw [hq]
    exact hnamed
  unmatched hnone := absurd hnamed (hnone p hp)

theorem named_matches {p : Payment} (hp : p ∈ s.payments)
    (hnamed : p.Named provider.id parsed.providerReference) :
    ∃ q, s.matchReference parsed.providerReference = some q := by
  cases hmatch : s.matchReference parsed.providerReference with
  | some q => exact ⟨q, rfl⟩
  | none =>
      have hempty := newestPayment_eq_none hmatch
      have hmem : p ∈ s.payments.filter (·.providerReference = parsed.providerReference) :=
        List.mem_filter.mpr ⟨hp, by simpa using hnamed.2.1⟩
      rw [hempty] at hmem
      cases hmem

/-- A request that raises is confined where no unmatched event is lost with it. -/
theorem confinement_raises (hlooks : LooksUpNamed env s provider.id parsed)
    (hraises : ¬Completes (onParsed env provider parsed) s) :
    Confinement s.toBooks s.toBooks provider.id parsed := by
  refine confinement_unchanged ?_ rfl
  rcases hlooks with hknown | hlooks
  · exact Or.inl hknown
  · right
    cases hmatch : s.matchReference parsed.providerReference with
    | none =>
        rw [hmatch] at hlooks
        exact absurd ((completes_unmatched env hlooks.1 hmatch).mpr hlooks.2) hraises
    | some p =>
        rw [hmatch] at hlooks
        rcases hlooks with hnamed | ⟨hnamed, -⟩
        · exact ⟨p, (matchReference_mem hmatch).1, hnamed⟩
        · exact hnamed

/-- Where the lookup finds a payment of the callback's own, or nothing, the callback is
confined. -/
theorem confinement_of_looksUpNamed (h : Reachable s)
    (hlooks : LooksUpNamed env s provider.id parsed)
    (hdelivered : (onParsed env provider parsed).exec s = .ok (event, t)) :
    Confinement s.toBooks t.toBooks provider.id parsed := by
  rcases delivery_cases hdelivered with ⟨hagain, hduplicate⟩ |
    ⟨hfirst, ⟨-, -, hbooks⟩ | ⟨p, after, hmatch, happly⟩⟩
  · obtain ⟨-, dup, noted, -, hbooks⟩ := onDuplicate_ok hduplicate
    have hmoney : t.toBooks.money = s.toBooks.money := by
      rw [hbooks]
      rfl
    rcases hlooks with hknown | hlooks
    · exact confinement_unchanged (Or.inl hknown) hmoney
    · cases hmatch : s.matchReference parsed.providerReference with
      | none =>
          rw [hmatch] at hlooks
          exact absurd hlooks.1 hagain
      | some p =>
          rw [hmatch] at hlooks
          rcases hlooks with hnamed | ⟨hnamed, -⟩
          · exact confinement_unchanged (Or.inr ⟨p, (matchReference_mem hmatch).1, hnamed⟩) hmoney
          · exact confinement_unchanged (Or.inr hnamed) hmoney
  · exact confinement_unmatched hfirst.fresh hbooks
  · have hp := (matchReference_mem hmatch).1
    have happlies := (completes_onParsed env hfirst hmatch).mp ⟨_, hdelivered⟩
    rcases hlooks with hknown | hlooks
    · rw [hfirst.unknown] at hknown
      cases hknown
    · rw [hmatch] at hlooks
      rcases hlooks with hnamed | ⟨hother, hstays⟩
      · exact confinement_named h.balanced.keyed hp hnamed happly
      · have hsame : p.status.moves parsed.outcome = false := by
          rw [← Bool.not_eq_true]
          exact fun hmoves => hstays ⟨hfirst, hmoves, happlies⟩
        refine confinement_unchanged (Or.inr hother) ?_
        rw [applyOutcome_stays hsame] at happly
        obtain ⟨-, rfl⟩ := Prod.mk.inj (Except.ok.inj happly)
        rfl

/-- With nobody named, the new row of an event that is confined is `UNMATCHED`. -/
theorem outcome_of_confinement (hconfinement : Confinement s.toBooks t.toBooks provider.id parsed)
    (hnobody : ∀ p ∈ s.payments, ¬p.Named provider.id parsed.providerReference)
    (hunknown : s.knowsEvent provider.id parsed.externalEventId = false)
    {rows : List PaymentCallbackEvent} (hrows : t.callbackEvents = s.callbackEvents ++ rows) :
    ∃ row, rows = [row] ∧ row.outcome = .unmatched := by
  obtain ⟨-, hrecorded⟩ := hconfinement.unmatched hnobody
  obtain ⟨new, hevents, -, -, houtcome⟩ := hrecorded hunknown
  rw [hrows] at hevents
  exact ⟨new, List.append_cancel_left hevents, houtcome⟩

/-- A confined delivery looked a payment of its own up, or nothing; or it applied nothing. -/
theorem looksUpNamed_of_confinement (h : Reachable s)
    (hdelivered : (onParsed env provider parsed).exec s = .ok (event, t))
    (hconfinement : Confinement s.toBooks t.toBooks provider.id parsed) :
    LooksUpNamed env s provider.id parsed := by
  cases hknown : s.knowsEvent provider.id parsed.externalEventId with
  | true => exact Or.inl hknown
  | false =>
      right
      rcases delivery_cases hdelivered with ⟨hagain, hduplicate⟩ |
        ⟨hfirst, ⟨hmatch, hauditable, -⟩ | ⟨p, after, hmatch, happly⟩⟩
      · obtain ⟨-, dup, noted, houtcome, hbooks⟩ := onDuplicate_ok hduplicate
        have hsomebody : ∃ p ∈ s.payments, p.Named provider.id parsed.providerReference := by
          by_contra hnobody
          push Not at hnobody
          obtain ⟨row, hrow, hunmatched⟩ := outcome_of_confinement hconfinement hnobody hknown
            (congrArg Books.callbackEvents hbooks)
          obtain ⟨rfl, -⟩ := List.cons.inj hrow
          rw [houtcome] at hunmatched
          cases hunmatched
        obtain ⟨q, hq, hnamed⟩ := hsomebody
        obtain ⟨p, hmatch⟩ := named_matches hq hnamed
        rw [hmatch]
        exact Or.inr ⟨⟨q, hq, hnamed⟩, fun h => hagain h.1⟩
      · rw [hmatch]
        exact ⟨hfirst, hauditable⟩
      · rw [hmatch]
        have hp := (matchReference_mem hmatch).1
        generalize hnew : parsed.newEvent (env.gen.callbackEventId 0) provider.id = new at happly
        have hp' : p ∈ (inBooks (·.linkEvent new p.id) s).payments := hp
        by_cases hnamed : p.Named provider.id parsed.providerReference
        · exact Or.inl hnamed
        · refine Or.inr ⟨?_, ?_⟩
          · by_contra hnobody
            push Not at hnobody
            obtain ⟨ms, happlied, -, -, hbooks⟩ := applyOutcome_moves hp' happly
            have hfresh : s.FreshEvent new.id := by
              rw [← hnew]
              exact hfirst.fresh
            have hrows : t.callbackEvents =
                s.callbackEvents ++ [{ new with payment := some p.id }] := by
              rw [hbooks, happlied.callbackEvents]
              exact update_newEvent hfresh _
            obtain ⟨row, hrow, hunmatched⟩ :=
              outcome_of_confinement hconfinement hnobody hknown hrows
            obtain ⟨rfl, -⟩ := List.cons.inj hrow
            rw [← hnew] at hunmatched
            cases hunmatched
          · rintro ⟨-, hmoves, -⟩
            obtain ⟨q, hq, hid, hstatus⟩ := applyOutcome_moved hmoves hp' happly
            obtain ⟨old, hold, hrow⟩ :=
              Support.exists_of_forall₂ hconfinement.confined.payments hq
            have hkeys := h.balanced.keyed
            rcases hrow with rfl | ⟨hsame, holdnamed⟩
            · exact hstatus (congrArg Payment.status (Support.eq_of_key hkeys hold hp hid))
            · rw [Support.eq_of_key hkeys hold hp (hsame.symm.trans hid)] at holdnamed
              exact hnamed holdnamed

/-- A request that raises and is confined has lost no unmatched event. -/
theorem looksUpNamed_of_raises (hraises : ¬Completes (onParsed env provider parsed) s)
    (hconfinement : Confinement s.toBooks s.toBooks provider.id parsed) :
    LooksUpNamed env s provider.id parsed := by
  cases hknown : s.knowsEvent provider.id parsed.externalEventId with
  | true => exact Or.inl hknown
  | false =>
      have hsomebody : ∃ p ∈ s.payments, p.Named provider.id parsed.providerReference := by
        by_contra hnobody
        push Not at hnobody
        obtain ⟨row, hrow, -⟩ := outcome_of_confinement hconfinement hnobody hknown
          (List.append_nil _).symm
        cases hrow
      obtain ⟨q, hq, hnamed⟩ := hsomebody
      obtain ⟨p, hmatch⟩ := named_matches hq hnamed
      right
      rw [hmatch]
      refine Or.inr ⟨⟨q, hq, hnamed⟩, ?_⟩
      rintro ⟨hfirst, -, happlies⟩
      exact hraises ((completes_onParsed env hfirst hmatch).mpr happlies)

/-- A verified callback stays within the payments that it names if and only if the lookup by
reference finds one of them, or nothing, or a payment that the callback leaves as it is. -/
theorem callback_confinement (h : Reachable s)
    (hverified : Verified env s code inbound provider parsed) :
    Confinement s.toBooks ((providerCallback env code inbound).commit s).toBooks provider.id
        parsed ↔
      LooksUpNamed env s provider.id parsed := by
  have hexec := providerCallback_exec hverified
  cases hparsed : (onParsed env provider parsed).exec s with
  | error e =>
      rw [hparsed] at hexec
      rw [Txn.commit_error hexec]
      have hraises := not_completes_of_error hparsed
      exact ⟨looksUpNamed_of_raises hraises, fun hlooks => confinement_raises hlooks hraises⟩
  | ok r =>
      obtain ⟨event, t⟩ := r
      rw [hparsed] at hexec
      rw [Txn.commit_ok hexec]
      exact ⟨looksUpNamed_of_confinement h hparsed,
        fun hlooks => confinement_of_looksUpNamed h hlooks hparsed⟩

end Confinement

/-- The mock provider of the small installation. -/
def mockProvider : PaymentProvider := ⟨1, "mock", "Mock", true⟩

/-- What the callbacks below carry. -/
def reportOf (reference : String) : ProviderCallbackResult :=
  { externalEventId := "e1"
    providerReference := reference
    outcome := .successful
    rawResponse := some emptyDict }

/-- A request of the provider; what it says is decided by the adapter. -/
def inboundRequest : InboundCallback := { rawPayload := [], headers := [] }

theorem callback_confinement_named :
    Reachable (afterAll smallInstallation pendingPayment) ∧
      Verified (envAt 3 (answering .successful "p" "e1"))
        (afterAll smallInstallation pendingPayment) "mock" inboundRequest mockProvider
        (reportOf "p") ∧
      Confinement (afterAll smallInstallation pendingPayment).toBooks
        ((providerCallback (envAt 3 (answering .successful "p" "e1")) "mock" inboundRequest).commit
          (afterAll smallInstallation pendingPayment)).toBooks mockProvider.id (reportOf "p") := by
  have hverified : Verified (envAt 3 (answering .successful "p" "e1"))
      (afterAll smallInstallation pendingPayment) "mock" inboundRequest mockProvider
      (reportOf "p") := ⟨by decide, _, rfl, rfl⟩
  have hsome : ((afterAll smallInstallation pendingPayment).matchReference "p").any
      (fun p => p.Named mockProvider.id "p") = true := by decide +kernel
  obtain ⟨p, hfound, hnamed⟩ := (Option.any_eq_true _ _).mp hsome
  have hlooks : LooksUpNamed (envAt 3 (answering .successful "p" "e1"))
      (afterAll smallInstallation pendingPayment) mockProvider.id (reportOf "p") := by
    right
    have hmatch : (afterAll smallInstallation pendingPayment).matchReference
        (reportOf "p").providerReference = some p := hfound
    rw [hmatch]
    exact Or.inl (of_decide_eq_true hnamed)
  exact ⟨pendingPayment_reachable, hverified,
    (callback_confinement pendingPayment_reachable hverified).mpr hlooks⟩

/-- A payment whose initiation timed out has no reference yet. -/
def timedOutPayment : List Request :=
  [issueBill,
   payIssuedBill 2 { answering .successful "" "e1" with
      initiatePayment := fun _ => .error (.timeout "") } (amountOf 4000)]

/-- A callback with a blank reference settles it. -/
theorem blank_reference_settles :
    ¬ ∀ (env : Env) (code : String) (inbound : InboundCallback) (provider : PaymentProvider)
        (parsed : ProviderCallbackResult) (s : DB), Reachable s →
        Verified env s code inbound provider parsed →
        Confinement s.toBooks ((providerCallback env code inbound).commit s).toBooks provider.id
          parsed := by
  intro h
  have hconfinement := h (envAt 3 (answering .successful "" "e1")) "mock" inboundRequest
    mockProvider (reportOf "") (afterAll smallInstallation timedOutPayment)
    ⟨_, _, smallInstallation_initial, rfl⟩ ⟨by decide, _, rfl, rfl⟩
  have hsettled : (∀ p ∈ (afterAll smallInstallation timedOutPayment).payments,
      p.status ≠ .successful) ∧
      ∃ q ∈ ((providerCallback (envAt 3 (answering .successful "" "e1")) "mock"
        inboundRequest).commit (afterAll smallInstallation timedOutPayment)).payments,
        q.status = .successful := by decide +kernel
  obtain ⟨hbefore, q, hq, hstatus⟩ := hsettled
  obtain ⟨old, hold, hrow⟩ := Support.exists_of_forall₂ hconfinement.confined.payments hq
  rcases hrow with rfl | ⟨-, -, -, hblank⟩
  · exact hbefore _ hold hstatus
  · exact hblank rfl

end Kusanya
