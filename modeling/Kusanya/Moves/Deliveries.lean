import Kusanya.Moves.Outbox
import Kusanya.Moves.Requests

/-!
# Deliveries of a verified callback

What `process_callback` does with a parsed event when nothing else is going on, case by
case: a column does not take the event, its key is known, it matches no payment, or its
outcome is applied to the payment that the lookup found.
-/

namespace Kusanya

open ReadCommitted

/-- The unique constraint on provider and event id; a blank id is exempt. -/
def Books.knowsEvent (b : Books) (provider : ℕ) (eventId : String) : Bool :=
  b.callbackEvents.any fun row =>
    eventId != "" && row.provider = provider && row.externalEventId = eventId

/-- The primary key that was drawn for an event is not taken. -/
def Books.FreshEvent (b : Books) (id : ℕ) : Prop :=
  ∀ row ∈ b.callbackEvents, row.id ≠ id

instance (b : Books) (id : ℕ) : Decidable (b.FreshEvent id) :=
  inferInstanceAs (Decidable (∀ _ ∈ _, _))

/-- The columns of an event take what was parsed. -/
def ProviderCallbackResult.Fits (parsed : ProviderCallbackResult) : Prop :=
  Varchar 150 parsed.externalEventId ∧ parsed.rawResponse.isSome = true

instance (parsed : ProviderCallbackResult) : Decidable parsed.Fits :=
  inferInstanceAs (Decidable (_ ∧ _))

/-- The row of a first delivery. -/
def ProviderCallbackResult.newEvent (parsed : ProviderCallbackResult) (id provider : ℕ) :
    PaymentCallbackEvent :=
  { id
    provider
    externalEventId := parsed.externalEventId
    payment := none
    outcome := .processed
    rawPayload := parsed.rawResponse.getD "" }

/-- The event is linked to the payment that the lookup found. -/
def Books.linkEvent (b : Books) (event : PaymentCallbackEvent) (payment : ℕ) : Books :=
  (b.addCallbackEvent event).updateCallbackEvent event.id fun row =>
    { row with payment := some payment }

/-- The event is recorded and left unmatched. -/
def Books.leaveUnmatched (b : Books) (event : PaymentCallbackEvent) : Books :=
  (b.addCallbackEvent event).updateCallbackEvent event.id fun row =>
    { row with outcome := .unmatched }

section Rows

variable {b : Books} {event : PaymentCallbackEvent}

theorem callbackClash_iff (b : Books) (event : PaymentCallbackEvent) :
    b.callbackClash event = true ↔
      ¬(b.FreshEvent event.id ∧ b.knowsEvent event.provider event.externalEventId = false) := by
  have hfresh : b.FreshEvent event.id ↔ ¬∃ row ∈ b.callbackEvents, row.id = event.id := by
    rw [Books.FreshEvent]
    push Not
    rfl
  rw [hfresh, ← Bool.not_eq_true, Books.knowsEvent, Books.callbackClash]
  simp only [List.any_eq_true, Bool.or_eq_true, Bool.and_eq_true, bne_iff_ne, decide_eq_true_eq]
  grind

/-- An update of the event that was just recorded leaves the others as they are. -/
theorem update_newEvent (hfresh : b.FreshEvent event.id)
    (f : PaymentCallbackEvent → PaymentCallbackEvent) :
    ((b.addCallbackEvent event).updateCallbackEvent event.id f).callbackEvents =
      b.callbackEvents ++ [f event] := by
  have hold : b.callbackEvents.map (fun row => if row.id = event.id then f row else row) =
      b.callbackEvents := by
    refine (List.map_congr_left fun row hrow => ?_).trans (List.map_id _)
    exact if_neg (hfresh row hrow)
  simp only [Books.updateCallbackEvent, Books.addCallbackEvent, List.map_append, hold,
    List.map_cons, List.map_nil, if_true]

end Rows

section Deliveries

variable {env : Env} {provider : PaymentProvider} {parsed : ProviderCallbackResult} {s : DB}

theorem insertCallbackEvent_exec (id provider : ℕ) (eventId : String) (outcome : CallbackOutcome)
    (payment : Option ℕ) (raw : Option String) (s : DB) :
    (insertCallbackEvent id provider eventId outcome payment raw).exec s =
      if Varchar 150 eventId ∧ raw.isSome = true then
        if s.FreshEvent id ∧ s.knowsEvent provider eventId = false then
          let event : PaymentCallbackEvent :=
            { id, provider, externalEventId := eventId, payment, outcome
              rawPayload := raw.getD "" }
          .ok (event, inBooks (·.addCallbackEvent event) s)
        else .error .integrityError
      else .error .dataError := by
  simp only [insertCallbackEvent, Txn.exec_bind, exec_checkVarchar]
  by_cases heventId : Varchar 150 eventId
  · rw [if_pos heventId]
    dsimp only
    rw [exec_storeJson]
    cases raw with
    | none => rw [if_neg fun h => absurd h.2 Bool.false_ne_true]
    | some text =>
        rw [if_pos ⟨heventId, rfl⟩]
        obtain ⟨event, hevent⟩ : ∃ event : PaymentCallbackEvent, event =
            { id, provider, externalEventId := eventId, payment, outcome, rawPayload := text } :=
          ⟨_, rfl⟩
        have hclash : s.callbackClash event = true ↔
            ¬(s.FreshEvent id ∧ s.knowsEvent provider eventId = false) := by
          rw [callbackClash_iff, hevent]
        simp only [exec_acquireUnlessBlank, Txn.exec_acquire, Txn.exec_fetch, exec_raiseIf,
          ← hevent,
          exec_onBooks, Txn.pure_eq_ret, Txn.exec_ret, Option.getD_some]
        by_cases hfree : s.FreshEvent id ∧ s.knowsEvent provider eventId = false
        · rw [if_pos hfree, if_neg fun h => hclash.mp h hfree]
        · rw [if_neg hfree, if_pos (hclash.mpr hfree)]
  · rw [if_neg heventId, if_neg fun h => heventId h.1]

/-- A delivery raises at once, is a first delivery, or is taken for a duplicate. -/
theorem onParsed_exec :
    (onParsed env provider parsed).exec s =
      if parsed.Fits then
        if s.FreshEvent (env.gen.callbackEventId 0) ∧
            s.knowsEvent provider.id parsed.externalEventId = false then
          (onFirstDelivery env (parsed.newEvent (env.gen.callbackEventId 0) provider.id)
            parsed).exec (inBooks (·.addCallbackEvent
              (parsed.newEvent (env.gen.callbackEventId 0) provider.id)) s)
        else (onDuplicate env provider parsed).exec s
      else .error .dataError := by
  simp only [onParsed, Txn.exec_bind, Txn.exec_tryAtomic, insertCallbackEvent_exec]
  by_cases hfits : Varchar 150 parsed.externalEventId ∧ parsed.rawResponse.isSome = true
  · have hparsed : parsed.Fits := hfits
    rw [if_pos hfits, if_pos hparsed]
    by_cases hfree : s.FreshEvent (env.gen.callbackEventId 0) ∧
        s.knowsEvent provider.id parsed.externalEventId = false
    · rw [if_pos hfree, if_pos hfree]
      rfl
    · rw [if_neg hfree, if_neg hfree]
      rfl
  · have hparsed : ¬parsed.Fits := hfits
    rw [if_neg hfits, if_neg hparsed]
    rfl

/-- A first delivery that matches no payment. -/
theorem onFirstDelivery_unmatched {event : PaymentCallbackEvent} (hauditable : env.Auditable)
    (hquery : '\x00' ∉ parsed.providerReference.toList)
    (h : s.matchReference parsed.providerReference = none) :
    ∃ t, (onFirstDelivery env event parsed).exec (inBooks (·.addCallbackEvent event) s) =
        .ok ({ event with outcome := .unmatched }, t) ∧
      t.core = (s.toDirectory, s.toBooks.leaveUnmatched event) := by
  have hmatch : (inBooks (·.addCallbackEvent event) s).toBooks.matchReference
      parsed.providerReference = none := h
  simp only [onFirstDelivery, Txn.exec_bind, exec_checkParameter, if_neg hquery, Txn.exec_fetch,
    hmatch, exec_onBooks, exec_recordAuditEvent, if_pos hauditable]
  exact ⟨_, rfl, rfl⟩

/-- A first delivery that matches a payment applies its outcome to it. -/
theorem onFirstDelivery_matched {event : PaymentCallbackEvent} {payment : Payment}
    (hquery : '\x00' ∉ parsed.providerReference.toList)
    (h : s.matchReference parsed.providerReference = some payment) :
    (onFirstDelivery env event parsed).exec (inBooks (·.addCallbackEvent event) s) =
      match (applyOutcome env payment {} parsed.outcome).exec
        (inBooks (·.linkEvent event payment.id) s) with
      | .ok (_, t) => .ok ({ event with payment := some payment.id }, t)
      | .error e => .error e := by
  have hmatch : (inBooks (·.addCallbackEvent event) s).toBooks.matchReference
      parsed.providerReference = some payment := h
  have hlink : inBooks (·.updateCallbackEvent event.id fun row =>
      { row with payment := some payment.id }) (inBooks (·.addCallbackEvent event) s) =
      inBooks (·.linkEvent event payment.id) s := rfl
  simp only [onFirstDelivery, Txn.exec_bind, exec_checkParameter, if_neg hquery, Txn.exec_fetch,
    hmatch, exec_onBooks, hlink]
  cases (applyOutcome env payment {} parsed.outcome).exec
    (inBooks (·.linkEvent event payment.id) s) <;> rfl

/-- What a first delivery needs that completes: the lookup takes its reference, and the audit row
of an event that matches nothing can be stored. -/
theorem onFirstDelivery_ok {event after : PaymentCallbackEvent} {t : DB}
    (h : (onFirstDelivery env event parsed).exec s = .ok (after, t)) :
    '\x00' ∉ parsed.providerReference.toList ∧
      (s.matchReference parsed.providerReference = none → env.Auditable) := by
  obtain ⟨_, u, hcheck, hrest⟩ := (Txn.exec_bind_ok _).mp h
  obtain ⟨hquery, rfl⟩ := exec_checkParameter_ok hcheck
  refine ⟨hquery, fun hnone => ?_⟩
  rw [Txn.exec_bind, Txn.exec_fetch, hnone] at hrest
  obtain ⟨_, v, -, haudited⟩ := (Txn.exec_bind_ok _).mp hrest
  obtain ⟨_, w, haudit, -⟩ := (Txn.exec_bind_ok _).mp haudited
  exact (exec_recordAuditEvent_ok haudit).1

/-- A duplicate adds a row of its own, and an event of the revenue engine at most. -/
theorem onDuplicate_ok {event : PaymentCallbackEvent} {t : DB}
    (h : (onDuplicate env provider parsed).exec s = .ok (event, t)) :
    env.Auditable ∧ ∃ (dup : PaymentCallbackEvent) (noted : List RevenueEvent),
      dup.outcome = .duplicate ∧ t.toBooks =
        { s.toBooks with
          callbackEvents := s.callbackEvents ++ [dup]
          revenue := s.revenue ++ noted } := by
  obtain ⟨original, s₁, hfetch, h₁⟩ := (Txn.exec_bind_ok _).mp h
  obtain ⟨-, rfl⟩ := Prod.mk.inj (Except.ok.inj hfetch)
  obtain ⟨dup, s₂, hinsert, h₂⟩ := (Txn.exec_bind_ok _).mp h₁
  rw [insertCallbackEvent_exec] at hinsert
  split at hinsert
  swap
  · cases hinsert
  split at hinsert
  swap
  · cases hinsert
  obtain ⟨hdup, rfl⟩ := Prod.mk.inj (Except.ok.inj hinsert)
  have houtcome : dup.outcome = .duplicate := by rw [← hdup]
  rw [hdup] at h₂
  cases hlinked : original.bind (·.payment) with
  | none =>
      rw [hlinked] at h₂
      obtain ⟨_, s₃, haudit, h₃⟩ := (Txn.exec_bind_ok _).mp h₂
      obtain ⟨hauditable, rfl⟩ := exec_recordAuditEvent_ok haudit
      obtain ⟨-, rfl⟩ := Prod.mk.inj (Except.ok.inj h₃)
      refine ⟨hauditable, dup, [], houtcome, ?_⟩
      rw [List.append_nil]
      rfl
  | some id =>
      rw [hlinked] at h₂
      obtain ⟨payment, s₃, hrow, h₃⟩ := (Txn.exec_bind_ok _).mp h₂
      obtain ⟨-, rfl⟩ := exec_getRow_ok hrow
      obtain ⟨_, s₄, haudit, h₄⟩ := (Txn.exec_bind_ok _).mp h₃
      obtain ⟨hauditable, rfl⟩ := exec_recordAuditEvent_ok haudit
      obtain ⟨_, s₅, hrecord, h₅⟩ := (Txn.exec_bind_ok _).mp h₄
      obtain ⟨-, rfl⟩ := exec_recordEvent_ok hrecord
      obtain ⟨-, rfl⟩ := Prod.mk.inj (Except.ok.inj h₅)
      exact ⟨hauditable, dup, [_], houtcome, rfl⟩

/-- An outcome that is applied to a payment without raising makes the moves of that outcome. -/
theorem applyOutcome_moves {payment after : Payment} {outcome : ProviderOutcome} {t : DB}
    (hp : payment ∈ s.payments)
    (h : (applyOutcome env payment {} outcome).exec s = .ok (after, t)) :
    ∃ ms, Applied env payment outcome ms after ∧
      (View.alone s.toDirectory s.toBooks).Chain ms ∧ t.toDirectory = s.toDirectory ∧
      t.toBooks = Move.runAll ms s.toBooks := by
  have hview : viewOf (fun _ v => v = s) id = View.alone s.toDirectory s.toBooks :=
    viewOf_alone s id
  have hheld : (viewOf (fun _ v => v = s) id).Holds payment := by
    rw [hview, View.holds_alone]
    exact hp
  have hwp : (applyOutcome env payment {} outcome).wp (fun _ => True) (fun _ v => v = s) id
      (fun result pend' => ∃ ms, Applied env payment outcome ms result ∧
        Effect (fun _ v => v = s) id ms pend') fun _ _ => True :=
    wp_applyOutcome hheld (Related.valid_empty _ _) (fun _ _ => trivial)
      fun ms result pend' happlied heffect => ⟨ms, happlied, heffect⟩
  obtain ⟨pend, rfl, ms, happlied, heffect⟩ := Txn.exec_ok_of_wp hwp h
  refine ⟨ms, happlied, ?_, congrArg Prod.fst (heffect.writes s),
    congrArg Prod.snd (heffect.writes s)⟩
  rw [← hview]
  exact heffect.chain

end Deliveries

end Kusanya
