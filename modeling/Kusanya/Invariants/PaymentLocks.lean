import Kusanya.Invariants.Batches

/-!
# Writes under row locks

Every statement that changes a payment or books a success does so under the row lock of that
payment, and no statement but the settlement's touches a batch or moves a payment into one.
-/

namespace Kusanya

open ReadCommitted

/-! ## Covered writes -/

/-- What no statement but the settlement's changes about a payment. -/
def Payment.claim (p : Payment) : Payment.Fixed × Option ℕ := (p.fixed, p.settlementBatch)

/-- With the locks `held` the write is allowed: it leaves batches and claims alone, and payments
and their success events where the lock of the payment is not held. -/
structure UnderLock (held : List Resource) (w : DB → DB) : Prop where
  claims : ∀ s, (w s).payments.map Payment.claim = s.payments.map Payment.claim
  batches : ∀ s, (w s).batches = s.batches
  covered : ∀ s id, .payment id ∉ held → LockKeeps (.payment id) s (w s)

/-- A piece of code that needs no lock of a payment for what it writes. -/
abbrev Idle {α : Type} (p : Tx α) : Prop :=
  ∀ held, p.Covers UnderLock held fun _ _ => True

section Writes

variable {held : List Resource}

theorem underLock_inTrail (w : Trail → Trail) : UnderLock held (inTrail w) :=
  ⟨fun _ => rfl, fun _ => rfl, fun _ _ _ => ⟨rfl, rfl⟩⟩

theorem underLock_inBooks {w : Books → Books}
    (hw : ∀ b, (w b).payments = b.payments ∧ (w b).batches = b.batches ∧
      (w b).revenue = b.revenue) :
    UnderLock held (inBooks w) := by
  refine ⟨fun s => ?_, fun s => (hw s.toBooks).2.1, fun s id _ => ⟨?_, ?_⟩⟩
  · exact congrArg (·.map Payment.claim) (hw s.toBooks).1
  · exact congrArg (fun rows : List Payment => rows.find? (·.id = id)) (hw s.toBooks).1
  · exact congrArg (fun rows : List RevenueEvent => rows.filter fun e =>
      e.eventType = .paymentSuccessful && e.source = .payment id) (hw s.toBooks).2.2

theorem underLock_record {e : RevenueEvent}
    (he : e.eventType = .paymentSuccessful → ∀ id, e.source = .payment id → .payment id ∈ held) :
    UnderLock held (inBooks (·.record e)) := by
  refine ⟨fun _ => rfl, fun _ => rfl, fun s id hid => ⟨rfl, ?_⟩⟩
  change (s.revenue ++ [e]).filter _ = s.revenue.filter _
  rw [List.filter_append]
  refine List.append_right_eq_self.mpr (List.filter_eq_nil_iff.mpr fun e' he' hmatch => ?_)
  rw [List.mem_singleton.mp he'] at hmatch
  simp only [Bool.and_eq_true, decide_eq_true_eq] at hmatch
  exact hid (he hmatch.1 id hmatch.2)

theorem underLock_updatePayment {id : ℕ} {f : Payment → Payment} (hf : ∀ p, (f p).claim = p.claim)
    (hid : .payment id ∈ held) : UnderLock held (inBooks (·.updatePayment id f)) := by
  have hclaim : ∀ p : Payment, (if p.id = id then f p else p).claim = p.claim := by
    intro p
    split
    · exact hf p
    · rfl
  refine ⟨fun s => ?_, fun _ => rfl, fun s id' hid' => ⟨?_, rfl⟩⟩
  · exact Support.map_key hclaim
  · have hne : id' ≠ id := fun h => hid' (h ▸ hid)
    have hkey : ∀ p : Payment, (if p.id = id then f p else p).id = p.id := fun p =>
      congrArg (fun c : Payment.Fixed × Option ℕ => c.1.id) (hclaim p)
    change (s.payments.map fun p => if p.id = id then f p else p).find? (·.id = id') =
      s.payments.find? (·.id = id')
    rw [Support.find?_map_key hkey]
    cases hfound : s.payments.find? (·.id = id') with
    | none => rfl
    | some p =>
        have hp : p.id = id' := by simpa using List.find?_some hfound
        rw [Option.map_some, if_neg (hp ▸ hne)]

end Writes

/-! ## Idle code -/

section Idle

variable {α β : Type}

theorem idle_ret (a : α) : Idle (.ret a : Tx α) := fun _ => trivial

theorem idle_throw (e : Error) : Idle (.throw e : Tx α) := fun _ => trivial

theorem idle_fetch (k : Resource) (q : DB → α) : Idle (.fetch k q) := fun _ _ => trivial

theorem idle_acquire (k : Resource) : Idle (.acquire k) := fun _ => trivial

theorem idle_bind {p : Tx α} {f : α → Tx β} (hp : Idle p) (hf : ∀ a, Idle (f a)) : Idle (p >>= f) :=
  fun held => Txn.covers_bind (hp held) fun a held' _ _ => hf a held'

theorem idle_ite {c : Prop} [Decidable c] {p q : Tx α} (hp : Idle p) (hq : Idle q) :
    Idle (if c then p else q) :=
  fun held => Txn.covers_ite (fun _ => hp held) fun _ => hq held

theorem idle_onTrail (w : Trail → Trail) : Idle (onTrail w) :=
  fun _ => ⟨underLock_inTrail w, trivial⟩

theorem idle_onBooks {w : Books → Books}
    (hw : ∀ b, (w b).payments = b.payments ∧ (w b).batches = b.batches ∧
      (w b).revenue = b.revenue) :
    Idle (onBooks w) :=
  fun _ => ⟨underLock_inBooks hw, trivial⟩

theorem idle_raiseIf (c : Prop) [Decidable c] (e : Error) : Idle (raiseIf c e) :=
  idle_ite (idle_throw e) (idle_ret _)

theorem idle_checkVarchar (n : ℕ) (text : String) : Idle (checkVarchar n text) :=
  idle_ite (idle_ret _) (idle_throw _)

theorem idle_checkParameter (text : String) : Idle (checkParameter text) :=
  idle_ite (idle_throw _) (idle_ret _)

theorem idle_storeCorrelationId (correlationId : Support.Text) :
    Idle (storeCorrelationId correlationId) :=
  idle_raiseIf _ _

theorem idle_storeJson (json : Option String) : Idle (storeJson json) := by
  cases json with
  | none => exact idle_throw _
  | some text => exact idle_ret text

theorem idle_acquireUnlessBlank (text : String) (k : Resource) : Idle (acquireUnlessBlank text k) :=
  idle_ite (idle_ret _) (idle_acquire k)

theorem idle_storeNumeric (m : Money) : Idle (storeNumeric m) := by
  unfold storeNumeric
  cases Numeric.ofMoney? m with
  | none => exact idle_throw _
  | some n => exact idle_ret n

theorem idle_getRow (what : Resource) (q : DB → Option α) : Idle (getRow what q) := by
  apply idle_bind (idle_fetch _ _)
  intro row
  cases row with
  | none => exact idle_throw _
  | some row => exact idle_ret row

theorem idle_getOr404 (what : Resource) (q : DB → Option α) : Idle (getOr404 what q) := by
  apply idle_bind (idle_fetch _ _)
  intro row
  cases row with
  | none => exact idle_throw _
  | some row => exact idle_ret row

theorem idle_recordAuditEvent (env : Env) (action : String) (tenant : Option ℕ)
    (target : Option Source) (after metadata : List (String × String)) :
    Idle (recordAuditEvent env action tenant target after metadata) :=
  idle_bind (idle_raiseIf _ _) fun _ => idle_onTrail _

theorem idle_sendOn (env : Env) (tenant : ℕ) (eventType : NotificationEventType)
    (channel : NotificationChannel) (context : List (String × String)) (recipient : String) :
    Idle (sendOn env tenant eventType channel context recipient) := by
  apply idle_ite (idle_ret _)
  apply idle_bind
  · apply idle_bind (idle_fetch _ _)
    intro template
    split
    · exact idle_ret _
    · exact idle_throw _
  · intro rendered
    apply idle_bind (idle_raiseIf _ _)
    intro _
    apply idle_bind (idle_checkVarchar _ _)
    intro _
    apply idle_bind (idle_checkParameter _)
    intro _
    exact idle_bind (idle_storeCorrelationId _) fun _ => idle_onTrail _

theorem idle_deliverAll (env : Env) (tenant : ℕ) (eventType : String)
    (payload : List (String × Option String)) (endpoints : List WebhookEndpoint) :
    Idle (deliverAll env tenant eventType payload endpoints) := by
  induction endpoints with
  | nil => exact idle_ret _
  | cons endpoint rest ih =>
      apply idle_bind
      · apply idle_ite _ (idle_ret _)
        exact idle_bind (idle_storeCorrelationId _) fun _ => idle_onTrail _
      · exact fun _ => ih

theorem idle_dispatchEvent (env : Env) (tenant : ℕ) (eventType : String)
    (payload : List (String × Option String)) : Idle (dispatchEvent env tenant eventType payload) :=
  idle_bind (idle_fetch _ _) fun _ => idle_deliverAll _ _ _ _ _

theorem idle_postEntry (env : Env) (tenant : ℕ) (entryType : LedgerEntryType)
    (account : LedgerAccount) (amount : Numeric) (currency reference : String)
    (source : Option Source) (relatedEntry : Option Posting) (metadata : List (String × String)) :
    Idle (postEntry env tenant entryType account amount currency reference source relatedEntry
      metadata) :=
  idle_bind (idle_storeCorrelationId _) fun _ =>
    idle_bind (idle_onBooks fun _ => ⟨rfl, rfl, rfl⟩) fun _ => idle_ret _

theorem idle_recordEvent (env : Env) (tenant : ℕ) {eventType : RevenueEventType}
    (hother : eventType ≠ .paymentSuccessful) (amount : Numeric) (currency : String)
    (source : Source) (ledgerEntry : Option LedgerEntry) (metadata : List (String × String)) :
    Idle (recordEvent env tenant eventType amount currency source ledgerEntry metadata) :=
  idle_bind (idle_storeCorrelationId _) fun _ _ =>
    ⟨underLock_record fun hsuccess => absurd hsuccess hother, trivial⟩

theorem idle_accountBehind (cn : ControlNumber) (bill : Option Bill) :
    Idle (accountBehind cn bill) := by
  unfold accountBehind
  split
  · exact idle_ret _
  · exact idle_ret _
  · exact idle_throw _

theorem idle_customerOf (account : ℕ) : Idle (customerOf account) :=
  idle_bind (idle_getRow _ _) fun _ => idle_getRow _ _

theorem idle_loadRelated (payment : Payment) (related : Related) :
    Idle (loadRelated payment related) := by
  apply idle_bind
  · unfold controlNumberOf
    split
    · exact idle_ret _
    · exact idle_getRow _ _
  · intro cn
    apply idle_bind
    · unfold boundBill
      split
      · exact idle_ret _
      · exact idle_ret _
      · exact idle_bind (idle_getRow _ _) fun _ => idle_ret _
    · exact fun _ => idle_ret _

theorem idle_notify (env : Env) (payment : Payment) (cn : ControlNumber) (bill : Option Bill)
    (eventType : NotificationEventType) (extra : List (String × String)) :
    Idle (notify env payment cn bill eventType extra) := by
  apply idle_bind (idle_accountBehind _ _)
  intro account
  apply idle_bind (idle_customerOf _)
  intro customer
  apply idle_bind (idle_getRow _ _)
  intro tenant
  exact idle_bind (idle_sendOn _ _ _ _ _ _) fun _ => idle_sendOn _ _ _ _ _ _

theorem idle_dispatch (env : Env) (payment : Payment) (cn : ControlNumber) (bill : Option Bill)
    (amount eventType : String) : Idle (dispatch env payment cn bill amount eventType) :=
  idle_dispatchEvent _ _ _ _

theorem idle_billTransitionTo (env : Env) (bill : Bill) (newStatus : BillStatus) :
    Idle (bill.transitionTo env newStatus) := by
  apply idle_bind (idle_raiseIf _ _)
  intro _
  apply idle_bind (idle_acquire _)
  intro _
  exact idle_bind (idle_onBooks fun _ => ⟨rfl, rfl, rfl⟩) fun _ => idle_ret _

theorem idle_allocateToBill (env : Env) (payment : Payment) (bill : Option Bill) :
    Idle (allocateToBill env payment bill) := by
  cases bill with
  | none => exact idle_ret _
  | some bill =>
      refine idle_bind (idle_onBooks ?_) fun _ => ?_
      · exact fun _ => ⟨rfl, rfl, rfl⟩
      apply idle_ite (idle_ret _)
      apply idle_bind (idle_fetch _ _)
      intro balance
      apply idle_ite
      · exact idle_bind (idle_billTransitionTo _ _ _) fun _ => idle_ret _
      · apply idle_ite
        · exact idle_bind (idle_billTransitionTo _ _ _) fun _ => idle_ret _
        · exact idle_ret _

theorem idle_insertReceipt (receipt : Receipt) : Idle (insertReceipt receipt) := by
  apply idle_bind (idle_checkVarchar _ _)
  intro _
  apply idle_bind (idle_acquire _)
  intro _
  apply idle_bind (idle_acquire _)
  intro _
  apply idle_bind (idle_fetch _ _)
  intro clash
  exact idle_bind (idle_raiseIf _ _) fun _ => idle_onBooks fun _ => ⟨rfl, rfl, rfl⟩

theorem idle_generateReceipt (env : Env) (payment : Payment) (cn : ControlNumber)
    (bill : Option Bill) : Idle (generateReceipt env payment cn bill) := by
  apply idle_bind (idle_fetch _ _)
  intro existing
  cases existing with
  | some receipt => exact idle_ret _
  | none =>
      apply idle_bind (idle_raiseIf _ _)
      intro _
      apply idle_bind (idle_accountBehind _ _)
      intro account
      apply idle_bind (idle_customerOf _)
      intro customer
      apply idle_bind (idle_getRow _ _)
      intro tenant
      apply idle_bind (idle_getRow _ _)
      intro provider
      apply idle_bind
      · cases bill with
        | none => exact idle_ret _
        | some bill =>
            exact idle_bind (idle_fetch _ _) fun _ =>
              idle_bind (idle_storeNumeric _) fun _ => idle_ret _
      · intro remaining
        exact idle_bind (idle_insertReceipt _) fun _ => idle_ret _

theorem idle_notifyPaymentSuccessful (env : Env) (payment : Payment) (cn : ControlNumber)
    (bill : Option Bill) (amount : String) (receipt : Receipt) :
    Idle (notifyPaymentSuccessful env payment cn bill amount receipt) := by
  apply idle_bind
  · cases bill with
    | none => exact idle_ret _
    | some bill => exact idle_bind (idle_fetch _ _) fun _ => idle_ret _
  · exact fun _ => idle_notify _ _ _ _ _ _

theorem idle_onFailed (env : Env) (payment : Payment) (related : Related) :
    Idle (onFailed env payment related) := by
  apply idle_bind (idle_recordAuditEvent _ _ _ _ _ _)
  intro _
  apply idle_bind (idle_recordEvent _ _ (by decide) _ _ _ _ _)
  intro _
  apply idle_bind (idle_loadRelated _ _)
  intro found
  exact idle_bind (idle_notify _ _ _ _ _ _) fun _ => idle_dispatch _ _ _ _ _ _

theorem idle_onPending (env : Env) (payment : Payment) (related : Related) :
    Idle (onPending env payment related) := by
  apply idle_bind (idle_recordAuditEvent _ _ _ _ _ _)
  intro _
  apply idle_bind (idle_loadRelated _ _)
  intro found
  exact idle_bind (idle_notify _ _ _ _ _ _) fun _ => idle_dispatch _ _ _ _ _ _

theorem idle_compensate (env : Env) (payment : Payment) {eventType : RevenueEventType}
    (hother : eventType ≠ .paymentSuccessful) (ledgerEntryType : LedgerEntryType) :
    Idle (compensate env payment eventType ledgerEntryType) := by
  apply idle_bind (idle_fetch _ _)
  intro original
  apply idle_bind (idle_getRow _ _)
  intro tenant
  dsimp only
  split
  · exact idle_recordEvent _ _ hother _ _ _ _ _
  · next fee _ =>
      apply idle_bind
      · unfold compensateEntry
        split
        · exact idle_ret _
        · exact idle_bind (idle_postEntry _ _ _ _ _ _ _ _ _ _) fun _ => idle_ret _
      · exact fun _ => idle_recordEvent _ _ hother _ _ _ _ _

theorem idle_getAdapter (env : Env) (provider : PaymentProvider) :
    Idle (getAdapter env provider) := by
  unfold getAdapter
  split
  · exact idle_ret _
  · exact idle_throw _

theorem idle_adapterOf (env : Env) (payment : Payment) : Idle (adapterOf env payment) :=
  idle_bind (idle_getRow _ _) fun _ => idle_getAdapter _ _

theorem idle_askProvider (call : Call) (answer : Except AdapterError α) :
    Idle (askProvider call answer) := by
  intro held
  cases answer <;> trivial

theorem idle_insertCallbackEvent (id provider : ℕ) (eventId : String) (outcome : CallbackOutcome)
    (payment : Option ℕ) (raw : Option String) :
    Idle (insertCallbackEvent id provider eventId outcome payment raw) := by
  apply idle_bind (idle_checkVarchar _ _)
  intro _
  apply idle_bind (idle_storeJson _)
  intro raw
  apply idle_bind (idle_acquire _)
  intro _
  apply idle_bind (idle_acquireUnlessBlank _ _)
  intro _
  apply idle_bind (idle_fetch _ _)
  intro clash
  apply idle_bind (idle_raiseIf _ _)
  intro _
  exact idle_bind (idle_onBooks fun _ => ⟨rfl, rfl, rfl⟩) fun _ => idle_ret _

theorem idle_openException (run : ReconciliationRun) (payment : Payment)
    (exceptionType : ExceptionType) (details : List (String × String)) :
    Idle (openException run payment exceptionType details) :=
  idle_bind (idle_onTrail _) fun _ => idle_ret _

theorem idle_checkSettled (env : Env) (run : ReconciliationRun) (payments : List Payment) :
    Idle (checkSettled env run payments) := by
  induction payments generalizing run with
  | nil => exact idle_ret _
  | cons payment rest ih =>
      apply idle_bind (idle_adapterOf _ _)
      intro adapter
      apply idle_bind (idle_askProvider _ _)
      intro result
      apply idle_bind
      · exact idle_ite (idle_openException _ _ _ _)
          (idle_ite (idle_openException _ _ _ _) (idle_ret _))
      · exact fun run => ih run

end Idle

/-! ## Code that locks its payment -/

section Locking

variable {env : Env} {payment : Payment} {held : List Resource}

theorem moveTo_saveStatus_claim (moved row : Payment) :
    (moved.saveStatus row).claim = row.claim := rfl

/-- `Payment.transition_to` takes the row lock and keeps it. -/
theorem transitionTo_covers (newStatus : PaymentStatus) (reason : String) :
    (payment.transitionTo env newStatus reason).Covers UnderLock held fun moved held' =>
      moved.id = payment.id ∧ .payment payment.id ∈ held' := by
  apply Txn.covers_bind (idle_raiseIf _ _ held)
  intro _ held₁ _ _
  apply Txn.covers_bind (idle_checkVarchar _ _ held₁)
  intro _ held₂ _ _
  apply Txn.covers_bind (Txn.covers_acquire (Q := fun _ held' => .payment payment.id ∈ held')
    List.mem_cons_self)
  intro _ held₃ _ hlocked
  exact ⟨underLock_updatePayment (moveTo_saveStatus_claim _) hlocked, rfl, hlocked⟩

theorem recordPaymentSuccessful_covers (hlocked : .payment payment.id ∈ held) :
    (recordPaymentSuccessful env payment).Covers UnderLock held fun _ _ => True := by
  apply Txn.covers_bind (idle_postEntry _ _ _ _ _ _ _ _ _ _ held)
  intro _ held₁ hheld₁ _
  apply Txn.covers_bind (idle_storeCorrelationId _ held₁)
  intro _ held₂ hheld₂ _
  refine ⟨underLock_record fun _ id hid => ?_, trivial⟩
  rw [← Source.payment.inj hid]
  exact hheld₂ _ (hheld₁ _ hlocked)

theorem onSuccessful_covers {related : Related} (hlocked : .payment payment.id ∈ held) :
    (onSuccessful env payment related).Covers UnderLock held fun _ _ => True := by
  apply Txn.covers_bind (idle_recordAuditEvent _ _ _ _ _ _ held)
  intro _ held₁ hheld₁ _
  apply Txn.covers_bind (idle_bind (idle_postEntry _ _ _ _ _ _ _ _ _ _) (fun _ =>
    idle_bind (idle_postEntry _ _ _ _ _ _ _ _ _ _) fun _ => idle_ret _) held₁)
  intro _ held₂ hheld₂ _
  apply Txn.covers_bind (recordPaymentSuccessful_covers (hheld₂ _ (hheld₁ _ hlocked)))
  intro _ held₃ _ _
  apply idle_bind (idle_loadRelated _ _)
  rintro ⟨cn, bill⟩
  apply idle_bind (idle_allocateToBill _ _ _)
  intro bill
  apply idle_bind (idle_generateReceipt _ _ _ _)
  intro receipt
  exact idle_bind (idle_notifyPaymentSuccessful _ _ _ _ _ _) fun _ => idle_dispatch _ _ _ _ _ _

theorem applyOutcome_covers {related : Related} {outcome : ProviderOutcome} :
    (applyOutcome env payment related outcome).Covers UnderLock held fun _ _ => True := by
  unfold applyOutcome
  cases htarget : outcome.toStatus? with
  | none =>
      apply Txn.covers_ite
      · intro _
        apply Txn.covers_bind (transitionTo_covers _ _)
        intro moved held₁ _ _
        exact idle_bind (idle_recordAuditEvent _ _ _ _ _ _) (fun _ => idle_ret _) held₁
      · exact fun _ => trivial
  | some target =>
      apply Txn.covers_ite
      · exact fun _ => trivial
      · intro _
        apply Txn.covers_bind (transitionTo_covers _ _)
        rintro moved held₁ _ ⟨hid, hlocked⟩
        rw [← hid] at hlocked
        refine Txn.covers_bind (Q := fun _ _ => True) ?_ fun _ _ _ _ => trivial
        unfold onEntered
        split
        · exact onSuccessful_covers hlocked
        · exact idle_onFailed _ _ _ _
        · exact idle_onPending _ _ _ _

/-- An `UPDATE` of what the provider reported about the payment. -/
theorem refer_covers {f : Payment → Payment} (hf : ∀ p, (f p).claim = p.claim) (object : Payment) :
    Txn.Covers UnderLock (do
      Txn.acquire (.payment payment.id)
      onBooks (·.updatePayment payment.id f)
      pure object : Tx Payment) held fun _ _ => True :=
  ⟨underLock_updatePayment hf List.mem_cons_self, trivial⟩

theorem queryPayment_covers : (queryPayment env payment).Covers UnderLock held fun _ _ => True := by
  apply Txn.covers_bind (idle_adapterOf _ _ held)
  intro adapter held₁ _ _
  apply Txn.covers_bind (idle_askProvider _ _ held₁)
  intro result held₂ _ _
  refine Txn.covers_bind (Q := fun _ _ => True) ?_ ?_
  · apply Txn.covers_ite
    · intro _
      apply Txn.covers_bind (idle_checkVarchar _ _ held₂)
      intro _ held₃ _ _
      refine refer_covers ?_ _
      exact fun _ => rfl
    · exact fun _ => trivial
  · intro learned held₃ _ _
    apply Txn.covers_bind (idle_recordAuditEvent _ _ _ _ _ _ held₃)
    exact fun _ _ _ _ => applyOutcome_covers

theorem undoPayment_covers {newStatus : PaymentStatus} {record : Payment → Tx Unit}
    (hrecord : ∀ p, Idle (record p)) {name : String} {metadata : List (String × String)}
    {notification : NotificationEventType} :
    (undoPayment env payment newStatus record name metadata notification).Covers UnderLock held
      fun _ _ => True := by
  apply Txn.covers_bind (transitionTo_covers _ _)
  intro moved held₁ _ _
  apply idle_bind (idle_recordAuditEvent _ _ _ _ _ _)
  intro _
  apply idle_bind (hrecord _)
  intro _
  apply idle_bind (idle_loadRelated _ _)
  rintro ⟨cn, bill⟩
  apply idle_bind (idle_dispatch _ _ _ _ _ _)
  intro _
  exact idle_bind (idle_notify _ _ _ _ _ _) fun _ => idle_ret _

theorem refundPayment_covers {amount : Option Amount} :
    (refundPayment env payment amount).Covers UnderLock held fun _ _ => True := by
  apply Txn.covers_bind (idle_raiseIf _ _ held)
  intro _ held₁ _ _
  apply Txn.covers_bind (idle_adapterOf _ _ held₁)
  intro adapter held₂ _ _
  apply Txn.covers_bind (idle_askProvider _ _ held₂)
  intro result held₃ _ _
  apply Txn.covers_ite
  · exact fun _ => undoPayment_covers fun _ => idle_compensate _ _ (by decide) _
  · exact fun _ => trivial

theorem reversePayment_covers :
    (reversePayment env payment).Covers UnderLock held fun _ _ => True := by
  apply Txn.covers_bind (idle_raiseIf _ _ held)
  intro _ held₁ _ _
  apply Txn.covers_bind (idle_adapterOf _ _ held₁)
  intro adapter held₂ _ _
  apply Txn.covers_bind (idle_askProvider _ _ held₂)
  intro result held₃ _ _
  apply Txn.covers_ite
  · exact fun _ => undoPayment_covers fun _ => idle_compensate _ _ (by decide) _
  · exact fun _ => trivial

theorem onInitiated_covers {related : Related} {answer : Except AdapterError ProviderResult} :
    (onInitiated env payment related answer).Covers UnderLock held fun _ _ => True := by
  have hfailed : ∀ message : String, (onProviderError env payment related message).Covers UnderLock
      held fun _ _ => True := by
    intro message
    apply Txn.covers_bind (transitionTo_covers _ _)
    intro moved held₁ _ _
    apply idle_bind (idle_recordAuditEvent _ _ _ _ _ _)
    intro _
    apply idle_bind (idle_recordEvent _ _ (by decide) _ _ _ _ _)
    intro _
    apply idle_bind (idle_loadRelated _ _)
    intro found
    exact idle_bind (idle_notify _ _ _ _ _ _) fun _ => idle_ret _
  unfold onInitiated
  split
  · apply Txn.covers_bind (transitionTo_covers _ _)
    intro moved held₁ _ _
    exact idle_bind (idle_recordAuditEvent _ _ _ _ _ _) (fun _ => idle_ret _) held₁
  · exact hfailed _
  · exact hfailed _
  · trivial
  · next result =>
      refine Txn.covers_bind (Q := fun _ _ => True) ?_ fun _ _ _ _ => applyOutcome_covers
      apply Txn.covers_bind (idle_checkVarchar _ _ held)
      intro _ held₁ _ _
      apply Txn.covers_bind (idle_storeJson _ held₁)
      intro rawResponse held₂ _ _
      refine refer_covers ?_ _
      exact fun _ => rfl

theorem resolveUnknown_covers (run : ReconciliationRun) (payments : List Payment) :
    (resolveUnknown env run payments).Covers UnderLock held fun _ _ => True := by
  induction payments generalizing run held with
  | nil => trivial
  | cons payment rest ih =>
      apply Txn.covers_bind queryPayment_covers
      intro after held₁ _ _
      apply Txn.covers_ite
      · exact fun _ => ih _
      · intro _
        apply Txn.covers_bind (idle_openException _ _ _ _ held₁)
        exact fun run held₂ _ _ => ih run

theorem runReconciliation_covers (tenant : ℕ) :
    (runReconciliation env tenant).Covers UnderLock held fun _ _ => True := by
  apply Txn.covers_bind (idle_onTrail _ held)
  intro _ held₁ _ _
  refine Txn.covers_bind (Q := fun _ _ => True) ?_ fun run held₂ _ _ => ?_
  · apply Txn.covers_bind (idle_fetch _ _ held₁)
    intro unknown held₂ _ _
    apply Txn.covers_bind (resolveUnknown_covers _ _)
    exact fun run held₃ _ _ => idle_bind (idle_onTrail _) (fun _ => idle_ret _) held₃
  · refine idle_bind ?_ (fun run => idle_bind (idle_onTrail _) fun _ => idle_ret _) held₂
    apply idle_bind (idle_fetch _ _)
    intro settled
    apply idle_bind (idle_checkSettled _ _ _)
    exact fun run => idle_bind (idle_onTrail _) fun _ => idle_ret _

theorem onDuplicate_idle (provider : PaymentProvider) (parsed : ProviderCallbackResult) :
    Idle (onDuplicate env provider parsed) := by
  apply idle_bind (idle_fetch _ _)
  intro original
  apply idle_bind (idle_insertCallbackEvent _ _ _ _ _ _)
  intro dup
  split
  · exact idle_bind (idle_recordAuditEvent _ _ _ _ _ _) fun _ => idle_ret _
  · apply idle_bind (idle_getRow _ _)
    intro payment
    apply idle_bind (idle_recordAuditEvent _ _ _ _ _ _)
    intro _
    exact idle_bind (idle_recordEvent _ _ (by decide) _ _ _ _ _) fun _ => idle_ret _

theorem onFirstDelivery_covers (event : PaymentCallbackEvent) (parsed : ProviderCallbackResult) :
    (onFirstDelivery env event parsed).Covers UnderLock held fun _ _ => True := by
  apply Txn.covers_bind (idle_checkParameter _ held)
  intro _ held₀ _ _
  apply Txn.covers_bind (idle_fetch _ _ held₀)
  intro found held₁ _ _
  cases found with
  | none =>
      refine idle_bind (idle_onBooks ?_) (fun _ => ?_) held₁
      · exact fun _ => ⟨rfl, rfl, rfl⟩
      exact idle_bind (idle_recordAuditEvent _ _ _ _ _ _) fun _ => idle_ret _
  | some payment =>
      refine Txn.covers_bind (idle_onBooks ?_ held₁) fun _ held₂ _ _ => ?_
      · exact fun _ => ⟨rfl, rfl, rfl⟩
      exact Txn.covers_bind applyOutcome_covers fun _ _ _ _ => trivial

end Locking

end Kusanya
