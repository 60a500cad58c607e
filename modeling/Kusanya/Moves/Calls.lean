import Kusanya.Moves.Requests
import Kusanya.ReadCommitted.Calls

/-!
# Calls to the provider

An initiation calls `adapter.initiate_payment` at most once: nothing that follows the
call comes back to it, whatever the answer.
-/

namespace Kusanya

open ReadCommitted

/-- A call of `adapter.initiate_payment`. -/
def Call.isInitiate : Call → Bool
  | .initiatePayment _ => true
  | _ => false

section Silence

variable {env : Env} {payment : Payment} {κ : Call → Bool}

theorem onBooks_silent (w : Books → Books) : Txn.Silent κ (onBooks w) :=
  Txn.silent_modify _

theorem transitionTo_silent (new : PaymentStatus) (reason : String) :
    Txn.Silent κ (payment.transitionTo env new reason) :=
  Txn.silent_bind (Txn.silent_ite (Txn.silent_throw _) (Txn.silent_ret _)) fun _ =>
    Txn.silent_bind (checkVarchar_onTrail _ _).silent fun _ =>
      Txn.silent_bind (Txn.silent_acquire _) fun _ =>
        Txn.silent_bind (onBooks_silent _) fun _ => Txn.silent_ret _

theorem billTransitionTo_silent (bill : Bill) (new : BillStatus) :
    Txn.Silent κ (bill.transitionTo env new) :=
  Txn.silent_bind (Txn.silent_ite (Txn.silent_throw _) (Txn.silent_ret _)) fun _ =>
    Txn.silent_bind (Txn.silent_acquire _) fun _ =>
      Txn.silent_bind (onBooks_silent _) fun _ => Txn.silent_ret _

theorem allocateToBill_silent (bill : Option Bill) :
    Txn.Silent κ (allocateToBill env payment bill) := by
  cases bill with
  | none => exact Txn.silent_ret _
  | some bill =>
      refine Txn.silent_bind (onBooks_silent _) fun _ => Txn.silent_ite (Txn.silent_ret _) ?_
      refine Txn.silent_bind (Txn.silent_fetch _ _) fun balance => ?_
      refine Txn.silent_ite ?_ (Txn.silent_ite ?_ (Txn.silent_ret _))
      · exact Txn.silent_bind (billTransitionTo_silent bill _) fun _ => Txn.silent_ret _
      · exact Txn.silent_bind (billTransitionTo_silent bill _) fun _ => Txn.silent_ret _

theorem generateReceipt_silent (cn : ControlNumber) (bill : Option Bill) :
    Txn.Silent κ (generateReceipt env payment cn bill) := by
  refine Txn.silent_bind (Txn.silent_fetch _ _) fun found => ?_
  cases found with
  | some existing => exact Txn.silent_ret _
  | none =>
      refine Txn.silent_bind (Txn.silent_ite (Txn.silent_throw _) (Txn.silent_ret _)) fun _ => ?_
      refine Txn.silent_bind (accountBehind_onTrail _ _).silent fun _ => ?_
      refine Txn.silent_bind (customerOf_onTrail _).silent fun _ => ?_
      refine Txn.silent_bind (getRow_onTrail _ _).silent fun _ => ?_
      refine Txn.silent_bind (getRow_onTrail _ _).silent fun _ => ?_
      refine Txn.silent_bind (remainingBalance_onTrail _).silent fun _ => ?_
      refine Txn.silent_bind ?_ fun _ => Txn.silent_ret _
      exact Txn.silent_bind (checkVarchar_onTrail _ _).silent fun _ =>
        Txn.silent_bind (Txn.silent_acquire _) fun _ =>
          Txn.silent_bind (Txn.silent_acquire _) fun _ =>
            Txn.silent_bind (Txn.silent_fetch _ _) fun _ =>
              Txn.silent_bind (raiseIf_onTrail _ rfl).silent fun _ => onBooks_silent _

theorem postEntry_silent (tenant : ℕ) (entryType : LedgerEntryType) (account : LedgerAccount)
    (amount : Numeric) (currency reference : String) (source : Option Source)
    (relatedEntry : Option Posting) (metadata : List (String × String)) :
    Txn.Silent κ (postEntry env tenant entryType account amount currency reference source
      relatedEntry metadata) :=
  Txn.silent_bind (storeCorrelationId_onTrail _).silent fun _ =>
    Txn.silent_bind (onBooks_silent _) fun _ => Txn.silent_ret _

theorem recordEvent_silent (tenant : ℕ) (eventType : RevenueEventType) (amount : Numeric)
    (currency : String) (source : Source) (ledgerEntry : Option LedgerEntry)
    (metadata : List (String × String)) :
    Txn.Silent κ (recordEvent env tenant eventType amount currency source ledgerEntry metadata) :=
  Txn.silent_bind (storeCorrelationId_onTrail _).silent fun _ => onBooks_silent _

theorem recordZeroEvent_silent (eventType : RevenueEventType) :
    Txn.Silent κ (recordZeroEvent env payment eventType) :=
  recordEvent_silent _ _ _ _ _ _ _

theorem onEntered_silent (related : Related) (status : PaymentStatus) :
    Txn.Silent κ (onEntered env payment related status) := by
  have hpending : Txn.Silent κ (onPending env payment related) :=
    onPending_onTrail.silent
  have hfailed : Txn.Silent κ (onFailed env payment related) :=
    Txn.silent_bind (recordAuditEvent_onTrail _ _ _ _ _ _).silent fun _ =>
      Txn.silent_bind (recordZeroEvent_silent _) fun _ =>
        Txn.silent_bind (loadRelated_onTrail _ _).silent fun _ =>
          Txn.silent_bind (notify_onTrail _ _ _ _ _ _).silent fun _ =>
            (dispatch_onTrail _ _ _ _ _ _).silent
  have hsuccessful : Txn.Silent κ (onSuccessful env payment related) := by
    refine Txn.silent_bind (recordAuditEvent_onTrail _ _ _ _ _ _).silent fun _ => ?_
    have hposted : Txn.Silent κ (postSettlementLedgerEntries env payment) :=
      Txn.silent_bind (postEntry_silent _ _ _ _ _ _ _ _ _) fun _ =>
        Txn.silent_bind (postEntry_silent _ _ _ _ _ _ _ _ _) fun _ => Txn.silent_ret _
    have hrecorded : Txn.Silent κ (recordPaymentSuccessful env payment) :=
      Txn.silent_bind (postEntry_silent _ _ _ _ _ _ _ _ _) fun _ =>
        recordEvent_silent _ _ _ _ _ _ _
    refine Txn.silent_bind hposted fun _ => ?_
    refine Txn.silent_bind hrecorded fun _ => ?_
    refine Txn.silent_bind (loadRelated_onTrail _ _).silent fun found => ?_
    refine Txn.silent_bind (allocateToBill_silent _) fun _ => ?_
    refine Txn.silent_bind (generateReceipt_silent _ _) fun _ => ?_
    exact Txn.silent_bind (notifyPaymentSuccessful_onTrail _ _ _ _ _ _).silent fun _ =>
      (dispatch_onTrail _ _ _ _ _ _).silent
  cases status with
  | successful => exact hsuccessful
  | failed => exact hfailed
  | _ => exact hpending

theorem applyOutcome_silent (related : Related) (outcome : ProviderOutcome) :
    Txn.Silent κ (applyOutcome env payment related outcome) := by
  unfold applyOutcome
  split
  · refine Txn.silent_ite ?_ (Txn.silent_ret _)
    exact Txn.silent_bind (transitionTo_silent _ _) fun _ =>
      Txn.silent_bind (recordAuditEvent_onTrail _ _ _ _ _ _).silent fun _ => Txn.silent_ret _
  · refine Txn.silent_ite (Txn.silent_ret _) ?_
    exact Txn.silent_bind (transitionTo_silent _ _) fun _ =>
      Txn.silent_bind (onEntered_silent _ _) fun _ => Txn.silent_ret _

theorem onInitiated_silent (related : Related) (answer : Except AdapterError ProviderResult) :
    Txn.Silent κ (onInitiated env payment related answer) := by
  have herror : ∀ message,
      Txn.Silent κ (onProviderError env payment related message) := fun message =>
    Txn.silent_bind (transitionTo_silent _ _) fun _ =>
      Txn.silent_bind (recordAuditEvent_onTrail _ _ _ _ _ _).silent fun _ =>
        Txn.silent_bind (recordZeroEvent_silent _) fun _ =>
          Txn.silent_bind (loadRelated_onTrail _ _).silent fun _ =>
            Txn.silent_bind (notify_onTrail _ _ _ _ _ _).silent fun _ => Txn.silent_ret _
  cases answer with
  | ok result =>
      refine Txn.silent_bind ?_ fun _ => applyOutcome_silent _ _
      have hstored : Txn.Silent κ (storeJson result.rawResponse) := by
        cases result.rawResponse with
        | none => exact Txn.silent_throw _
        | some text => exact Txn.silent_ret text
      exact Txn.silent_bind (checkVarchar_onTrail _ _).silent fun _ =>
        Txn.silent_bind hstored fun _ =>
          Txn.silent_bind (Txn.silent_acquire _) fun _ =>
            Txn.silent_bind (onBooks_silent _) fun _ => Txn.silent_ret _
  | error e =>
      cases e with
      | timeout message =>
          exact Txn.silent_bind (transitionTo_silent _ _) fun _ =>
            Txn.silent_bind (recordAuditEvent_onTrail _ _ _ _ _ _).silent fun _ => Txn.silent_ret _
      | providerError message => exact herror message
      | invalidSignature message => exact herror message
      | other => exact Txn.silent_throw _

theorem insertPayment_silent : Txn.Silent κ (insertPayment payment) :=
  Txn.silent_bind (raiseIf_onTrail _ rfl).silent fun _ =>
    Txn.silent_bind (checkVarchar_onTrail _ _).silent fun _ =>
      Txn.silent_bind (Txn.silent_acquire _) fun _ =>
        Txn.silent_bind (Txn.silent_acquire _) fun _ =>
          Txn.silent_bind (Txn.silent_ite (Txn.silent_ret _) (Txn.silent_acquire _)) fun _ =>
            Txn.silent_bind (Txn.silent_fetch _ _) fun _ =>
              Txn.silent_bind (raiseIf_onTrail _ rfl).silent fun _ => onBooks_silent _

end Silence

/-- `initiate_payment` makes the call at most once. -/
theorem initiatePayment_atMostOnce (env : Env) (input : InitiateInput) (bill : Option Bill) :
    Txn.AtMostOnce Call.isInitiate (initiatePayment env input bill) := by
  have hkey : OnTrail (paymentByKey input.tenant input.idempotencyKey) :=
    Txn.frame_ite (Txn.frame_ret _) (Txn.frame_fetch _ _)
  refine Txn.atMostOnce_after hkey.silent fun found => ?_
  cases found with
  | some existing =>
      exact (Txn.silent_bind (recordAuditEvent_onTrail _ _ _ _ _ _).silent fun _ =>
        Txn.silent_ret _).atMostOnce
  | none =>
      refine Txn.atMostOnce_after (getRow_onTrail _ _).silent fun tenant => ?_
      refine Txn.atMostOnce_after insertPayment_silent fun _ => ?_
      refine Txn.atMostOnce_after (recordAuditEvent_onTrail _ _ _ _ _ _).silent fun _ => ?_
      refine Txn.atMostOnce_after ?_ fun adapter => ?_
      · unfold getAdapter
        split
        · exact Txn.silent_ret _
        · exact Txn.silent_throw _
      · exact Txn.atMostOnce_before (Txn.atMostOnce_invoke _) fun _ => onInitiated_silent _ _

/-- The call that a request makes is permitted to it. -/
theorem handler_permits {request : Request} {s : DB} (hunique : (s.payments.map (·.id)).Nodup)
    {call : Call} (h : call ∈ request.handler.calls s) :
    request.action.Permits (View.alone s.toDirectory s.toBooks) call := by
  cases hsaves : request.action.savesTenant with
  | true =>
      obtain ⟨env, action⟩ := request
      cases action with
      | changeFeeRefundPolicy => cases h
      | changeDefaultCurrency tenant currency =>
          have hnone : (changeDefaultCurrency tenant currency).calls s = [] := by
            rw [changeDefaultCurrency, Txn.calls_bind, (checkVarchar_onTrail 3 currency).calls]
            cases (checkVarchar 3 currency).exec s <;> rfl
          have hcall : call ∈ (changeDefaultCurrency tenant currency).calls s := h
          rw [hnone] at hcall
          cases hcall
      | _ => cases hsaves
  | false =>
      have hwp := wp_handler (φ := fun _ v => v = s) request hsaves fun _ v hv => hv ▸ hunique
      rw [viewOf_alone] at hwp
      exact Txn.calls_of_wp hwp call h

/-- No request calls `adapter.initiate_payment` twice. -/
theorem handler_atMostOnce (request : Request) {s : DB}
    (hunique : (s.payments.map (·.id)).Nodup) :
    (request.handler.calls s).countP Call.isInitiate ≤ 1 := by
  have hother : (∀ call, request.action.Permits (View.alone s.toDirectory s.toBooks) call →
      call.isInitiate = false) → (request.handler.calls s).countP Call.isInitiate ≤ 1 := by
    intro hnone
    have hzero : (request.handler.calls s).countP Call.isInitiate = 0 :=
      List.countP_eq_zero.mpr fun call hcall => by
        rw [hnone call (handler_permits hunique hcall)]
        exact Bool.false_ne_true
    rw [hzero]
    exact Nat.zero_le 1
  cases haction : request.action with
  | payBill tenant pk code amount payer metadata =>
      rw [Request.handler, haction]
      refine Txn.atMostOnce_after (getOr404_onTrail _ _).silent (fun bill => ?_) s
      refine Txn.atMostOnce_after (Txn.silent_fetch _ _) fun found => ?_
      cases found with
      | none => exact (Txn.silent_ret _).atMostOnce
      | some cn =>
          exact Txn.atMostOnce_after (getRow_onTrail _ _).silent fun provider =>
            Txn.atMostOnce_before (initiatePayment_atMostOnce _ _ _) fun _ => Txn.silent_ret _
  | paymentListCreate tenant value code channel amount payer key metadata =>
      rw [Request.handler, haction]
      refine Txn.atMostOnce_after (getOr404_onTrail _ _).silent (fun cn => ?_) s
      exact Txn.atMostOnce_after (getOr404_onTrail _ _).silent fun provider =>
        Txn.atMostOnce_before (initiatePayment_atMostOnce _ _ _) fun _ => Txn.silent_ret _
  | _ =>
      refine hother fun call hpermits => ?_
      rw [haction] at hpermits
      cases call with
      | initiatePayment args => exact (hpermits args rfl).2.elim
      | _ => rfl

end Kusanya
