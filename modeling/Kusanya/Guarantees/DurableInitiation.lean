import Kusanya.Invariants.Runs
import Kusanya.Moves.Consequences
import Kusanya.ReadCommitted.Alone

/-!
# Payments that outlive the call to the provider

The merchant reference of a payment is to be "always known, even if the provider's response never
arrives".  The row is created before the adapter is called, but in the transaction of the request:
it is there afterwards exactly if the process does not crash before the commit and the adapter's
answer can be recorded without an exception.
-/

namespace Kusanya

open ReadCommitted

/-! ## Answers that can be recorded -/

/-- `initiate_payment` gets to its end with this answer of the adapter. -/
def Recordable (env : Env) (s : DB) (payment : Payment) (given : Related) :
    Except AdapterError ProviderResult → Prop
  | .error (.timeout _) => True
  | .error (.providerError message) | .error (.invalidSignature message) =>
      Varchar 255 message ∧ ∃ cn bill, s.related payment given = some (cn, bill) ∧
        Notified env s payment cn bill .paymentFailed []
  | .error .other => False
  | .ok result =>
      (Varchar 100 result.providerReference ∧ result.rawResponse.isSome = true) ∧
        Applies env s payment given result.outcome

/-- The answer that the adapter gives to this initiation can be recorded. -/
def InitiateInput.Withstands (env : Env) (input : InitiateInput) (bill : Option Bill) (s : DB) :
    Prop :=
  ∃ tenant adapter, s.tenants.find? (·.id = input.tenant) = some tenant ∧
    env.registry input.provider.code = some adapter ∧
    Recordable env s (input.newPayment env tenant.defaultCurrency)
      (input.related bill)
      (adapter.initiatePayment (input.call (input.newPayment env tenant.defaultCurrency)))

section Answers

variable {env : Env} {s t : DB} {payment : Payment} {given : Related}

theorem recordable_congr (h : t.looked = s.looked) (answer : Except AdapterError ProviderResult) :
    Recordable env t payment given answer ↔ Recordable env s payment given answer := by
  have hrelated := related_congr h payment given
  have hnotified : ∀ cn bill, Notified env t payment cn bill .paymentFailed [] ↔
      Notified env s payment cn bill .paymentFailed [] := fun cn bill =>
    notified_congr (congrArg (·.1) h) rfl rfl rfl _ _
  cases answer with
  | error e =>
      cases e with
      | timeout message => exact Iff.rfl
      | other => exact Iff.rfl
      | _ => simp only [Recordable, hrelated, hnotified]
  | ok result =>
      exact and_congr_right fun _ => applies_congr h rfl rfl rfl rfl rfl rfl rfl rfl rfl _

theorem moveTo_failureReason (now : Time) (new : PaymentStatus) (reason : String) :
    (payment.moveTo now new reason).failureReason =
      if reason = "" then payment.failureReason else reason := rfl

/-- The columns take what the provider has answered. -/
theorem exec_saveProviderResult_fits (s : DB) (payment : Payment) {result : ProviderResult}
    (h : Varchar 100 result.providerReference ∧ result.rawResponse.isSome = true) :
    ∃ u saved, (saveProviderResult payment result).exec s = .ok (saved, u) ∧
      u.looked = s.looked ∧
      saved = payment.refer result.providerReference result.rawResponse := by
  obtain ⟨raw, hraw⟩ := Option.isSome_iff_exists.mp h.2
  rw [saveProviderResult, Txn.exec_bind, exec_checkVarchar, if_pos h.1]
  dsimp only
  rw [Txn.exec_bind, exec_storeJson, hraw]
  exact ⟨_, _, rfl, rfl, rfl⟩

theorem saveProviderResult_fits {result : ProviderResult} {saved : Payment}
    (h : (saveProviderResult payment result).exec s = .ok (saved, t)) :
    Varchar 100 result.providerReference ∧ result.rawResponse.isSome = true := by
  obtain ⟨_, s₁, hcheck, h₁⟩ := (Txn.exec_bind_ok _).mp h
  obtain ⟨raw, s₂, hstore, -⟩ := (Txn.exec_bind_ok _).mp h₁
  have hjson := (exec_storeJson_ok hstore).1
  exact ⟨(exec_checkVarchar_ok hcheck).1, by rw [hjson]; rfl⟩

variable (hauditable : env.Auditable) (hstatus : payment.status = .initiated)

include hauditable hstatus

theorem completes_onTimeout : Completes (onTimeout env payment) s := by
  have hallowed : PaymentStatus.unknown ∈ payment.status.allowedTransitions := by
    rw [hstatus]
    decide
  have hreason : Varchar 255 (payment.moveTo env.now .unknown timeoutReason).failureReason := by
    rw [moveTo_failureReason, if_neg (by decide)]
    decide
  have hmove := exec_transitionTo env payment .unknown timeoutReason s
  rw [if_pos hallowed, if_pos hreason] at hmove
  rw [onTimeout, completes_bind hmove, completes_bind_iff fun _ _ => completes_ret _ _]
  exact completes_recordAuditEvent.mpr hauditable

theorem completes_onProviderError {message : String} (hreason : payment.failureReason = "") :
    Completes (onProviderError env payment given message) s ↔
      Varchar 255 message ∧ ∃ cn bill, s.related payment given = some (cn, bill) ∧
        Notified env s payment cn bill .paymentFailed [] := by
  have hallowed : PaymentStatus.failed ∈ payment.status.allowedTransitions := by
    rw [hstatus]
    decide
  have hnew : (payment.moveTo env.now .failed message).failureReason = message := by
    rw [moveTo_failureReason, hreason]
    by_cases hblank : message = ""
    · rw [if_pos hblank, hblank]
    · rw [if_neg hblank]
  have hmove := exec_transitionTo env payment .failed message s
  rw [if_pos hallowed, hnew] at hmove
  by_cases hfits : Varchar 255 message
  · rw [if_pos hfits] at hmove
    obtain ⟨s₁, hs₁, hlooked₁⟩ : ∃ u, u = inBooks (·.updatePayment payment.id
        (payment.moveTo env.now .failed message).saveStatus) s ∧ u.looked = s.looked :=
      ⟨_, rfl, rfl⟩
    obtain ⟨moved, hmoved, hfixed⟩ : ∃ moved, moved = payment.moveTo env.now .failed message ∧
        moved.fixed = payment.fixed := ⟨_, rfl, rfl⟩
    rw [← hs₁, ← hmoved] at hmove
    obtain ⟨s₂, haudit, hlooked₂⟩ := exec_audited hauditable "payment.failed" (some moved.tenant)
      (some (.payment moved.id)) [] [("reason", message)] s₁
    obtain ⟨u, hrecord, hlooked₃⟩ : ∃ u, (recordPaymentFailed env moved).exec s₂ = .ok ((), u) ∧
        u.looked = s₂.looked := ⟨_, exec_recordEvent _ hauditable.1 _ _ _ _ _ _ _, rfl⟩
    have hu : u.looked = s.looked := hlooked₃.trans (hlooked₂.trans hlooked₁)
    have hrelated : u.related moved given = s.related payment given := by
      have hnumber : moved.controlNumber = payment.controlNumber :=
        congrArg Payment.Fixed.controlNumber hfixed
      rw [related_congr hu]
      unfold DB.related DB.numberOf
      rw [hnumber]
    have hnotified : ∀ cn bill, Notified env u moved cn bill .paymentFailed [] ↔
        Notified env s payment cn bill .paymentFailed [] := fun cn bill =>
      notified_congr (congrArg (·.1) hu) rfl (congrArg Payment.Fixed.tenant hfixed)
        (congrArg Payment.Fixed.merchantReference hfixed) _ _
    rw [onProviderError, completes_bind hmove, completes_bind haudit, completes_bind hrecord,
      (looks_loadRelated moved given).completes_bind]
    simp only [completes_bind_iff fun _ _ => completes_ret _ _, completes_notify, hrelated,
      hnotified]
    constructor
    · rintro ⟨⟨cn, bill⟩, hfound, hsent⟩
      exact ⟨hfits, cn, bill, hfound, hsent⟩
    · rintro ⟨-, cn, bill, hfound, hsent⟩
      exact ⟨(cn, bill), hfound, hsent⟩
  · rw [if_neg hfits] at hmove
    exact ⟨fun h => absurd h (completes_bind_error hmove), fun h => absurd h.1 hfits⟩

/-- `initiate_payment` gets to its end with the answers that can be recorded, and no others. -/
theorem completes_onInitiated (hreason : payment.failureReason = "")
    (answer : Except AdapterError ProviderResult) :
    Completes (onInitiated env payment given answer) s ↔ Recordable env s payment given answer := by
  cases answer with
  | error e =>
      cases e with
      | timeout message => exact iff_of_true (completes_onTimeout hauditable hstatus) trivial
      | providerError message => exact completes_onProviderError hauditable hstatus hreason
      | invalidSignature message => exact completes_onProviderError hauditable hstatus hreason
      | other => exact iff_of_false (not_completes_of_error rfl) fun h => h
  | ok result =>
      rw [onInitiated, Recordable]
      by_cases hfits : Varchar 100 result.providerReference ∧ result.rawResponse.isSome = true
      · obtain ⟨u, saved, hsaved, hu, rfl⟩ := exec_saveProviderResult_fits s payment hfits
        rw [completes_bind hsaved, completes_applyOutcome,
          applies_congr hu rfl rfl rfl rfl rfl rfl rfl rfl rfl]
        exact (and_iff_right hfits).symm
      · refine iff_of_false (fun h => ?_) fun h => hfits h.1
        obtain ⟨saved, u, hsaved, -⟩ := completes_bind_exists.mp h
        exact hfits (saveProviderResult_fits hsaved)

end Answers

/-! ## Rows that stay -/

/-- The merchant references in the database. -/
def DB.merchantReferences (s : DB) : List String := s.payments.map (·.merchantReference)

theorem mem_merchantReferences {s : DB} {reference : String} :
    reference ∈ s.merchantReferences ↔ ∃ row ∈ s.payments, row.merchantReference = reference :=
  List.mem_map

section Rows

variable {env : Env} {payment : Payment} {given : Related}

theorem keeps_onTrail {α : Type} {p : Tx α} (hp : OnTrail p) : p.Keeps DB.merchantReferences := by
  intro s a t h
  have hpayments : t.payments = s.payments :=
    congrArg (fun core : Directory × Books => core.2.payments) (hp.exec h)
  rw [DB.merchantReferences, DB.merchantReferences, hpayments]

theorem keeps_raiseIf (c : Prop) [Decidable c] (e : Error) :
    (raiseIf c e).Keeps DB.merchantReferences :=
  Txn.keeps_ite (Txn.keeps_throw _) (Txn.keeps_ret _)

theorem keeps_updatePayment (id : ℕ) {f : Payment → Payment}
    (hf : ∀ row, (f row).merchantReference = row.merchantReference) :
    (onBooks (·.updatePayment id f) : Tx Unit).Keeps DB.merchantReferences := by
  apply Txn.keeps_modify
  intro s
  change (s.payments.map fun row => if row.id = id then f row else row).map
    (·.merchantReference) = s.payments.map (·.merchantReference)
  rw [List.map_map]
  apply List.map_congr_left
  intro row _
  by_cases hid : row.id = id
  · simp [hid, hf]
  · simp [hid]

theorem keeps_transitionTo (new : PaymentStatus) (reason : String) :
    (payment.transitionTo env new reason).Keeps DB.merchantReferences :=
  Txn.keeps_bind (keeps_raiseIf _ _) fun _ =>
    Txn.keeps_bind (keeps_onTrail (checkVarchar_onTrail _ _)) fun _ =>
      Txn.keeps_bind (Txn.keeps_acquire _) fun _ =>
        Txn.keeps_bind (keeps_updatePayment _ fun _ => rfl) fun _ => Txn.keeps_ret _

theorem keeps_onEntered (target : PaymentStatus) :
    (onEntered env payment given target).Keeps DB.merchantReferences := by
  have hpending : (onPending env payment given).Keeps DB.merchantReferences :=
    keeps_onTrail onPending_onTrail
  have hfailed : (onFailed env payment given).Keeps DB.merchantReferences :=
    Txn.keeps_bind (keeps_onTrail (recordAuditEvent_onTrail _ _ _ _ _ _)) fun _ =>
      Txn.keeps_bind (recordEvent_keeps (fun _ _ => rfl) _ _ _ _ _ _ _) fun _ =>
        Txn.keeps_bind (keeps_onTrail (loadRelated_onTrail _ _)) fun _ =>
          Txn.keeps_bind (keeps_onTrail (notify_onTrail _ _ _ _ _ _)) fun _ =>
            keeps_onTrail (dispatch_onTrail _ _ _ _ _ _)
  have hpost : (postSettlementLedgerEntries env payment).Keeps DB.merchantReferences :=
    postSettlementLedgerEntries_keeps fun _ _ => rfl
  have hrecord : (recordPaymentSuccessful env payment).Keeps DB.merchantReferences :=
    recordPaymentSuccessful_keeps (fun _ _ => rfl) fun _ _ => rfl
  have hallocate : ∀ bill, (allocateToBill env payment bill).Keeps DB.merchantReferences := by
    intro bill s a t h
    rw [exec_allocateToBill_eq] at h
    obtain ⟨-, rfl⟩ := Prod.mk.inj (Except.ok.inj h)
    unfold DB.merchantReferences DB.allocated inBooks Books.enterBill
    cases bill with
    | none => rfl
    | some bill =>
        cases s.toBooks.entered payment (some bill) with
        | none => rfl
        | some status => rfl
  have hreceipt : ∀ cn bill, (generateReceipt env payment cn bill).Keeps DB.merchantReferences := by
    intro cn bill s a t h
    rw [generateReceipt_exec h]
    cases s.receiptFor env payment cn bill with
    | none => rfl
    | some receipt => rfl
  cases target with
  | successful =>
      exact Txn.keeps_bind (keeps_onTrail (recordAuditEvent_onTrail _ _ _ _ _ _)) fun _ =>
        Txn.keeps_bind hpost fun _ =>
          Txn.keeps_bind hrecord fun _ =>
            Txn.keeps_bind (keeps_onTrail (loadRelated_onTrail _ _)) fun _ =>
              Txn.keeps_bind (hallocate _) fun _ =>
                Txn.keeps_bind (hreceipt _ _) fun _ =>
                  Txn.keeps_bind (keeps_onTrail (notifyPaymentSuccessful_onTrail _ _ _ _ _ _))
                    fun _ => keeps_onTrail (dispatch_onTrail _ _ _ _ _ _)
  | failed => exact hfailed
  | _ => exact hpending

theorem keeps_applyOutcome (outcome : ProviderOutcome) :
    (applyOutcome env payment given outcome).Keeps DB.merchantReferences := by
  unfold applyOutcome
  split
  · exact Txn.keeps_ite
      (Txn.keeps_bind (keeps_transitionTo _ _) fun _ =>
        Txn.keeps_bind (keeps_onTrail (recordAuditEvent_onTrail _ _ _ _ _ _)) fun _ =>
          Txn.keeps_ret _) (Txn.keeps_ret _)
  · exact Txn.keeps_ite (Txn.keeps_ret _)
      (Txn.keeps_bind (keeps_transitionTo _ _) fun _ =>
        Txn.keeps_bind (keeps_onEntered _) fun _ => Txn.keeps_ret _)

/-- Nothing that follows the answer removes a payment. -/
theorem keeps_onInitiated (answer : Except AdapterError ProviderResult) :
    (onInitiated env payment given answer).Keeps DB.merchantReferences := by
  have herror : ∀ message,
      (onProviderError env payment given message).Keeps DB.merchantReferences := fun message =>
      Txn.keeps_bind (keeps_transitionTo _ _) fun _ =>
        Txn.keeps_bind (keeps_onTrail (recordAuditEvent_onTrail _ _ _ _ _ _)) fun _ =>
          Txn.keeps_bind (recordEvent_keeps (fun _ _ => rfl) _ _ _ _ _ _ _) fun _ =>
            Txn.keeps_bind (keeps_onTrail (loadRelated_onTrail _ _)) fun _ =>
              Txn.keeps_bind (keeps_onTrail (notify_onTrail _ _ _ _ _ _)) fun _ => Txn.keeps_ret _
  cases answer with
  | ok result =>
      refine Txn.keeps_bind ?_ fun _ => keeps_applyOutcome _
      exact Txn.keeps_bind (keeps_onTrail (checkVarchar_onTrail _ _)) fun _ =>
        Txn.keeps_bind (keeps_onTrail (storeJson_onTrail _)) fun _ =>
          Txn.keeps_bind (Txn.keeps_acquire _) fun _ =>
            Txn.keeps_bind (keeps_updatePayment _ fun _ => rfl) fun _ => Txn.keeps_ret _
  | error e =>
      cases e with
      | timeout message =>
          exact Txn.keeps_bind (keeps_transitionTo _ _) fun _ =>
            Txn.keeps_bind (keeps_onTrail (recordAuditEvent_onTrail _ _ _ _ _ _)) fun _ =>
              Txn.keeps_ret _
      | providerError message => exact herror message
      | invalidSignature message => exact herror message
      | other => exact Txn.keeps_throw _

end Rows

/-! ## Initiations -/

section Initiations

variable {request : Request} {s : DB} {input : InitiateInput} {bill : Option Bill}
  {args : InitiateCall}

/-- An initiation that has called the provider ends normally exactly if it can record the answer,
and then leaves a row with the reference; before, no row had it. -/
theorem initiation_called (h : request.initiation? s = some (input, bill))
    (hcalled : Call.initiatePayment args ∈ request.handler.calls s) :
    args.merchantReference ∉ s.merchantReferences ∧
      (Completes request.handler s ↔ input.Withstands request.env bill s) ∧
      ∀ t, request.handler.exec s = .ok ((), t) →
        args.merchantReference ∈ t.merchantReferences := by
  obtain ⟨hcalls, hexec⟩ := handler_initiation h
  rw [hcalls, payAndForget_calls] at hcalled
  have hreaches : input.reaches request.env s = true := by
    by_contra hrefused
    rw [(initiatePayment_refused bill (Bool.not_eq_true _ ▸ hrefused)).1] at hcalled
    cases hcalled
  obtain ⟨tenant, adapter, payment, row, htenant, hserves, hpayment, hclash, honly, hgoes⟩ :=
    initiatePayment_reached bill hreaches
  rw [honly] at hcalled
  obtain rfl : args = input.call payment :=
    Call.initiatePayment.inj (List.mem_singleton.mp hcalled)
  have hstatus : payment.status = .initiated := hpayment ▸ rfl
  have hreason : payment.failureReason = "" := hpayment ▸ rfl
  obtain ⟨u, hu, hlooked, hadded⟩ : ∃ u, u = inTrail (·.addAudit row)
      (inBooks (·.addPayment payment) s) ∧ u.looked = s.looked ∧
        u.merchantReferences = s.merchantReferences ++ [payment.merchantReference] :=
    ⟨_, rfl, rfl, List.map_append⟩
  rw [← hu] at hgoes
  refine ⟨?_, ?_, ?_⟩
  · intro hmem
    obtain ⟨other, hother, hsame⟩ := mem_merchantReferences.mp hmem
    have hfree := List.any_eq_false.mp hclash other hother
    have hreference : other.merchantReference = payment.merchantReference := hsame
    simp [hreference] at hfree
  · have hhandler : Completes request.handler s ↔
        Completes (initiatePayment request.env input bill) s := by
      have hforget : Completes (payAndForget request.env input bill) s ↔
          Completes (initiatePayment request.env input bill) s :=
        completes_bind_iff fun _ _ => completes_ret _ _
      rw [← hforget, Completes, Completes, hexec]
    rw [hhandler, Completes, hgoes]
    refine (completes_onInitiated (auditable_of_reaches hreaches) hstatus hreason _).trans
      ((recordable_congr hlooked _).trans ?_)
    rw [hpayment]
    constructor
    · exact fun hrecords => ⟨tenant, adapter, htenant, hserves, hrecords⟩
    · rintro ⟨tenant', adapter', htenant', hserves', hrecords⟩
      obtain rfl := Option.some.inj (htenant.symm.trans htenant')
      obtain rfl := Option.some.inj (hserves.symm.trans hserves')
      exact hrecords
  · intro t hok
    rw [hexec] at hok
    obtain ⟨after, v, hpays, hret⟩ := (Txn.exec_bind_ok _).mp hok
    obtain ⟨-, rfl⟩ := Prod.mk.inj (Except.ok.inj hret)
    rw [hgoes] at hpays
    rw [keeps_onInitiated _ _ _ _ hpays, hadded]
    exact List.mem_append_right _ (List.mem_singleton_self _)

end Initiations

/-- A payment of 40.00 on the bill that has just been issued, through `adapter`. -/
abbrev payThrough (adapter : Adapter) : Config DB Resource Error Call Unit :=
  Config.start (afterAll smallInstallation [issueBill])
    [(payIssuedBill 2 adapter (amountOf 4000)).handler]

/-- Turns enough for the request to end. -/
def undisturbed : List Event := List.replicate 80 (.advance 0)

/-- What the provider is asked. -/
def askedToPay : InitiateCall where
  amount := amountOf 4000
  currency := "TZS"
  controlNumber := "1"
  payerReference := "0700"
  merchantReference := "2"
  metadata := []

/-- The reason that such a provider gives. -/
def longReason : String := String.ofList (List.replicate 256 'x')

/-- A provider that refuses every payment with a reason of 256 characters. -/
def verboseRefusal : Adapter :=
  { answering .failed "p" "" with
    initiatePayment := fun _ => .error (.providerError longReason) }

end Kusanya
