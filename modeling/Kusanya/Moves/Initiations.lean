import Kusanya.Moves.Calls
import Kusanya.Moves.Outbox

/-!
# Initiations

Which initiations reach the provider, and which requests are initiations.
-/

namespace Kusanya

open ReadCommitted

/-! ## Which initiations reach the provider -/

/-- The payment that the idempotency key finds. -/
def DB.paymentWithKey (db : DB) (tenant : ℕ) (key : String) : Option Payment :=
  if key = "" then none
  else db.payments.find? fun p => p.tenant = tenant && p.idempotencyKey = key

/-- The row of the tenant exists, every column of the payment and of its audit row holds its text,
no unique key is taken and the provider has an adapter. -/
def InitiateInput.accepted (env : Env) (input : InitiateInput) (db : DB) : Bool :=
  match db.tenants.find? (·.id = input.tenant) with
  | none => false
  | some tenant =>
      input.payerReference.length ≤ 100 && Varchar 100 input.idempotencyKey &&
        !db.toBooks.paymentClash (input.newPayment env tenant.defaultCurrency) &&
          env.Auditable && (env.registry input.provider.code).isSome

/-- No earlier payment has the key, and nothing stands in the way of the new one. -/
def InitiateInput.reaches (env : Env) (input : InitiateInput) (db : DB) : Bool :=
  (db.paymentWithKey input.tenant input.idempotencyKey).isNone && input.accepted env db

section Initiation

variable {env : Env} {input : InitiateInput} {s : DB}

theorem exec_paymentByKey (tenant : ℕ) (key : String) (s : DB) :
    (paymentByKey tenant key).exec s = .ok (s.paymentWithKey tenant key, s) := by
  unfold paymentByKey DB.paymentWithKey
  by_cases hkey : key = ""
  · simp [hkey]
  · simp [hkey]

theorem paymentByKey_onTrail (tenant : ℕ) (key : String) : OnTrail (paymentByKey tenant key) :=
  Txn.frame_ite (Txn.frame_ret _) (Txn.frame_fetch _ _)

theorem exec_insertPayment (payment : Payment) (s : DB) :
    (insertPayment payment).exec s =
      if 100 < payment.payerReference.length then .error .valueError
      else if Varchar 100 payment.idempotencyKey then
        if s.toBooks.paymentClash payment then .error .integrityError
        else .ok ((), inBooks (·.addPayment payment) s)
      else .error .dataError := by
  unfold insertPayment
  rw [Txn.exec_bind, exec_raiseIf]
  by_cases hpayer : 100 < payment.payerReference.length
  · rw [if_pos hpayer, if_pos hpayer]
  · rw [if_neg hpayer, if_neg hpayer]
    simp only [Txn.exec_bind, exec_checkVarchar]
    by_cases hkey : Varchar 100 payment.idempotencyKey
    · rw [if_pos hkey, if_pos hkey]
      simp only [Txn.exec_acquire, exec_acquireUnlessBlank, Txn.exec_fetch, exec_raiseIf]
      by_cases hclash : s.toBooks.paymentClash payment = true
      · rw [if_pos hclash, if_pos hclash]
      · rw [if_neg hclash, if_neg hclash]
        rfl
    · rw [if_neg hkey, if_neg hkey]

theorem exec_insertPayment_ok {payment : Payment} {t : DB}
    (h : (insertPayment payment).exec s = .ok ((), t)) :
    payment.payerReference.length ≤ 100 ∧ Varchar 100 payment.idempotencyKey ∧
      s.toBooks.paymentClash payment = false ∧ t = inBooks (·.addPayment payment) s := by
  rw [exec_insertPayment] at h
  by_cases hpayer : 100 < payment.payerReference.length
  · rw [if_pos hpayer] at h
    cases h
  · rw [if_neg hpayer] at h
    split at h
    · next hkey =>
        split at h
        · cases h
        · next hclash =>
            obtain ⟨-, rfl⟩ := Prod.mk.inj (Except.ok.inj h)
            exact ⟨not_lt.mp hpayer, hkey, Bool.not_eq_true _ ▸ hclash, rfl⟩
    · cases h

theorem exec_getAdapter_ok {provider : PaymentProvider} {adapter : Adapter} {t : DB}
    (h : (getAdapter env provider).exec s = .ok (adapter, t)) :
    env.registry provider.code = some adapter ∧ t = s := by
  unfold getAdapter at h
  split at h
  · next found hfound =>
      obtain ⟨rfl, rfl⟩ := Prod.mk.inj (Except.ok.inj h)
      exact ⟨hfound, rfl⟩
  · cases h

theorem exec_adapterOf {payment : Payment} {adapter : Adapter} {t : DB}
    (h : (adapterOf env payment).exec s = .ok (adapter, t)) :
    t = s ∧ ∃ provider, s.providers.find? (·.id = payment.provider) = some provider ∧
      env.registry provider.code = some adapter := by
  unfold adapterOf getProvider at h
  rw [Txn.exec_bind, exec_getRow] at h
  cases hprovider : s.providers.find? (·.id = payment.provider) with
  | none =>
      rw [hprovider] at h
      cases h
  | some provider =>
      rw [hprovider] at h
      obtain ⟨hadapter, rfl⟩ := exec_getAdapter_ok h
      exact ⟨rfl, provider, rfl, hadapter⟩

theorem exec_askProvider {α : Type} {call : Call} {answer : Except AdapterError α} {result : α}
    {t : DB}
    (h : (askProvider call answer).exec s = .ok (result, t)) :
    t = s ∧ answer = .ok result ∧ (askProvider call answer).calls s = [call] := by
  unfold askProvider at h ⊢
  rw [Txn.exec_bind, Txn.exec_invoke] at h
  cases answer with
  | error e => cases h
  | ok result' =>
      obtain ⟨rfl, rfl⟩ := Prod.mk.inj (Except.ok.inj h)
      exact ⟨rfl, rfl, rfl⟩

theorem getAdapter_silent (provider : PaymentProvider) {κ : Call → Bool} :
    Txn.Silent κ (getAdapter env provider) := by
  unfold getAdapter
  split
  · exact Txn.silent_ret _
  · exact Txn.silent_throw _

/-- An initiation that reaches the provider opens a payment, calls the adapter once and goes on
with the answer. -/
theorem initiatePayment_reached (bill : Option Bill) (hreaches : input.reaches env s = true) :
    ∃ tenant adapter payment row, s.tenants.find? (·.id = input.tenant) = some tenant ∧
      env.registry input.provider.code = some adapter ∧
      payment = input.newPayment env tenant.defaultCurrency ∧
      s.toBooks.paymentClash payment = false ∧
      (initiatePayment env input bill).calls s = [.initiatePayment (input.call payment)] ∧
      (initiatePayment env input bill).exec s =
        (onInitiated env payment (input.related bill)
          (adapter.initiatePayment (input.call payment))).exec
            (inTrail (·.addAudit row) (inBooks (·.addPayment payment) s)) := by
  simp only [InitiateInput.reaches, Bool.and_eq_true, Option.isNone_iff_eq_none] at hreaches
  obtain ⟨hkey, haccepted⟩ := hreaches
  unfold InitiateInput.accepted at haccepted
  cases htenant : s.tenants.find? (·.id = input.tenant) with
  | none =>
      rw [htenant] at haccepted
      cases haccepted
  | some tenant =>
      rw [htenant] at haccepted
      simp only [Bool.and_eq_true, decide_eq_true_eq, Bool.not_eq_true'] at haccepted
      obtain ⟨⟨⟨⟨hpayer, hlength⟩, hclash⟩, hauditable⟩, hadapter⟩ := haccepted
      obtain ⟨adapter, hadapter⟩ := Option.isSome_iff_exists.mp hadapter
      obtain ⟨payment, hpayment⟩ :
          ∃ payment, payment = input.newPayment env tenant.defaultCurrency := ⟨_, rfl⟩
      have hget : (getTenant input.tenant).exec s = .ok (tenant, s) := by
        rw [getTenant, exec_getRow, htenant]
      have hpayer' : ¬100 < payment.payerReference.length := hpayment ▸ not_lt.mpr hpayer
      have hlength' : Varchar 100 payment.idempotencyKey := hpayment ▸ hlength
      rw [← hpayment] at hclash
      have hinsert := exec_insertPayment payment s
      rw [if_neg hpayer', if_pos hlength', hclash] at hinsert
      have hserves : ∀ u, (getAdapter env input.provider).exec u = .ok (adapter, u) := by
        intro u
        rw [getAdapter, hadapter]
        rfl
      obtain ⟨row, haudit⟩ : ∃ row, ∀ u, (recordAuditEvent env "payment.initiated"
          (some input.tenant) (some (.payment payment.id))).exec u =
            .ok ((), inTrail (·.addAudit row) u) := by
        simp only [exec_recordAuditEvent, if_pos hauditable]
        exact ⟨_, fun _ => rfl⟩
      refine ⟨tenant, adapter, payment, row, rfl, hadapter, hpayment, hclash, ?_, ?_⟩
      · unfold initiatePayment
        rw [Txn.calls_bind, exec_paymentByKey, hkey, (paymentByKey_onTrail _ _).calls]
        dsimp only
        rw [Txn.calls_bind_ok _ hget, getTenant, (getRow_onTrail _ _).calls]
        rw [← hpayment, Txn.calls_bind, hinsert, insertPayment_silent.calls]
        simp only [Bool.false_eq_true, if_false]
        rw [Txn.calls_bind_ok _ (haudit _), (recordAuditEvent_onTrail _ _ _ _ _ _).calls,
          Txn.calls_bind_ok _ (hserves _), (getAdapter_silent _).calls,
          Txn.calls_bind_ok _ (Txn.exec_invoke _ _), (onInitiated_silent _ _).calls]
        rfl
      · unfold initiatePayment
        rw [Txn.exec_bind, exec_paymentByKey, hkey]
        dsimp only
        rw [Txn.exec_bind, hget]
        dsimp only
        rw [← hpayment, Txn.exec_bind, hinsert]
        simp only [Bool.false_eq_true, if_false]
        rw [Txn.exec_bind, haudit]
        dsimp only
        rw [Txn.exec_bind, hserves]
        rfl

/-- Before the provider is called an audit row has been stored. -/
theorem auditable_of_reaches (hreaches : input.reaches env s = true) : env.Auditable := by
  simp only [InitiateInput.reaches, InitiateInput.accepted, Bool.and_eq_true] at hreaches
  cases htenant : s.tenants.find? (·.id = input.tenant) with
  | none =>
      rw [htenant] at hreaches
      cases hreaches.2
  | some tenant =>
      rw [htenant] at hreaches
      simp only [Bool.and_eq_true, decide_eq_true_eq] at hreaches
      exact hreaches.2.1.2

theorem initiatePayment_calls (bill : Option Bill) (hreaches : input.reaches env s = true) :
    (initiatePayment env input bill).calls s ≠ [] := by
  obtain ⟨tenant, adapter, payment, row, -, -, -, -, hcalls, -⟩ :=
    initiatePayment_reached bill hreaches
  rw [hcalls]
  exact List.cons_ne_nil _ _

/-- An initiation that does not reach the provider opens no payment. -/
theorem initiatePayment_refused (bill : Option Bill) (hreaches : input.reaches env s = false) :
    (initiatePayment env input bill).calls s = [] ∧
      ∀ a t, (initiatePayment env input bill).exec s = .ok (a, t) → t.payments = s.payments := by
  unfold initiatePayment
  rw [Txn.calls_bind, Txn.exec_bind, exec_paymentByKey, (paymentByKey_onTrail _ _).calls]
  cases hkey : s.paymentWithKey input.tenant input.idempotencyKey with
  | some existing =>
      dsimp only
      constructor
      · rw [Txn.calls_bind, (recordAuditEvent_onTrail _ _ _ _ _ _).calls]
        cases (recordAuditEvent env "payment.initiation_deduplicated" (some input.tenant)
          (some (.payment existing.id))).exec s <;> rfl
      · intro a t h
        obtain ⟨_, u, haudit, hret⟩ := (Txn.exec_bind_ok _).mp h
        obtain ⟨-, rfl⟩ := exec_recordAuditEvent_ok haudit
        obtain ⟨-, rfl⟩ := Prod.mk.inj (Except.ok.inj hret)
        rfl
  | none =>
      have haccepted : input.accepted env s = false := by
        simpa [InitiateInput.reaches, hkey] using hreaches
      dsimp only
      rw [Txn.calls_bind, Txn.exec_bind, getTenant, exec_getRow, (getRow_onTrail _ _).calls]
      unfold InitiateInput.accepted at haccepted
      cases htenant : s.tenants.find? (·.id = input.tenant) with
      | none => exact ⟨rfl, fun a t h => by cases h⟩
      | some tenant =>
          rw [htenant] at haccepted
          dsimp only at haccepted ⊢
          rw [Txn.calls_bind, Txn.exec_bind, insertPayment_silent.calls, exec_insertPayment]
          generalize hnew : input.newPayment env tenant.defaultCurrency = payment at haccepted ⊢
          have hpayer' : payment.payerReference = input.payerReference := by rw [← hnew]; rfl
          have hkey' : payment.idempotencyKey = input.idempotencyKey := by rw [← hnew]; rfl
          rw [hpayer', hkey']
          by_cases hpayer : 100 < input.payerReference.length
          · rw [if_pos hpayer]
            exact ⟨rfl, fun a t h => by cases h⟩
          · rw [if_neg hpayer]
            by_cases hlength : Varchar 100 input.idempotencyKey
            · rw [if_pos hlength]
              by_cases hclash : s.toBooks.paymentClash payment = true
              · rw [if_pos hclash]
                exact ⟨rfl, fun a t h => by cases h⟩
              · rw [if_neg hclash]
                simp only [hlength, not_lt.mp hpayer, Bool.not_eq_true] at haccepted hclash
                dsimp only
                rw [Txn.calls_bind, Txn.exec_bind, (recordAuditEvent_onTrail _ _ _ _ _ _).calls,
                  exec_recordAuditEvent]
                by_cases hauditable : env.Auditable
                · simp only [hclash, hauditable, decide_true, Bool.not_false, Bool.true_and,
                    Option.isSome_eq_false_iff, Option.isNone_iff_eq_none] at haccepted
                  rw [if_pos hauditable]
                  dsimp only
                  rw [Txn.calls_bind, Txn.exec_bind, (getAdapter_silent _).calls, getAdapter,
                    haccepted]
                  exact ⟨rfl, fun a t h => by cases h⟩
                · rw [if_neg hauditable]
                  exact ⟨rfl, fun a t h => by cases h⟩
            · rw [if_neg hlength]
              exact ⟨rfl, fun a t h => by cases h⟩

end Initiation

/-! ## Requests that pay a reference -/

/-- The arguments that a view passes to `initiate_payment`, where its lookups succeed. -/
def Request.initiation? (request : Request) (db : DB) : Option (InitiateInput × Option Bill) :=
  match request.action with
  | .payBill tenant billPk code amount payerReference metadata => do
      let bill ← db.bills.find? fun b => b.id = billPk && b.tenant = tenant
      let controlNumber ← db.controlNumbers.find? (·.owner = .bill bill.id)
      let provider ← db.providers.find? (·.code = code)
      pure ({ tenant, controlNumber, provider, payerReference, metadata
              amount := amount.toAmount
              amountText := amount.text
              channel := none
              idempotencyKey := "" }, some bill)
  | .paymentListCreate tenant value code channel amount payerReference idempotencyKey metadata => do
      let controlNumber ← db.controlNumbers.find? fun c => c.value = value && c.tenant = tenant
      let provider ← db.providers.find? (·.code = code)
      pure ({ tenant, controlNumber, provider, channel, amount, payerReference, idempotencyKey,
              metadata
              amountText := amount.cents.str }, none)
  | _ => none

section Requests

variable {request : Request} {s : DB} {input : InitiateInput} {bill : Option Bill}

theorem exec_getOr404 {α : Type} (what : Resource) (q : DB → Option α) (s : DB) :
    (getOr404 what q).exec s =
      match q s with
      | some row => .ok (row, s)
      | none => .error .http404 := by
  unfold getOr404
  rw [Txn.exec_bind, Txn.exec_fetch]
  cases q s <;> rfl

/-- What a view does once its lookups have succeeded. -/
def payAndForget (env : Env) (input : InitiateInput) (bill : Option Bill) : Tx Unit := do
  let _ ← initiatePayment env input bill
  pure ()

theorem payAndForget_calls (env : Env) (input : InitiateInput) (bill : Option Bill) (s : DB) :
    (payAndForget env input bill).calls s = (initiatePayment env input bill).calls s := by
  unfold payAndForget
  rw [Txn.calls_bind]
  cases (initiatePayment env input bill).exec s <;> exact List.append_nil _

/-- Before the view calls the service it has called nobody and written nothing. -/
theorem handler_initiation (h : request.initiation? s = some (input, bill)) :
    request.handler.calls s = (payAndForget request.env input bill).calls s ∧
      request.handler.exec s = (payAndForget request.env input bill).exec s := by
  obtain ⟨env, action⟩ := request
  cases action with
  | payBill tenant pk code amount payer metadata =>
      simp only [Request.initiation?, Option.bind_eq_bind, Option.bind_eq_some_iff,
        Option.pure_def, Option.some.injEq, Prod.mk.injEq] at h
      obtain ⟨row, hrow, cn, hcn, provider, hprovider, rfl, rfl⟩ := h
      unfold Request.handler payBill billOr404 controlNumberOfBill
      dsimp only
      rw [Txn.calls_bind, Txn.exec_bind, (getOr404_onTrail _ _).calls, exec_getOr404, hrow]
      dsimp only
      rw [Txn.calls_bind, Txn.exec_bind, Txn.exec_fetch, hcn]
      dsimp only
      rw [Txn.calls_bind, Txn.exec_bind, (getRow_onTrail _ _).calls, exec_getRow, hprovider]
      exact ⟨rfl, rfl⟩
  | paymentListCreate tenant value code channel amount payer key metadata =>
      simp only [Request.initiation?, Option.bind_eq_bind, Option.bind_eq_some_iff,
        Option.pure_def, Option.some.injEq, Prod.mk.injEq] at h
      obtain ⟨cn, hcn, provider, hprovider, rfl, rfl⟩ := h
      unfold Request.handler paymentListCreate providerOr404
      dsimp only
      rw [Txn.calls_bind, Txn.exec_bind, (getOr404_onTrail _ _).calls, exec_getOr404, hcn]
      dsimp only
      rw [Txn.calls_bind, Txn.exec_bind, (getOr404_onTrail _ _).calls, exec_getOr404, hprovider]
      exact ⟨rfl, rfl⟩
  | _ => cases h

end Requests

end Kusanya
