import Kusanya.Moves.Basic
import Kusanya.ReadCommitted.Sequential

/-!
# Rules for the statements

The weakest precondition of each statement of `Model.Tables`, and of the two
`transition_to` methods.  All are exact, so that the same rule serves to say what
a handler did and why it raised.
-/

namespace Kusanya

open ReadCommitted Support

variable {κ : Call → Prop} {φ : Resource → DB → Prop} {pend : DB → DB}

/-- The write of a statement on the money tables. -/
def inBooks (w : Books → Books) (db : DB) : DB := { db with toBooks := w db.toBooks }

/-- The write of a statement on the trail. -/
def inTrail (w : Trail → Trail) (db : DB) : DB := { db with toTrail := w db.toTrail }

section Statements

variable {α : Type} {R : Error → (DB → DB) → Prop}

@[simp] theorem inBooks_core (w : Books → Books) (db : DB) :
    (inBooks w db).core = (db.toDirectory, w db.toBooks) := rfl

@[simp] theorem inTrail_core (w : Trail → Trail) (db : DB) : (inTrail w db).core = db.core := rfl

theorem writes_inBooks (w : Books → Books) (pend : DB → DB) :
    Writes w pend (inBooks w ∘ pend) :=
  fun _ => rfl

@[simp] theorem wp_onBooks {Q : Unit → (DB → DB) → Prop} (w : Books → Books) :
    (onBooks w).wp κ φ pend Q R ↔ Q () (inBooks w ∘ pend) := Iff.rfl

@[simp] theorem wp_onTrail {Q : Unit → (DB → DB) → Prop} (w : Trail → Trail) :
    (onTrail w).wp κ φ pend Q R ↔ Q () (inTrail w ∘ pend) := Iff.rfl

@[simp] theorem wp_raiseIf {Q : Unit → (DB → DB) → Prop} (c : Prop) [Decidable c] (e : Error) :
    (raiseIf c e).wp κ φ pend Q R ↔ (c → R e pend) ∧ (¬c → Q () pend) := by
  unfold raiseIf
  rw [Txn.wp_ite]
  rfl

@[simp] theorem wp_checkVarchar {Q : Unit → (DB → DB) → Prop} (n : ℕ) (text : String) :
    (checkVarchar n text).wp κ φ pend Q R ↔
      (Varchar n text → Q () pend) ∧ (¬Varchar n text → R .dataError pend) := by
  unfold checkVarchar
  rw [Txn.wp_ite]
  rfl

@[simp] theorem wp_checkParameter {Q : Unit → (DB → DB) → Prop} (text : String) :
    (checkParameter text).wp κ φ pend Q R ↔
      ('\x00' ∈ text.toList → R .dataError pend) ∧ ('\x00' ∉ text.toList → Q () pend) := by
  unfold checkParameter
  rw [Txn.wp_ite]
  rfl

@[simp] theorem wp_storeJson {Q : String → (DB → DB) → Prop} (json : Option String) :
    (storeJson json).wp κ φ pend Q R ↔
      (∀ text, json = some text → Q text pend) ∧ (json = none → R .dataError pend) := by
  unfold storeJson
  cases json <;> simp

@[simp] theorem wp_storeCorrelationId {Q : Unit → (DB → DB) → Prop} (correlationId : Text) :
    (storeCorrelationId correlationId).wp κ φ pend Q R ↔
      (¬Text.Fits 64 correlationId → R .dataError pend) ∧
        (Text.Fits 64 correlationId → Q () pend) := by
  rw [storeCorrelationId, wp_raiseIf, not_not]

@[simp] theorem wp_acquireUnlessBlank {Q : Unit → (DB → DB) → Prop} (text : String)
    (key : Resource) : (acquireUnlessBlank text key).wp κ φ pend Q R ↔ Q () pend := by
  unfold acquireUnlessBlank
  by_cases htext : text = "" <;> simp [htext]

@[simp] theorem wp_storeNumeric {Q : Numeric → (DB → DB) → Prop} (m : Money) :
    (storeNumeric m).wp κ φ pend Q R ↔
      (∀ n, Numeric.ofMoney? m = some n → Q n pend) ∧
      (Numeric.ofMoney? m = none → R .dataError pend) := by
  unfold storeNumeric
  cases Numeric.ofMoney? m <;> simp

@[simp] theorem wp_getRow {Q : α → (DB → DB) → Prop} (what : Resource) (q : DB → Option α) :
    (getRow what q).wp κ φ pend Q R ↔
      ∀ v, φ what v → (∀ row, q (pend v) = some row → Q row pend) ∧
        (q (pend v) = none → R .doesNotExist pend) := by
  unfold getRow
  rw [Txn.wp_bind, Txn.wp_fetch]
  refine forall_congr' fun v => forall_congr' fun _ => ?_
  cases q (pend v) <;> simp

@[simp] theorem wp_getOr404 {Q : α → (DB → DB) → Prop} (what : Resource) (q : DB → Option α) :
    (getOr404 what q).wp κ φ pend Q R ↔
      ∀ v, φ what v → (∀ row, q (pend v) = some row → Q row pend) ∧
        (q (pend v) = none → R .http404 pend) := by
  unfold getOr404
  rw [Txn.wp_bind, Txn.wp_fetch]
  refine forall_congr' fun v => forall_congr' fun _ => ?_
  cases q (pend v) <;> simp

/-- An entry of the ledger, unless the column refuses the correlation id. -/
theorem wp_postEntry {Q : LedgerEntry → (DB → DB) → Prop} {env : Env} {tenant : ℕ}
    {entryType : LedgerEntryType} {account : LedgerAccount} {amount : Numeric}
    {currency reference : String} {source : Option Source} {relatedEntry : Option Posting}
    {metadata : List (String × String)} (hR : R .dataError pend)
    (hQ : Q { tenant, entryType, account, amount, currency, reference, source, relatedEntry,
              metadata, correlationId := env.correlationId }
      (inBooks (·.post
        { tenant, entryType, account, amount, currency, reference, source, relatedEntry, metadata
          correlationId := env.correlationId }) ∘ pend)) :
    (postEntry env tenant entryType account amount currency reference source relatedEntry
      metadata).wp κ φ pend Q R := by
  simp only [postEntry, Txn.wp_bind, wp_storeCorrelationId, wp_onBooks, Txn.pure_eq_ret, Txn.wp_ret]
  exact ⟨fun _ => hR, fun _ => hQ⟩

/-- An event of the revenue engine, unless the column refuses the correlation id. -/
theorem wp_recordEvent {Q : Unit → (DB → DB) → Prop} {env : Env} {tenant : ℕ}
    {eventType : RevenueEventType} {amount : Numeric} {currency : String} {source : Source}
    {ledgerEntry : Option LedgerEntry} {metadata : List (String × String)}
    (hR : R .dataError pend)
    (hQ : Q () (inBooks (·.record
      { tenant, eventType, amount, currency, source, ledgerEntry, metadata
        correlationId := env.correlationId
        createdAt := env.now }) ∘ pend)) :
    (recordEvent env tenant eventType amount currency source ledgerEntry metadata).wp
      κ φ pend Q R := by
  simp only [recordEvent, Txn.wp_bind, wp_storeCorrelationId, wp_onBooks]
  exact ⟨fun _ => hR, fun _ => hQ⟩

end Statements

/-! ## Statements of a request that runs alone -/

section Alone

variable {α : Type} (s : DB)

@[simp] theorem exec_onBooks (w : Books → Books) : (onBooks w).exec s = .ok ((), inBooks w s) := rfl

@[simp] theorem exec_onTrail (w : Trail → Trail) : (onTrail w).exec s = .ok ((), inTrail w s) := rfl

@[simp] theorem exec_raiseIf (c : Prop) [Decidable c] (e : Error) :
    (raiseIf c e).exec s = if c then .error e else .ok ((), s) := by
  unfold raiseIf
  rw [Txn.exec_ite]
  rfl

@[simp] theorem exec_checkVarchar (n : ℕ) (text : String) :
    (checkVarchar n text).exec s = if Varchar n text then .ok ((), s) else .error .dataError := by
  unfold checkVarchar
  rw [Txn.exec_ite]
  rfl

@[simp] theorem exec_checkParameter (text : String) :
    (checkParameter text).exec s =
      if '\x00' ∈ text.toList then .error .dataError else .ok ((), s) := by
  unfold checkParameter
  rw [Txn.exec_ite]
  rfl

@[simp] theorem exec_storeJson (json : Option String) :
    (storeJson json).exec s =
      match json with
      | some text => .ok (text, s)
      | none => .error .dataError := by
  unfold storeJson
  cases json <;> rfl

variable {s} in
theorem exec_checkVarchar_ok {n : ℕ} {text : String} {t : DB}
    (h : (checkVarchar n text).exec s = .ok ((), t)) : Varchar n text ∧ t = s := by
  rw [exec_checkVarchar] at h
  by_cases hfits : Varchar n text
  · rw [if_pos hfits] at h
    exact ⟨hfits, (Prod.mk.inj (Except.ok.inj h)).2.symm⟩
  · rw [if_neg hfits] at h
    cases h

variable {s} in
theorem exec_checkParameter_ok {text : String} {t : DB}
    (h : (checkParameter text).exec s = .ok ((), t)) : '\x00' ∉ text.toList ∧ t = s := by
  rw [exec_checkParameter] at h
  by_cases hnul : '\x00' ∈ text.toList
  · rw [if_pos hnul] at h
    cases h
  · rw [if_neg hnul] at h
    exact ⟨hnul, (Prod.mk.inj (Except.ok.inj h)).2.symm⟩

variable {s} in
theorem exec_storeJson_ok {json : Option String} {text : String} {t : DB}
    (h : (storeJson json).exec s = .ok (text, t)) : json = some text ∧ t = s := by
  rw [exec_storeJson] at h
  cases json with
  | none => cases h
  | some stored =>
      obtain ⟨rfl, rfl⟩ := Prod.mk.inj (Except.ok.inj h)
      exact ⟨rfl, rfl⟩

@[simp] theorem exec_storeCorrelationId (correlationId : Text) :
    (storeCorrelationId correlationId).exec s =
      if Text.Fits 64 correlationId then .ok ((), s) else .error .dataError := by
  rw [storeCorrelationId, exec_raiseIf, ite_not]

@[simp] theorem exec_acquireUnlessBlank (text : String) (key : Resource) :
    (acquireUnlessBlank text key).exec s = .ok ((), s) := by
  unfold acquireUnlessBlank
  split <;> rfl

@[simp] theorem exec_getRow (what : Resource) (q : DB → Option α) :
    (getRow what q).exec s =
      match q s with
      | some row => .ok (row, s)
      | none => .error .doesNotExist := by
  unfold getRow
  rw [Txn.exec_bind, Txn.exec_fetch]
  cases q s <;> rfl

variable {s} in
theorem exec_getRow_ok {α : Type} {what : Resource} {q : DB → Option α} {row : α}
    {t : DB} (h : (getRow what q).exec s = .ok (row, t)) : q s = some row ∧ t = s := by
  rw [exec_getRow] at h
  cases hq : q s with
  | none =>
      rw [hq] at h
      cases h
  | some row' =>
      rw [hq] at h
      obtain ⟨rfl, rfl⟩ := Prod.mk.inj (Except.ok.inj h)
      exact ⟨rfl, rfl⟩

variable {env : Env} (hcorrelated : Text.Fits 64 env.correlationId)

theorem exec_recordEvent_ok {tenant : ℕ} {eventType : RevenueEventType} {amount : Numeric}
    {currency : String} {source : Source} {ledgerEntry : Option LedgerEntry}
    {metadata : List (String × String)} {s t : DB}
    (h : (recordEvent env tenant eventType amount currency source ledgerEntry metadata).exec s =
      .ok ((), t)) :
    Text.Fits 64 env.correlationId ∧ t = inBooks (·.record
      { tenant, eventType, amount, currency, source, ledgerEntry, metadata
        correlationId := env.correlationId
        createdAt := env.now }) s := by
  rw [recordEvent, Txn.exec_bind, exec_storeCorrelationId] at h
  by_cases hfits : Text.Fits 64 env.correlationId
  · rw [if_pos hfits] at h
    obtain ⟨-, rfl⟩ := Prod.mk.inj (Except.ok.inj h)
    exact ⟨hfits, rfl⟩
  · rw [if_neg hfits] at h
    cases h

include hcorrelated

theorem exec_postEntry (tenant : ℕ) (entryType : LedgerEntryType) (account : LedgerAccount)
    (amount : Numeric) (currency reference : String) (source : Option Source)
    (relatedEntry : Option Posting) (metadata : List (String × String)) :
    (postEntry env tenant entryType account amount currency reference source relatedEntry
      metadata).exec s =
      .ok ({ tenant, entryType, account, amount, currency, reference, source, relatedEntry,
             metadata, correlationId := env.correlationId },
        inBooks (·.post
          { tenant, entryType, account, amount, currency, reference, source, relatedEntry,
            metadata, correlationId := env.correlationId }) s) := by
  rw [postEntry, Txn.exec_bind, exec_storeCorrelationId, if_pos hcorrelated]
  rfl

theorem exec_recordEvent (tenant : ℕ) (eventType : RevenueEventType) (amount : Numeric)
    (currency : String) (source : Source) (ledgerEntry : Option LedgerEntry)
    (metadata : List (String × String)) :
    (recordEvent env tenant eventType amount currency source ledgerEntry metadata).exec s =
      .ok ((), inBooks (·.record
        { tenant, eventType, amount, currency, source, ledgerEntry, metadata
          correlationId := env.correlationId
          createdAt := env.now }) s) := by
  rw [recordEvent, Txn.exec_bind, exec_storeCorrelationId, if_pos hcorrelated]
  rfl

end Alone

section Keeps

variable {X : Type} {f : DB → X} {env : Env} {payment : Payment}

/-- What does not look at the revenue events keeps its value when one is recorded. -/
theorem recordEvent_keeps (hrecord : ∀ s event, f (inBooks (·.record event) s) = f s)
    (tenant : ℕ) (eventType : RevenueEventType) (amount : Numeric) (currency : String)
    (source : Source) (ledgerEntry : Option LedgerEntry) (metadata : List (String × String)) :
    (recordEvent env tenant eventType amount currency source ledgerEntry metadata).Keeps f :=
  Txn.keeps_bind (Txn.keeps_ite (Txn.keeps_throw _) (Txn.keeps_ret _)) fun _ =>
    Txn.keeps_modify fun s => hrecord s _

/-- So does what does not look at the ledger when an entry is posted. -/
theorem postEntry_keeps (hpost : ∀ s entry, f (inBooks (·.post entry) s) = f s) (tenant : ℕ)
    (entryType : LedgerEntryType) (account : LedgerAccount) (amount : Numeric)
    (currency reference : String) (source : Option Source) (relatedEntry : Option Posting)
    (metadata : List (String × String)) :
    (postEntry env tenant entryType account amount currency reference source relatedEntry
      metadata).Keeps f :=
  Txn.keeps_bind (Txn.keeps_ite (Txn.keeps_throw _) (Txn.keeps_ret _)) fun _ =>
    Txn.keeps_bind (Txn.keeps_modify fun s => hpost s _) fun _ => Txn.keeps_ret _

theorem postSettlementLedgerEntries_keeps (hpost : ∀ s entry, f (inBooks (·.post entry) s) = f s) :
    (postSettlementLedgerEntries env payment).Keeps f :=
  Txn.keeps_bind (postEntry_keeps hpost _ _ _ _ _ _ _ _ _) fun _ =>
    Txn.keeps_bind (postEntry_keeps hpost _ _ _ _ _ _ _ _ _) fun _ => Txn.keeps_ret _

theorem recordPaymentSuccessful_keeps (hpost : ∀ s entry, f (inBooks (·.post entry) s) = f s)
    (hrecord : ∀ s event, f (inBooks (·.record event) s) = f s) :
    (recordPaymentSuccessful env payment).Keeps f :=
  Txn.keeps_bind (postEntry_keeps hpost _ _ _ _ _ _ _ _ _) fun _ =>
    recordEvent_keeps hrecord _ _ _ _ _ _ _

end Keeps

/-! ## State machines -/

section StateMachines

variable {R : Error → (DB → DB) → Prop}

/-- The message of a refused payment transition. -/
def Payment.refusal (payment : Payment) (newStatus : PaymentStatus) : Error :=
  .validationError <| "Cannot transition payment from '" ++ payment.status.value ++ "' to '" ++
    newStatus.value ++ "'."

theorem wp_paymentTransitionTo {Q : Payment → (DB → DB) → Prop} (env : Env) (payment : Payment)
    (newStatus : PaymentStatus) (reason : String) :
    (payment.transitionTo env newStatus reason).wp κ φ pend Q R ↔
      (newStatus ∉ payment.status.allowedTransitions → R (payment.refusal newStatus) pend) ∧
      (newStatus ∈ payment.status.allowedTransitions →
        (Varchar 255 (payment.moveTo env.now newStatus reason).failureReason →
          Q (payment.moveTo env.now newStatus reason)
            (inBooks (·.savePayment (payment.moveTo env.now newStatus reason)) ∘ pend)) ∧
        (¬Varchar 255 (payment.moveTo env.now newStatus reason).failureReason →
          R .dataError pend)) := by
  unfold Payment.transitionTo
  simp only [Txn.wp_bind, wp_raiseIf, wp_checkVarchar, Txn.wp_acquire, wp_onBooks,
    Txn.pure_eq_ret, Txn.wp_ret, not_not]
  rfl

theorem wp_billTransitionTo {Q : Bill → (DB → DB) → Prop} (env : Env) (bill : Bill)
    (newStatus : BillStatus) (hR : ∀ m, newStatus ∉ bill.status.allowedTransitions →
      R (.validationError m) pend)
    (hQ : newStatus ∈ bill.status.allowedTransitions →
      Q (bill.moveTo env.now newStatus)
        (inBooks (·.saveBill (bill.moveTo env.now newStatus)) ∘ pend)) :
    (bill.transitionTo env newStatus).wp κ φ pend Q R := by
  unfold Bill.transitionTo
  simp only [Txn.wp_bind, wp_raiseIf, Txn.wp_acquire, wp_onBooks, Txn.pure_eq_ret, Txn.wp_ret,
    not_not]
  exact ⟨hR _, hQ⟩

end StateMachines

end Kusanya
