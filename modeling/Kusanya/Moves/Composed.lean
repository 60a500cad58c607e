import Kusanya.Moves.Outbox
import Kusanya.Moves.Requests

/-!
# What the services are composed of

Every service is composed of a few statements: reads that look neither at a template nor at the
text of a notification, writes to the money tables, audit rows, webhook deliveries, and
`send_notification`.  A fact about all of them is proved once, by induction on the composition.
-/

namespace Kusanya

open ReadCommitted

/-! ## The database without texts -/

/-- A notification without what a template decides. -/
def Notification.withoutText (row : Notification) : Notification :=
  { row with subject := "", body := "" }

def Task.withoutText : Task → Task
  | .deliverNotification row => .deliverNotification row.withoutText
  | .deliverWebhook row => .deliverWebhook row

/-- The database without its templates and without the texts they have left. -/
def DB.withoutTexts (db : DB) : DB :=
  { db with
    templates := []
    notifications := db.notifications.map Notification.withoutText
    onCommit := db.onCommit.map Task.withoutText }

/-! ## Compositions -/

/-- `p` is composed of the statements of the services and of the writes in `X`. -/
inductive Composed (env : Env) (X : (DB → DB) → Prop) : {α : Type} → Tx α → Prop
  | ret {α : Type} (a : α) : Composed env X (.ret a)
  | throw {α : Type} (e : Error) : Composed env X (.throw e : Tx α)
  | fetch {α : Type} (k : Resource) (q : DB → α) (h : ∀ s, q s.withoutTexts = q s)
      (hk : k.message? = none) : Composed env X (.fetch k q)
  | onBooks (w : Books → Books) : Composed env X (onBooks w)
  | audit (row : AuditLog) : Composed env X (onTrail (·.addAudit row))
  | delivery (row : WebhookDelivery) : Composed env X (onTrail (·.addDelivery row))
  | send (tenant : ℕ) (eventType : NotificationEventType) (channel : NotificationChannel)
      (context : List (String × String)) (recipient : String) :
      Composed env X (sendOn env tenant eventType channel context recipient)
  | extra (w : DB → DB) (h : X w) : Composed env X (.modify w)
  | acquire (k : Resource) : Composed env X (.acquire k)
  | invoke (v : Call) : Composed env X (.invoke v)
  | bind {α β : Type} {p : Tx α} {f : α → Tx β} (hp : Composed env X p)
      (hf : ∀ a, Composed env X (f a)) : Composed env X (p >>= f)
  | attempt {α : Type} {p : Tx α} (hp : Composed env X p) :
      Composed env X (p.tryAtomic Error.isIntegrityError)
  | showing {p : Tx Unit} (hp : Composed env X p)
      (hearly : Early p) : Composed env X (showingErrors p)

/-- The writes of a composition. -/
inductive Written (X : (DB → DB) → Prop) : (DB → DB) → Prop
  | onBooks (w : Books → Books) : Written X (inBooks w)
  | audit (row : AuditLog) : Written X (inTrail (·.addAudit row))
  | delivery (row : WebhookDelivery) : Written X (inTrail (·.addDelivery row))
  | notices (rows : List Notification) : Written X (inTrail (·.addNotifications rows))
  | extra (w : DB → DB) (h : X w) : Written X w

/-- What every write does to the state, the composition does. -/
theorem Composed.relates {env : Env} {X : (DB → DB) → Prop} {α : Type} {p : Tx α}
    {R : DB → DB → Prop} (hp : Composed env X p) (hrefl : ∀ s, R s s)
    (htrans : ∀ {s t u}, R s t → R t u → R s u) (hwrite : ∀ w, Written X w → ∀ s, R s (w s)) :
    ∀ {s t : DB} {a : α}, p.exec s = .ok (a, t) → R s t := by
  have hstays : ∀ {β : Type} {s t : DB} {a b : β},
      (Except.ok (a, s) : Except Error (β × DB)) = .ok (b, t) → R s t := by
    intro β s t a b h
    obtain ⟨-, rfl⟩ := Prod.mk.inj (Except.ok.inj h)
    exact hrefl s
  have hwrites : ∀ {w : DB → DB} {s t : DB} {a : Unit}, Written X w →
      (Txn.modify w : Tx Unit).exec s = .ok (a, t) → R s t := by
    intro w s t a hw h
    obtain ⟨-, rfl⟩ := Prod.mk.inj (Except.ok.inj h)
    exact hwrite w hw s
  induction hp with
  | ret a => exact hstays
  | throw e =>
      intro s t a h
      cases h
  | fetch k q _ _ => exact hstays
  | onBooks w => exact hwrites (.onBooks w)
  | audit row => exact hwrites (.audit row)
  | delivery row => exact hwrites (.delivery row)
  | send tenant eventType channel context recipient =>
      intro s t a h
      rw [exec_sendOn] at h
      split at h
      · next rows _ =>
          obtain ⟨-, rfl⟩ := Prod.mk.inj (Except.ok.inj h)
          exact hwrite _ (.notices rows) s
      · cases h
  | extra w hw => exact hwrites (.extra w hw)
  | acquire k => exact hstays
  | invoke v => exact hstays
  | bind _ _ ihp ihf =>
      intro s t b h
      obtain ⟨a, u, hfirst, hrest⟩ := (Txn.exec_bind_ok _).mp h
      exact htrans (ihp hfirst) (ihf a hrest)
  | attempt _ ih =>
      intro s t a h
      rw [Txn.exec_tryAtomic] at h
      split at h
      · next hbody =>
          obtain ⟨-, rfl⟩ := Prod.mk.inj (Except.ok.inj h)
          exact ih hbody
      · split at h
        · exact hstays h
        · cases h
  | showing _ hearly ih =>
      intro s t a h
      rcases exec_ok_showingErrors hearly h with hbody | rfl
      · exact ih hbody
      · exact hrefl _

/-- What none of the writes changes, the composition leaves alone. -/
theorem Composed.keeps {env : Env} {X : (DB → DB) → Prop} {α Y : Type} {p : Tx α} {f : DB → Y}
    (hp : Composed env X p) (hf : ∀ w, Written X w → ∀ s, f (w s) = f s) : p.Keeps f :=
  fun _ _ _ h => hp.relates (R := fun s t => f t = f s) (fun _ => rfl)
    (fun h h' => h'.trans h) hf h

/-- Rows of the audit log stay. -/
theorem Composed.audits {env : Env} {α : Type} {p : Tx α} (hp : Composed env (fun _ => False) p)
    {s t : DB} {a : α} (h : p.exec s = .ok (a, t)) : s.auditLog <+: t.auditLog := by
  refine hp.relates (R := fun s t => s.auditLog <+: t.auditLog) (fun _ => List.prefix_rfl)
    List.IsPrefix.trans ?_ h
  intro w hw u
  cases hw with
  | audit row => exact List.prefix_append _ _
  | onBooks _ | delivery _ | notices _ => exact List.prefix_rfl
  | extra _ hfalse => exact hfalse.elim

section Composed

variable {env : Env} {X : (DB → DB) → Prop} {payment : Payment}

theorem composed_ite {α : Type} {c : Prop} [Decidable c] {p q : Tx α} (hp : Composed env X p)
    (hq : Composed env X q) : Composed env X (if c then p else q) := by
  split
  · exact hp
  · exact hq

/-! ### Statements -/

theorem getRow_composed {α : Type} (what : Resource) {q : DB → Option α}
    (h : ∀ s, q s.withoutTexts = q s) (hk : what.message? = none) :
    Composed env X (getRow what q) := by
  apply Composed.bind (.fetch _ _ h hk)
  intro row
  cases row with
  | none => exact .throw _
  | some row => exact .ret _

theorem getOr404_composed {α : Type} (what : Resource) {q : DB → Option α}
    (h : ∀ s, q s.withoutTexts = q s) (hk : what.message? = none) :
    Composed env X (getOr404 what q) := by
  apply Composed.bind (.fetch _ _ h hk)
  intro row
  cases row with
  | none => exact .throw _
  | some row => exact .ret _

theorem raiseIf_composed (c : Prop) [Decidable c] (e : Error) : Composed env X (raiseIf c e) :=
  composed_ite (.throw _) (.ret _)

theorem checkVarchar_composed (n : ℕ) (text : String) : Composed env X (checkVarchar n text) :=
  composed_ite (.ret _) (.throw _)

theorem checkParameter_composed (text : String) : Composed env X (checkParameter text) :=
  composed_ite (.throw _) (.ret _)

theorem storeCorrelationId_composed (correlationId : Support.Text) :
    Composed env X (storeCorrelationId correlationId) :=
  raiseIf_composed _ _

theorem storeJson_composed (json : Option String) : Composed env X (storeJson json) := by
  cases json with
  | none => exact .throw _
  | some text => exact .ret text

theorem acquireUnlessBlank_composed (text : String) (key : Resource) :
    Composed env X (acquireUnlessBlank text key) :=
  composed_ite (.ret _) (.acquire _)

theorem storeNumeric_composed (m : Money) : Composed env X (storeNumeric m) := by
  unfold storeNumeric
  cases Numeric.ofMoney? m with
  | none => exact .throw _
  | some n => exact .ret _

theorem getTenant_composed (id : ℕ) : Composed env X (getTenant id) :=
  getRow_composed _ (fun _ => rfl) rfl

theorem getProvider_composed (id : ℕ) : Composed env X (getProvider id) :=
  getRow_composed _ (fun _ => rfl) rfl

theorem getBill_composed (id : ℕ) : Composed env X (getBill id) :=
  getRow_composed _ (fun _ => rfl) rfl

theorem recordAuditEvent_composed (action : String) (tenant : Option ℕ) (target : Option Source)
    (after metadata : List (String × String)) :
    Composed env X (recordAuditEvent env action tenant target after metadata) :=
  .bind (raiseIf_composed _ _) fun _ => .audit _

theorem sendNotification_composed (tenant : ℕ) (eventType : NotificationEventType)
    (context : List (String × String)) (recipientEmail recipientPhone : String) :
    Composed env X (sendNotification env tenant eventType context recipientEmail recipientPhone) :=
  .bind (.send _ _ _ _ _) fun _ => .send _ _ _ _ _

theorem deliverAll_composed (tenant : ℕ) (eventType : String)
    (payload : List (String × Option String)) (endpoints : List WebhookEndpoint) :
    Composed env X (deliverAll env tenant eventType payload endpoints) := by
  induction endpoints with
  | nil => exact .ret _
  | cons endpoint rest ih =>
      exact .bind
        (composed_ite (.bind (storeCorrelationId_composed _) fun _ => .delivery _) (.ret _))
        fun _ => ih

theorem dispatchEvent_composed (tenant : ℕ) (eventType : String)
    (payload : List (String × Option String)) :
    Composed env X (dispatchEvent env tenant eventType payload) :=
  .bind (.fetch _ _ (fun _ => rfl) rfl) fun endpoints => deliverAll_composed _ _ _ endpoints

/-! ### Ledger and revenue -/

theorem postEntry_composed (tenant : ℕ) (entryType : LedgerEntryType) (account : LedgerAccount)
    (amount : Numeric) (currency reference : String) (source : Option Source)
    (relatedEntry : Option Posting) (metadata : List (String × String)) :
    Composed env X (postEntry env tenant entryType account amount currency reference source
      relatedEntry metadata) :=
  .bind (storeCorrelationId_composed _) fun _ => .bind (.onBooks _) fun _ => .ret _

theorem recordEvent_composed (tenant : ℕ) (eventType : RevenueEventType) (amount : Numeric)
    (currency : String) (source : Source) (ledgerEntry : Option LedgerEntry)
    (metadata : List (String × String)) :
    Composed env X (recordEvent env tenant eventType amount currency source ledgerEntry metadata) :=
  .bind (storeCorrelationId_composed _) fun _ => .onBooks _

theorem recordControlNumberCreated_composed (cn : ControlNumber) :
    Composed env X (recordControlNumberCreated env cn) :=
  .bind (getTenant_composed _) fun _ =>
    .bind (postEntry_composed _ _ _ _ _ _ _ _ _) fun _ => recordEvent_composed _ _ _ _ _ _ _

theorem recordControlNumberReused_composed (cn : ControlNumber) :
    Composed env X (recordControlNumberReused env cn) :=
  .bind (getTenant_composed _) fun _ => recordEvent_composed _ _ _ _ _ _ _

theorem recordPaymentSuccessful_composed : Composed env X (recordPaymentSuccessful env payment) :=
  .bind (postEntry_composed _ _ _ _ _ _ _ _ _) fun _ => recordEvent_composed _ _ _ _ _ _ _

theorem recordZeroEvent_composed (eventType : RevenueEventType) :
    Composed env X (recordZeroEvent env payment eventType) :=
  recordEvent_composed _ _ _ _ _ _ _

theorem compensate_composed (eventType : RevenueEventType) (entryType : LedgerEntryType) :
    Composed env X (compensate env payment eventType entryType) := by
  unfold compensate
  apply Composed.bind (.fetch _ _ (fun _ => rfl) rfl)
  intro original
  apply Composed.bind (getTenant_composed _)
  intro tenant
  dsimp only
  split
  · exact recordEvent_composed _ _ _ _ _ _ _
  · next fee _ =>
      refine .bind ?_ fun _ => recordEvent_composed _ _ _ _ _ _ _
      unfold compensateEntry
      split
      · exact .ret _
      · exact .bind (postEntry_composed _ _ _ _ _ _ _ _ _) fun _ => .ret _

/-! ### Bills -/

theorem balance_composed (bill : Bill) : Composed env X bill.balance :=
  .fetch _ _ (fun _ => rfl) rfl

theorem billTransitionTo_composed (bill : Bill) (new : BillStatus) :
    Composed env X (bill.transitionTo env new) :=
  .bind (raiseIf_composed _ _) fun _ =>
    .bind (.acquire _) fun _ => .bind (.onBooks _) fun _ => .ret _

theorem recalculateTotal_composed (bill : Bill) : Composed env X bill.recalculateTotal :=
  .bind (.fetch _ _ (fun _ => rfl) rfl) fun _ =>
    .bind (storeNumeric_composed _) fun _ =>
      .bind (.acquire _) fun _ => .bind (.onBooks _) fun _ => .ret _

theorem dispatchBillEvent_composed (bill : Bill) (totalAmount eventType : String) :
    Composed env X (dispatchBillEvent env bill totalAmount eventType) :=
  .bind (getRow_composed _ (fun _ => rfl) rfl) fun _ => dispatchEvent_composed _ _ _

theorem customerOf_composed (account : ℕ) : Composed env X (customerOf account) :=
  .bind (getRow_composed _ (fun _ => rfl) rfl) fun _ => getRow_composed _ (fun _ => rfl) rfl

theorem notifyBillCreated_composed (bill : Bill) : Composed env X (notifyBillCreated env bill) :=
  .bind (customerOf_composed _) fun _ =>
    .bind (getTenant_composed _) fun _ => sendNotification_composed _ _ _ _ _

theorem insertBill_composed (bill : Bill) : Composed env X (insertBill bill) :=
  .bind (checkVarchar_composed _ _) fun _ =>
    .bind (.acquire _) fun _ =>
      .bind (.acquire _) fun _ =>
        .bind (acquireUnlessBlank_composed _ _) fun _ =>
          .bind (.fetch _ _ (fun _ => rfl) rfl) fun _ =>
            .bind (raiseIf_composed _ _) fun _ => .onBooks _

theorem createItems_composed (tenant bill : ℕ) (items : List ItemInput) :
    Composed env X (createItems tenant bill items) := by
  unfold createItems
  split
  · exact .throw _
  · exact .onBooks _

theorem createBill_composed (input : BillInput) (k : ℕ) : Composed env X (createBill env input k) :=
  .bind (insertBill_composed _) fun _ =>
    .bind (createItems_composed _ _ _) fun _ =>
      .bind (recalculateTotal_composed _) fun _ =>
        .bind (recordAuditEvent_composed _ _ _ _ _) fun _ =>
          .bind (dispatchBillEvent_composed _ _ _) fun _ =>
            .bind (notifyBillCreated_composed _) fun _ => .ret _

theorem billByReference_composed (input : BillInput) : Composed env X (billByReference input) :=
  composed_ite (.ret _) (.fetch _ _ (fun _ => rfl) rfl)

theorem billAttempts_composed (input : BillInput) (k left : ℕ) :
    Composed env X (billAttempts env input k left) := by
  induction left generalizing k with
  | zero => exact .throw _
  | succ left ih =>
      apply Composed.bind (.attempt (createBill_composed _ _))
      intro outcome
      cases outcome with
      | ok bill => exact .ret _
      | error e =>
          apply Composed.bind (billByReference_composed _)
          intro existing
          cases existing with
          | some existing => exact .ret _
          | none => exact ih _

theorem getOrCreateBill_composed (input : BillInput) :
    Composed env X (getOrCreateBill env input) := by
  apply Composed.bind (billByReference_composed _)
  intro existing
  cases existing with
  | some existing => exact .ret _
  | none => exact billAttempts_composed _ _ _

theorem cancelBill_composed (bill : Bill) : Composed env X (cancelBill env bill) :=
  .bind (billTransitionTo_composed _ _) fun _ =>
    .bind (recordAuditEvent_composed _ _ _ _ _) fun _ =>
      .bind (dispatchBillEvent_composed _ _ _) fun _ => .ret _

/-! ### Control numbers -/

theorem notifyControlNumberGenerated_composed (cn : ControlNumber) :
    Composed env X (notifyControlNumberGenerated env cn) := by
  unfold notifyControlNumberGenerated
  refine .bind ?_ fun owner => .bind (customerOf_composed _) fun _ =>
    .bind (getTenant_composed _) fun _ => sendNotification_composed _ _ _ _ _
  unfold ownerOf
  split
  · exact .bind (getBill_composed _) fun _ => .ret _
  · exact .ret _

theorem insertControlNumber_composed (cn : ControlNumber) :
    Composed env X (insertControlNumber cn) :=
  .bind (.acquire _) fun _ =>
    .bind (.acquire _) fun _ =>
      .bind (.acquire _) fun _ =>
        .bind (.fetch _ _ (fun _ => rfl) rfl) fun _ =>
          .bind (raiseIf_composed _ _) fun _ => .onBooks _

theorem createControlNumber_composed (tenant : ℕ) (owner : Owner) (scope : ControlNumberScope)
    (expiresAt : Option Time) (k : ℕ) :
    Composed env X (createControlNumber env tenant owner scope expiresAt k) :=
  .bind (insertControlNumber_composed _) fun _ =>
    .bind (recordAuditEvent_composed _ _ _ _ _) fun _ =>
      .bind (recordControlNumberCreated_composed _) fun _ =>
        .bind (notifyControlNumberGenerated_composed _) fun _ => .ret _

theorem controlNumberAttempts_composed {lookup : Tx (Option ControlNumber)}
    {create : ℕ → Tx ControlNumber} (hlookup : Composed env X lookup)
    (hcreate : ∀ k, Composed env X (create k)) (k left : ℕ) :
    Composed env X (controlNumberAttempts env lookup create k left) := by
  induction left generalizing k with
  | zero => exact .throw _
  | succ left ih =>
      apply Composed.bind (.attempt (hcreate _))
      intro outcome
      cases outcome with
      | ok cn => exact .ret _
      | error e =>
          apply Composed.bind hlookup
          intro existing
          cases existing with
          | some existing => exact .ret _
          | none => exact ih _

theorem getOrCreateControlNumber_composed (tenant : ℕ) {lookup : Tx (Option ControlNumber)}
    {create : ℕ → Tx ControlNumber} (hlookup : Composed env X lookup)
    (hcreate : ∀ k, Composed env X (create k)) :
    Composed env X (getOrCreateControlNumber env tenant lookup create) := by
  apply Composed.bind hlookup
  intro existing
  cases existing with
  | some existing =>
      exact .bind (recordAuditEvent_composed _ _ _ _ _) fun _ =>
        .bind (recordControlNumberReused_composed _) fun _ => .ret _
  | none => exact controlNumberAttempts_composed hlookup hcreate _ _

theorem getOrCreateForBill_composed (tenant : ℕ) (bill : Bill) (expiresAt : Option Time) :
    Composed env X (getOrCreateForBill env tenant bill expiresAt) :=
  getOrCreateControlNumber_composed _ (.fetch _ _ (fun _ => rfl) rfl) fun _ =>
    createControlNumber_composed _ _ _ _ _

theorem getOrCreateForAccount_composed (tenant : ℕ) (account : CustomerAccount)
    (expiresAt : Option Time) :
    Composed env X (getOrCreateForAccount env tenant account expiresAt) :=
  getOrCreateControlNumber_composed _ (.fetch _ _ (fun _ => rfl) rfl) fun _ =>
    createControlNumber_composed _ _ _ _ _

theorem cancelControlNumber_composed (cn : ControlNumber) :
    Composed env X (cancelControlNumber env cn) :=
  .bind (.acquire _) fun _ => .bind (.onBooks _) fun _ => recordAuditEvent_composed _ _ _ _ _

theorem lockControlNumbers_composed (keep : ControlNumber → Bool) (found : List ControlNumber) :
    Composed env X (lockControlNumbers keep found) := by
  induction found with
  | nil => exact .ret _
  | cons cn rest ih =>
      exact .bind (.acquire _) fun _ =>
        .bind (.fetch _ _ (fun _ => rfl) rfl) fun _ => .bind ih fun _ => .ret _

theorem expireOverdue_composed (tenant : Option ℕ) : Composed env X (expireOverdue env tenant) :=
  .bind (.fetch _ _ (fun _ => rfl) rfl) fun _ =>
    .bind (lockControlNumbers_composed _ _) fun _ => .onBooks _

theorem accountBehind_composed (cn : ControlNumber) (bill : Option Bill) :
    Composed env X (accountBehind cn bill) := by
  unfold accountBehind
  split
  · exact .ret _
  · exact .ret _
  · exact .throw _

/-! ### Payments -/

theorem paymentTransitionTo_composed (new : PaymentStatus) (reason : String) :
    Composed env X (payment.transitionTo env new reason) :=
  .bind (raiseIf_composed _ _) fun _ =>
    .bind (checkVarchar_composed _ _) fun _ =>
      .bind (.acquire _) fun _ => .bind (.onBooks _) fun _ => .ret _

theorem loadRelated_composed (related : Related) :
    Composed env X (loadRelated payment related) := by
  refine .bind ?_ fun cn => .bind ?_ fun _ => .ret _
  · unfold controlNumberOf
    split
    · exact .ret _
    · exact getRow_composed _ (fun _ => rfl) rfl
  · unfold boundBill
    split
    · exact .ret _
    · exact .ret _
    · exact .bind (getBill_composed _) fun _ => .ret _

theorem dispatch_composed (cn : ControlNumber) (bill : Option Bill) (amount eventType : String) :
    Composed env X (dispatch env payment cn bill amount eventType) :=
  dispatchEvent_composed _ _ _

theorem notify_composed (cn : ControlNumber) (bill : Option Bill)
    (eventType : NotificationEventType) (extra : List (String × String)) :
    Composed env X (notify env payment cn bill eventType extra) :=
  .bind (accountBehind_composed _ _) fun _ =>
    .bind (customerOf_composed _) fun _ =>
      .bind (getTenant_composed _) fun _ => sendNotification_composed _ _ _ _ _

theorem postSettlementLedgerEntries_composed :
    Composed env X (postSettlementLedgerEntries env payment) :=
  .bind (postEntry_composed _ _ _ _ _ _ _ _ _) fun _ =>
    .bind (postEntry_composed _ _ _ _ _ _ _ _ _) fun _ => .ret _

theorem allocateToBill_composed (bill : Option Bill) :
    Composed env X (allocateToBill env payment bill) := by
  cases bill with
  | none => exact .ret _
  | some bill =>
      refine .bind (.onBooks _) fun _ =>
        composed_ite (.ret _) (.bind (balance_composed _) fun _ => ?_)
      exact composed_ite (.bind (billTransitionTo_composed _ _) fun _ => .ret _)
        (composed_ite (.bind (billTransitionTo_composed _ _) fun _ => .ret _) (.ret _))

theorem remainingBalance_composed (bill : Option Bill) :
    Composed env X (remainingBalance bill) := by
  cases bill with
  | none => exact .ret _
  | some bill =>
      exact .bind (balance_composed _) fun _ => .bind (storeNumeric_composed _) fun _ => .ret _

theorem insertReceipt_composed (receipt : Receipt) : Composed env X (insertReceipt receipt) :=
  .bind (checkVarchar_composed _ _) fun _ =>
    .bind (.acquire _) fun _ =>
      .bind (.acquire _) fun _ =>
        .bind (.fetch _ _ (fun _ => rfl) rfl) fun _ =>
          .bind (raiseIf_composed _ _) fun _ => .onBooks _

theorem generateReceipt_composed (cn : ControlNumber) (bill : Option Bill) :
    Composed env X (generateReceipt env payment cn bill) := by
  apply Composed.bind (.fetch _ _ (fun _ => rfl) rfl)
  intro existing
  cases existing with
  | some receipt => exact .ret _
  | none =>
      exact .bind (raiseIf_composed _ _) fun _ =>
        .bind (accountBehind_composed _ _) fun _ =>
          .bind (customerOf_composed _) fun _ =>
            .bind (getTenant_composed _) fun _ =>
              .bind (getProvider_composed _) fun _ =>
                .bind (remainingBalance_composed _) fun _ =>
                  .bind (insertReceipt_composed _) fun _ => .ret _

theorem balanceText_composed (bill : Option Bill) : Composed env X (balanceText bill) := by
  cases bill with
  | none => exact .ret _
  | some bill => exact .bind (balance_composed _) fun _ => .ret _

theorem onEntered_composed (related : Related) (status : PaymentStatus) :
    Composed env X (onEntered env payment related status) := by
  have hpending : Composed env X (onPending env payment related) :=
    .bind (recordAuditEvent_composed _ _ _ _ _) fun _ =>
      .bind (loadRelated_composed _) fun _ =>
        .bind (notify_composed _ _ _ _) fun _ => dispatch_composed _ _ _ _
  cases status with
  | successful =>
      exact .bind (recordAuditEvent_composed _ _ _ _ _) fun _ =>
        .bind postSettlementLedgerEntries_composed fun _ =>
          .bind recordPaymentSuccessful_composed fun _ =>
            .bind (loadRelated_composed _) fun _ =>
              .bind (allocateToBill_composed _) fun _ =>
                .bind (generateReceipt_composed _ _) fun _ =>
                  .bind (.bind (balanceText_composed _) fun _ => notify_composed _ _ _ _) fun _ =>
                    dispatch_composed _ _ _ _
  | failed =>
      exact .bind (recordAuditEvent_composed _ _ _ _ _) fun _ =>
        .bind (recordZeroEvent_composed _) fun _ =>
          .bind (loadRelated_composed _) fun _ =>
            .bind (notify_composed _ _ _ _) fun _ => dispatch_composed _ _ _ _
  | _ => exact hpending

theorem applyOutcome_composed (related : Related) (outcome : ProviderOutcome) :
    Composed env X (applyOutcome env payment related outcome) := by
  unfold applyOutcome
  split
  · exact composed_ite
      (.bind (paymentTransitionTo_composed _ _) fun _ =>
        .bind (recordAuditEvent_composed _ _ _ _ _) fun _ => .ret _) (.ret _)
  · exact composed_ite (.ret _)
      (.bind (paymentTransitionTo_composed _ _) fun _ =>
        .bind (onEntered_composed _ _) fun _ => .ret _)

theorem getAdapter_composed (provider : PaymentProvider) :
    Composed env X (getAdapter env provider) := by
  unfold getAdapter
  split
  · exact .ret _
  · exact .throw _

theorem adapterOf_composed : Composed env X (adapterOf env payment) :=
  .bind (getProvider_composed _) fun _ => getAdapter_composed _

theorem askProvider_composed {α : Type} (call : Call) (answer : Except AdapterError α) :
    Composed env X (askProvider call answer) := by
  apply Composed.bind (.invoke _)
  intro _
  cases answer with
  | ok result => exact .ret _
  | error e => exact .throw _

theorem insertPayment_composed (payment : Payment) : Composed env X (insertPayment payment) :=
  .bind (raiseIf_composed _ _) fun _ =>
    .bind (checkVarchar_composed _ _) fun _ =>
      .bind (.acquire _) fun _ =>
        .bind (.acquire _) fun _ =>
          .bind (acquireUnlessBlank_composed _ _) fun _ =>
            .bind (.fetch _ _ (fun _ => rfl) rfl) fun _ =>
              .bind (raiseIf_composed _ _) fun _ => .onBooks _

theorem onProviderError_composed (related : Related) (message : String) :
    Composed env X (onProviderError env payment related message) :=
  .bind (paymentTransitionTo_composed _ _) fun _ =>
    .bind (recordAuditEvent_composed _ _ _ _ _) fun _ =>
      .bind (recordZeroEvent_composed _) fun _ =>
        .bind (loadRelated_composed _) fun _ => .bind (notify_composed _ _ _ _) fun _ => .ret _

theorem saveProviderResult_composed (result : ProviderResult) :
    Composed env X (saveProviderResult payment result) :=
  .bind (checkVarchar_composed _ _) fun _ =>
    .bind (storeJson_composed _) fun _ =>
      .bind (.acquire _) fun _ => .bind (.onBooks _) fun _ => .ret _

theorem onInitiated_composed (related : Related) (answer : Except AdapterError ProviderResult) :
    Composed env X (onInitiated env payment related answer) := by
  unfold onInitiated
  split
  · exact .bind (paymentTransitionTo_composed _ _) fun _ =>
      .bind (recordAuditEvent_composed _ _ _ _ _) fun _ => .ret _
  · exact onProviderError_composed _ _
  · exact onProviderError_composed _ _
  · exact .throw _
  · exact .bind (saveProviderResult_composed _) fun _ => applyOutcome_composed _ _

theorem initiatePayment_composed (input : InitiateInput) (bill : Option Bill) :
    Composed env X (initiatePayment env input bill) := by
  apply Composed.bind (composed_ite (.ret _) (.fetch _ _ (fun _ => rfl) rfl))
  intro existing
  cases existing with
  | some existing => exact .bind (recordAuditEvent_composed _ _ _ _ _) fun _ => .ret _
  | none =>
      exact .bind (getTenant_composed _) fun _ =>
        .bind (insertPayment_composed _) fun _ =>
          .bind (recordAuditEvent_composed _ _ _ _ _) fun _ =>
            .bind (getAdapter_composed _) fun _ =>
              .bind (.invoke _) fun _ => onInitiated_composed _ _

theorem learnReference_composed (reference : String) :
    Composed env X (learnReference payment reference) :=
  composed_ite
    (.bind (checkVarchar_composed _ _) fun _ =>
      .bind (.acquire _) fun _ => .bind (.onBooks _) fun _ => .ret _) (.ret _)

theorem queryPayment_composed : Composed env X (queryPayment env payment) :=
  .bind adapterOf_composed fun _ =>
    .bind (askProvider_composed _ _) fun _ =>
      .bind (learnReference_composed _) fun _ =>
        .bind (recordAuditEvent_composed _ _ _ _ _) fun _ => applyOutcome_composed _ _

/-! ### Callbacks -/

theorem insertCallbackEvent_composed (id provider : ℕ) (externalEventId : String)
    (outcome : CallbackOutcome) (payment : Option ℕ) (rawPayload : Option String) :
    Composed env X (insertCallbackEvent id provider externalEventId outcome payment rawPayload) :=
  .bind (checkVarchar_composed _ _) fun _ =>
    .bind (storeJson_composed _) fun _ =>
      .bind (.acquire _) fun _ =>
        .bind (acquireUnlessBlank_composed _ _) fun _ =>
          .bind (.fetch _ _ (fun _ => rfl) rfl) fun _ =>
            .bind (raiseIf_composed _ _) fun _ => .bind (.onBooks _) fun _ => .ret _

theorem onDuplicate_composed (provider : PaymentProvider) (parsed : ProviderCallbackResult) :
    Composed env X (onDuplicate env provider parsed) := by
  apply Composed.bind (.fetch _ _ (fun _ => rfl) rfl)
  intro original
  apply Composed.bind (insertCallbackEvent_composed _ _ _ _ _ _)
  intro dup
  split
  · exact .bind (recordAuditEvent_composed _ _ _ _ _) fun _ => .ret _
  · exact .bind (getRow_composed _ (fun _ => rfl) rfl) fun _ =>
      .bind (recordAuditEvent_composed _ _ _ _ _) fun _ =>
        .bind (recordZeroEvent_composed _) fun _ => .ret _

theorem onFirstDelivery_composed (event : PaymentCallbackEvent) (parsed : ProviderCallbackResult) :
    Composed env X (onFirstDelivery env event parsed) := by
  apply Composed.bind (checkParameter_composed _)
  intro _
  apply Composed.bind (.fetch _ _ (fun _ => rfl) rfl)
  intro found
  cases found with
  | none =>
      exact .bind (.onBooks _) fun _ => .bind (recordAuditEvent_composed _ _ _ _ _) fun _ => .ret _
  | some payment =>
      exact .bind (.onBooks _) fun _ => .bind (applyOutcome_composed _ _) fun _ => .ret _

theorem processCallback_composed (provider : PaymentProvider) (inbound : InboundCallback) :
    Composed env X (processCallback env provider inbound) := by
  apply Composed.bind (getAdapter_composed _)
  intro adapter
  split
  · exact .bind (insertCallbackEvent_composed _ _ _ _ _ _) fun _ =>
      .bind (recordAuditEvent_composed _ _ _ _ _) fun _ => .ret _
  · exact .throw _
  · refine .bind (.attempt (insertCallbackEvent_composed _ _ _ _ _ _)) fun inserted => ?_
    cases inserted with
    | error e => exact onDuplicate_composed _ _
    | ok event => exact onFirstDelivery_composed _ _

/-! ### Refunds and reversals -/

theorem undoPayment_composed {record : Payment → Tx Unit} {newStatus : PaymentStatus}
    {name : String} {metadata : List (String × String)} {notification : NotificationEventType}
    (hrecord : ∀ payment, Composed env X (record payment)) :
    Composed env X (undoPayment env payment newStatus record name metadata notification) :=
  .bind (paymentTransitionTo_composed _ _) fun _ =>
    .bind (recordAuditEvent_composed _ _ _ _ _) fun _ =>
      .bind (hrecord _) fun _ =>
        .bind (loadRelated_composed _) fun _ =>
          .bind (dispatch_composed _ _ _ _) fun _ => .bind (notify_composed _ _ _ _) fun _ => .ret _

theorem refundPayment_composed (amount : Option Amount) :
    Composed env X (refundPayment env payment amount) :=
  .bind (raiseIf_composed _ _) fun _ =>
    .bind adapterOf_composed fun _ =>
      .bind (askProvider_composed _ _) fun _ =>
        composed_ite (undoPayment_composed fun _ => compensate_composed _ _) (.ret _)

theorem reversePayment_composed : Composed env X (reversePayment env payment) :=
  .bind (raiseIf_composed _ _) fun _ =>
    .bind adapterOf_composed fun _ =>
      .bind (askProvider_composed _ _) fun _ =>
        composed_ite (undoPayment_composed fun _ => compensate_composed _ _) (.ret _)

/-! ### Settlement -/

theorem selectForUpdate_composed (keep : Payment → Bool) (payments : List Payment) :
    Composed env X (selectForUpdate keep payments) := by
  induction payments with
  | nil => exact .ret _
  | cons payment rest ih =>
      exact .bind (.acquire _) fun _ =>
        .bind (.fetch _ _ (fun _ => rfl) rfl) fun _ => .bind ih fun _ => .ret _

theorem insertBatch_composed (batch : SettlementBatch) : Composed env X (insertBatch batch) :=
  .bind (.acquire _) fun _ =>
    .bind (.acquire _) fun _ =>
      .bind (.fetch _ _ (fun _ => rfl) rfl) fun _ =>
        .bind (raiseIf_composed _ _) fun _ => .onBooks _

theorem generateSettlementBatch_composed (tenant provider : ℕ) (periodStart periodEnd : Time) :
    Composed env X (generateSettlementBatch env tenant provider periodStart periodEnd) :=
  .bind (.fetch _ _ (fun _ => rfl) rfl) fun _ =>
    .bind (selectForUpdate_composed _ _) fun _ =>
      .bind (.fetch _ _ (fun _ => rfl) rfl) fun _ =>
        .bind (getTenant_composed _) fun _ =>
          .bind (storeNumeric_composed _) fun _ =>
            .bind (storeNumeric_composed _) fun _ =>
              .bind (storeNumeric_composed _) fun _ =>
                .bind (insertBatch_composed _) fun _ =>
                  .bind (.onBooks _) fun _ =>
                    .bind (recordAuditEvent_composed _ _ _ _ _) fun _ => .ret _

theorem markSettlementCompleted_composed (batch : SettlementBatch) (reference : String) :
    Composed env X (markSettlementCompleted env batch reference) :=
  .bind (checkVarchar_composed _ _) fun _ =>
    .bind (.onBooks _) fun _ =>
      .bind (recordAuditEvent_composed _ _ _ _ _) fun _ => dispatchEvent_composed _ _ _

/-! ### Reconciliation -/

/-- The writes of a reconciliation to its own tables. -/
inductive OnRuns : (DB → DB) → Prop
  | addRun (run : ReconciliationRun) : OnRuns (inTrail (·.addRun run))
  | saveRun (run : ReconciliationRun) : OnRuns (inTrail (·.saveRun run))
  | addException (row : ReconciliationException) : OnRuns (inTrail (·.addException row))

section Reconciliation

variable (hX : ∀ w, OnRuns w → X w)
include hX

theorem openException_composed (run : ReconciliationRun) (payment : Payment)
    (exceptionType : ExceptionType) (details : List (String × String)) :
    Composed env X (openException run payment exceptionType details) :=
  .bind (.extra _ (hX _ (.addException _))) fun _ => .ret _

theorem resolveUnknown_composed (run : ReconciliationRun) (unknown : List Payment) :
    Composed env X (resolveUnknown env run unknown) := by
  induction unknown generalizing run with
  | nil => exact .ret _
  | cons payment rest ih =>
      exact .bind queryPayment_composed fun _ =>
        composed_ite (ih _) (.bind (openException_composed hX _ _ _ _) fun _ => ih _)

theorem checkSettled_composed (run : ReconciliationRun) (settled : List Payment) :
    Composed env X (checkSettled env run settled) := by
  induction settled generalizing run with
  | nil => exact .ret _
  | cons payment rest ih =>
      refine .bind adapterOf_composed fun _ => .bind (askProvider_composed _ _) fun _ =>
        .bind ?_ fun _ => ih _
      exact composed_ite (openException_composed hX _ _ _ _)
        (composed_ite (openException_composed hX _ _ _ _) (.ret _))

theorem runReconciliation_composed (tenant : ℕ) :
    Composed env X (runReconciliation env tenant) := by
  refine .bind (.extra _ (hX _ (.addRun _))) fun _ => .bind ?_ fun _ => .bind ?_ fun _ =>
    .bind (.extra _ (hX _ (.saveRun _))) fun _ => .ret _
  · exact .bind (.fetch _ _ (fun _ => rfl) rfl) fun _ =>
      .bind (resolveUnknown_composed hX _ _) fun _ =>
        .bind (.extra _ (hX _ (.saveRun _))) fun _ => .ret _
  · exact .bind (.fetch _ _ (fun _ => rfl) rfl) fun _ =>
      .bind (checkSettled_composed hX _ _) fun _ =>
        .bind (.extra _ (hX _ (.saveRun _))) fun _ => .ret _

end Reconciliation

/-! ### Early errors -/

section Early

theorem cancelBill_early (bill : Bill) : Early (cancelBill env bill) := by
  unfold Early cancelBill
  have hlate : ∀ (e : Error) (pend : DB → DB), e.isValidationError = false →
      e.isValidationError = true → pend = id := fun e _ hlate hearly => by simp [hlate] at hearly
  simp only [Txn.wp_bind]
  refine wp_billTransitionTo env bill .cancelled (fun _ _ _ => rfl) fun _ => ?_
  refine (recordAuditEvent_onTrail _ _ _ _ _ _).wp (fun _ _ _ => ?_) fun e p he _ => hlate e p he
  exact (dispatchBillEvent_onTrail _ _ _ _).wp (fun _ _ _ => trivial) fun e p he _ => hlate e p he

/-- What `refund_payment` and `reverse_payment` do once the provider has agreed. -/
theorem undoPayment_early {newStatus : PaymentStatus} {record : Payment → Tx Unit} {name : String}
    {metadata : List (String × String)} {notification : NotificationEventType}
    (hrecord : record (payment.moveTo env.now newStatus "") =
      compensate env (payment.moveTo env.now newStatus "") newStatus.compensation.1
        newStatus.compensation.2) :
    Early (undoPayment env payment newStatus record name metadata notification) := by
  unfold Early undoPayment
  have hlate : ∀ (e : Error) (pend : DB → DB), e.isValidationError = false →
      e.isValidationError = true → pend = id := fun e _ hlate hearly => by simp [hlate] at hearly
  simp only [Txn.wp_bind, wp_paymentTransitionTo, hrecord]
  refine ⟨fun _ _ => trivial, fun _ => ⟨fun _ => ?_, fun _ _ => trivial⟩⟩
  refine (recordAuditEvent_onTrail _ _ _ _ _ _).wp (fun _ _ _ => ?_) fun e p he _ => hlate e p he
  refine wp_compensate (payment.moveTo env.now newStatus "") hlate fun _ _ _ _ _ => ?_
  refine (loadRelated_onTrail _ _).wp (fun _ _ _ => ?_) fun e p he _ => hlate e p he
  refine (dispatch_onTrail _ _ _ _ _ _).wp (fun _ _ _ => ?_) fun e p he _ => hlate e p he
  exact (notify_onTrail _ _ _ _ _ _).wp (fun _ _ _ => trivial) fun e p he _ => hlate e p he

theorem refundPayment_early (amount : Option Amount) :
    Early (refundPayment env payment amount) := by
  unfold Early refundPayment
  have hlate : ∀ (e : Error) (pend : DB → DB), e.isValidationError = false →
      e.isValidationError = true → pend = id := fun e _ hlate hearly => by simp [hlate] at hearly
  simp only [Txn.wp_bind, wp_raiseIf]
  refine ⟨fun _ _ => trivial, fun _ => ?_⟩
  refine wp_adapterOf (fun e he => hlate e _ he) fun adapter _ => ?_
  rw [wp_askProvider]
  refine ⟨trivial, fun result _ => ?_, fun e _ => hlate _ _ rfl⟩
  rw [Txn.wp_ite]
  exact ⟨fun _ => undoPayment_early rfl, fun _ => trivial⟩

theorem reversePayment_early : Early (reversePayment env payment) := by
  unfold Early reversePayment
  have hlate : ∀ (e : Error) (pend : DB → DB), e.isValidationError = false →
      e.isValidationError = true → pend = id := fun e _ hlate hearly => by simp [hlate] at hearly
  simp only [Txn.wp_bind, wp_raiseIf]
  refine ⟨fun _ _ => trivial, fun _ => ?_⟩
  refine wp_adapterOf (fun e he => hlate e _ he) fun adapter _ => ?_
  rw [wp_askProvider]
  refine ⟨trivial, fun result _ => ?_, fun e _ => hlate _ _ rfl⟩
  rw [Txn.wp_ite]
  exact ⟨fun _ => undoPayment_early rfl, fun _ => trivial⟩

end Early

/-! ### Views -/

/-- The writes that are not the services' own: to the rows of a reconciliation and to a tenant. -/
inductive Extra : (DB → DB) → Prop
  | run (w : DB → DB) (h : OnRuns w) : Extra w
  | tenant (tenant : ℕ) (f : Tenant → Tenant) :
      Extra fun db =>
        { db with tenants := db.tenants.map fun row => if row.id = tenant then f row else row }

section Views

variable (env)

theorem billCreate_composed (input : BillInput) : Composed env X (billCreate env input) := by
  refine .bind (getOr404_composed _ (fun _ => rfl) rfl) fun _ => .bind (getOrCreateBill_composed _)
    fun outcome => composed_ite ?_ (.ret _)
  exact .bind (billTransitionTo_composed _ _) fun _ =>
    .bind (getOrCreateForBill_composed _ _ _) fun _ => .ret _

theorem billListCreate_composed (input : BillInput) :
    Composed env X (billListCreate env input) := by
  refine .bind (getOr404_composed _ (fun _ => rfl) rfl) fun _ => .bind (getOrCreateBill_composed _)
    fun outcome => composed_ite ?_ (.ret _)
  exact .bind (billTransitionTo_composed _ _) fun _ => .ret _

theorem billCancel_composed (tenant pk : ℕ) : Composed env X (billCancel env tenant pk) := by
  refine .bind (getOr404_composed _ (fun _ => rfl) rfl) fun bill => .showing
    (.bind (cancelBill_composed _) fun _ => .ret _) ?_
  exact (Txn.wp_bind _ _).mpr (cancelBill_early bill)

theorem payBill_composed (tenant billPk : ℕ) (code : String) (amount : EnteredAmount)
    (payerReference : String) (metadata : List (String × String)) :
    Composed env X (payBill env tenant billPk code amount payerReference metadata) := by
  refine .bind (getOr404_composed _ (fun _ => rfl) rfl) fun bill =>
    .bind (.fetch _ _ (fun _ => rfl) rfl)
    fun found => ?_
  cases found with
  | none => exact .ret _
  | some cn =>
      exact .bind (getRow_composed _ (fun _ => rfl) rfl) fun _ =>
        .bind (initiatePayment_composed _ _) fun _ => .ret _

theorem paymentRefund_composed (tenant pk : ℕ) (amount : Option Amount) :
    Composed env X (paymentRefund env tenant pk amount) := by
  refine .bind (getOr404_composed _ (fun _ => rfl) rfl) fun payment => .showing
    (.bind (refundPayment_composed _) fun _ => .ret _) ?_
  exact (Txn.wp_bind _ _).mpr (refundPayment_early amount)

theorem paymentReverse_composed (tenant pk : ℕ) :
    Composed env X (paymentReverse env tenant pk) := by
  refine .bind (getOr404_composed _ (fun _ => rfl) rfl) fun payment => .showing
    (.bind reversePayment_composed fun _ => .ret _) ?_
  exact (Txn.wp_bind _ _).mpr reversePayment_early

theorem providerCallback_composed (code : String) (inbound : InboundCallback) :
    Composed env X (providerCallback env code inbound) := by
  apply Composed.bind (.fetch _ _ (fun _ => rfl) rfl)
  intro found
  cases found with
  | none => exact .ret _
  | some provider => exact .bind (processCallback_composed _ _) fun _ => .ret _

end Views

/-- Every request is composed of the statements of the services. -/
theorem handler_composed (request : Request) : Composed request.env Extra request.handler := by
  obtain ⟨env, action⟩ := request
  cases action with
  | billCreate input => exact billCreate_composed env input
  | billListCreate input => exact billListCreate_composed env input
  | billCancel tenant pk => exact billCancel_composed env tenant pk
  | billRequestControlNumber tenant pk =>
      exact .bind (getOr404_composed _ (fun _ => rfl) rfl) fun _ =>
        .bind (getOrCreateForBill_composed _ _ _) fun _ => .ret _
  | accountRequestControlNumber tenant pk expiresAt =>
      exact .bind (getOr404_composed _ (fun _ => rfl) rfl) fun _ =>
        .bind (getOrCreateForAccount_composed _ _ _) fun _ => .ret _
  | controlNumberCancel tenant pk =>
      exact .bind (getOr404_composed _ (fun _ => rfl) rfl) fun _ => cancelControlNumber_composed _
  | expireOverdue tenant => exact expireOverdue_composed tenant
  | payBill tenant billPk code amount payerReference metadata =>
      exact payBill_composed env tenant billPk code amount payerReference metadata
  | paymentListCreate tenant value code channel amount payerReference key metadata =>
      exact .bind (getOr404_composed _ (fun _ => rfl) rfl) fun _ =>
        .bind (getOr404_composed _ (fun _ => rfl) rfl) fun _ =>
          .bind (initiatePayment_composed _ _) fun _ => .ret _
  | paymentQuery tenant pk =>
      exact .bind (getOr404_composed _ (fun _ => rfl) rfl) fun _ =>
        .bind queryPayment_composed fun _ => .ret _
  | paymentRefund tenant pk amount => exact paymentRefund_composed env tenant pk amount
  | paymentReverse tenant pk => exact paymentReverse_composed env tenant pk
  | providerCallback code inbound => exact providerCallback_composed env code inbound
  | triggerRun tenant =>
      exact .bind (runReconciliation_composed .run tenant) fun _ => .ret _
  | generateBatch tenant provider periodStart periodEnd =>
      exact .bind (getProvider_composed _) fun _ =>
        .bind (generateSettlementBatch_composed _ _ _ _) fun _ => .ret _
  | markCompleted pk reference =>
      exact .bind (getOr404_composed _ (fun _ => rfl) rfl) fun _ =>
        markSettlementCompleted_composed _ _
  | changeFeeRefundPolicy tenant policy => exact .extra _ (.tenant _ _)
  | changeDefaultCurrency tenant currency =>
      exact .bind (checkVarchar_composed _ _) fun _ => .extra _ (.tenant _ _)

end Composed

end Kusanya
