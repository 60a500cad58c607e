import Kusanya.Moves.Rules
import Kusanya.ReadCommitted.Serial

/-!
# Rows of the outbox

Exactly which notifications and webhook deliveries the functions of `Model.Outbox` write,
as functions of the directory, and that they read nothing else.
-/

namespace Kusanya

open ReadCommitted Support

def Trail.addNotifications (trail : Trail) (rows : List Notification) : Trail :=
  { trail with
    notifications := trail.notifications ++ rows
    onCommit := trail.onCommit ++ rows.map .deliverNotification }

def Trail.addDeliveries (trail : Trail) (rows : List WebhookDelivery) : Trail :=
  { trail with
    deliveries := trail.deliveries ++ rows
    onCommit := trail.onCommit ++ rows.map .deliverWebhook }

/-- The row that `send_notification` creates for one channel, or the exception it raises. -/
def noticeOn (env : Env) (db : DB) (tenant : ℕ) (eventType : NotificationEventType)
    (channel : NotificationChannel) (context : List (String × String)) (recipient : String) :
    Except Error (List Notification) :=
  if recipient = "" then .ok [] else
    let template := templateFor db tenant eventType channel
    match env.formatMap template.1 (safeDict context),
        env.formatMap template.2 (safeDict context) with
    | some subject, some body =>
        let row : Notification :=
          { tenant, eventType, channel, recipient, body
            subject := if channel = .email then subject else ""
            correlationId := env.correlationId }
        if 255 < recipient.length then .error .valueError
        else if Varchar 255 row.subject ∧ '\x00' ∉ row.body.toList ∧
            Text.Fits 64 row.correlationId then .ok [row]
        else .error .dataError
    | _, _ => .error .formatError

section Channels

variable {env : Env} {db : DB} {tenant : ℕ} {eventType : NotificationEventType}
  {channel : NotificationChannel} {context : List (String × String)} {recipient : String}

/-- One row goes to a recipient, and none where there is none. -/
theorem noticeOn_ok {rows : List Notification}
    (h : noticeOn env db tenant eventType channel context recipient = .ok rows) :
    recipient = "" ∧ rows = [] ∨ recipient ≠ "" ∧ ∃ row : Notification, rows = [row] ∧
      row.tenant = tenant ∧ row.eventType = eventType ∧ row.channel = channel ∧
      row.recipient = recipient := by
  rw [noticeOn] at h
  by_cases hblank : recipient = ""
  · rw [if_pos hblank] at h
    exact Or.inl ⟨hblank, (Except.ok.inj h).symm⟩
  rw [if_neg hblank] at h
  refine Or.inr ⟨hblank, ?_⟩
  dsimp only at h
  split at h
  · next subject body _ _ =>
      by_cases hlong : 255 < recipient.length
      · rw [if_pos hlong] at h
        cases h
      rw [if_neg hlong] at h
      by_cases hfits : Varchar 255 (if channel = .email then subject else "") ∧
          '\x00' ∉ body.toList ∧ Text.Fits 64 env.correlationId
      · rw [if_pos hfits] at h
        exact ⟨_, (Except.ok.inj h).symm, rfl, rfl, rfl, rfl⟩
      · rw [if_neg hfits] at h
        cases h
  · cases h

/-- A row that cannot be rendered or stored collides with none. -/
theorem noticeOn_error {e : Error}
    (h : noticeOn env db tenant eventType channel context recipient = .error e) :
    e.isIntegrityError = false := by
  rw [noticeOn] at h
  split at h
  · cases h
  dsimp only at h
  split at h
  · next subject body _ _ =>
      by_cases hlong : 255 < recipient.length
      · rw [if_pos hlong] at h
        rw [← Except.error.inj h]
        rfl
      rw [if_neg hlong] at h
      by_cases hfits : Varchar 255 (if channel = .email then subject else "") ∧
          '\x00' ∉ body.toList ∧ Text.Fits 64 env.correlationId
      · rw [if_pos hfits] at h
        cases h
      · rw [if_neg hfits] at h
        rw [← Except.error.inj h]
        rfl
  · rw [← Except.error.inj h]
    rfl

end Channels

/-- The rows that `send_notification` creates. -/
def notices (env : Env) (db : DB) (tenant : ℕ) (eventType : NotificationEventType)
    (context : List (String × String)) (recipientEmail recipientPhone : String) :
    Except Error (List Notification) :=
  match noticeOn env db tenant eventType .email context recipientEmail,
      noticeOn env db tenant eventType .sms context recipientPhone with
  | .ok emails, .ok texts => .ok (emails ++ texts)
  | .ok _, .error e => .error e
  | .error e, _ => .error e

/-- The rows that `dispatch_event` creates for a list of endpoints. -/
def deliveriesTo (env : Env) (tenant : ℕ) (eventType : String)
    (payload : List (String × Option String)) (endpoints : List WebhookEndpoint) :
    List WebhookDelivery :=
  (endpoints.filter (·.isSubscribedTo eventType)).map fun endpoint =>
    { tenant, eventType, payload
      endpoint := endpoint.id
      correlationId := env.correlationId }

/-- The active endpoints of a tenant. -/
def activeEndpoints (db : DB) (tenant : ℕ) : List WebhookEndpoint :=
  db.endpoints.filter fun e => e.tenant = tenant && e.isActive

/-- Notifications depend on the directory only. -/
theorem notices_congr {s t : DB} (h : s.toDirectory = t.toDirectory) (env : Env) (tenant : ℕ)
    (eventType : NotificationEventType) (context : List (String × String)) (email phone : String) :
    notices env s tenant eventType context email phone =
      notices env t tenant eventType context email phone := by
  unfold notices noticeOn templateFor
  rw [h]

section Rows

variable (env : Env) (s : DB) (tenant : ℕ)

theorem addNotifications_nil (trail : Trail) : trail.addNotifications [] = trail := by
  simp [Trail.addNotifications]

theorem addNotifications_append (trail : Trail) (rows rows' : List Notification) :
    (trail.addNotifications rows).addNotifications rows' =
      trail.addNotifications (rows ++ rows') := by
  simp [Trail.addNotifications]

theorem addDeliveries_nil (trail : Trail) : trail.addDeliveries [] = trail := by
  simp [Trail.addDeliveries]

theorem inTrail_inTrail (w w' : Trail → Trail) (db : DB) :
    inTrail w' (inTrail w db) = inTrail (w' ∘ w) db := rfl

theorem exec_recordAuditEvent (action : String) (tenant : Option ℕ) (target : Option Source)
    (after metadata : List (String × String)) :
    (recordAuditEvent env action tenant target after metadata).exec s =
      if env.Auditable then .ok ((), inTrail (·.addAudit
        { action, tenant, target, after, metadata
          actor := env.actor
          ipAddress := env.storedAddress
          userAgent := env.userAgent
          correlationId := env.correlationId
          createdAt := env.now }) s)
      else .error env.auditError := by
  rw [recordAuditEvent, Txn.exec_bind, exec_raiseIf]
  by_cases hauditable : env.Auditable
  · rw [if_neg (not_not.mpr hauditable), if_pos hauditable]
    rfl
  · rw [if_pos hauditable, if_neg hauditable]

variable {env s} in
theorem exec_recordAuditEvent_ok {action : String} {tenant : Option ℕ} {target : Option Source}
    {after metadata : List (String × String)} {t : DB}
    (h : (recordAuditEvent env action tenant target after metadata).exec s = .ok ((), t)) :
    env.Auditable ∧ t = inTrail (·.addAudit
      { action, tenant, target, after, metadata
        actor := env.actor
        ipAddress := env.storedAddress
        userAgent := env.userAgent
        correlationId := env.correlationId
        createdAt := env.now }) s := by
  rw [exec_recordAuditEvent] at h
  split at h
  · next hauditable =>
      obtain ⟨-, rfl⟩ := Prod.mk.inj (Except.ok.inj h)
      exact ⟨hauditable, rfl⟩
  · cases h

variable {env} in
theorem exec_recordAuditEvent_auditable (hauditable : env.Auditable) (action : String)
    (tenant : Option ℕ) (target : Option Source) (after metadata : List (String × String)) :
    ∃ t, (recordAuditEvent env action tenant target after metadata).exec s = .ok ((), t) ∧
      t.toDirectory = s.toDirectory ∧ t.toBooks = s.toBooks := by
  rw [exec_recordAuditEvent, if_pos hauditable]
  exact ⟨_, rfl, rfl, rfl⟩

theorem exec_sendOn (eventType : NotificationEventType) (channel : NotificationChannel)
    (context : List (String × String)) (recipient : String) :
    (sendOn env tenant eventType channel context recipient).exec s =
      match noticeOn env s tenant eventType channel context recipient with
      | .ok rows => .ok ((), inTrail (·.addNotifications rows) s)
      | .error e => .error e := by
  unfold sendOn noticeOn
  by_cases hblank : recipient = ""
  · simp [hblank, inTrail, addNotifications_nil]
  · simp only [hblank, if_false, Txn.exec_bind, renderTemplate, Txn.exec_fetch]
    cases hsubject :
        env.formatMap (templateFor s tenant eventType channel).1 (safeDict context) with
    | none => rfl
    | some subject =>
        cases hbody :
            env.formatMap (templateFor s tenant eventType channel).2 (safeDict context) with
        | none => rfl
        | some body =>
            simp only [Txn.pure_eq_ret, Txn.exec_ret, createNotification, Txn.exec_bind,
              exec_raiseIf]
            by_cases hlong : 255 < recipient.length
            · simp [hlong]
            · simp only [hlong, if_false, exec_checkVarchar]
              by_cases hsubject : Varchar 255 (if channel = .email then subject else "")
              · rw [if_pos hsubject]
                dsimp only
                rw [exec_checkParameter]
                by_cases hbody : '\x00' ∈ body.toList
                · have hrow : ¬(Varchar 255 (if channel = .email then subject else "") ∧
                      '\x00' ∉ body.toList ∧ Text.Fits 64 env.correlationId) :=
                    fun h => h.2.1 hbody
                  rw [if_pos hbody, if_neg hrow]
                rw [if_neg hbody]
                dsimp only
                rw [exec_storeCorrelationId]
                by_cases hcorrelated : Text.Fits 64 env.correlationId
                · have hrow : Varchar 255 (if channel = .email then subject else "") ∧
                      '\x00' ∉ body.toList ∧ Text.Fits 64 env.correlationId :=
                    ⟨hsubject, hbody, hcorrelated⟩
                  rw [if_pos hcorrelated, if_pos hrow]
                  rfl
                · have hrow : ¬(Varchar 255 (if channel = .email then subject else "") ∧
                      '\x00' ∉ body.toList ∧ Text.Fits 64 env.correlationId) :=
                    fun h => hcorrelated h.2.2
                  rw [if_neg hcorrelated, if_neg hrow]
              · have hrow : ¬(Varchar 255 (if channel = .email then subject else "") ∧
                    '\x00' ∉ body.toList ∧ Text.Fits 64 env.correlationId) :=
                  fun h => hsubject h.1
                rw [if_neg hsubject, if_neg hrow]

theorem exec_sendNotification (eventType : NotificationEventType)
    (context : List (String × String)) (recipientEmail recipientPhone : String) :
    (sendNotification env tenant eventType context recipientEmail recipientPhone).exec s =
      match notices env s tenant eventType context recipientEmail recipientPhone with
      | .ok rows => .ok ((), inTrail (·.addNotifications rows) s)
      | .error e => .error e := by
  have hsame : ∀ rows, noticeOn env (inTrail (·.addNotifications rows) s) tenant eventType .sms
      context recipientPhone = noticeOn env s tenant eventType .sms context recipientPhone :=
    fun _ => rfl
  unfold sendNotification notices
  rw [Txn.exec_bind, exec_sendOn]
  cases noticeOn env s tenant eventType .email context recipientEmail with
  | error e => rfl
  | ok emails =>
      simp only [exec_sendOn, hsame]
      cases noticeOn env s tenant eventType .sms context recipientPhone with
      | error e => rfl
      | ok texts =>
          have hboth : ((·.addNotifications texts) ∘ (·.addNotifications emails) : Trail → Trail) =
              (·.addNotifications (emails ++ texts)) :=
            funext fun trail => addNotifications_append trail emails texts
          simp only [inTrail_inTrail]
          rw [hboth]

theorem exec_deliverAll (hcorrelated : Text.Fits 64 env.correlationId) (eventType : String)
    (payload : List (String × Option String)) (endpoints : List WebhookEndpoint) :
    (deliverAll env tenant eventType payload endpoints).exec s =
      .ok ((),
        inTrail (·.addDeliveries (deliveriesTo env tenant eventType payload endpoints)) s) := by
  induction endpoints generalizing s with
  | nil => simp [deliverAll, deliveriesTo, inTrail, addDeliveries_nil]
  | cons endpoint rest ih =>
      unfold deliverAll deliverTo
      by_cases hsubscribed : endpoint.isSubscribedTo eventType
      · simp only [hsubscribed, if_true, Txn.exec_bind, exec_storeCorrelationId, exec_onTrail, ih,
          if_pos hcorrelated]
        simp [inTrail, deliveriesTo, hsubscribed, Trail.addDelivery, Trail.addDeliveries]
      · rw [if_neg hsubscribed, Txn.exec_bind]
        simp only [Txn.pure_eq_ret, Txn.exec_ret, ih]
        simp [deliveriesTo, hsubscribed]

theorem exec_dispatchEvent (hcorrelated : Text.Fits 64 env.correlationId) (eventType : String)
    (payload : List (String × Option String)) :
    (dispatchEvent env tenant eventType payload).exec s =
      .ok ((), inTrail (·.addDeliveries
        (deliveriesTo env tenant eventType payload (activeEndpoints s tenant))) s) := by
  unfold dispatchEvent
  rw [Txn.exec_bind, Txn.exec_fetch]
  exact exec_deliverAll env s tenant hcorrelated eventType payload _

variable {env s tenant} in
theorem exec_deliverAll_ok {eventType : String} {payload : List (String × Option String)}
    {endpoints : List WebhookEndpoint} {t : DB}
    (h : (deliverAll env tenant eventType payload endpoints).exec s = .ok ((), t)) :
    t = inTrail (·.addDeliveries (deliveriesTo env tenant eventType payload endpoints)) s := by
  induction endpoints generalizing s with
  | nil =>
      obtain ⟨-, rfl⟩ := Prod.mk.inj (Except.ok.inj h)
      simp [deliveriesTo, inTrail, addDeliveries_nil]
  | cons endpoint rest ih =>
      obtain ⟨_, u, hfirst, hrest⟩ := (Txn.exec_bind_ok _).mp h
      obtain rfl := ih hrest
      unfold deliverTo at hfirst
      by_cases hsubscribed : endpoint.isSubscribedTo eventType
      · rw [if_pos hsubscribed, Txn.exec_bind, exec_storeCorrelationId] at hfirst
        split at hfirst
        · next hstored =>
            split at hstored
            · obtain ⟨-, rfl⟩ := Prod.mk.inj (Except.ok.inj hstored)
              obtain ⟨-, rfl⟩ := Prod.mk.inj (Except.ok.inj hfirst)
              simp [inTrail, deliveriesTo, hsubscribed, Trail.addDelivery, Trail.addDeliveries]
            · cases hstored
        · cases hfirst
      · rw [if_neg hsubscribed] at hfirst
        obtain ⟨-, rfl⟩ := Prod.mk.inj (Except.ok.inj hfirst)
        simp [deliveriesTo, hsubscribed]

variable {env s tenant} in
theorem exec_dispatchEvent_ok {eventType : String} {payload : List (String × Option String)}
    {t : DB} (h : (dispatchEvent env tenant eventType payload).exec s = .ok ((), t)) :
    t = inTrail (·.addDeliveries
      (deliveriesTo env tenant eventType payload (activeEndpoints s tenant))) s := by
  unfold dispatchEvent at h
  rw [Txn.exec_bind, Txn.exec_fetch] at h
  exact exec_deliverAll_ok h

end Rows

/-- What follows a transition begins with an audit row. -/
theorem auditable_of_onEntered {env : Env} {payment : Payment} {related : Related}
    {target : PaymentStatus} {s t : DB}
    (h : (onEntered env payment related target).exec s = .ok ((), t)) : env.Auditable := by
  cases target with
  | successful | failed | _ =>
      obtain ⟨_, u, haudit, -⟩ := (Txn.exec_bind_ok _).mp h
      exact (exec_recordAuditEvent_ok haudit).1

/-! ## Nothing but the directory is read -/

/-- A piece of code that reads the directory only, writes nothing but the trail and raises no
`IntegrityError`. -/
abbrev OnDirectory {α : Type} (p : Tx α) : Prop :=
  p.Steady DB.toDirectory fun e => e.isIntegrityError = false

section OnDirectory

theorem getRow_onDirectory {α : Type} (what : Resource) {q : DB → Option α}
    (hq : ∀ s t : DB, s.toDirectory = t.toDirectory → q s = q t) : OnDirectory (getRow what q) := by
  apply Txn.steady_bind (Txn.steady_fetch hq)
  intro row
  cases row with
  | none => exact Txn.steady_throw rfl
  | some row => exact Txn.steady_ret row

theorem getTenant_onDirectory (id : ℕ) : OnDirectory (getTenant id) :=
  getRow_onDirectory _ fun _ _ h => congrArg (fun d : Directory => d.tenants.find? (·.id = id)) h

theorem getAccount_onDirectory (id : ℕ) : OnDirectory (getAccount id) :=
  getRow_onDirectory _ fun _ _ h => congrArg (fun d : Directory => d.accounts.find? (·.id = id)) h

theorem getCustomer_onDirectory (id : ℕ) : OnDirectory (getCustomer id) :=
  getRow_onDirectory _ fun _ _ h => congrArg (fun d : Directory => d.customers.find? (·.id = id)) h

theorem customerOf_onDirectory (account : ℕ) : OnDirectory (customerOf account) :=
  Txn.steady_bind (getAccount_onDirectory _) fun _ => getCustomer_onDirectory _

theorem raiseIf_onDirectory (c : Prop) [Decidable c] {e : Error} (he : e.isIntegrityError = false) :
    OnDirectory (raiseIf c e) :=
  Txn.steady_ite (Txn.steady_throw he) (Txn.steady_ret _)

theorem checkVarchar_onDirectory (n : ℕ) (text : String) : OnDirectory (checkVarchar n text) :=
  Txn.steady_ite (Txn.steady_ret _) (Txn.steady_throw rfl)

theorem checkParameter_onDirectory (text : String) : OnDirectory (checkParameter text) :=
  Txn.steady_ite (Txn.steady_throw rfl) (Txn.steady_ret _)

theorem storeCorrelationId_onDirectory (correlationId : Text) :
    OnDirectory (storeCorrelationId correlationId) :=
  raiseIf_onDirectory _ rfl

theorem storeNumeric_onDirectory (m : Money) : OnDirectory (storeNumeric m) := by
  unfold storeNumeric
  cases Numeric.ofMoney? m with
  | none => exact Txn.steady_throw rfl
  | some n => exact Txn.steady_ret n

theorem onTrail_onDirectory (w : Trail → Trail) : OnDirectory (onTrail w) :=
  Txn.steady_modify fun _ => rfl

theorem onBooks_onDirectory (w : Books → Books) : OnDirectory (onBooks w) :=
  Txn.steady_modify fun _ => rfl

theorem recordAuditEvent_onDirectory (env : Env) (action : String) (tenant : Option ℕ)
    (target : Option Source) (after metadata : List (String × String)) :
    OnDirectory (recordAuditEvent env action tenant target after metadata) :=
  Txn.steady_bind (raiseIf_onDirectory _ (auditError_isIntegrityError env)) fun _ =>
    onTrail_onDirectory _

theorem postEntry_onDirectory (env : Env) (tenant : ℕ) (entryType : LedgerEntryType)
    (account : LedgerAccount) (amount : Numeric) (currency reference : String)
    (source : Option Source) (relatedEntry : Option Posting)
    (metadata : List (String × String)) :
    OnDirectory (postEntry env tenant entryType account amount currency reference source
      relatedEntry metadata) :=
  Txn.steady_bind (storeCorrelationId_onDirectory _) fun _ =>
    Txn.steady_bind (onBooks_onDirectory _) fun _ => Txn.steady_ret _

theorem recordEvent_onDirectory (env : Env) (tenant : ℕ) (eventType : RevenueEventType)
    (amount : Numeric) (currency : String) (source : Source) (ledgerEntry : Option LedgerEntry)
    (metadata : List (String × String)) :
    OnDirectory (recordEvent env tenant eventType amount currency source ledgerEntry metadata) :=
  Txn.steady_bind (storeCorrelationId_onDirectory _) fun _ => onBooks_onDirectory _

theorem sendOn_onDirectory (env : Env) (tenant : ℕ) (eventType : NotificationEventType)
    (channel : NotificationChannel) (context : List (String × String)) (recipient : String) :
    OnDirectory (sendOn env tenant eventType channel context recipient) := by
  have htemplate : ∀ s t : DB, s.toDirectory = t.toDirectory →
      templateFor s tenant eventType channel = templateFor t tenant eventType channel := by
    intro s t h
    unfold templateFor
    rw [h]
  apply Txn.steady_ite (Txn.steady_ret _)
  apply Txn.steady_bind
  · apply Txn.steady_bind (Txn.steady_fetch htemplate)
    intro template
    split
    · exact Txn.steady_ret _
    · exact Txn.steady_throw rfl
  · intro rendered
    apply Txn.steady_bind (raiseIf_onDirectory _ rfl)
    intro _
    apply Txn.steady_bind (checkVarchar_onDirectory _ _)
    intro _
    apply Txn.steady_bind (checkParameter_onDirectory _)
    intro _
    exact Txn.steady_bind (storeCorrelationId_onDirectory _) fun _ => onTrail_onDirectory _

theorem sendNotification_onDirectory (env : Env) (tenant : ℕ) (eventType : NotificationEventType)
    (context : List (String × String)) (recipientEmail recipientPhone : String) :
    OnDirectory (sendNotification env tenant eventType context recipientEmail recipientPhone) :=
  Txn.steady_bind (sendOn_onDirectory _ _ _ _ _ _) fun _ => sendOn_onDirectory _ _ _ _ _ _

theorem deliverAll_onDirectory (env : Env) (tenant : ℕ) (eventType : String)
    (payload : List (String × Option String)) (endpoints : List WebhookEndpoint) :
    OnDirectory (deliverAll env tenant eventType payload endpoints) := by
  induction endpoints with
  | nil => exact Txn.steady_ret _
  | cons endpoint rest ih =>
      apply Txn.steady_bind
      · apply Txn.steady_ite _ (Txn.steady_ret _)
        exact Txn.steady_bind (storeCorrelationId_onDirectory _) fun _ => onTrail_onDirectory _
      · exact fun _ => ih

theorem dispatchEvent_onDirectory (env : Env) (tenant : ℕ) (eventType : String)
    (payload : List (String × Option String)) :
    OnDirectory (dispatchEvent env tenant eventType payload) := by
  apply Txn.steady_bind
  · exact Txn.steady_fetch fun _ _ h => congrArg (fun d : Directory =>
      d.endpoints.filter fun e => e.tenant = tenant && e.isActive) h
  · exact fun _ => deliverAll_onDirectory _ _ _ _ _

end OnDirectory

end Kusanya
