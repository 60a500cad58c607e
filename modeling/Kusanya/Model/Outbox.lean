import Kusanya.Model.Tables

/-!
# Audit log, notifications and webhooks

The parts of the source that every money operation calls on the side:
`apps.audit.services`, `apps.notifications` and `apps.webhooks.services`.  Each
writes only to the `Trail`; the frame lemmas at the end say so once.
-/

namespace Kusanya

open ReadCommitted Support

def Trail.addAudit (trail : Trail) (row : AuditLog) : Trail :=
  { trail with auditLog := trail.auditLog ++ [row] }

def Trail.addNotification (trail : Trail) (row : Notification) : Trail :=
  { trail with
    notifications := trail.notifications ++ [row]
    onCommit := trail.onCommit ++ [.deliverNotification row] }

def Trail.addDelivery (trail : Trail) (row : WebhookDelivery) : Trail :=
  { trail with
    deliveries := trail.deliveries ++ [row]
    onCommit := trail.onCommit ++ [.deliverWebhook row] }

/-- Change the side tables only. -/
def onTrail (w : Trail → Trail) : Tx Unit :=
  .modify fun db => { db with toTrail := w db.toTrail }

/-! ## Audit -/

/-- `apps.audit.services.record_audit_event`. -/
def recordAuditEvent (env : Env) (action : String) (tenant : Option ℕ) (target : Option Source)
    (after metadata : List (String × String) := []) : Tx Unit := do
  raiseIf (¬env.Auditable) env.auditError
  onTrail (·.addAudit
    { action, tenant, target, after, metadata
      actor := env.actor
      ipAddress := env.storedAddress
      userAgent := env.userAgent
      correlationId := env.correlationId
      createdAt := env.now })

/-! ## Notifications -/

/-- `apps.notifications.defaults.DEFAULT_TEMPLATES`: subject and body. -/
def defaultTemplates : NotificationEventType → NotificationChannel → String × String
  | .billCreated, .email =>
      ("New bill from {institution_name}",
        "Dear {customer_name},\n\n" ++
        "{institution_name} has issued bill {bill_number}.\n\n" ++
        "Regards,\n{institution_name}")
  | .billCreated, .sms => ("", "{institution_name}: new bill {bill_number} issued.")
  | .controlNumberGenerated, .email =>
      ("Your control number from {institution_name}",
        "Dear {customer_name},\n\n" ++
        "Use control number {control_number} to pay bill {bill_number} " ++
        "at {institution_name}.\n\n" ++
        "Regards,\n{institution_name}")
  | .controlNumberGenerated, .sms =>
      ("", "{institution_name}: pay using control number {control_number}.")
  | .paymentPending, .email =>
      ("Payment pending — {institution_name}",
        "Dear {customer_name},\n\n" ++
        "Your payment (ref {payment_reference}) against control number " ++
        "{control_number} is pending confirmation.\n\n" ++
        "Regards,\n{institution_name}")
  | .paymentPending, .sms => ("", "{institution_name}: payment {payment_reference} pending.")
  | .paymentSuccessful, .email =>
      ("Payment received — {institution_name}",
        "Dear {customer_name},\n\n" ++
        "We have received your payment of {paid_amount} (ref " ++
        "{payment_reference}) against control number {control_number}.\n" ++
        "Remaining balance: {remaining_balance}.\n" ++
        "Receipt: {receipt_number}.\n\n" ++
        "Regards,\n{institution_name}")
  | .paymentSuccessful, .sms =>
      ("", "{institution_name}: payment of {paid_amount} received. " ++
        "Balance {remaining_balance}. Receipt {receipt_number}.")
  | .paymentPartial, .email =>
      ("Partial payment received — {institution_name}",
        "Dear {customer_name},\n\n" ++
        "We have received a partial payment of {paid_amount} against " ++
        "bill {bill_number}. Remaining balance: {remaining_balance}.\n\n" ++
        "Regards,\n{institution_name}")
  | .paymentPartial, .sms =>
      ("", "{institution_name}: partial payment {paid_amount} received. " ++
        "Balance {remaining_balance}.")
  | .billFullyPaid, .email =>
      ("Bill fully paid — {institution_name}",
        "Dear {customer_name},\n\n" ++
        "Bill {bill_number} is now fully paid. Thank you.\n\n" ++
        "Regards,\n{institution_name}")
  | .billFullyPaid, .sms =>
      ("", "{institution_name}: bill {bill_number} fully paid. Thank you.")
  | .paymentFailed, .email =>
      ("Payment failed — {institution_name}",
        "Dear {customer_name},\n\n" ++
        "Your payment (ref {payment_reference}) against control number " ++
        "{control_number} could not be completed. Please try again.\n\n" ++
        "Regards,\n{institution_name}")
  | .paymentFailed, .sms =>
      ("", "{institution_name}: payment {payment_reference} failed. Please try again.")
  | .paymentReversed, .email =>
      ("Payment reversed — {institution_name}",
        "Dear {customer_name},\n\n" ++
        "Your payment (ref {payment_reference}) has been reversed.\n\n" ++
        "Regards,\n{institution_name}")
  | .paymentReversed, .sms => ("", "{institution_name}: payment {payment_reference} reversed.")
  | .paymentRefunded, .email =>
      ("Payment refunded — {institution_name}",
        "Dear {customer_name},\n\n" ++
        "Your payment (ref {payment_reference}) of {paid_amount} has " ++
        "been refunded.\n\n" ++
        "Regards,\n{institution_name}")
  | .paymentRefunded, .sms => ("", "{institution_name}: payment {payment_reference} refunded.")
  | .balanceReminder, .email =>
      ("Balance reminder — {institution_name}",
        "Dear {customer_name},\n\n" ++
        "This is a reminder that bill {bill_number} has an outstanding " ++
        "balance of {remaining_balance}.\n\n" ++
        "Regards,\n{institution_name}")
  | .balanceReminder, .sms =>
      ("", "{institution_name}: bill {bill_number} balance {remaining_balance} due.")

/-- `_SafeDict`: a missing variable renders as the empty string. -/
def safeDict (context : List (String × String)) (key : String) : String :=
  (context.lookup key).getD ""

/-- The subject and body that `render_template` formats: the tenant's active
override, or the default copy. -/
def templateFor (db : DB) (tenant : ℕ) (eventType : NotificationEventType)
    (channel : NotificationChannel) : String × String :=
  match db.templates.find? fun t =>
      t.tenant = tenant && t.eventType = eventType && t.channel = channel && t.isActive with
  | some override => (override.subject, override.body)
  | none => defaultTemplates eventType channel

/-- `apps.notifications.services.render_template`. -/
def renderTemplate (env : Env) (tenant : ℕ) (eventType : NotificationEventType)
    (channel : NotificationChannel) (context : List (String × String)) :
    Tx (String × String) := do
  let template ← Txn.fetch (.template { tenant, eventType, channel, context }) fun db =>
    templateFor db tenant eventType channel
  match env.formatMap template.1 (safeDict context),
      env.formatMap template.2 (safeDict context) with
  | some subject, some body => pure (subject, body)
  | _, _ => .throw .formatError

/-- `Notification.objects.create` followed by `_enqueue`. -/
def createNotification (row : Notification) : Tx Unit := do
  raiseIf (255 < row.recipient.length) .valueError
  checkVarchar 255 row.subject
  checkParameter row.body
  storeCorrelationId row.correlationId
  onTrail (·.addNotification row)

/-- One channel of `send_notification`; an SMS has no subject line. -/
def sendOn (env : Env) (tenant : ℕ) (eventType : NotificationEventType)
    (channel : NotificationChannel) (context : List (String × String)) (recipient : String) :
    Tx Unit :=
  if recipient = "" then pure () else do
    let rendered ← renderTemplate env tenant eventType channel context
    createNotification
      { tenant, eventType, channel, recipient
        subject := if channel = .email then rendered.1 else ""
        body := rendered.2
        correlationId := env.correlationId }

/-- `apps.notifications.services.send_notification`. -/
def sendNotification (env : Env) (tenant : ℕ) (eventType : NotificationEventType)
    (context : List (String × String)) (recipientEmail recipientPhone : String) : Tx Unit := do
  sendOn env tenant eventType .email context recipientEmail
  sendOn env tenant eventType .sms context recipientPhone

/-! ## Webhooks -/

/-- One turn of the loop of `dispatch_event`. -/
def deliverTo (env : Env) (tenant : ℕ) (eventType : String)
    (payload : List (String × Option String)) (endpoint : WebhookEndpoint) : Tx Unit :=
  if endpoint.isSubscribedTo eventType then do
    storeCorrelationId env.correlationId
    onTrail (·.addDelivery
      { tenant, eventType, payload
        endpoint := endpoint.id
        correlationId := env.correlationId })
  else pure ()

/-- The loop of `dispatch_event`. -/
def deliverAll (env : Env) (tenant : ℕ) (eventType : String)
    (payload : List (String × Option String)) : List WebhookEndpoint → Tx Unit
  | [] => pure ()
  | endpoint :: rest => do
      deliverTo env tenant eventType payload endpoint
      deliverAll env tenant eventType payload rest

/-- `apps.webhooks.services.dispatch_event`. -/
def dispatchEvent (env : Env) (tenant : ℕ) (eventType : String)
    (payload : List (String × Option String)) : Tx Unit := do
  let endpoints ← Txn.fetch (.endpointsOf tenant) fun db =>
    db.endpoints.filter fun e => e.tenant = tenant && e.isActive
  deliverAll env tenant eventType payload endpoints

/-! ## Frames -/

/-- The tables that the side effects of a request leave alone. -/
def DB.core (db : DB) : Directory × Books := (db.toDirectory, db.toBooks)

/-- A piece of code that writes nothing but the trail, calls nobody and raises no
`ValidationError`. -/
abbrev OnTrail {α : Type} (p : Tx α) : Prop :=
  Txn.Frame DB.core (fun e => e.isValidationError = false) p

theorem getRow_onTrail {α : Type} (what : Resource) (q : DB → Option α) :
    OnTrail (getRow what q) := by
  refine Txn.frame_bind (Txn.frame_fetch _ _) fun row => ?_
  cases row with
  | none => exact Txn.frame_throw rfl
  | some row => exact Txn.frame_ret row

theorem getOr404_onTrail {α : Type} (what : Resource) (q : DB → Option α) :
    OnTrail (getOr404 what q) := by
  refine Txn.frame_bind (Txn.frame_fetch _ _) fun row => ?_
  cases row with
  | none => exact Txn.frame_throw rfl
  | some row => exact Txn.frame_ret row

theorem raiseIf_onTrail (c : Prop) [Decidable c] {e : Error} (he : e.isValidationError = false) :
    OnTrail (raiseIf c e) :=
  Txn.frame_ite (Txn.frame_throw he) (Txn.frame_ret _)

theorem checkVarchar_onTrail (n : ℕ) (text : String) : OnTrail (checkVarchar n text) :=
  Txn.frame_ite (Txn.frame_ret _) (Txn.frame_throw rfl)

theorem checkParameter_onTrail (text : String) : OnTrail (checkParameter text) :=
  Txn.frame_ite (Txn.frame_throw rfl) (Txn.frame_ret _)

theorem storeJson_onTrail (json : Option String) : OnTrail (storeJson json) := by
  cases json with
  | none => exact Txn.frame_throw rfl
  | some text => exact Txn.frame_ret text

theorem storeNumeric_onTrail (m : Money) : OnTrail (storeNumeric m) := by
  unfold storeNumeric
  cases Numeric.ofMoney? m with
  | none => exact Txn.frame_throw rfl
  | some n => exact Txn.frame_ret n

theorem onTrail_onTrail (w : Trail → Trail) : OnTrail (onTrail w) :=
  Txn.frame_modify fun _ => rfl

theorem storeCorrelationId_onTrail (correlationId : Text) :
    OnTrail (storeCorrelationId correlationId) :=
  raiseIf_onTrail _ rfl

theorem recordAuditEvent_onTrail (env : Env) (action : String) (tenant : Option ℕ)
    (target : Option Source) (after metadata : List (String × String)) :
    OnTrail (recordAuditEvent env action tenant target after metadata) :=
  Txn.frame_bind (raiseIf_onTrail _ (auditError_isValidationError env)) fun _ =>
    onTrail_onTrail _

theorem renderTemplate_onTrail (env : Env) (tenant : ℕ) (eventType : NotificationEventType)
    (channel : NotificationChannel) (context : List (String × String)) :
    OnTrail (renderTemplate env tenant eventType channel context) := by
  refine Txn.frame_bind (Txn.frame_fetch _ _) fun template => ?_
  split
  · exact Txn.frame_ret _
  · exact Txn.frame_throw rfl

theorem createNotification_onTrail (row : Notification) : OnTrail (createNotification row) :=
  Txn.frame_bind (raiseIf_onTrail _ rfl) fun _ =>
    Txn.frame_bind (checkVarchar_onTrail _ _) fun _ =>
      Txn.frame_bind (checkParameter_onTrail _) fun _ =>
        Txn.frame_bind (storeCorrelationId_onTrail _) fun _ => onTrail_onTrail _

theorem sendOn_onTrail (env : Env) (tenant : ℕ) (eventType : NotificationEventType)
    (channel : NotificationChannel) (context : List (String × String)) (recipient : String) :
    OnTrail (sendOn env tenant eventType channel context recipient) :=
  Txn.frame_ite (Txn.frame_ret _) <|
    Txn.frame_bind (renderTemplate_onTrail _ _ _ _ _) fun _ => createNotification_onTrail _

theorem sendNotification_onTrail (env : Env) (tenant : ℕ) (eventType : NotificationEventType)
    (context : List (String × String)) (recipientEmail recipientPhone : String) :
    OnTrail (sendNotification env tenant eventType context recipientEmail recipientPhone) :=
  Txn.frame_bind (sendOn_onTrail _ _ _ _ _ _) fun _ => sendOn_onTrail _ _ _ _ _ _

theorem deliverAll_onTrail (env : Env) (tenant : ℕ) (eventType : String)
    (payload : List (String × Option String)) (endpoints : List WebhookEndpoint) :
    OnTrail (deliverAll env tenant eventType payload endpoints) := by
  induction endpoints with
  | nil => exact Txn.frame_ret _
  | cons endpoint rest ih =>
      refine Txn.frame_bind ?_ fun _ => ih
      exact Txn.frame_ite
        (Txn.frame_bind (storeCorrelationId_onTrail _) fun _ => onTrail_onTrail _) (Txn.frame_ret _)

theorem dispatchEvent_onTrail (env : Env) (tenant : ℕ) (eventType : String)
    (payload : List (String × Option String)) :
    OnTrail (dispatchEvent env tenant eventType payload) :=
  Txn.frame_bind (Txn.frame_fetch _ _) fun _ => deliverAll_onTrail _ _ _ _ _

end Kusanya
