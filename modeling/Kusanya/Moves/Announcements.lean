import Kusanya.Moves.Operations
import Kusanya.Moves.Outbox
import Kusanya.ReadCommitted.Sequential

/-!
# What a payment operation announces

Which audit rows, notifications and webhook deliveries the functions of `Model.Payments`
write when they run alone, counted by the statuses that payments enter.
-/

namespace Kusanya

open ReadCommitted Support

/-! ## Keys of the side records -/

/-- The statuses with an event of their own. -/
def announcedStatuses : List PaymentStatus := [.pending, .successful, .failed, .refunded, .reversed]

/-- The name of a status's audit event and webhook event. -/
def PaymentStatus.eventName (status : PaymentStatus) : String := "payment." ++ status.value

/-- The payment status that a notification is about. -/
def NotificationEventType.about : NotificationEventType → Option PaymentStatus
  | .paymentPending => some .pending
  | .paymentSuccessful | .paymentPartial | .billFullyPaid => some .successful
  | .paymentFailed => some .failed
  | .paymentReversed => some .reversed
  | .paymentRefunded => some .refunded
  | .billCreated | .controlNumberGenerated | .balanceReminder => none

/-- An audit row that announces a status: its action, tenant and target. -/
def AuditLog.announcement? (row : AuditLog) : Option (String × Option ℕ × Option Source) :=
  if row.action ∈ announcedStatuses.map (·.eventName) then
    some (row.action, row.tenant, row.target)
  else none

/-- What a notification announces to whom. -/
def Notification.announcement (row : Notification) :
    ℕ × Option PaymentStatus × NotificationChannel × String :=
  (row.tenant, row.eventType.about, row.channel, row.recipient)

/-- What a delivery announces to which endpoint. -/
def WebhookDelivery.announcement (row : WebhookDelivery) :
    ℕ × ℕ × String × Option (Option String) :=
  (row.tenant, row.endpoint, row.eventType, row.payload.lookup "payment_id")

/-- One audit row for a payment that has entered its status. -/
def Payment.auditEntry (payment : Payment) : String × Option ℕ × Option Source :=
  (payment.status.eventName, some payment.tenant, some (.payment payment.id))

/-- One notification per channel for which the customer has an address. -/
def Payment.noticesTo (payment : Payment) (customer : Customer) :
    List (ℕ × Option PaymentStatus × NotificationChannel × String) :=
  (if customer.email = "" then [] else
    [(payment.tenant, some payment.status, .email, customer.email)]) ++
  (if customer.phoneNumber = "" then [] else
    [(payment.tenant, some payment.status, .sms, customer.phoneNumber)])

/-- One delivery for every active endpoint of the tenant that is subscribed to the event. -/
def Payment.deliveriesFrom (payment : Payment) (db : DB) :
    List (ℕ × ℕ × String × Option (Option String)) :=
  ((activeEndpoints db payment.tenant).filter (·.isSubscribedTo payment.status.eventName)).map
    fun endpoint => (payment.tenant, endpoint.id, payment.status.eventName,
      some (some (toString payment.id)))

/-! ## Customers -/

/-- The account of each bill. -/
def DB.billAccounts (db : DB) : List (ℕ × ℕ) :=
  db.bills.map fun bill => (bill.id, bill.customerAccount)

/-- What no payment operation changes. -/
def DB.references (db : DB) : Directory × List ControlNumber × List (ℕ × ℕ) :=
  (db.toDirectory, db.controlNumbers, db.billAccounts)

/-- The side records that announce a status. -/
def DB.outbox (db : DB) : List AuditLog × List Notification × List WebhookDelivery :=
  (db.auditLog, db.notifications, db.deliveries)

/-- The customer behind the control number of a payment. -/
def DB.IsCustomerOf (db : DB) (payment : Payment) (customer : Customer) : Prop :=
  customer ∈ db.customers ∧ ∃ cn ∈ db.controlNumbers, cn.id = payment.controlNumber ∧
    ∃ account ∈ db.accounts, account.customer = customer.id ∧
      match cn.owner with
      | .bill id => (id, account.id) ∈ db.billAccounts
      | .customerAccount id => id = account.id

theorem DB.IsCustomerOf.of_references {s t : DB} {payment : Payment} {customer : Customer}
    (h : s.IsCustomerOf payment customer) (hst : t.references = s.references) :
    t.IsCustomerOf payment customer := by
  have hdirectory : t.toDirectory = s.toDirectory := congrArg (·.1) hst
  have hnumbers : t.controlNumbers = s.controlNumbers := congrArg (·.2.1) hst
  have hbills : t.billAccounts = s.billAccounts := congrArg (·.2.2) hst
  unfold DB.IsCustomerOf at h ⊢
  rw [hdirectory, hnumbers, hbills]
  exact h

/-! ## Announcements -/

/-- From `s` to `t` exactly the announcements that `entries` call for were written: each of them
is a payment that has entered its status. -/
structure Announced (s t : DB) (entries : List Payment) : Prop where
  references : t.references = s.references
  audits : ∃ rows, t.auditLog = s.auditLog ++ rows ∧
    rows.filterMap AuditLog.announcement? = entries.map Payment.auditEntry
  notices : ∃ rows, ∃ addressed : List (Payment × Customer),
    t.notifications = s.notifications ++ rows ∧ addressed.map (·.1) = entries ∧
    (∀ x ∈ addressed, s.IsCustomerOf x.1 x.2) ∧
    rows.map Notification.announcement = addressed.flatMap fun x => x.1.noticesTo x.2
  deliveries : ∃ rows, t.deliveries = s.deliveries ++ rows ∧
    rows.map WebhookDelivery.announcement = entries.flatMap (·.deliveriesFrom s)

section Announced

variable {s t u : DB} {entries entries' : List Payment}

theorem Announced.trans (h : Announced s t entries) (h' : Announced t u entries') :
    Announced s u (entries ++ entries') where
  references := h'.references.trans h.references
  audits := by
    obtain ⟨rows, hrows, hkeys⟩ := h.audits
    obtain ⟨rows', hrows', hkeys'⟩ := h'.audits
    refine ⟨rows ++ rows', by rw [hrows', hrows, List.append_assoc], ?_⟩
    rw [List.filterMap_append, hkeys, hkeys', List.map_append]
  notices := by
    obtain ⟨rows, addressed, hrows, hentries, hcustomers, hkeys⟩ := h.notices
    obtain ⟨rows', addressed', hrows', hentries', hcustomers', hkeys'⟩ := h'.notices
    refine ⟨rows ++ rows', addressed ++ addressed', by rw [hrows', hrows, List.append_assoc],
      by rw [List.map_append, hentries, hentries'], fun x hx => ?_, ?_⟩
    · rcases List.mem_append.mp hx with hx | hx
      · exact hcustomers x hx
      · exact (hcustomers' x hx).of_references h.references.symm
    · rw [List.map_append, hkeys, hkeys', List.flatMap_append]
  deliveries := by
    obtain ⟨rows, hrows, hkeys⟩ := h.deliveries
    obtain ⟨rows', hrows', hkeys'⟩ := h'.deliveries
    have hdirectory : t.toDirectory = s.toDirectory := congrArg (·.1) h.references
    have hsame : ∀ p : Payment, p.deliveriesFrom t = p.deliveriesFrom s := by
      intro p
      unfold Payment.deliveriesFrom activeEndpoints
      rw [hdirectory]
    refine ⟨rows ++ rows', by rw [hrows', hrows, List.append_assoc], ?_⟩
    simp only [List.map_append, hkeys, hkeys', List.flatMap_append, hsame]

/-- Nothing happened on the side. -/
theorem Announced.silent (hreferences : t.references = s.references)
    (houtbox : t.outbox = s.outbox) :
    Announced s t [] where
  references := hreferences
  audits := ⟨[], by rw [List.append_nil]; exact congrArg (·.1) houtbox, rfl⟩
  notices := ⟨[], [], by rw [List.append_nil]; exact congrArg (·.2.1) houtbox, rfl,
    fun x hx => absurd hx List.not_mem_nil, rfl⟩
  deliveries := ⟨[], by rw [List.append_nil]; exact congrArg (·.2.2) houtbox, rfl⟩

end Announced

/-! ## Code that announces nothing -/

/-- What the announcements are about, and the announcements. -/
def DB.surface (db : DB) :
    (Directory × List ControlNumber × List (ℕ × ℕ)) × List Payment ×
      (List AuditLog × List Notification × List WebhookDelivery) :=
  (db.references, db.payments, db.outbox)

/-- A piece of code that changes neither the payments nor what announces them. -/
abbrev Beneath {α : Type} (p : Tx α) : Prop := p.Keeps DB.surface

section Beneath

variable {env : Env} {payment : Payment}

theorem getRow_beneath {α : Type} (what : Resource) (q : DB → Option α) :
    Beneath (getRow what q) := by
  apply Txn.keeps_bind (Txn.keeps_fetch _ _)
  intro row
  cases row with
  | none => exact Txn.keeps_throw _
  | some row => exact Txn.keeps_ret _

theorem raiseIf_beneath (c : Prop) [Decidable c] (e : Error) : Beneath (raiseIf c e) :=
  Txn.keeps_ite (Txn.keeps_throw _) (Txn.keeps_ret _)

theorem checkVarchar_beneath (n : ℕ) (text : String) : Beneath (checkVarchar n text) :=
  Txn.keeps_ite (Txn.keeps_ret _) (Txn.keeps_throw _)

theorem storeJson_beneath (json : Option String) : Beneath (storeJson json) := by
  unfold storeJson
  cases json with
  | none => exact Txn.keeps_throw _
  | some text => exact Txn.keeps_ret _

theorem storeNumeric_beneath (m : Money) : Beneath (storeNumeric m) := by
  unfold storeNumeric
  cases Numeric.ofMoney? m with
  | none => exact Txn.keeps_throw _
  | some n => exact Txn.keeps_ret _

/-- A write to other money tables than the payments. -/
theorem onBooks_beneath {w : Books → Books} (hpayments : ∀ b, (w b).payments = b.payments)
    (hnumbers : ∀ b, (w b).controlNumbers = b.controlNumbers)
    (hbills : ∀ b : Books, (w b).bills.map (fun bill => (bill.id, bill.customerAccount)) =
      b.bills.map fun bill => (bill.id, bill.customerAccount)) : Beneath (onBooks w) := by
  apply Txn.keeps_modify
  intro s
  simp only [DB.surface, DB.references, DB.billAccounts, DB.outbox, hpayments, hnumbers, hbills]

theorem postEntry_beneath (tenant : ℕ) (entryType : LedgerEntryType) (account : LedgerAccount)
    (amount : Numeric) (currency reference : String) (source : Option Source)
    (relatedEntry : Option Posting) (metadata : List (String × String)) :
    Beneath (postEntry env tenant entryType account amount currency reference source relatedEntry
      metadata) :=
  Txn.keeps_bind (raiseIf_beneath _ _) fun _ =>
    Txn.keeps_bind (onBooks_beneath (fun _ => rfl) (fun _ => rfl) fun _ => rfl) fun _ =>
      Txn.keeps_ret _

theorem recordEvent_beneath (tenant : ℕ) (eventType : RevenueEventType) (amount : Numeric)
    (currency : String) (source : Source) (ledgerEntry : Option LedgerEntry)
    (metadata : List (String × String)) :
    Beneath (recordEvent env tenant eventType amount currency source ledgerEntry metadata) :=
  Txn.keeps_bind (raiseIf_beneath _ _) fun _ =>
    onBooks_beneath (fun _ => rfl) (fun _ => rfl) fun _ => rfl

theorem postSettlementLedgerEntries_beneath : Beneath (postSettlementLedgerEntries env payment) :=
  Txn.keeps_bind (postEntry_beneath _ _ _ _ _ _ _ _ _) fun _ =>
    Txn.keeps_bind (postEntry_beneath _ _ _ _ _ _ _ _ _) fun _ => Txn.keeps_ret _

theorem recordPaymentSuccessful_beneath : Beneath (recordPaymentSuccessful env payment) :=
  Txn.keeps_bind (postEntry_beneath _ _ _ _ _ _ _ _ _) fun _ =>
    recordEvent_beneath _ _ _ _ _ _ _

theorem compensate_beneath (eventType : RevenueEventType) (entryType : LedgerEntryType) :
    Beneath (compensate env payment eventType entryType) := by
  unfold compensate
  apply Txn.keeps_bind (Txn.keeps_fetch _ _)
  intro original
  apply Txn.keeps_bind (getRow_beneath _ _)
  intro tenant
  dsimp only
  split
  · exact recordEvent_beneath _ _ _ _ _ _ _
  · next fee _ =>
      refine Txn.keeps_bind ?_ fun _ => recordEvent_beneath _ _ _ _ _ _ _
      unfold compensateEntry
      split
      · exact Txn.keeps_ret _
      · exact Txn.keeps_bind (postEntry_beneath _ _ _ _ _ _ _ _ _) fun _ => Txn.keeps_ret _

theorem billTransitionTo_beneath (bill : Bill) (new : BillStatus) :
    Beneath (bill.transitionTo env new) := by
  apply Txn.keeps_bind (raiseIf_beneath _ _)
  intro _
  apply Txn.keeps_bind (Txn.keeps_acquire _)
  intro _
  refine Txn.keeps_bind (onBooks_beneath (fun _ => rfl) (fun _ => rfl) fun b => ?_) fun _ =>
    Txn.keeps_ret _
  unfold Books.updateBill
  rw [List.map_map]
  refine List.map_congr_left fun row _ => ?_
  change (fun bill : Bill => (bill.id, bill.customerAccount))
    (if row.id = bill.id then _ else row) = _
  split <;> rfl

theorem balance_beneath (bill : Bill) : Beneath bill.balance := Txn.keeps_fetch _ _

theorem allocateToBill_beneath (bill : Option Bill) :
    Beneath (allocateToBill env payment bill) := by
  cases bill with
  | none => exact Txn.keeps_ret _
  | some bill =>
      refine Txn.keeps_bind (onBooks_beneath (fun _ => rfl) (fun _ => rfl) fun _ => rfl) fun _ => ?_
      refine Txn.keeps_ite (Txn.keeps_ret _) (Txn.keeps_bind (balance_beneath _) fun balance => ?_)
      refine Txn.keeps_ite ?_ (Txn.keeps_ite ?_ (Txn.keeps_ret _))
      · exact Txn.keeps_bind (billTransitionTo_beneath _ _) fun _ => Txn.keeps_ret _
      · exact Txn.keeps_bind (billTransitionTo_beneath _ _) fun _ => Txn.keeps_ret _

theorem accountBehind_beneath (cn : ControlNumber) (bill : Option Bill) :
    Beneath (accountBehind cn bill) := by
  unfold accountBehind
  split
  · exact Txn.keeps_ret _
  · exact Txn.keeps_ret _
  · exact Txn.keeps_throw _

theorem customerOf_beneath (account : ℕ) : Beneath (customerOf account) :=
  Txn.keeps_bind (getRow_beneath _ _) fun _ => getRow_beneath _ _

theorem remainingBalance_beneath (bill : Option Bill) : Beneath (remainingBalance bill) := by
  cases bill with
  | none => exact Txn.keeps_ret _
  | some bill =>
      exact Txn.keeps_bind (balance_beneath _) fun _ =>
        Txn.keeps_bind (storeNumeric_beneath _) fun _ => Txn.keeps_ret _

theorem balanceText_beneath (bill : Option Bill) : Beneath (balanceText bill) := by
  cases bill with
  | none => exact Txn.keeps_ret _
  | some bill => exact Txn.keeps_bind (balance_beneath _) fun _ => Txn.keeps_ret _

theorem insertReceipt_beneath (receipt : Receipt) : Beneath (insertReceipt receipt) :=
  Txn.keeps_bind (checkVarchar_beneath _ _) fun _ =>
    Txn.keeps_bind (Txn.keeps_acquire _) fun _ =>
      Txn.keeps_bind (Txn.keeps_acquire _) fun _ =>
        Txn.keeps_bind (Txn.keeps_fetch _ _) fun _ =>
          Txn.keeps_bind (raiseIf_beneath _ _) fun _ =>
            onBooks_beneath (fun _ => rfl) (fun _ => rfl) fun _ => rfl

theorem generateReceipt_beneath (cn : ControlNumber) (bill : Option Bill) :
    Beneath (generateReceipt env payment cn bill) := by
  apply Txn.keeps_bind (Txn.keeps_fetch _ _)
  intro existing
  cases existing with
  | some receipt => exact Txn.keeps_ret _
  | none =>
      exact Txn.keeps_bind (raiseIf_beneath _ _) fun _ =>
        Txn.keeps_bind (accountBehind_beneath _ _) fun _ =>
          Txn.keeps_bind (customerOf_beneath _) fun _ =>
            Txn.keeps_bind (getRow_beneath _ _) fun _ =>
              Txn.keeps_bind (getRow_beneath _ _) fun _ =>
                Txn.keeps_bind (remainingBalance_beneath _) fun _ =>
                  Txn.keeps_bind (insertReceipt_beneath _) fun _ => Txn.keeps_ret _

theorem adapterOf_beneath : Beneath (adapterOf env payment) := by
  apply Txn.keeps_bind (getRow_beneath _ _)
  intro provider
  unfold getAdapter
  split
  · exact Txn.keeps_ret _
  · exact Txn.keeps_throw _

theorem askProvider_beneath {α : Type} (call : Call) (answer : Except AdapterError α) :
    Beneath (askProvider call answer) := by
  apply Txn.keeps_bind (Txn.keeps_invoke _)
  intro _
  cases answer with
  | ok result => exact Txn.keeps_ret _
  | error e => exact Txn.keeps_throw _

end Beneath

/-! ## Single announcements -/

section Single

variable {env : Env} {payment : Payment} {s t : DB}

theorem noticeOn_announcement {tenant : ℕ} {eventType : NotificationEventType}
    {channel : NotificationChannel} {context : List (String × String)} {recipient : String}
    {rows : List Notification}
    (h : noticeOn env s tenant eventType channel context recipient = .ok rows) :
    rows.map Notification.announcement =
      if recipient = "" then [] else [(tenant, eventType.about, channel, recipient)] := by
  rcases noticeOn_ok h with ⟨hblank, rfl⟩ | ⟨hsent, row, rfl, htenant, hevent, hchannel, hrecipient⟩
  · rw [if_pos hblank]
    rfl
  · rw [if_neg hsent, List.map_singleton, Notification.announcement, htenant, hevent, hchannel,
      hrecipient]

theorem notices_announcement {eventType : NotificationEventType} {customer : Customer}
    {context : List (String × String)} {rows : List Notification}
    (h : notices env s payment.tenant eventType context customer.email customer.phoneNumber =
      .ok rows)
    (habout : eventType.about = some payment.status) :
    rows.map Notification.announcement = payment.noticesTo customer := by
  unfold notices at h
  split at h
  · next emails texts hemails htexts =>
      obtain rfl := Except.ok.inj h
      rw [List.map_append, noticeOn_announcement hemails, noticeOn_announcement htexts, habout]
      rfl
  · cases h
  · cases h

/-- The control number of a payment and the bill behind it, as some read found them. -/
structure Behind (s : DB) (payment : Payment) (cn : ControlNumber) (bill : Option Bill) : Prop where
  mem : cn ∈ s.controlNumbers
  id : cn.id = payment.controlNumber
  bill : match cn.owner with
    | .bill id => ∃ row, bill = some row ∧ (id, row.customerAccount) ∈ s.billAccounts
    | .customerAccount _ => bill = none

theorem Behind.of_references {cn : ControlNumber} {bill : Option Bill}
    (h : Behind s payment cn bill) (hst : t.references = s.references) :
    Behind t payment cn bill where
  mem := by
    have hnumbers : t.controlNumbers = s.controlNumbers := congrArg (·.2.1) hst
    rw [hnumbers]
    exact h.mem
  id := h.id
  bill := by
    have hbills : t.billAccounts = s.billAccounts := congrArg (·.2.2) hst
    rw [hbills]
    exact h.bill

theorem Loaded.behind {cn : ControlNumber} {bill : Option Bill}
    (h : Loaded (View.alone s.toDirectory s.toBooks) payment cn bill) :
    Behind s payment cn bill where
  mem := (View.sees_alone _ _ _).mp h.controlNumber
  id := h.id
  bill := by
    cases hown : cn.owner with
    | bill id =>
        have hid : cn.bill? = some id := by simp [ControlNumber.bill?, hown]
        obtain ⟨row, hrow, rfl, hsees⟩ := h.bound id hid
        refine ⟨row, hrow, List.mem_map.mpr ⟨row, ?_, rfl⟩⟩
        exact (View.seesAt_alone _ _ _ _).mp hsees
    | customerAccount id => exact h.unbound (by simp [ControlNumber.bill?, hown])

/-- Loading the related objects writes nothing. -/
theorem exec_loadRelated {related : Related} {cn : ControlNumber} {bill : Option Bill}
    (hrel : related.Valid (View.alone s.toDirectory s.toBooks) payment)
    (h : (loadRelated payment related).exec s = .ok ((cn, bill), t)) :
    t = s ∧ Behind s payment cn bill := by
  have hview : viewOf (fun _ v => v = s) id = View.alone s.toDirectory s.toBooks :=
    viewOf_alone s id
  have hwp : (loadRelated payment related).wp (fun _ => True) (fun _ v => v = s) id
      (fun found pend => pend = id ∧
        Loaded (View.alone s.toDirectory s.toBooks) payment found.1 found.2) fun _ _ => True := by
    refine wp_loadRelated (hview ▸ hrel) trivial fun cn bill hloaded => ⟨rfl, ?_⟩
    rw [← hview]
    exact hloaded
  obtain ⟨pend, rfl, rfl, hloaded⟩ := Txn.exec_ok_of_wp hwp h
  exact ⟨rfl, hloaded.behind⟩

theorem exec_customerOf {account : ℕ} {customer : Customer}
    (h : (customerOf account).exec s = .ok (customer, t)) :
    t = s ∧ customer ∈ s.customers ∧
      ∃ row ∈ s.accounts, row.id = account ∧ row.customer = customer.id := by
  unfold customerOf getAccount getCustomer at h
  rw [Txn.exec_bind, exec_getRow] at h
  cases haccount : s.accounts.find? (·.id = account) with
  | none =>
      rw [haccount] at h
      cases h
  | some row =>
      rw [haccount] at h
      dsimp only at h
      rw [exec_getRow] at h
      cases hcustomer : s.customers.find? (·.id = row.customer) with
      | none =>
          rw [hcustomer] at h
          cases h
      | some found =>
          rw [hcustomer] at h
          obtain ⟨rfl, rfl⟩ := Prod.mk.inj (Except.ok.inj h)
          refine ⟨rfl, List.mem_of_find?_eq_some hcustomer, row, List.mem_of_find?_eq_some haccount,
            by simpa using List.find?_some haccount, ?_⟩
          have hid : found.id = row.customer := by simpa using List.find?_some hcustomer
          exact hid.symm

theorem exec_accountBehind {cn : ControlNumber} {bill : Option Bill} {account : ℕ}
    (hbehind : Behind s payment cn bill) (h : (accountBehind cn bill).exec s = .ok (account, t)) :
    t = s ∧ match cn.owner with
      | .bill id => (id, account) ∈ s.billAccounts
      | .customerAccount id => id = account := by
  have hbill := hbehind.bill
  unfold accountBehind at h
  cases hown : cn.owner with
  | bill id =>
      rw [hown] at hbill
      obtain ⟨row, rfl, hrow⟩ := hbill
      obtain ⟨rfl, rfl⟩ := Prod.mk.inj (Except.ok.inj h)
      exact ⟨rfl, hrow⟩
  | customerAccount id =>
      rw [hown] at hbill
      rw [hbill, hown] at h
      obtain ⟨rfl, rfl⟩ := Prod.mk.inj (Except.ok.inj h)
      exact ⟨rfl, rfl⟩

/-- The notifications of one payment operation. -/
theorem exec_notify {cn : ControlNumber} {bill : Option Bill} {eventType : NotificationEventType}
    {extra : List (String × String)} (hbehind : Behind s payment cn bill)
    (habout : eventType.about = some payment.status)
    (h : (notify env payment cn bill eventType extra).exec s = .ok ((), t)) :
    ∃ customer rows, s.IsCustomerOf payment customer ∧ t = inTrail (·.addNotifications rows) s ∧
      rows.map Notification.announcement = payment.noticesTo customer := by
  unfold notify at h
  obtain ⟨account, s₁, haccount, h₁⟩ := (Txn.exec_bind_ok _).mp h
  obtain ⟨hs₁, howner⟩ := exec_accountBehind hbehind haccount
  subst hs₁
  obtain ⟨customer, s₂, hcustomer, h₂⟩ := (Txn.exec_bind_ok _).mp h₁
  obtain ⟨hs₂, hmem, row, hrow, hid, hof⟩ := exec_customerOf hcustomer
  subst hs₂
  obtain ⟨tenant, s₃, htenant, h₃⟩ := (Txn.exec_bind_ok _).mp h₂
  have hs₃ : s₃ = s₂ := by
    rw [getTenant, exec_getRow] at htenant
    split at htenant
    · exact (Prod.mk.inj (Except.ok.inj htenant)).2.symm
    · cases htenant
  subst hs₃
  rw [exec_sendNotification] at h₃
  split at h₃
  · next rows hrows =>
      obtain ⟨-, rfl⟩ := Prod.mk.inj (Except.ok.inj h₃)
      refine ⟨customer, rows, ⟨hmem, cn, hbehind.mem, hbehind.id, row, hrow, hof, ?_⟩, rfl,
        notices_announcement hrows habout⟩
      rw [hid]
      exact howner
  · cases h₃

/-- The deliveries of one payment operation. -/
theorem exec_dispatch {cn : ControlNumber} {bill : Option Bill}
    {amount : String}
    (h : (dispatch env payment cn bill amount payment.status.eventName).exec s = .ok ((), t)) :
    ∃ rows, t = inTrail (·.addDeliveries rows) s ∧
      rows.map WebhookDelivery.announcement = payment.deliveriesFrom s := by
  unfold dispatch at h
  obtain rfl := exec_dispatchEvent_ok h
  refine ⟨_, rfl, ?_⟩
  unfold deliveriesTo Payment.deliveriesFrom
  rw [List.map_map]
  rfl

/-- An audit row of another name announces nothing. -/
theorem announced_audit {action : String} {tenant : Option ℕ} {target : Option Source}
    {after metadata : List (String × String)}
    (hname : action ∉ announcedStatuses.map (·.eventName))
    (h : (recordAuditEvent env action tenant target after metadata).exec s = .ok ((), t)) :
    Announced s t [] := by
  obtain ⟨-, rfl⟩ := exec_recordAuditEvent_ok h
  refine ⟨rfl, ⟨[_], rfl, ?_⟩, ⟨[], [], (List.append_nil _).symm, rfl,
    fun x hx => absurd hx List.not_mem_nil, rfl⟩, [], (List.append_nil _).symm, rfl⟩
  simp [AuditLog.announcement?, hname]

/-- The audit row of a status. -/
theorem audit_announcement? (hstatus : payment.status ∈ announcedStatuses)
    (after metadata : List (String × String)) :
    AuditLog.announcement?
      { action := payment.status.eventName
        tenant := some payment.tenant
        target := some (.payment payment.id)
        after, metadata
        actor := env.actor
        ipAddress := env.storedAddress
        userAgent := env.userAgent
        correlationId := env.correlationId
        createdAt := env.now } = some payment.auditEntry := by
  rw [AuditLog.announcement?, if_pos (List.mem_map_of_mem hstatus)]
  rfl

end Single

/-! ## What follows a status -/

/-- From `s` to `t` these side records were written and the payments stayed as they were. -/
structure Wrote (s t : DB) (audits : List AuditLog) (notices : List Notification)
    (deliveries : List WebhookDelivery) : Prop where
  references : t.references = s.references
  payments : t.payments = s.payments
  auditLog : t.auditLog = s.auditLog ++ audits
  notifications : t.notifications = s.notifications ++ notices
  deliveries : t.deliveries = s.deliveries ++ deliveries

section Wrote

variable {env : Env} {payment : Payment} {s t u : DB} {audits audits' : List AuditLog}
variable {notices notices' : List Notification} {deliveries deliveries' : List WebhookDelivery}

theorem Wrote.of_surface (h : t.surface = s.surface) : Wrote s t [] [] [] where
  references := congrArg (·.1) h
  payments := congrArg (·.2.1) h
  auditLog := by rw [List.append_nil]; exact congrArg (·.2.2.1) h
  notifications := by rw [List.append_nil]; exact congrArg (·.2.2.2.1) h
  deliveries := by rw [List.append_nil]; exact congrArg (·.2.2.2.2) h

theorem Wrote.trans (h : Wrote s t audits notices deliveries)
    (h' : Wrote t u audits' notices' deliveries') :
    Wrote s u (audits ++ audits') (notices ++ notices') (deliveries ++ deliveries') where
  references := h'.references.trans h.references
  payments := h'.payments.trans h.payments
  auditLog := by rw [h'.auditLog, h.auditLog, List.append_assoc]
  notifications := by rw [h'.notifications, h.notifications, List.append_assoc]
  deliveries := by rw [h'.deliveries, h.deliveries, List.append_assoc]

theorem Wrote.then (h : Wrote s t audits notices deliveries) (h' : u.surface = t.surface) :
    Wrote s u audits notices deliveries := by
  have hboth := h.trans (Wrote.of_surface h')
  simpa only [List.append_nil] using hboth

theorem wrote_audit (row : AuditLog) : Wrote s (inTrail (·.addAudit row) s) [row] [] [] :=
  ⟨rfl, rfl, rfl, (List.append_nil _).symm, (List.append_nil _).symm⟩

theorem wrote_notices (rows : List Notification) :
    Wrote s (inTrail (·.addNotifications rows) s) [] rows [] :=
  ⟨rfl, rfl, (List.append_nil _).symm, rfl, (List.append_nil _).symm⟩

theorem wrote_deliveries (rows : List WebhookDelivery) :
    Wrote s (inTrail (·.addDeliveries rows) s) [] [] rows :=
  ⟨rfl, rfl, (List.append_nil _).symm, (List.append_nil _).symm, rfl⟩

/-- The three kinds of announcements of one entry. -/
theorem Wrote.announced {row : AuditLog} (h : Wrote s t [row] notices deliveries)
    (hrow : row.announcement? = some payment.auditEntry) {customer : Customer}
    (hcustomer : s.IsCustomerOf payment customer)
    (hnotices : notices.map Notification.announcement = payment.noticesTo customer)
    (hdeliveries : deliveries.map WebhookDelivery.announcement = payment.deliveriesFrom s) :
    Announced s t [payment] where
  references := h.references
  audits := ⟨[row], h.auditLog, by simp [hrow]⟩
  notices := by
    refine ⟨notices, [(payment, customer)], h.notifications, rfl, fun x hx => ?_, ?_⟩
    · rw [List.mem_singleton.mp hx]
      exact hcustomer
    · rw [hnotices, List.flatMap_singleton]
  deliveries := ⟨deliveries, h.deliveries, by rw [hdeliveries, List.flatMap_singleton]⟩

theorem deliveriesFrom_references (h : t.references = s.references) :
    payment.deliveriesFrom t = payment.deliveriesFrom s := by
  have hdirectory : t.toDirectory = s.toDirectory := congrArg (·.1) h
  unfold Payment.deliveriesFrom activeEndpoints
  rw [hdirectory]

/-- Loading, notifying and dispatching after the audit row. -/
theorem announced_notify_dispatch {row : AuditLog} {cn : ControlNumber}
    {bill : Option Bill} {eventType : NotificationEventType} {extra : List (String × String)}
    {amount : String} {v : DB} (hu : Wrote s u [row] [] [])
    (hrow : row.announcement? = some payment.auditEntry)
    (hbehind : Behind u payment cn bill) (habout : eventType.about = some payment.status)
    (hnotify : (notify env payment cn bill eventType extra).exec u = .ok ((), v))
    (hdispatch : (dispatch env payment cn bill amount payment.status.eventName).exec v =
      .ok ((), t)) :
    Announced s t [payment] ∧ t.payments = s.payments := by
  obtain ⟨customer, notices, hcustomer, rfl, hnotices⟩ := exec_notify hbehind habout hnotify
  obtain ⟨deliveries, rfl, hdeliveries⟩ := exec_dispatch hdispatch
  have hall := (hu.trans (wrote_notices notices)).trans (wrote_deliveries deliveries)
  simp only [List.append_nil, List.nil_append] at hall
  refine ⟨hall.announced hrow (hcustomer.of_references hu.references.symm) hnotices ?_,
    hall.payments⟩
  rw [hdeliveries]
  exact deliveriesFrom_references hu.references

/-- `related` still describes the payment after writes that leave the lookups alone. -/
theorem Related.Valid.of_lookups {related : Related}
    (h : related.Valid (View.alone s.toDirectory s.toBooks) payment)
    (hnumbers : t.controlNumbers = s.controlNumbers) (hbills : t.bills = s.bills) :
    related.Valid (View.alone t.toDirectory t.toBooks) payment where
  controlNumber cn hcn := by
    obtain ⟨hsees, hid⟩ := h.controlNumber cn hcn
    rw [View.sees_alone] at hsees ⊢
    exact ⟨by rw [hnumbers]; exact hsees, hid⟩
  bill bill hbill := by
    obtain ⟨cn, hcn, hid, hsees⟩ := h.bill bill hbill
    rw [View.seesAt_alone] at hsees
    refine ⟨cn, hcn, hid, ?_⟩
    rw [View.seesAt_alone, hbills]
    exact hsees

/-- The rows that `loadRelated` reads. -/
def DB.lookups (db : DB) : List ControlNumber × List Bill := (db.controlNumbers, db.bills)

theorem exec_loadRelated_of_lookups {related : Related} {cn : ControlNumber} {bill : Option Bill}
    (hrel : related.Valid (View.alone s.toDirectory s.toBooks) payment)
    (hlookups : u.lookups = s.lookups)
    (h : (loadRelated payment related).exec u = .ok ((cn, bill), t)) :
    t = u ∧ Behind u payment cn bill :=
  exec_loadRelated (hrel.of_lookups (congrArg (·.1) hlookups) (congrArg (·.2) hlookups)) h

/-- The audit row of the status that the payment has entered. -/
theorem exec_statusAudit {metadata : List (String × String)}
    (hannounced : payment.status ∈ announcedStatuses)
    (h : (recordAuditEvent env payment.status.eventName (some payment.tenant)
      (some (.payment payment.id)) [] metadata).exec s = .ok ((), t)) :
    t.lookups = s.lookups ∧ ∃ row, row.announcement? = some payment.auditEntry ∧
      Wrote s t [row] [] [] := by
  obtain ⟨-, rfl⟩ := exec_recordAuditEvent_ok h
  exact ⟨rfl, _, audit_announcement? hannounced [] metadata, wrote_audit _⟩

theorem exec_onPending {related : Related} (hstatus : payment.status = .pending)
    (hrel : related.Valid (View.alone s.toDirectory s.toBooks) payment)
    (h : (onPending env payment related).exec s = .ok ((), t)) :
    Announced s t [payment] ∧ t.payments = s.payments := by
  have hname : "payment.pending" = payment.status.eventName := by rw [hstatus]; decide
  unfold onPending at h
  rw [hname] at h
  obtain ⟨_, s₁, haudit, h₁⟩ := (Txn.exec_bind_ok _).mp h
  obtain ⟨hlookups, row, hrow, hwrote⟩ :=
    exec_statusAudit (by rw [hstatus]; decide) haudit
  obtain ⟨⟨cn, bill⟩, u, hload, h₂⟩ := (Txn.exec_bind_ok _).mp h₁
  obtain ⟨rfl, hbehind⟩ := exec_loadRelated_of_lookups hrel hlookups hload
  obtain ⟨_, v, hnotify, hdispatch⟩ := (Txn.exec_bind_ok _).mp h₂
  exact announced_notify_dispatch hwrote hrow hbehind (by rw [hstatus]; rfl) hnotify hdispatch

theorem exec_onFailed {related : Related} (hstatus : payment.status = .failed)
    (hrel : related.Valid (View.alone s.toDirectory s.toBooks) payment)
    (h : (onFailed env payment related).exec s = .ok ((), t)) :
    Announced s t [payment] ∧ t.payments = s.payments := by
  have hname : "payment.failed" = payment.status.eventName := by rw [hstatus]; decide
  unfold onFailed at h
  rw [hname] at h
  obtain ⟨_, s₁, haudit, h₁⟩ := (Txn.exec_bind_ok _).mp h
  obtain ⟨hlookups, row, hrow, hwrote⟩ :=
    exec_statusAudit (by rw [hstatus]; decide) haudit
  obtain ⟨_, s₂, hrecord, h₂⟩ := (Txn.exec_bind_ok _).mp h₁
  have hkept := recordEvent_keeps (f := DB.lookups) (fun _ _ => rfl) _ _ _ _ _ _ _ _ _ _ hrecord
  obtain ⟨⟨cn, bill⟩, u, hload, h₃⟩ := (Txn.exec_bind_ok _).mp h₂
  obtain ⟨rfl, hbehind⟩ := exec_loadRelated_of_lookups hrel (hkept.trans hlookups) hload
  obtain ⟨_, v, hnotify, hdispatch⟩ := (Txn.exec_bind_ok _).mp h₃
  exact announced_notify_dispatch (hwrote.then (recordEvent_beneath _ _ _ _ _ _ _ _ _ _ hrecord))
    hrow hbehind (by rw [hstatus]; rfl) hnotify hdispatch

/-- Allocating keeps the account of the bill object. -/
theorem exec_allocateToBill {bill bill' : Option Bill}
    (h : (allocateToBill env payment bill).exec s = .ok (bill', t)) :
    bill'.map (·.customerAccount) = bill.map (·.customerAccount) := by
  have htransition : ∀ (row row' : Bill) (new : BillStatus) (u v : DB),
      (row.transitionTo env new).exec u = .ok (row', v) →
      row'.customerAccount = row.customerAccount := by
    intro row row' new u v hmove
    unfold Bill.transitionTo at hmove
    obtain ⟨_, _, -, hmove⟩ := (Txn.exec_bind_ok _).mp hmove
    obtain ⟨rfl, -⟩ := Prod.mk.inj (Except.ok.inj hmove)
    rfl
  cases bill with
  | none =>
      obtain ⟨rfl, -⟩ := Prod.mk.inj (Except.ok.inj h)
      rfl
  | some row =>
      unfold allocateToBill at h
      rw [Txn.exec_bind, exec_onBooks] at h
      dsimp only at h
      split at h
      · obtain ⟨rfl, -⟩ := Prod.mk.inj (Except.ok.inj h)
        rfl
      · obtain ⟨balance, u, -, h₁⟩ := (Txn.exec_bind_ok _).mp h
        split at h₁
        · obtain ⟨row', v, hmove, hret⟩ := (Txn.exec_bind_ok _).mp h₁
          obtain ⟨rfl, -⟩ := Prod.mk.inj (Except.ok.inj hret)
          exact congrArg some (htransition _ _ _ _ _ hmove)
        · split at h₁
          · obtain ⟨row', v, hmove, hret⟩ := (Txn.exec_bind_ok _).mp h₁
            obtain ⟨rfl, -⟩ := Prod.mk.inj (Except.ok.inj hret)
            exact congrArg some (htransition _ _ _ _ _ hmove)
          · obtain ⟨rfl, -⟩ := Prod.mk.inj (Except.ok.inj h₁)
            rfl

/-- The bill object may be a later one. -/
theorem Behind.bill_congr {cn : ControlNumber} {bill bill' : Option Bill}
    (h : Behind s payment cn bill)
    (hsame : bill'.map (·.customerAccount) = bill.map (·.customerAccount)) :
    Behind s payment cn bill' where
  mem := h.mem
  id := h.id
  bill := by
    have hbill := h.bill
    cases hown : cn.owner with
    | bill id =>
        rw [hown] at hbill
        obtain ⟨row, rfl, hrow⟩ := hbill
        obtain ⟨row', rfl, haccount⟩ := Option.map_eq_some_iff.mp hsame
        exact ⟨row', rfl, by rw [haccount]; exact hrow⟩
    | customerAccount id =>
        rw [hown] at hbill
        rw [hbill] at hsame
        exact Option.map_eq_none_iff.mp hsame

theorem successEvent_about (bill : Option Bill) : (successEvent bill).about = some .successful := by
  unfold successEvent
  split
  · split
    · rfl
    · split <;> rfl
  · rfl

theorem exec_onSuccessful {related : Related} (hstatus : payment.status = .successful)
    (hrel : related.Valid (View.alone s.toDirectory s.toBooks) payment)
    (h : (onSuccessful env payment related).exec s = .ok ((), t)) :
    Announced s t [payment] ∧ t.payments = s.payments := by
  have hname : "payment.successful" = payment.status.eventName := by rw [hstatus]; decide
  unfold onSuccessful at h
  rw [hname] at h
  obtain ⟨_, s₀, haudit, h₀⟩ := (Txn.exec_bind_ok _).mp h
  obtain ⟨hlookups, row, hrow, hwrote⟩ :=
    exec_statusAudit (by rw [hstatus]; decide) haudit
  obtain ⟨_, s₁, hpost, h₁⟩ := (Txn.exec_bind_ok _).mp h₀
  obtain ⟨_, s₂, hrecord, h₂⟩ := (Txn.exec_bind_ok _).mp h₁
  have hkept :=
    (recordPaymentSuccessful_keeps (f := DB.lookups) (fun _ _ => rfl) (fun _ _ => rfl) _ _ _
    hrecord).trans (postSettlementLedgerEntries_keeps (fun _ _ => rfl) _ _ _ hpost)
  obtain ⟨⟨cn, bill⟩, s₃, hload, h₃⟩ := (Txn.exec_bind_ok _).mp h₂
  obtain ⟨rfl, hbehind⟩ := exec_loadRelated_of_lookups hrel (hkept.trans hlookups) hload
  obtain ⟨bill', s₄, hallocate, h₄⟩ := (Txn.exec_bind_ok _).mp h₃
  obtain ⟨receipt, s₅, hreceipt, h₅⟩ := (Txn.exec_bind_ok _).mp h₄
  obtain ⟨_, v, hsuccess, hdispatch⟩ := (Txn.exec_bind_ok _).mp h₅
  obtain ⟨remaining, s₆, hbalance, hnotify⟩ := (Txn.exec_bind_ok _).mp hsuccess
  have hbeneath : s₆.surface = s₃.surface :=
    (balanceText_beneath bill' _ _ _ hbalance).trans <|
      (generateReceipt_beneath cn bill' _ _ _ hreceipt).trans
        (allocateToBill_beneath bill _ _ _ hallocate)
  have hall := ((hwrote.then (postSettlementLedgerEntries_beneath _ _ _ hpost)).then
    (recordPaymentSuccessful_beneath _ _ _ hrecord)).then hbeneath
  refine announced_notify_dispatch hall hrow
    ((hbehind.bill_congr (exec_allocateToBill hallocate)).of_references (congrArg (·.1) hbeneath))
    ?_ hnotify hdispatch
  rw [hstatus]
  exact successEvent_about bill'

theorem exec_onEntered {related : Related}
    (hstatus : payment.status = .pending ∨ payment.status = .successful ∨ payment.status = .failed)
    (hrel : related.Valid (View.alone s.toDirectory s.toBooks) payment)
    (h : (onEntered env payment related payment.status).exec s = .ok ((), t)) :
    Announced s t [payment] ∧ t.payments = s.payments := by
  rcases hstatus with hstatus | hstatus | hstatus
  · rw [hstatus] at h
    exact exec_onPending hstatus hrel h
  · rw [hstatus] at h
    exact exec_onSuccessful hstatus hrel h
  · rw [hstatus] at h
    exact exec_onFailed hstatus hrel h

end Wrote

end Kusanya
