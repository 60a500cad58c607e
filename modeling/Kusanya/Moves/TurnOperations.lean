import Kusanya.Moves.Turns
import Kusanya.Moves.Initiations

/-!
# Operations as turns

The operations of `apps.payments.services`, run alone: which payment takes a turn, and that
everything else about them is quiet.
-/

namespace Kusanya

open ReadCommitted Support

/-! ## Quiet steps -/

/-- Neither the payments nor what announces them have changed. -/
structure Quiet (s t : DB) : Prop where
  announced : Announced s t []
  payments : t.payments = s.payments

section Quiet

variable {s t u : DB} {env : Env} {payment payment' : Payment}

theorem Quiet.refl (s : DB) : Quiet s s := ⟨Announced.silent rfl rfl, rfl⟩

theorem Quiet.of_surface (h : t.surface = s.surface) : Quiet s t where
  announced := Announced.silent (congrArg (·.1) h) (congrArg (·.2.2) h)
  payments := congrArg (·.2.1) h

theorem Beneath.quiet {α : Type} {p : Tx α} {a : α} (hp : Beneath p)
    (h : p.exec s = .ok (a, t)) : Quiet s t :=
  Quiet.of_surface (hp s a t h)

theorem Quiet.trans (h : Quiet s t) (h' : Quiet t u) : Quiet s u where
  announced := h.announced.trans h'.announced
  payments := h'.payments.trans h.payments

theorem quiet_audit {action : String} {tenant : Option ℕ} {target : Option Source}
    {after metadata : List (String × String)}
    (hname : action ∉ announcedStatuses.map (·.eventName))
    (h : (recordAuditEvent env action tenant target after metadata).exec s = .ok ((), t)) :
    Quiet s t :=
  ⟨announced_audit hname h, congrArg Books.payments (audit_books h)⟩

theorem Quiet.unique (h : Quiet s t) (hs : s.PaymentsUnique) : t.PaymentsUnique := by
  unfold DB.PaymentsUnique
  rw [h.payments]
  exact hs

theorem Turn.then_quiet (h : Turn s t payment payment') (h' : Quiet t u) :
    Turn s u payment payment' :=
  h.then h'.announced h'.payments

/-- A turn after a quiet step. -/
theorem Quiet.turn (h : Quiet s t) (h' : Turn t u payment payment') :
    Turn s u payment payment' where
  announced := h.announced.trans h'.announced
  payments := by rw [h'.payments, h.payments]
  id := h'.id

end Quiet

/-! ## Complete steps -/

/-- Each payment that has entered a status is announced exactly once, and nothing else is. -/
def Complete (s t : DB) : Prop := ∃ entries, (s.entered t).Perm entries ∧ Announced s t entries

section Complete

variable {s t u : DB} {payment payment' : Payment}

theorem Quiet.complete (h : Quiet s t) : Complete s t :=
  ⟨[], by rw [entered_same h.payments], h.announced⟩

theorem Complete.refl (s : DB) : Complete s s := (Quiet.refl s).complete

theorem Turn.complete (h : Turn s t payment payment') (hs : s.PaymentsUnique)
    (hmem : payment ∈ s.payments) : Complete s t :=
  ⟨_, by rw [h.entered hs hmem], h.announced⟩

theorem Quiet.then_complete (h : Quiet s t) (h' : Complete t u) : Complete s u := by
  obtain ⟨entries, hentered, hannounced⟩ := h'
  refine ⟨entries, ?_, h.announced.trans hannounced⟩
  have hsame : s.entered u = t.entered u := by
    unfold DB.entered
    rw [h.payments]
  rw [hsame]
  exact hentered

theorem Complete.then_quiet (h : Complete s t) (h' : Quiet t u) : Complete s u := by
  obtain ⟨entries, hentered, hannounced⟩ := h
  refine ⟨entries, ?_, ?_⟩
  · have hsame : s.entered u = s.entered t := by
      unfold DB.entered
      rw [h'.payments]
    rw [hsame]
    exact hentered
  · have hboth := hannounced.trans h'.announced
    rw [List.append_nil] at hboth
    exact hboth

end Complete

/-! ## Answers that the payment keeps -/

section Operations

variable {env : Env} {payment payment' : Payment} {related : Related} {s t : DB}

theorem entryAs_of_status (hstatus : payment'.status = payment.status) :
    payment.entryAs payment' = none :=
  if_neg fun h => h.2 hstatus

theorem Related.Valid.of_controlNumber {view : View}
    (h : related.Valid view payment) (hnumber : payment'.controlNumber = payment.controlNumber) :
    related.Valid view payment' where
  controlNumber cn hcn := by
    rw [hnumber]
    exact h.controlNumber cn hcn
  bill := h.bill

theorem exec_saveProviderResult {result : ProviderResult} (hs : s.PaymentsUnique)
    (hmem : payment ∈ s.payments)
    (h : (saveProviderResult payment result).exec s = .ok (payment', t)) :
    Turn s t payment payment' ∧ payment'.status = payment.status ∧
      payment'.controlNumber = payment.controlNumber ∧ t.lookups = s.lookups := by
  unfold saveProviderResult at h
  obtain ⟨_, s₁, hcheck, h₁⟩ := (Txn.exec_bind_ok _).mp h
  obtain ⟨-, rfl⟩ := exec_checkVarchar_ok hcheck
  obtain ⟨raw, s₂, hstore, h₂⟩ := (Txn.exec_bind_ok _).mp h₁
  obtain ⟨-, rfl⟩ := exec_storeJson_ok hstore
  obtain ⟨rfl, rfl⟩ := Prod.mk.inj (Except.ok.inj h₂)
  exact ⟨Turn.of_update hs hmem rfl rfl (entryAs_of_status rfl), rfl, rfl, rfl⟩

theorem exec_learnReference {reference : String} (hs : s.PaymentsUnique)
    (hmem : payment ∈ s.payments)
    (h : (learnReference payment reference).exec s = .ok (payment', t)) :
    Turn s t payment payment' ∧ payment'.status = payment.status ∧
      payment'.controlNumber = payment.controlNumber ∧ t.lookups = s.lookups := by
  unfold learnReference at h
  rw [Txn.exec_ite] at h
  split at h
  · obtain ⟨_, s₁, hcheck, h₁⟩ := (Txn.exec_bind_ok _).mp h
    obtain ⟨-, rfl⟩ := exec_checkVarchar_ok hcheck
    obtain ⟨rfl, rfl⟩ := Prod.mk.inj (Except.ok.inj h₁)
    exact ⟨Turn.of_update hs hmem rfl rfl (entryAs_of_status rfl), rfl, rfl, rfl⟩
  · obtain ⟨rfl, rfl⟩ := Prod.mk.inj (Except.ok.inj h)
    exact ⟨Turn.same hs hmem (Announced.silent rfl rfl) rfl, rfl, rfl, rfl⟩

/-! ## The operations -/

theorem exec_queryPayment (hs : s.PaymentsUnique) (hmem : payment ∈ s.payments)
    (h : (queryPayment env payment).exec s = .ok (payment', t)) : Turn s t payment payment' := by
  unfold queryPayment at h
  obtain ⟨adapter, s₁, hadapter, h₁⟩ := (Txn.exec_bind_ok _).mp h
  obtain ⟨result, s₂, hanswer, h₂⟩ := (Txn.exec_bind_ok _).mp h₁
  obtain ⟨learnt, s₃, hlearn, h₃⟩ := (Txn.exec_bind_ok _).mp h₂
  obtain ⟨_, s₄, haudit, happly⟩ := (Txn.exec_bind_ok _).mp h₃
  have hquiet := (adapterOf_beneath.quiet hadapter).trans ((askProvider_beneath _ _).quiet hanswer)
  have hs₂ := hquiet.unique hs
  have hmem₂ : payment ∈ s₂.payments := by rw [hquiet.payments]; exact hmem
  obtain ⟨hlearnt, hstatus, -, -⟩ := exec_learnReference hs₂ hmem₂ hlearn
  have hbefore := hlearnt.then_quiet (quiet_audit (by decide) haudit)
  have happlied := exec_applyOutcome (hbefore.unique hs₂) (hbefore.mem hmem₂)
    (Related.valid_empty _ _) happly
  exact hquiet.turn (hbefore.trans happlied hstatus)

/-- A timeout is announced by no event of its own. -/
theorem exec_onTimeout (hs : s.PaymentsUnique) (hmem : payment ∈ s.payments)
    (h : (onTimeout env payment).exec s = .ok (payment', t)) : Turn s t payment payment' := by
  unfold onTimeout at h
  obtain ⟨moved, s₁, hmove, h₁⟩ := (Txn.exec_bind_ok _).mp h
  obtain ⟨_, s₂, haudit, h₂⟩ := (Txn.exec_bind_ok _).mp h₁
  obtain ⟨rfl, rfl⟩ := Prod.mk.inj (Except.ok.inj h₂)
  exact Turn.of_unannounced hs hmem (by decide) (by decide) hmove haudit

/-- The message of an answer that takes the branch `except ProviderError`. -/
def refusal? : Except AdapterError ProviderResult → Option String
  | .error (.providerError message) | .error (.invalidSignature message) => some message
  | _ => none

/-- The branch without a webhook event: complete where nobody would receive one. -/
theorem exec_onProviderError {message : String} (hs : s.PaymentsUnique)
    (hmem : payment ∈ s.payments) (hinitiated : payment.status = .initiated)
    (hrel : related.Valid (View.alone s.toDirectory s.toBooks) payment)
    (hnobody : Varchar 255 message → ∀ endpoint ∈ activeEndpoints s payment.tenant,
      endpoint.isSubscribedTo "payment.failed" = false)
    (h : (onProviderError env payment related message).exec s = .ok (payment', t)) :
    Turn s t payment payment' := by
  unfold onProviderError at h
  obtain ⟨moved, s₁, hmove, h₁⟩ := (Txn.exec_bind_ok _).mp h
  obtain ⟨_, s₂, haudit, h₂⟩ := (Txn.exec_bind_ok _).mp h₁
  obtain ⟨_, s₃, hrecord, h₃⟩ := (Txn.exec_bind_ok _).mp h₂
  obtain ⟨⟨cn, bill⟩, u, hload, h₄⟩ := (Txn.exec_bind_ok _).mp h₃
  obtain ⟨_, v, hnotify, h₅⟩ := (Txn.exec_bind_ok _).mp h₄
  obtain ⟨⟨-, hlength⟩, rfl, rfl⟩ := exec_paymentTransitionTo hmove
  obtain ⟨rfl, rfl⟩ := Prod.mk.inj (Except.ok.inj h₅)
  have hshort : Varchar 255 message := by
    by_cases hblank : message = ""
    · rw [hblank]
      decide
    · unfold Payment.moveTo at hlength
      dsimp only at hlength
      rw [if_neg hblank] at hlength
      exact hlength
  generalize hsaved : inBooks (·.savePayment (payment.moveTo env.now .failed message)) s = saved
    at haudit
  have hfailed : (payment.moveTo env.now .failed message).status = .failed := rfl
  have hname : "payment.failed" = (payment.moveTo env.now .failed message).status.eventName := by
    rw [hfailed]
    decide
  have hentered : (payment.moveTo env.now .failed message).status ∈ announcedStatuses := by
    rw [hfailed]
    decide
  rw [hname] at haudit
  obtain ⟨hlookups, row, hrow, hwrote⟩ := exec_statusAudit hentered haudit
  have hkept := recordEvent_keeps (f := DB.lookups) (fun _ _ => rfl) _ _ _ _ _ _ _ _ _ _ hrecord
  have hmoved : related.Valid (View.alone saved.toDirectory saved.toBooks)
      (payment.moveTo env.now .failed message) := by
    rw [← hsaved]
    exact (hrel.of_lookups (by rfl) (by rfl)).moveTo env.now .failed message
  obtain ⟨rfl, hbehind⟩ := exec_loadRelated_of_lookups hmoved (hkept.trans hlookups) hload
  obtain ⟨customer, notices, hcustomer, rfl, hnotices⟩ := exec_notify hbehind (by rfl) hnotify
  have hu := hwrote.then (recordEvent_beneath _ _ _ _ _ _ _ _ _ _ hrecord)
  have hall := hu.trans (wrote_notices notices)
  simp only [List.append_nil, List.nil_append] at hall
  have hnone : (payment.moveTo env.now .failed message).deliveriesFrom saved = [] := by
    have hdirectory : saved.toDirectory = s.toDirectory := by rw [← hsaved]; rfl
    unfold Payment.deliveriesFrom activeEndpoints
    rw [hdirectory, List.map_eq_nil_iff, List.filter_eq_nil_iff]
    intro endpoint hendpoint
    rw [← hname, hnobody hshort endpoint hendpoint]
    exact Bool.false_ne_true
  have hannounced := hall.announced hrow (hcustomer.of_references hu.references.symm) hnotices
    hnone.symm
  rw [← hsaved] at hannounced
  refine Turn.of_transition hs hmem ?_ ?_
  · rw [moveTo_entryAs (by decide) (by rw [hinitiated]; decide)]
    exact hannounced
  · rw [hsaved]
    exact hall.payments

theorem exec_onInitiated {answer : Except AdapterError ProviderResult} (hs : s.PaymentsUnique)
    (hmem : payment ∈ s.payments) (hinitiated : payment.status = .initiated)
    (hrel : related.Valid (View.alone s.toDirectory s.toBooks) payment)
    (hnobody : ∀ message, refusal? answer = some message → Varchar 255 message →
      ∀ endpoint ∈ activeEndpoints s payment.tenant,
        endpoint.isSubscribedTo "payment.failed" = false)
    (h : (onInitiated env payment related answer).exec s = .ok (payment', t)) :
    Turn s t payment payment' := by
  cases answer with
  | ok result =>
      obtain ⟨saved, s₁, hsave, happly⟩ := (Txn.exec_bind_ok _).mp h
      obtain ⟨hturn, hstatus, hnumber, hlookups⟩ := exec_saveProviderResult hs hmem hsave
      have hrel₁ := (hrel.of_lookups (congrArg (·.1) hlookups)
        (congrArg (·.2) hlookups)).of_controlNumber hnumber
      exact hturn.trans (exec_applyOutcome (hturn.unique hs) (hturn.mem hmem) hrel₁ happly) hstatus
  | error e =>
      cases e with
      | timeout => exact exec_onTimeout hs hmem h
      | providerError => exact exec_onProviderError hs hmem hinitiated hrel (hnobody _ rfl) h
      | invalidSignature => exact exec_onProviderError hs hmem hinitiated hrel (hnobody _ rfl) h
      | other => cases h

/-! ### Refunds and reversals -/

theorem compensate_lookups (eventType : RevenueEventType) (entryType : LedgerEntryType) :
    (compensate env payment eventType entryType).Keeps DB.lookups := by
  unfold compensate
  apply Txn.keeps_bind (Txn.keeps_fetch _ _)
  intro original
  apply Txn.keeps_bind
  · apply Txn.keeps_bind (Txn.keeps_fetch _ _)
    intro row
    cases row with
    | none => exact Txn.keeps_throw _
    | some row => exact Txn.keeps_ret _
  intro tenant
  dsimp only
  split
  · exact recordEvent_keeps (fun _ _ => rfl) _ _ _ _ _ _ _
  · next fee _ =>
      refine Txn.keeps_bind ?_ fun _ => recordEvent_keeps (fun _ _ => rfl) _ _ _ _ _ _ _
      unfold compensateEntry
      split
      · exact Txn.keeps_ret _
      · exact Txn.keeps_bind (postEntry_keeps (fun _ _ => rfl) _ _ _ _ _ _ _ _ _) fun _ =>
          Txn.keeps_ret _

/-- Dispatching before notifying. -/
theorem announced_dispatch_notify {u v : DB} {row : AuditLog} {cn : ControlNumber}
    {bill : Option Bill} {amount : String} {eventType : NotificationEventType}
    {extra : List (String × String)}
    (hu : Wrote s u [row] [] []) (hrow : row.announcement? = some payment.auditEntry)
    (hbehind : Behind u payment cn bill) (habout : eventType.about = some payment.status)
    (hdispatch : (dispatch env payment cn bill amount payment.status.eventName).exec u =
      .ok ((), v))
    (hnotify : (notify env payment cn bill eventType extra).exec v = .ok ((), t)) :
    Announced s t [payment] ∧ t.payments = s.payments := by
  obtain ⟨deliveries, rfl, hdeliveries⟩ := exec_dispatch hdispatch
  obtain ⟨customer, notices, hcustomer, rfl, hnotices⟩ :=
    exec_notify (hbehind.of_references (by rfl)) habout hnotify
  have hall := (hu.trans (wrote_deliveries deliveries)).trans (wrote_notices notices)
  simp only [List.append_nil, List.nil_append] at hall
  have hreferences : s.references = (inTrail (·.addDeliveries deliveries) u).references :=
    hu.references.symm
  refine ⟨hall.announced hrow (hcustomer.of_references hreferences) hnotices ?_, hall.payments⟩
  rw [hdeliveries]
  exact deliveriesFrom_references hu.references

theorem exec_undoPayment {newStatus : PaymentStatus} {record : Payment → Tx Unit}
    {metadata : List (String × String)} {notification : NotificationEventType}
    (hs : s.PaymentsUnique) (hmem : payment ∈ s.payments) (hsuccess : payment.status = .successful)
    (hnew : newStatus ∈ [PaymentStatus.refunded, PaymentStatus.reversed])
    (hrecord : ∀ p, Beneath (record p) ∧ (record p).Keeps DB.lookups)
    (habout : notification.about = some newStatus)
    (h : (undoPayment env payment newStatus record newStatus.eventName metadata
      notification).exec s = .ok (payment', t)) : Turn s t payment payment' := by
  unfold undoPayment at h
  obtain ⟨moved, s₁, hmove, h₁⟩ := (Txn.exec_bind_ok _).mp h
  obtain ⟨_, s₂, haudit, h₂⟩ := (Txn.exec_bind_ok _).mp h₁
  obtain ⟨_, s₃, hrecorded, h₃⟩ := (Txn.exec_bind_ok _).mp h₂
  obtain ⟨⟨cn, bill⟩, u, hload, h₄⟩ := (Txn.exec_bind_ok _).mp h₃
  obtain ⟨_, v, hdispatch, h₅⟩ := (Txn.exec_bind_ok _).mp h₄
  obtain ⟨_, w, hnotify, h₆⟩ := (Txn.exec_bind_ok _).mp h₅
  obtain ⟨rfl, rfl⟩ := Prod.mk.inj (Except.ok.inj h₆)
  obtain ⟨-, rfl, rfl⟩ := exec_paymentTransitionTo hmove
  have hstatus : (payment.moveTo env.now newStatus "").status = newStatus := rfl
  have hentered : newStatus ∈ announcedStatuses := by
    rcases List.mem_pair.mp hnew with rfl | rfl <;> decide
  have hne : payment.status ≠ newStatus := by
    rw [hsuccess]
    rcases List.mem_pair.mp hnew with rfl | rfl <;> decide
  generalize hmoved : payment.moveTo env.now newStatus "" = moved at *
  rw [← hstatus] at haudit hdispatch
  obtain ⟨hlookups, row, hrow, hwrote⟩ := exec_statusAudit (by rw [hstatus]; exact hentered) haudit
  have hkept := (hrecord moved).2 _ _ _ hrecorded
  obtain ⟨rfl, hbehind⟩ := exec_loadRelated_of_lookups (Related.valid_empty _ _)
    (hkept.trans hlookups) hload
  have hfollowed := announced_dispatch_notify (hwrote.then ((hrecord moved).1 _ _ _ hrecorded)) hrow
    hbehind (by rw [hstatus]; exact habout) hdispatch hnotify
  subst hmoved
  refine Turn.of_transition hs hmem ?_ hfollowed.2
  rw [moveTo_entryAs hentered hne]
  exact hfollowed.1

/-- What the two operations share: they look at the status, ask the provider, and undo. -/
theorem exec_undoing {e : Error} {call : Call}
    {answer : Adapter → Except AdapterError ProviderResult} {undo : Tx Payment}
    (hs : s.PaymentsUnique) (hmem : payment ∈ s.payments)
    (hundo : ∀ u, Quiet s u → payment.status = .successful → undo.exec u = .ok (payment', t) →
      Turn u t payment payment')
    (h : (do
      raiseIf (payment.status ≠ .successful) e
      let adapter ← adapterOf env payment
      let result ← askProvider call (answer adapter)
      if result.outcome = .successful then undo else pure payment : Tx Payment).exec s =
        .ok (payment', t)) : Turn s t payment payment' := by
  obtain ⟨_, s₁, hraise, h₁⟩ := (Txn.exec_bind_ok _).mp h
  obtain ⟨adapter, s₂, hadapter, h₂⟩ := (Txn.exec_bind_ok _).mp h₁
  obtain ⟨result, s₃, hanswer, h₃⟩ := (Txn.exec_bind_ok _).mp h₂
  have hquiet := ((raiseIf_beneath _ _).quiet hraise).trans
    ((adapterOf_beneath.quiet hadapter).trans ((askProvider_beneath _ _).quiet hanswer))
  have hsuccess : payment.status = .successful := by
    by_contra hother
    rw [exec_raiseIf, if_pos hother] at hraise
    cases hraise
  rw [Txn.exec_ite] at h₃
  split at h₃
  · exact hquiet.turn (hundo s₃ hquiet hsuccess h₃)
  · obtain ⟨rfl, rfl⟩ := Prod.mk.inj (Except.ok.inj h₃)
    exact Turn.same hs hmem hquiet.announced hquiet.payments

theorem exec_refundPayment {amount : Option Amount} (hs : s.PaymentsUnique)
    (hmem : payment ∈ s.payments)
    (h : (refundPayment env payment amount).exec s = .ok (payment', t)) :
    Turn s t payment payment' := by
  refine exec_undoing hs hmem (fun u hquiet hsuccess hundo => ?_) h
  have hmem₁ : payment ∈ u.payments := by rw [hquiet.payments]; exact hmem
  exact exec_undoPayment (hquiet.unique hs) hmem₁ hsuccess (by decide)
    (fun p => ⟨compensate_beneath _ _, compensate_lookups _ _⟩) rfl hundo

theorem exec_reversePayment (hs : s.PaymentsUnique) (hmem : payment ∈ s.payments)
    (h : (reversePayment env payment).exec s = .ok (payment', t)) : Turn s t payment payment' := by
  refine exec_undoing hs hmem (fun u hquiet hsuccess hundo => ?_) h
  have hmem₁ : payment ∈ u.payments := by rw [hquiet.payments]; exact hmem
  exact exec_undoPayment (hquiet.unique hs) hmem₁ hsuccess (by decide)
    (fun p => ⟨compensate_beneath _ _, compensate_lookups _ _⟩) rfl hundo

/-! ### Initiations -/

/-- The provider refuses, in a message that the column holds, and an endpoint of the tenant
waits for `payment.failed`. -/
def InitiateInput.Drops (env : Env) (input : InitiateInput) (db : DB) : Prop :=
  ∃ tenant adapter message, db.tenants.find? (·.id = input.tenant) = some tenant ∧
    env.registry input.provider.code = some adapter ∧
    refusal? (adapter.initiatePayment (input.call (input.newPayment env tenant.defaultCurrency))) =
      some message ∧ Varchar 255 message ∧
    ∃ endpoint ∈ activeEndpoints db input.tenant, endpoint.isSubscribedTo "payment.failed" = true

/-- A new row and its turn. -/
theorem Turn.complete_of_insert (hfresh : ∀ row ∈ s.payments, row.id ≠ payment.id)
    (hinitiated : payment.status = .initiated)
    {u : DB} (hu : Quiet (inBooks (·.addPayment payment) s) u) (h : Turn u t payment payment') :
    Complete s t := by
  have hrows : u.payments = s.payments ++ [payment] := hu.payments
  have hkept : t.payments = s.payments ++ [payment'] := by
    rw [h.payments, hrows, List.map_append]
    congr 1
    · have hsame : ∀ row ∈ s.payments, (if row.id = payment.id then payment' else row) = row :=
        fun row hrow => if_neg (hfresh row hrow)
      exact (List.map_congr_left hsame).trans (List.map_id _)
    · simp
  have hold : s.payments.filter (fun p => p.status ∈ announcedStatuses &&
      !s.payments.any fun q => q.id = p.id && q.status = p.status) = [] :=
    entered_same (s := s) (t := s) rfl
  have hnew :
      (s.payments.any fun q => q.id = payment'.id && q.status = payment'.status) = false := by
    rw [List.any_eq_false]
    intro q hq
    simp [h.id, hfresh q hq]
  refine ⟨(payment.entryAs payment').toList, ?_, ?_⟩
  · rw [DB.entered, hkept, List.filter_append, hold, List.nil_append, List.filter_cons, hnew,
      Payment.entryAs, hinitiated]
    by_cases hannounced : payment'.status ∈ announcedStatuses
    · have hne : payment'.status ≠ .initiated := by
        intro heq
        rw [heq] at hannounced
        exact absurd hannounced (by decide)
      simp [hannounced, hne]
    · simp [hannounced]
  · have hinsert : Announced s (inBooks (·.addPayment payment) s) [] := Announced.silent rfl rfl
    exact (hinsert.trans hu.announced).trans h.announced

theorem paymentsUnique_addPayment (hs : s.PaymentsUnique)
    (hfresh : ∀ row ∈ s.payments, row.id ≠ payment.id) :
    (inBooks (·.addPayment payment) s).PaymentsUnique := by
  change ((s.payments ++ [payment]).map (·.id)).Nodup
  rw [List.map_append, List.nodup_append]
  refine ⟨hs, List.nodup_singleton _, ?_⟩
  rintro id hid other hother rfl
  obtain ⟨row, hrow, rfl⟩ := List.mem_map.mp hid
  exact hfresh row hrow (List.mem_singleton.mp hother)

theorem exec_initiatePayment {input : InitiateInput} {bill : Option Bill} (hs : s.PaymentsUnique)
    (hcn : input.controlNumber ∈ s.controlNumbers)
    (hbill : ∀ row, bill = some row → input.controlNumber.bill? = some row.id ∧ row ∈ s.bills)
    (hheard : ¬(input.reaches env s = true ∧ input.Drops env s))
    (h : (initiatePayment env input bill).exec s = .ok (payment', t)) : Complete s t := by
  unfold initiatePayment at h
  rw [Txn.exec_bind, exec_paymentByKey] at h
  cases hkey : s.paymentWithKey input.tenant input.idempotencyKey with
  | some existing =>
      rw [hkey] at h
      obtain ⟨_, s₁, haudit, h₁⟩ := (Txn.exec_bind_ok _).mp h
      obtain ⟨-, rfl⟩ := Prod.mk.inj (Except.ok.inj h₁)
      exact (quiet_audit (by decide) haudit).complete
  | none =>
      rw [hkey] at h
      dsimp only at h
      rw [Txn.exec_bind, getTenant, exec_getRow] at h
      cases htenant : s.tenants.find? (·.id = input.tenant) with
      | none =>
          rw [htenant] at h
          cases h
      | some tenant =>
          rw [htenant] at h
          dsimp only at h
          obtain ⟨_, s₁, hinsert, h₁⟩ := (Txn.exec_bind_ok _).mp h
          obtain ⟨_, s₂, haudit, h₂⟩ := (Txn.exec_bind_ok _).mp h₁
          obtain ⟨adapter, s₃, hadapter, h₃⟩ := (Txn.exec_bind_ok _).mp h₂
          obtain ⟨_, s₄, hcall, hanswer⟩ := (Txn.exec_bind_ok _).mp h₃
          obtain ⟨-, rfl⟩ := Prod.mk.inj (Except.ok.inj hcall)
          generalize hnew : input.newPayment env tenant.defaultCurrency = payment at *
          obtain ⟨hpayer, hlength, hclash, rfl⟩ := exec_insertPayment_ok hinsert
          obtain ⟨hregistered, rfl⟩ := exec_getAdapter_ok hadapter
          have hfresh : ∀ row ∈ s.payments, row.id ≠ payment.id := by
            intro row hrow hid
            have hany := List.any_eq_false.mp hclash row hrow
            simp [hid] at hany
          have hinitiated : payment.status = .initiated := by rw [← hnew]; rfl
          have hreaches : input.reaches env s = true := by
            rw [← hnew] at hpayer hlength hclash
            have hpayer' : input.payerReference.length ≤ 100 := hpayer
            have hlength' : Varchar 100 input.idempotencyKey := hlength
            simp [InitiateInput.reaches, InitiateInput.accepted, hkey, htenant, hpayer', hlength',
              hclash, hregistered, (exec_recordAuditEvent_ok haudit).1]
          have hquiet := quiet_audit (by decide) haudit
          have hunique := hquiet.unique (paymentsUnique_addPayment hs hfresh)
          have hmem : payment ∈ s₃.payments := by
            rw [hquiet.payments]
            exact List.mem_append_right _ (List.mem_singleton_self _)
          refine Turn.complete_of_insert hfresh hinitiated hquiet
            (exec_onInitiated hunique hmem hinitiated ?_ ?_ hanswer)
          · refine ⟨fun cn hfound => ?_, fun row hrow => ?_⟩
            · obtain rfl := Option.some.inj hfound
              rw [View.sees_alone, ← hnew]
              have hnumbers : s₃.controlNumbers = s.controlNumbers :=
                congrArg (·.2.1) hquiet.announced.references
              exact ⟨by rw [hnumbers]; exact hcn, rfl⟩
            · obtain ⟨hbound, hstored⟩ := hbill row hrow
              refine ⟨input.controlNumber, rfl, hbound, ?_⟩
              rw [View.seesAt_alone, audit_books haudit]
              exact hstored
          · intro message hrefusal hshort endpoint hendpoint
            by_contra hsubscribed
            have hdirectory : s₃.toDirectory = s.toDirectory :=
              congrArg (·.1) hquiet.announced.references
            refine hheard ⟨hreaches, tenant, adapter, message, htenant, hregistered, ?_, hshort,
              endpoint, ?_, Bool.not_eq_false _ ▸ hsubscribed⟩
            · rw [hnew]
              exact hrefusal
            · unfold activeEndpoints at hendpoint ⊢
              rw [← hdirectory]
              rw [← hnew] at hendpoint
              exact hendpoint

/-! ### Callbacks -/

theorem acquireUnlessBlank_beneath (text : String) (key : Resource) :
    Beneath (acquireUnlessBlank text key) :=
  Txn.keeps_ite (Txn.keeps_ret _) (Txn.keeps_acquire _)

theorem updateCallbackEvent_beneath (id : ℕ) (f : PaymentCallbackEvent → PaymentCallbackEvent) :
    Beneath (onBooks (·.updateCallbackEvent id f)) :=
  onBooks_beneath (fun _ => rfl) (fun _ => rfl) fun _ => rfl

theorem insertCallbackEvent_beneath (id provider : ℕ) (externalEventId : String)
    (outcome : CallbackOutcome) (payment : Option ℕ) (rawPayload : Option String) :
    Beneath (insertCallbackEvent id provider externalEventId outcome payment rawPayload) := by
  unfold insertCallbackEvent
  apply Txn.keeps_bind (checkVarchar_beneath _ _)
  intro _
  apply Txn.keeps_bind (storeJson_beneath _)
  intro raw
  apply Txn.keeps_bind (Txn.keeps_acquire _)
  intro _
  apply Txn.keeps_bind (acquireUnlessBlank_beneath _ _)
  intro _
  apply Txn.keeps_bind (Txn.keeps_fetch _ _)
  intro clash
  apply Txn.keeps_bind (raiseIf_beneath _ _)
  intro _
  exact Txn.keeps_bind (onBooks_beneath (fun _ => rfl) (fun _ => rfl) fun _ => rfl) fun _ =>
    Txn.keeps_ret _

theorem exec_onDuplicate {provider : PaymentProvider} {parsed : ProviderCallbackResult}
    {event : PaymentCallbackEvent}
    (h : (onDuplicate env provider parsed).exec s = .ok (event, t)) : Quiet s t := by
  unfold onDuplicate at h
  obtain ⟨original, s₁, hfetch, h₁⟩ := (Txn.exec_bind_ok _).mp h
  obtain ⟨dup, s₂, hinsert, h₂⟩ := (Txn.exec_bind_ok _).mp h₁
  obtain ⟨-, rfl⟩ := Prod.mk.inj (Except.ok.inj hfetch)
  have hquiet := (insertCallbackEvent_beneath _ _ _ _ _ _).quiet hinsert
  cases hpayment : original.bind (·.payment) with
  | none =>
      rw [hpayment] at h₂
      obtain ⟨_, s₃, haudit, h₃⟩ := (Txn.exec_bind_ok _).mp h₂
      obtain ⟨-, rfl⟩ := Prod.mk.inj (Except.ok.inj h₃)
      exact hquiet.trans (quiet_audit (by decide) haudit)
  | some id =>
      rw [hpayment] at h₂
      obtain ⟨found, s₃, hrow, h₃⟩ := (Txn.exec_bind_ok _).mp h₂
      obtain ⟨_, s₄, haudit, h₄⟩ := (Txn.exec_bind_ok _).mp h₃
      obtain ⟨_, s₅, hrecord, h₅⟩ := (Txn.exec_bind_ok _).mp h₄
      obtain ⟨-, rfl⟩ := Prod.mk.inj (Except.ok.inj h₅)
      exact hquiet.trans (((getRow_beneath _ _).quiet hrow).trans
        ((quiet_audit (by decide) haudit).trans
          ((recordEvent_beneath _ _ _ _ _ _ _).quiet hrecord)))

theorem exec_onFirstDelivery {event event' : PaymentCallbackEvent}
    {parsed : ProviderCallbackResult} (hs : s.PaymentsUnique)
    (h : (onFirstDelivery env event parsed).exec s = .ok (event', t)) : Complete s t := by
  unfold onFirstDelivery at h
  obtain ⟨_, u, hcheck, hfound⟩ := (Txn.exec_bind_ok _).mp h
  obtain ⟨-, rfl⟩ := exec_checkParameter_ok hcheck
  rw [Txn.exec_bind, Txn.exec_fetch] at hfound
  dsimp only at hfound
  cases hmatch : u.toBooks.matchReference parsed.providerReference with
  | none =>
      rw [hmatch] at hfound
      obtain ⟨_, s₁, hupdate, h₁⟩ := (Txn.exec_bind_ok _).mp hfound
      obtain ⟨_, s₂, haudit, h₂⟩ := (Txn.exec_bind_ok _).mp h₁
      obtain ⟨-, rfl⟩ := Prod.mk.inj (Except.ok.inj h₂)
      have hquiet := (updateCallbackEvent_beneath _ _).quiet hupdate
      exact (hquiet.trans (quiet_audit (by decide) haudit)).complete
  | some payment =>
      rw [hmatch] at hfound
      obtain ⟨_, s₁, hupdate, h₁⟩ := (Txn.exec_bind_ok _).mp hfound
      obtain ⟨payment', s₂, happly, h₂⟩ := (Txn.exec_bind_ok _).mp h₁
      obtain ⟨-, rfl⟩ := Prod.mk.inj (Except.ok.inj h₂)
      have hquiet := (updateCallbackEvent_beneath _ _).quiet hupdate
      have hmem : payment ∈ s₁.payments := by
        rw [hquiet.payments]
        exact (List.mem_filter.mp (newestPayment_mem hmatch)).1
      have hturn := exec_applyOutcome (hquiet.unique hs) hmem (Related.valid_empty _ _) happly
      exact hquiet.then_complete (hturn.complete (hquiet.unique hs) hmem)

theorem exec_processCallback {provider : PaymentProvider} {inbound : InboundCallback}
    {event : PaymentCallbackEvent} (hs : s.PaymentsUnique)
    (h : (processCallback env provider inbound).exec s = .ok (event, t)) : Complete s t := by
  unfold processCallback at h
  obtain ⟨adapter, s₁, hadapter, h₁⟩ := (Txn.exec_bind_ok _).mp h
  obtain ⟨-, rfl⟩ := exec_getAdapter_ok hadapter
  split at h₁
  · obtain ⟨event, s₂, hinsert, h₂⟩ := (Txn.exec_bind_ok _).mp h₁
    obtain ⟨_, s₃, haudit, h₃⟩ := (Txn.exec_bind_ok _).mp h₂
    obtain ⟨-, rfl⟩ := Prod.mk.inj (Except.ok.inj h₃)
    have hquiet := (insertCallbackEvent_beneath _ _ _ _ _ _).quiet hinsert
    exact (hquiet.trans (quiet_audit (by decide) haudit)).complete
  · cases h₁
  · next parsed _ =>
      unfold onParsed at h₁
      obtain ⟨inserted, s₂, hinsert, h₂⟩ := (Txn.exec_bind_ok _).mp h₁
      rw [Txn.exec_tryAtomic] at hinsert
      split at hinsert
      · next event u hevent =>
          obtain ⟨rfl, rfl⟩ := Prod.mk.inj (Except.ok.inj hinsert)
          have hquiet := (insertCallbackEvent_beneath _ _ _ _ _ _).quiet hevent
          exact hquiet.then_complete (exec_onFirstDelivery (hquiet.unique hs) h₂)
      · split at hinsert
        · obtain ⟨rfl, rfl⟩ := Prod.mk.inj (Except.ok.inj hinsert)
          exact (exec_onDuplicate h₂).complete
        · cases hinsert

/-! ### Reconciliation -/

/-- Rows of `touched` have been updated in place, and each entry is announced exactly once. -/
structure Rounds (s t : DB) (touched : List Payment) : Prop where
  complete : Complete s t
  rows : ∃ f : Payment → Payment, (∀ row, (f row).id = row.id) ∧
    (∀ row ∈ s.payments, row ∉ touched → f row = row) ∧ t.payments = s.payments.map f

theorem Quiet.rounds {u : DB} {touched : List Payment} (h : Quiet s t) (h' : Rounds t u touched) :
    Rounds s u touched where
  complete := h.then_complete h'.complete
  rows := by
    rw [← h.payments]
    exact h'.rows

theorem Rounds.then_quiet {u : DB} {touched : List Payment} (h : Rounds s t touched)
    (h' : Quiet t u) : Rounds s u touched where
  complete := h.complete.then_quiet h'
  rows := by
    rw [h'.payments]
    exact h.rows

theorem Rounds.nil (s : DB) : Rounds s s [] where
  complete := Complete.refl s
  rows := ⟨id, fun _ => rfl, fun _ _ _ => rfl, (List.map_id _).symm⟩

theorem Rounds.unique {touched : List Payment} (h : Rounds s t touched) (hs : s.PaymentsUnique) :
    t.PaymentsUnique := by
  obtain ⟨f, hids, -, hrows⟩ := h.rows
  unfold DB.PaymentsUnique
  rw [hrows, map_key hids]
  exact hs

/-- One more payment takes its turn before the others. -/
theorem Turn.rounds {u : DB} {rest : List Payment} (hs : s.PaymentsUnique)
    (hmem : payment ∈ s.payments) (hrest : ∀ row ∈ rest, row.id ≠ payment.id)
    (h : Turn s t payment payment') (h' : Rounds t u rest) : Rounds s u (payment :: rest) := by
  obtain ⟨g, hids, hother, hrows⟩ := h'.rows
  obtain ⟨entries, hentered, hannounced⟩ := h'.complete
  have hturned : ∀ row : Payment, (if row.id = payment.id then payment' else row).id = row.id := by
    intro row
    by_cases hid : row.id = payment.id <;> simp [hid, h.id]
  have hmoved : g payment' = payment' := by
    refine hother payment' (h.mem hmem) fun hmem' => ?_
    exact hrest payment' hmem' h.id
  refine ⟨⟨(payment.entryAs payment').toList ++ entries, ?_, h.announced.trans hannounced⟩, ?_⟩
  · have htrans := entered_trans hs hturned hids h.payments hrows fun row hrow => by
      by_cases hid : row.id = payment.id
      · right
        rw [if_pos hid]
        exact hmoved
      · left
        rw [if_neg hid]
    rw [h.entered hs hmem] at htrans
    exact htrans.trans (hentered.append_left _)
  · refine ⟨fun row => g (if row.id = payment.id then payment' else row),
      fun row => (hids _).trans (hturned row), fun row hrow hrow' => ?_, ?_⟩
    · have hid : row.id ≠ payment.id := by
        intro hid
        exact hrow' (eq_of_key hs hrow hmem hid ▸ List.mem_cons_self)
      dsimp only
      rw [if_neg hid]
      refine hother row ?_ fun hmem' => hrow' (List.mem_cons_of_mem _ hmem')
      rw [h.payments]
      exact List.mem_map.mpr ⟨row, hrow, if_neg hid⟩
    · rw [hrows, h.payments, List.map_map]
      rfl

theorem saveRun_beneath (run : ReconciliationRun) : Beneath (onTrail (·.saveRun run)) :=
  Txn.keeps_modify fun _ => rfl

theorem openException_beneath (run : ReconciliationRun) (payment : Payment)
    (exceptionType : ExceptionType) (details : List (String × String)) :
    Beneath (openException run payment exceptionType details) :=
  Txn.keeps_bind (Txn.keeps_modify fun _ => rfl) fun _ => Txn.keeps_ret _

theorem exec_resolveUnknown {unknown : List Payment} {run run' : ReconciliationRun}
    (hs : s.PaymentsUnique) (hunknown : ∀ p ∈ unknown, p ∈ s.payments)
    (hnodup : (unknown.map (·.id)).Nodup)
    (h : (resolveUnknown env run unknown).exec s = .ok (run', t)) : Rounds s t unknown := by
  induction unknown generalizing run s with
  | nil =>
      obtain ⟨-, rfl⟩ := Prod.mk.inj (Except.ok.inj h)
      exact Rounds.nil _
  | cons payment rest ih =>
      obtain ⟨hfirst, hothers⟩ := List.nodup_cons.mp hnodup
      have hmem := hunknown payment List.mem_cons_self
      have hrest : ∀ row ∈ rest, row.id ≠ payment.id := by
        intro row hrow hid
        exact hfirst (List.mem_map.mpr ⟨row, hrow, hid⟩)
      unfold resolveUnknown at h
      obtain ⟨payment', s₁, hquery, h₁⟩ := (Txn.exec_bind_ok _).mp h
      have hturn := exec_queryPayment hs hmem hquery
      have hkept : ∀ row ∈ rest, row ∈ s₁.payments := by
        intro row hrow
        rw [hturn.payments]
        exact List.mem_map.mpr ⟨row, hunknown row (List.mem_cons_of_mem _ hrow),
          if_neg (hrest row hrow)⟩
      have hs₁ := hturn.unique hs
      refine hturn.rounds hs hmem hrest ?_
      dsimp only at h₁
      rw [Txn.exec_ite] at h₁
      split at h₁
      · exact ih hs₁ hkept hothers h₁
      · obtain ⟨run₁, s₂, hopen, h₂⟩ := (Txn.exec_bind_ok _).mp h₁
        have hquiet := (openException_beneath _ _ _ _).quiet hopen
        refine hquiet.rounds (ih (hquiet.unique hs₁) ?_ hothers h₂)
        rw [hquiet.payments]
        exact hkept

theorem compareWithProvider_beneath (run : ReconciliationRun) (payment : Payment)
    (outcome : ProviderOutcome) : Beneath (compareWithProvider run payment outcome) :=
  Txn.keeps_ite (openException_beneath _ _ _ _)
    (Txn.keeps_ite (openException_beneath _ _ _ _) (Txn.keeps_ret _))

theorem checkSettled_beneath (run : ReconciliationRun) (settled : List Payment) :
    Beneath (checkSettled env run settled) := by
  induction settled generalizing run with
  | nil => exact Txn.keeps_ret _
  | cons payment rest ih =>
      apply Txn.keeps_bind adapterOf_beneath
      intro adapter
      apply Txn.keeps_bind (askProvider_beneath _ _)
      intro result
      exact Txn.keeps_bind (compareWithProvider_beneath _ _ _) fun run => ih run

theorem checkSettledPayments_beneath (run : ReconciliationRun) :
    Beneath (checkSettledPayments env run) := by
  apply Txn.keeps_bind (Txn.keeps_fetch _ _)
  intro settled
  apply Txn.keeps_bind (checkSettled_beneath run settled)
  intro run
  exact Txn.keeps_bind (saveRun_beneath _) fun _ => Txn.keeps_ret _

/-- The payments of the tenant that are `UNKNOWN`. -/
def DB.unknownOf (db : DB) (tenant : ℕ) : List Payment :=
  newestFirst (db.payments.filter fun p => p.tenant = tenant && p.status = .unknown)

theorem mem_unknownOf {payment : Payment} {tenant : ℕ} : payment ∈ s.unknownOf tenant ↔
    payment ∈ s.payments ∧ payment.tenant = tenant ∧ payment.status = .unknown := by
  rw [DB.unknownOf, mem_newestFirst, List.mem_filter, Bool.and_eq_true, decide_eq_true_iff,
    decide_eq_true_iff]

theorem unknownOf_nodup {tenant : ℕ} (hs : s.PaymentsUnique) :
    ((s.unknownOf tenant).map (·.id)).Nodup :=
  nodup_newestFirst_ids (nodup_filter_ids hs _)

/-- The row that a run starts with. -/
def openedRun (env : Env) (tenant : ℕ) : ReconciliationRun :=
  { id := env.gen.runId
    tenant
    triggeredBy := env.actor
    status := .running
    completedAt := none
    totalChecked := 0
    matchedCount := 0
    exceptionCount := 0
    resolvedUnknownCount := 0 }

theorem exec_runReconciliation {tenant : ℕ} {run : ReconciliationRun} (hs : s.PaymentsUnique)
    (h : (runReconciliation env tenant).exec s = .ok (run, t)) :
    Rounds s t (s.unknownOf tenant) := by
  unfold runReconciliation at h
  obtain ⟨_, s₁, hadd, h₁⟩ := (Txn.exec_bind_ok _).mp h
  obtain ⟨run₁, s₂, hresolve, h₂⟩ := (Txn.exec_bind_ok _).mp h₁
  obtain ⟨run₂, s₃, hcheck, h₃⟩ := (Txn.exec_bind_ok _).mp h₂
  obtain ⟨_, s₄, hsave, h₄⟩ := (Txn.exec_bind_ok _).mp h₃
  obtain ⟨-, rfl⟩ := Prod.mk.inj (Except.ok.inj h₄)
  obtain ⟨-, rfl⟩ := Prod.mk.inj (Except.ok.inj hadd)
  unfold resolveUnknownPayments at hresolve
  rw [Txn.exec_bind, Txn.exec_fetch] at hresolve
  dsimp only at hresolve
  obtain ⟨run₃, s₅, hloop, h₅⟩ := (Txn.exec_bind_ok _).mp hresolve
  obtain ⟨_, s₆, hsaved, h₆⟩ := (Txn.exec_bind_ok _).mp h₅
  obtain ⟨-, rfl⟩ := Prod.mk.inj (Except.ok.inj h₆)
  have hopened : Quiet s (inTrail (·.addRun (openedRun env tenant)) s) := Quiet.of_surface rfl
  have hrounds := hopened.rounds (exec_resolveUnknown (hopened.unique hs)
    (fun p hp => (mem_unknownOf.mp hp).1) (unknownOf_nodup hs) hloop)
  have hquiet := ((saveRun_beneath _).quiet hsaved).trans
    ((checkSettledPayments_beneath _).quiet hcheck)
  exact hrounds.then_quiet (hquiet.trans ((saveRun_beneath _).quiet hsave))

end Operations

end Kusanya
