import Kusanya.Moves.Announcements
import Kusanya.Support.Keyed

/-!
# One payment at a time

A `Turn` is what an operation on one payment does to the payments and to the side records:
the row of the payment becomes the object that the operation gives back, and what is
announced is the status it has entered, if any.
-/

namespace Kusanya

open ReadCommitted Support

/-- The payments that have another status in `t` than in `s`, one with an event of its own. -/
def DB.entered (s t : DB) : List Payment :=
  t.payments.filter fun p => p.status ∈ announcedStatuses &&
    !s.payments.any fun q => q.id = p.id && q.status = p.status

/-- The primary key. -/
def DB.PaymentsUnique (db : DB) : Prop := (db.payments.map (·.id)).Nodup

/-! ## Payments that have entered a status -/

section Entered

variable {s t u : DB} {f g : Payment → Payment}

/-- The entry of a row that becomes `p`. -/
def Payment.entryAs (row p : Payment) : Option Payment :=
  if p.status ∈ announcedStatuses ∧ p.status ≠ row.status then some p else none

theorem entryAs_same (row : Payment) : row.entryAs row = none := if_neg fun h => h.2 rfl

/-- Rows that are updated in place. -/
theorem entered_map (hs : s.PaymentsUnique) (hf : ∀ row, (f row).id = row.id)
    (ht : t.payments = s.payments.map f) :
    s.entered t = s.payments.filterMap fun row => row.entryAs (f row) := by
  have hany : ∀ row ∈ s.payments,
      (s.payments.any fun q => q.id = (f row).id && q.status = (f row).status) =
        decide ((f row).status = row.status) := by
    intro row hrow
    rw [Bool.eq_iff_iff, List.any_eq_true, decide_eq_true_eq]
    constructor
    · rintro ⟨q, hq, hsame⟩
      simp only [Bool.and_eq_true, decide_eq_true_eq, hf] at hsame
      obtain rfl := eq_of_key hs hq hrow hsame.1
      exact hsame.2.symm
    · intro hstatus
      exact ⟨row, hrow, by simp [hf, hstatus]⟩
  have hrows : ∀ rows : List Payment, (∀ row ∈ rows, row ∈ s.payments) →
      (rows.map f).filter (fun p => p.status ∈ announcedStatuses &&
        !s.payments.any fun q => q.id = p.id && q.status = p.status) =
        rows.filterMap fun row => row.entryAs (f row) := by
    intro rows
    induction rows with
    | nil => exact fun _ => rfl
    | cons row rest ih =>
        intro hmem
        have hrest := ih fun r hr => hmem r (List.mem_cons_of_mem _ hr)
        rw [List.map_cons, List.filter_cons, List.filterMap_cons, hrest,
          hany row (hmem row List.mem_cons_self)]
        unfold Payment.entryAs
        by_cases hannounced : (f row).status ∈ announcedStatuses
        · by_cases hstatus : (f row).status = row.status <;> simp [hannounced, hstatus]
        · simp [hannounced]
  rw [DB.entered, ht]
  exact hrows s.payments fun _ h => h

/-- Where each row is touched at most once, the entries of two steps add up. -/
theorem entered_trans (hs : s.PaymentsUnique) (hf : ∀ row, (f row).id = row.id)
    (hg : ∀ row, (g row).id = row.id) (ht : t.payments = s.payments.map f)
    (hu : u.payments = t.payments.map g)
    (honce : ∀ row ∈ s.payments, f row = row ∨ g (f row) = f row) :
    (s.entered u).Perm (s.entered t ++ t.entered u) := by
  have hids : t.payments.map (·.id) = s.payments.map (·.id) := by
    rw [ht, List.map_map]
    exact List.map_congr_left fun row _ => hf row
  have htunique : t.PaymentsUnique := by
    unfold DB.PaymentsUnique
    rw [hids]
    exact hs
  have hboth : u.payments = s.payments.map (g ∘ f) := by rw [hu, ht, List.map_map]
  rw [entered_map hs hf ht, entered_map htunique hg hu,
    entered_map hs (fun row => (hg (f row)).trans (hf row)) hboth, ht, List.filterMap_map]
  have hrows : ∀ rows : List Payment, (∀ row ∈ rows, f row = row ∨ g (f row) = f row) →
      (rows.filterMap fun row => row.entryAs ((g ∘ f) row)).Perm
        ((rows.filterMap fun row => row.entryAs (f row)) ++
          rows.filterMap ((fun row => row.entryAs (g row)) ∘ f)) := by
    intro rows
    induction rows with
    | nil => exact fun _ => List.Perm.refl _
    | cons row rest ih =>
        intro hmem
        have hrest := ih fun r hr => hmem r (List.mem_cons_of_mem _ hr)
        simp only [List.filterMap_cons, Function.comp_apply]
        rcases hmem row List.mem_cons_self with hsame | hsame
        · rw [hsame, entryAs_same]
          cases row.entryAs (g row) with
          | none => exact hrest
          | some p => exact (hrest.cons p).trans List.perm_middle.symm
        · rw [hsame, entryAs_same]
          cases row.entryAs (f row) with
          | none => exact hrest
          | some p => exact hrest.cons p
  exact hrows s.payments honce

theorem entered_same (h : t.payments = s.payments) : s.entered t = [] := by
  rw [DB.entered, h, List.filter_eq_nil_iff]
  intro p hp hentered
  simp only [Bool.and_eq_true, Bool.not_eq_true', List.any_eq_false] at hentered
  exact hentered.2 p hp (by simp)

/-- The entries of a row that only one payment can be in. -/
theorem filterMap_single {α β : Type} {l : List α} (hl : l.Nodup) {a : α} (ha : a ∈ l)
    {h : α → Option β} (hother : ∀ x ∈ l, x ≠ a → h x = none) : l.filterMap h = (h a).toList := by
  induction l with
  | nil => cases ha
  | cons x rest ih =>
      obtain ⟨hx, hrest⟩ := List.nodup_cons.mp hl
      rcases List.mem_cons.mp ha with rfl | ha
      · have hnone : rest.filterMap h = [] := by
          rw [List.filterMap_eq_nil_iff]
          intro y hy
          exact hother y (List.mem_cons_of_mem _ hy) fun heq => hx (heq ▸ hy)
        rw [List.filterMap_cons, hnone]
        cases h a <;> rfl
      · have hne : x ≠ a := fun heq => hx (heq ▸ ha)
        rw [List.filterMap_cons, hother x List.mem_cons_self hne]
        exact ih hrest ha fun y hy => hother y (List.mem_cons_of_mem _ hy)

end Entered

/-! ## Turns -/

/-- `payment` has become `payment'`. -/
structure Turn (s t : DB) (payment payment' : Payment) : Prop where
  announced : Announced s t (payment.entryAs payment').toList
  payments : t.payments = s.payments.map fun row => if row.id = payment.id then payment' else row
  id : payment'.id = payment.id

section Turn

variable {s t u : DB} {env : Env} {payment payment' payment'' : Payment} {related : Related}

theorem Turn.unique (h : Turn s t payment payment') (hs : s.PaymentsUnique) : t.PaymentsUnique := by
  have hids : t.payments.map (·.id) = s.payments.map (·.id) := by
    rw [h.payments, List.map_map]
    refine List.map_congr_left fun row _ => ?_
    by_cases hid : row.id = payment.id <;> simp [hid, h.id]
  unfold DB.PaymentsUnique
  rw [hids]
  exact hs

theorem Turn.mem (h : Turn s t payment payment') (hmem : payment ∈ s.payments) :
    payment' ∈ t.payments := by
  rw [h.payments]
  exact List.mem_map.mpr ⟨payment, hmem, if_pos rfl⟩

theorem Turn.entered (h : Turn s t payment payment') (hs : s.PaymentsUnique)
    (hmem : payment ∈ s.payments) : s.entered t = (payment.entryAs payment').toList := by
  have hids : ∀ row : Payment, (if row.id = payment.id then payment' else row).id = row.id := by
    intro row
    by_cases hid : row.id = payment.id <;> simp [hid, h.id]
  rw [entered_map hs hids h.payments, filterMap_single (List.Nodup.of_map _ hs) hmem]
  · simp
  · intro row hrow hne
    have hid : row.id ≠ payment.id := fun hid => hne (eq_of_key hs hrow hmem hid)
    rw [if_neg hid, entryAs_same]

/-- The payment keeps its row. -/
theorem Turn.same (hs : s.PaymentsUnique) (hmem : payment ∈ s.payments)
    (hannounced : Announced s t []) (hpayments : t.payments = s.payments) :
    Turn s t payment payment where
  announced := by
    rw [entryAs_same]
    exact hannounced
  payments := by
    rw [hpayments]
    have hrow : ∀ row ∈ s.payments, (if row.id = payment.id then payment else row) = row := by
      intro row hrow
      split
      · next hid => exact (eq_of_key hs hrow hmem hid).symm
      · rfl
    exact ((List.map_congr_left hrow).trans (List.map_id _)).symm
  id := rfl

/-- The first of two turns changes no status. -/
theorem Turn.trans (h : Turn s t payment payment') (h' : Turn t u payment' payment'')
    (hstatus : payment'.status = payment.status) : Turn s u payment payment'' where
  announced := by
    have hnone : payment.entryAs payment' = none := if_neg fun hentry => hentry.2 hstatus
    have hsome : payment'.entryAs payment'' = payment.entryAs payment'' := by
      rw [Payment.entryAs, hstatus, Payment.entryAs]
    have hboth := h.announced.trans h'.announced
    rw [hnone, hsome] at hboth
    exact hboth
  payments := by
    rw [h'.payments, h.payments, List.map_map]
    refine List.map_congr_left fun row _ => ?_
    by_cases hid : row.id = payment.id <;> simp [hid, h.id]
  id := h'.id.trans h.id

/-- More happens to the side records, and nothing to the payments. -/
theorem Turn.then (h : Turn s t payment payment') (hannounced : Announced t u [])
    (hpayments : u.payments = t.payments) : Turn s u payment payment' where
  announced := by
    have hboth := h.announced.trans hannounced
    rw [List.append_nil] at hboth
    exact hboth
  payments := hpayments.trans h.payments
  id := h.id

/-- An update of the row that the object follows. -/
theorem Turn.of_update (hs : s.PaymentsUnique) (hmem : payment ∈ s.payments)
    {f : Payment → Payment} (hf : f payment = payment')
    (hid : payment'.id = payment.id) (hstatus : payment.entryAs payment' = none) :
    Turn s (inBooks (·.updatePayment payment.id f) s) payment payment' where
  announced := by
    rw [hstatus]
    exact Announced.silent rfl rfl
  payments := by
    refine List.map_congr_left fun row hrow => ?_
    by_cases hrowId : row.id = payment.id
    · rw [if_pos hrowId, if_pos hrowId, eq_of_key hs hrow hmem hrowId, hf]
    · rw [if_neg hrowId, if_neg hrowId]
  id := hid

theorem exec_paymentTransitionTo {new : PaymentStatus} {reason : String}
    (h : (payment.transitionTo env new reason).exec s = .ok (payment', t)) :
    (new ∈ payment.status.allowedTransitions ∧
        Varchar 255 (payment.moveTo env.now new reason).failureReason) ∧
      payment' = payment.moveTo env.now new reason ∧ t = inBooks (·.savePayment payment') s := by
  unfold Payment.transitionTo at h
  rw [Txn.exec_bind, exec_raiseIf] at h
  by_cases hallowed : new ∉ payment.status.allowedTransitions
  · rw [if_pos hallowed] at h
    cases h
  · rw [if_neg hallowed] at h
    obtain ⟨_, s₁, hcheck, h₁⟩ := (Txn.exec_bind_ok _).mp h
    rw [exec_checkVarchar] at hcheck
    split at hcheck
    · next hlength =>
        obtain ⟨-, rfl⟩ := Prod.mk.inj (Except.ok.inj hcheck)
        obtain ⟨rfl, rfl⟩ := Prod.mk.inj (Except.ok.inj h₁)
        exact ⟨⟨not_not.mp hallowed, hlength⟩, rfl, rfl⟩
    · cases hcheck

/-- The payments after a transition. -/
theorem savePayment_payments (hs : s.PaymentsUnique) (hmem : payment ∈ s.payments)
    (new : PaymentStatus) (reason : String) :
    (inBooks (·.savePayment (payment.moveTo env.now new reason)) s).payments =
      s.payments.map fun row =>
        if row.id = payment.id then payment.moveTo env.now new reason else row := by
  refine List.map_congr_left fun row hrow => ?_
  change (if row.id = payment.id then _ else row) = _
  by_cases hid : row.id = payment.id
  · rw [if_pos hid, if_pos hid, eq_of_key hs hrow hmem hid]
    rfl
  · rw [if_neg hid, if_neg hid]

/-- A transition and what follows it. -/
theorem Turn.of_transition (hs : s.PaymentsUnique) (hmem : payment ∈ s.payments)
    {new : PaymentStatus} {reason : String}
    (hannounced : Announced (inBooks (·.savePayment (payment.moveTo env.now new reason)) s) t
      (payment.entryAs (payment.moveTo env.now new reason)).toList)
    (hpayments : t.payments =
      (inBooks (·.savePayment (payment.moveTo env.now new reason)) s).payments) :
    Turn s t payment (payment.moveTo env.now new reason) where
  announced := by
    have hsaved : Announced s (inBooks (·.savePayment (payment.moveTo env.now new reason)) s) [] :=
      Announced.silent rfl rfl
    exact hsaved.trans hannounced
  payments := hpayments.trans (savePayment_payments hs hmem new reason)
  id := rfl

theorem moveTo_entryAs {new : PaymentStatus} {reason : String}
    (hannounced : new ∈ announcedStatuses)
    (hne : payment.status ≠ new) :
    payment.entryAs (payment.moveTo env.now new reason) =
      some (payment.moveTo env.now new reason) :=
  if_pos ⟨hannounced, Ne.symm hne⟩

theorem moveTo_not_entry {new : PaymentStatus} {reason : String}
    (hannounced : new ∉ announcedStatuses) :
    payment.entryAs (payment.moveTo env.now new reason) = none :=
  if_neg fun h => hannounced h.1

theorem audit_books {action : String} {tenant : Option ℕ} {target : Option Source}
    {after metadata : List (String × String)}
    (h : (recordAuditEvent env action tenant target after metadata).exec s = .ok ((), t)) :
    t.toBooks = s.toBooks := by
  obtain ⟨-, rfl⟩ := exec_recordAuditEvent_ok h
  rfl

/-- A transition to a status without an event, with an audit row of another name. -/
theorem Turn.of_unannounced (hs : s.PaymentsUnique) (hmem : payment ∈ s.payments)
    {new : PaymentStatus} {reason action : String} {tenant : Option ℕ} {target : Option Source}
    {after metadata : List (String × String)} (hnew : new ∉ announcedStatuses)
    (hname : action ∉ announcedStatuses.map (·.eventName))
    (hmove : (payment.transitionTo env new reason).exec s = .ok (payment', u))
    (haudit : (recordAuditEvent env action tenant target after metadata).exec u = .ok ((), t)) :
    Turn s t payment payment' := by
  obtain ⟨-, rfl, rfl⟩ := exec_paymentTransitionTo hmove
  refine Turn.of_transition hs hmem ?_ (congrArg Books.payments (audit_books haudit))
  rw [moveTo_not_entry hnew]
  exact announced_audit hname haudit

theorem toStatus?_announced {outcome : ProviderOutcome} {target : PaymentStatus}
    (h : outcome.toStatus? = some target) :
    target ∈ announcedStatuses ∧
      (target = .pending ∨ target = .successful ∨ target = .failed) := by
  cases outcome with
  | unknown => cases h
  | _ =>
      obtain rfl := Option.some.inj h
      exact ⟨by decide, by decide⟩

theorem exec_applyOutcome {outcome : ProviderOutcome} (hs : s.PaymentsUnique)
    (hmem : payment ∈ s.payments)
    (hrel : related.Valid (View.alone s.toDirectory s.toBooks) payment)
    (h : (applyOutcome env payment related outcome).exec s = .ok (payment', t)) :
    Turn s t payment payment' := by
  unfold applyOutcome at h
  split at h
  · rw [Txn.exec_ite] at h
    split at h
    · obtain ⟨moved, s₁, hmove, h₁⟩ := (Txn.exec_bind_ok _).mp h
      obtain ⟨_, s₂, haudit, h₂⟩ := (Txn.exec_bind_ok _).mp h₁
      obtain ⟨rfl, rfl⟩ := Prod.mk.inj (Except.ok.inj h₂)
      exact Turn.of_unannounced hs hmem (by decide) (by decide) hmove haudit
    · obtain ⟨rfl, rfl⟩ := Prod.mk.inj (Except.ok.inj h)
      exact Turn.same hs hmem (Announced.silent rfl rfl) rfl
  · next target htarget =>
      obtain ⟨hannounced, hstatus⟩ := toStatus?_announced htarget
      rw [Txn.exec_ite] at h
      split at h
      · obtain ⟨rfl, rfl⟩ := Prod.mk.inj (Except.ok.inj h)
        exact Turn.same hs hmem (Announced.silent rfl rfl) rfl
      · next hne =>
          obtain ⟨moved, s₁, hmove, h₁⟩ := (Txn.exec_bind_ok _).mp h
          obtain ⟨_, s₂, hentered, h₂⟩ := (Txn.exec_bind_ok _).mp h₁
          obtain ⟨rfl, rfl⟩ := Prod.mk.inj (Except.ok.inj h₂)
          obtain ⟨-, rfl, rfl⟩ := exec_paymentTransitionTo hmove
          have hmoved : related.Valid (View.alone
              (inBooks (·.savePayment (payment.moveTo env.now target "")) s).toDirectory
              (inBooks (·.savePayment (payment.moveTo env.now target "")) s).toBooks)
              (payment.moveTo env.now target "") :=
            (hrel.of_lookups (by rfl) (by rfl)).moveTo env.now target ""
          have hfollowed := exec_onEntered hstatus hmoved hentered
          refine Turn.of_transition hs hmem ?_ hfollowed.2
          rw [moveTo_entryAs hannounced hne]
          exact hfollowed.1

end Turn

end Kusanya
