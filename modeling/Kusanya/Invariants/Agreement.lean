import Kusanya.Invariants.Booked

/-!
# Payments and what their provider has on record

A provider knows a payment by its merchant reference.  What it has on record for a reference does
not change; the answer to an initiation may be lost, and a query may come before the provider knows
the reference.  A status agrees with the record when it is one that such answers lead to: a success
on record is settled here, or nobody has heard of it, and a failure on record is never anything but
`FAILED`.
-/

namespace Kusanya

open ReadCommitted

/-- The statuses that go with what the provider has on record. -/
def PaymentStatus.AgreesWith (status : PaymentStatus) : ProviderOutcome → Prop
  | .successful => status.settled = true ∨ status = .unknown
  | .failed => status = .failed
  | _ => status ≠ .initiated

/-- The payment agrees with the records.  A success that nobody has heard of has no reference of the
provider, so that no callback finds it. -/
structure Payment.AgreesWith (p : Payment) (onRecord : String → ProviderOutcome) : Prop where
  status : p.status.AgreesWith (onRecord p.merchantReference)
  unheard : onRecord p.merchantReference = .successful → p.status = .unknown →
    p.providerReference = ""

namespace PaymentStatus

variable {old new : PaymentStatus} {outcome : ProviderOutcome}

/-- A transition agrees with the record unless it takes a success on record for a failure. -/
theorem AgreesWith.transition (h : old.AgreesWith outcome)
    (hallowed : new ∈ old.allowedTransitions) (hfailed : new = .failed → outcome ≠ .successful) :
    new.AgreesWith outcome := by
  cases outcome with
  | successful =>
      have hnot : new ≠ .failed := fun hnew => hfailed hnew rfl
      rcases h with hsettled | rfl
      · left
        cases old <;> cases new <;> simp_all [settled, allowedTransitions]
      · left
        cases new <;> simp_all [settled, allowedTransitions]
  | failed =>
      rw [show old = .failed from h] at hallowed
      exact absurd hallowed List.not_mem_nil
  | pending | unknown =>
      rintro rfl
      cases old <;> simp [allowedTransitions] at hallowed

/-- What follows a success on record, other than `FAILED`, is settled. -/
theorem AgreesWith.settles (h : old.AgreesWith .successful)
    (hallowed : new ∈ old.allowedTransitions) (hnot : new ≠ .failed) : new.settled = true := by
  rcases h with hsettled | rfl
  · cases old <;> cases new <;> simp_all [settled, allowedTransitions]
  · cases new <;> simp_all [settled, allowedTransitions]

end PaymentStatus

/-! ## Rows through a list of moves -/

/-- A payment row after moves that open no payment. -/
def Payment.after (row : Payment) (ms : List Move) : Payment :=
  ms.foldl (fun row m => m.onPayment row) row

section Rows

variable {view : View} {ms ms' : List Move} {m : Move} {b : Books} {row : Payment}

@[simp] theorem Payment.after_nil (row : Payment) : row.after [] = row := rfl

@[simp] theorem Payment.after_cons (row : Payment) (m : Move) (ms : List Move) :
    row.after (m :: ms) = (m.onPayment row).after ms := rfl

theorem Payment.after_fixed (row : Payment) (ms : List Move) :
    (row.after ms).fixed = row.fixed := by
  induction ms generalizing row with
  | nil => rfl
  | cons m ms ih => exact (ih _).trans (m.onPayment_fixed row)

theorem Payment.after_id (row : Payment) (ms : List Move) : (row.after ms).id = row.id :=
  congrArg Payment.Fixed.id (row.after_fixed ms)

theorem Payment.after_merchantReference (row : Payment) (ms : List Move) :
    (row.after ms).merchantReference = row.merchantReference :=
  congrArg Payment.Fixed.merchantReference (row.after_fixed ms)

/-- Moves that are about other payments. -/
theorem Payment.after_other (h : ∀ m ∈ ms, m.onPayment row = row) : row.after ms = row := by
  induction ms with
  | nil => rfl
  | cons m ms ih =>
      obtain ⟨hm, hms⟩ := List.forall_mem_cons.mp h
      rw [Payment.after_cons, hm, ih hms]

theorem runAll_payments (h : ∀ m ∈ ms, m.opened = []) :
    (Move.runAll ms b).payments = b.payments.map (·.after ms) := by
  induction ms generalizing b with
  | nil => exact (List.map_id' _).symm
  | cons m ms ih =>
      obtain ⟨hm, hms⟩ := List.forall_mem_cons.mp h
      rw [Move.runAll_cons, ih hms, m.run_payments, hm, List.append_nil, List.map_map]
      rfl

/-- The reference of the provider is the old one, or one that a move has stored. -/
theorem Payment.after_reference (row : Payment) (ms : List Move) :
    (row.after ms).providerReference = row.providerReference ∨
      ∃ reference raw, .refer row.id reference raw ∈ ms ∧
        (row.after ms).providerReference = reference := by
  induction ms generalizing row with
  | nil => exact Or.inl rfl
  | cons m ms ih =>
      rcases ih (m.onPayment row) with hsame | ⟨reference, raw, hm, href⟩
      · have hmove : (m.onPayment row).providerReference = row.providerReference ∨
            ∃ reference raw, m = .refer row.id reference raw ∧
              (m.onPayment row).providerReference = reference := by
          cases m with
          | refer id reference raw =>
              by_cases hid : row.id = id
              · right
                refine ⟨reference, raw, by rw [hid], ?_⟩
                simp only [Move.onPayment, if_pos hid]
              · left
                simp only [Move.onPayment, if_neg hid]
          | enter | settle | undo | openBatch =>
              left
              simp only [Move.onPayment]
              split <;> rfl
          | _ => exact Or.inl rfl
        rcases hmove with hkept | ⟨reference, raw, rfl, href⟩
        · exact Or.inl (hsame.trans hkept)
        · exact Or.inr ⟨reference, raw, List.mem_cons_self, hsame.trans href⟩
      · rw [m.onPayment_id] at hm
        exact Or.inr ⟨reference, raw, List.mem_cons_of_mem _ hm, href⟩

end Rows

/-! ## Moves that keep to the records -/

/-- The payments have these merchant references, and statuses that go with the records. -/
def Books.Stands (onRecord : String → ProviderOutcome) (ref : ℕ → String) (b : Books) : Prop :=
  ∀ p ∈ b.payments, p.merchantReference = ref p.id ∧ p.status.AgreesWith (onRecord (ref p.id))

def View.Stands (onRecord : String → ProviderOutcome) (ref : ℕ → String) (view : View) : Prop :=
  ∀ what d b, view what d b → b.Stands onRecord ref

/-- No move takes a success on record for a failure. -/
def Faithful (onRecord : String → ProviderOutcome) (ref : ℕ → String) (ms : List Move) : Prop :=
  ∀ p, .enter p ∈ ms → p.status = .failed → onRecord (ref p.id) ≠ .successful

section Standing

variable {onRecord : String → ProviderOutcome} {ref : ℕ → String}
variable {view : View} {ms : List Move} {m : Move} {b : Books} {q p : Payment}

/-- The object that a transition was checked on agrees with the records. -/
theorem Enters.stands {old : Payment} (h : Enters view old p) (hview : view.Stands onRecord ref) :
    old.status.AgreesWith (onRecord (ref p.id)) ∧ p.merchantReference = ref p.id := by
  obtain ⟨what, -, d, b, hb, hold⟩ := h.holds
  obtain ⟨now, reason, hmoved⟩ := h.moved
  obtain ⟨href, hstatus⟩ := hview what d b hb old hold
  have hid : p.id = old.id := by rw [hmoved]; rfl
  have hreference : p.merchantReference = old.merchantReference := by rw [hmoved]; rfl
  rw [hid]
  exact ⟨hstatus, hreference.trans href⟩

/-- The move passed its guard on tables that stand, and takes no success for a failure. -/
structure Move.Keeps (onRecord : String → ProviderOutcome) (ref : ℕ → String) (m : Move) :
    Prop where
  guard : ∃ view : View, view.Stands onRecord ref ∧ m.Guard view
  faithful : ∀ p, m = .enter p → p.status = .failed → onRecord (ref p.id) ≠ .successful

/-- Where a move enters `FAILED`, it is an `enter`. -/
theorem Move.Keeps.not_failed (h : m.Keeps onRecord ref) (hp : m.entered = some p)
    (hfailed : p.status = .failed) : onRecord (ref p.id) ≠ .successful := by
  obtain ⟨view, -, hguard⟩ := h.guard
  cases m with
  | enter payment =>
      obtain rfl := Option.some.inj hp
      exact h.faithful _ rfl hfailed
  | settle s =>
      obtain rfl := Option.some.inj hp
      have hsettle : s.Guard view := hguard
      rw [hsettle.successful] at hfailed
      cases hfailed
  | undo env payment fee metadata =>
      obtain rfl := Option.some.inj hp
      have hundo : UndoGuard view payment fee := hguard
      rcases hundo.status with hstatus | hstatus
      · rw [hstatus] at hfailed
        cases hfailed
      · rw [hstatus] at hfailed
        cases hfailed
  | _ => cases hp

/-- What a move enters agrees with the records, and a success on record is settled by it. -/
theorem Move.Keeps.entered (h : m.Keeps onRecord ref) (hp : m.entered = some p) :
    p.status.AgreesWith (onRecord (ref p.id)) ∧
      (onRecord (ref p.id) = .successful → p.status.settled = true) := by
  obtain ⟨view, hview, hguard⟩ := h.guard
  obtain ⟨old, henters⟩ := hguard.enters hp
  obtain ⟨hold, -⟩ := henters.stands hview
  constructor
  · exact hold.transition henters.allowed (h.not_failed hp)
  · intro hsuccess
    rw [hsuccess] at hold
    exact hold.settles henters.allowed fun hfailed => h.not_failed hp hfailed hsuccess

theorem Move.Keeps.onPayment (h : m.Keeps onRecord ref)
    (hq : q.status.AgreesWith (onRecord (ref q.id))) :
    (m.onPayment q).status.AgreesWith (onRecord (ref q.id)) := by
  rw [m.onPayment_status q]
  cases hentered : m.entered with
  | none => exact hq
  | some p =>
      by_cases hid : q.id = p.id
      · simp only [if_pos hid]
        rw [hid]
        exact (h.entered hentered).1
      · simp only [if_neg hid]
        exact hq

/-- A success on record that is settled stays so. -/
theorem Move.Keeps.onPayment_settled (h : m.Keeps onRecord ref)
    (hsuccess : onRecord (ref q.id) = .successful) (hq : q.status.settled = true) :
    (m.onPayment q).status.settled = true := by
  rw [m.onPayment_status q]
  cases hentered : m.entered with
  | none => exact hq
  | some p =>
      by_cases hid : q.id = p.id
      · simp only [if_pos hid]
        rw [hid] at hsuccess
        exact (h.entered hentered).2 hsuccess
      · simp only [if_neg hid]
        exact hq

theorem Move.Keeps.run (h : m.Keeps onRecord ref) (hopens : m.opened = [])
    (hb : b.Stands onRecord ref) : (m.run b).Stands onRecord ref := by
  intro p hp
  rw [m.run_payments, hopens, List.append_nil] at hp
  obtain ⟨q, hq, rfl⟩ := List.mem_map.mp hp
  obtain ⟨href, hstatus⟩ := hb q hq
  have hreference : (m.onPayment q).merchantReference = q.merchantReference :=
    congrArg Payment.Fixed.merchantReference (m.onPayment_fixed q)
  rw [m.onPayment_id, hreference]
  exact ⟨href, h.onPayment hstatus⟩

/-- The moves of a chain keep to the records, each in its turn. -/
theorem View.Chain.keeps (h : view.Chain ms) (hview : view.Stands onRecord ref)
    (hopens : ∀ m ∈ ms, m.opened = []) (hfaithful : Faithful onRecord ref ms) :
    ∀ m ∈ ms, m.Keeps onRecord ref := by
  induction ms generalizing view with
  | nil => exact fun m hm => absurd hm List.not_mem_nil
  | cons m ms ih =>
      obtain ⟨hguard, hrest⟩ := h
      obtain ⟨hfirst, hothers⟩ := List.forall_mem_cons.mp hopens
      have hkeeps : m.Keeps onRecord ref :=
        ⟨⟨view, hview, hguard⟩, fun p hp => hfaithful p (hp ▸ List.mem_cons_self)⟩
      refine List.forall_mem_cons.mpr ⟨hkeeps, ih hrest ?_ hothers fun p hp => ?_⟩
      · rintro what d _ ⟨b, hb, rfl⟩
        exact hkeeps.run hfirst (hview what d b hb)
      · exact hfaithful p (List.mem_cons_of_mem _ hp)

theorem Payment.after_agrees (h : ∀ m ∈ ms, m.Keeps onRecord ref)
    (hq : q.status.AgreesWith (onRecord (ref q.id))) :
    (q.after ms).status.AgreesWith (onRecord (ref q.id)) := by
  induction ms generalizing q with
  | nil => exact hq
  | cons m ms ih =>
      obtain ⟨hm, hms⟩ := List.forall_mem_cons.mp h
      have hnext := ih hms (q := m.onPayment q)
      rw [m.onPayment_id] at hnext
      exact hnext (hm.onPayment hq)

theorem Payment.after_settled (h : ∀ m ∈ ms, m.Keeps onRecord ref)
    (hsuccess : onRecord (ref q.id) = .successful) (hq : q.status.settled = true) :
    (q.after ms).status.settled = true := by
  induction ms generalizing q with
  | nil => exact hq
  | cons m ms ih =>
      obtain ⟨hm, hms⟩ := List.forall_mem_cons.mp h
      refine ih hms (q := m.onPayment q) ?_ (hm.onPayment_settled hsuccess hq)
      rw [m.onPayment_id]
      exact hsuccess

/-- A success on record is settled once a move has settled it. -/
theorem Payment.after_settle (h : ∀ m ∈ ms, m.Keeps onRecord ref)
    (hsuccess : onRecord (ref q.id) = .successful) {s : Settlement} (hs : .settle s ∈ ms)
    (hid : q.id = s.payment.id) : (q.after ms).status.settled = true := by
  induction ms generalizing q with
  | nil => exact absurd hs List.not_mem_nil
  | cons m ms ih =>
      obtain ⟨hm, hms⟩ := List.forall_mem_cons.mp h
      have hnext : onRecord (ref (m.onPayment q).id) = .successful := by
        rw [m.onPayment_id]
        exact hsuccess
      rcases List.mem_cons.mp hs with rfl | hs
      · change (((Move.settle s).onPayment q).after ms).status.settled = true
        refine Payment.after_settled hms hnext ?_
        rw [Move.onPayment_status]
        simp only [Move.entered, if_pos hid]
        rw [hid] at hsuccess
        exact (hm.entered rfl).2 hsuccess
      · exact ih hms hnext hs ((m.onPayment_id q).trans hid)

/-- What a query has learned: nothing, or the reference of a payment that is settled or is being
settled, or of one that is no success on record. -/
def Learnt (onRecord : String → ProviderOutcome) (ref : ℕ → String) (b : Books)
    (ms : List Move) : Prop :=
  ∀ id reference raw, .refer id reference raw ∈ ms → onRecord (ref id) = .successful →
    reference = "" ∨ (∀ q ∈ b.payments, q.id = id → q.status.settled = true) ∨
      ∃ s, .settle s ∈ ms ∧ s.payment.id = id

/-- Moves that keep to the records keep the agreement. -/
theorem Payment.after_agreesWith (h : ∀ m ∈ ms, m.Keeps onRecord ref)
    (hlearnt : Learnt onRecord ref b ms) (hq : q ∈ b.payments)
    (href : q.merchantReference = ref q.id) (hagrees : q.AgreesWith onRecord) :
    (q.after ms).AgreesWith onRecord := by
  have hstatus := hagrees.status
  rw [href] at hstatus
  constructor
  · rw [q.after_merchantReference, href]
    exact Payment.after_agrees h hstatus
  · rw [q.after_merchantReference, href]
    intro hsuccess hunknown
    have hopen : ¬(q.after ms).status.settled = true := by
      rw [hunknown]
      exact Bool.false_ne_true
    have hqopen : ¬q.status.settled = true := fun hsettled =>
      hopen (Payment.after_settled h hsuccess hsettled)
    have hblank : q.providerReference = "" := by
      refine hagrees.unheard (by rw [href]; exact hsuccess) ?_
      rw [hsuccess] at hstatus
      exact hstatus.resolve_left hqopen
    rcases q.after_reference ms with hsame | ⟨reference, raw, hm, hstored⟩
    · exact hsame.trans hblank
    · rcases hlearnt q.id reference raw hm hsuccess with hempty | hsettled | ⟨s, hs, hid⟩
      · exact hstored.trans hempty
      · exact absurd (hsettled q hq rfl) hqopen
      · exact absurd (Payment.after_settle h hsuccess hs hid.symm) hopen

end Standing

end Kusanya
