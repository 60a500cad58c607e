import Kusanya.Invariants.Runs
import Kusanya.Support.Keyed

/-!
# What is booked for a payment

A payment is settled when it is or was `SUCCESSFUL`.  The rows that a success
writes mirror the settled payments: as multisets, the `PAYMENT_RECEIVED` entries,
the `INSTITUTION_ENTITLEMENT` entries, the fees, the success events and the
allocations are what the settled payments make of them, one each.

The step lemmas ask only that the move be `Lawful` for the tables it is applied
to, so that they serve requests processed one at a time and interleaved ones.
-/

namespace Kusanya

open ReadCommitted

namespace PaymentStatus

/-- `SUCCESSFUL` now or earlier. -/
def settled (s : PaymentStatus) : Bool :=
  s ∈ [successful, reversed, refunded]

/-- Refunded or reversed. -/
def undone (s : PaymentStatus) : Bool :=
  s ∈ [reversed, refunded]

theorem not_settled_of_allows_successful {s : PaymentStatus}
    (h : successful ∈ s.allowedTransitions) : s.settled = false := by
  cases s <;> first | rfl | simp [allowedTransitions] at h

theorem eq_successful_of_allows_undone {s t : PaymentStatus} (ht : t.undone = true)
    (h : t ∈ s.allowedTransitions) : s = successful := by
  cases s <;> cases t <;> simp_all [allowedTransitions, undone]

theorem not_settled_of_allows {s t : PaymentStatus} (ht : t.settled = false)
    (h : t ∈ s.allowedTransitions) : s.settled = false := by
  cases s <;> cases t <;> simp_all [allowedTransitions, settled]

theorem settled_of_undone {s : PaymentStatus} (h : s.undone = true) : s.settled = true := by
  cases s <;> simp_all [settled, undone]

theorem undone_of_not_settled {s : PaymentStatus} (h : s.settled = false) : s.undone = false := by
  cases s <;> simp_all [settled, undone]

theorem allowed_of_undone {s : PaymentStatus} (h : s.undone = true) :
    s.allowedTransitions = [] := by
  cases s <;> simp_all [allowedTransitions, undone]

end PaymentStatus

/-- The event types of a compensation. -/
def RevenueEventType.ofUndo (t : RevenueEventType) : Bool :=
  t ∈ [paymentReversed, paymentRefunded]

/-! ## Lawful moves -/

/-- `new` may be written over `old`: the table of the source has the step, or the
same status that books no money is written again. -/
def PaymentStatus.Admits (old new : PaymentStatus) : Prop :=
  new ∈ old.allowedTransitions ∨ new = old ∧ new.settled = false

instance (old new : PaymentStatus) : Decidable (old.Admits new) := by
  unfold PaymentStatus.Admits
  infer_instance

/-- The move enters a status that the row admits, and opens a payment under a new key. -/
structure Move.Lawful (b : Books) (m : Move) : Prop where
  entered : ∀ p, m.entered = some p → ∃ old ∈ b.payments, p.fixed = old.fixed ∧
    old.status.Admits p.status
  opened : ∀ p ∈ m.opened, p.status = .initiated ∧ ∀ row ∈ b.payments, row.id ≠ p.id
  enters : ∀ p, m = .enter p → p.status.settled = false
  settles : ∀ s, m = .settle s → s.payment.status = .successful
  undoes : ∀ env p fee metadata, m = .undo env p fee metadata → p.status.undone = true
  notes : ∀ e, m = .note e → e.eventType ≠ .paymentSuccessful ∧ e.eventType.ofUndo = false

theorem Enters.found {d : Directory} {b : Books} {old new : Payment}
    (h : Enters (View.alone d b) old new) :
    old ∈ b.payments ∧ new.fixed = old.fixed ∧ new.status ∈ old.status.allowedTransitions := by
  obtain ⟨hholds, hallowed, ⟨now, reason, hmoved⟩, -⟩ := h
  refine ⟨(View.holds_alone d b old).mp hholds, ?_, hallowed⟩
  rw [hmoved]
  rfl

/-- Every move that saves a status passed the check of `transition_to`. -/
theorem Move.Guard.enters {view : View} {m : Move} {p : Payment} (hm : m.Guard view)
    (hp : m.entered = some p) : ∃ old, Enters view old p := by
  cases m with
  | enter payment =>
      obtain rfl := Option.some.inj hp
      exact hm.1
  | settle s =>
      obtain rfl := Option.some.inj hp
      have hguard : s.Guard view := hm
      exact hguard.enters
  | undo env payment fee metadata =>
      obtain rfl := Option.some.inj hp
      have hguard : UndoGuard view payment fee := hm
      obtain ⟨old, henters, -⟩ := hguard.enters
      exact ⟨old, henters⟩
  | _ => cases hp

/-- A move is lawful for tables that have the row behind the object it saves. -/
theorem Move.Guard.lawful_of {view : View} {b : Books} {m : Move} (h : m.Guard view)
    (hentered : ∀ old p, m.entered = some p → Enters view old p →
      ∃ row ∈ b.payments, p.fixed = row.fixed ∧ row.status.Admits p.status)
    (hopened : ∀ p ∈ m.opened, ∀ row ∈ b.payments, row.id ≠ p.id) : m.Lawful b where
  entered := by
    intro p hp
    obtain ⟨old, henters⟩ := h.enters hp
    exact hentered old p hp henters
  opened := by
    intro p hp
    refine ⟨?_, hopened p hp⟩
    cases m with
    | openPayment payment =>
        obtain rfl := List.mem_singleton.mp hp
        exact h.1
    | _ => cases hp
  enters := by
    rintro p rfl
    obtain ⟨-, hstatus⟩ := h
    rcases hstatus with hstatus | hstatus | hstatus <;> rw [hstatus] <;> rfl
  settles := by
    rintro s rfl
    exact h.successful
  undoes := by
    rintro env p fee metadata rfl
    rcases h.status with hstatus | hstatus <;> rw [hstatus] <;> rfl
  notes := by
    rintro e rfl
    obtain ⟨-, -, htype⟩ := h
    rcases htype with htype | htype | htype <;> rw [htype] <;> decide

/-- The guard of a move is checked on the tables themselves when a request runs alone. -/
theorem Move.Guard.lawful {d : Directory} {b : Books} {m : Move}
    (h : m.Guard (View.alone d b)) : m.Lawful b := by
  refine h.lawful_of (fun old p _ henters => ?_) fun p hp row hrow hid => ?_
  · obtain ⟨hold, hfixed, hallowed⟩ := henters.found
    exact ⟨old, hold, hfixed, Or.inl hallowed⟩
  · cases m with
    | openPayment payment =>
        obtain rfl := List.mem_singleton.mp hp
        obtain ⟨-, -, -, -, hclash, -⟩ := h
        rw [View.sees_alone] at hclash
        have hany := List.any_eq_false.mp hclash row hrow
        simp [hid] at hany
    | _ => cases hp

/-- Each move of a list is lawful when its turn comes. -/
def Move.LawfulAll : Books → List Move → Prop
  | _, [] => True
  | b, m :: ms => m.Lawful b ∧ LawfulAll (m.run b) ms

/-- The moves of a request that runs alone are lawful. -/
theorem View.Chain.lawfulAll {d : Directory} {b : Books} {ms : List Move}
    (h : (View.alone d b).Chain ms) : Move.LawfulAll b ms := by
  induction ms generalizing b with
  | nil => trivial
  | cons m ms ih =>
      obtain ⟨hguard, hrest⟩ := h
      rw [View.map_alone] at hrest
      exact ⟨hguard.lawful, ih hrest⟩

/-! ## Primary keys -/

/-- The primary keys of bills and control numbers. -/
structure Keyed (b : Books) : Prop where
  bills : (b.bills.map (·.id)).Nodup
  controlNumbers : (b.controlNumbers.map (·.id)).Nodup

theorem keyed_empty : Keyed .empty :=
  ⟨List.nodup_nil, List.nodup_nil⟩

theorem Move.Lawful.payments_nodup {b : Books} {m : Move} (hm : m.Lawful b)
    (h : (b.payments.map (·.id)).Nodup) : ((m.run b).payments.map (·.id)).Nodup := by
  rw [Move.run_payments]
  refine Support.nodup_map_append h m.onPayment_id ?_ fun p hp => (hm.opened p hp).2
  cases m <;> simp [Move.opened]

theorem Keyed.run {d : Directory} {b : Books} {m : Move} (h : Keyed b)
    (hm : m.Guard (View.alone d b)) : Keyed (m.run b) where
  bills := by
    rw [Move.run_bills]
    refine Support.nodup_map_append h.bills m.onBill_id ?_ fun bill hbill row hrow hid => ?_
    · cases m <;> simp [Move.openedBills]
    · cases m with
      | openBill items new now =>
          obtain rfl := List.mem_singleton.mp hbill
          obtain ⟨-, -, hclash, -⟩ := hm
          rw [View.sees_alone] at hclash
          have hany := List.any_eq_false.mp hclash row hrow
          have hnew : row.id = new.id := hid
          simp [hnew] at hany
      | _ => cases hbill
  controlNumbers := by
    rw [Move.run_controlNumbers]
    refine Support.nodup_map_append h.controlNumbers
      (fun row => (Move.onControlNumber_same hm row).1) ?_
      fun cn hcn row hrow hid => ?_
    · cases m <;> simp [Move.issued]
    · cases m with
      | issue env new currency =>
          obtain rfl := List.mem_singleton.mp hcn
          obtain ⟨hclash, -⟩ := hm
          rw [View.sees_alone] at hclash
          have hany := List.any_eq_false.mp hclash row hrow
          simp [hid] at hany
      | _ => cases hcn

section Rows

variable {b : Books}

theorem payment?_eq_some (hkeys : (b.payments.map (·.id)).Nodup) {p : Payment}
    (hp : p ∈ b.payments) : b.payment? p.id = some p :=
  Support.find?_key hkeys hp

theorem payment?_mem {id : ℕ} {p : Payment} (h : b.payment? id = some p) :
    p ∈ b.payments ∧ p.id = id :=
  ⟨List.mem_of_find?_eq_some h, by simpa using List.find?_some h⟩

theorem payment?_none {id : ℕ} (h : b.payment? id = none) : ∀ p ∈ b.payments, p.id ≠ id := by
  intro p hp hid
  simpa [hid] using List.find?_eq_none.mp h p hp

end Rows

/-! ## Settled and undone payments -/

/-- The payments whose status is in a class, with what never changes about them. -/
def Books.inClass (b : Books) (c : PaymentStatus → Bool) : List Payment.Fixed :=
  (b.payments.filter fun p => c p.status).map Payment.fixed

/-- The payments that are or were `SUCCESSFUL`. -/
def Books.settled (b : Books) : List Payment.Fixed := b.inClass PaymentStatus.settled

/-- The payments that were refunded or reversed. -/
def Books.undone (b : Books) : List Payment.Fixed := b.inClass PaymentStatus.undone

section Classes

variable {b : Books} {m : Move} {c : PaymentStatus → Bool}

theorem opened_outside (hm : m.Lawful b) (hc : c .initiated = false) :
    (m.opened.filter fun p => c p.status) = [] := by
  refine List.filter_eq_nil_iff.mpr fun p hp => ?_
  rw [(hm.opened p hp).1, hc]
  exact Bool.false_ne_true

/-- No status enters or leaves the class. -/
theorem inClass_same (hm : m.Lawful b) (hkeys : (b.payments.map (·.id)).Nodup)
    (hc : c .initiated = false)
    (hstay : ∀ p, m.entered = some p → ∀ old : PaymentStatus, old.Admits p.status →
      c p.status = c old) : (m.run b).inClass c = b.inClass c := by
  unfold Books.inClass
  rw [Move.run_payments, List.filter_append, opened_outside hm hc, List.append_nil]
  refine Support.select_map_same (fun row hrow => ?_) fun row _ _ => m.onPayment_fixed row
  rw [m.onPayment_status row]
  cases hentered : m.entered with
  | none => rfl
  | some p =>
      obtain ⟨old, hold, hfixed, hadmits⟩ := hm.entered p hentered
      dsimp only
      split
      · next hid =>
          obtain rfl : row = old := Support.eq_of_key hkeys hrow hold
            (hid.trans (congrArg Payment.Fixed.id hfixed))
          exact hstay p hentered row.status hadmits
      · rfl

/-- One payment enters the class. -/
theorem inClass_entered (hm : m.Lawful b) (hkeys : (b.payments.map (·.id)).Nodup)
    (hc : c .initiated = false) {p : Payment} (hp : m.entered = some p)
    (hin : c p.status = true)
    (hout : ∀ old : PaymentStatus, old.Admits p.status → c old = false) :
    ((m.run b).inClass c).Perm (p.fixed :: b.inClass c) := by
  obtain ⟨old, hold, hfixed, hadmits⟩ := hm.entered p hp
  have hid : p.id = old.id := congrArg Payment.Fixed.id hfixed
  have hstatus : ∀ row, (m.onPayment row).status =
      if row.id = p.id then p.status else row.status := by
    intro row
    rw [m.onPayment_status row, hp]
  unfold Books.inClass
  rw [Move.run_payments, List.filter_append, opened_outside hm hc, List.append_nil]
  have hperm : (((b.payments.map m.onPayment).filter fun p => c p.status).map Payment.fixed).Perm
      ((m.onPayment old).fixed :: (b.payments.filter fun p => c p.status).map Payment.fixed) :=
    Support.select_map_enter hkeys hold (hout _ hadmits) ?_ (fun row _ hne => ?_)
      fun row _ _ _ => m.onPayment_fixed row
  · rw [m.onPayment_fixed, ← hfixed] at hperm
    exact hperm
  · rw [hstatus, if_pos hid.symm, hin]
  · rw [hstatus, if_neg fun h => hne (h.trans hid)]

theorem settled_same (hm : m.Lawful b) (hkeys : (b.payments.map (·.id)).Nodup)
    (hnot : ∀ s, m ≠ .settle s) : (m.run b).settled = b.settled := by
  refine inClass_same hm hkeys rfl fun p hp old hadmits => ?_
  rcases hadmits with hallowed | ⟨hsame, -⟩
  · cases m with
    | enter payment =>
        obtain rfl := Option.some.inj hp
        rw [hm.enters _ rfl, PaymentStatus.not_settled_of_allows (hm.enters _ rfl) hallowed]
    | settle s => exact absurd rfl (hnot s)
    | undo env payment fee metadata =>
        obtain rfl := Option.some.inj hp
        have hundone := hm.undoes _ _ _ _ rfl
        rw [PaymentStatus.settled_of_undone hundone,
          PaymentStatus.eq_successful_of_allows_undone hundone hallowed]
        rfl
    | _ => cases hp
  · rw [hsame]

theorem settled_settle {s : Settlement} (hm : (Move.settle s).Lawful b)
    (hkeys : (b.payments.map (·.id)).Nodup) :
    ((Move.settle s).run b).settled.Perm (s.payment.fixed :: b.settled) := by
  have hsuccess := hm.settles s rfl
  refine inClass_entered hm hkeys rfl rfl (by rw [hsuccess]; rfl) fun old hadmits => ?_
  rw [hsuccess] at hadmits
  rcases hadmits with hallowed | ⟨-, hnot⟩
  · exact PaymentStatus.not_settled_of_allows_successful hallowed
  · cases hnot

theorem undone_same (hm : m.Lawful b) (hkeys : (b.payments.map (·.id)).Nodup)
    (hnot : ∀ env p fee metadata, m ≠ .undo env p fee metadata) :
    (m.run b).undone = b.undone := by
  refine inClass_same hm hkeys rfl fun p hp old hadmits => ?_
  have hp' : p.status.undone = false := by
    cases m with
    | enter payment =>
        obtain rfl := Option.some.inj hp
        exact PaymentStatus.undone_of_not_settled (hm.enters _ rfl)
    | settle s =>
        obtain rfl := Option.some.inj hp
        rw [hm.settles s rfl]
        rfl
    | undo env payment fee metadata => exact absurd rfl (hnot _ _ _ _)
    | _ => cases hp
  rcases hadmits with hallowed | ⟨hsame, -⟩
  · rw [hp']
    cases hold : old.undone with
    | false => rfl
    | true => rw [PaymentStatus.allowed_of_undone hold] at hallowed; cases hallowed
  · rw [hsame]

theorem undone_undo {env : Env} {p : Payment} {fee : Option RevenueEvent}
    {metadata : List (String × String)} (hm : (Move.undo env p fee metadata).Lawful b)
    (hkeys : (b.payments.map (·.id)).Nodup) :
    ((Move.undo env p fee metadata).run b).undone.Perm (p.fixed :: b.undone) := by
  have hundone := hm.undoes _ _ _ _ rfl
  refine inClass_entered hm hkeys rfl rfl hundone fun old hadmits => ?_
  rcases hadmits with hallowed | ⟨-, hnot⟩
  · rw [PaymentStatus.eq_successful_of_allows_undone hundone hallowed]
    rfl
  · rw [PaymentStatus.settled_of_undone hundone] at hnot
    cases hnot

/-- A payment is in a class when its row is. -/
theorem mem_inClass {p : Payment} (hp : p ∈ b.payments) (hc : c p.status = true) :
    p.fixed ∈ b.inClass c :=
  List.mem_map_of_mem (List.mem_filter.mpr ⟨hp, hc⟩)

end Classes

/-! ## The rows of a success and of a compensation -/

/-- A ledger row without the request that it came with. -/
def LedgerEntry.plain (e : LedgerEntry) : LedgerEntry := { e with correlationId := [] }

/-- A revenue event without the request that it came with. -/
def RevenueEvent.plain (e : RevenueEvent) : RevenueEvent :=
  { e with
    correlationId := []
    createdAt := 0
    ledgerEntry := e.ledgerEntry.map LedgerEntry.plain }

namespace Payment.Fixed

variable (p : Payment.Fixed)

def entry (entryType : LedgerEntryType) (account : LedgerAccount) (amount : Numeric) :
    LedgerEntry :=
  { tenant := p.tenant
    entryType, account, amount
    currency := p.currency
    reference := p.merchantReference
    correlationId := []
    source := some (.payment p.id)
    metadata := []
    relatedEntry := none }

def received : LedgerEntry := p.entry .paymentReceived .customer p.amount.toNumeric

def entitlement : LedgerEntry := p.entry .institutionEntitlement .institution p.amount.toNumeric

def fee : LedgerEntry := p.entry .platformPaymentFee .platform paymentSuccessFee

/-- The ledger rows of a success. -/
def bookings : List LedgerEntry := [p.received, p.entitlement, p.fee]

/-- The revenue event of a success. -/
def success : RevenueEvent :=
  { tenant := p.tenant
    eventType := .paymentSuccessful
    amount := paymentSuccessFee
    currency := p.currency
    source := .payment p.id
    ledgerEntry := some p.fee
    correlationId := []
    metadata := []
    createdAt := 0 }

end Payment.Fixed

/-- The entry types that only a success posts. -/
def LedgerEntryType.ofSuccess (t : LedgerEntryType) : Bool :=
  t ∈ [paymentReceived, institutionEntitlement, platformPaymentFee]

/-- What successes and compensations have booked, against the payments. -/
structure Booked (b : Books) : Prop where
  keyed : (b.payments.map (·.id)).Nodup
  settlements : ((b.ledger.filter (·.entryType.ofSuccess)).map LedgerEntry.plain).Perm
    (b.settled.flatMap Payment.Fixed.bookings)
  successes : ((b.revenue.filter (·.eventType = .paymentSuccessful)).map RevenueEvent.plain).Perm
    (b.settled.map Payment.Fixed.success)
  compensations : ((b.revenue.filter (·.eventType.ofUndo)).map (·.source)).Perm
    (b.undone.map fun p => .payment p.id)
  allocated : List.Subperm (b.allocations.map (·.payment)) (b.settled.map (·.id))

theorem booked_empty : Booked .empty where
  keyed := List.nodup_nil
  settlements := List.Perm.nil
  successes := List.Perm.nil
  compensations := List.Perm.nil
  allocated := List.Subperm.refl _

section Steps

variable {b : Books} {m : Move}

/-- A move other than a settlement posts nothing that belongs to a success. -/
theorem postings_ofSuccess (hnot : ∀ s, m ≠ .settle s) :
    m.postings.filter (·.entryType.ofSuccess) = [] := by
  cases m with
  | settle s => exact absurd rfl (hnot s)
  | undo env p fee metadata =>
      refine List.filter_eq_nil_iff.mpr fun e he => ?_
      obtain ⟨event, -, htaken⟩ := Option.bind_eq_some_iff.mp (Option.mem_toList.mp he)
      obtain ⟨original, -, rfl⟩ := Option.map_eq_some_iff.mp htaken
      cases p.status <;> exact Bool.false_ne_true
  | _ => rfl

theorem events_successful (hm : m.Lawful b) (hnot : ∀ s, m ≠ .settle s) :
    m.events.filter (·.eventType = .paymentSuccessful) = [] := by
  cases m with
  | settle s => exact absurd rfl (hnot s)
  | note e => simp [Move.events, (hm.notes e rfl).1]
  | undo env p fee metadata => cases hstatus : p.status <;>
      simp [Move.events, Payment.event, PaymentStatus.compensation, hstatus]
  | issue env cn currency => rfl
  | _ => rfl

theorem events_ofUndo (hm : m.Lawful b)
    (hnot : ∀ env p fee metadata, m ≠ .undo env p fee metadata) :
    m.events.filter (·.eventType.ofUndo) = [] := by
  cases m with
  | note e => simp [Move.events, (hm.notes e rfl).2]
  | undo env p fee metadata => exact absurd rfl (hnot _ _ _ _)
  | settle s => rfl
  | issue env cn currency => rfl
  | _ => rfl

theorem events_undo (env : Env) (p : Payment) (fee : Option RevenueEvent)
    (metadata : List (String × String)) :
    ((Move.undo env p fee metadata).events.filter (·.eventType.ofUndo)).map (·.source) =
      [.payment p.id] := by
  cases hstatus : p.status <;>
    simp [Move.events, Payment.event, PaymentStatus.compensation, RevenueEventType.ofUndo, hstatus]

theorem allocations_other (hnot : ∀ s, m ≠ .settle s) : m.allocations = [] := by
  cases m with
  | settle s => exact absurd rfl (hnot s)
  | _ => rfl

/-- A settlement allocates its payment at most once. -/
theorem allocations_settle (s : Settlement) :
    List.Subperm ((Move.settle s).allocations.map (·.payment)) [s.payment.id] := by
  have hlist : (Move.settle s).allocations =
      (s.bill.map fun bill => s.payment.allocationTo bill.id).toList := rfl
  rw [hlist]
  cases s.bill with
  | none => exact List.nil_subperm
  | some bill => exact List.Subperm.refl _

/-- What has been booked stays in step with the payments under every lawful move. -/
theorem Booked.run (h : Booked b) (hm : m.Lawful b) : Booked (m.run b) := by
  have hkeyed := hm.payments_nodup h.keyed
  have hundone : ((m.run b).revenue.filter (·.eventType.ofUndo)).map (·.source) |>.Perm
      ((m.run b).undone.map fun p => .payment p.id) := by
    rw [Move.run_revenue, List.filter_append, List.map_append]
    by_cases hundo : ∃ env p fee metadata, m = .undo env p fee metadata
    · obtain ⟨env, p, fee, metadata, rfl⟩ := hundo
      have hperm := (undone_undo hm h.keyed).map fun p : Payment.Fixed => Source.payment p.id
      rw [events_undo]
      exact (List.perm_append_singleton _ _).trans ((h.compensations.cons _).trans hperm.symm)
    · have hnot : ∀ env p fee metadata, m ≠ .undo env p fee metadata := fun env p fee metadata hm =>
        hundo ⟨env, p, fee, metadata, hm⟩
      rw [events_ofUndo hm hnot, undone_same hm h.keyed hnot]
      simpa using h.compensations
  by_cases hsettle : ∃ s, m = .settle s
  · obtain ⟨s, rfl⟩ := hsettle
    have hperm := settled_settle hm h.keyed
    refine ⟨hkeyed, ?_, ?_, hundone, ?_⟩
    · rw [Move.run_ledger, List.filter_append, List.map_append]
      exact List.perm_append_comm.trans
        ((h.settlements.append_left s.payment.fixed.bookings).trans (hperm.flatMap_right _).symm)
    · rw [Move.run_revenue, List.filter_append, List.map_append]
      exact (List.perm_append_singleton s.payment.fixed.success _).trans
        ((h.successes.cons _).trans (hperm.map _).symm)
    · rw [Move.run_allocations, List.map_append]
      have hsub : List.Subperm (b.allocations.map (·.payment) ++
          (Move.settle s).allocations.map (·.payment)) (b.settled.map (·.id) ++ [s.payment.id]) :=
        (List.subperm_append_right _ |>.mpr h.allocated).trans
          (List.subperm_append_left _ |>.mpr (allocations_settle s))
      exact hsub.trans ((List.perm_append_singleton _ _).trans (hperm.map (·.id)).symm).subperm
  · have hnot : ∀ s, m ≠ .settle s := fun s hm => hsettle ⟨s, hm⟩
    have hsame := settled_same hm h.keyed hnot
    refine ⟨hkeyed, ?_, ?_, hundone, ?_⟩
    · rw [Move.run_ledger, List.filter_append, postings_ofSuccess hnot, hsame]
      simpa using h.settlements
    · rw [Move.run_revenue, List.filter_append, events_successful hm hnot, hsame]
      simpa using h.successes
    · rw [Move.run_allocations, allocations_other hnot, hsame]
      simpa using h.allocated

/-- Lawful moves keep what has been booked in step. -/
theorem Booked.runAll {ms : List Move} (h : Booked b) (hms : Move.LawfulAll b ms) :
    Booked (Move.runAll ms b) := by
  induction ms generalizing b with
  | nil => exact h
  | cons m ms ih => exact ih (h.run hms.1) hms.2

end Steps

/-! ## One booking for each settled payment -/

section Settled

variable {b : Books}

theorem settled_ids_nodup (h : Booked b) : (b.settled.map (·.id)).Nodup := by
  have hids : b.settled.map (·.id) = (b.payments.filter (·.status.settled)).map (·.id) := by
    rw [Books.settled, Books.inClass, List.map_map]
    rfl
  rw [hids]
  exact h.keyed.sublist (List.filter_sublist.map _)

/-- Selecting one type of ledger entry selects one booking of each settled payment. -/
theorem entries_of_type (h : Booked b) {entryType : LedgerEntryType}
    {booking : Payment.Fixed → LedgerEntry} (hsuccess : entryType.ofSuccess = true)
    (hbooking : ∀ x : Payment.Fixed, x.bookings.filter (·.entryType = entryType) = [booking x]) :
    ((b.ledger.filter (·.entryType = entryType)).map LedgerEntry.plain).Perm
      (b.settled.map booking) := by
  have hfilter := h.settlements.filter fun e => decide (e.entryType = entryType)
  have hleft : ((b.ledger.filter (·.entryType.ofSuccess)).map LedgerEntry.plain).filter
      (fun e => decide (e.entryType = entryType)) =
      (b.ledger.filter (·.entryType = entryType)).map LedgerEntry.plain := by
    rw [List.filter_map, List.filter_filter]
    refine congrArg _ (List.filter_congr fun e _ => ?_)
    have hplain : e.plain.entryType = e.entryType := rfl
    simp only [Function.comp, hplain]
    by_cases htype : e.entryType = entryType <;> simp [htype, hsuccess]
  have hright : (b.settled.flatMap Payment.Fixed.bookings).filter
      (fun e => decide (e.entryType = entryType)) = b.settled.map booking := by
    rw [List.filter_flatMap, List.map_eq_flatMap]
    exact List.flatMap_congr fun x _ => hbooking x
  rw [hleft, hright] at hfilter
  exact hfilter

theorem received_entries (h : Booked b) :
    ((b.ledger.filter (·.entryType = .paymentReceived)).map LedgerEntry.plain).Perm
      (b.settled.map Payment.Fixed.received) :=
  entries_of_type h rfl fun _ => rfl

theorem entitlement_entries (h : Booked b) :
    ((b.ledger.filter (·.entryType = .institutionEntitlement)).map LedgerEntry.plain).Perm
      (b.settled.map Payment.Fixed.entitlement) :=
  entries_of_type h rfl fun _ => rfl

theorem fee_entries (h : Booked b) :
    ((b.ledger.filter (·.entryType = .platformPaymentFee)).map LedgerEntry.plain).Perm
      (b.settled.map Payment.Fixed.fee) :=
  entries_of_type h rfl fun _ => rfl

end Settled

end Kusanya
