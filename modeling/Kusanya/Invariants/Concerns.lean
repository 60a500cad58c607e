import Kusanya.Invariants.Acts
import Kusanya.Moves.Tables

/-!
# What the moves of a request are about

Every move of a request is about a row that the request found or inserted, and about one tenant:
the tenant in whose name it runs, or for a provider's callback the tenant of the payment that was
called back.
-/

namespace Kusanya

open ReadCommitted

/-- The tenant in whose name a request runs.  A provider calls back in nobody's name, the platform
completes batches of any tenant, and the periodic task expires the numbers of all of them. -/
def Action.tenant? : Action → Option ℕ
  | billCreate input | billListCreate input => some input.tenant
  | billCancel tenant _ | billRequestControlNumber tenant _
  | accountRequestControlNumber tenant _ _ | controlNumberCancel tenant _ | payBill tenant _ _ _ _ _
  | paymentListCreate tenant _ _ _ _ _ _ _ | paymentQuery tenant _ | paymentRefund tenant _ _
  | paymentReverse tenant _ | triggerRun tenant | generateBatch tenant _ _ _
  | changeFeeRefundPolicy tenant _ | changeDefaultCurrency tenant _ => some tenant
  | expireOverdue tenant => tenant
  | providerCallback .. | markCompleted .. => none

/-- The move is about the payment with these columns. -/
def Move.About (fixed : Payment.Fixed) : Move → Prop
  | openPayment payment | enter payment | undo _ payment _ _ => payment.fixed = fixed
  | settle s => s.payment.fixed = fixed
  | refer id _ _ => id = fixed.id
  | note event => event.source = .payment fixed.id ∧ event.tenant = fixed.tenant
  | _ => False

/-- A move of the list `ms` is about rows that the request knows, and they are the tenant's. -/
inductive Move.Concerns (view : View) (ms : List Move) (tenant : ℕ) : Move → Prop
  | billOpened {items : List BillItem} {bill : Bill} {now : Time}
      (opens : OpensFor tenant items bill) : Concerns view ms tenant (.openBill items bill now)
  | billCancelled {bill : Bill} (owned : bill.tenant = tenant) :
      Concerns view ms tenant (.cancelBill bill)
  | issued {env : Env} {cn : ControlNumber} {currency : String} (owned : cn.tenant = tenant) :
      Concerns view ms tenant (.issue env cn currency)
  | reused {env : Env} {cn : ControlNumber} {currency : String}
      (found : view.Sees fun _ b => cn ∈ b.controlNumbers)
      (owned : (view.Sees fun d b => cn.owner.Exists tenant d b) ∨
        ∃ m ∈ ms, ∃ bill ∈ m.openedBills, cn.owner = .bill bill.id ∧ bill.tenant = tenant) :
      Concerns view ms tenant (.note (cn.event env currency .controlNumberReused .zero none))
  | edited {f : ControlNumber → ControlNumber}
      (owned : ∀ row, f row ≠ row → ∃ cn, (view.Sees fun _ b => cn ∈ b.controlNumbers) ∧
        cn.id = row.id ∧ cn.tenant = tenant) :
      Concerns view ms tenant (.editControlNumbers f)
  | payment {p : Payment} {m : Move} (known : view.Holds p ∨ ∃ m' ∈ ms, p ∈ m'.opened)
      (owned : p.tenant = tenant) (about : m.About p.fixed) : Concerns view ms tenant m
  | calledBack {row : PaymentCallbackEvent} : Concerns view ms tenant (.addCallback row)
  | calledBackFor {id : ℕ} {f : PaymentCallbackEvent → PaymentCallbackEvent} :
      Concerns view ms tenant (.editCallback id f)
  | batched {batch : SettlementBatch} {claimed : List Payment} (owned : batch.tenant = tenant) :
      Concerns view ms tenant (.openBatch batch claimed)
  | completed {id : ℕ} {f : SettlementBatch → SettlementBatch} :
      Concerns view ms tenant (.editBatch id f)

section Concerns

variable {view : View} {env : Env} {payment after : Payment} {ms ms' : List Move} {tenant : ℕ}

/-! ## Payments -/

theorem Applied.about {outcome : ProviderOutcome} (h : Applied env payment outcome ms after) :
    ∀ m ∈ ms, m.About payment.fixed := by
  have hmoved : ∀ (now : Time) (status : PaymentStatus) (reason : String),
      (payment.moveTo now status reason).fixed = payment.fixed := fun _ _ _ => rfl
  cases h with
  | inconclusive | repeated => exact fun m hm => absurd hm List.not_mem_nil
  | unknown | pending =>
      intro m hm
      rw [List.mem_singleton.mp hm]
      exact hmoved _ _ _
  | failed =>
      refine List.forall_mem_cons.mpr ⟨hmoved _ _ _, fun m hm => ?_⟩
      rw [List.mem_singleton.mp hm]
      exact ⟨rfl, rfl⟩
  | successful _ s _ hpayment =>
      intro m hm
      rw [List.mem_singleton.mp hm]
      change s.payment.fixed = payment.fixed
      rw [hpayment]
      exact hmoved _ _ _

theorem Queried.about {result : ProviderResult} (h : Queried env payment result ms after) :
    ∀ m ∈ ms, m.About payment.fixed := by
  obtain ⟨hlearned, happlied⟩ := h
  cases hlearned with
  | known => exact happlied.about
  | learned =>
      refine List.forall_mem_append.mpr ⟨fun m hm => ?_, happlied.about⟩
      rw [List.mem_singleton.mp hm]
      exact Eq.refl payment.id

theorem Undone.about {status : PaymentStatus} (h : Undone env payment status ms after) :
    ∀ m ∈ ms, m.About payment.fixed := by
  cases h with
  | kept => exact fun m hm => absurd hm List.not_mem_nil
  | undone =>
      intro m hm
      rw [List.mem_singleton.mp hm]
      exact Eq.refl payment.fixed

theorem Initiated.about {input : InitiateInput} {adapter : Adapter}
    (h : Initiated env input adapter ms after) :
    ∃ p : Payment, p.tenant = input.tenant ∧ (∃ m ∈ ms, p ∈ m.opened) ∧
      ∀ m ∈ ms, m.About p.fixed := by
  have hopened : ∀ (p : Payment) (rest : List Move),
      ∃ m ∈ Move.openPayment p :: rest, p ∈ m.opened := fun p rest =>
    ⟨.openPayment p, List.mem_cons_self, List.mem_singleton.mpr rfl⟩
  cases h with
  | @timedOut p _ _ hpayment =>
      refine ⟨p, by rw [hpayment]; rfl, hopened p _, List.forall_mem_cons.mpr ⟨rfl, fun m hm => ?_⟩⟩
      rw [List.mem_singleton.mp hm]
      exact Eq.refl p.fixed
  | @refused p _ _ _ hpayment =>
      refine ⟨p, by rw [hpayment]; rfl, hopened p _, List.forall_mem_cons.mpr ⟨rfl,
        List.forall_mem_cons.mpr ⟨rfl, fun m hm => ?_⟩⟩⟩
      rw [List.mem_singleton.mp hm]
      exact ⟨rfl, rfl⟩
  | @answered p _ _ _ _ hpayment _ happlied =>
      exact ⟨p, by rw [hpayment]; rfl, hopened p _, List.forall_mem_cons.mpr ⟨rfl,
        List.forall_mem_cons.mpr ⟨rfl, happlied.about⟩⟩⟩

/-- The moves of a list that are all about one payment. -/
theorem concerns_of_about {p : Payment} (known : view.Holds p ∨ ∃ m ∈ ms, p ∈ m.opened)
    (htenant : p.tenant = tenant) (h : ∀ m ∈ ms, m.About p.fixed) :
    ∀ m ∈ ms, m.Concerns view ms tenant :=
  fun m hm => .payment known htenant (h m hm)

theorem StartsPayment.concerns {amount : Amount} {metadata : List (String × String)}
    (h : StartsPayment view env tenant amount metadata ms) :
    ∀ m ∈ ms, m.Concerns view ms tenant := by
  rcases h with rfl | ⟨input, adapter, after, rfl, -, -, -, -, -, hinitiated⟩
  · exact fun m hm => absurd hm List.not_mem_nil
  · obtain ⟨p, htenant, hopened, habout⟩ := hinitiated.about
    exact concerns_of_about (Or.inr hopened) htenant habout

/-- A reconciliation run looks at each payment by itself. -/
theorem Reconciled.concerns {payments : List Payment} (h : Reconciled view env payments ms')
    (hheld : ∀ p ∈ payments, view.Holds p ∧ p.tenant = tenant) :
    ∀ m ∈ ms', m.Concerns view ms tenant := by
  induction h with
  | nil => exact fun m hm => absurd hm List.not_mem_nil
  | cons _ _ queried _ ih =>
      obtain ⟨⟨hfirst, htenant⟩, hothers⟩ := List.forall_mem_cons.mp hheld
      refine List.forall_mem_append.mpr ⟨fun m hm => ?_, ih hothers⟩
      exact .payment (Or.inl hfirst) htenant (queried.about m hm)

/-- A callback is about the payment that it matches. -/
theorem Delivered.concerns (h : Delivered view env ms) :
    ∃ tenant, ∀ m ∈ ms, m.Concerns view ms tenant := by
  have hrow : ∀ (tenant : ℕ) (row : PaymentCallbackEvent) (m : Move), m ∈ [Move.addCallback row] →
      m.Concerns view ms tenant := by
    intro tenant row m hm
    rw [List.mem_singleton.mp hm]
    exact .calledBack
  cases h with
  | refused => exact ⟨0, hrow 0 _⟩
  | unmatched =>
      refine ⟨0, List.forall_mem_cons.mpr ⟨.calledBack, fun m hm => ?_⟩⟩
      rw [List.mem_singleton.mp hm]
      exact .calledBackFor
  | repeated hrepeated =>
      cases hrepeated with
      | orphan => exact ⟨0, hrow 0 _⟩
      | @noted row p held =>
          refine ⟨p.tenant, List.forall_mem_cons.mpr ⟨.calledBack, fun m hm => ?_⟩⟩
          rw [List.mem_singleton.mp hm]
          exact .payment (Or.inl held) rfl ⟨rfl, rfl⟩
  | @matched row p after outcome ms' held applied =>
      refine ⟨p.tenant, List.forall_mem_cons.mpr ⟨.calledBack, List.forall_mem_cons.mpr
        ⟨.calledBackFor, fun m hm => ?_⟩⟩⟩
      exact .payment (Or.inl held) rfl (applied.about m hm)

/-! ## Control numbers -/

theorem Numbered.concerns {owner : Owner} (h : Numbered view env tenant owner ms')
    (howned : (view.Sees fun d b => owner.Exists tenant d b) ∨
      ∃ m ∈ ms, ∃ bill ∈ m.openedBills, owner = .bill bill.id ∧ bill.tenant = tenant) :
    ∀ m ∈ ms', m.Concerns view ms tenant := by
  cases h with
  | kept => exact fun m hm => absurd hm List.not_mem_nil
  | reused found howner =>
      intro m hm
      rw [List.mem_singleton.mp hm]
      refine .reused found ?_
      rw [howner]
      exact howned
  | created howner htenant =>
      intro m hm
      rw [List.mem_singleton.mp hm]
      exact .issued htenant

/-- A write that leaves the control numbers alone changes nothing for the lookup. -/
theorem Numbered.of_map {w : Books → Books} {owner : Owner}
    (hw : ∀ b, (w b).controlNumbers = b.controlNumbers)
    (h : Numbered (view.map w) env tenant owner ms) : Numbered view env tenant owner ms := by
  cases h with
  | kept => exact .kept
  | reused found howner =>
      rw [View.sees_map] at found
      refine .reused (found.mono fun _ b hb => ?_) howner
      rw [← hw]
      exact hb
  | created howner htenant => exact .created howner htenant

/-! ## Requests -/

/-- Every move of a request is about rows that it knows, and about one tenant. -/
theorem Action.Acts.concerns {action : Action} (h : action.Acts view env ms)
    (hall : action ≠ .expireOverdue none) :
    ∃ tenant, (∀ named, action.tenant? = some named → tenant = named) ∧
      ∀ m ∈ ms, m.Concerns view ms tenant := by
  have hnamed : ∀ tenant, action.tenant? = some tenant →
      (∀ m ∈ ms, m.Concerns view ms tenant) →
      ∃ tenant, (∀ named, action.tenant? = some named → tenant = named) ∧
        ∀ m ∈ ms, m.Concerns view ms tenant :=
    fun tenant htenant hms => ⟨tenant, fun _ hnamed => Option.some.inj (htenant ▸ hnamed), hms⟩
  have hnil : ∀ tenant, ms = [] → ∀ m ∈ ms, m.Concerns view ms tenant := by
    rintro tenant rfl m hm
    cases hm
  have hnobody : action.tenant? = none → ∀ tenant, (∀ m ∈ ms, m.Concerns view ms tenant) →
      ∃ tenant, (∀ named, action.tenant? = some named → tenant = named) ∧
        ∀ m ∈ ms, m.Concerns view ms tenant := by
    intro hnone tenant hms
    refine ⟨tenant, fun named hnamed => ?_, hms⟩
    rw [hnone] at hnamed
    cases hnamed
  have hone : ∀ {tenant : ℕ} {m : Move}, m.Concerns view ms tenant → ms = [m] →
      ∀ m ∈ ms, m.Concerns view ms tenant := by
    intro tenant m hm hms m' hm'
    rw [hms] at hm'
    rw [List.mem_singleton.mp hm']
    exact hm
  cases action with
  | billCreate input =>
      refine hnamed input.tenant rfl ?_
      rcases h with h | ⟨items, bill, ms', hopens, hnumbered, rfl⟩
      · exact hnil _ h
      · refine List.forall_mem_cons.mpr ⟨.billOpened hopens, ?_⟩
        have hnumbered : Numbered view env input.tenant (.bill bill.id) ms' :=
          hnumbered.of_map (w := (Move.openBill items bill env.now).run) fun _ => rfl
        refine hnumbered.concerns (Or.inr ?_)
        exact ⟨_, List.mem_cons_self, _, List.mem_singleton.mpr rfl, rfl, hopens.bill⟩
  | billListCreate input =>
      refine hnamed input.tenant rfl ?_
      rcases h with h | ⟨items, bill, hopens, h⟩
      · exact hnil _ h
      · exact hone (.billOpened hopens) h
  | billCancel tenant pk =>
      refine hnamed tenant rfl ?_
      rcases h with h | ⟨bill, -, htenant, -, h⟩
      · exact hnil _ h
      · exact hone (m := .cancelBill (bill.moveTo env.now .cancelled)) (.billCancelled htenant) h
  | billRequestControlNumber tenant pk =>
      exact hnamed tenant rfl (h.2.concerns (Or.inl h.1))
  | accountRequestControlNumber tenant pk expiresAt =>
      exact hnamed tenant rfl (h.2.concerns (Or.inl h.1))
  | controlNumberCancel tenant pk =>
      obtain ⟨cn, -, htenant, hsees, h⟩ := h
      refine hnamed tenant rfl (hone (.edited fun row hrow => ⟨cn, hsees, ?_, htenant⟩) h)
      by_contra hid
      exact hrow (if_neg fun heq => hid heq.symm)
  | expireOverdue tenant =>
      cases tenant with
      | none => exact absurd rfl hall
      | some tenant =>
          obtain ⟨locked, hlocked, h⟩ := h
          refine hnamed tenant rfl (hone (.edited fun row hrow => ?_) h)
          have hany : locked.any (·.id = row.id) = true := by
            by_contra hnot
            exact hrow (if_neg hnot)
          obtain ⟨cn, hcn, hid⟩ := List.any_eq_true.mp hany
          obtain ⟨hoverdue, hsees⟩ := hlocked cn hcn
          refine ⟨cn, hsees, of_decide_eq_true hid, ?_⟩
          simp only [ControlNumber.overdue, Option.all_some, Bool.and_eq_true,
            decide_eq_true_eq] at hoverdue
          exact hoverdue.2.symm
  | payBill tenant => exact hnamed tenant rfl (StartsPayment.concerns h)
  | paymentListCreate tenant => exact hnamed tenant rfl (StartsPayment.concerns h)
  | paymentQuery tenant pk =>
      obtain ⟨p, _, _, _, hheld, -, htenant, -, -, hqueried⟩ := h
      exact hnamed tenant rfl (concerns_of_about (Or.inl hheld) htenant hqueried.about)
  | paymentRefund tenant pk amount =>
      refine hnamed tenant rfl ?_
      rcases h with h | ⟨p, after, hheld, -, htenant, hundone⟩
      · exact hnil _ h
      · exact concerns_of_about (Or.inl hheld) htenant hundone.about
  | paymentReverse tenant pk =>
      refine hnamed tenant rfl ?_
      rcases h with h | ⟨p, after, hheld, -, htenant, hundone⟩
      · exact hnil _ h
      · exact concerns_of_about (Or.inl hheld) htenant hundone.about
  | providerCallback code inbound =>
      rcases h with h | hdelivered
      · exact hnobody rfl 0 (hnil 0 h)
      · obtain ⟨tenant, hms⟩ := hdelivered.concerns
        exact hnobody rfl tenant hms
  | triggerRun tenant =>
      obtain ⟨payments, hheld, -, hreconciled⟩ := h
      exact hnamed tenant rfl
        (hreconciled.concerns fun p hp => ⟨(hheld p hp).1, (hheld p hp).2.1⟩)
  | generateBatch tenant =>
      obtain ⟨batch, claimed, htenant, h⟩ := h
      exact hnamed tenant rfl (hone (.batched htenant) h)
  | markCompleted pk reference =>
      exact hnobody rfl 0 (hone .completed h)
  | changeFeeRefundPolicy | changeDefaultCurrency => cases h

end Concerns

end Kusanya
