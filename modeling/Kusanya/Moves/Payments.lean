import Kusanya.Moves.Rules

/-!
# The moves of the payment orchestrator

One lemma for each function of `Model.Payments`: whatever its reads find, its
pending writes are the moves named here, each with its guard.  Callers cite these
lemmas and never unfold the function.
-/

namespace Kusanya

open ReadCommitted

variable {κ : Call → Prop} {φ : Resource → DB → Prop} {pend : DB → DB}

/-! ## Views after own writes -/

/-- `w` leaves alone what the steps after a status look up. -/
structure KeepsLookups (w : Books → Books) : Prop where
  controlNumbers : ∀ b, (w b).controlNumbers = b.controlNumbers
  bills : ∀ b, (w b).bills = b.bills
  allocations : ∀ b, (w b).allocations = b.allocations
  receipts : ∀ b, (w b).receipts = b.receipts

theorem Loaded.of_map {view : View} {w : Books → Books} (hw : KeepsLookups w)
    {payment : Payment} {cn : ControlNumber} {bill : Option Bill}
    (h : Loaded (view.map w) payment cn bill) : Loaded view payment cn bill where
  controlNumber := by simpa [hw.controlNumbers] using h.controlNumber
  id := h.id
  unbound := h.unbound
  bound := by simpa [hw.bills] using h.bound

theorem Allocates.of_map {view : View} {w : Books → Books} (hw : KeepsLookups w)
    {payment : Payment} {bill : Option Bill} {entered : Option BillStatus}
    (h : Allocates (view.map w) payment bill entered) : Allocates view payment bill entered where
  unbound := h.unbound
  bound := by simpa [Books.amountPaid, hw.allocations] using h.bound

theorem Receipts.of_map {view : View} {w : Books → Books} (hw : KeepsLookups w)
    {payment : Payment} {receipt : Option Receipt}
    (h : Receipts (view.map w) payment receipt) : Receipts view payment receipt where
  existing := by simpa [Books.receiptOf, hw.receipts] using h.existing
  inserted := by simpa [Books.receiptClash, hw.receipts] using h.inserted

theorem Settlement.Found.of_map {view : View} {w : Books → Books} (hw : KeepsLookups w)
    {s : Settlement} (h : s.Found (view.map w)) : s.Found view where
  loaded := h.loaded.of_map hw
  allocates := h.allocates.of_map hw
  receipts := h.receipts.of_map hw

theorem keepsLookups_savePayment (payment : Payment) :
    KeepsLookups (·.savePayment payment) :=
  ⟨fun _ => rfl, fun _ => rfl, fun _ => rfl, fun _ => rfl⟩

theorem keepsLookups_postSuccess (env : Env) (payment : Payment) :
    KeepsLookups (·.postSuccess env payment) :=
  ⟨fun _ => rfl, fun _ => rfl, fun _ => rfl, fun _ => rfl⟩

/-! ## Related objects -/

/-- The cached objects of a payment are what some read found. -/
structure Related.Valid (view : View) (payment : Payment) (related : Related) : Prop where
  controlNumber : ∀ cn, related.controlNumber = some cn →
    view.Sees (fun _ b => cn ∈ b.controlNumbers) ∧ cn.id = payment.controlNumber
  bill : ∀ bill, related.bill = some bill → ∃ cn, related.controlNumber = some cn ∧
    cn.bill? = some bill.id ∧ view.SeesAt (.bill bill.id) fun _ b => bill ∈ b.bills

theorem Related.valid_empty (view : View) (payment : Payment) :
    Related.Valid view payment {} where
  controlNumber _ h := by cases h
  bill _ h := by cases h

theorem Related.Valid.map {view : View} {w : Books → Books} (hw : KeepsLookups w)
    {payment : Payment} {related : Related} (h : related.Valid view payment) :
    related.Valid (view.map w) payment where
  controlNumber := by simpa [hw.controlNumbers] using h.controlNumber
  bill := by simpa [hw.bills] using h.bill

/-- A transition keeps the control number. -/
theorem Related.Valid.moveTo {view : View} {payment : Payment} {related : Related}
    (h : related.Valid view payment) (now : Time) (new : PaymentStatus) (reason : String) :
    related.Valid view (payment.moveTo now new reason) :=
  ⟨h.controlNumber, h.bill⟩

theorem wp_controlNumberOf {Q : ControlNumber → (DB → DB) → Prop}
    {R : Error → (DB → DB) → Prop} {payment : Payment} {related : Related}
    (hrel : related.Valid (viewOf φ pend) payment) (hR : R .doesNotExist pend)
    (hQ : ∀ cn, (viewOf φ pend).Sees (fun _ b => cn ∈ b.controlNumbers) →
      cn.id = payment.controlNumber →
      (∀ bill, related.bill = some bill → cn.bill? = some bill.id) → Q cn pend) :
    (controlNumberOf payment related).wp κ φ pend Q R := by
  unfold controlNumberOf
  cases hcn : related.controlNumber with
  | some cn =>
      obtain ⟨hsees, hid⟩ := hrel.controlNumber cn hcn
      refine hQ cn hsees hid fun bill hbill => ?_
      obtain ⟨cn', hcn', hbound, -⟩ := hrel.bill bill hbill
      obtain rfl : cn = cn' := Option.some.inj (hcn.symm.trans hcn')
      exact hbound
  | none =>
      simp only [getControlNumber, wp_getRow]
      intro v hv
      refine ⟨fun cn hfound => ?_, fun _ => hR⟩
      have hmem : cn ∈ (pend v).toBooks.controlNumbers := List.mem_of_find?_eq_some hfound
      have hid : cn.id = payment.controlNumber := by simpa using List.find?_some hfound
      refine hQ cn (seesAt_viewOf (P := fun _ b => cn ∈ b.controlNumbers) hv hmem).sees hid
        fun bill hbill => ?_
      obtain ⟨cn', hcn', -⟩ := hrel.bill bill hbill
      rw [hcn] at hcn'
      cases hcn'

theorem wp_loadRelated {Q : ControlNumber × Option Bill → (DB → DB) → Prop}
    {R : Error → (DB → DB) → Prop} {payment : Payment} {related : Related}
    (hrel : related.Valid (viewOf φ pend) payment) (hR : R .doesNotExist pend)
    (hQ : ∀ cn bill, Loaded (viewOf φ pend) payment cn bill → Q (cn, bill) pend) :
    (loadRelated payment related).wp κ φ pend Q R := by
  unfold loadRelated
  rw [Txn.wp_bind]
  refine wp_controlNumberOf hrel hR fun cn hcn hcnid hcached => ?_
  rw [Txn.wp_bind]
  unfold boundBill
  split
  · next hnone =>
      exact hQ cn none ⟨hcn, hcnid, fun _ => rfl, fun id hid => by simp [hnone] at hid⟩
  · next id bill hid hbill =>
      obtain ⟨-, -, -, hsees⟩ := hrel.bill bill hbill
      have hb : id = bill.id := Option.some.inj (hid.symm.trans (hcached bill hbill))
      refine hQ cn (some bill) ⟨hcn, hcnid, fun h => by simp [h] at hid, fun id' hid' => ?_⟩
      obtain rfl : id = id' := Option.some.inj (hid.symm.trans hid')
      subst hb
      exact ⟨bill, rfl, rfl, hsees⟩
  · next id hid hnone =>
      simp only [getBill, Txn.wp_bind, wp_getRow, Txn.pure_eq_ret, Txn.wp_ret]
      intro v hv
      refine ⟨fun bill hfound => ?_, fun _ => hR⟩
      have hmem : bill ∈ (pend v).toBooks.bills := List.mem_of_find?_eq_some hfound
      have hb : bill.id = id := by simpa using List.find?_some hfound
      refine hQ cn (some bill) ⟨hcn, hcnid, fun h => by simp [h] at hid, fun id' hid' => ?_⟩
      obtain rfl : id = id' := Option.some.inj (hid.symm.trans hid')
      exact ⟨bill, rfl, hb, seesAt_viewOf (P := fun _ b => bill ∈ b.bills) hv hmem⟩

/-! ## Frames of the side effects -/

theorem customerOf_onTrail (account : ℕ) : OnTrail (customerOf account) :=
  Txn.frame_bind (getRow_onTrail _ _) fun _ => getRow_onTrail _ _

theorem accountBehind_onTrail (cn : ControlNumber) (bill : Option Bill) :
    OnTrail (accountBehind cn bill) := by
  unfold accountBehind
  split
  · exact Txn.frame_ret _
  · exact Txn.frame_ret _
  · exact Txn.frame_throw rfl

theorem dispatch_onTrail (env : Env) (payment : Payment) (cn : ControlNumber)
    (bill : Option Bill) (amount eventType : String) :
    OnTrail (dispatch env payment cn bill amount eventType) :=
  dispatchEvent_onTrail _ _ _ _

theorem notify_onTrail (env : Env) (payment : Payment) (cn : ControlNumber)
    (bill : Option Bill) (eventType : NotificationEventType) (extra : List (String × String)) :
    OnTrail (notify env payment cn bill eventType extra) :=
  Txn.frame_bind (accountBehind_onTrail _ _) fun _ =>
    Txn.frame_bind (customerOf_onTrail _) fun _ =>
      Txn.frame_bind (getRow_onTrail _ _) fun _ => sendNotification_onTrail _ _ _ _ _ _

theorem balanceText_onTrail (bill : Option Bill) : OnTrail (balanceText bill) := by
  cases bill with
  | none => exact Txn.frame_ret _
  | some bill => exact Txn.frame_bind (Txn.frame_fetch _ _) fun _ => Txn.frame_ret _

theorem notifyPaymentSuccessful_onTrail (env : Env) (payment : Payment) (cn : ControlNumber)
    (bill : Option Bill) (amount : String) (receipt : Receipt) :
    OnTrail (notifyPaymentSuccessful env payment cn bill amount receipt) :=
  Txn.frame_bind (balanceText_onTrail _) fun _ => notify_onTrail _ _ _ _ _ _

theorem remainingBalance_onTrail (bill : Option Bill) : OnTrail (remainingBalance bill) := by
  cases bill with
  | none => exact Txn.frame_ret _
  | some bill =>
      exact Txn.frame_bind (Txn.frame_fetch _ _) fun _ =>
        Txn.frame_bind (storeNumeric_onTrail _) fun _ => Txn.frame_ret _

theorem loadRelated_onTrail (payment : Payment) (related : Related) :
    OnTrail (loadRelated payment related) := by
  have hcn : OnTrail (controlNumberOf payment related) := by
    unfold controlNumberOf
    split
    · exact Txn.frame_ret _
    · exact getRow_onTrail _ _
  refine Txn.frame_bind hcn fun cn => Txn.frame_bind ?_ fun _ => Txn.frame_ret _
  unfold boundBill
  split
  · exact Txn.frame_ret _
  · exact Txn.frame_ret _
  · exact Txn.frame_bind (getRow_onTrail _ _) fun _ => Txn.frame_ret _

/-! ## A success -/

section Success

variable {R : Error → (DB → DB) → Prop} {env : Env} {payment : Payment}

theorem settledStatus_allowed {status entered : BillStatus} {balance : Money}
    (h : settledStatus status balance = some entered) : entered ∈ status.allowedTransitions := by
  unfold settledStatus at h
  split at h
  · cases h
  · next hpayable =>
      have hstatus : status = .active ∨ status = .partiallyPaid := by
        by_contra hne
        exact hpayable ⟨fun h => hne (Or.inl h), fun h => hne (Or.inr h)⟩
      split at h
      · obtain rfl := Option.some.inj h
        rcases hstatus with rfl | rfl <;> decide
      · split at h
        · next hactive =>
            obtain rfl := Option.some.inj h
            rw [hactive]
            decide
        · cases h

theorem wp_allocateToBill {Q : Option Bill → (DB → DB) → Prop} (bill : Option Bill)
    (hR : ∀ e p, R e p)
    (hQ : ∀ entered pend', Allocates (viewOf φ pend) payment bill entered →
      Writes (fun b => (b.allocate payment bill).enterBill env.now bill entered) pend pend' →
      Q (bill.map (·.after env.now entered)) pend') :
    (allocateToBill env payment bill).wp κ φ pend Q R := by
  cases bill with
  | none =>
      exact hQ none pend ⟨fun _ => rfl, fun _ h => by cases h⟩ fun s => rfl
  | some bill =>
      simp only [allocateToBill, Txn.wp_bind, wp_onBooks, Txn.wp_ite, Txn.pure_eq_ret, Txn.wp_ret]
      refine ⟨fun hnot => ?_, fun hpayable => ?_⟩
      · refine hQ none _ ⟨(fun h => by cases h), fun row hrow => ?_⟩ fun s => rfl
        obtain rfl := Option.some.inj hrow
        exact Or.inr ⟨rfl, hnot⟩
      · simp only [Bill.balance, Txn.wp_fetch]
        intro v hv
        have hbalance : ∀ x, x = settledStatus bill.status (bill.totalAmount.cents -
            ((inBooks (·.addAllocation (payment.allocationTo bill.id)) (pend v)).amountPaid
              bill.id)) →
            Allocates (viewOf φ pend) payment (some bill) x := by
          intro x hx
          refine ⟨(fun h => by cases h), fun row hrow => Or.inl ?_⟩
          obtain rfl := Option.some.inj hrow
          refine seesAt_viewOf hv ?_
          rw [hx]
          simp [inBooks, Books.amountPaid, Books.addAllocation, Payment.allocationTo]
        have hstatus : settledStatus bill.status (bill.totalAmount.cents -
            ((inBooks (·.addAllocation (payment.allocationTo bill.id)) (pend v)).amountPaid
              bill.id)) =
            if bill.totalAmount.cents - ((inBooks
              (·.addAllocation (payment.allocationTo bill.id)) (pend v)).amountPaid bill.id) ≤ 0
            then some .paid
            else if bill.status = .active then some .partiallyPaid else none := by
          rw [settledStatus, if_neg hpayable]
        refine ⟨fun hpaid => ?_, fun hpart => ⟨fun hactive => ?_, fun hrest => ?_⟩⟩
        · have hx := hstatus.trans (if_pos hpaid)
          refine wp_billTransitionTo env bill .paid (fun m _ => hR _ _) fun _ => ?_
          exact hQ (some .paid) _ (hbalance _ hx.symm) fun s => rfl
        · have hx := hstatus.trans ((if_neg hpart).trans (if_pos hactive))
          refine wp_billTransitionTo env bill .partiallyPaid (fun m _ => hR _ _) fun _ => ?_
          exact hQ (some .partiallyPaid) _ (hbalance _ hx.symm) fun s => rfl
        · have hx := hstatus.trans ((if_neg hpart).trans (if_neg hrest))
          exact hQ none _ (hbalance _ hx.symm) fun s => rfl

theorem wp_generateReceipt {Q : Receipt → (DB → DB) → Prop} (cn : ControlNumber)
    (bill : Option Bill) (hR : ∀ e p, R e p)
    (hQ : ∀ row receipt pend', Receipts (viewOf φ pend) payment receipt →
      Writes (·.issueReceipt receipt) pend pend' → Q row pend') :
    (generateReceipt env payment cn bill).wp κ φ pend Q R := by
  unfold generateReceipt
  rw [Txn.wp_bind, Txn.wp_fetch]
  intro v hv
  split
  · next existing hfound =>
      refine hQ existing none pend ⟨fun _ => ?_, fun _ h => by cases h⟩ fun s => rfl
      exact (seesAt_viewOf (P := fun _ b => (b.receiptOf payment.id).isSome) hv
        (Option.isSome_iff_exists.mpr ⟨existing, hfound⟩)).sees
  · simp only [Txn.wp_bind, wp_raiseIf]
    refine ⟨fun _ => hR _ _, fun _ => ?_⟩
    refine (accountBehind_onTrail _ _).wp (fun account p₁ h₁ => ?_) fun e p _ _ => hR e p
    refine (customerOf_onTrail _).wp (fun customer p₂ h₂ => ?_) fun e p _ _ => hR e p
    refine (getRow_onTrail _ _).wp (fun tenant p₃ h₃ => ?_) fun e p _ _ => hR e p
    refine (getRow_onTrail _ _).wp (fun provider p₄ h₄ => ?_) fun e p _ _ => hR e p
    refine (remainingBalance_onTrail _).wp (fun remaining p₅ h₅ => ?_) fun e p _ _ => hR e p
    have hcore : ∀ s, (p₅ s).core = (pend s).core := fun s =>
      (h₅ s).trans <| (h₄ s).trans <| (h₃ s).trans <| (h₂ s).trans (h₁ s)
    simp only [insertReceipt, Txn.wp_bind, wp_checkVarchar, Txn.wp_acquire, Txn.wp_fetch,
      wp_raiseIf, wp_onBooks, Txn.pure_eq_ret, Txn.wp_ret]
    generalize hnew : newReceipt env payment cn bill customer tenant provider remaining = new
    refine ⟨fun _ u hu => ⟨fun _ => hR _ _, fun hclash => ?_⟩, fun _ => hR _ _⟩
    refine hQ new (some new) _ ⟨(fun h => by cases h), fun row hrow => ?_⟩
      (Writes.after_core hcore (writes_inBooks (·.addReceipt new) p₅))
    · obtain rfl := Option.some.inj hrow
      subst hnew
      refine ⟨rfl, rfl, rfl, rfl, ?_⟩
      rw [← viewOf_core hcore]
      exact (seesAt_viewOf (P := fun _ b => b.receiptClash _ = false) hu
        (Bool.eq_false_iff.mpr hclash)).sees

@[simp] theorem enterBill_receipts (books : Books) (now : Time) (bill : Option Bill)
    (entered : Option BillStatus) :
    (books.enterBill now bill entered).receipts = books.receipts := by
  unfold Books.enterBill
  split <;> rfl

@[simp] theorem allocate_receipts (books : Books) (bill : Option Bill) :
    (books.allocate payment bill).receipts = books.receipts := by
  cases bill <;> rfl

/-- The receipts are not touched between the posting and the receipt. -/
theorem Receipts.of_allocated {view : View} {bill : Option Bill} {entered : Option BillStatus}
    {receipt : Option Receipt}
    (h : Receipts (view.map fun b =>
      (b.allocate payment bill).enterBill env.now bill entered) payment receipt) :
    Receipts view payment receipt where
  existing := by simpa [Books.receiptOf] using h.existing
  inserted := by simpa [Books.receiptClash] using h.inserted

/-- Everything that follows the transition to `SUCCESSFUL`. -/
theorem wp_onSuccessful {Q : Unit → (DB → DB) → Prop} {related : Related}
    (hrel : related.Valid (viewOf φ pend) payment) (hR : ∀ e p, R e p)
    (hQ : ∀ (s : Settlement) pend', s.env = env → s.payment = payment →
      s.Found (viewOf φ pend) → Writes s.follow pend pend' → Q () pend') :
    (onSuccessful env payment related).wp κ φ pend Q R := by
  unfold onSuccessful
  simp only [Txn.wp_bind]
  refine (recordAuditEvent_onTrail _ _ _ _ _ _).wp (fun _ p₁ h₁ => ?_) fun e p _ _ => hR e p
  simp only [postSettlementLedgerEntries, recordPaymentSuccessful, Txn.wp_bind, Txn.pure_eq_ret,
    Txn.wp_ret]
  refine wp_postEntry (hR _ _) (wp_postEntry (hR _ _) (wp_postEntry (hR _ _)
    (wp_recordEvent (hR _ _) ?_)))
  set p₂ : DB → DB := inBooks _ ∘ inBooks _ ∘ inBooks _ ∘ inBooks _ ∘ p₁
  have h₂ : Writes (·.postSuccess env payment) pend p₂ :=
    Writes.after_core h₁ (writes_inBooks (·.postSuccess env payment) p₁)
  have hkeeps := keepsLookups_postSuccess env payment
  refine wp_loadRelated (h₂.view ▸ hrel.map hkeeps) (hR _ _) fun cn bill hloaded => ?_
  refine wp_allocateToBill bill hR fun entered p₃ hallocates h₃ => ?_
  refine wp_generateReceipt cn _ hR fun row receipt p₄ hreceipts h₄ => ?_
  refine (notifyPaymentSuccessful_onTrail _ _ _ _ _ _).wp (fun _ p₅ h₅ => ?_) fun e p _ _ => hR e p
  refine (dispatch_onTrail _ _ _ _ _ _).wp (fun _ p₆ h₆ => ?_) fun e p _ _ => hR e p
  refine hQ { env, payment, controlNumber := cn, bill, entered, receipt } p₆ rfl rfl ?_ ?_
  · rw [h₃.view] at hreceipts
    rw [h₂.view] at hloaded hallocates hreceipts
    exact
      { loaded := hloaded.of_map hkeeps
        allocates := hallocates.of_map hkeeps
        receipts := hreceipts.of_allocated.of_map hkeeps }
  · exact (((h₂.trans h₃).trans h₄).then_core h₅).then_core h₆

end Success

/-! ## Outcomes -/

/-- The moves of `_apply_outcome` and the payment object afterwards. -/
inductive Applied (env : Env) (payment : Payment) (outcome : ProviderOutcome) :
    List Move → Payment → Prop
  | inconclusive (h : outcome.toStatus? = none)
      (hs : payment.status ≠ .initiated ∧ payment.status ≠ .pending) :
      Applied env payment outcome [] payment
  | repeated (h : outcome.toStatus? = some payment.status) : Applied env payment outcome [] payment
  | unknown (h : outcome.toStatus? = none)
      (hs : payment.status = .initiated ∨ payment.status = .pending) :
      Applied env payment outcome [.enter (payment.moveTo env.now .unknown "")]
        (payment.moveTo env.now .unknown "")
  | pending (h : outcome = .pending) :
      Applied env payment outcome [.enter (payment.moveTo env.now .pending "")]
        (payment.moveTo env.now .pending "")
  | failed (h : outcome = .failed) :
      Applied env payment outcome
        [.enter (payment.moveTo env.now .failed ""),
         .note ((payment.moveTo env.now .failed "").event env .paymentFailed .zero none [])]
        (payment.moveTo env.now .failed "")
  | successful (h : outcome = .successful) (s : Settlement) (henv : s.env = env)
      (hpayment : s.payment = payment.moveTo env.now .successful "") :
      Applied env payment outcome [.settle s] s.payment

section Outcomes

variable {R : Error → (DB → DB) → Prop} {env : Env} {payment : Payment} {related : Related}

/-- A status that books no money, entered after the check of `transition_to`. -/
theorem effect_enter {new : PaymentStatus} {reason : String}
    (hheld : (viewOf φ pend).Holds payment)
    (hallowed : new ∈ payment.status.allowedTransitions)
    (hreason : Varchar 255 (payment.moveTo env.now new reason).failureReason)
    (hnew : new = .pending ∨ new = .failed ∨ new = .unknown) :
    Effect φ pend [.enter (payment.moveTo env.now new reason)]
      (inBooks (·.savePayment (payment.moveTo env.now new reason)) ∘ pend) :=
  Effect.single ⟨⟨payment, hheld, hallowed, ⟨env.now, reason, rfl⟩, hreason⟩, hnew⟩
    (writes_inBooks _ _)

/-- A zero revenue event about a payment. -/
theorem effect_note (env : Env) (payment : Payment) {eventType : RevenueEventType}
    (h : eventType = .controlNumberReused ∨ eventType = .paymentFailed ∨
      eventType = .paymentDuplicate) :
    Effect φ pend [.note (payment.event env eventType .zero none [])]
      (inBooks (·.record (payment.event env eventType .zero none [])) ∘ pend) :=
  Effect.single ⟨rfl, rfl, h⟩ (writes_inBooks _ _)

theorem wp_onFailed {Q : Unit → (DB → DB) → Prop} (hR : ∀ e p, R e p)
    (hQ : ∀ pend', Effect φ pend [.note (payment.event env .paymentFailed .zero none [])] pend' →
      Q () pend') :
    (onFailed env payment related).wp κ φ pend Q R := by
  unfold onFailed
  simp only [Txn.wp_bind]
  refine (recordAuditEvent_onTrail _ _ _ _ _ _).wp (fun _ p₁ h₁ => ?_) fun e p _ _ => hR e p
  refine wp_recordEvent (hR _ _) ?_
  have hnote := (Effect.of_core (φ := φ) h₁).trans
    (effect_note env payment (Or.inr (Or.inl rfl)))
  refine (loadRelated_onTrail _ _).wp (fun cnbill p₂ h₂ => ?_) fun e p _ _ => hR e p
  refine (notify_onTrail _ _ _ _ _ _).wp (fun _ p₃ h₃ => ?_) fun e p _ _ => hR e p
  refine (dispatch_onTrail _ _ _ _ _ _).wp (fun _ p₄ h₄ => ?_) fun e p _ _ => hR e p
  exact hQ p₄ (((hnote.then_core h₂).then_core h₃).then_core h₄)

theorem onPending_onTrail : OnTrail (onPending env payment related) :=
  Txn.frame_bind (recordAuditEvent_onTrail _ _ _ _ _ _) fun _ =>
    Txn.frame_bind (loadRelated_onTrail _ _) fun _ =>
      Txn.frame_bind (notify_onTrail _ _ _ _ _ _) fun _ => dispatch_onTrail _ _ _ _ _ _

/-- What `_apply_outcome` does to the money tables. -/
theorem wp_applyOutcome {Q : Payment → (DB → DB) → Prop} {outcome : ProviderOutcome}
    (hheld : (viewOf φ pend).Holds payment) (hrel : related.Valid (viewOf φ pend) payment)
    (hR : ∀ e p, R e p)
    (hQ : ∀ ms result pend', Applied env payment outcome ms result → Effect φ pend ms pend' →
      Q result pend') :
    (applyOutcome env payment related outcome).wp κ φ pend Q R := by
  unfold applyOutcome
  cases htarget : outcome.toStatus? with
  | none =>
      simp only [Txn.wp_ite, Txn.wp_bind, wp_paymentTransitionTo, Txn.pure_eq_ret, Txn.wp_ret]
      refine ⟨fun hstatus =>
        ⟨fun _ => hR _ _, fun hallowed => ⟨fun hreason => ?_, fun _ => hR _ _⟩⟩,
        fun hstatus => ?_⟩
      · have henter := effect_enter hheld hallowed hreason (Or.inr (Or.inr rfl))
        refine (recordAuditEvent_onTrail _ _ _ _ _ _).wp (fun _ p₁ h₁ => ?_) fun e p _ _ => hR e p
        exact hQ _ _ p₁ (.unknown htarget hstatus) (henter.then_core h₁)
      · exact hQ _ _ _ (.inconclusive htarget (not_or.mp hstatus)) Effect.refl
  | some target =>
      simp only [Txn.wp_ite, Txn.wp_bind, wp_paymentTransitionTo, Txn.pure_eq_ret, Txn.wp_ret]
      refine ⟨fun hsame => ?_, fun _ => ⟨fun _ => hR _ _, fun hallowed =>
        ⟨fun hreason => ?_, fun _ => hR _ _⟩⟩⟩
      · exact hQ _ _ _ (.repeated (hsame ▸ htarget)) Effect.refl
      · cases outcome with
        | unknown => cases htarget
        | successful =>
            obtain rfl := Option.some.inj htarget
            have hsave := writes_inBooks
              (·.savePayment (payment.moveTo env.now .successful "")) pend
            have hkeeps := keepsLookups_savePayment (payment.moveTo env.now .successful "")
            simp only [onEntered]
            refine wp_onSuccessful (hsave.view ▸ (hrel.map hkeeps).moveTo _ _ _) hR
              fun s pend' henv hpayment hfound hwrites => ?_
            rw [hsave.view] at hfound
            rw [← hpayment]
            refine hQ [.settle s] s.payment pend' (.successful rfl s henv hpayment)
              (Effect.single ⟨hfound.of_map hkeeps, ⟨payment, ?_⟩, by rw [hpayment]; rfl⟩ ?_)
            · rw [hpayment]
              exact ⟨hheld, hallowed, ⟨env.now, "", rfl⟩, hreason⟩
            · have hrun := hsave.trans hwrites
              rw [← hpayment] at hrun
              exact hrun
        | failed =>
            obtain rfl := Option.some.inj htarget
            simp only [onEntered]
            refine wp_onFailed hR fun pend' hnote => ?_
            exact hQ _ _ pend' (.failed rfl)
              ((effect_enter hheld hallowed hreason (Or.inr (Or.inl rfl))).trans hnote)
        | pending =>
            obtain rfl := Option.some.inj htarget
            simp only [onEntered]
            refine onPending_onTrail.wp (fun _ p₁ h₁ => ?_) fun e p _ _ => hR e p
            exact hQ _ _ p₁ (.pending rfl)
              ((effect_enter hheld hallowed hreason (Or.inl rfl)).then_core h₁)

end Outcomes

end Kusanya
