import Kusanya.Invariants.Numbers
import Kusanya.Invariants.Runs

/-!
# The moves of each request, with the rows that they rest on

`Action.Moves` says of a request on bills, control numbers or batches only that its moves are
clerical, and of a repeated callback not which payment it notes.  `Action.Acts` says what each
request does and what it found on the way: which bill is opened and for whom, which control number
is issued or noted as reused, whose duplicate a callback is.
-/

namespace Kusanya

open ReadCommitted

variable {φ : Resource → DB → Prop} {pend : DB → DB} {env : Env}

/-- What a request writes whatever the tables hold is told by empty tables. -/
def DB.blank : DB :=
  { toDirectory := ⟨[], [], [], [], [], []⟩
    toBooks := .empty
    toTrail := ⟨[], [], [], [], [], []⟩ }

/-! ## Items -/

/-- Every row that was added to the bill items belongs to the tenant. -/
def AddsItems (tenant : ℕ) (pend pend' : DB → DB) : Prop :=
  ∀ s, ∀ item ∈ (pend' s).billItems, item ∈ (pend s).billItems ∨ item.tenant = tenant

theorem AddsItems.of_same {tenant : ℕ} {pend' : DB → DB}
    (h : ∀ s, (pend' s).billItems = (pend s).billItems) : AddsItems tenant pend pend' := by
  intro s item hitem
  rw [h s] at hitem
  exact Or.inl hitem

theorem AddsItems.of_core {tenant : ℕ} {pend' : DB → DB}
    (h : ∀ s, (pend' s).core = (pend s).core) : AddsItems tenant pend pend' :=
  .of_same fun s => congrArg (fun core : Directory × Books => core.2.billItems) (h s)

theorem AddsItems.trans {tenant : ℕ} {pend' pend'' : DB → DB} (h : AddsItems tenant pend pend')
    (h' : AddsItems tenant pend' pend'') : AddsItems tenant pend pend'' := by
  intro s item hitem
  rcases h' s item hitem with hitem | htenant
  · exact h s item hitem
  · exact Or.inr htenant

/-- The rows of `bulk_create` belong to the tenant of the bill. -/
theorem items_tenant {tenant bill : ℕ} {items : List ItemInput} {rows : List BillItem}
    (h : items.mapM (·.row? tenant bill) = some rows) : ∀ row ∈ rows, row.tenant = tenant := by
  intro row hrow
  obtain ⟨item, -, hstored⟩ := mem_of_mapM h hrow
  exact (row?_owned hstored).1

theorem wp_createBill_items {input : BillInput} {k : ℕ} :
    (createBill env input k).wp (fun _ => True) φ pend
      (fun _ pend' => AddsItems input.tenant pend pend') fun _ _ => True := by
  simp only [createBill, Txn.wp_bind]
  refine wp_insertBill (fun _ _ => trivial) fun p₁ _ h₁ => ?_
  have hinserted : AddsItems input.tenant pend p₁ := .of_same fun s =>
    congrArg (fun core : Directory × Books => core.2.billItems) (h₁ s)
  unfold createItems
  split
  · trivial
  · next rows hrows =>
      simp only [wp_onBooks, Bill.recalculateTotal, Txn.wp_bind, Txn.wp_fetch, wp_storeNumeric,
        Txn.wp_acquire, Txn.pure_eq_ret, Txn.wp_ret]
      intro v hv
      refine ⟨fun total _ => ?_, fun _ => trivial⟩
      refine (recordAuditEvent_onTrail _ _ _ _ _ _).wp (fun _ p₂ h₂ => ?_) fun _ _ _ _ => trivial
      refine (dispatchBillEvent_onTrail _ _ _ _).wp (fun _ p₃ h₃ => ?_) fun _ _ _ _ => trivial
      refine (notifyBillCreated_onTrail _ _).wp (fun _ p₄ h₄ => ?_) fun _ _ _ _ => trivial
      refine hinserted.trans
        (AddsItems.trans ?_ (.of_core fun s => ((h₄ s).trans (h₃ s)).trans (h₂ s)))
      intro s item hitem
      rcases List.mem_append.mp hitem with hitem | hitem
      · exact Or.inl hitem
      · exact Or.inr (items_tenant hrows item hitem)

theorem wp_billAttempts_items {input : BillInput} (left k : ℕ) :
    (billAttempts env input k left).wp (fun _ => True) φ pend
      (fun _ pend' => AddsItems input.tenant pend pend') fun _ _ => True := by
  induction left generalizing k with
  | zero => trivial
  | succ left ih =>
      simp only [billAttempts, Txn.wp_bind]
      refine Txn.wp_tryAtomic
        (Txn.wp_consequence wp_createBill_items (fun _ _ h => h) fun e p _ => ?_)
      split
      · rw [Txn.wp_bind]
        unfold billByReference
        rw [Txn.wp_ite]
        refine ⟨fun _ => ih (k + 1), fun _ => ?_⟩
        rw [Txn.wp_fetch]
        intro v hv
        split
        · exact .of_same fun _ => rfl
        · exact ih (k + 1)
      · trivial

theorem wp_getOrCreateBill_items {input : BillInput} :
    (getOrCreateBill env input).wp (fun _ => True) φ pend
      (fun _ pend' => AddsItems input.tenant pend pend') fun _ _ => True := by
  simp only [getOrCreateBill, Txn.wp_bind, billByReference, Txn.wp_ite, Txn.wp_fetch,
    Txn.pure_eq_ret, Txn.wp_ret]
  refine ⟨fun _ => wp_billAttempts_items 3 0, fun _ v hv => ?_⟩
  split
  · exact .of_same fun _ => rfl
  · exact wp_billAttempts_items 3 0

/-- The items of a new bill belong to the tenant. -/
theorem wp_getOrCreateBill_tenant {Q : Bill × Bool → (DB → DB) → Prop} {input : BillInput}
    (haccount : (viewOf φ id).Sees fun d _ => ∃ account ∈ d.accounts,
      account.id = input.customerAccount ∧ account.tenant = input.tenant)
    (hQ : ∀ result pend', BillGot φ input.tenant id pend' result →
      AddsItems input.tenant id pend' → Q result pend') :
    (getOrCreateBill env input).wp (fun _ => True) φ id Q fun _ _ => True := by
  have hgot : (getOrCreateBill env input).wp (fun _ => True) φ id
      (fun result pend' => BillGot φ input.tenant id pend' result) fun _ _ => True :=
    wp_getOrCreateBill haccount (fun _ _ => trivial) fun _ _ h => h
  exact Txn.wp_consequence (Txn.wp_conj hgot wp_getOrCreateBill_items)
    (fun result pend' h => hQ result pend' h.1 h.2) fun _ _ _ => trivial

theorem AddsItems.drafted {tenant : ℕ} {items : List BillItem} {bill : Bill} {pend' : DB → DB}
    (h : AddsItems tenant id pend') (hwrites : Writes (·.draftBill items bill) id pend') :
    ∀ item ∈ items, item.tenant = tenant := by
  intro item hitem
  have hadded : (pend' .blank).billItems = items := by
    have hbooks : (pend' .blank).toBooks = Books.empty.draftBill items bill :=
      congrArg Prod.snd (hwrites .blank)
    rw [hbooks]
    exact List.nil_append items
  rcases h .blank item (hadded ▸ hitem) with hold | htenant
  · exact absurd hold List.not_mem_nil
  · exact htenant

/-! ## Control numbers -/

/-- The moves of a `get_or_create_for_…`, with the row that a reuse is about. -/
inductive Numbered (view : View) (env : Env) (tenant : ℕ) (owner : Owner) : List Move → Prop
  | kept : Numbered view env tenant owner []
  | reused {cn : ControlNumber} {currency : String}
      (found : view.Sees fun _ b => cn ∈ b.controlNumbers) (howner : cn.owner = owner) :
      Numbered view env tenant owner
        [.note (cn.event env currency .controlNumberReused .zero none)]
  | created {cn : ControlNumber} {currency : String} (howner : cn.owner = owner)
      (htenant : cn.tenant = tenant) : Numbered view env tenant owner [.issue env cn currency]

section Numbers

variable {tenant : ℕ} {owner : Owner} {scope : ControlNumberScope} {expiresAt : Option Time}

/-- The savepoint leaves the new row. -/
theorem wp_createControlNumber_row (k : ℕ) :
    (createControlNumber env tenant owner scope expiresAt k).wp (fun _ => True) φ pend
      (fun cn pend' => ∀ s, (pend' s).controlNumbers = (pend s).controlNumbers ++ [cn])
      fun _ _ => True := by
  change Txn.wp (fun _ => True) φ (do
    insertControlNumber _
    chargeNumber env tenant _) pend _ _
  simp only [insertControlNumber, Txn.wp_bind, wp_raiseIf, Txn.wp_acquire, Txn.wp_fetch, wp_onBooks]
  refine fun v _ => ⟨fun _ => trivial, fun _ => ?_⟩
  refine Txn.wp_consequence (wp_chargeNumber env tenant _) (fun cn pend' h s => ?_) fun _ _ h => h
  obtain ⟨rfl, currency, hwrites⟩ := h
  exact congrArg (fun core : Directory × Books => core.2.controlNumbers) (hwrites s)

/-- The savepoint issues its number. -/
theorem wp_createControlNumber_created {k : ℕ}
    (howner : (viewOf φ pend).Sees fun d b => owner.Exists tenant d b) :
    (createControlNumber env tenant owner scope expiresAt k).wp (fun _ => True) φ pend
      (fun _ pend' => ∃ cn currency, cn.owner = owner ∧ cn.tenant = tenant ∧
        Effect φ pend [.issue env cn currency] pend') fun _ _ => True := by
  have hissued : (createControlNumber env tenant owner scope expiresAt k).wp (fun _ => True) φ pend
      (fun _ pend' => ∃ ms, Issued env tenant owner ms ∧ Effect φ pend ms pend') fun _ _ => True :=
    wp_createControlNumber howner (fun _ _ => trivial) fun ms _ p h heffect => ⟨ms, h, heffect⟩
  refine Txn.wp_consequence (Txn.wp_conj hissued (wp_createControlNumber_row k))
    (fun cn pend' h => ?_) fun _ _ _ => trivial
  obtain ⟨⟨ms, hms, heffect⟩, hrow⟩ := h
  -- the other two lists of moves leave the table as it was
  have hbooks : (pend' .blank).toBooks = Move.runAll ms (pend .blank).toBooks :=
    congrArg Prod.snd (heffect.writes .blank)
  have hgrown := hrow .blank
  rw [hbooks] at hgrown
  cases hms with
  | kept => simp at hgrown
  | reused => simp [Move.run, Books.record] at hgrown
  | created hcnowner hcntenant => exact ⟨_, _, hcnowner, hcntenant, heffect⟩

theorem wp_controlNumberAttempts_numbered {lookup : Tx (Option ControlNumber)}
    (hlookup : OnTrail lookup)
    (howner : (viewOf φ pend).Sees fun d b => owner.Exists tenant d b) (left k : ℕ)
    (start : DB → DB) (hstart : ∀ s, (start s).core = (pend s).core) :
    (controlNumberAttempts env lookup (createControlNumber env tenant owner scope expiresAt)
      k left).wp (fun _ => True) φ start
      (fun _ pend' => ∃ ms, Numbered (viewOf φ pend) env tenant owner ms ∧ Effect φ pend ms pend')
      fun _ _ => True := by
  induction left generalizing k start with
  | zero => trivial
  | succ left ih =>
      simp only [controlNumberAttempts, Txn.wp_bind]
      have hview : viewOf φ start = viewOf φ pend := viewOf_core hstart
      refine Txn.wp_tryAtomic (Txn.wp_consequence (wp_createControlNumber_created (hview ▸ howner))
        ?_ ?_)
      · rintro cn p₁ ⟨cn', currency, hcnowner, hcntenant, h₁⟩
        exact ⟨_, .created hcnowner hcntenant, (Effect.of_core hstart).trans h₁⟩
      · intro e p _
        split
        · rw [Txn.wp_bind]
          refine hlookup.wp (fun found p₂ h₂ => ?_) fun _ _ _ _ => trivial
          have h₂' : ∀ s, (p₂ s).core = (pend s).core := fun s => (h₂ s).trans (hstart s)
          split
          · exact ⟨[], .kept, Effect.of_core h₂'⟩
          · exact ih (k + 1) p₂ h₂'
        · trivial

/-- `get_or_create_for_bill` and `get_or_create_for_account`. -/
theorem wp_getOrCreateControlNumber_numbered {lookup : Tx (Option ControlNumber)}
    (hlookup : LooksUp owner lookup)
    (howner : (viewOf φ pend).Sees fun d b => owner.Exists tenant d b) :
    (getOrCreateControlNumber env tenant lookup
      (createControlNumber env tenant owner scope expiresAt)).wp (fun _ => True) φ pend
      (fun _ pend' => ∃ ms, Numbered (viewOf φ pend) env tenant owner ms ∧ Effect φ pend ms pend')
      fun _ _ => True := by
  obtain ⟨what, q, rfl, hq⟩ := hlookup.fetches
  simp only [getOrCreateControlNumber, Txn.wp_bind, Txn.wp_fetch]
  intro v hv
  cases hfound : q (pend v) with
  | none =>
      exact wp_controlNumberAttempts_numbered (Txn.frame_fetch _ _) howner 5 0 pend fun _ => rfl
  | some existing =>
      simp only [Txn.wp_bind]
      refine (recordAuditEvent_onTrail _ _ _ _ _ _).wp (fun _ p₁ h₁ => ?_) fun _ _ _ _ => trivial
      simp only [recordControlNumberReused, getTenant, Txn.wp_bind, wp_getRow, Txn.pure_eq_ret,
        Txn.wp_ret]
      intro u hu
      refine ⟨fun row _ => ?_, fun _ => trivial⟩
      have hnote : Effect φ p₁
          [.note (existing.event env row.defaultCurrency .controlNumberReused .zero none)]
          (inBooks (·.record
            (existing.event env row.defaultCurrency .controlNumberReused .zero none)) ∘ p₁) :=
        Effect.single ⟨rfl, rfl, Or.inl rfl⟩ (writes_inBooks _ _)
      have hsees : (viewOf φ pend).Sees fun _ b => existing ∈ b.controlNumbers :=
        (seesAt_viewOf (P := fun _ b => existing ∈ b.controlNumbers) hv (hq _ _ hfound).1).sees
      exact wp_recordEvent trivial
        ⟨_, .reused hsees (hq _ _ hfound).2, (Effect.of_core h₁).trans hnote⟩

end Numbers

/-- What `cancel` writes. -/
def ControlNumber.cancelledIn (cn : ControlNumber) (now : Time) (row : ControlNumber) :
    ControlNumber :=
  if row.id = cn.id then { row with status := .cancelled, cancelledAt := some now } else row

theorem wp_cancelControlNumber_exact {cn : ControlNumber} :
    (cancelControlNumber env cn).wp (fun _ => True) φ pend
      (fun _ pend' => Effect φ pend [.editControlNumbers (cn.cancelledIn env.now)] pend')
      fun _ _ => True := by
  simp only [cancelControlNumber, Txn.wp_bind, Txn.wp_acquire, wp_onBooks]
  refine (recordAuditEvent_onTrail _ _ _ _ _ _).wp (fun _ p₁ h₁ => ?_) fun _ _ _ _ => trivial
  have hguard : (Move.editControlNumbers (cn.cancelledIn env.now)).Guard (viewOf φ pend) := by
    intro row
    by_cases hid : row.id = cn.id
    · exact ⟨.cancelled, some env.now, if_pos hid⟩
    · exact ⟨row.status, row.cancelledAt, if_neg hid⟩
  exact (Effect.single hguard (writes_inBooks _ _)).then_core h₁

/-- What `expire_overdue` writes into the rows that it has locked. -/
def ControlNumber.expiredIn (locked : List ControlNumber) (row : ControlNumber) : ControlNumber :=
  if locked.any (·.id = row.id) then { row with status := .expired } else row

/-- The rows of an `UPDATE` still pass its filter once they are locked. -/
theorem wp_lockControlNumbers {keep : ControlNumber → Bool} (rows : List ControlNumber) :
    (lockControlNumbers keep rows).wp (fun _ => True) φ pend
      (fun locked pend' => pend' = pend ∧ ∀ cn ∈ locked, keep cn = true ∧
        (viewOf φ pend).Sees fun _ b => cn ∈ b.controlNumbers) fun _ _ => True := by
  induction rows with
  | nil => exact ⟨rfl, fun cn hcn => absurd hcn List.not_mem_nil⟩
  | cons cn rest ih =>
      simp only [lockControlNumbers, Txn.wp_bind, Txn.wp_acquire, Txn.wp_fetch, Txn.pure_eq_ret,
        Txn.wp_ret]
      intro v hv
      refine Txn.wp_consequence ih (fun locked p h => ?_) fun _ _ h => h
      obtain ⟨rfl, hlocked⟩ := h
      refine ⟨rfl, fun row hrow => ?_⟩
      rcases List.mem_append.mp hrow with hrow | hrow
      · obtain ⟨hfound, hkeep⟩ := Option.filter_eq_some_iff.mp (Option.mem_toList.mp hrow)
        have hmem : row ∈ (p v).controlNumbers := List.mem_of_find?_eq_some hfound
        exact ⟨hkeep, (seesAt_viewOf (P := fun _ b => row ∈ b.controlNumbers) hv hmem).sees⟩
      · exact hlocked row hrow

theorem wp_expireOverdue_exact {tenant : Option ℕ} :
    (expireOverdue env tenant).wp (fun _ => True) φ pend
      (fun _ pend' => ∃ locked : List ControlNumber,
        (∀ cn ∈ locked, cn.overdue env.now tenant = true ∧
          (viewOf φ pend).Sees fun _ b => cn ∈ b.controlNumbers) ∧
        Effect φ pend [.editControlNumbers (ControlNumber.expiredIn locked)] pend')
      fun _ _ => True := by
  simp only [expireOverdue, Txn.wp_bind, Txn.wp_fetch]
  intro v hv
  refine Txn.wp_consequence (wp_lockControlNumbers _) (fun locked p h => ?_) fun _ _ h => h
  obtain ⟨rfl, hlocked⟩ := h
  rw [wp_onBooks]
  refine ⟨locked, hlocked, ?_⟩
  refine Effect.single (m := .editControlNumbers (ControlNumber.expiredIn locked)) (fun row => ?_)
    (writes_inBooks _ _)
  by_cases hid : locked.any (·.id = row.id) = true
  · exact ⟨.expired, row.cancelledAt, if_pos hid⟩
  · exact ⟨row.status, row.cancelledAt, if_neg hid⟩

/-! ## Batches -/

/-- What `mark_settlement_completed` writes into the row. -/
def SettlementBatch.completedAs (now : Time) (reference : String) (row : SettlementBatch) :
    SettlementBatch :=
  { row with
    status := .completed
    settlementDate := some now
    externalSettlementReference := reference }

theorem wp_markSettlementCompleted_exact {batch : SettlementBatch} {reference : String} :
    (markSettlementCompleted env batch reference).wp (fun _ => True) φ pend
      (fun _ pend' => Effect φ pend
        [.editBatch batch.id (SettlementBatch.completedAs env.now reference)] pend')
      fun _ _ => True := by
  simp only [markSettlementCompleted, Txn.wp_bind, wp_checkVarchar, wp_onBooks]
  refine ⟨fun _ => ?_, fun _ => trivial⟩
  refine (recordAuditEvent_onTrail _ _ _ _ _ _).wp (fun _ p₁ h₁ => ?_) fun _ _ _ _ => trivial
  refine (dispatchEvent_onTrail _ _ _ _).wp (fun _ p₂ h₂ => ?_) fun _ _ _ _ => trivial
  exact ((Effect.single (m := .editBatch batch.id _) trivial (writes_inBooks _ _)).then_core
    h₁).then_core h₂

/-- A batch is built for the tenant and the provider that it was asked for. -/
theorem wp_generateSettlementBatch_tenant {tenant provider : ℕ} {periodStart periodEnd : Time} :
    (generateSettlementBatch env tenant provider periodStart periodEnd).wp (fun _ => True) φ pend
      (fun batch pend' => batch.tenant = tenant ∧ ∃ claimed,
        Effect φ pend [.openBatch batch claimed] pend') fun _ _ => True := by
  have heffect : (generateSettlementBatch env tenant provider periodStart periodEnd).wp
      (fun _ => True) φ pend
      (fun batch pend' => ∃ claimed, Effect φ pend [.openBatch batch claimed] pend')
      fun _ _ => True :=
    wp_generateSettlementBatch (fun _ _ => trivial) fun batch claimed _ h => ⟨claimed, h⟩
  have htenant : (generateSettlementBatch env tenant provider periodStart periodEnd).wp
      (fun _ => True) φ pend (fun batch _ => batch.tenant = tenant) fun _ _ => True := by
    simp only [generateSettlementBatch, Txn.wp_bind, Txn.wp_fetch]
    refine fun _ _ => (selectForUpdate_onTrail _ _).wp (fun claimed p _ => ?_) fun _ _ _ _ =>
      trivial
    intro v hv
    simp only [getTenant, wp_getRow, wp_storeNumeric, insertBatch, Txn.wp_bind, Txn.wp_acquire,
      Txn.wp_fetch, wp_raiseIf, wp_onBooks]
    refine fun _ _ => ⟨fun row _ => ⟨fun gross _ => ⟨fun fee _ => ⟨fun net _ u hu =>
      ⟨fun _ => trivial, fun _ => ?_⟩, fun _ => trivial⟩, fun _ => trivial⟩, fun _ => trivial⟩,
      fun _ => trivial⟩
    exact (recordAuditEvent_onTrail _ _ _ _ _ _).wp (fun _ _ _ => rfl) fun _ _ _ _ => trivial
  exact Txn.wp_consequence (Txn.wp_conj htenant heffect) (fun _ _ h => h) fun _ _ _ => trivial

/-! ## Callbacks -/

/-- The moves of a repeated delivery, with the payment of the first one. -/
inductive Repeated (view : View) (env : Env) : List Move → Prop
  | orphan {row : PaymentCallbackEvent} : Repeated view env [.addCallback row]
  | noted {row : PaymentCallbackEvent} {payment : Payment} (held : view.Holds payment) :
      Repeated view env
        [.addCallback row, .note (payment.event env .paymentDuplicate .zero none [])]

/-- The moves of `process_callback`: those of a delivery that is refused or new, or those of a
repeated one. -/
inductive Delivered (view : View) (env : Env) : List Move → Prop
  | refused {row : PaymentCallbackEvent} : Delivered view env [.addCallback row]
  | repeated {ms : List Move} (h : Repeated view env ms) : Delivered view env ms
  | unmatched {row : PaymentCallbackEvent} :
      Delivered view env
        [.addCallback row, .editCallback row.id fun row => { row with outcome := .unmatched }]
  | matched {row : PaymentCallbackEvent} {payment after : Payment} {outcome : ProviderOutcome}
      {ms : List Move} (held : view.Holds payment)
        (applied : Applied env payment outcome ms after) :
      Delivered view env
        (.addCallback row ::
          .editCallback row.id (fun row => { row with payment := some payment.id }) :: ms)

theorem wp_onDuplicate_repeated {provider : PaymentProvider} {parsed : ProviderCallbackResult} :
    (onDuplicate env provider parsed).wp (fun _ => True) φ pend
      (fun _ pend' => ∃ ms, Repeated (viewOf φ pend) env ms ∧ Effect φ pend ms pend')
      fun _ _ => True := by
  simp only [onDuplicate, Txn.wp_bind, Txn.wp_fetch]
  intro v hv
  refine wp_insertCallbackEvent (fun _ _ => trivial) fun row p₁ h₁ => ?_
  split
  · rw [Txn.wp_bind]
    refine (recordAuditEvent_onTrail _ _ _ _ _ _).wp (fun _ p₂ h₂ => ?_) fun _ _ _ _ => trivial
    exact ⟨_, .orphan, h₁.then_core h₂⟩
  · next id _ =>
      simp only [Txn.wp_bind, wp_getRow]
      intro u hu
      refine ⟨fun payment hfound => ?_, fun _ => trivial⟩
      refine (recordAuditEvent_onTrail _ _ _ _ _ _).wp (fun _ p₂ h₂ => ?_) fun _ _ _ _ => trivial
      simp only [recordPaymentDuplicate, recordZeroEvent, Txn.pure_eq_ret, Txn.wp_ret]
      have hbooks : (p₁ u).toBooks = (pend u).toBooks.addCallbackEvent row :=
        congrArg Prod.snd (h₁.writes u)
      rw [hbooks] at hfound
      have hheld : (viewOf φ pend).Holds payment := ⟨.payment id, rfl,
        seesAt_viewOf (P := fun _ b => payment ∈ b.payments) hu (List.mem_of_find?_eq_some hfound)⟩
      exact wp_recordEvent trivial
        ⟨_, .noted hheld, (h₁.then_core h₂).trans (effect_note env payment (Or.inr (Or.inr rfl)))⟩

theorem wp_onFirstDelivery_delivered {parsed : ProviderCallbackResult} {row : PaymentCallbackEvent}
    {start : DB → DB} (hrow : Effect φ start [.addCallback row] pend) :
    (onFirstDelivery env row parsed).wp (fun _ => True) φ pend
      (fun _ pend' => ∃ ms, Delivered (viewOf φ start) env ms ∧ Effect φ start ms pend')
      fun _ _ => True := by
  simp only [onFirstDelivery, Txn.wp_bind, wp_checkParameter, Txn.wp_fetch]
  refine ⟨fun _ => trivial, fun _ v hv => ?_⟩
  split
  · simp only [Txn.wp_bind, wp_onBooks]
    refine (recordAuditEvent_onTrail _ _ _ _ _ _).wp (fun _ p₁ h₁ => ?_) fun _ _ _ _ => trivial
    have hedit : Effect φ pend [.editCallback row.id fun row => { row with outcome := .unmatched }]
        (inBooks (·.updateCallbackEvent row.id fun row => { row with outcome := .unmatched }) ∘
          pend) :=
      Effect.single (fun row => ⟨row.payment, .unmatched, rfl⟩) (writes_inBooks _ _)
    exact ⟨_, .unmatched, (hrow.trans hedit).then_core h₁⟩
  · next payment hfound =>
      simp only [Txn.wp_bind, wp_onBooks]
      have hedit : Effect φ pend
          [.editCallback row.id fun row => { row with payment := some payment.id }]
          (inBooks (·.updateCallbackEvent row.id fun row =>
            { row with payment := some payment.id }) ∘ pend) :=
        Effect.single (fun row => ⟨some payment.id, row.outcome, rfl⟩) (writes_inBooks _ _)
      have hheld : (viewOf φ start).Holds payment := by
        have hsees := seesAt_viewOf (P := fun _ b => payment ∈ b.payments) hv
          (matchReference_mem hfound).1
        rw [hrow.view, View.seesAt_map] at hsees
        exact ⟨.providerReference parsed.providerReference, rfl, hsees⟩
      refine wp_applyOutcome ?_ (Related.valid_empty _ _) (fun _ _ => trivial)
        fun ms after p₁ happlied h₁ => ?_
      · rw [(hrow.trans hedit).view]
        exact hheld.map fun b hb => hb
      · exact ⟨_, .matched hheld happlied, (hrow.trans hedit).trans h₁⟩

theorem wp_processCallback_delivered {provider : PaymentProvider} {inbound : InboundCallback} :
    (processCallback env provider inbound).wp (fun _ => True) φ pend
      (fun _ pend' => ∃ ms, Delivered (viewOf φ pend) env ms ∧ Effect φ pend ms pend')
      fun _ _ => True := by
  simp only [processCallback, Txn.wp_bind]
  refine wp_getAdapter provider (fun _ => trivial) fun adapter _ => ?_
  split
  · rw [Txn.wp_bind]
    refine wp_insertCallbackEvent (fun _ _ => trivial) fun row p₁ h₁ => ?_
    rw [Txn.wp_bind]
    refine (recordAuditEvent_onTrail _ _ _ _ _ _).wp (fun _ p₂ h₂ => ?_) fun _ _ _ _ => trivial
    exact ⟨_, .refused, h₁.then_core h₂⟩
  · trivial
  · simp only [onParsed, Txn.wp_bind]
    refine Txn.wp_tryAtomic (Txn.wp_consequence (wp_insertCallbackEvent
      (R := fun _ _ => True) (fun _ _ => trivial) fun row p₁ h₁ => ?_) (fun _ _ h => h)
      fun e p _ => ?_)
    · exact wp_onFirstDelivery_delivered h₁
    · split
      · refine Txn.wp_consequence wp_onDuplicate_repeated (fun _ _ h => ?_) fun _ _ h => h
        obtain ⟨ms, hrepeated, heffect⟩ := h
        exact ⟨ms, .repeated hrepeated, heffect⟩
      · trivial

/-! ## Requests -/

/-- The bill that a request opens is its tenant's, and so are the items. -/
structure OpensFor (tenant : ℕ) (items : List BillItem) (bill : Bill) : Prop where
  bill : bill.tenant = tenant
  items : ∀ item ∈ items, item.tenant = tenant

/-- The moves of a request, with the rows that they rest on. -/
def Action.Acts (view : View) (env : Env) (action : Action) (ms : List Move) : Prop :=
  match action with
  | .billCreate input => ms = [] ∨ ∃ items bill ms', OpensFor input.tenant items bill ∧
      Numbered (view.map (Move.openBill items bill env.now).run) env input.tenant (.bill bill.id)
        ms' ∧ ms = .openBill items bill env.now :: ms'
  | .billListCreate input => ms = [] ∨ ∃ items bill, OpensFor input.tenant items bill ∧
      ms = [.openBill items bill env.now]
  | .billCancel tenant pk => ms = [] ∨ ∃ bill, bill.id = pk ∧ bill.tenant = tenant ∧
      view.HoldsBill bill ∧ ms = [.cancelBill (bill.moveTo env.now .cancelled)]
  | .billRequestControlNumber tenant pk =>
      (view.Sees fun d b => (Owner.bill pk).Exists tenant d b) ∧
      Numbered view env tenant (.bill pk) ms
  | .accountRequestControlNumber tenant pk _ =>
      (view.Sees fun d b => (Owner.customerAccount pk).Exists tenant d b) ∧
      Numbered view env tenant (.customerAccount pk) ms
  | .controlNumberCancel tenant pk => ∃ cn, cn.id = pk ∧ cn.tenant = tenant ∧
      (view.Sees fun _ b => cn ∈ b.controlNumbers) ∧
      ms = [.editControlNumbers (cn.cancelledIn env.now)]
  | .expireOverdue tenant => ∃ locked : List ControlNumber,
      (∀ cn ∈ locked, cn.overdue env.now tenant = true ∧
        view.Sees fun _ b => cn ∈ b.controlNumbers) ∧
      ms = [.editControlNumbers (ControlNumber.expiredIn locked)]
  | .providerCallback .. => ms = [] ∨ Delivered view env ms
  | .generateBatch tenant .. => ∃ batch claimed, batch.tenant = tenant ∧
      ms = [.openBatch batch claimed]
  | .markCompleted pk reference =>
      ms = [.editBatch pk (SettlementBatch.completedAs env.now reference)]
  | .changeFeeRefundPolicy .. | .changeDefaultCurrency .. => False
  | action => action.Moves view env ms

/-- What a request that ends normally did, with the rows that it rests on. -/
def Request.Acted (φ : Resource → DB → Prop) (request : Request) (pend' : DB → DB) : Prop :=
  ∃ ms, request.action.Acts (viewOf φ id) request.env ms ∧ Effect φ id ms pend'

section Requests

variable {tenant pk : ℕ}

theorem wp_billCreate_acts {input : BillInput} :
    (billCreate env input).wp (fun _ => True) φ id
      (fun _ pend' => Request.Acted φ ⟨env, .billCreate input⟩ pend') fun _ _ => True := by
  simp only [billCreate, Txn.wp_bind]
  refine wp_accountOr404 trivial fun account hid htenant hsees => ?_
  refine wp_getOrCreateBill_tenant (hsees.mono fun d _ h => ⟨account, h, hid, htenant⟩)
    fun result p₁ hgot hitems => ?_
  cases hgot with
  | existing h₁ => exact ⟨[], Or.inl rfl, Effect.of_core h₁⟩
  | created hdrafted hwrites =>
      simp only [if_true, Txn.wp_bind, Txn.pure_eq_ret, Txn.wp_ret]
      refine wp_activate hdrafted hwrites (fun _ _ => trivial) fun p₂ h₂ hexists => ?_
      refine Txn.wp_consequence
        (wp_getOrCreateControlNumber_numbered (controlNumberOfBill_looksUp _) hexists)
        (fun _ p₃ h => ?_) fun _ _ h => h
      obtain ⟨ms, hnumbered, h₃⟩ := h
      rw [h₂.view] at hnumbered
      exact ⟨_, Or.inr ⟨_, _, ms, ⟨hdrafted.tenant_eq, hitems.drafted hwrites⟩, hnumbered, rfl⟩,
        h₂.trans h₃⟩

theorem wp_billListCreate_acts {input : BillInput} :
    (billListCreate env input).wp (fun _ => True) φ id
      (fun _ pend' => Request.Acted φ ⟨env, .billListCreate input⟩ pend') fun _ _ => True := by
  simp only [billListCreate, Txn.wp_bind]
  refine wp_accountOr404 trivial fun account hid htenant hsees => ?_
  refine wp_getOrCreateBill_tenant (hsees.mono fun d _ h => ⟨account, h, hid, htenant⟩)
    fun result p₁ hgot hitems => ?_
  cases hgot with
  | existing h₁ => exact ⟨[], Or.inl rfl, Effect.of_core h₁⟩
  | created hdrafted hwrites =>
      simp only [if_true, Txn.wp_bind, Txn.pure_eq_ret, Txn.wp_ret]
      refine wp_activate hdrafted hwrites (fun _ _ => trivial) fun p₂ h₂ _ => ?_
      exact ⟨_, Or.inr ⟨_, _, ⟨hdrafted.tenant_eq, hitems.drafted hwrites⟩, rfl⟩, h₂⟩

theorem wp_billRequestControlNumber_acts :
    (billRequestControlNumber env tenant pk).wp (fun _ => True) φ id
      (fun _ pend' => Request.Acted φ ⟨env, .billRequestControlNumber tenant pk⟩ pend')
      fun _ _ => True := by
  simp only [billRequestControlNumber, Txn.wp_bind, Txn.pure_eq_ret, Txn.wp_ret]
  refine wp_billOr404 trivial fun bill hid htenant hsees => ?_
  have hexists : (viewOf φ id).Sees fun d b => (Owner.bill bill.id).Exists tenant d b :=
    hsees.sees.mono fun _ b hb => ⟨bill, hb, rfl, htenant⟩
  refine Txn.wp_consequence (wp_getOrCreateControlNumber_numbered (controlNumberOfBill_looksUp _)
    hexists) (fun _ p h => ?_) fun _ _ h => h
  obtain ⟨ms, hnumbered, heffect⟩ := h
  rw [hid] at hnumbered hexists
  exact ⟨ms, ⟨hexists, hnumbered⟩, heffect⟩

theorem wp_accountRequestControlNumber_acts {expiresAt : Option Time} :
    (accountRequestControlNumber env tenant pk expiresAt).wp (fun _ => True) φ id
      (fun _ pend' =>
        Request.Acted φ ⟨env, .accountRequestControlNumber tenant pk expiresAt⟩ pend')
      fun _ _ => True := by
  simp only [accountRequestControlNumber, Txn.wp_bind, Txn.pure_eq_ret, Txn.wp_ret]
  refine wp_accountOr404 trivial fun account hid htenant hsees => ?_
  have hexists : (viewOf φ id).Sees fun d b =>
    (Owner.customerAccount account.id).Exists tenant d b :=
    hsees.mono fun d _ h => ⟨account, h, rfl, htenant⟩
  refine Txn.wp_consequence (wp_getOrCreateControlNumber_numbered
    (activeControlNumberOf_looksUp _) hexists) (fun _ p h => ?_) fun _ _ h => h
  obtain ⟨ms, hnumbered, heffect⟩ := h
  rw [hid] at hnumbered hexists
  exact ⟨ms, ⟨hexists, hnumbered⟩, heffect⟩

/-- A request that ends normally made the moves of its action and nothing else. -/
theorem wp_acts (request : Request) (hnot : request.action.savesTenant = false)
    (hunique : ∀ k v, φ k v → (v.payments.map (·.id)).Nodup) :
    request.handler.wp (fun _ => True) φ id (fun _ pend' => request.Acted φ pend')
      fun _ _ => True := by
  have hdid : request.handler.wp (fun _ => True) φ id (fun _ pend' => request.Did φ pend')
      fun _ _ => True :=
    Txn.wp_mono (fun _ _ => trivial) (fun _ _ h => h) (fun _ _ h => h) (fun _ _ h => h)
      (wp_handler request hnot hunique)
  obtain ⟨env, action⟩ := request
  cases action with
  | billCreate input => exact wp_billCreate_acts
  | billListCreate input => exact wp_billListCreate_acts
  | billRequestControlNumber tenant pk => exact wp_billRequestControlNumber_acts
  | accountRequestControlNumber tenant pk expiresAt => exact wp_accountRequestControlNumber_acts
  | billCancel tenant pk =>
      exact wp_billCancel (fun _ _ => trivial) ⟨[], Or.inl rfl, Effect.refl⟩
        fun bill p hid htenant hsees _ h =>
          ⟨_, Or.inr ⟨bill, hid, htenant, hsees.sees, rfl⟩, h⟩
  | controlNumberCancel tenant pk =>
      simp only [Request.handler, controlNumberCancel, Txn.wp_bind, wp_getOr404]
      refine fun v hv => ⟨fun cn hfound => ?_, fun _ => trivial⟩
      have hkey := List.find?_some hfound
      simp only [Bool.and_eq_true, decide_eq_true_eq] at hkey
      refine Txn.wp_consequence wp_cancelControlNumber_exact (fun _ p h => ?_) fun _ _ h => h
      have hsees := seesAt_viewOf (P := fun _ b => cn ∈ b.controlNumbers) hv
        (List.mem_of_find?_eq_some hfound)
      exact ⟨_, ⟨cn, hkey.1, hkey.2, hsees.sees, rfl⟩, h⟩
  | expireOverdue tenant =>
      refine Txn.wp_consequence wp_expireOverdue_exact (fun _ p h => ?_) fun _ _ h => h
      obtain ⟨locked, hlocked, heffect⟩ := h
      exact ⟨_, ⟨locked, hlocked, rfl⟩, heffect⟩
  | providerCallback code inbound =>
      change Txn.wp _ φ (providerCallback env code inbound) id _ _
      simp only [providerCallback, Txn.wp_bind, Txn.wp_fetch]
      intro v hv
      split
      · exact ⟨[], Or.inl rfl, Effect.refl⟩
      · rw [Txn.wp_bind]
        refine Txn.wp_consequence wp_processCallback_delivered (fun _ p h => ?_) fun _ _ h => h
        obtain ⟨ms, hdelivered, heffect⟩ := h
        exact ⟨ms, Or.inr hdelivered, heffect⟩
  | generateBatch tenant provider periodStart periodEnd =>
      simp only [Request.handler, generateBatch, getProvider, Txn.wp_bind, wp_getRow,
        Txn.pure_eq_ret, Txn.wp_ret]
      refine fun v _ => ⟨fun _ _ => ?_, fun _ => trivial⟩
      refine Txn.wp_consequence wp_generateSettlementBatch_tenant (fun batch p h => ?_)
        fun _ _ h => h
      obtain ⟨htenant, claimed, heffect⟩ := h
      exact ⟨_, ⟨batch, claimed, htenant, rfl⟩, heffect⟩
  | markCompleted pk reference =>
      simp only [Request.handler, markCompleted, Txn.wp_bind, wp_getOr404]
      refine fun v _ => ⟨fun batch hfound => ?_, fun _ => trivial⟩
      have hid : batch.id = pk := by simpa using List.find?_some hfound
      refine Txn.wp_consequence wp_markSettlementCompleted_exact (fun _ p h => ?_) fun _ _ h => h
      rw [hid] at h
      exact ⟨_, rfl, h⟩
  | changeFeeRefundPolicy | changeDefaultCurrency => cases hnot
  | _ => exact hdid

end Requests

end Kusanya
