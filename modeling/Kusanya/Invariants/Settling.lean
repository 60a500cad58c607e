import Kusanya.Invariants.PaymentLocks
import Kusanya.Moves.Locked

/-!
# Transactions on payments and batches

What a transaction on payments knows at its end: it leaves batches alone, opens payments under
fresh keys that are in no batch, and changes only payments that it has locked.  A transaction
that settles has locked the payments it adds up, so that its totals are right when it commits.
-/

namespace Kusanya

open ReadCommitted

/-! ## Payments at work -/

/-- Where a transaction on payments stands. -/
structure Working (l : Local DB Resource) : Prop where
  opened : ∃ opened : List (Payment.Fixed × Option ℕ), (∀ x ∈ opened, x.2 = none) ∧
    ∀ s, (l.pend s).payments.map Payment.claim = s.payments.map Payment.claim ++ opened
  unique : ∀ s, l.Sees settlementDiscipline s → ((l.pend s).payments.map (·.id)).Nodup
  batches : ∀ s, (l.pend s).batches = s.batches
  covered : ∀ s id, .payment id ∉ l.held → LockKeeps (.payment id) s (l.pend s)

section Working

variable {l : Local DB Resource}

theorem working_untouched (hpend : l.pend = id) : Working l where
  opened := by
    refine ⟨[], fun x hx => absurd hx List.not_mem_nil, fun s => ?_⟩
    rw [hpend, List.append_nil]
    rfl
  unique s hs := by
    rw [hpend]
    exact hs.inv.payments
  batches s := by
    rw [hpend]
    rfl
  covered s id _ := by
    rw [hpend]
    exact ⟨rfl, rfl⟩

theorem map_id_of_claims {rows rows' : List Payment}
    (h : rows.map Payment.claim = rows'.map Payment.claim) :
    rows.map (·.id) = rows'.map (·.id) := by
  have hkey := congrArg (fun claims => claims.map fun c : Payment.Fixed × Option ℕ => c.1.id) h
  rw [List.map_map, List.map_map] at hkey
  exact hkey

theorem Working.write (h : Working l) {w : DB → DB} (hw : UnderLock l.held w) :
    Working { l with pend := w ∘ l.pend } where
  opened := by
    obtain ⟨opened, hnone, hclaims⟩ := h.opened
    exact ⟨opened, hnone, fun s => (hw.claims (l.pend s)).trans (hclaims s)⟩
  unique s hs := by
    have hunique := h.unique s ⟨hs.inv, hs.evolves, hs.keeps⟩
    rw [← map_id_of_claims (hw.claims (l.pend s))] at hunique
    exact hunique
  batches s := (hw.batches (l.pend s)).trans (h.batches s)
  covered s id hid :=
    settlementDiscipline.keeps_trans (k := .payment id) (h.covered s id hid)
      (hw.covered (l.pend s) id hid)

theorem lasting_working : Txn.Lasting settlementDiscipline Working where
  sees h hs :=
    { opened := h.opened
      unique := fun t ht => h.unique t (hs.trans (fun _ hk => hk) ht)
      batches := h.batches
      covered := h.covered }
  locked h hheld :=
    { opened := h.opened
      unique := fun t ht => h.unique t ⟨ht.inv, ht.evolves, fun k hk => ht.keeps k (hheld k hk)⟩
      batches := h.batches
      covered := fun s id hid => h.covered s id fun hin => hid (hheld _ hin) }

/-- Code that locks what it writes leaves the transaction at work. -/
theorem Working.lwp {α : Type} (h : Working l) (hinv : l.last.toBooks.SettlementTables) {p : Tx α}
    {Q : α → List Resource → Prop} (hp : p.Covers UnderLock l.held Q) :
    p.lwp settlementDiscipline l
      (fun a l' => Q a l'.held ∧ Working l' ∧ l'.last.toBooks.SettlementTables) fun _ _ => True :=
  Txn.lwp_consequence (hp.maintains lasting_working (fun _ _ hw hl => hl.write hw) l rfl h hinv)
    (fun _ _ h => ⟨h.1, h.2.kept, h.2.inv⟩) fun _ _ _ => trivial

theorem still_acquireUnlessBlank (text : String) (key : Resource) :
    (acquireUnlessBlank text key).Still := by
  intro held
  unfold acquireUnlessBlank
  split <;> trivial

theorem still_paymentByKey (tenant : ℕ) (key : String) : (paymentByKey tenant key).Still := by
  intro held
  unfold paymentByKey
  split
  · trivial
  · exact fun _ => trivial

/-- `Payment.objects.create`, before anything else was written. -/
theorem insertPayment_lwp (hpend : l.pend = id) {payment : Payment}
    (hbatch : payment.settlementBatch = none) :
    (insertPayment payment).lwp settlementDiscipline l
      (fun _ l' => Working l' ∧ l'.last.toBooks.SettlementTables) fun _ _ => True := by
  unfold insertPayment
  simp only [Txn.lwp_bind, lwp_raiseIf, lwp_checkVarchar, Txn.lwp_acquire, Txn.lwp_fetch,
    lwp_onBooks]
  refine ⟨fun _ => trivial, fun _ => ⟨fun _ s₁ h₁ s₂ h₂ => ?_, fun _ => trivial⟩⟩
  refine Txn.lwp_consequence ((still_acquireUnlessBlank _ _).lwp h₂.inv) (fun _ l' hl' v hv => ?_)
    fun _ _ h => h
  obtain ⟨hsame, hheld, -⟩ := hl'
  refine ⟨fun _ => trivial, fun hclash => ⟨?_, hv.inv⟩⟩
  have hpend' : l'.pend = id := hsame.trans hpend
  have hlocked : .payment payment.id ∈ l'.held := hheld _ (by simp)
  -- the key is free, and its lock keeps it so
  have hfree : v.toBooks.payment? payment.id = none := by
    refine List.find?_eq_none.mpr fun row hrow hid => hclash ?_
    rw [hpend']
    exact List.any_eq_true.mpr ⟨row, hrow, by simp_all⟩
  constructor
  · refine ⟨[payment.claim], fun x hx => ?_, fun t => ?_⟩
    · rw [List.mem_singleton.mp hx]
      exact hbatch
    · rw [hpend']
      exact List.map_append
  · intro t ht
    have hnew : t.toBooks.payment? payment.id = none := (ht.keeps _ hlocked).1.trans hfree
    rw [hpend']
    change ((t.payments ++ [payment]).map (·.id)).Nodup
    rw [List.map_append, List.map_singleton]
    refine List.nodup_append.mpr ⟨ht.inv.payments, List.pairwise_singleton _ _, ?_⟩
    intro id hid id' hid'
    obtain ⟨row, hrow, rfl⟩ := List.mem_map.mp hid
    rw [List.mem_singleton.mp hid']
    exact payment?_none hnew row hrow
  · intro t
    rw [hpend']
    rfl
  · intro t id hid
    have hne : payment.id ≠ id := fun h => hid (h ▸ hlocked)
    rw [hpend']
    refine ⟨?_, rfl⟩
    change (t.payments ++ [payment]).find? _ = t.payments.find? _
    rw [List.find?_append, List.find?_singleton]
    simp [hne]

theorem initiatePayment_lwp (hpend : l.pend = id) (hinv : l.last.toBooks.SettlementTables)
    {env : Env} {input : InitiateInput} {bill : Option Bill} :
    (initiatePayment env input bill).lwp settlementDiscipline l (fun _ l' => Working l')
      fun _ _ => True := by
  unfold initiatePayment
  rw [Txn.lwp_bind]
  refine Txn.lwp_consequence ((still_paymentByKey _ _).lwp hinv) (fun found l₁ hl₁ => ?_)
    fun _ _ h => h
  obtain ⟨hsame, -, hsees⟩ := hl₁
  have hpend₁ : l₁.pend = id := hsame.trans hpend
  cases found with
  | some existing =>
      exact Txn.lwp_consequence (Working.lwp (working_untouched hpend₁) hsees.inv
        (idle_bind (idle_recordAuditEvent _ _ _ _ _ _) (fun _ => idle_ret _) _))
        (fun _ _ h => h.2.1) fun _ _ h => h
  | none =>
      dsimp only
      rw [Txn.lwp_bind]
      unfold getTenant
      rw [lwp_getRow]
      intro v hv
      refine ⟨fun tenant _ => ?_, fun _ => trivial⟩
      rw [Txn.lwp_bind]
      refine Txn.lwp_consequence
        (insertPayment_lwp (l := { l₁ with last := v }) hpend₁ rfl) (fun _ l₂ hl₂ => ?_)
        fun _ _ h => h
      refine Txn.lwp_consequence (hl₂.1.lwp hl₂.2 (Q := fun _ _ => True) ?_)
        (fun _ _ h => h.2.1) fun _ _ h => h
      apply Txn.covers_bind (idle_recordAuditEvent _ _ _ _ _ _ _)
      intro _ held₁ _ _
      apply Txn.covers_bind (idle_getAdapter _ _ held₁)
      intro adapter held₂ _ _
      exact onInitiated_covers

theorem processCallback_lwp (hl : Working l) (hinv : l.last.toBooks.SettlementTables) {env : Env}
    {provider : PaymentProvider} {inbound : InboundCallback} :
    (processCallback env provider inbound).lwp settlementDiscipline l (fun _ l' => Working l')
      fun _ _ => True := by
  have hmaintains : (processCallback env provider inbound).Maintains settlementDiscipline Working
      l.held fun _ _ => True := by
    have hcovered : ∀ {α : Type} {p : Tx α} {held : List Resource}
        {Q : α → List Resource → Prop}, p.Covers UnderLock held Q →
        p.Maintains settlementDiscipline Working held Q := fun hp =>
      hp.maintains lasting_working fun _ _ hw hl => hl.write hw
    apply Txn.maintains_bind (hcovered (idle_getAdapter _ _ _))
    intro adapter held₁ _ _
    cases adapter.processCallback inbound with
    | error e =>
        cases e with
        | invalidSignature message =>
            refine hcovered (idle_bind (idle_insertCallbackEvent _ _ _ _ _ _) ?_ held₁)
            intro event
            exact idle_bind (idle_recordAuditEvent _ _ _ _ _ _) fun _ => idle_ret _
        | providerError message => exact Txn.maintains_throw _
        | timeout message => exact Txn.maintains_throw _
        | other => exact Txn.maintains_throw _
    | ok parsed =>
        apply Txn.maintains_bind (Q := fun _ _ => True)
        · have hinsert := idle_insertCallbackEvent (env.gen.callbackEventId 0) provider.id
            parsed.externalEventId .processed none parsed.rawResponse
          exact Txn.maintains_tryAtomic lasting_working (hinsert []).noRelease
            (hcovered (hinsert held₁)) fun _ => trivial
        · intro inserted held₂ _ _
          cases inserted with
          | error e => exact hcovered (onDuplicate_idle _ _ held₂)
          | ok event => exact hcovered (onFirstDelivery_covers _ _)
  exact Txn.lwp_consequence (hmaintains l rfl hl hinv) (fun _ _ h => h.2.kept) fun _ _ _ => trivial

/-! ## The requests -/

/-- The requests that work on payments and batches. -/
def Action.worksOnPayments : Action → Bool
  | payBill .. | paymentListCreate .. | paymentQuery .. | paymentRefund .. | paymentReverse ..
  | providerCallback .. | triggerRun .. => true
  | _ => false

theorem handler_lwp {request : Request} (hworks : request.action.worksOnPayments = true)
    (hpend : l.pend = id) (hinv : l.last.toBooks.SettlementTables) :
    request.handler.lwp settlementDiscipline l (fun _ l' => Working l') fun _ _ => True := by
  obtain ⟨env, action⟩ := request
  have hcovered : ∀ {p : Tx Unit}, (p.Covers UnderLock l.held fun _ _ => True) →
      p.lwp settlementDiscipline l (fun _ l' => Working l') fun _ _ => True := fun hp =>
    Txn.lwp_consequence ((working_untouched hpend).lwp hinv hp) (fun _ _ h => h.2.1) fun _ _ h => h
  have hinitiated : ∀ {l' : Local DB Resource} {input : InitiateInput} {bill : Option Bill},
      l'.pend = id → l'.last.toBooks.SettlementTables →
      Txn.lwp settlementDiscipline (do
        let _ ← initiatePayment env input bill
        pure () : Tx Unit) l' (fun _ l' => Working l') fun _ _ => True := by
    intro l' input bill hpend' hinv'
    rw [Txn.lwp_bind]
    exact Txn.lwp_consequence (initiatePayment_lwp hpend' hinv') (fun _ _ h => h) fun _ _ h => h
  cases action with
  | payBill tenant billPk code amount payerReference metadata =>
      change Txn.lwp _ (payBill ..) _ _ _
      simp only [payBill, billOr404, controlNumberOfBill, Txn.lwp_bind, lwp_getOr404,
        Txn.lwp_fetch]
      intro s₁ h₁
      refine ⟨fun bill _ s₂ h₂ => ?_, fun _ => trivial⟩
      split
      · exact working_untouched hpend
      · simp only [Txn.lwp_bind, lwp_getRow]
        intro s₃ h₃
        refine ⟨fun provider _ => ?_, fun _ => trivial⟩
        rw [← Txn.lwp_bind]
        exact hinitiated hpend h₃.inv
  | paymentListCreate tenant value code channel amount payerReference key metadata =>
      change Txn.lwp _ (paymentListCreate ..) _ _ _
      simp only [paymentListCreate, providerOr404, Txn.lwp_bind, lwp_getOr404]
      intro s₁ h₁
      refine ⟨fun cn _ s₂ h₂ => ⟨fun provider _ => ?_, fun _ => trivial⟩, fun _ => trivial⟩
      rw [← Txn.lwp_bind]
      exact hinitiated hpend h₂.inv
  | paymentQuery tenant pk =>
      apply hcovered
      apply Txn.covers_bind (idle_getOr404 _ _ _)
      intro payment held₁ _ _
      exact Txn.covers_bind queryPayment_covers fun _ _ _ _ => trivial
  | paymentRefund tenant pk amount =>
      apply hcovered
      apply Txn.covers_bind (idle_getOr404 _ _ _)
      intro payment held₁ _ _
      refine Txn.covers_handle ?_ fun _ _ => idle_ret _ _
      exact Txn.covers_bind refundPayment_covers fun _ _ _ _ => trivial
  | paymentReverse tenant pk =>
      apply hcovered
      apply Txn.covers_bind (idle_getOr404 _ _ _)
      intro payment held₁ _ _
      refine Txn.covers_handle ?_ fun _ _ => idle_ret _ _
      exact Txn.covers_bind reversePayment_covers fun _ _ _ _ => trivial
  | providerCallback code inbound =>
      change Txn.lwp _ (providerCallback ..) _ _ _
      simp only [providerCallback, Txn.lwp_bind, Txn.lwp_fetch]
      intro s₁ h₁
      split
      · exact working_untouched hpend
      · rw [Txn.lwp_bind]
        exact Txn.lwp_consequence (processCallback_lwp (l := { l with last := s₁ })
          (working_untouched hpend) h₁.inv) (fun _ _ h => h) fun _ _ h => h
  | triggerRun tenant =>
      apply hcovered
      exact Txn.covers_bind (runReconciliation_covers tenant) fun _ _ _ _ => trivial
  | _ => cases hworks

end Working

/-! ## Building a batch -/

/-- The transaction has written nothing yet and holds the locks of these payments. -/
structure Holding (payments : List Payment) (l : Local DB Resource) : Prop where
  untouched : l.pend = id
  inv : l.last.toBooks.SettlementTables
  locked : ∀ p ∈ payments, .payment p.id ∈ l.held
  found : ∀ p ∈ payments, l.last.toBooks.payment? p.id = some p

/-- The batch is inserted, the payments point to it, and all that its totals rest on is locked. -/
structure Built (batch : SettlementBatch) (l : Local DB Resource) : Prop where
  claims : ∃ claimed : List Payment, batch.Claims claimed l.last.toBooks ∧
    (∀ p ∈ claimed, .payment p.id ∈ l.held) ∧
    ∀ s, (l.pend s).toBooks = (Move.openBatch batch claimed).run s.toBooks
  key : .batch batch.id ∈ l.held

section Building

variable {l : Local DB Resource} {payments : List Payment}

/-- What is locked stays as it is seen. -/
theorem Holding.sees (h : Holding payments l) {s : DB} {held : List Resource}
    (hheld : ∀ k ∈ l.held, k ∈ held) (hs : l.Sees settlementDiscipline s) :
    Holding payments ⟨held, l.pend, s⟩ where
  untouched := h.untouched
  inv := hs.inv
  locked p hp := hheld _ (h.locked p hp)
  found p hp := (hs.keeps _ (h.locked p hp)).1.trans (h.found p hp)

theorem Holding.feesOf (h : Holding payments l) {s : DB} (hs : l.Sees settlementDiscipline s)
    {p : Payment} (hp : p ∈ payments) : s.toBooks.feesOf p.id = l.last.toBooks.feesOf p.id := by
  have hsame : s.toBooks.successes p.id = l.last.toBooks.successes p.id :=
    (hs.keeps _ (h.locked p hp)).2
  unfold Books.feesOf
  rw [hsame]

theorem selectForUpdate_lwp (keep : Payment → Bool) (found : List Payment) (hpend : l.pend = id)
    (hinv : l.last.toBooks.SettlementTables) :
    (selectForUpdate keep found).lwp settlementDiscipline l
      (fun payments l' => Holding payments l' ∧ (∀ p ∈ payments, keep p = true) ∧
        (payments.map (·.id)).Sublist (found.map (·.id)) ∧ (∀ k ∈ l.held, k ∈ l'.held) ∧
        l.Sees settlementDiscipline l'.last)
      fun _ _ => True := by
  induction found generalizing l with
  | nil =>
      exact ⟨⟨hpend, hinv, fun _ hp => absurd hp List.not_mem_nil,
        fun _ hp => absurd hp List.not_mem_nil⟩, fun _ hp => absurd hp List.not_mem_nil,
        List.Sublist.refl _, fun _ hk => hk, Local.Sees.of_last hinv⟩
  | cons payment rest ih =>
      simp only [selectForUpdate, Txn.lwp_bind, Txn.lwp_acquire, Txn.lwp_fetch]
      intro s hs v hv
      have hlv : l.Sees settlementDiscipline v := hs.locked hv
      refine Txn.lwp_consequence (ih (l := ⟨.payment payment.id :: l.held, l.pend, v⟩) hpend hv.inv)
        (fun payments l' hl' => ?_) fun _ _ h => h
      obtain ⟨hholding, hkeep, hsub, hheld, hsees⟩ := hl'
      have hkey : .payment payment.id ∈ l'.held := hheld _ List.mem_cons_self
      have hrow : ∀ p ∈ (v.toBooks.payment? payment.id).filter keep, p.id = payment.id ∧
          keep p = true ∧ l'.last.toBooks.payment? payment.id = some p := by
        intro p hp
        obtain ⟨hsome, hp⟩ := Option.mem_filter_iff.mp hp
        exact ⟨(payment?_mem hsome).2, hp, (hsees.keeps _ List.mem_cons_self).1.trans hsome⟩
      rw [hpend, id_eq]
      change Holding (((v.toBooks.payment? payment.id).filter keep).toList ++ payments) l' ∧ _
      refine ⟨⟨hholding.untouched, hholding.inv, fun p hp => ?_, fun p hp => ?_⟩, fun p hp => ?_,
        ?_, fun k hk => hheld k (List.mem_cons_of_mem _ hk),
        hlv.trans (fun _ hk => List.mem_cons_of_mem _ hk) hsees⟩
      · rcases List.mem_append.mp hp with hp | hp
        · rw [(hrow p (Option.mem_toList.mp hp)).1]
          exact hkey
        · exact hholding.locked p hp
      · rcases List.mem_append.mp hp with hp | hp
        · obtain ⟨hid, -, hfound⟩ := hrow p (Option.mem_toList.mp hp)
          rw [hid]
          exact hfound
        · exact hholding.found p hp
      · rcases List.mem_append.mp hp with hp | hp
        · exact (hrow p (Option.mem_toList.mp hp)).2.1
        · exact hkeep p hp
      · rw [List.map_append, List.map_cons]
        cases hfiltered : (v.toBooks.payment? payment.id).filter keep with
        | none => exact hsub.cons _
        | some p =>
            have hid := (hrow p hfiltered).1
            change (p.id :: payments.map (·.id)).Sublist _
            rw [hid]
            exact hsub.cons_cons _

/-- The payments and what the platform earned on them. -/
structure Priced (payments : List Payment) (fees : Money) (l : Local DB Resource) : Prop
    extends Holding payments l where
  fees_eq : fees = (payments.map fun p => l.last.toBooks.feesOf p.id).sum

theorem Priced.sees {fees : Money} (h : Priced payments fees l) {s : DB} {held : List Resource}
    (hheld : ∀ k ∈ l.held, k ∈ held) (hs : l.Sees settlementDiscipline s) :
    Priced payments fees ⟨held, l.pend, s⟩ where
  toHolding := h.toHolding.sees hheld hs
  fees_eq := by
    rw [h.fees_eq]
    exact congrArg List.sum (List.map_congr_left fun p hp => (h.toHolding.feesOf hs hp).symm)

variable {env : Env} {tenant provider : ℕ} {periodStart periodEnd : Time}

theorem generateSettlementBatch_lwp (hpend : l.pend = id) :
    (generateSettlementBatch env tenant provider periodStart periodEnd).lwp settlementDiscipline l
      Built fun _ _ => True := by
  unfold generateSettlementBatch
  simp only [Txn.lwp_bind, Txn.lwp_fetch]
  intro s hs
  refine Txn.lwp_consequence
    (selectForUpdate_lwp (l := { l with last := s }) _ _ hpend hs.inv) (fun payments l₁ hl₁ => ?_)
    fun _ _ h => h
  obtain ⟨hholding, hkeep, hsub, -, -⟩ := hl₁
  obtain ⟨held₁, pend₁, last₁⟩ := l₁
  obtain rfl : pend₁ = id := hholding.untouched
  rw [hpend, id_eq] at hsub
  have hids : (payments.map (·.id)).Nodup :=
    (hs.inv.payments.sublist (List.filter_sublist.map _)).sublist hsub
  intro s₂ hs₂
  have h₂ := hholding.sees (fun _ hk => hk) hs₂
  have hpriced : Priced payments (s₂.toBooks.platformFees tenant payments) ⟨held₁, id, s₂⟩ :=
    ⟨h₂, platformFees_eq h₂.inv hids fun p hp =>
      ⟨(payment?_mem (h₂.found p hp)).1, unsettled_tenant (hkeep p hp)⟩⟩
  dsimp only [id_eq]
  generalize s₂.toBooks.platformFees tenant payments = fees at hpriced ⊢
  simp only [getTenant, lwp_getRow, lwp_storeNumeric, insertBatch, Txn.lwp_bind, Txn.lwp_acquire,
    Txn.lwp_fetch, lwp_raiseIf, lwp_onBooks, recordAuditEvent, lwp_onTrail]
  intro s₃ hs₃
  refine ⟨fun row _ => ⟨fun gross hgross => ⟨fun fee hfee => ⟨fun net hnet s₄ hs₄ s₅ hs₅ s₆ hs₆ =>
    ⟨fun _ => trivial, fun hclash => ⟨fun _ => trivial, fun _ => ?_⟩⟩, fun _ => trivial⟩,
    fun _ => trivial⟩, fun _ => trivial⟩, fun _ => trivial⟩
  have h₃ := hpriced.sees (fun _ hk => hk) hs₃
  have h₄ := h₃.sees (fun _ hk => List.mem_cons_of_mem (.batch env.gen.batchId) hk) hs₄
  have h₅ := h₄.sees
    (fun _ hk => List.mem_cons_of_mem (.batchReference tenant env.gen.batchReference) hk) hs₅
  have h₆ := h₅.sees (fun _ hk => hk) hs₆
  rw [id_eq, List.any_eq_true] at hclash
  constructor
  · refine ⟨payments, ⟨hids, h₆.found, hkeep, Numeric.ofMoney?_cents hgross,
      (Numeric.ofMoney?_cents hfee).trans h₆.fees_eq, ?_, fun row hrow hid =>
        hclash ⟨row, hrow, ?_⟩⟩,
      h₆.locked, fun t => ?_⟩
    · rw [Numeric.ofMoney?_cents hnet, Numeric.ofMoney?_cents hgross, Numeric.ofMoney?_cents hfee]
      exact (sub_zero _).symm
    · exact Bool.or_eq_true_iff.mpr (Or.inl (decide_eq_true hid))
    · rfl
  · exact List.mem_cons_of_mem _ List.mem_cons_self

end Building

end Kusanya
