import Kusanya.Moves.Rules

/-!
# The moves of bills and control numbers

`get_or_create_bill`, `cancel_bill`, `get_or_create_for_bill`,
`get_or_create_for_account` and the two operations that retire control numbers.
-/

namespace Kusanya

open ReadCommitted

variable {κ : Call → Prop} {φ : Resource → DB → Prop} {pend : DB → DB}
variable {R : Error → (DB → DB) → Prop} {env : Env}

/-! ## Frames -/

theorem dispatchBillEvent_onTrail (env : Env) (bill : Bill) (totalAmount eventType : String) :
    OnTrail (dispatchBillEvent env bill totalAmount eventType) :=
  Txn.frame_bind (getRow_onTrail _ _) fun _ => dispatchEvent_onTrail _ _ _ _

theorem notifyBillCreated_onTrail (env : Env) (bill : Bill) :
    OnTrail (notifyBillCreated env bill) :=
  Txn.frame_bind (Txn.frame_bind (getRow_onTrail _ _) fun _ => getRow_onTrail _ _) fun _ =>
    Txn.frame_bind (getRow_onTrail _ _) fun _ => sendNotification_onTrail _ _ _ _ _ _

theorem notifyControlNumberGenerated_onTrail (env : Env) (cn : ControlNumber) :
    OnTrail (notifyControlNumberGenerated env cn) := by
  have howner : OnTrail (ownerOf cn) := by
    unfold ownerOf
    split
    · exact Txn.frame_bind (getRow_onTrail _ _) fun _ => Txn.frame_ret _
    · exact Txn.frame_ret _
  exact Txn.frame_bind howner fun _ => Txn.frame_bind
    (Txn.frame_bind (getRow_onTrail _ _) fun _ => getRow_onTrail _ _) fun _ =>
      Txn.frame_bind (getRow_onTrail _ _) fun _ => sendNotification_onTrail _ _ _ _ _ _

/-! ## Bills -/

/-- The bill object is what some read found, own writes included. -/
def View.HoldsBill (view : View) (bill : Bill) : Prop :=
  view.Sees fun _ b => bill ∈ b.bills

/-- What the savepoint of `get_or_create_bill` found for the bill it leaves. -/
structure Drafted (view : View) (tenant : ℕ) (items : List BillItem) (bill : Bill) : Prop where
  guard : ∀ now, (Move.openBill items bill now).Guard view
  tenant_eq : bill.tenant = tenant

/-- Writing `f` to one bill keeps the bill's identity when `f` does. -/
theorem exists_updateBill {books : Books} {id tenant target : ℕ} {f : Bill → Bill}
    (hf : ∀ row, (f row).id = row.id ∧ (f row).tenant = row.tenant)
    (h : ∃ row ∈ books.bills, row.id = id ∧ row.tenant = tenant) :
    ∃ row ∈ (books.updateBill target f).bills, row.id = id ∧ row.tenant = tenant := by
  obtain ⟨row, hmem, hid, htenant⟩ := h
  refine ⟨if row.id = target then f row else row, List.mem_map_of_mem hmem, ?_⟩
  split
  · exact ⟨(hf row).1.trans hid, (hf row).2.trans htenant⟩
  · exact ⟨hid, htenant⟩

/-- A row belongs to the tenant and the bill that it is stored for. -/
theorem row?_owned {tenant bill : ℕ} {item : ItemInput} {row : BillItem}
    (h : item.row? tenant bill = some row) : row.tenant = tenant ∧ row.bill = bill := by
  unfold ItemInput.row? at h
  split at h
  · obtain ⟨unitAmount, -, hrow⟩ := Option.bind_eq_some_iff.mp h
    obtain ⟨lineTotal, -, rfl⟩ := Option.map_eq_some_iff.mp hrow
    exact ⟨rfl, rfl⟩
  · cases h

/-- What a list is mapped to comes from its members. -/
theorem mem_of_mapM {α β : Type} {f : α → Option β} {as : List α} {bs : List β}
    (h : as.mapM f = some bs) {b : β} (hb : b ∈ bs) : ∃ a ∈ as, f a = some b := by
  induction as generalizing bs with
  | nil =>
      obtain rfl : [] = bs := by simpa using h
      exact absurd hb List.not_mem_nil
  | cons a as ih =>
      simp only [List.mapM_cons, Option.bind_eq_bind, Option.bind_eq_some_iff, Option.pure_def,
        Option.some.injEq] at h
      obtain ⟨x, hx, rest, hrest, rfl⟩ := h
      rcases List.mem_cons.mp hb with rfl | hb
      · exact ⟨a, List.mem_cons_self, hx⟩
      · obtain ⟨a', ha', hb'⟩ := ih hrest hb
        exact ⟨a', List.mem_cons_of_mem _ ha', hb'⟩

/-- The rows of `bulk_create` belong to the bill. -/
theorem items_bill {tenant bill : ℕ} {items : List ItemInput} {rows : List BillItem}
    (h : items.mapM (·.row? tenant bill) = some rows) : ∀ row ∈ rows, row.bill = bill := by
  intro row hrow
  obtain ⟨item, -, hstored⟩ := mem_of_mapM h hrow
  exact (row?_owned hstored).2

theorem wp_insertBill {Q : Unit → (DB → DB) → Prop} {bill : Bill} (hR : ∀ e p, R e p)
    (hQ : ∀ pend', (viewOf φ pend).Sees (fun _ b => b.billClash bill = false) →
      Writes (·.addBill bill) pend pend' → Q () pend') :
    (insertBill bill).wp κ φ pend Q R := by
  simp only [insertBill, Txn.wp_bind, wp_raiseIf, wp_checkVarchar, Txn.wp_acquire,
    wp_acquireUnlessBlank, Txn.wp_fetch,
    wp_onBooks]
  refine ⟨fun _ v hv => ⟨fun _ => hR _ _, fun hclash => ?_⟩, fun _ => hR _ _⟩
  refine hQ _ ?_ (writes_inBooks _ _)
  exact (seesAt_viewOf (P := fun _ b => b.billClash bill = false) hv
    (Bool.eq_false_iff.mpr hclash)).sees

/-- The body of the savepoint of `get_or_create_bill`. -/
theorem wp_createBill {Q : Bill → (DB → DB) → Prop} {input : BillInput} {k : ℕ}
    (haccount : (viewOf φ pend).Sees fun d _ => ∃ account ∈ d.accounts,
      account.id = input.customerAccount ∧ account.tenant = input.tenant)
    (hR : ∀ e p, R e p)
    (hQ : ∀ items bill pend', Drafted (viewOf φ pend) input.tenant items bill →
      Writes (·.draftBill items bill) pend pend' → Q bill pend') :
    (createBill env input k).wp κ φ pend Q R := by
  simp only [createBill, Txn.wp_bind]
  generalize hbill : input.newBill (env.gen.billId k) (env.gen.billNumber k) = bill
  have htenant : bill.tenant = input.tenant := by rw [← hbill]; rfl
  have hdraft : bill.status = .draft := by rw [← hbill]; rfl
  have hzero : bill.totalAmount = .zero := by rw [← hbill]; rfl
  have hcustomer : bill.customerAccount = input.customerAccount := by rw [← hbill]; rfl
  have hcurrency : bill.currency = "TZS" := by rw [← hbill]; rfl
  refine wp_insertBill hR fun p₁ hclash h₁ => ?_
  unfold createItems
  split
  · exact hR _ _
  · next rows hrows =>
      simp only [wp_onBooks, Bill.recalculateTotal, Txn.wp_bind, Txn.wp_fetch, wp_storeNumeric,
        Txn.wp_acquire, Txn.pure_eq_ret, Txn.wp_ret]
      intro v hv
      refine ⟨fun total htotal => ?_, fun _ => hR _ _⟩
      have hitems :
          ((pend v).billItems ++ rows) = (inBooks (·.addItems rows) (p₁ v)).billItems := by
        have hbooks : (p₁ v).toBooks = (pend v).toBooks.addBill bill := congrArg Prod.snd (h₁ v)
        change _ = (p₁ v).toBooks.billItems ++ rows
        rw [hbooks]
        rfl
      have hdrafted :
          Drafted (viewOf φ pend) input.tenant rows { bill with totalAmount := total } :=
        { guard := fun now => ⟨hdraft, items_bill hrows, hclash, hcurrency,
            (seesAt_viewOf (P := fun _ b => total.cents =
              (((b.billItems ++ rows).filter (·.bill = bill.id)).map (·.lineTotal.cents)).sum) hv
              (by rw [hitems]; exact Numeric.ofMoney?_cents htotal)).sees,
            by rw [← hcustomer, ← htenant] at haccount; exact haccount⟩
          tenant_eq := htenant }
      have hwrites : Writes (·.draftBill rows { bill with totalAmount := total }) pend
          (inBooks (·.updateBill bill.id fun row => { row with totalAmount := total }) ∘
            inBooks (·.addItems rows) ∘ p₁) := by
        have hdraftBill : (fun b : Books => b.draftBill rows { bill with totalAmount := total }) =
            (fun b => (b.addItems rows).updateBill bill.id fun row =>
              { row with totalAmount := total }) ∘ fun b => b.addBill bill := by
          funext b
          simp only [Books.draftBill, Function.comp, ← hzero]
        rw [hdraftBill]
        exact h₁.trans fun s => rfl
      refine (recordAuditEvent_onTrail _ _ _ _ _ _).wp (fun _ p₂ h₂ => ?_) fun e p _ _ => hR e p
      refine (dispatchBillEvent_onTrail _ _ _ _).wp (fun _ p₃ h₃ => ?_) fun e p _ _ => hR e p
      refine (notifyBillCreated_onTrail _ _).wp (fun _ p₄ h₄ => ?_) fun e p _ _ => hR e p
      exact hQ rows _ p₄ hdrafted (((hwrites.then_core h₂).then_core h₃).then_core h₄)

/-- What `get_or_create_bill` did: nothing for a bill that was there. -/
inductive BillGot (φ : Resource → DB → Prop) (tenant : ℕ) (pend pend' : DB → DB) :
    Bill × Bool → Prop
  | existing {bill : Bill} (h : ∀ s, (pend' s).core = (pend s).core) :
      BillGot φ tenant pend pend' (bill, false)
  | created {bill : Bill} {items : List BillItem}
      (drafted : Drafted (viewOf φ pend) tenant items bill)
      (writes : Writes (·.draftBill items bill) pend pend') :
      BillGot φ tenant pend pend' (bill, true)

theorem wp_billAttempts {Q : Bill × Bool → (DB → DB) → Prop} {input : BillInput}
    (haccount : (viewOf φ pend).Sees fun d _ => ∃ account ∈ d.accounts,
      account.id = input.customerAccount ∧ account.tenant = input.tenant)
    (hR : ∀ e p, R e p)
    (hQ : ∀ result pend', BillGot φ input.tenant pend pend' result → Q result pend')
    (left k : ℕ) : (billAttempts env input k left).wp κ φ pend Q R := by
  induction left generalizing k with
  | zero => exact hR _ _
  | succ left ih =>
      simp only [billAttempts, Txn.wp_bind]
      refine Txn.wp_tryAtomic (Txn.wp_consequence (wp_createBill haccount
        (R := fun _ _ => True) (fun _ _ => trivial)
        fun items bill p₁ hdrafted h₁ => ?_) (fun _ _ h => h) fun e p _ => ?_)
      · exact hQ _ p₁ (.created hdrafted h₁)
      · split
        · rw [Txn.wp_bind]
          unfold billByReference
          rw [Txn.wp_ite]
          refine ⟨fun _ => ih (k + 1), fun _ => ?_⟩
          rw [Txn.wp_fetch]
          intro v hv
          split
          · exact hQ _ _ (.existing fun _ => rfl)
          · exact ih (k + 1)
        · exact hR _ _

theorem wp_getOrCreateBill {Q : Bill × Bool → (DB → DB) → Prop} {input : BillInput}
    (haccount : (viewOf φ pend).Sees fun d _ => ∃ account ∈ d.accounts,
      account.id = input.customerAccount ∧ account.tenant = input.tenant)
    (hR : ∀ e p, R e p)
    (hQ : ∀ result pend', BillGot φ input.tenant pend pend' result → Q result pend') :
    (getOrCreateBill env input).wp κ φ pend Q R := by
  simp only [getOrCreateBill, Txn.wp_bind, billByReference, Txn.wp_ite, Txn.wp_fetch,
    Txn.pure_eq_ret, Txn.wp_ret]
  refine ⟨fun _ => wp_billAttempts haccount hR hQ 3 0, fun _ v hv => ?_⟩
  split
  · exact hQ _ _ (.existing fun _ => rfl)
  · exact wp_billAttempts haccount hR hQ 3 0

/-- A new bill made active: the one move of the views that create bills. -/
theorem wp_activate {Q : Bill → (DB → DB) → Prop} {start : DB → DB} {tenant : ℕ} {bill : Bill}
    {items : List BillItem} (hdrafted : Drafted (viewOf φ start) tenant items bill)
    (hwrites : Writes (·.draftBill items bill) start pend) (hR : ∀ e p, R e p)
    (hQ : ∀ pend', Effect φ start [.openBill items bill env.now] pend' →
      (viewOf φ pend').Sees (fun d b => (Owner.bill bill.id).Exists tenant d b) →
      Q (bill.moveTo env.now .active) pend') :
    (bill.transitionTo env .active).wp κ φ pend Q R := by
  refine wp_billTransitionTo env bill .active (fun m _ => hR _ _) fun _ => ?_
  have heffect : Effect φ start [.openBill items bill env.now]
      (inBooks (·.saveBill (bill.moveTo env.now .active)) ∘ pend) :=
    Effect.single (hdrafted.guard _) (hwrites.trans (writes_inBooks _ _))
  refine hQ _ heffect ?_
  obtain ⟨-, -, hclash, -⟩ := hdrafted.guard env.now
  rw [heffect.view, View.sees_map]
  refine hclash.mono fun d b _ => ?_
  have hadded : ∃ row ∈ ((b.addBill { bill with totalAmount := .zero }).addItems items).bills,
      row.id = bill.id ∧ row.tenant = tenant :=
    ⟨_, List.mem_append_right _ List.mem_cons_self, rfl, hdrafted.tenant_eq⟩
  have hopened : ∃ row ∈ (b.draftBill items bill).bills, row.id = bill.id ∧ row.tenant = tenant :=
    exists_updateBill (fun row => ⟨rfl, rfl⟩) hadded
  exact exists_updateBill (fun row => ⟨rfl, rfl⟩) hopened

/-! ## Control numbers -/

/-- The moves of a `get_or_create_for_…`. -/
inductive Issued (env : Env) (tenant : ℕ) (owner : Owner) : List Move → Prop
  | kept : Issued env tenant owner []
  | reused {cn : ControlNumber} {currency : String} :
      Issued env tenant owner [.note (cn.event env currency .controlNumberReused .zero none)]
  | created {cn : ControlNumber} {currency : String} (howner : cn.owner = owner)
      (htenant : cn.tenant = tenant) : Issued env tenant owner [.issue env cn currency]

theorem wp_createControlNumber {Q : ControlNumber → (DB → DB) → Prop} {tenant : ℕ}
    {owner : Owner} {scope : ControlNumberScope} {expiresAt : Option Time} {k : ℕ}
    (howner : (viewOf φ pend).Sees fun d b => owner.Exists tenant d b) (hR : ∀ e p, R e p)
    (hQ : ∀ ms cn pend', Issued env tenant owner ms → Effect φ pend ms pend' → Q cn pend') :
    (createControlNumber env tenant owner scope expiresAt k).wp κ φ pend Q R := by
  simp only [createControlNumber, insertControlNumber, Txn.wp_bind, wp_raiseIf, Txn.wp_acquire,
    Txn.wp_fetch, wp_onBooks]
  intro v hv
  refine ⟨fun _ => hR _ _, fun hclash => ?_⟩
  generalize hcn : (ControlNumber.mk (env.gen.controlNumberId k) tenant
    (env.gen.controlNumberValue k) scope .active owner expiresAt none env.actor) = cn at hclash ⊢
  have hcnowner : cn.owner = owner := by rw [← hcn]
  have hcntenant : cn.tenant = tenant := by rw [← hcn]
  refine (recordAuditEvent_onTrail _ _ _ _ _ _).wp (fun _ p₁ h₁ => ?_) fun e p _ _ => hR e p
  simp only [recordControlNumberCreated, getTenant, Txn.wp_bind, wp_getRow, Txn.pure_eq_ret,
    Txn.wp_ret]
  intro u hu
  refine ⟨fun row hrow => ?_, fun _ => hR _ _⟩
  refine wp_postEntry (hR _ _) (wp_recordEvent (hR _ _) ?_)
  have hwrites : Writes (Move.issue env cn row.defaultCurrency).run pend
      (inBooks (fun b => (b.post (cn.fee env row.defaultCurrency)).record
        (cn.createdEvent env row.defaultCurrency)) ∘ p₁) :=
    ((writes_inBooks (·.addControlNumber cn) pend).then_core h₁).trans
      (writes_inBooks (fun b => (b.post (cn.fee env row.defaultCurrency)).record
        (cn.createdEvent env row.defaultCurrency)) p₁)
  have hdirectory : ∀ s, (p₁ s).toDirectory = (pend s).toDirectory := fun s =>
    congrArg Prod.fst (h₁ s)
  have heffect : Effect φ pend [.issue env cn row.defaultCurrency] _ := Effect.single
    ⟨(seesAt_viewOf (P := fun _ b => b.controlNumberClash cn = false) hv
      (Bool.eq_false_iff.mpr hclash)).sees, by rw [hcnowner, hcntenant]; exact howner,
      (seesAt_viewOf (P := fun d _ => ∃ tenant, d.tenants.find? (·.id = cn.tenant) = some tenant ∧
        row.defaultCurrency = tenant.defaultCurrency) hu
        ⟨row, by rw [← hdirectory u]; exact hrow, rfl⟩).sees⟩ hwrites
  refine (notifyControlNumberGenerated_onTrail _ _).wp (fun _ p₂ h₂ => ?_) fun e p _ _ => hR e p
  exact hQ _ cn p₂ (.created hcnowner hcntenant) (heffect.then_core h₂)

theorem wp_controlNumberAttempts {Q : ControlNumber × Bool → (DB → DB) → Prop} {tenant : ℕ}
    {owner : Owner} {lookup : Tx (Option ControlNumber)} {create : ℕ → Tx ControlNumber}
    (hlookup : OnTrail lookup)
    (hcreate : ∀ k p, (viewOf φ p = viewOf φ pend) → (create k).wp κ φ p (fun _ pend' =>
      ∃ ms, Issued env tenant owner ms ∧ Effect φ p ms pend') fun _ _ => True)
    (hR : ∀ e p, R e p)
    (hQ : ∀ ms result pend', Issued env tenant owner ms → Effect φ pend ms pend' →
      Q result pend') (left k : ℕ) (start : DB → DB)
    (hstart : ∀ s, (start s).core = (pend s).core) :
    (controlNumberAttempts env lookup create k left).wp κ φ start Q R := by
  induction left generalizing k start with
  | zero => exact hR _ _
  | succ left ih =>
      simp only [controlNumberAttempts, Txn.wp_bind]
      refine Txn.wp_tryAtomic (Txn.wp_consequence (hcreate k start (viewOf_core hstart)) ?_ ?_)
      · rintro cn p₁ ⟨ms, hissued, h₁⟩
        exact hQ ms _ p₁ hissued ((Effect.of_core hstart).trans h₁)
      · intro e p _
        split
        · rw [Txn.wp_bind]
          refine hlookup.wp (fun found p₂ h₂ => ?_) fun e p _ _ => hR e p
          have h₂' : ∀ s, (p₂ s).core = (pend s).core := fun s => (h₂ s).trans (hstart s)
          split
          · exact hQ [] _ p₂ .kept (Effect.of_core h₂')
          · exact ih (k + 1) p₂ h₂'
        · exact hR _ _

theorem wp_getOrCreateControlNumber {Q : ControlNumber × Bool → (DB → DB) → Prop} {tenant : ℕ}
    {owner : Owner} {lookup : Tx (Option ControlNumber)} {scope : ControlNumberScope}
    {expiresAt : Option Time} (hlookup : OnTrail lookup)
    (howner : (viewOf φ pend).Sees fun d b => owner.Exists tenant d b) (hR : ∀ e p, R e p)
    (hQ : ∀ ms result pend', Issued env tenant owner ms → Effect φ pend ms pend' →
      Q result pend') :
    (getOrCreateControlNumber env tenant lookup
      (createControlNumber env tenant owner scope expiresAt)).wp κ φ pend Q R := by
  simp only [getOrCreateControlNumber, Txn.wp_bind]
  refine hlookup.wp (fun found p₀ h₀ => ?_) fun e p _ _ => hR e p
  split
  · next existing =>
      simp only [Txn.wp_bind]
      refine (recordAuditEvent_onTrail _ _ _ _ _ _).wp (fun _ p₁ h₁ => ?_) fun e p _ _ => hR e p
      simp only [recordControlNumberReused, getTenant, Txn.wp_bind, wp_getRow, Txn.pure_eq_ret,
        Txn.wp_ret]
      intro v hv
      refine ⟨fun row _ => ?_, fun _ => hR _ _⟩
      refine wp_recordEvent (hR _ _) ?_
      have hnote : Effect φ p₁
          [.note (existing.event env row.defaultCurrency .controlNumberReused .zero none)]
          (inBooks (·.record
            (existing.event env row.defaultCurrency .controlNumberReused .zero none)) ∘ p₁) :=
        Effect.single ⟨rfl, rfl, Or.inl rfl⟩ (writes_inBooks _ _)
      exact hQ _ _ _ .reused
        ((Effect.of_core fun s => (h₁ s).trans (h₀ s)).trans hnote)
  · refine wp_controlNumberAttempts hlookup (fun k p hview => ?_) hR hQ 5 0 p₀ h₀
    refine wp_createControlNumber (hview ▸ howner) (fun _ _ => trivial)
      fun ms cn pend' hissued heffect => ⟨ms, hissued, heffect⟩

theorem wp_getOrCreateForBill {Q : ControlNumber × Bool → (DB → DB) → Prop} {tenant : ℕ}
    {bill : Bill} {expiresAt : Option Time}
    (howner : (viewOf φ pend).Sees fun d b => (Owner.bill bill.id).Exists tenant d b)
    (hR : ∀ e p, R e p)
    (hQ : ∀ ms result pend', Issued env tenant (.bill bill.id) ms → Effect φ pend ms pend' →
      Q result pend') :
    (getOrCreateForBill env tenant bill expiresAt).wp κ φ pend Q R :=
  wp_getOrCreateControlNumber (Txn.frame_fetch _ _) howner hR hQ

theorem wp_getOrCreateForAccount {Q : ControlNumber × Bool → (DB → DB) → Prop} {tenant : ℕ}
    {account : CustomerAccount} {expiresAt : Option Time}
    (howner : (viewOf φ pend).Sees fun d b => (Owner.customerAccount account.id).Exists tenant d b)
    (hR : ∀ e p, R e p)
    (hQ : ∀ ms result pend', Issued env tenant (.customerAccount account.id) ms →
      Effect φ pend ms pend' → Q result pend') :
    (getOrCreateForAccount env tenant account expiresAt).wp κ φ pend Q R :=
  wp_getOrCreateControlNumber (Txn.frame_fetch _ _) howner hR hQ

theorem wp_cancelControlNumber {Q : Unit → (DB → DB) → Prop} {cn : ControlNumber}
    (hR : ∀ e p, R e p)
    (hQ : ∀ f pend', Effect φ pend [.editControlNumbers f] pend' → Q () pend') :
    (cancelControlNumber env cn).wp κ φ pend Q R := by
  simp only [cancelControlNumber, Txn.wp_bind, Txn.wp_acquire, wp_onBooks]
  refine (recordAuditEvent_onTrail _ _ _ _ _ _).wp (fun _ p₁ h₁ => ?_) fun e p _ _ => hR e p
  have hguard : (Move.editControlNumbers fun row => if row.id = cn.id then
      { row with status := .cancelled, cancelledAt := some env.now } else row).Guard
      (viewOf φ pend) := by
    intro row
    dsimp only
    split
    · exact ⟨.cancelled, some env.now, rfl⟩
    · exact ⟨row.status, row.cancelledAt, rfl⟩
  exact hQ _ p₁ ((Effect.single hguard (writes_inBooks _ _)).then_core h₁)

theorem lockControlNumbers_onTrail (keep : ControlNumber → Bool) (rows : List ControlNumber) :
    OnTrail (lockControlNumbers keep rows) := by
  induction rows with
  | nil => exact Txn.frame_ret _
  | cons cn rest ih =>
      have hlock : OnTrail (Txn.acquire (.controlNumber cn.id)) := fun _ _ => rfl
      exact Txn.frame_bind hlock fun _ => Txn.frame_bind (Txn.frame_fetch _ _) fun _ =>
        Txn.frame_bind ih fun _ => Txn.frame_ret _

theorem wp_expireOverdue {Q : Unit → (DB → DB) → Prop} {tenant : Option ℕ}
    (hR : ∀ e p, R e p)
    (hQ : ∀ f pend', Effect φ pend [.editControlNumbers f] pend' → Q () pend') :
    (expireOverdue env tenant).wp κ φ pend Q R := by
  simp only [expireOverdue, Txn.wp_bind, Txn.wp_fetch]
  intro v hv
  refine (lockControlNumbers_onTrail _ _).wp (fun rows p₁ h₁ => ?_) fun e p _ _ => hR e p
  rw [wp_onBooks]
  have hguard : (Move.editControlNumbers fun row =>
      if rows.any (·.id = row.id) then { row with status := .expired } else row).Guard
      (viewOf φ pend) := by
    intro row
    dsimp only
    split
    · exact ⟨.expired, row.cancelledAt, rfl⟩
    · exact ⟨row.status, row.cancelledAt, rfl⟩
  exact hQ _ _ (Effect.single hguard ((writes_inBooks _ _).after_core h₁))

theorem wp_cancelBill {Q : Bill → (DB → DB) → Prop} {bill : Bill}
    (hheld : (viewOf φ pend).HoldsBill bill)
    (hR : ∀ e p, (e.isValidationError = true → p = pend) → R e p)
    (hQ : ∀ pend', .cancelled ∈ bill.status.allowedTransitions →
      Effect φ pend [.cancelBill (bill.moveTo env.now .cancelled)] pend' →
      Q (bill.moveTo env.now .cancelled) pend') :
    (cancelBill env bill).wp κ φ pend Q R := by
  have hR' : ∀ e p, e.isValidationError = false → R e p := fun e p he =>
    hR e p fun h => by simp [he] at h
  simp only [cancelBill, Txn.wp_bind]
  refine wp_billTransitionTo env bill .cancelled (fun m _ => hR _ _ fun _ => rfl) fun hallowed => ?_
  have h₁ : Effect φ pend [.cancelBill (bill.moveTo env.now .cancelled)]
      (inBooks (·.saveBill (bill.moveTo env.now .cancelled)) ∘ pend) :=
    Effect.single ⟨bill, env.now, hheld, hallowed, rfl⟩ (writes_inBooks _ _)
  refine (recordAuditEvent_onTrail _ _ _ _ _ _).wp (fun _ p₂ h₂ => ?_) fun e p he _ => hR' e p he
  refine (dispatchBillEvent_onTrail _ _ _ _).wp (fun _ p₃ h₃ => ?_) fun e p he _ => hR' e p he
  exact hQ p₃ hallowed ((h₁.then_core h₂).then_core h₃)

end Kusanya
