import Kusanya.System.Tenancy

/-!
# A request leaves the other tenants alone

What a request writes belongs to one tenant: the one in whose name it runs, or for a provider's
callback the tenant of the payment that it matches.  The rows of every other tenant are after the
commit what they were before it, however many requests of those tenants run at the same time.
-/

namespace Kusanya

open ReadCommitted Support

/-! ## Other tenants -/

/-- The rows of the other tenants.  Callback rows belong to a provider, not to a tenant. -/
def Books.elsewhere (tenant : ℕ) (b : Books) : Books :=
  { bills := b.bills.filter (·.tenant ≠ tenant)
    billItems := b.billItems.filter (·.tenant ≠ tenant)
    controlNumbers := b.controlNumbers.filter (·.tenant ≠ tenant)
    payments := b.payments.filter (·.tenant ≠ tenant)
    allocations := b.allocations.filter (·.tenant ≠ tenant)
    callbackEvents := []
    ledger := b.ledger.filter (·.tenant ≠ tenant)
    revenue := b.revenue.filter (·.tenant ≠ tenant)
    receipts := b.receipts.filter (·.tenant ≠ tenant)
    batches := b.batches.filter (·.tenant ≠ tenant) }

/-- The tenants' own rows are the only ones of the directory that a request saves. -/
def Directory.elsewhere (tenant : ℕ) (d : Directory) : Directory :=
  { d with tenants := d.tenants.filter (·.id ≠ tenant) }

/-- The move writes rows of the tenant only, where the rows of `t` are those that there are. -/
structure Move.OnlyOf (tenant : ℕ) (t : Books) (m : Move) : Prop where
  bills : ∀ row, (∃ r ∈ t.bills, r.fixed = row.fixed) → row.tenant ≠ tenant → m.onBill row = row
  controlNumbers : ∀ row, (∃ r ∈ t.controlNumbers, r.fixed = row.fixed) → row.tenant ≠ tenant →
    m.onControlNumber row = row
  payments : ∀ row, (∃ r ∈ t.payments, r.fixed = row.fixed) → row.tenant ≠ tenant →
    m.onPayment row = row
  batches : ∀ row, (∃ r ∈ t.batches, r.fixed = row.fixed) → row.tenant ≠ tenant →
    m.onBatch row = row
  openedBills : ∀ row ∈ m.openedBills, row.tenant = tenant
  addedItems : ∀ row ∈ m.addedItems, row.tenant = tenant
  issued : ∀ row ∈ m.issued, row.tenant = tenant
  opened : ∀ row ∈ m.opened, row.tenant = tenant
  allocations : ∀ row ∈ m.allocations, row.tenant = tenant
  postings : ∀ row ∈ m.postings, row.tenant = tenant
  events : ∀ e ∈ m.events, e.tenant = tenant
  receipts : ∀ row ∈ m.receipts, row.tenant = tenant
  openedBatches : ∀ row ∈ m.openedBatches, row.tenant = tenant

section Elsewhere

variable {tenant : ℕ} {t b : Books} {m : Move} {ms : List Move} {view : View}

/-- One move. -/
theorem Move.OnlyOf.run_elsewhere (h : m.OnlyOf tenant t) (hb : b.Grows t)
    (hguard : m.Guard view) (horderly : m.Orderly) :
    (m.run b).elsewhere tenant = b.elsewhere tenant := by
  have hnew : ∀ {α : Type} {tenantOf : α → ℕ} {rows : List α},
      (∀ row ∈ rows, tenantOf row = tenant) →
      ∀ row ∈ rows, decide (tenantOf row ≠ tenant) = false := by
    intro α tenantOf rows hrows row hrow
    simp [hrows row hrow]
  unfold Books.elsewhere
  rw [m.run_bills, m.run_billItems, m.run_controlNumbers, m.run_payments, m.run_allocations,
    m.run_ledger, m.run_revenue, m.run_receipts, m.run_batches]
  congr 1
  · refine filter_map_append (fun row _ => ?_) (fun row hrow hother => ?_) (hnew h.openedBills)
    · have htenant : (m.onBill row).tenant = row.tenant :=
        congrArg Bill.Fixed.tenant (m.onBill_fixed row)
      rw [htenant]
    · exact h.bills row (hb.bills.mem hrow) (of_decide_eq_true hother)
  · exact filter_append_new (hnew h.addedItems)
  · refine filter_map_append (fun row _ => ?_) (fun row hrow hother => ?_) (hnew h.issued)
    · have htenant : (m.onControlNumber row).tenant = row.tenant :=
        congrArg ControlNumber.Fixed.tenant (Move.onControlNumber_fixed hguard row)
      rw [htenant]
    · exact h.controlNumbers row (hb.controlNumbers.mem hrow) (of_decide_eq_true hother)
  · refine filter_map_append (fun row _ => ?_) (fun row hrow hother => ?_) (hnew h.opened)
    · have htenant : (m.onPayment row).tenant = row.tenant :=
        congrArg Payment.Fixed.tenant (m.onPayment_fixed row)
      rw [htenant]
    · exact h.payments row (hb.payments.mem hrow) (of_decide_eq_true hother)
  · exact filter_append_new (hnew h.allocations)
  · exact filter_append_new (hnew h.postings)
  · exact filter_append_new (hnew h.events)
  · exact filter_append_new (hnew h.receipts)
  · refine filter_map_append (fun row _ => ?_) (fun row hrow hother => ?_) (hnew h.openedBatches)
    · have htenant : (m.onBatch row).tenant = row.tenant :=
        congrArg SettlementBatch.Fixed.tenant (horderly row)
      rw [htenant]
    · exact h.batches row (hb.batches.mem hrow) (of_decide_eq_true hother)

/-- The moves of a chain. -/
theorem View.Chain.elsewhere (hchain : view.Chain ms) (horderly : ∀ m ∈ ms, m.Orderly)
    (hgrows : (Move.runAll ms b).Grows t) (h : ∀ m ∈ ms, m.OnlyOf tenant t) :
    (Move.runAll ms b).elsewhere tenant = b.elsewhere tenant := by
  induction ms generalizing view b with
  | nil => rfl
  | cons m ms ih =>
      obtain ⟨hguard, hrest⟩ := hchain
      obtain ⟨hfirst, hothers⟩ := List.forall_mem_cons.mp horderly
      obtain ⟨honly, honlys⟩ := List.forall_mem_cons.mp h
      have hb : b.Grows t :=
        (m.grows hguard hfirst b).trans ((hrest.grows hothers (m.run b)).trans hgrows)
      calc (Move.runAll ms (m.run b)).elsewhere tenant
          = (m.run b).elsewhere tenant := ih hrest hothers hgrows honlys
        _ = b.elsewhere tenant := honly.run_elsewhere hb hguard hfirst

end Elsewhere

/-! ## The moves of a request -/

/-- An owner is of one tenant. -/
theorem Owner.Exists.unique {owner : Owner} {tenant tenant' : ℕ} {d : Directory} {b : Books}
    (h : owner.Exists tenant d b) (h' : owner.Exists tenant' d b) (hids : b.ids.Nodup)
    (haccounts : (d.accounts.map (·.id)).Nodup) : tenant = tenant' := by
  cases owner with
  | bill id =>
      obtain ⟨row, hrow, hid, rfl⟩ := h
      obtain ⟨row', hrow', hid', rfl⟩ := h'
      have hkey : Resource.bill row.id = Resource.bill row'.id := by rw [hid, hid']
      rw [eq_of_key (List.nodup_append.mp hids).1 hrow hrow' hkey]
  | customerAccount id =>
      obtain ⟨account, haccount, hid, rfl⟩ := h
      obtain ⟨account', haccount', hid', rfl⟩ := h'
      rw [eq_of_key haccounts haccount haccount' (hid.trans hid'.symm)]

/-- A payment whose status is saved is the tenant's. -/
theorem Move.Concerns.entered_tenant {view : View} {ms : List Move} {tenant : ℕ} {m : Move}
    (h : m.Concerns view ms tenant) {p : Payment} (hp : m.entered = some p) :
    p.tenant = tenant := by
  cases h with
  | @payment q _ known owned about =>
      have hfixed : p.fixed = q.fixed := by
        cases m with
        | enter payment =>
            obtain rfl := Option.some.inj hp
            exact about
        | settle s =>
            obtain rfl := Option.some.inj hp
            exact about
        | undo env payment fee metadata =>
            obtain rfl := Option.some.inj hp
            exact about
        | _ => cases hp
      exact (congrArg Payment.Fixed.tenant hfixed).trans owned
  | _ => cases hp

namespace Committing

variable {view : View} {ms : List Move} {d : Directory} {b : Books} {tenant : ℕ} {m : Move}

section Rows

variable (h : Committing view ms d b) (hb : b.Tenanted d)
variable (haccounts : (d.accounts.map (·.id)).Nodup)

include h

/-- A row has the tenant of every row with its id. -/
theorem bill_tenant {row bill : Bill}
    (hrow : ∃ r ∈ (Move.runAll ms b).bills, r.fixed = row.fixed)
    (hbill : ∃ r ∈ (Move.runAll ms b).bills, r.fixed = bill.fixed) (hid : row.id = bill.id) :
    row.tenant = bill.tenant := by
  obtain ⟨r, hr, hfixed⟩ := hrow
  obtain ⟨r', hr', hfixed'⟩ := hbill
  have hkey : r.id = r'.id := by
    calc r.id = row.id := congrArg Bill.Fixed.id hfixed
      _ = bill.id := hid
      _ = r'.id := (congrArg Bill.Fixed.id hfixed').symm
  rw [h.bill_eq hr hr' hkey] at hfixed
  exact congrArg Bill.Fixed.tenant (hfixed.symm.trans hfixed')

theorem controlNumber_tenant {row cn : ControlNumber}
    (hrow : ∃ r ∈ (Move.runAll ms b).controlNumbers, r.fixed = row.fixed)
    (hcn : ∃ r ∈ (Move.runAll ms b).controlNumbers, r.fixed = cn.fixed) (hid : row.id = cn.id) :
    row.tenant = cn.tenant := by
  obtain ⟨r, hr, hfixed⟩ := hrow
  obtain ⟨r', hr', hfixed'⟩ := hcn
  have hkey : r.id = r'.id := by
    calc r.id = row.id := congrArg ControlNumber.Fixed.id hfixed
      _ = cn.id := hid
      _ = r'.id := (congrArg ControlNumber.Fixed.id hfixed').symm
  rw [h.controlNumber_eq hr hr' hkey] at hfixed
  exact congrArg ControlNumber.Fixed.tenant (hfixed.symm.trans hfixed')

theorem payment_tenant {row p : Payment}
    (hrow : ∃ r ∈ (Move.runAll ms b).payments, r.fixed = row.fixed)
    (hp : ∃ r ∈ (Move.runAll ms b).payments, r.fixed = p.fixed) (hid : row.id = p.id) :
    row.tenant = p.tenant := by
  obtain ⟨r, hr, hfixed⟩ := hrow
  obtain ⟨r', hr', hfixed'⟩ := hp
  have hkey : r.id = r'.id := by
    calc r.id = row.id := congrArg Payment.Fixed.id hfixed
      _ = p.id := hid
      _ = r'.id := (congrArg Payment.Fixed.id hfixed').symm
  rw [h.payment_eq hr hr' hkey] at hfixed
  exact congrArg Payment.Fixed.tenant (hfixed.symm.trans hfixed')

theorem payments_only (hm : m ∈ ms) (hconcerns : m.Concerns view ms tenant) {row : Payment}
    (hrow : ∃ r ∈ (Move.runAll ms b).payments, r.fixed = row.fixed) (hother : row.tenant ≠ tenant) :
    m.onPayment row = row := by
  have hentered : ∀ p : Payment, m.entered = some p → row.id ≠ p.id := by
    intro p hp hid
    apply hother
    rw [h.payment_tenant hrow (h.entered hm hp) hid]
    exact hconcerns.entered_tenant hp
  cases m with
  | refer id reference raw =>
      cases hconcerns with
      | @payment p _ known owned about =>
          refine if_neg fun hid => hother ?_
          rw [h.payment_tenant hrow (h.known known) (hid.trans about)]
          exact owned
  | enter payment => exact if_neg (hentered payment rfl)
  | settle s => exact if_neg (hentered s.payment rfl)
  | undo env payment fee metadata => exact if_neg (hentered payment rfl)
  | openBatch batch claimed =>
      refine if_neg fun hclaimed => hother ?_
      obtain ⟨q, hq, hid⟩ := List.any_eq_true.mp hclaimed
      obtain ⟨-, hclaims⟩ := h.claims batch claimed hm
      have hpersists := h.grows.payments.mem (hclaims.mem hq)
      rw [h.payment_tenant hrow hpersists (of_decide_eq_true hid).symm,
        unsettled_tenant (hclaims.due q hq)]
      cases hconcerns with
      | batched owned => exact owned
      | payment _ _ about => exact about.elim
  | _ => rfl

theorem controlNumbers_only (hm : m ∈ ms) (hconcerns : m.Concerns view ms tenant)
    {row : ControlNumber}
    (hrow : ∃ r ∈ (Move.runAll ms b).controlNumbers, r.fixed = row.fixed)
    (hother : row.tenant ≠ tenant) : m.onControlNumber row = row := by
  cases m with
  | editControlNumbers f =>
      cases hconcerns with
      | edited owned =>
          by_contra hchanged
          obtain ⟨cn, hsees, hid, htenant⟩ := owned row hchanged
          apply hother
          rw [h.controlNumber_tenant hrow (h.seen.controlNumber hsees) hid.symm]
          exact htenant
      | payment _ _ about => exact about.elim
  | _ => rfl

include hb

theorem bills_only (hm : m ∈ ms) (hconcerns : m.Concerns view ms tenant) {row : Bill}
    (hrow : ∃ r ∈ (Move.runAll ms b).bills, r.fixed = row.fixed) (hother : row.tenant ≠ tenant) :
    m.onBill row = row := by
  obtain ⟨view', hview, hguard⟩ := h.guards m hm
  cases m with
  | openBill items bill now =>
      refine if_neg fun hid => hother ?_
      have hopened : bill.moveTo now .active ∈ (Move.openBill items bill now).openedBills :=
        List.mem_singleton.mpr rfl
      rw [h.bill_tenant hrow ((h.newIn _ hm).bills _ hopened) hid]
      cases hconcerns with
      | billOpened opens => exact opens.bill
      | payment _ _ about => exact about.elim
  | cancelBill bill =>
      refine if_neg fun hid => hother ?_
      obtain ⟨old, now, hsees, -, rfl⟩ := hguard
      rw [h.bill_tenant hrow (hview.bill hsees) hid]
      cases hconcerns with
      | billCancelled owned => exact owned
      | payment _ _ about => exact about.elim
  | settle s =>
      simp only [Move.onBill]
      split
      · next bill status hbill _ =>
          refine if_neg fun hid => hother ?_
          have hsettle : s.Guard view' := hguard
          have hloaded : Loaded view' s.payment s.controlNumber (some bill) :=
            hbill ▸ hsettle.loaded
          obtain ⟨p, hp, hfixed⟩ := h.entered hm (p := s.payment) rfl
          obtain ⟨-, htenant, hsees⟩ := h.loaded_bill hb hview hloaded hp hfixed
          rw [h.bill_tenant hrow (hview.bill hsees) hid, htenant]
          exact hconcerns.entered_tenant rfl
      · rfl
  | _ => rfl

theorem postings_only (hm : m ∈ ms) (hconcerns : m.Concerns view ms tenant) :
    ∀ row ∈ m.postings, row.tenant = tenant := by
  intro row hrow
  cases m with
  | issue env cn currency =>
      rw [List.mem_singleton.mp hrow]
      cases hconcerns with
      | issued owned => exact owned
      | payment _ _ about => exact about.elim
  | settle s =>
      have htenant : row.tenant = s.payment.tenant := by
        simp only [Move.postings, List.mem_cons, List.not_mem_nil, or_false] at hrow
        rcases hrow with rfl | rfl | rfl
        · rfl
        · rfl
        · rfl
      rw [htenant]
      exact hconcerns.entered_tenant rfl
  | undo env payment fee metadata =>
      obtain ⟨original, -, htenant, hsame, -⟩ := h.undone_row hb hm (Option.mem_toList.mp hrow)
      rw [hsame, htenant]
      exact hconcerns.entered_tenant rfl
  | _ => cases hrow

include haccounts

theorem events_only (hm : m ∈ ms) (hconcerns : m.Concerns view ms tenant) :
    ∀ e ∈ m.events, e.tenant = tenant := by
  intro e he
  cases m with
  | issue env cn currency =>
      rw [List.mem_singleton.mp he]
      cases hconcerns with
      | issued owned => exact owned
      | payment _ _ about => exact about.elim
  | note event =>
      rw [List.mem_singleton.mp he]
      cases hconcerns with
      | @reused env cn currency found owned =>
          change cn.tenant = tenant
          obtain ⟨cn', hcn', hfixed⟩ := h.seen.controlNumber found
          have howner : cn'.owner = cn.owner := congrArg ControlNumber.Fixed.owner hfixed
          have hexists := h.controlNumbers hb cn' hcn'
          rw [howner] at hexists
          have howned : cn.owner.Exists tenant d (Move.runAll ms b) := by
            rcases owned with hsees | ⟨m', hm', bill, hbill, hown, htenant⟩
            · exact h.seen.owner hsees rfl
            · obtain ⟨row, hrow, hrowfixed⟩ := (h.newIn m' hm').bills bill hbill
              rw [hown]
              exact ⟨row, hrow, congrArg Bill.Fixed.id hrowfixed,
                (congrArg Bill.Fixed.tenant hrowfixed).trans htenant⟩
          rw [← hexists.unique howned h.ids haccounts]
          exact (congrArg ControlNumber.Fixed.tenant hfixed).symm
      | payment known owned about => exact about.2.trans owned
  | settle s =>
      rw [List.mem_singleton.mp he]
      exact hconcerns.entered_tenant (p := s.payment) rfl
  | undo env payment fee metadata =>
      rw [List.mem_singleton.mp he]
      exact hconcerns.entered_tenant (p := payment) rfl
  | _ => cases he

/-- The moves of a request are moves of its tenant only. -/
theorem onlyOf (hm : m ∈ ms) (hconcerns : m.Concerns view ms tenant)
    (hbatch : ∀ id f, m = .editBatch id f → ∀ row : SettlementBatch,
      (∃ r ∈ (Move.runAll ms b).batches,
      r.fixed = row.fixed) → row.id = id → row.tenant = tenant) :
    m.OnlyOf tenant (Move.runAll ms b) where
  bills _ hrow hother := h.bills_only hb hm hconcerns hrow hother
  controlNumbers _ hrow hother := h.controlNumbers_only hm hconcerns hrow hother
  payments _ hrow hother := h.payments_only hm hconcerns hrow hother
  batches row hrow hother := by
    cases m with
    | editBatch id f => exact if_neg fun hid => hother (hbatch id f rfl row hrow hid)
    | _ => rfl
  openedBills row hrow := by
    cases hconcerns with
    | billOpened opens =>
        rw [List.mem_singleton.mp hrow]
        exact opens.bill
    | payment _ _ about => cases m <;> first | exact about.elim | cases hrow
    | _ => cases hrow
  addedItems row hrow := by
    cases hconcerns with
    | billOpened opens => exact opens.items row hrow
    | payment _ _ about => cases m <;> first | exact about.elim | cases hrow
    | _ => cases hrow
  issued row hrow := by
    cases hconcerns with
    | issued owned =>
        rw [List.mem_singleton.mp hrow]
        exact owned
    | payment _ _ about => cases m <;> first | exact about.elim | cases hrow
    | _ => cases hrow
  opened row hrow := by
    cases m with
    | openPayment payment =>
        rw [List.mem_singleton.mp hrow]
        cases hconcerns with
        | payment known owned about => exact (congrArg Payment.Fixed.tenant about).trans owned
    | _ => cases hrow
  allocations row hrow := by
    cases m with
    | settle s =>
        obtain ⟨bill, -, rfl⟩ := Option.map_eq_some_iff.mp (Option.mem_toList.mp hrow)
        exact hconcerns.entered_tenant (p := s.payment) rfl
    | _ => cases hrow
  postings := h.postings_only hb hm hconcerns
  events := h.events_only hb haccounts hm hconcerns
  receipts row hrow := by
    obtain ⟨view', -, hguard⟩ := h.guards m hm
    cases m with
    | settle s =>
        have hsettle : s.Guard view' := hguard
        obtain ⟨-, htenant, -⟩ := hsettle.receipts.inserted row (Option.mem_toList.mp hrow)
        exact htenant.trans (hconcerns.entered_tenant (p := s.payment) rfl)
    | _ => cases hrow
  openedBatches row hrow := by
    cases hconcerns with
    | batched owned =>
        rw [List.mem_singleton.mp hrow]
        exact owned
    | payment _ _ about => cases m <;> first | exact about.elim | cases hrow
    | _ => cases hrow

end Rows

end Committing

/-! ## Every schedule -/

/-- A batch is completed by a request that does nothing else, in nobody's name. -/
theorem Action.Acts.completes_alone {view : View} {env : Env} {action : Action} {ms : List Move}
    (h : action.Acts view env ms) {id : ℕ} {f : SettlementBatch → SettlementBatch}
    (hm : .editBatch id f ∈ ms) : ms = [.editBatch id f] ∧ action.tenant? = none := by
  have hnot : ∀ {m : Move}, ms = [m] → m = .editBatch id f := by
    rintro m rfl
    exact (List.mem_singleton.mp hm).symm
  have hnumbered : ∀ {view' : View} {tenant : ℕ} {owner : Owner} {ms' : List Move},
      Numbered view' env tenant owner ms' → .editBatch id f ∉ ms' := by
    intro view' tenant owner ms' h hm
    cases h with
    | kept => cases hm
    | reused => cases List.mem_singleton.mp hm
    | created => cases List.mem_singleton.mp hm
  have hworks : Works ms ∨ Undoes ms → False := by
    rintro (hworks | ⟨_, _, _, _, hms⟩)
    · exact absurd (hworks _ hm) Bool.false_ne_true
    · cases hnot hms
  cases action with
  | markCompleted pk reference =>
      have heq := hnot h
      exact ⟨heq ▸ h, rfl⟩
  | billCreate input =>
      rcases h with rfl | ⟨items, bill, ms', -, hrest, rfl⟩
      · cases hm
      · rcases List.mem_cons.mp hm with hm | hm
        · cases hm
        · exact absurd hm (hnumbered hrest)
  | billListCreate input =>
      rcases h with rfl | ⟨items, bill, -, h⟩
      · cases hm
      · cases hnot h
  | billCancel tenant pk =>
      rcases h with rfl | ⟨bill, -, -, -, h⟩
      · cases hm
      · cases hnot h
  | billRequestControlNumber | accountRequestControlNumber => exact absurd hm (hnumbered h.2)
  | controlNumberCancel =>
      obtain ⟨cn, -, -, -, h⟩ := h
      cases hnot h
  | expireOverdue =>
      obtain ⟨locked, -, h⟩ := h
      cases hnot h
  | generateBatch =>
      obtain ⟨batch, claimed, -, h⟩ := h
      cases hnot h
  | payBill | paymentListCreate | paymentQuery | paymentRefund | paymentReverse
  | providerCallback | triggerRun => exact (hworks (Action.Acts.works h rfl)).elim
  | changeFeeRefundPolicy | changeDefaultCurrency => cases h

section Commits

variable {s t : DB} {seen : List (Resource × DB)} {request : Request}

/-- A tenant that is saved is the only one. -/
theorem SavedFor.elsewhere {tenant : ℕ} (h : SavedFor tenant s t) :
    t.toDirectory.elsewhere tenant = s.toDirectory.elsewhere tenant := by
  obtain ⟨f, hf, hdirectory, -⟩ := h
  have hid : ∀ row : Tenant, (if row.id = tenant then f row else row).id = row.id := by
    intro row
    split
    · exact (hf row).1
    · rfl
  have htenants : (s.tenants.map fun row => if row.id = tenant then f row else row).filter
      (·.id ≠ tenant) = s.tenants.filter (·.id ≠ tenant) := by
    let others : Tenant → Bool := fun row => row.id ≠ tenant
    have hkept : ∀ row ∈ s.tenants,
        others (if row.id = tenant then f row else row) = others row := by
      intro row _
      exact congrArg (fun id : ℕ => decide (id ≠ tenant)) (hid row)
    have happended := filter_map_append hkept
      (fun row _ hother => if_neg (of_decide_eq_true hother))
      (fun row hrow => absurd hrow List.not_mem_nil)
    rw [List.append_nil] at happended
    exact happended
  rw [hdirectory]
  exact congrArg (fun rows : List Tenant => { s.toDirectory with tenants := rows }) htenants

/-- A commit changes rows of one tenant. -/
theorem Request.Commits.elsewhere (h : request.Commits (Read seen) s t)
    (hall : request.action ≠ .expireOverdue none) (hread : ∀ x ∈ seen, Developed x.2 s)
    (hafter : t.toBooks.SettlementTables) (hids : t.ids.Nodup)
    (hs : s.toBooks.Tenanted s.toDirectory) (haccounts : (s.accounts.map (·.id)).Nodup) :
    ∃ tenant, (∀ named, request.action.tenant? = some named → tenant = named) ∧
      t.toDirectory.elsewhere tenant = s.toDirectory.elsewhere tenant ∧
      t.toBooks.elsewhere tenant = s.toBooks.elsewhere tenant := by
  cases h with
  | @saved tenant _ hnamed hsaved =>
      refine ⟨tenant, fun named hname => Option.some.inj (hnamed.symm.trans hname),
        hsaved.elsewhere, ?_⟩
      obtain ⟨-, -, -, hbooks⟩ := hsaved
      rw [hbooks]
  | @acted ms hacts hchain hdirectory hbooks hclaims =>
      have hcommitting := committing hacts hchain hbooks hclaims hread hafter.payments hids
      have hfinish : ∀ tenant, (∀ m ∈ ms, m.Concerns (viewOf (Read seen) id) ms tenant) →
          (∀ id f, .editBatch id f ∈ ms → ∀ row : SettlementBatch,
            (∃ r ∈ t.batches, r.fixed = row.fixed) → row.id = id → row.tenant = tenant) →
          t.toDirectory.elsewhere tenant = s.toDirectory.elsewhere tenant ∧
            t.toBooks.elsewhere tenant = s.toBooks.elsewhere tenant := by
        intro tenant hconcerns hbatch
        rw [hbooks] at hbatch ⊢
        refine ⟨by rw [hdirectory], ?_⟩
        refine hchain.elsewhere hacts.orderly (.refl _) fun m hm =>
          hcommitting.onlyOf hs haccounts hm (hconcerns m hm) fun id f hedit => ?_
        subst hedit
        exact hbatch id f hm
      by_cases hcompletes : ∃ id f, .editBatch id f ∈ ms
      · -- the platform completes a batch: it is the batch's tenant that the request is about
        obtain ⟨pk, f, hm⟩ := hcompletes
        obtain ⟨hms, hnone⟩ := hacts.completes_alone hm
        have hnobody : ∀ tenant named : ℕ, request.action.tenant? = some named →
          tenant = named := by
          intro tenant named hnamed
          rw [hnone] at hnamed
          cases hnamed
        have hconcerns : ∀ tenant, ∀ m ∈ ms, m.Concerns (viewOf (Read seen) id) ms tenant := by
          intro tenant m hm'
          rw [hms] at hm'
          rw [List.mem_singleton.mp hm']
          exact .completed
        have hbatch : ∃ tenant, ∀ row : SettlementBatch,
            (∃ r ∈ t.batches, r.fixed = row.fixed) → row.id = pk → row.tenant = tenant := by
          by_cases hexists : ∃ batch ∈ t.batches, batch.id = pk
          · obtain ⟨batch, hmem, hid⟩ := hexists
            refine ⟨batch.tenant, ?_⟩
            rintro row ⟨r, hr, hfixed⟩ hrow
            have hkey : r.id = batch.id :=
              (congrArg SettlementBatch.Fixed.id hfixed).trans (hrow.trans hid.symm)
            rw [← eq_of_key hafter.batches hr hmem hkey]
            exact (congrArg SettlementBatch.Fixed.tenant hfixed).symm
          · refine ⟨0, ?_⟩
            rintro row ⟨r, hr, hfixed⟩ hrow
            exact absurd ⟨r, hr, (congrArg SettlementBatch.Fixed.id hfixed).trans hrow⟩ hexists
        obtain ⟨tenant, htenant⟩ := hbatch
        refine ⟨tenant, hnobody tenant, hfinish tenant (hconcerns tenant) fun id' f' hm' => ?_⟩
        rw [hms] at hm'
        rw [(Move.editBatch.inj (List.mem_singleton.mp hm')).1]
        exact htenant
      · obtain ⟨tenant, hnamed, hconcerns⟩ := hacts.concerns hall
        exact ⟨tenant, hnamed, hfinish tenant hconcerns fun id f hm =>
          absurd ⟨id, f, hm⟩ hcompletes⟩

end Commits

/-- Whatever requests run for whatever tenants, and however they interleave, each commit changes or
inserts rows of one tenant only, in the directory as in the money tables: of the tenant in whose
name the request runs, where there is one.  The periodic task that expires the numbers of all
tenants is the only exception. -/
theorem requests_leave_other_tenants_alone (requests : List Request) (start : DB)
    (hstart : start.toBooks.SettlementTables) (hids : start.ids.Nodup)
    (htenanted : start.toBooks.Tenanted start.toDirectory)
    (haccounts : (start.accounts.map (·.id)).Nodup) (schedule : List Event) :
    Recorded
      (fun i (_ : Unit) (_ : List (Resource × DB)) s t => ∃ request, requests[i]? = some request ∧
        (request.action ≠ .expireOverdue none →
          ∃ tenant, (∀ named, request.action.tenant? = some named → tenant = named) ∧
            t.toDirectory.elsewhere tenant = s.toDirectory.elsewhere tenant ∧
            t.toBooks.elsewhere tenant = s.toBooks.elsewhere tenant)) start
      ((Config.start start (requests.map Request.handler)).commitOrder schedule)
      ((Config.start start (requests.map Request.handler)).run schedule).past
      ((Config.start start (requests.map Request.handler)).run schedule).store := by
  have hrun := run_tenanted requests hstart hids htenanted schedule
  have hsame := hrun.strengthen (J := fun s => s.accounts = start.accounts) (G := fun _ _ => True)
    rfl (fun _ => trivial) (fun _ _ _ _ _ => trivial) fun i _ seen s t h hs _ => by
      obtain ⟨request, -, hcommits⟩ := h.1.commits
      exact ⟨hcommits.developed.accounts.symm.trans hs, trivial⟩
  refine hsame.mono fun i _ seen s t h => ?_
  obtain ⟨⟨hcommit, hs, hread⟩, haccount, -⟩ := h
  obtain ⟨request, hrequest, hcommits⟩ := hcommit.commits
  refine ⟨request, hrequest, fun hall => ?_⟩
  refine hcommits.elsewhere hall (fun x hx => (hread x hx).2) hcommit.after hcommit.left hs ?_
  rw [haccount]
  exact haccounts

theorem requests_leave_other_tenants_alone_bothAtWork :
    Recorded
      (fun i (_ : Unit) (_ : List (Resource × DB)) s t => ∃ request, bothAtWork[i]? = some request ∧
        (request.action ≠ .expireOverdue none →
          ∃ tenant, (∀ named, request.action.tenant? = some named → tenant = named) ∧
            t.toDirectory.elsewhere tenant = s.toDirectory.elsewhere tenant ∧
            t.toBooks.elsewhere tenant = s.toBooks.elsewhere tenant)) twoInstitutions
      ((Config.start twoInstitutions (bothAtWork.map Request.handler)).commitOrder inTwoRounds)
      ((Config.start twoInstitutions (bothAtWork.map Request.handler)).run inTwoRounds).past
      ((Config.start twoInstitutions (bothAtWork.map Request.handler)).run inTwoRounds).store :=
  requests_leave_other_tenants_alone bothAtWork twoInstitutions twoInstitutions_settlementTables
    twoInstitutions_ids twoInstitutions_tenanted (by decide) inTwoRounds

end Kusanya
