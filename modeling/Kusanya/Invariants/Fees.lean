import Kusanya.Invariants.Booked
import Mathlib.Tactic.Ring

/-!
# Fees

The revenue events and the platform's ledger entries say the same: every event with
a non-zero amount is linked to an entry of that amount, and their totals follow from
the control numbers, the settled payments and the fees taken back.
-/

namespace Kusanya

open ReadCommitted

/-! ## The event of a success -/

section Success

variable {b : Books}

theorem mem_inClass_iff {c : PaymentStatus → Bool} {x : Payment.Fixed} :
    x ∈ b.inClass c ↔ ∃ p ∈ b.payments, c p.status = true ∧ p.fixed = x := by
  simp [Books.inClass, and_assoc]

/-- A payment in a class is the row with its key. -/
theorem fixed_of_mem_inClass (hb : Booked b) {c : PaymentStatus → Bool} {x : Payment.Fixed}
    {p : Payment} (hx : x ∈ b.inClass c) (hp : p ∈ b.payments) (hid : x.id = p.id) :
    x = p.fixed ∧ c p.status = true := by
  obtain ⟨q, hq, hc, rfl⟩ := mem_inClass_iff.mp hx
  obtain rfl : q = p := Support.eq_of_key hb.keyed hq hp hid
  exact ⟨rfl, hc⟩

/-- A success event about a payment is the one that its success recorded. -/
theorem success_of_event (hb : Booked b) {ev : RevenueEvent} {p : Payment}
    (hev : ev ∈ b.revenue) (htype : ev.eventType = .paymentSuccessful)
    (hsource : ev.source = .payment p.id) (hp : p ∈ b.payments) :
    ev.plain = p.fixed.success := by
  have hmem : ev.plain ∈ b.settled.map Payment.Fixed.success :=
    hb.successes.subset (List.mem_map_of_mem (List.mem_filter.mpr ⟨hev, by simpa using htype⟩))
  obtain ⟨x, hx, hplain⟩ := List.mem_map.mp hmem
  have hid : x.id = p.id := by
    have hsrc : Source.payment x.id = .payment p.id :=
      (congrArg RevenueEvent.source hplain).trans hsource
    exact Source.payment.inj hsrc
  rw [← hplain, (fixed_of_mem_inClass hb hx hp hid).1]

/-- A settled payment has its success event. -/
theorem exists_success (hb : Booked b) {p : Payment} (hp : p ∈ b.payments)
    (hsettled : p.status.settled = true) :
    ∃ ev ∈ b.revenue, ev.plain = p.fixed.success := by
  have hmem : p.fixed.success ∈
      (b.revenue.filter (·.eventType = .paymentSuccessful)).map RevenueEvent.plain :=
    hb.successes.symm.subset (List.mem_map_of_mem (mem_inClass hp hsettled))
  obtain ⟨ev, hev, hplain⟩ := List.mem_map.mp hmem
  exact ⟨ev, (List.mem_filter.mp hev).1, hplain⟩

theorem newestEvent_mem {events : List RevenueEvent} {ev : RevenueEvent}
    (h : newestEvent events = some ev) : ev ∈ events := by
  induction events generalizing ev with
  | nil => cases h
  | cons e rest ih =>
      unfold newestEvent at h
      split at h
      · obtain rfl := Option.some.inj h
        exact List.mem_cons_self
      · next later hlater =>
          split at h
          · obtain rfl := Option.some.inj h
            exact List.mem_cons_of_mem _ (ih hlater)
          · obtain rfl := Option.some.inj h
            exact List.mem_cons_self

theorem newestEvent_isSome {events : List RevenueEvent} {ev : RevenueEvent} (h : ev ∈ events) :
    (newestEvent events).isSome := by
  cases events with
  | nil => cases h
  | cons e rest =>
      unfold newestEvent
      split
      · rfl
      · split <;> rfl

/-- What a compensation refers to: the event that the success of the payment recorded. -/
theorem originalEvent_settled (hb : Booked b) {p : Payment} (hp : p ∈ b.payments)
    (hsettled : p.status.settled = true) :
    ∃ ev ∈ b.revenue, originalEvent p.tenant p.id b = some ev ∧ ev.plain = p.fixed.success := by
  obtain ⟨found, hfound, hplain⟩ := exists_success hb hp hsettled
  have hselected : found ∈ b.revenue.filter fun e =>
      e.tenant = p.tenant && e.eventType = .paymentSuccessful && e.source = .payment p.id := by
    refine List.mem_filter.mpr ⟨hfound, ?_⟩
    have htenant : found.tenant = p.tenant := congrArg RevenueEvent.tenant hplain
    have htype : found.eventType = .paymentSuccessful := congrArg RevenueEvent.eventType hplain
    have hsource : found.source = .payment p.id := congrArg RevenueEvent.source hplain
    simp [htenant, htype, hsource]
  obtain ⟨ev, hev⟩ := Option.isSome_iff_exists.mp (newestEvent_isSome hselected)
  obtain ⟨hmem, hkeys⟩ := List.mem_filter.mp (newestEvent_mem hev)
  simp only [Bool.and_eq_true, decide_eq_true_eq] at hkeys
  exact ⟨ev, hmem, hev, success_of_event hb hmem hkeys.1.2 hkeys.2 hp⟩

end Success

/-! ## What a compensation takes back -/

/-- The fee that a refund or reversal of `p` takes back, in terms of the policy. -/
structure TakesBack (d : Directory) (b : Books) (p : Payment) (fee : Option RevenueEvent) :
    Prop where
  retained : ∀ tenant, d.tenants.find? (·.id = p.tenant) = some tenant →
    tenant.feeRefundPolicy ≠ .clawback → fee = none
  clawedBack : ∀ tenant, d.tenants.find? (·.id = p.tenant) = some tenant →
    tenant.feeRefundPolicy = .clawback → fee.isSome
  tenantExists : ∃ tenant, d.tenants.find? (·.id = p.tenant) = some tenant
  event : ∀ ev, fee = some ev → ev ∈ b.revenue ∧ ev.plain = p.fixed.success

theorem UndoGuard.takesBack {d : Directory} {b : Books} {p : Payment} {fee : Option RevenueEvent}
    (hb : Booked b) (h : UndoGuard (View.alone d b) p fee) : TakesBack d b p fee := by
  obtain ⟨old, henters, hsuccess⟩ := h.enters
  obtain ⟨hold, hfixed, -⟩ := henters.found
  obtain ⟨original, tenant, horiginal, htenant, hfee⟩ := h.fee
  rw [View.sees_alone] at horiginal htenant
  have hid : p.id = old.id := congrArg Payment.Fixed.id hfixed
  have htid : p.tenant = old.tenant := congrArg Payment.Fixed.tenant hfixed
  obtain ⟨ev, hev, hfound, hplain⟩ := originalEvent_settled hb hold (by rw [hsuccess]; rfl)
  rw [hid, htid, hfound] at horiginal
  subst horiginal
  have hamount : ev.amount = paymentSuccessFee := congrArg RevenueEvent.amount hplain
  have hpos : 0 < ev.amount.cents := by rw [hamount]; decide
  have hpolicy : ∀ row, d.tenants.find? (·.id = p.tenant) = some row → row = tenant :=
    fun row hrow => Option.some.inj (hrow.symm.trans htenant)
  refine ⟨fun row hrow hretain => ?_, fun row hrow hclaw => ?_, ⟨tenant, htenant⟩,
    fun fee' hfee' => ?_⟩
  · obtain rfl := hpolicy row hrow
    rw [← hfee]
    exact if_neg fun h => hretain h.1
  · obtain rfl := hpolicy row hrow
    rw [← hfee, clawback?, if_pos ⟨hclaw, hpos⟩]
    rfl
  · rw [← hfee, clawback?] at hfee'
    split at hfee'
    · obtain rfl := Option.some.inj hfee'
      exact ⟨hev, hplain.trans (congrArg Payment.Fixed.success hfixed.symm)⟩
    · cases hfee'

/-! ## Linked events -/

/-- The account that each type of entry is posted to. -/
def LedgerEntryType.bookedOn : LedgerEntryType → LedgerAccount
  | .paymentReceived => .customer
  | .institutionEntitlement => .institution
  | _ => .platform

/-- A zero event has no ledger entry; any other has one on the platform's account, for
the same tenant, amount and currency. -/
def RevenueEvent.Linked (ev : RevenueEvent) (ledger : List LedgerEntry) : Prop :=
  match ev.ledgerEntry with
  | none => ev.amount = .zero
  | some e => ev.amount ≠ .zero ∧ e ∈ ledger ∧ e.tenant = ev.tenant ∧ e.amount = ev.amount ∧
      e.currency = ev.currency ∧ e.account = .platform

theorem RevenueEvent.Linked.mono {ev : RevenueEvent} {ledger ledger' : List LedgerEntry}
    (h : ev.Linked ledger) (hsub : ∀ e ∈ ledger, e ∈ ledger') : ev.Linked ledger' := by
  unfold RevenueEvent.Linked at h ⊢
  split at h
  · exact h
  · obtain ⟨hne, hmem, hrest⟩ := h
    exact ⟨hne, hsub _ hmem, hrest⟩

structure Fees (b : Books) : Prop where
  linked : ∀ ev ∈ b.revenue, ev.Linked b.ledger
  accounts : ∀ e ∈ b.ledger, e.account = e.entryType.bookedOn

theorem fees_empty : Fees .empty :=
  ⟨fun _ h => absurd h List.not_mem_nil, fun _ h => absurd h List.not_mem_nil⟩

theorem controlNumberCreationFee_ne_zero : controlNumberCreationFee ≠ .zero := by decide

theorem paymentSuccessFee_ne_zero : paymentSuccessFee ≠ .zero := by decide

theorem neg_paymentSuccessFee_ne_zero : paymentSuccessFee.neg ≠ .zero := by decide

section Steps

variable {d : Directory} {b : Books}

/-- The entry that takes a fee back, and the event it is linked to. -/
theorem takenBack_linked (hf : Fees b) (env : Env) {p : Payment} {fee : RevenueEvent}
    (hfee : fee ∈ b.revenue) (hplain : fee.plain = p.fixed.success) :
    ∃ e, fee.takenBack env p.status = some e ∧ e.tenant = p.tenant ∧
      e.amount = paymentSuccessFee.neg ∧ e.currency = p.currency ∧ e.account = .platform ∧
      e.entryType = p.status.compensation.2 := by
  have hlinked := hf.linked fee hfee
  have hamount : fee.amount = paymentSuccessFee := congrArg RevenueEvent.amount hplain
  unfold RevenueEvent.Linked at hlinked
  cases hentry : fee.ledgerEntry with
  | none =>
      rw [hentry, hamount] at hlinked
      have hzero : paymentSuccessFee = .zero := hlinked
      exact absurd hzero paymentSuccessFee_ne_zero
  | some original =>
      rw [hentry] at hlinked
      obtain ⟨-, -, htenant, -, hcurrency, haccount⟩ := hlinked
      simp only [RevenueEvent.takenBack, hentry, Option.map_some]
      refine ⟨_, rfl, ?_, ?_, ?_, haccount, rfl⟩
      · exact htenant.trans (congrArg RevenueEvent.tenant hplain)
      · exact congrArg Numeric.neg hamount
      · exact hcurrency.trans (congrArg RevenueEvent.currency hplain)

theorem compensation_bookedOn (s : PaymentStatus) : s.compensation.2.bookedOn = .platform := by
  cases s <;> rfl

/-- The events of a move are linked to the entries it posts, and these are on the right
accounts. -/
theorem Move.Guard.fees {m : Move} (hb : Booked b) (hf : Fees b)
    (hm : m.Guard (View.alone d b)) :
    (∀ ev ∈ m.events, ev.Linked m.postings) ∧ ∀ e ∈ m.postings,
    e.account = e.entryType.bookedOn := by
  cases m with
  | issue env cn currency =>
      refine ⟨fun ev hev => ?_, fun e he => ?_⟩
      · obtain rfl := List.mem_singleton.mp hev
        exact ⟨controlNumberCreationFee_ne_zero, List.mem_singleton.mpr rfl, rfl, rfl, rfl, rfl⟩
      · obtain rfl := List.mem_singleton.mp he
        rfl
  | note event =>
      refine ⟨fun ev hev => ?_, fun e he => absurd he List.not_mem_nil⟩
      obtain rfl := List.mem_singleton.mp hev
      obtain ⟨hzero, hentry, -⟩ := hm
      rw [RevenueEvent.Linked, hentry]
      exact hzero
  | settle s =>
      refine ⟨fun ev hev => ?_, fun e he => ?_⟩
      · obtain rfl := List.mem_singleton.mp hev
        exact ⟨paymentSuccessFee_ne_zero, by simp [Move.postings], rfl, rfl, rfl, rfl⟩
      · simp only [Move.postings, List.mem_cons, List.not_mem_nil, or_false] at he
        rcases he with rfl | rfl | rfl <;> rfl
  | undo env p fee metadata =>
      have htakes := UndoGuard.takesBack hb hm
      cases hfee : fee with
      | none =>
          refine ⟨fun ev hev => ?_, fun e he => absurd he List.not_mem_nil⟩
          obtain rfl := List.mem_singleton.mp hev
          rfl
      | some event =>
          obtain ⟨hevent, hplain⟩ := htakes.event event hfee
          obtain ⟨e, htaken, htenant, hamount, hcurrency, haccount, htype⟩ :=
            takenBack_linked hf env hevent hplain
          have hposted : (Move.undo env p (some event) metadata).postings = [e] := by
            simp [Move.postings, htaken]
          have hneg : event.amount = paymentSuccessFee := congrArg RevenueEvent.amount hplain
          rw [hposted]
          refine ⟨fun ev hev => ?_, fun e' he' => ?_⟩
          · obtain rfl := List.mem_singleton.mp hev
            simp only [RevenueEvent.Linked, Payment.event, Move.compensationAmount,
              Option.bind_some, htaken, hneg]
            exact ⟨neg_paymentSuccessFee_ne_zero, List.mem_singleton.mpr rfl, htenant, hamount,
              hcurrency, haccount⟩
          · obtain rfl := List.mem_singleton.mp he'
            rw [haccount, htype, compensation_bookedOn]
  | _ => exact ⟨fun ev h => absurd h List.not_mem_nil, fun e h => absurd h List.not_mem_nil⟩

theorem Fees.run {m : Move} (hf : Fees b) (hb : Booked b) (hm : m.Guard (View.alone d b)) :
    Fees (m.run b) := by
  obtain ⟨hevents, hpostings⟩ := hm.fees hb hf
  constructor
  · intro ev hev
    rw [Move.run_ledger]
    rw [Move.run_revenue] at hev
    rcases List.mem_append.mp hev with hev | hev
    · exact (hf.linked ev hev).mono fun e he => List.mem_append_left _ he
    · exact (hevents ev hev).mono fun e he => List.mem_append_right _ he
  · intro e he
    rw [Move.run_ledger] at he
    rcases List.mem_append.mp he with he | he
    · exact hf.accounts e he
    · exact hpostings e he

end Steps

/-! ## Totals -/

/-- The sum of a tenant's revenue events. -/
def Books.revenueTotal (b : Books) (tenant : ℕ) : Money :=
  ((b.revenue.filter (·.tenant = tenant)).map (·.amount.cents)).sum

/-- The sum of a tenant's ledger entries on one account. -/
def Books.accountTotal (b : Books) (tenant : ℕ) (account : LedgerAccount) : Money :=
  ((b.ledger.filter fun e => e.tenant = tenant && e.account = account).map (·.amount.cents)).sum

/-- The control numbers created for a tenant. -/
def Books.controlNumberCount (b : Books) (tenant : ℕ) : ℕ :=
  (b.controlNumbers.filter (·.tenant = tenant)).length

/-- The payments of a tenant whose status is in a class. -/
def Books.countIn (b : Books) (c : PaymentStatus → Bool) (tenant : ℕ) : ℕ :=
  ((b.inClass c).filter (·.tenant = tenant)).length

/-- The fees of the tenant that a move takes back. -/
def Move.takesBack (tenant : ℕ) : Move → ℕ
  | undo _ p fee _ => if p.tenant = tenant ∧ fee.isSome then 1 else 0
  | _ => 0

/-- The payments of the tenant that a move settles. -/
def Move.settles (tenant : ℕ) : Move → ℕ
  | settle s => if s.payment.tenant = tenant then 1 else 0
  | _ => 0

/-- The payments of the tenant that a move refunds or reverses. -/
def Move.undoes (tenant : ℕ) : Move → ℕ
  | undo _ p _ _ => if p.tenant = tenant then 1 else 0
  | _ => 0

section Totals

variable {d : Directory} {b : Books} {m : Move} {tenant : ℕ}

theorem revenueTotal_run (m : Move) (b : Books) (tenant : ℕ) :
    (m.run b).revenueTotal tenant =
      b.revenueTotal tenant + ((m.events.filter (·.tenant = tenant)).map (·.amount.cents)).sum := by
  rw [Books.revenueTotal, Move.run_revenue, List.filter_append, List.map_append, List.sum_append]
  rfl

theorem accountTotal_run (m : Move) (b : Books) (tenant : ℕ) (account : LedgerAccount) :
    (m.run b).accountTotal tenant account =
      b.accountTotal tenant account + ((m.postings.filter fun e =>
        e.tenant = tenant && e.account = account).map (·.amount.cents)).sum := by
  rw [Books.accountTotal, Move.run_ledger, List.filter_append, List.map_append, List.sum_append]
  rfl

theorem controlNumberCount_run (hm : m.Guard (View.alone d b)) :
    (m.run b).controlNumberCount tenant =
      b.controlNumberCount tenant + (m.issued.filter (·.tenant = tenant)).length := by
  have hsame : ∀ row, (m.onControlNumber row).tenant = row.tenant := fun row =>
    (Move.onControlNumber_same hm row).2.1
  have hmap : ((b.controlNumbers.map m.onControlNumber).filter (·.tenant = tenant)).map (·.tenant) =
      (b.controlNumbers.filter (·.tenant = tenant)).map (·.tenant) :=
    Support.select_map_same (fun row _ => by rw [hsame row]) fun row _ _ => hsame row
  have hlength := congrArg List.length hmap
  rw [List.length_map, List.length_map] at hlength
  rw [Books.controlNumberCount, Move.run_controlNumbers, List.filter_append, List.length_append,
    hlength]
  rfl

theorem settled_count_run (hb : Booked b) (hm : m.Lawful b) :
    (m.run b).countIn PaymentStatus.settled tenant =
      b.countIn PaymentStatus.settled tenant + m.settles tenant := by
  by_cases hsettle : ∃ s, m = .settle s
  · obtain ⟨s, rfl⟩ := hsettle
    have hlength := ((settled_settle hm hb.keyed).filter fun p => p.tenant = tenant).length_eq
    rw [Books.countIn]
    refine hlength.trans ?_
    by_cases htenant : s.payment.tenant = tenant
    · have hfixed : s.payment.fixed.tenant = tenant := htenant
      simp [Move.settles, htenant, hfixed, Books.countIn, Books.settled]
    · have hfixed : ¬s.payment.fixed.tenant = tenant := htenant
      simp [Move.settles, htenant, hfixed, Books.countIn, Books.settled]
  · have hnot : ∀ s, m ≠ .settle s := fun s h => hsettle ⟨s, h⟩
    have hzero : m.settles tenant = 0 := by
      cases m with
      | settle s => exact absurd rfl (hnot s)
      | _ => rfl
    have hsame : (m.run b).inClass PaymentStatus.settled = b.inClass PaymentStatus.settled :=
      settled_same hm hb.keyed hnot
    rw [Books.countIn, hsame, hzero]
    rfl

theorem undone_count_run (hb : Booked b) (hm : m.Lawful b) :
    (m.run b).countIn PaymentStatus.undone tenant =
      b.countIn PaymentStatus.undone tenant + m.undoes tenant := by
  by_cases hundo : ∃ env p fee metadata, m = .undo env p fee metadata
  · obtain ⟨env, p, fee, metadata, rfl⟩ := hundo
    have hlength := ((undone_undo hm hb.keyed).filter fun p => p.tenant = tenant).length_eq
    rw [Books.countIn]
    refine hlength.trans ?_
    by_cases htenant : p.tenant = tenant
    · have hfixed : p.fixed.tenant = tenant := htenant
      simp [Move.undoes, htenant, hfixed, Books.countIn, Books.undone]
    · have hfixed : ¬p.fixed.tenant = tenant := htenant
      simp [Move.undoes, htenant, hfixed, Books.countIn, Books.undone]
  · have hnot : ∀ env p fee metadata, m ≠ .undo env p fee metadata :=
      fun env p fee metadata h => hundo ⟨env, p, fee, metadata, h⟩
    have hzero : m.undoes tenant = 0 := by
      cases m with
      | undo env p fee metadata => exact absurd rfl (hnot _ _ _ _)
      | _ => rfl
    have hsame : (m.run b).inClass PaymentStatus.undone = b.inClass PaymentStatus.undone :=
      undone_same hm hb.keyed hnot
    rw [Books.countIn, hsame, hzero]
    rfl

/-- What a move earns is what it posts to the platform's account. -/
theorem Move.Guard.earned (tenant : ℕ) (hb : Booked b) (hf : Fees b)
    (hm : m.Guard (View.alone d b)) :
    ((m.events.filter (·.tenant = tenant)).map (·.amount.cents)).sum =
      ((m.postings.filter fun e =>
        e.tenant = tenant && e.account = .platform).map (·.amount.cents)).sum ∧
    ((m.events.filter (·.tenant = tenant)).map (·.amount.cents)).sum =
      5000 * ((m.issued.filter (·.tenant = tenant)).length : ℤ) + 5000 * m.settles tenant -
        5000 * m.takesBack tenant := by
  cases m with
  | issue env cn currency =>
      by_cases htenant : cn.tenant = tenant <;>
        simp [events, postings, issued, settles, takesBack, ControlNumber.createdEvent,
          ControlNumber.event, ControlNumber.fee, controlNumberCreationFee, htenant]
  | note event =>
      obtain ⟨hzero, -⟩ := hm
      by_cases htenant : event.tenant = tenant <;>
        simp [events, postings, issued, settles, takesBack, htenant, hzero]
  | settle s =>
      by_cases htenant : s.payment.tenant = tenant <;>
        simp [events, postings, issued, settles, takesBack, Payment.successEvent, Payment.event,
          Payment.received, Payment.entitlement, Payment.fee, Payment.entry, paymentSuccessFee,
          htenant]
  | undo env p fee metadata =>
      have htakes := UndoGuard.takesBack hb hm
      cases hfee : fee with
      | none =>
          by_cases htenant : p.tenant = tenant <;>
            simp [events, postings, issued, settles, takesBack, Payment.event, compensationAmount,
              htenant]
      | some event =>
          obtain ⟨hevent, hplain⟩ := htakes.event event hfee
          obtain ⟨e, htaken, hetenant, hamount, -, haccount, -⟩ :=
            takenBack_linked hf env hevent hplain
          have hneg : event.amount = paymentSuccessFee := congrArg RevenueEvent.amount hplain
          by_cases htenant : p.tenant = tenant <;>
            simp [events, postings, issued, settles, takesBack, Payment.event, compensationAmount,
              htaken, hetenant, hamount, haccount, hneg, htenant, paymentSuccessFee]
  | _ => simp [events, postings, issued, settles, takesBack]

/-- The accounting equation of one tenant after `taken` fees were taken back. -/
structure FeeEquation (b : Books) (tenant taken : ℕ) : Prop where
  platform : b.revenueTotal tenant = b.accountTotal tenant .platform
  fees : b.revenueTotal tenant = 5000 * (b.controlNumberCount tenant : ℤ) +
    5000 * b.countIn PaymentStatus.settled tenant - 5000 * taken

theorem feeEquation_empty (tenant : ℕ) : FeeEquation .empty tenant 0 :=
  ⟨rfl, rfl⟩

theorem FeeEquation.run {taken : ℕ} (h : FeeEquation b tenant taken) (hb : Booked b)
    (hf : Fees b) (hm : m.Guard (View.alone d b)) :
    FeeEquation (m.run b) tenant (taken + m.takesBack tenant) := by
  obtain ⟨hposted, hearned⟩ := hm.earned tenant hb hf
  constructor
  · rw [revenueTotal_run, accountTotal_run, h.platform, hposted]
  · rw [revenueTotal_run, hearned, h.fees, controlNumberCount_run hm,
      settled_count_run hb hm.lawful]
    push_cast
    ring

end Totals

end Kusanya
