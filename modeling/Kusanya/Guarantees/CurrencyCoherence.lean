import Kusanya.Invariants.Balances
import Kusanya.Invariants.Concurrent
import Kusanya.Guarantees.Lifecycle
import Kusanya.Moves.Initiations

/-!
# One currency on both sides of an allocation

A new bill is in the default of its column, a new payment in its tenant's default currency.
Whatever is written for a payment later carries the payment's currency, so what an allocation
joins agrees exactly as long as the payments of bills are opened in the currency of bills.
-/

namespace Kusanya

open ReadCommitted

/-! ## What a move writes -/

section Moves

variable {d : Directory} {b : Books} {m : Move}

theorem Move.onBill_currency (m : Move) (row : Bill) : (m.onBill row).currency = row.currency := by
  cases m with
  | openBill | cancelBill =>
      simp only [onBill]
      split <;> rfl
  | settle s =>
      simp only [onBill]
      split
      · split <;> rfl
      · rfl
  | _ => rfl

/-- The entries for a payment are in its currency, also those that take a fee back. -/
theorem Move.Guard.postings_currency (hb : Booked b) (hm : m.Guard (View.alone d b))
    {e : LedgerEntry} (he : e ∈ m.postings) {id : ℕ} (hsource : e.source = some (.payment id)) :
    ∃ p, m.entered = some p ∧ p.id = id ∧ e.currency = p.currency := by
  cases m with
  | settle s =>
      refine ⟨s.payment, rfl, ?_⟩
      have hentry : e.source = some (.payment s.payment.id) ∧ e.currency = s.payment.currency := by
        simp only [Move.postings, List.mem_cons, List.not_mem_nil, or_false] at he
        rcases he with rfl | rfl | rfl <;> exact ⟨rfl, rfl⟩
      rw [hentry.1] at hsource
      exact ⟨Source.payment.inj (Option.some.inj hsource), hentry.2⟩
  | undo env p fee metadata =>
      refine ⟨p, rfl, ?_⟩
      have hguard : UndoGuard (View.alone d b) p fee := hm
      obtain ⟨event, hfee, htaken⟩ := Option.bind_eq_some_iff.mp (Option.mem_toList.mp he)
      obtain ⟨original, horiginal, rfl⟩ := Option.map_eq_some_iff.mp htaken
      have hplain := ((hguard.takesBack hb).event event hfee).2
      have hentry : original.plain = p.fixed.fee := by
        have hboth := congrArg RevenueEvent.ledgerEntry hplain
        simp only [RevenueEvent.plain, horiginal, Option.map_some, Payment.Fixed.success,
          Option.some.injEq] at hboth
        exact hboth
      have hof : original.source = some (.payment p.id) :=
        congrArg (fun e : LedgerEntry => e.source) hentry
      have hcurrency : original.currency = p.currency :=
        congrArg (fun e : LedgerEntry => e.currency) hentry
      have hsame : original.source = some (.payment id) := hsource
      rw [hof] at hsame
      exact ⟨Source.payment.inj (Option.some.inj hsame), hcurrency⟩
  | issue env cn currency =>
      obtain rfl := List.mem_singleton.mp he
      cases hsource
  | _ => cases he

/-! ## The invariant -/

/-- Bills are in the default currency, an entry for a payment is in the payment's, and so is
a payment for a bill's control number in the bills'. -/
structure Denominated (b : Books) : Prop where
  bills : ∀ bill ∈ b.bills, bill.currency = "TZS"
  entries : ∀ e ∈ b.ledger, ∀ id, e.source = some (.payment id) →
    ∃ p ∈ b.payments, p.id = id ∧ e.currency = p.currency
  bound : ∀ p ∈ b.payments, ∀ cn ∈ b.controlNumbers, cn.id = p.controlNumber →
    cn.bill?.isSome → p.currency = "TZS"

theorem denominated_empty : Denominated .empty where
  bills _ h := absurd h List.not_mem_nil
  entries _ h := absurd h List.not_mem_nil
  bound _ h := absurd h List.not_mem_nil

/-- The payment that the move opens, if any, is in the currency of the bill it is for. -/
def Move.OpensInBillCurrency (b : Books) (m : Move) : Prop :=
  ∀ p ∈ m.opened, ∀ cn ∈ b.controlNumbers, cn.id = p.controlNumber → cn.bill?.isSome →
    p.currency = "TZS"

/-- A payment is still there, with the columns that nothing updates. -/
theorem exists_payment_run (m : Move) {p : Payment} (hp : p ∈ b.payments) :
    ∃ p' ∈ (m.run b).payments, p'.fixed = p.fixed := by
  rw [Move.run_payments]
  exact ⟨_, List.mem_append_left _ (List.mem_map_of_mem hp), m.onPayment_fixed p⟩

theorem Denominated.entries_run (h : Denominated b) (hb : Balanced b)
    (hm : m.Guard (View.alone d b)) :
    ∀ e ∈ (m.run b).ledger, ∀ id, e.source = some (.payment id) →
      ∃ p ∈ (m.run b).payments, p.id = id ∧ e.currency = p.currency := by
  intro e he id hsource
  have hrow : ∃ p ∈ b.payments, p.id = id ∧ e.currency = p.currency := by
    rw [Move.run_ledger] at he
    rcases List.mem_append.mp he with hold | hnew
    · exact h.entries e hold id hsource
    · obtain ⟨p, hentered, hid, hcurrency⟩ := hm.postings_currency hb.toBooked hnew hsource
      obtain ⟨old, hold, hfixed, -⟩ := hm.lawful.entered p hentered
      exact ⟨old, hold, (congrArg Payment.Fixed.id hfixed).symm.trans hid,
        hcurrency.trans (congrArg Payment.Fixed.currency hfixed)⟩
  obtain ⟨p, hp, hid, hcurrency⟩ := hrow
  obtain ⟨p', hp', hfixed⟩ := exists_payment_run m hp
  exact ⟨p', hp', (congrArg Payment.Fixed.id hfixed).trans hid,
    hcurrency.trans (congrArg Payment.Fixed.currency hfixed).symm⟩

theorem Denominated.bills_run (h : Denominated b) (hm : m.Guard (View.alone d b)) :
    ∀ bill ∈ (m.run b).bills, bill.currency = "TZS" := by
  intro bill hbill
  rw [Move.run_bills] at hbill
  rcases List.mem_append.mp hbill with hold | hnew
  · obtain ⟨row, hrow, rfl⟩ := List.mem_map.mp hold
    exact (m.onBill_currency row).trans (h.bills row hrow)
  · cases m with
    | openBill items new now =>
        obtain rfl := List.mem_singleton.mp hnew
        obtain ⟨-, -, -, hcurrency, -⟩ := hm
        exact hcurrency
    | _ => cases hnew

/-- A control number of the tables after the move that a payment from before refers to. -/
theorem controlNumber_before (hm : m.Guard (View.alone d b)) {cn : ControlNumber}
    (hcn : cn ∈ (m.run b).controlNumbers)
    (hreferred : ∃ row ∈ b.controlNumbers, row.id = cn.id) :
    ∃ row ∈ b.controlNumbers, row.id = cn.id ∧ row.bill? = cn.bill? := by
  rw [Move.run_controlNumbers] at hcn
  rcases List.mem_append.mp hcn with hold | hnew
  · obtain ⟨row, hrow, rfl⟩ := List.mem_map.mp hold
    obtain ⟨hid, -, -, howner⟩ := Move.onControlNumber_same hm row
    refine ⟨row, hrow, hid.symm, ?_⟩
    rw [ControlNumber.bill?, ControlNumber.bill?, howner]
  · cases m with
    | issue env new currency =>
        obtain rfl := List.mem_singleton.mp hnew
        obtain ⟨hclash, -⟩ := hm
        rw [View.sees_alone] at hclash
        obtain ⟨row, hrow, hid⟩ := hreferred
        have hany := List.any_eq_false.mp hclash row hrow
        simp [hid] at hany
    | _ => cases hnew

theorem Denominated.bound_run (h : Denominated b) (hb : Balanced b) (hm : m.Guard (View.alone d b))
    (hopens : m.OpensInBillCurrency b) :
    ∀ p ∈ (m.run b).payments, ∀ cn ∈ (m.run b).controlNumbers, cn.id = p.controlNumber →
      cn.bill?.isSome → p.currency = "TZS" := by
  intro p hp cn hcn hid hbill
  rw [Move.run_payments] at hp
  rcases List.mem_append.mp hp with hold | hnew
  · obtain ⟨row, hrow, rfl⟩ := List.mem_map.mp hold
    have hfixed := m.onPayment_fixed row
    have hnumber : cn.id = row.controlNumber :=
      hid.trans (congrArg Payment.Fixed.controlNumber hfixed)
    obtain ⟨referred, hreferred, hreferredId⟩ := hb.references row hrow
    obtain ⟨cn', hcn', hid', hbill'⟩ :=
      controlNumber_before hm hcn ⟨referred, hreferred, hreferredId.trans hnumber.symm⟩
    have hcurrency := h.bound row hrow cn' hcn' (hid'.trans hnumber) (hbill' ▸ hbill)
    exact (congrArg Payment.Fixed.currency hfixed).trans hcurrency
  · have hreferred : ∃ row ∈ b.controlNumbers, row.id = cn.id := by
      cases m with
      | openPayment payment =>
          obtain rfl := List.mem_singleton.mp hnew
          obtain ⟨-, -, -, -, -, ⟨row, hrow, hrowId, -⟩, -⟩ := hm
          rw [View.sees_alone] at hrow
          exact ⟨row, hrow, hrowId.trans hid.symm⟩
      | _ => cases hnew
    obtain ⟨cn', hcn', hid', hbill'⟩ := controlNumber_before hm hcn hreferred
    exact hopens p hnew cn' hcn' (hid'.trans hid) (hbill' ▸ hbill)

theorem Denominated.run (h : Denominated b) (hb : Balanced b) (hm : m.Guard (View.alone d b))
    (hopens : m.OpensInBillCurrency b) : Denominated (m.run b) where
  bills := h.bills_run hm
  entries := h.entries_run hb hm
  bound := h.bound_run hb hm hopens

/-- Only the first move of a request may open a payment. -/
theorem Denominated.runAll_rest {ms : List Move} (h : Denominated b) (hb : Balanced b)
    (hchain : (View.alone d b).Chain ms) (hrest : ∀ m ∈ ms, m.opened = []) :
    Denominated (Move.runAll ms b) := by
  induction ms generalizing b with
  | nil => exact h
  | cons m ms ih =>
      obtain ⟨hguard, hlater⟩ := hchain
      rw [View.map_alone] at hlater
      have hopens : m.OpensInBillCurrency b := by
        intro p hp
        rw [hrest m List.mem_cons_self] at hp
        cases hp
      exact ih (h.run hb hguard hopens) (hb.run hguard) hlater
        fun m' hm' => hrest m' (List.mem_cons_of_mem _ hm')

theorem Denominated.runAll {ms rest : List Move} {m : Move} (h : Denominated b) (hb : Balanced b)
    (hms : ms = m :: rest) (hchain : (View.alone d b).Chain ms)
    (hrest : ∀ m ∈ rest, m.opened = []) (hopens : m.OpensInBillCurrency b) :
    Denominated (Move.runAll ms b) := by
  subst hms
  obtain ⟨hguard, hlater⟩ := hchain
  rw [View.map_alone] at hlater
  exact (h.run hb hguard hopens).runAll_rest (hb.run hguard) hlater hrest

end Moves

/-! ## Requests -/

/-- The tenant's default currency is that of the bills. -/
def DB.InBillCurrency (s : DB) (tenant : ℕ) : Prop :=
  ∀ row, s.tenants.find? (·.id = tenant) = some row → row.defaultCurrency = "TZS"

/-- The request does not reach the provider with a payment for a bill's control number while
the default currency of the tenant is another one than that of bills. -/
def Request.OpensInBillCurrency (s : DB) (request : Request) : Prop :=
  ∀ input bill, request.initiation? s = some (input, bill) →
    input.controlNumber.bill?.isSome → input.reaches request.env s = true →
      s.InBillCurrency input.tenant

section Requests

variable {request : Request} {s t : DB} {input : InitiateInput} {bill : Option Bill}

/-- What the view looked up is what `initiate_payment` relies on. -/
theorem initiation_valid (h : request.initiation? s = some (input, bill)) :
    input.Valid s.view bill := by
  obtain ⟨env, action⟩ := request
  cases action with
  | payBill tenant pk code amount payer metadata =>
      simp only [Request.initiation?, Option.bind_eq_bind, Option.bind_eq_some_iff,
        Option.pure_def, Option.some.injEq, Prod.mk.injEq] at h
      obtain ⟨row, hrow, cn, hcn, provider, hprovider, rfl, rfl⟩ := h
      have hkey := List.find?_some hrow
      have howner := List.find?_some hcn
      simp only [Bool.and_eq_true, decide_eq_true_eq] at hkey howner
      have hmem : row ∈ s.bills := List.mem_of_find?_eq_some hrow
      have hbound : cn.bill? = some row.id := by rw [ControlNumber.bill?, howner]
      refine ⟨?_, Or.inr ⟨row, hbound, hkey.2, ?_⟩, ?_, fun found hfound => ?_⟩
      · rw [View.sees_alone]
        exact List.mem_of_find?_eq_some hcn
      · rw [View.sees_alone]
        exact hmem
      · rw [View.sees_alone]
        exact List.mem_of_find?_eq_some hprovider
      · obtain rfl := Option.some.inj hfound
        rw [View.seesAt_alone]
        exact ⟨hbound, hmem⟩
  | paymentListCreate tenant value code channel amount payer key metadata =>
      simp only [Request.initiation?, Option.bind_eq_bind, Option.bind_eq_some_iff,
        Option.pure_def, Option.some.injEq, Prod.mk.injEq] at h
      obtain ⟨cn, hcn, provider, hprovider, rfl, rfl⟩ := h
      have hkey := List.find?_some hcn
      simp only [Bool.and_eq_true, decide_eq_true_eq] at hkey
      refine ⟨?_, Or.inl hkey.2, ?_, fun found hfound => by cases hfound⟩
      · rw [View.sees_alone]
        exact List.mem_of_find?_eq_some hcn
      · rw [View.sees_alone]
        exact List.mem_of_find?_eq_some hprovider
  | _ => cases h

/-- A request that starts a payment and ends normally. -/
theorem handler_initiated (h : request.initiation? s = some (input, bill))
    (hexec : request.handler.exec s = .ok ((), t)) :
    ∃ ms, s.view.Chain ms ∧ t.toBooks = Move.runAll ms s.toBooks ∧
      (ms = [] ∨ ∃ adapter after, Initiated request.env input adapter ms after) := by
  rw [(handler_initiation h).2, payAndForget, Txn.exec_bind_ok] at hexec
  obtain ⟨payment, u, hpays, hret⟩ := hexec
  obtain ⟨-, rfl⟩ := Prod.mk.inj (Except.ok.inj hret)
  have hview : viewOf (fun _ v => v = s) id = s.view := viewOf_alone s id
  have hwp : (initiatePayment request.env input bill).wp (fun _ => True) (fun _ v => v = s) id
      (fun _ pend => ∃ ms, Effect (fun _ v => v = s) id ms pend ∧
        (ms = [] ∨ ∃ adapter after, Initiated request.env input adapter ms after))
      fun _ _ => True := by
    apply wp_initiatePayment
    · rw [hview]
      exact initiation_valid h
    · exact fun _ _ => trivial
    · exact fun _ _ => trivial
    · exact fun _ pend heffect => ⟨[], heffect, Or.inl rfl⟩
    · exact fun adapter ms after pend _ hinit heffect =>
        ⟨ms, heffect, Or.inr ⟨adapter, after, hinit⟩⟩
  obtain ⟨pend, rfl, ms, heffect, hms⟩ := Txn.exec_ok_of_wp hwp hpays
  have hchain := heffect.chain
  rw [hview] at hchain
  exact ⟨ms, hchain, congrArg Prod.snd (heffect.writes s), hms⟩

/-- A view that does not get to `initiate_payment` writes nothing. -/
theorem handler_uninitiated (h : request.initiation? s = none)
    (hview : request.action.isInitiation = true) (hexec : request.handler.exec s = .ok ((), t)) :
    t = s := by
  obtain ⟨env, action⟩ := request
  cases action with
  | payBill tenant pk code amount payer metadata =>
      simp only [Request.handler, payBill, billOr404, controlNumberOfBill, Txn.exec_bind,
        exec_getOr404] at hexec
      cases hbill : s.bills.find? fun b => b.id = pk && b.tenant = tenant with
      | none =>
          rw [hbill] at hexec
          cases hexec
      | some row =>
          simp only [hbill, Txn.exec_fetch] at hexec
          cases hcn : s.controlNumbers.find? (·.owner = .bill row.id) with
          | none =>
              rw [hcn] at hexec
              exact (Prod.mk.inj (Except.ok.inj hexec)).2.symm
          | some cn =>
              simp only [hcn, Txn.exec_bind, exec_getRow] at hexec
              cases hprovider : s.providers.find? (·.code = code) with
              | none =>
                  rw [hprovider] at hexec
                  cases hexec
              | some provider => simp [Request.initiation?, hbill, hcn, hprovider] at h
  | paymentListCreate tenant value code channel amount payer key metadata =>
      simp only [Request.handler, paymentListCreate, providerOr404, Txn.exec_bind,
        exec_getOr404] at hexec
      cases hcn : s.controlNumbers.find? fun c => c.value = value && c.tenant = tenant with
      | none =>
          rw [hcn] at hexec
          cases hexec
      | some cn =>
          cases hprovider : s.providers.find? (·.code = code) with
          | none =>
              simp only [hcn, hprovider] at hexec
              cases hexec
          | some provider => simp [Request.initiation?, hcn, hprovider] at h
  | _ => cases hview

/-- What a request opens: nothing, or the one payment of its initiation. -/
theorem opens_cases (hunique : (s.payments.map (·.id)).Nodup)
    (hexec : request.handler.exec s = .ok ((), t)) :
    SavedTenant s t ∨
      ∃ ms, s.view.Chain ms ∧ t.toBooks = Move.runAll ms s.toBooks ∧
        ((∀ m ∈ ms, m.opened = []) ∨ ∃ input bill adapter after,
          request.initiation? s = some (input, bill) ∧
            Initiated request.env input adapter ms after) := by
  rcases exec_cases hunique hexec with hsaved | ⟨ms, hmoves, hchain, -, hbooks⟩
  · exact Or.inl hsaved
  · right
    by_cases hopens : ∀ m ∈ ms, m.opened = []
    · exact ⟨ms, hchain, hbooks, Or.inl hopens⟩
    · cases hinitiation : request.initiation? s with
      | some found =>
          obtain ⟨input, bill⟩ := found
          obtain ⟨ms', hchain', hbooks', hinit⟩ := handler_initiated hinitiation hexec
          refine ⟨ms', hchain', hbooks', ?_⟩
          rcases hinit with rfl | ⟨adapter, after, hinit⟩
          · exact Or.inl fun m hm => absurd hm List.not_mem_nil
          · exact Or.inr ⟨input, bill, adapter, after, rfl, hinit⟩
      | none =>
          obtain ⟨m, hm, hopened⟩ := not_forall₂.mp hopens
          obtain rfl := handler_uninitiated hinitiation (hmoves.starts hm hopened).1 hexec
          exact ⟨[], trivial, rfl, Or.inl fun m hm => absurd hm List.not_mem_nil⟩

/-- A payment is still there after any moves. -/
theorem exists_payment_runAll (ms : List Move) {b : Books} {p : Payment} (hp : p ∈ b.payments) :
    ∃ p' ∈ (Move.runAll ms b).payments, p'.fixed = p.fixed := by
  obtain ⟨p', hp', hfixed, -⟩ := chain_source ms b hp
  exact ⟨p', hp', hfixed⟩

/-- An initiation that opens a payment reaches the provider. -/
theorem reaches_of_opens (h : request.initiation? s = some (input, bill))
    (hexec : request.handler.exec s = .ok ((), t)) {p : Payment} {rest : List Move}
    (hbooks : t.toBooks = Move.runAll (.openPayment p :: rest) s.toBooks)
    (hfresh : ∀ row ∈ s.payments, row.id ≠ p.id) : input.reaches request.env s = true := by
  rw [(handler_initiation h).2, payAndForget, Txn.exec_bind_ok] at hexec
  obtain ⟨payment, u, hpays, hret⟩ := hexec
  obtain ⟨-, rfl⟩ := Prod.mk.inj (Except.ok.inj hret)
  by_contra hrefused
  have hsame := (initiatePayment_refused bill (Bool.not_eq_true _ ▸ hrefused)).2 payment u hpays
  have hopened : p ∈ (Move.run (.openPayment p) s.toBooks).payments :=
    List.mem_append_right _ List.mem_cons_self
  obtain ⟨row, hrow, hfixed⟩ := exists_payment_runAll rest hopened
  have hrow' : row ∈ u.payments := by
    rw [show u.payments = u.toBooks.payments from rfl, hbooks]
    exact hrow
  rw [hsame] at hrow'
  exact hfresh row hrow' (congrArg Payment.Fixed.id hfixed)

/-- One request keeps the currencies in step if the payment that it opens is priced as its bill. -/
theorem Denominated.commit (h : Denominated s.toBooks) (hs : Balanced s.toBooks)
    (hopens : request.OpensInBillCurrency s) : Denominated (request.handler.commit s).toBooks := by
  rcases request.handler.commit_cases s with ⟨-, hsame⟩ | hexec
  · rw [hsame]
    exact h
  rcases opens_cases hs.keyed hexec with ⟨_, _, -, -, hbooks⟩ | ⟨ms, hchain, hbooks, hms⟩
  · rw [hbooks]
    exact h
  rcases hms with hnone | ⟨input, bill, adapter, after, hinitiation, hinit⟩
  · rw [hbooks]
    exact h.runAll_rest hs hchain hnone
  obtain ⟨currency, rest, rfl, hrest, -⟩ := hinit.opens
  obtain ⟨-, -, -, -, hclash, -, -, hcurrency⟩ := hchain.1
  rw [View.sees_alone] at hclash hcurrency
  have hfresh : ∀ row ∈ s.payments, row.id ≠ (input.newPayment request.env currency).id := by
    intro row hrow hid
    have hany := List.any_eq_false.mp hclash row hrow
    simp [hid] at hany
  have hreaches := reaches_of_opens hinitiation hexec hbooks hfresh
  rw [hbooks]
  apply h.runAll hs rfl hchain hrest
  intro p hp cn hcn hid hbound
  obtain rfl := List.mem_singleton.mp hp
  have hheld := (initiation_valid hinitiation).controlNumber
  rw [View.sees_alone] at hheld
  obtain rfl : cn = input.controlNumber := Support.eq_of_key hs.keys.controlNumbers hcn hheld hid
  obtain ⟨tenant, htenant, hdefault⟩ := hcurrency
  exact hdefault.trans (hopens input bill hinitiation hbound hreaches tenant htenant)

end Requests

/-! ## Runs -/

/-- Each request of the run opens no payment that is priced otherwise than its bill. -/
def OpenedInBillCurrency (start : DB) (requests : List Request) : Prop :=
  ∀ earlier request later, requests = earlier ++ request :: later →
    request.OpensInBillCurrency (afterAll start earlier)

/-- An allocation joins a payment and a bill of one currency, and the receipt of a payment
and its ledger entries are in the currency of the payment. -/
structure CurrencyCoherent (s : DB) : Prop where
  allocations : ∀ a ∈ s.allocations, ∀ p ∈ s.payments, p.id = a.payment →
    ∀ bill ∈ s.bills, bill.id = a.bill → p.currency = bill.currency
  receipts : ∀ r ∈ s.receipts, ∀ p ∈ s.payments, p.id = r.payment → r.currency = p.currency
  ledger : ∀ e ∈ s.ledger, ∀ p ∈ s.payments, e.source = some (.payment p.id) →
    e.currency = p.currency

theorem Denominated.coherent {s : DB} (h : Denominated s.toBooks) (hs : Balanced s.toBooks) :
    CurrencyCoherent s := by
  constructor
  · intro a ha p hp hpayment bill hbill hid
    obtain ⟨x, hx, hof⟩ := List.mem_flatMap.mp (hs.allocations.subset ha)
    obtain ⟨target, htarget, rfl⟩ := Option.map_eq_some_iff.mp (Option.mem_toList.mp hof)
    obtain ⟨rfl, -⟩ := fixed_of_mem_inClass hs.toBooked hx hp hpayment.symm
    obtain ⟨cn, hcn, hbound⟩ := Option.bind_eq_some_iff.mp htarget
    have hnumber := List.find?_some hcn
    have hcurrency := h.bound p hp cn (List.mem_of_find?_eq_some hcn) (of_decide_eq_true hnumber)
      (Option.isSome_of_mem hbound)
    rw [hcurrency, h.bills bill hbill]
  · intro r hr p hp hpayment
    obtain ⟨x, hx, hstated⟩ := List.mem_map.mp (hs.receipts.subset (List.mem_map_of_mem hr))
    have hxid : x.id = p.id := (congrArg (·.2.1) hstated).trans hpayment.symm
    obtain ⟨rfl, -⟩ := fixed_of_mem_inClass hs.toBooked hx hp hxid
    exact (congrArg (·.2.2.2) hstated).symm
  · intro e he p hp hsource
    obtain ⟨q, hq, hid, hcurrency⟩ := h.entries e he p.id hsource
    obtain rfl := Support.eq_of_key hs.keyed hq hp hid
    exact hcurrency

theorem denominated_afterAll {start : DB} (hstart : Initial start) (requests : List Request)
    (hopened : OpenedInBillCurrency start requests) :
    Denominated (afterAll start requests).toBooks := by
  induction requests using List.reverseRecOn with
  | nil =>
      rw [afterAll, after_nil, hstart.books]
      exact denominated_empty
  | append_singleton rs r ih =>
      have hearlier : OpenedInBillCurrency start rs := by
        intro earlier request later hrs
        apply hopened earlier request (later ++ [r])
        rw [hrs, List.append_assoc, List.cons_append]
      rw [afterAll, after_concat]
      exact (ih hearlier).commit (balanced_afterAll hstart rs) (hopened rs r [] rfl)

/-- In every state of a run in which no payment for a bill is opened in another currency than
that of bills, allocations, receipts and ledger entries are in the currency of their payment
and their bill. -/
theorem currency_coherence {start : DB} (hstart : Initial start) (requests : List Request)
    (hopened : OpenedInBillCurrency start requests) :
    ∀ earlier later, requests = earlier ++ later → CurrencyCoherent (afterAll start earlier) := by
  rintro earlier later rfl
  have hearlier : OpenedInBillCurrency start earlier := by
    rintro before request after rfl
    apply hopened before request (after ++ later)
    rw [List.append_assoc, List.cons_append]
  exact (denominated_afterAll hstart earlier hearlier).coherent (balanced_afterAll hstart earlier)

/-- A bill, the tenant's change to Kenyan shillings, and a payment on the bill. -/
def repricedRun (currency : String) : List Request :=
  [issueBill,
   { env := envAt 2 (answering .pending "" ""), action := .changeDefaultCurrency 1 currency },
   payIssuedBill 3 (answering .successful "p" "") (amountOf 4000)]

theorem currency_coherence_unchanged :
    CurrencyCoherent (afterAll smallInstallation (repricedRun "TZS")) := by
  have hshillings : ∀ n ≤ 3, ∀ row ∈
      (afterAll smallInstallation ((repricedRun "TZS").take n)).tenants,
      row.defaultCurrency = "TZS" := by
    decide +kernel
  apply currency_coherence smallInstallation_initial (repricedRun "TZS") _ _ []
  · exact (List.append_nil _).symm
  · intro earlier request later hrun input bill _ _ _ row hrow
    have hlength : earlier.length ≤ 3 := by
      have hall := congrArg List.length hrun
      rw [List.length_append, List.length_cons] at hall
      change 3 = _ at hall
      omega
    have htake : (repricedRun "TZS").take earlier.length = earlier := by
      rw [hrun, List.take_left']
      rfl
    rw [← htake] at hrow
    exact hshillings _ hlength row (List.mem_of_find?_eq_some hrow)

/-- The allocation joins 40.00 KES with a bill in TZS. -/
theorem currency_coherence_failing :
    ¬∀ start : DB, Initial start → ∀ requests, CurrencyCoherent (afterAll start requests) := by
  intro h
  have hcoherent := h smallInstallation smallInstallation_initial (repricedRun "KES")
  have hmixed : ∃ a ∈ (afterAll smallInstallation (repricedRun "KES")).allocations,
      ∃ p ∈ (afterAll smallInstallation (repricedRun "KES")).payments, p.id = a.payment ∧
      ∃ bill ∈ (afterAll smallInstallation (repricedRun "KES")).bills, bill.id = a.bill ∧
        p.currency = "KES" ∧ bill.currency = "TZS" := by
    decide +kernel
  obtain ⟨a, ha, p, hp, hpayment, bill, hbill, hid, hkes, htzs⟩ := hmixed
  have hsame := hcoherent.allocations a ha p hp hpayment bill hbill hid
  rw [hkes, htzs] at hsame
  revert hsame
  decide

end Kusanya
