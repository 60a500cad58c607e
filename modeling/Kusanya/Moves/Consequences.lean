import Kusanya.Moves.Completions
import Kusanya.Moves.Initiations

/-!
# The tables after an outcome

A success allocates the payment, may move the status of its bill and issues a receipt; no other
outcome writes what the side effects of a later one read.
-/

namespace Kusanya

open ReadCommitted

/-! ## The receipt of a success -/

/-- The receipt that `generate_receipt` inserts, if the payment has none. -/
def DB.receiptFor (env : Env) (s : DB) (payment : Payment) (cn : ControlNumber)
    (bill : Option Bill) : Option Receipt :=
  match s.toBooks.receiptOf payment.id with
  | some _ => none
  | none => do
      let account ← accountId cn bill
      let customer ← s.customerOf account
      let tenant ← s.tenants.find? (·.id = payment.tenant)
      let provider ← s.providers.find? (·.id = payment.provider)
      some (newReceipt env payment cn bill customer tenant provider
        ((bill.map s.toBooks.balanceOf).bind Numeric.ofMoney?))

/-- The state that a success leaves, as far as the next one reads it. -/
def DB.credited (env : Env) (s : DB) (payment : Payment) (cn : ControlNumber)
    (bill : Option Bill) : DB :=
  inBooks (·.issueReceipt ((s.allocated env payment bill).receiptFor env payment cn
    (bill.map (s.toBooks.settledBill env.now payment)))) (s.allocated env payment bill)

/-- The state that an outcome leaves, as far as the next one reads it. -/
def DB.afterOutcome (env : Env) (s : DB) (payment : Payment) (given : Related)
    (outcome : ProviderOutcome) : DB :=
  if outcome = .successful ∧ payment.status ≠ .successful then
    match s.related payment given with
    | some (cn, bill) => s.credited env payment cn bill
    | none => s
  else s

section Consequences

variable {env : Env} {s t : DB} {payment payment' : Payment} {cn : ControlNumber}
  {bill : Option Bill} {receipt : Receipt} {given : Related}

theorem remainingBalance_exec {remaining : Option Numeric}
    (h : (remainingBalance bill).exec s = .ok (remaining, t)) :
    t = s ∧ remaining = (bill.map s.toBooks.balanceOf).bind Numeric.ofMoney? := by
  rw [exec_remainingBalance] at h
  cases hleft : bill.map s.toBooks.balanceOf with
  | none =>
      rw [hleft] at h
      obtain ⟨rfl, rfl⟩ := Prod.mk.inj (Except.ok.inj h)
      exact ⟨rfl, rfl⟩
  | some left =>
      rw [hleft] at h
      dsimp only at h
      rw [Option.bind_some]
      cases hstored : Numeric.ofMoney? left with
      | none =>
          rw [hstored] at h
          cases h
      | some stored =>
          rw [hstored] at h
          obtain ⟨rfl, rfl⟩ := Prod.mk.inj (Except.ok.inj h)
          exact ⟨rfl, rfl⟩

theorem generateReceipt_exec (h : (generateReceipt env payment cn bill).exec s = .ok (receipt, t)) :
    t = inBooks (·.issueReceipt (s.receiptFor env payment cn bill)) s := by
  rw [generateReceipt, Txn.exec_bind, Txn.exec_fetch] at h
  unfold DB.receiptFor
  cases hexists : s.toBooks.receiptOf payment.id with
  | some existing =>
      rw [hexists] at h
      obtain ⟨rfl, rfl⟩ := Prod.mk.inj (Except.ok.inj h)
      rfl
  | none =>
      rw [hexists] at h
      dsimp only at h ⊢
      obtain ⟨_, s₀, hraise, h₀⟩ := (Txn.exec_bind_ok _).mp h
      obtain ⟨account, s₁, haccount, h₁⟩ := (Txn.exec_bind_ok _).mp h₀
      obtain ⟨customer, s₂, hcustomer, h₂⟩ := (Txn.exec_bind_ok _).mp h₁
      obtain ⟨tenant, s₃, htenant, h₃⟩ := (Txn.exec_bind_ok _).mp h₂
      obtain ⟨provider, s₄, hprovider, h₄⟩ := (Txn.exec_bind_ok _).mp h₃
      obtain ⟨remaining, s₅, hremaining, h₅⟩ := (Txn.exec_bind_ok _).mp h₄
      obtain ⟨_, s₆, hinsert, h₆⟩ := (Txn.exec_bind_ok _).mp h₅
      rw [exec_raiseIf] at hraise
      split at hraise
      · cases hraise
      obtain ⟨-, rfl⟩ := Prod.mk.inj (Except.ok.inj hraise)
      obtain ⟨hbehind, rfl⟩ := (looks_accountBehind cn bill).exec_ok haccount
      obtain ⟨hnamed, rfl⟩ := (looks_customerOf account).exec_ok hcustomer
      obtain ⟨hrow, rfl⟩ := (looks_getRow _ _).exec_ok htenant
      obtain ⟨hserves, rfl⟩ := (looks_getRow _ _).exec_ok hprovider
      obtain ⟨rfl, hleft⟩ := remainingBalance_exec hremaining
      rw [exec_insertReceipt] at hinsert
      split at hinsert
      · split at hinsert
        · cases hinsert
        · obtain ⟨-, rfl⟩ := Prod.mk.inj (Except.ok.inj hinsert)
          obtain ⟨rfl, rfl⟩ := Prod.mk.inj (Except.ok.inj h₆)
          simp only [hbehind, hnamed, hrow, hserves, ← hleft, Option.bind_eq_bind,
            Option.bind_some]
          rfl
      · cases hinsert

/-- Code that writes only side records leaves what is looked at. -/
theorem OnTrail.looked {α : Type} {p : Tx α} {a : α} (hp : OnTrail p)
    (h : p.exec s = .ok (a, t)) : t.looked = s.looked :=
  congrArg (fun core : Directory × Books => (core.1, core.2.controlNumbers, core.2.bills,
    core.2.allocations, core.2.receipts)) (hp.exec h)

/-- The state that an allocation leaves is read from what is looked at. -/
theorem allocated_congr (h : t.looked = s.looked) (hid : payment'.id = payment.id)
    (htenant : payment'.tenant = payment.tenant) (hamount : payment'.amount = payment.amount) :
    (t.allocated env payment' bill).looked = (s.allocated env payment bill).looked := by
  have hdirectory : t.toDirectory = s.toDirectory := congrArg (·.1) h
  have hnumbers : t.controlNumbers = s.controlNumbers := congrArg (·.2.1) h
  have hbills : t.bills = s.bills := congrArg (·.2.2.1) h
  have hallocations : t.allocations = s.allocations := congrArg (·.2.2.2.1) h
  have hreceipts : t.receipts = s.receipts := congrArg (·.2.2.2.2) h
  cases bill with
  | none => exact h
  | some bill =>
      have hentered : t.toBooks.entered payment' (some bill) =
          s.toBooks.entered payment (some bill) := by
        rw [Books.entered, Books.entered, Option.bind_some, Option.bind_some, remaining_congr h,
          Books.remaining, Books.remaining, hamount]
      have hrow : payment'.allocationTo bill.id = payment.allocationTo bill.id := by
        rw [Payment.allocationTo, Payment.allocationTo, hid, htenant, hamount]
      rw [DB.allocated, DB.allocated, hentered]
      cases s.toBooks.entered payment (some bill) with
      | none =>
          simp only [DB.looked, inBooks, Books.allocate, Books.enterBill, Books.addAllocation, hrow,
            hdirectory, hnumbers, hbills, hallocations, hreceipts]
      | some status =>
          simp only [DB.looked, inBooks, Books.allocate, Books.enterBill, Books.addAllocation,
            Books.saveBill, Books.updateBill, hrow, hdirectory, hnumbers, hbills, hallocations,
            hreceipts]

theorem receiptFor_congr (h : t.looked = s.looked) (hid : payment'.id = payment.id)
    (htenant : payment'.tenant = payment.tenant) (hamount : payment'.amount = payment.amount)
    (hprovider : payment'.provider = payment.provider)
    (hchannel : payment'.channel = payment.channel)
    (hcurrency : payment'.currency = payment.currency)
    (hreference : payment'.merchantReference = payment.merchantReference) :
    t.receiptFor env payment' cn bill = s.receiptFor env payment cn bill := by
  have hdirectory : t.toDirectory = s.toDirectory := congrArg (·.1) h
  have hallocations : t.allocations = s.allocations := congrArg (·.2.2.2.1) h
  have hreceipts : t.receipts = s.receipts := congrArg (·.2.2.2.2) h
  have hbalance : t.toBooks.balanceOf = s.toBooks.balanceOf := by
    funext bill
    rw [Books.balanceOf, Books.balanceOf, Books.amountPaid, Books.amountPaid, hallocations]
  have hnew : newReceipt env payment' cn bill = newReceipt env payment cn bill := by
    funext customer tenant provider remaining
    rw [newReceipt, newReceipt, hid, htenant, hamount, hchannel, hcurrency, hreference]
  unfold DB.receiptFor Books.receiptOf DB.customerOf
  rw [hreceipts, hdirectory, hbalance, hnew, hid, htenant, hprovider]

theorem looked_issueReceipt (s : DB) (receipt : Option Receipt) :
    (inBooks (·.issueReceipt receipt) s).looked =
      (s.toDirectory, s.controlNumbers, s.bills, s.allocations, s.receipts ++ receipt.toList) := by
  cases receipt with
  | none => rw [Option.toList_none, List.append_nil]; rfl
  | some receipt => rfl

/-- The state that a success leaves is read from what is looked at. -/
theorem credited_congr (h : t.looked = s.looked) (hid : payment'.id = payment.id)
    (htenant : payment'.tenant = payment.tenant) (hamount : payment'.amount = payment.amount)
    (hprovider : payment'.provider = payment.provider)
    (hchannel : payment'.channel = payment.channel)
    (hcurrency : payment'.currency = payment.currency)
    (hreference : payment'.merchantReference = payment.merchantReference) :
    (t.credited env payment' cn bill).looked = (s.credited env payment cn bill).looked := by
  have hallocated :
      (t.allocated env payment' bill).looked = (s.allocated env payment bill).looked :=
    allocated_congr h hid htenant hamount
  have hsettled : t.toBooks.settledBill env.now payment' =
      s.toBooks.settledBill env.now payment := by
    funext bill
    rw [Books.settledBill, Books.settledBill, remaining_congr h, Books.remaining, Books.remaining,
      hamount]
  rw [DB.credited, DB.credited, looked_issueReceipt, looked_issueReceipt, hsettled,
    receiptFor_congr hallocated hid htenant hamount hprovider hchannel hcurrency hreference]
  exact congrArg (fun x : Directory × List ControlNumber × List Bill × List PaymentAllocation ×
    List Receipt => (x.1, x.2.1, x.2.2.1, x.2.2.2.1, x.2.2.2.2 ++
      ((s.allocated env payment bill).receiptFor env payment cn
        (bill.map (s.toBooks.settledBill env.now payment))).toList)) hallocated

/-- What a success does once its bill is loaded. -/
theorem exec_settle {amount : String} (h : (do
      let bill ← allocateToBill env payment bill
      let receipt ← generateReceipt env payment cn bill
      notifyPaymentSuccessful env payment cn bill amount receipt
      dispatch env payment cn bill amount "payment.successful").exec s = .ok ((), t)) :
    t.looked = (s.credited env payment cn bill).looked := by
  rw [Txn.exec_bind, exec_allocateToBill_eq] at h
  dsimp only at h
  obtain ⟨receipt, u, hreceipt, h₁⟩ := (Txn.exec_bind_ok _).mp h
  obtain ⟨_, v, hnotify, hdispatch⟩ := (Txn.exec_bind_ok _).mp h₁
  have hissued := generateReceipt_exec hreceipt
  have hv := (notifyPaymentSuccessful_onTrail _ _ _ _ _ _).looked hnotify
  have ht := (dispatch_onTrail _ _ _ _ _ _).looked hdispatch
  rw [ht, hv, hissued]
  rfl

theorem exec_onSuccessful_looked (h : (onSuccessful env payment given).exec s = .ok ((), t)) :
    ∃ cn bill, s.related payment given = some (cn, bill) ∧
      t.looked = (s.credited env payment cn bill).looked := by
  obtain ⟨_, s₁, haudit, h₁⟩ := (Txn.exec_bind_ok _).mp h
  obtain ⟨_, s₂, hpost, h₂⟩ := (Txn.exec_bind_ok _).mp h₁
  obtain ⟨_, s₃, hrecord, h₃⟩ := (Txn.exec_bind_ok _).mp h₂
  obtain ⟨⟨cn, bill⟩, s₄, hload, hsettle⟩ := (Txn.exec_bind_ok _).mp h₃
  have hs₁ : s₁.looked = s.looked := (recordAuditEvent_onTrail _ _ _ _ _ _).looked haudit
  have hcorrelated := (exec_recordAuditEvent_ok haudit).1.1
  have hs₂ : s₂.looked = s₁.looked := by
    simp only [postSettlementLedgerEntries, Txn.exec_bind, exec_postEntry _ hcorrelated] at hpost
    obtain ⟨-, rfl⟩ := Prod.mk.inj (Except.ok.inj hpost)
    rfl
  have hs₃ : s₃.looked = s₂.looked := by
    simp only [recordPaymentSuccessful, Txn.exec_bind, exec_postEntry _ hcorrelated,
      exec_recordEvent _ hcorrelated] at hrecord
    obtain ⟨-, rfl⟩ := Prod.mk.inj (Except.ok.inj hrecord)
    rfl
  have hsame : s₃.looked = s.looked := hs₃.trans (hs₂.trans hs₁)
  obtain ⟨hrelated, rfl⟩ := (looks_loadRelated payment given).exec_ok hload
  rw [related_congr hsame] at hrelated
  refine ⟨cn, bill, hrelated, ?_⟩
  rw [exec_settle hsettle]
  exact credited_congr hsame rfl rfl rfl rfl rfl rfl rfl

theorem exec_onFailed_looked (h : (onFailed env payment given).exec s = .ok ((), t)) :
    t.looked = s.looked := by
  obtain ⟨_, s₁, haudit, h₁⟩ := (Txn.exec_bind_ok _).mp h
  obtain ⟨_, s₂, hrecord, h₂⟩ := (Txn.exec_bind_ok _).mp h₁
  obtain ⟨⟨cn, bill⟩, s₃, hload, h₃⟩ := (Txn.exec_bind_ok _).mp h₂
  obtain ⟨_, s₄, hnotify, hdispatch⟩ := (Txn.exec_bind_ok _).mp h₃
  have hs₁ := (recordAuditEvent_onTrail _ _ _ _ _ _).looked haudit
  have hs₂ : s₂.looked = s₁.looked := by
    obtain ⟨-, rfl⟩ := exec_recordEvent_ok hrecord
    rfl
  have hs₃ := (loadRelated_onTrail _ _).looked hload
  have hs₄ := (notify_onTrail _ _ _ _ _ _).looked hnotify
  have ht := (dispatch_onTrail _ _ _ _ _ _).looked hdispatch
  exact ht.trans (hs₄.trans (hs₃.trans (hs₂.trans hs₁)))

theorem exec_transitionTo_ok {new : PaymentStatus} {reason : String} {moved : Payment}
    (h : (payment.transitionTo env new reason).exec s = .ok (moved, t)) :
    moved = payment.moveTo env.now new reason ∧
      t = inBooks (·.updatePayment payment.id moved.saveStatus) s := by
  rw [exec_transitionTo] at h
  split at h
  · split at h
    · obtain ⟨rfl, rfl⟩ := Prod.mk.inj (Except.ok.inj h)
      exact ⟨rfl, rfl⟩
    · cases h
  · cases h

/-- The status after an outcome. -/
def Payment.statusAfter (payment : Payment) (outcome : ProviderOutcome) : PaymentStatus :=
  match outcome.toStatus? with
  | some target => target
  | none =>
      if payment.status = .initiated ∨ payment.status = .pending then .unknown else payment.status

/-- What `_apply_outcome` leaves behind. -/
theorem applyOutcome_exec {outcome : ProviderOutcome}
    (h : (applyOutcome env payment given outcome).exec s = .ok (payment', t)) :
    t.looked = (s.afterOutcome env payment given outcome).looked ∧
      payment'.status = payment.statusAfter outcome ∧
      payment'.providerReference = payment.providerReference := by
  unfold applyOutcome at h
  unfold DB.afterOutcome Payment.statusAfter
  cases houtcome : outcome.toStatus? with
  | none =>
      have hunknown : ¬(outcome = .successful ∧ payment.status ≠ .successful) := by
        rintro ⟨rfl, -⟩
        cases houtcome
      rw [houtcome] at h
      dsimp only at h ⊢
      rw [if_neg hunknown]
      by_cases hopen : payment.status = .initiated ∨ payment.status = .pending
      · rw [if_pos hopen] at h ⊢
        obtain ⟨moved, s₁, hmove, h₁⟩ := (Txn.exec_bind_ok _).mp h
        obtain ⟨_, s₂, haudit, h₂⟩ := (Txn.exec_bind_ok _).mp h₁
        obtain ⟨rfl, rfl⟩ := exec_transitionTo_ok hmove
        obtain ⟨rfl, rfl⟩ := Prod.mk.inj (Except.ok.inj h₂)
        have ht := (recordAuditEvent_onTrail _ _ _ _ _ _).looked haudit
        exact ⟨ht, rfl, rfl⟩
      · rw [if_neg hopen] at h ⊢
        obtain ⟨rfl, rfl⟩ := Prod.mk.inj (Except.ok.inj h)
        exact ⟨rfl, rfl, rfl⟩
  | some target =>
      rw [houtcome] at h
      dsimp only at h ⊢
      by_cases hsame : payment.status = target
      · rw [if_pos hsame] at h
        obtain ⟨rfl, rfl⟩ := Prod.mk.inj (Except.ok.inj h)
        have hnot : ¬(outcome = .successful ∧ payment.status ≠ .successful) := by
          rintro ⟨rfl, hne⟩
          exact hne (hsame.trans (Option.some.inj houtcome).symm)
        rw [if_neg hnot]
        exact ⟨rfl, hsame, rfl⟩
      · rw [if_neg hsame] at h
        obtain ⟨moved, s₁, hmove, h₁⟩ := (Txn.exec_bind_ok _).mp h
        obtain ⟨⟨⟩, s₂, hentered, h₂⟩ := (Txn.exec_bind_ok _).mp h₁
        obtain ⟨rfl, rfl⟩ := exec_transitionTo_ok hmove
        obtain ⟨rfl, rfl⟩ := Prod.mk.inj (Except.ok.inj h₂)
        refine ⟨?_, rfl, rfl⟩
        cases outcome with
        | successful =>
            obtain rfl := Option.some.inj houtcome
            obtain ⟨cn, bill, hrelated, hlooked⟩ := exec_onSuccessful_looked hentered
            have hfound : s.related payment given = some (cn, bill) := hrelated
            rw [if_pos ⟨rfl, hsame⟩, hfound, hlooked]
            exact credited_congr rfl rfl rfl rfl rfl rfl rfl rfl
        | failed =>
            obtain rfl := Option.some.inj houtcome
            have hnot : ¬(ProviderOutcome.failed = .successful ∧ payment.status ≠ .successful) :=
              fun hboth => by cases hboth.1
            rw [if_neg hnot]
            have ht : s₂.looked = _ := exec_onFailed_looked hentered
            exact ht
        | pending =>
            obtain rfl := Option.some.inj houtcome
            have hnot : ¬(ProviderOutcome.pending = .successful ∧ payment.status ≠ .successful) :=
              fun hboth => by cases hboth.1
            rw [if_neg hnot]
            have ht : s₂.looked = _ := onPending_onTrail.looked hentered
            exact ht
        | unknown => cases houtcome

/-- What an operation on a payment never changes of its object. -/
def Payment.subject (payment : Payment) : ℕ × ℕ × ℕ × String :=
  (payment.id, payment.tenant, payment.provider, payment.merchantReference)

theorem applyOutcome_subject {outcome : ProviderOutcome}
    (h : (applyOutcome env payment given outcome).exec s = .ok (payment', t)) :
    payment'.subject = payment.subject := by
  unfold applyOutcome at h
  cases houtcome : outcome.toStatus? with
  | none =>
      rw [houtcome] at h
      dsimp only at h
      by_cases hopen : payment.status = .initiated ∨ payment.status = .pending
      · rw [if_pos hopen] at h
        obtain ⟨moved, s₁, hmove, h₁⟩ := (Txn.exec_bind_ok _).mp h
        obtain ⟨_, s₂, -, h₂⟩ := (Txn.exec_bind_ok _).mp h₁
        obtain ⟨rfl, -⟩ := exec_transitionTo_ok hmove
        obtain ⟨rfl, -⟩ := Prod.mk.inj (Except.ok.inj h₂)
        rfl
      · rw [if_neg hopen] at h
        obtain ⟨rfl, -⟩ := Prod.mk.inj (Except.ok.inj h)
        rfl
  | some target =>
      rw [houtcome] at h
      dsimp only at h
      by_cases hsame : payment.status = target
      · rw [if_pos hsame] at h
        obtain ⟨rfl, -⟩ := Prod.mk.inj (Except.ok.inj h)
        rfl
      · rw [if_neg hsame] at h
        obtain ⟨moved, s₁, hmove, h₁⟩ := (Txn.exec_bind_ok _).mp h
        obtain ⟨_, s₂, -, h₂⟩ := (Txn.exec_bind_ok _).mp h₁
        obtain ⟨rfl, -⟩ := exec_transitionTo_ok hmove
        obtain ⟨rfl, -⟩ := Prod.mk.inj (Except.ok.inj h₂)
        rfl

theorem afterOutcome_congr (h : t.looked = s.looked) (hid : payment'.id = payment.id)
    (hstatus : payment'.status = payment.status)
    (hnumber : payment'.controlNumber = payment.controlNumber)
    (htenant : payment'.tenant = payment.tenant) (hamount : payment'.amount = payment.amount)
    (hprovider : payment'.provider = payment.provider)
    (hchannel : payment'.channel = payment.channel)
    (hcurrency : payment'.currency = payment.currency)
    (hreference : payment'.merchantReference = payment.merchantReference)
    (outcome : ProviderOutcome) :
    (t.afterOutcome env payment' given outcome).looked =
      (s.afterOutcome env payment given outcome).looked := by
  have hrelated : t.related payment' given = s.related payment given := by
    rw [related_congr h]
    unfold DB.related DB.numberOf
    rw [hnumber]
  unfold DB.afterOutcome
  rw [hstatus, hrelated]
  by_cases hsuccess : outcome = .successful ∧ payment.status ≠ .successful
  · rw [if_pos hsuccess, if_pos hsuccess]
    cases s.related payment given with
    | none => exact h
    | some found =>
        exact credited_congr h hid htenant hamount hprovider hchannel hcurrency hreference
  · rw [if_neg hsuccess, if_neg hsuccess]
    exact h

/-! ## Queries -/

/-- What the provider answers about a payment, where it answers. -/
def DB.answer (s : DB) (env : Env) (payment : Payment) : Option ProviderResult := do
  let provider ← s.providers.find? (·.id = payment.provider)
  let adapter ← env.registry provider.code
  (adapter.queryPayment payment.merchantReference).toOption

/-- The provider's reference after a query. -/
def Payment.referenceAfter (payment : Payment) (reference : String) : String :=
  if payment.providerReference = "" then reference else payment.providerReference

theorem answer_eq_some {result : ProviderResult} (h : s.answer env payment = some result) :
    ∃ provider adapter, s.providers.find? (·.id = payment.provider) = some provider ∧
      env.registry provider.code = some adapter ∧
      adapter.queryPayment payment.merchantReference = .ok result := by
  obtain ⟨provider, hprovider, h₁⟩ := Option.bind_eq_some_iff.mp h
  obtain ⟨adapter, hadapter, h₂⟩ := Option.bind_eq_some_iff.mp h₁
  refine ⟨provider, adapter, hprovider, hadapter, ?_⟩
  cases hanswer : adapter.queryPayment payment.merchantReference with
  | error e =>
      rw [hanswer] at h₂
      cases h₂
  | ok result' =>
      rw [hanswer] at h₂
      exact congrArg Except.ok (Option.some.inj h₂)

theorem learnReference_exec {reference : String}
    (h : (learnReference payment reference).exec s = .ok (payment', t)) :
    t.looked = s.looked ∧
      payment' = { payment with providerReference := payment.referenceAfter reference } := by
  unfold learnReference at h
  unfold Payment.referenceAfter
  by_cases hlearns : reference ≠ "" ∧ payment.providerReference = ""
  · rw [if_pos hlearns] at h
    obtain ⟨_, u, hcheck, h₁⟩ := (Txn.exec_bind_ok _).mp h
    have hu := (checkVarchar_onTrail _ _).looked hcheck
    obtain ⟨rfl, rfl⟩ := Prod.mk.inj (Except.ok.inj h₁)
    rw [if_pos hlearns.2]
    exact ⟨hu, rfl⟩
  · rw [if_neg hlearns] at h
    obtain ⟨rfl, rfl⟩ := Prod.mk.inj (Except.ok.inj h)
    refine ⟨rfl, ?_⟩
    by_cases hblank : payment.providerReference = ""
    · have hnone : reference = "" := by
        by_contra hne
        exact hlearns ⟨hne, hblank⟩
      rw [if_pos hblank, hnone, ← hblank]
    · rw [if_neg hblank]

/-- What `query_payment` leaves behind. -/
theorem queryPayment_exec (h : (queryPayment env payment).exec s = .ok (payment', t)) :
    ∃ result, s.answer env payment = some result ∧
      t.looked = (s.afterOutcome env payment {} result.outcome).looked ∧
      payment'.subject = payment.subject ∧
      payment'.status = payment.statusAfter result.outcome ∧
      payment'.providerReference = payment.referenceAfter result.providerReference := by
  obtain ⟨adapter, s₁, hadapter, h₁⟩ := (Txn.exec_bind_ok _).mp h
  obtain ⟨result, s₂, hask, h₂⟩ := (Txn.exec_bind_ok _).mp h₁
  obtain ⟨learnt, s₃, hlearn, h₃⟩ := (Txn.exec_bind_ok _).mp h₂
  obtain ⟨_, s₄, haudit, happly⟩ := (Txn.exec_bind_ok _).mp h₃
  obtain ⟨rfl, provider, hprovider, hregistered⟩ := exec_adapterOf hadapter
  obtain ⟨rfl, hanswer, -⟩ := exec_askProvider hask
  obtain ⟨hs₃, hlearnt⟩ := learnReference_exec hlearn
  have hs₄ := (recordAuditEvent_onTrail _ _ _ _ _ _).looked haudit
  obtain ⟨hlooked, hstatus, hreference⟩ := applyOutcome_exec happly
  have hsubject := applyOutcome_subject happly
  rw [hlearnt] at hlooked hstatus hreference hsubject
  refine ⟨result, ?_, ?_, hsubject, hstatus, hreference⟩
  · simp only [DB.answer, hprovider, hregistered, hanswer, Option.bind_eq_bind, Option.bind_some]
    rfl
  · rw [hlooked]
    exact afterOutcome_congr (hs₄.trans hs₃) rfl rfl rfl rfl rfl rfl rfl rfl rfl _

end Consequences

end Kusanya
