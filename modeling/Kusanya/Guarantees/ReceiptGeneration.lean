import Kusanya.Guarantees.PaymentFolding
import Kusanya.Moves.Locked
import Kusanya.ReadCommitted.Disciplined

/-!
# Generating the receipt of a payment

Any number of `generate_receipt` calls for one successful payment run at once.  There is no
savepoint around the insert, so a call whose insert is rejected takes its transaction down.  As
long as each call finds the number it has drawn unused, and no receipt of the payment appears
between its first look and its insert, every call returns the one receipt of the payment.
-/

namespace Kusanya

open ReadCommitted

/-- A call of `generate_receipt`, with the related objects as they were loaded. -/
structure ReceiptCall where
  env : Env
  cn : ControlNumber
  bill : Option Bill

def ReceiptCall.program (payment : Payment) (call : ReceiptCall) : Tx Receipt :=
  generateReceipt call.env payment call.cn call.bill

/-- The account whose customer the receipt names. -/
def ReceiptCall.account? (call : ReceiptCall) : Option ℕ :=
  match call.bill, call.cn.owner with
  | some bill, _ => some bill.customerAccount
  | none, .customerAccount id => some id
  | none, .bill _ => none

/-- What the call needs of the tables that it does not write: the rows behind the payment, a label
that fits its column and a balance that fits its own. -/
structure ReceiptCall.Issues (call : ReceiptCall) (payment : Payment) (s : DB) : Prop where
  customer : ∃ id account customer, call.account? = some id ∧
    s.accounts.find? (·.id = id) = some account ∧
    s.customers.find? (·.id = account.customer) = some customer
  tenant : ∃ tenant, s.tenants.find? (·.id = payment.tenant) = some tenant
  provider : ∃ provider, s.providers.find? (·.id = payment.provider) = some provider ∧
    Varchar 200 (payment.channel.getD provider.label)
  balance : ∀ bill, call.bill = some bill →
    (bill.totalAmount.cents - s.toBooks.amountPaid bill.id).natAbs < 10 ^ 18

/-- What a call has found about the receipts: its number is unused while the payment has no
receipt, and the payment has the receipt it had when the call first looked. -/
def ReceiptCall.Undisturbed (payment : Payment) (call : ReceiptCall)
    (seen : List (Resource × DB)) : Prop :=
  ∀ x ∈ seen, x.1 = .receiptOf payment.id →
    (x.2.toBooks.receiptOf payment.id = none →
      (payment.tenant, call.env.gen.receiptNumber payment.id) ∉ x.2.receiptNumbers) ∧
    ∀ y ∈ seen, y.1 = .receiptOf payment.id →
      y.2.toBooks.receiptOf payment.id = x.2.toBooks.receiptOf payment.id

instance (s : DB) (number : ℕ × String) : Decidable (number ∈ s.receiptNumbers) :=
  decidable_of_iff (∃ x ∈ s.receiptNumbers, x = number) (by simp)

instance (payment : Payment) (call : ReceiptCall) (seen : List (Resource × DB)) :
    Decidable (call.Undisturbed payment seen) :=
  List.decidableBAll _ seen

instance (payment : Payment) (calls : List ReceiptCall) (i : ℕ) (seen : List (Resource × DB)) :
    Decidable (∀ call, calls[i]? = some call → call.Undisturbed payment seen) :=
  decidable_of_iff (∀ call ∈ calls[i]?, call.Undisturbed payment seen) Iff.rfl

section Calls

variable {payment : Payment} {call : ReceiptCall} {s t : DB}

/-- What the calls leave alone. -/
structure SameSides (s t : DB) : Prop where
  directory : t.toDirectory = s.toDirectory
  allocations : t.allocations = s.allocations

theorem ReceiptCall.Issues.congr (h : call.Issues payment s) (hst : SameSides s t) :
    call.Issues payment t := by
  obtain ⟨hcustomer, htenant, hprovider, hbalance⟩ := h
  rw [← hst.directory] at hcustomer htenant hprovider
  refine ⟨hcustomer, htenant, hprovider, ?_⟩
  intro bill hbill
  rw [Books.amountPaid, hst.allocations]
  exact hbalance bill hbill

/-- What an undisturbed call may find, where its first look found `found`. -/
structure Finds (payment : Payment) (call : ReceiptCall) (s : DB) (found : Option Receipt)
    (what : Resource) (v : DB) : Prop where
  sides : SameSides s v
  number : what = .receiptOf payment.id → v.toBooks.receiptOf payment.id = none →
    (payment.tenant, call.env.gen.receiptNumber payment.id) ∉ v.receiptNumbers
  receipt : what = .receiptOf payment.id → v.toBooks.receiptOf payment.id = found

theorem wp_accountBehind {κ : Call → Prop} {φ : Resource → DB → Prop} {pend : DB → DB}
    {Q : ℕ → (DB → DB) → Prop} {R : Error → (DB → DB) → Prop} {id : ℕ}
    (h : call.account? = some id) (hQ : Q id pend) :
    (accountBehind call.cn call.bill).wp κ φ pend Q R := by
  obtain ⟨env, cn, bill⟩ := call
  dsimp only
  cases bill with
  | some bill =>
      obtain rfl := Option.some.inj h
      exact hQ
  | none =>
      obtain ⟨_, _, _, _, _, owner, _, _, _⟩ := cn
      cases owner with
      | customerAccount account =>
          obtain rfl := Option.some.inj h
          exact hQ
      | bill bill => cases h

theorem wp_remainingBalance {κ : Call → Prop} {found : Option Receipt}
    {Q : Option Numeric → (DB → DB) → Prop} {R : Error → (DB → DB) → Prop}
    (h : call.Issues payment s) (hQ : ∀ remaining, Q remaining id) :
    (remainingBalance call.bill).wp κ (Finds payment call s found) id Q R := by
  cases hbill : call.bill with
  | none => exact hQ none
  | some bill =>
      rw [remainingBalance, Txn.wp_bind, Bill.balance, Txn.wp_fetch]
      intro v hv
      have hfits : (bill.totalAmount.cents - (id v).toBooks.amountPaid bill.id).natAbs < 10 ^ 18 :=
        (h.congr hv.sides).balance bill hbill
      rw [Txn.wp_bind, wp_storeNumeric]
      constructor
      · exact fun stored _ => hQ (some stored)
      · intro hnone
        rw [Numeric.ofMoney?, dif_pos hfits] at hnone
        cases hnone

/-- A row that is there is found. -/
theorem wp_getRow_found {α : Type} {κ : Call → Prop} {found : Option Receipt}
    {Q : α → (DB → DB) → Prop} {R : Error → (DB → DB) → Prop} {what : Resource}
    {q : DB → Option α} {row : α} (hrow : ∀ v, SameSides s v → q v = some row) (hQ : Q row id) :
    (getRow what q).wp κ (Finds payment call s found) id Q R := by
  rw [wp_getRow]
  intro v hv
  have hfound : q (id v) = some row := hrow v hv.sides
  rw [hfound]
  constructor
  · intro row' heq
    obtain rfl := Option.some.inj heq
    exact hQ
  · intro hnone
    cases hnone

/-- The insert, where the number is unused and the payment has no receipt. -/
theorem wp_insertReceipt {κ : Call → Prop} {receipt : Receipt} {Q : Unit → (DB → DB) → Prop}
    {R : Error → (DB → DB) → Prop} (hpayment : receipt.payment = payment.id)
    (htenant : receipt.tenant = payment.tenant)
    (hnumber : receipt.receiptNumber = call.env.gen.receiptNumber payment.id)
    (hlabel : Varchar 200 receipt.paymentChannelLabel)
    (hQ : Q () (inBooks (·.addReceipt receipt))) :
    (insertReceipt receipt).wp κ (Finds payment call s none) id Q R := by
  simp only [insertReceipt, Txn.wp_bind, wp_checkVarchar, Txn.wp_acquire, Txn.wp_fetch,
    wp_raiseIf, wp_onBooks]
  refine ⟨fun _ v hv => ⟨fun hclash => ?_, fun _ => hQ⟩, fun hlong => absurd hlabel hlong⟩
  rw [hpayment] at hv
  have hnone : v.toBooks.receiptOf payment.id = none := hv.receipt rfl
  rw [← hpayment] at hnone
  have htaken := (receiptClash_fold hnone).mp hclash
  rw [hpayment] at hnone
  rw [htenant, hnumber] at htaken
  exact absurd htaken (hv.number rfl hnone)

theorem wp_program (hstatus : payment.status = .successful) (hissues : call.Issues payment s)
    (found : Option Receipt) :
    (call.program payment).wp (fun _ => True) (Finds payment call s found) id
      (fun _ pend => ∀ t, SameSides s t → SameSides s (pend t)) fun _ _ => False := by
  obtain ⟨⟨id, account, customer, hid, haccount, hcustomer⟩, ⟨tenant, htenant⟩,
    ⟨provider, hprovider, hlabel⟩, -⟩ := id hissues
  rw [ReceiptCall.program, generateReceipt, Txn.wp_bind, Txn.wp_fetch]
  intro v hv
  cases found with
  | some existing =>
      have hexisting : v.toBooks.receiptOf payment.id = some existing := hv.receipt rfl
      simp only [id_eq, hexisting]
      exact fun t ht => ht
  | none =>
      have hnone : v.toBooks.receiptOf payment.id = none := hv.receipt rfl
      simp only [id_eq, hnone]
      rw [Txn.wp_bind, wp_raiseIf]
      refine ⟨fun hne => hne hstatus, fun _ => ?_⟩
      rw [Txn.wp_bind]
      apply wp_accountBehind hid
      rw [Txn.wp_bind, customerOf, Txn.wp_bind]
      apply wp_getRow_found fun v hv => by rw [hv.directory]; exact haccount
      apply wp_getRow_found fun v hv => by rw [hv.directory]; exact hcustomer
      rw [Txn.wp_bind]
      apply wp_getRow_found fun v hv => by rw [hv.directory]; exact htenant
      rw [Txn.wp_bind]
      apply wp_getRow_found fun v hv => by rw [hv.directory]; exact hprovider
      rw [Txn.wp_bind]
      apply wp_remainingBalance hissues
      intro remaining
      rw [Txn.wp_bind]
      exact wp_insertReceipt rfl rfl rfl hlabel fun t ht => ⟨ht.directory, ht.allocations⟩

/-- A call that is not disturbed does not raise. -/
theorem ReceiptCall.settled (hstatus : payment.status = .successful)
    (hissues : call.Issues payment s) :
    Config.Settled (SameSides s) (call.Undisturbed payment) (call.program payment) := by
  intro seen hseen hundisturbed
  obtain ⟨found, hfound⟩ : ∃ found, ∀ x ∈ seen, x.1 = .receiptOf payment.id →
      x.2.toBooks.receiptOf payment.id = found := by
    by_cases hlooked : ∃ x ∈ seen, x.1 = .receiptOf payment.id
    · obtain ⟨x, hx, hkey⟩ := hlooked
      exact ⟨_, (hundisturbed x hx hkey).2⟩
    · exact ⟨none, fun x hx hkey => absurd ⟨x, hx, hkey⟩ hlooked⟩
  refine ⟨fun _ => True, Finds payment call s found, ?_, wp_program hstatus hissues found⟩
  intro x hx
  exact ⟨hseen x hx, fun hkey => (hundisturbed x hx hkey).1, hfound x hx⟩

/-! ## What a call leaves behind -/

/-- A receipt stays, and no second one of its payment is added while the payment is locked. -/
def receiptDiscipline : Discipline DB Resource where
  inv s := (s.receipts.map (·.payment)).Nodup
  evolves s t := s.receipts <+: t.receipts
  keeps k s t := ∀ id, k = .receiptOf id → t.toBooks.receiptOf id = s.toBooks.receiptOf id
  evolves_refl _ := List.prefix_refl _
  evolves_trans h h' := h.trans h'
  keeps_refl _ _ _ _ := rfl
  keeps_trans h h' id hk := (h' id hk).trans (h id hk)

/-- What a call has done when it commits. -/
def ReceiptCall.Ends (payment : Payment) (receipt : Receipt) (l : Local DB Resource) : Prop :=
  (l.pend = id ∧ l.last.toBooks.receiptOf payment.id = some receipt) ∨
    (l.pend = inBooks (·.addReceipt receipt) ∧ receipt.payment = payment.id ∧
      .receiptOf payment.id ∈ l.held ∧ l.last.toBooks.receiptOf payment.id = none)

theorem lwp_accountBehind {D : Discipline DB Resource} {l : Local DB Resource} {cn : ControlNumber}
    {bill : Option Bill} {Q : ℕ → Local DB Resource → Prop} (hQ : ∀ account, Q account l) :
    (accountBehind cn bill).lwp D l Q fun _ _ => True := by
  unfold accountBehind
  split
  · exact hQ _
  · exact hQ _
  · trivial

theorem lwp_remainingBalance {D : Discipline DB Resource} {l : Local DB Resource}
    {bill : Option Bill} {Q : Option Numeric → Local DB Resource → Prop}
    (hQ : ∀ remaining s, Q remaining { l with last := s }) :
    (remainingBalance bill).lwp D l Q fun _ _ => True := by
  cases bill with
  | none => exact hQ none l.last
  | some bill =>
      rw [remainingBalance, Txn.lwp_bind, Bill.balance, Txn.lwp_fetch]
      intro s hs
      rw [Txn.lwp_bind, lwp_storeNumeric]
      exact ⟨fun stored _ => hQ (some stored) s, fun _ => trivial⟩

/-- The insert holds the key of the payment when it finds that there is no receipt. -/
theorem lwp_insertReceipt {held : List Resource} {last : DB} {receipt : Receipt}
    (hpayment : receipt.payment = payment.id) :
    (insertReceipt receipt).lwp receiptDiscipline ⟨held, id, last⟩
      (fun _ l => ReceiptCall.Ends payment receipt l) fun _ _ => True := by
  simp only [insertReceipt, Txn.lwp_bind, lwp_checkVarchar, Txn.lwp_acquire, Txn.lwp_fetch,
    lwp_raiseIf, lwp_onBooks]
  refine ⟨fun _ s₁ _ s₂ _ v _ => ⟨fun _ => trivial, fun hfree => Or.inr ⟨rfl, hpayment, ?_, ?_⟩⟩,
    fun _ => trivial⟩
  · rw [← hpayment]
    exact List.mem_cons_of_mem _ List.mem_cons_self
  · rw [← hpayment]
    refine List.find?_eq_none.mpr fun row hrow hown => hfree ?_
    exact List.any_eq_true.mpr ⟨row, hrow, by simpa using Or.inl hown⟩

theorem ReceiptCall.ends (payment : Payment) (call : ReceiptCall) (s : DB) :
    (call.program payment).lwp receiptDiscipline (Local.fresh s) (ReceiptCall.Ends payment)
      fun _ _ => True := by
  rw [ReceiptCall.program, generateReceipt, Txn.lwp_bind, Txn.lwp_fetch]
  intro v hv
  split
  · next existing hfound => exact Or.inl ⟨rfl, hfound⟩
  · rw [Txn.lwp_bind, lwp_raiseIf]
    refine ⟨fun _ => trivial, fun _ => ?_⟩
    rw [Txn.lwp_bind]
    apply lwp_accountBehind
    intro account
    simp only [customerOf, getAccount, getCustomer, getTenant, getProvider, Txn.lwp_bind,
      lwp_getRow]
    intro s₁ _
    refine ⟨fun row _ s₂ _ => ⟨fun customer _ s₃ _ => ⟨fun tenant _ s₄ _ => ⟨fun provider _ => ?_,
      fun _ => trivial⟩, fun _ => trivial⟩, fun _ => trivial⟩, fun _ => trivial⟩
    apply lwp_remainingBalance
    intro remaining s₅
    exact lwp_insertReceipt rfl

end Calls

/-! ## Runs -/

section Runs

variable {payment : Payment} {calls : List ReceiptCall} {s t : DB}

/-- A commit leaves the one receipt of the payment, which it returns. -/
structure Receipted (payment : Payment) (receipt : Receipt) (s t : DB) : Prop where
  one : t.receipts.filter (·.payment = payment.id) = [receipt]
  added : s.receipts <+: t.receipts

theorem receiptOf_addReceipt {receipt : Receipt} {id : ℕ} (hid : receipt.payment ≠ id) :
    (inBooks (·.addReceipt receipt) s).toBooks.receiptOf id = s.toBooks.receiptOf id := by
  change (s.receipts ++ [receipt]).find? (·.payment = id) = s.receipts.find? (·.payment = id)
  rw [List.find?_append, List.find?_cons_of_neg (by simpa using hid), List.find?_nil,
    Option.or_none]

theorem receiptOf_extends (h : s.receipts <+: t.receipts) {receipt : Receipt} {id : ℕ}
    (hfound : s.toBooks.receiptOf id = some receipt) : t.toBooks.receiptOf id = some receipt := by
  obtain ⟨rest, hrest⟩ := h
  rw [Books.receiptOf, ← hrest, List.find?_append]
  have hfind : s.receipts.find? (·.payment = id) = some receipt := hfound
  rw [hfind, Option.some_or]

theorem filter_of_receiptOf (h : (s.receipts.map (·.payment)).Nodup) {receipt : Receipt} {id : ℕ}
    (hfound : s.toBooks.receiptOf id = some receipt) :
    s.receipts.filter (·.payment = id) = [receipt] := by
  have hown : receipt.payment = id := by simpa using List.find?_some hfound
  rw [← hown]
  exact Support.filter_key (a := receipt) h (List.mem_of_find?_eq_some hfound)

theorem filter_of_receiptOf_none {id : ℕ} (hnone : s.toBooks.receiptOf id = none) :
    s.receipts.filter (·.payment = id) = [] := by
  rw [List.filter_eq_nil_iff]
  intro r hr
  simpa using List.find?_eq_none.mp hnone r hr

theorem ReceiptCall.Ends.honoured {receipt : Receipt} {l : Local DB Resource}
    (h : ReceiptCall.Ends payment receipt l) (hs : l.Sees receiptDiscipline s) :
    receiptDiscipline.inv (l.pend s) ∧ receiptDiscipline.evolves s (l.pend s) ∧
      (∀ k, k ∉ l.held → receiptDiscipline.keeps k s (l.pend s)) ∧
        Receipted payment receipt s (l.pend s) := by
  rcases h with ⟨hpend, hfound⟩ | ⟨hpend, hpayment, hheld, hnone⟩
  · rw [hpend]
    refine ⟨hs.inv, List.prefix_refl _, fun k _ => receiptDiscipline.keeps_refl k s, ?_,
      List.prefix_refl _⟩
    exact filter_of_receiptOf hs.inv (receiptOf_extends hs.evolves hfound)
  · have hfree : s.toBooks.receiptOf payment.id = none :=
      (hs.keeps _ hheld payment.id rfl).trans hnone
    rw [hpend]
    refine ⟨?_, List.prefix_append _ _, ?_, ?_, List.prefix_append _ _⟩
    · change ((s.receipts ++ [receipt]).map (·.payment)).Nodup
      rw [List.map_append, List.map_singleton]
      refine List.nodup_append.mpr ⟨hs.inv, List.pairwise_singleton _ _, ?_⟩
      intro id hid id' hid' heq
      obtain ⟨r, hr, rfl⟩ := List.mem_map.mp hid
      rw [List.mem_singleton] at hid'
      have hown : r.payment = payment.id := heq.trans (hid'.trans hpayment)
      simpa [hown] using List.find?_eq_none.mp hfree r hr
    · intro k hk id hid
      refine receiptOf_addReceipt ?_
      rintro rfl
      rw [hid, hpayment] at hk
      exact hk hheld
    · change (s.receipts ++ [receipt]).filter (·.payment = payment.id) = [receipt]
      rw [List.filter_append, filter_of_receiptOf_none hfree]
      simp [hpayment]

theorem receiptProgram_get {i : ℕ} {p : Tx Receipt}
    (h : (calls.map (·.program payment))[i]? = some p) :
    ∃ call, calls[i]? = some call ∧ p = call.program payment := by
  rw [List.getElem?_map, Option.map_eq_some_iff] at h
  obtain ⟨call, hcall, rfl⟩ := h
  exact ⟨call, hcall, rfl⟩

/-- The receipt of a payment stays its one receipt. -/
theorem Receipted.keeps {receipt other : Receipt} (h : Receipted payment receipt s t)
    (hother : s.receipts.filter (·.payment = payment.id) = [other]) :
    t.receipts.filter (·.payment = payment.id) = [other] := by
  obtain ⟨rest, hrest⟩ := h.added
  have hone := h.one
  rw [← hrest, List.filter_append, hother] at hone ⊢
  obtain ⟨-, hnil⟩ := List.cons.inj hone
  exact congrArg (other :: ·) hnil

end Runs

/-- For every interleaving of undisturbed `generate_receipt` calls for a successful payment: no
call raises, and each one that commits returns the one receipt of the payment. -/
theorem receipt_generated {payment : Payment} (hstatus : payment.status = .successful)
    {s : DB} (hone : (s.receipts.map (·.payment)).Nodup) (calls : List ReceiptCall)
    (hissues : ∀ call ∈ calls, call.Issues payment s) (schedule : List Event)
    (hundisturbed : Config.ReadsMeet
      (fun i seen => ∀ call, calls[i]? = some call → call.Undisturbed payment seen)
      (Config.start s (calls.map (·.program payment))) schedule) :
    ((Config.start s (calls.map (·.program payment))).run schedule).Unraised ∧
      ∀ (i : ℕ) (receipt : Receipt),
        ((Config.start s (calls.map (·.program payment))).run schedule).sessions[i]? =
          some (.committed receipt) →
        ((Config.start s (calls.map (·.program payment))).run schedule).store.receipts.filter
          (·.payment = payment.id) = [receipt] := by
  constructor
  · refine Config.run_unraised (J := SameSides s) ?_ (Config.sound_start ⟨rfl, rfl⟩)
      (Config.unraised_start _ _) schedule hundisturbed
    intro i p hp seen hseen hmeets
    obtain ⟨call, hcall, rfl⟩ := receiptProgram_get hp
    have hcallIssues := hissues call (List.mem_of_getElem? hcall)
    exact ReceiptCall.settled hstatus hcallIssues seen hseen (hmeets call hcall)
  · obtain ⟨log, hrun⟩ := Config.run_disciplined (D := receiptDiscipline) (s := s)
      (Q := fun _ => ReceiptCall.Ends payment) (C := fun _ => Receipted payment)
      (M := fun _ _ _ => True) hone
      (fun i p hp => by
        obtain ⟨call, -, rfl⟩ := receiptProgram_get hp
        exact ReceiptCall.ends payment call s)
      (fun i p receipt l seen t hp _ _ hends hsees _ => hends.honoured hsees)
      schedule (Config.commitsMeet_trivial _ _)
    intro i receipt hcommitted
    exact hrun.commits.persists
      (P := fun _ receipt t => t.receipts.filter (·.payment = payment.id) = [receipt])
      (fun _ _ _ _ h => h.one) (fun _ _ _ _ h _ _ hother => h.keeps hother) (i, receipt)
      ((hrun.logged i receipt).mp hcommitted)

/-! ## Two payments of one school -/

/-- A successful payment of 40.00 on a bill of the school. -/
def receiptedPayment : Payment :=
  { id := 2
    tenant := 1
    controlNumber := 1
    provider := 1
    channel := none
    amount := amountOf 4000
    currency := "TZS"
    status := .successful
    payerReference := "0700"
    merchantReference := "2"
    providerReference := "p"
    idempotencyKey := ""
    initiatedAt := 2
    completedAt := some 3
    failureReason := ""
    rawProviderResponse := ""
    settlementBatch := none }

def receiptedNumber : ControlNumber :=
  { id := 1
    tenant := 1
    value := "1"
    scope := .persistent
    status := .active
    owner := .customerAccount 1
    expiresAt := none
    cancelledAt := none
    createdBy := none }

/-- Two requests look for its receipt. -/
def twoReceiptCalls : List ReceiptCall :=
  [⟨envAt 3 (answering .pending "" ""), receiptedNumber, none⟩,
   ⟨envAt 4 (answering .pending "" ""), receiptedNumber, none⟩]

/-- One request after the other. -/
def oneReceiptFirst : List Event :=
  List.replicate 12 (.advance 0) ++ List.replicate 12 (.advance 1)

theorem receiptedNumber_issues (env : Env) (receipts : List Receipt) :
    ReceiptCall.Issues ⟨env, receiptedNumber, none⟩ receiptedPayment
      { smallInstallation with receipts } where
  customer := ⟨1, ⟨1, 1, 1, "Fees"⟩, ⟨1, 1, "Asha", "", ""⟩, rfl, rfl, rfl⟩
  tenant := ⟨⟨1, "School", "TZS", .clawback⟩, rfl⟩
  provider := ⟨⟨1, "mock", "Mock", true⟩, rfl, by decide⟩
  balance _ hbill := nomatch hbill

/-- Both requests return the receipt that the first one has issued. -/
theorem receipt_generated_twice :
    ((Config.start smallInstallation (twoReceiptCalls.map (·.program receiptedPayment))).run
      oneReceiptFirst).Unraised ∧
    (((Config.start smallInstallation (twoReceiptCalls.map (·.program receiptedPayment))).run
      oneReceiptFirst).store.receipts.filter (·.payment = receiptedPayment.id)).length = 1 := by
  have hissues : ∀ call ∈ twoReceiptCalls, call.Issues receiptedPayment smallInstallation := by
    intro call hcall
    rcases List.mem_cons.mp hcall with rfl | hcall
    · exact receiptedNumber_issues _ []
    · rw [List.mem_singleton.mp hcall]
      exact receiptedNumber_issues _ []
  have hundisturbed : Config.ReadsMeet
      (fun i seen => ∀ call, twoReceiptCalls[i]? = some call →
        call.Undisturbed receiptedPayment seen)
      (Config.start smallInstallation (twoReceiptCalls.map (·.program receiptedPayment)))
      oneReceiptFirst := by decide +kernel
  obtain ⟨hunraised, hreturned⟩ := receipt_generated rfl (s := smallInstallation)
    List.nodup_nil twoReceiptCalls hissues oneReceiptFirst hundisturbed
  refine ⟨hunraised, ?_⟩
  obtain ⟨receipt, hcommitted⟩ : ∃ receipt, ((Config.start smallInstallation
      (twoReceiptCalls.map (·.program receiptedPayment))).run oneReceiptFirst).sessions[1]? =
        some (.committed receipt) := ⟨_, rfl⟩
  rw [hreturned 1 receipt hcommitted]
  rfl

/-- A receipt of another payment already has the number. -/
theorem receipt_generated_taken :
    ¬∀ (payment : Payment) (s : DB) (calls : List ReceiptCall) (schedule : List Event),
      payment.status = .successful → (s.receipts.map (·.payment)).Nodup →
      (∀ call ∈ calls, call.Issues payment s) →
      ((Config.start s (calls.map (·.program payment))).run schedule).Unraised := by
  intro hall
  have hunraised := hall receiptedPayment
    { smallInstallation with
      receipts :=
        [{ tenant := 1
           payment := 1
           receiptNumber := "2"
           issuedAt := 1
           institutionName := "School"
           customerName := "Asha"
           billNumber := ""
           controlNumber := "1"
           paymentReference := "1"
           amount := numericOf 4000
           currency := "TZS"
           paymentChannelLabel := "Mock"
           remainingBalanceAtIssue := none }] }
    [⟨envAt 3 (answering .pending "" ""), receiptedNumber, none⟩] (List.replicate 12 (.advance 0))
    rfl (List.nodup_singleton _) (by
      intro call hcall
      rw [List.mem_singleton.mp hcall]
      exact receiptedNumber_issues _ _)
  exact hunraised 0 .transactionAborted rfl

end Kusanya
