import Kusanya.Moves.Deliveries
import Kusanya.Moves.Outbox

/-!
# When an outcome is applied without an exception

`_apply_outcome` raises where its status does not admit the outcome, where a row that it follows a
foreign key to is gone, where an audit row cannot be stored or a notification cannot be rendered or
stored, and where a receipt cannot be stored.  `Applies` says so of the state before.
-/

namespace Kusanya

open ReadCommitted Support

/-! ## Completion -/

/-- Run alone, the program raises nothing. -/
def Completes {α : Type} (p : Tx α) (s : DB) : Prop := ∃ r, p.exec s = .ok r

section Rules

variable {α β : Type} {p : Tx α} {f : α → Tx β} {s t : DB} {a : α} {e : Error}

theorem completes_ret (a : α) (s : DB) : Completes (pure a) s := ⟨(a, s), rfl⟩

theorem not_completes_of_error (h : p.exec s = .error e) : ¬Completes p s := by
  rintro ⟨r, hr⟩
  rw [h] at hr
  cases hr

theorem completes_congr {q : Tx α} (h : p.exec s = q.exec t) :
    Completes p s ↔ Completes q t := by
  rw [Completes, Completes, h]

/-- Behind a piece of code that ends normally. -/
theorem completes_bind (h : p.exec s = .ok (a, t)) : Completes (p >>= f) s ↔ Completes (f a) t := by
  unfold Completes
  rw [Txn.exec_bind, h]

theorem completes_bind_error (h : p.exec s = .error e) : ¬Completes (p >>= f) s :=
  not_completes_of_error (Txn.exec_bind_error _ h)

theorem completes_bind_exists :
    Completes (p >>= f) s ↔ ∃ a t, p.exec s = .ok (a, t) ∧ Completes (f a) t := by
  constructor
  · rintro ⟨r, hr⟩
    obtain ⟨a, t, hp, hf⟩ := (Txn.exec_bind_ok _).mp hr
    exact ⟨a, t, hp, r, hf⟩
  · rintro ⟨a, t, hp, hf⟩
    exact (completes_bind hp).mpr hf

/-- In front of a piece of code that only ends normally. -/
theorem completes_bind_iff (h : ∀ a t, Completes (f a) t) :
    Completes (p >>= f) s ↔ Completes p s := by
  rw [completes_bind_exists]
  constructor
  · rintro ⟨a, t, hp, -⟩
    exact ⟨(a, t), hp⟩
  · rintro ⟨⟨a, t⟩, hp⟩
    exact ⟨a, t, hp, h a t⟩

theorem completes_raiseIf_bind {c : Prop} [Decidable c] {f : Unit → Tx β} :
    Completes (raiseIf c e >>= f) s ↔ ¬c ∧ Completes (f ()) s := by
  by_cases hc : c
  · have hraises : (raiseIf c e).exec s = .error e := by rw [exec_raiseIf, if_pos hc]
    constructor
    · exact fun h => absurd h (completes_bind_error hraises)
    · exact fun h => absurd hc h.1
  · have hpasses : (raiseIf c e).exec s = .ok ((), s) := by rw [exec_raiseIf, if_neg hc]
    rw [completes_bind hpasses]
    exact (and_iff_right hc).symm

/-- A lookup that raises `DoesNotExist` where it finds nothing. -/
def Looks (p : Tx α) (q : DB → Option α) : Prop :=
  ∀ s, p.exec s = (q s).elim (.error .doesNotExist) fun a => .ok (a, s)

theorem looks_getRow (what : Resource) (q : DB → Option α) : Looks (getRow what q) q := by
  intro s
  rw [exec_getRow]
  cases q s with
  | none => rfl
  | some row => rfl

theorem looks_some (a : α) : Looks (pure a) fun _ => some a := fun _ => rfl

theorem looks_none : Looks (.throw .doesNotExist : Tx α) fun _ => none := fun _ => rfl

theorem looks_bind {q : DB → Option α} {q' : α → DB → Option β} (h : Looks p q)
    (hf : ∀ a, Looks (f a) (q' a)) : Looks (p >>= f) fun s => (q s).bind fun a => q' a s := by
  intro s
  rw [Txn.exec_bind, h s]
  dsimp only
  cases q s with
  | none => rfl
  | some a => exact hf a s

theorem Looks.exec_ok {q : DB → Option α} (h : Looks p q) (hexec : p.exec s = .ok (a, t)) :
    q s = some a ∧ t = s := by
  rw [h s] at hexec
  cases hq : q s with
  | none =>
      rw [hq] at hexec
      cases hexec
  | some found =>
      rw [hq] at hexec
      obtain ⟨rfl, rfl⟩ := Prod.mk.inj (Except.ok.inj hexec)
      exact ⟨rfl, rfl⟩

theorem Looks.exec {q : DB → Option α} (h : Looks p q) (hq : q s = some a) :
    p.exec s = .ok (a, s) := by
  rw [h s, hq]
  rfl

theorem Looks.completes_bind {q : DB → Option α} (h : Looks p q) :
    Completes (p >>= f) s ↔ ∃ a, q s = some a ∧ Completes (f a) s := by
  cases hq : q s with
  | none =>
      have hraises : p.exec s = .error .doesNotExist := by
        rw [h s, hq]
        rfl
      constructor
      · exact fun hcompletes => absurd hcompletes (completes_bind_error hraises)
      · rintro ⟨a, ha, -⟩
        cases ha
  | some a =>
      have hfinds : p.exec s = .ok (a, s) := by
        rw [h s, hq]
        rfl
      rw [Kusanya.completes_bind hfinds]
      constructor
      · exact fun hcompletes => ⟨a, rfl, hcompletes⟩
      · rintro ⟨a', ha, hcompletes⟩
        rw [Option.some.inj ha]
        exact hcompletes

end Rules

/-! ## The rows behind a payment -/

/-- `payment.control_number`, where `given` is in memory. -/
def DB.numberOf (s : DB) (payment : Payment) (given : Option ControlNumber) :
    Option ControlNumber :=
  match given with
  | some cn => some cn
  | none => s.controlNumbers.find? (·.id = payment.controlNumber)

/-- `control_number.bill`. -/
def DB.boundBill (s : DB) (cn : ControlNumber) (given : Option Bill) : Option (Option Bill) :=
  match cn.bill?, given with
  | none, _ => some none
  | some _, some bill => some (some bill)
  | some id, none => (s.bills.find? (·.id = id)).bind fun bill => some (some bill)

/-- The control number of a payment and the bill behind it. -/
def DB.related (s : DB) (payment : Payment) (given : Related) :
    Option (ControlNumber × Option Bill) :=
  (s.numberOf payment given.controlNumber).bind fun cn =>
    (s.boundBill cn given.bill).bind fun bill => some (cn, bill)

/-- The account behind a control number. -/
def accountId (cn : ControlNumber) (bill : Option Bill) : Option ℕ :=
  match bill, cn.owner with
  | some bill, _ => some bill.customerAccount
  | none, .customerAccount id => some id
  | none, .bill _ => none

/-- The customer of an account. -/
def DB.customerOf (s : DB) (account : ℕ) : Option Customer :=
  (s.accounts.find? (·.id = account)).bind fun row => s.customers.find? (·.id = row.customer)

theorem looks_loadRelated (payment : Payment) (given : Related) :
    Looks (loadRelated payment given) (·.related payment given) := by
  apply looks_bind
  · unfold controlNumberOf DB.numberOf
    cases given.controlNumber with
    | some cn => exact looks_some cn
    | none => exact looks_getRow _ _
  · intro cn
    apply looks_bind
    · unfold boundBill DB.boundBill
      cases cn.bill? with
      | none => exact looks_some none
      | some id =>
          cases given.bill with
          | some bill => exact looks_some (some bill)
          | none => exact looks_bind (looks_getRow _ _) fun bill => looks_some (some bill)
    · exact fun bill => looks_some (cn, bill)

theorem looks_accountBehind (cn : ControlNumber) (bill : Option Bill) :
    Looks (accountBehind cn bill) fun _ => accountId cn bill := by
  unfold accountBehind accountId
  cases bill with
  | some bill => exact looks_some _
  | none =>
      cases cn.owner with
      | bill id => exact looks_none
      | customerAccount id => exact looks_some id

theorem looks_customerOf (account : ℕ) : Looks (customerOf account) (·.customerOf account) :=
  looks_bind (looks_getRow _ _) fun _ => looks_getRow _ _

/-! ## Notifications -/

/-- The customer and the tenant that a notification names. -/
def DB.Names (s : DB) (tenant : ℕ) (cn : ControlNumber) (bill : Option Bill)
    (customer : Customer) (row : Tenant) : Prop :=
  ∃ account, accountId cn bill = some account ∧ s.customerOf account = some customer ∧
    s.tenants.find? (·.id = tenant) = some row

/-- The notifications about a payment can be rendered and stored. -/
def Notified (env : Env) (s : DB) (payment : Payment) (cn : ControlNumber) (bill : Option Bill)
    (eventType : NotificationEventType) (extra : List (String × String)) : Prop :=
  ∃ customer tenant rows, s.Names payment.tenant cn bill customer tenant ∧
    notices env s payment.tenant eventType
      (notificationContext payment cn bill customer tenant extra)
      customer.email customer.phoneNumber = .ok rows

section Notifications

variable {env : Env} {s t : DB} {payment : Payment} {cn : ControlNumber} {bill : Option Bill}

theorem completes_sendNotification {tenant : ℕ} {eventType : NotificationEventType}
    {context : List (String × String)} {email phone : String} :
    Completes (sendNotification env tenant eventType context email phone) s ↔
      ∃ rows, notices env s tenant eventType context email phone = .ok rows := by
  unfold Completes
  rw [exec_sendNotification]
  cases notices env s tenant eventType context email phone with
  | ok rows => exact ⟨fun _ => ⟨rows, rfl⟩, fun _ => ⟨_, rfl⟩⟩
  | error e =>
      constructor
      · rintro ⟨r, hr⟩
        cases hr
      · rintro ⟨rows, hrows⟩
        cases hrows

theorem completes_recordAuditEvent {action : String} {tenant : Option ℕ} {target : Option Source}
    {after metadata : List (String × String)} :
    Completes (recordAuditEvent env action tenant target after metadata) s ↔ env.Auditable := by
  rw [Completes, exec_recordAuditEvent]
  by_cases hauditable : env.Auditable
  · rw [if_pos hauditable]
    exact iff_of_true ⟨_, rfl⟩ hauditable
  · rw [if_neg hauditable]
    refine iff_of_false ?_ hauditable
    rintro ⟨r, hr⟩
    cases hr

/-- `_notify` ends exactly where its notifications can be stored. -/
theorem completes_notify (eventType : NotificationEventType) (extra : List (String × String)) :
    Completes (notify env payment cn bill eventType extra) s ↔
      Notified env s payment cn bill eventType extra := by
  rw [notify, (looks_accountBehind cn bill).completes_bind]
  simp only [(looks_customerOf _).completes_bind, getTenant, (looks_getRow _ _).completes_bind,
    completes_sendNotification]
  constructor
  · rintro ⟨account, haccount, customer, hcustomer, tenant, htenant, rows, hrows⟩
    exact ⟨customer, tenant, rows, ⟨account, haccount, hcustomer, htenant⟩, hrows⟩
  · rintro ⟨customer, tenant, rows, ⟨account, haccount, hcustomer, htenant⟩, hrows⟩
    exact ⟨account, haccount, customer, hcustomer, tenant, htenant, rows, hrows⟩

theorem completes_dispatch (hcorrelated : Text.Fits 64 env.correlationId)
    (amount eventType : String) : Completes (dispatch env payment cn bill amount eventType) s :=
  ⟨_, exec_dispatchEvent env s _ hcorrelated _ _⟩

end Notifications

/-! ## Receipts -/

/-- The number on the receipt of a payment after which `left` is left to pay on its bill, where
the receipt can be stored. -/
def DB.numberOnReceipt (env : Env) (s : DB) (payment : Payment) (left : Option Money) :
    Option String :=
  match s.toBooks.receiptOf payment.id with
  | some existing => some existing.receiptNumber
  | none => (s.providers.find? (·.id = payment.provider)).bind fun provider =>
      if Varchar 200 (payment.channel.getD provider.label) ∧
          (∀ m ∈ left, m.natAbs < 10 ^ 18) ∧
          (payment.tenant, env.gen.receiptNumber payment.id) ∉
            s.receipts.map (fun r => (r.tenant, r.receiptNumber)) then
        some (env.gen.receiptNumber payment.id)
      else none

/-- What is left to pay on a bill object. -/
def Books.balanceOf (books : Books) (bill : Bill) : Money :=
  bill.totalAmount.cents - books.amountPaid bill.id

section Receipts

variable {env : Env} {s t : DB} {payment : Payment} {cn : ControlNumber} {bill : Option Bill}
  {receipt : Receipt}

theorem exec_remainingBalance (bill : Option Bill) (s : DB) :
    (remainingBalance bill).exec s =
      match bill.map s.toBooks.balanceOf with
      | none => .ok (none, s)
      | some left =>
          match Numeric.ofMoney? left with
          | some stored => .ok (some stored, s)
          | none => .error .dataError := by
  cases bill with
  | none => rfl
  | some bill =>
      simp only [remainingBalance, Bill.balance, Txn.exec_bind, Txn.exec_fetch, Option.map_some,
        storeNumeric, Books.balanceOf]
      cases Numeric.ofMoney? (bill.totalAmount.cents - s.toBooks.amountPaid bill.id) with
      | none => rfl
      | some stored => rfl

theorem remainingBalance_fits {remaining : Option Numeric}
    (h : (remainingBalance bill).exec s = .ok (remaining, t)) :
    t = s ∧ ∀ m ∈ bill.map s.toBooks.balanceOf, m.natAbs < 10 ^ 18 := by
  rw [exec_remainingBalance] at h
  cases hleft : bill.map s.toBooks.balanceOf with
  | none =>
      rw [hleft] at h
      obtain ⟨-, rfl⟩ := Prod.mk.inj (Except.ok.inj h)
      exact ⟨rfl, fun m hm => by cases hm⟩
  | some left =>
      rw [hleft] at h
      dsimp only at h
      by_cases hfits : left.natAbs < 10 ^ 18
      · rw [Numeric.ofMoney?, dif_pos hfits] at h
        obtain ⟨-, rfl⟩ := Prod.mk.inj (Except.ok.inj h)
        refine ⟨rfl, ?_⟩
        intro m hm
        rw [← Option.mem_some.mp hm]
        exact hfits
      · rw [Numeric.ofMoney?, dif_neg hfits] at h
        cases h

theorem exec_remainingBalance_of_fits
    (h : ∀ m ∈ bill.map s.toBooks.balanceOf, m.natAbs < 10 ^ 18) :
    ∃ remaining, (remainingBalance bill).exec s = .ok (remaining, s) := by
  rw [exec_remainingBalance]
  cases hleft : bill.map s.toBooks.balanceOf with
  | none => exact ⟨none, rfl⟩
  | some left =>
      have hfits := h left (by rw [hleft]; rfl)
      refine ⟨some ⟨left, hfits⟩, ?_⟩
      dsimp only
      rw [Numeric.ofMoney?, dif_pos hfits]

theorem exec_insertReceipt (receipt : Receipt) (s : DB) :
    (insertReceipt receipt).exec s =
      if Varchar 200 receipt.paymentChannelLabel then
        if s.toBooks.receiptClash receipt then .error .transactionAborted
        else .ok ((), inBooks (·.addReceipt receipt) s)
      else .error .dataError := by
  simp only [insertReceipt, Txn.exec_bind, exec_checkVarchar, Txn.exec_acquire, Txn.exec_fetch,
    exec_raiseIf, exec_onBooks]
  by_cases hlabel : Varchar 200 receipt.paymentChannelLabel
  · rw [if_pos hlabel, if_pos hlabel]
    dsimp only
    cases s.toBooks.receiptClash receipt with
    | true => rfl
    | false => rfl
  · rw [if_neg hlabel, if_neg hlabel]

theorem receiptClash_iff (hnone : s.toBooks.receiptOf receipt.payment = none) :
    s.toBooks.receiptClash receipt = true ↔
      (receipt.tenant, receipt.receiptNumber) ∈
        s.receipts.map fun r => (r.tenant, r.receiptNumber) := by
  rw [Books.receiptClash, List.any_eq_true, List.mem_map]
  constructor
  · rintro ⟨r, hr, hclash⟩
    have hother : r.payment ≠ receipt.payment := by
      simpa using List.find?_eq_none.mp hnone r hr
    exact ⟨r, hr, by simpa [hother] using hclash⟩
  · rintro ⟨r, hr, heq⟩
    obtain ⟨htenant, hnumber⟩ := Prod.mk.inj heq
    exact ⟨r, hr, by simp [htenant, hnumber]⟩

/-- A receipt that `generate_receipt` gives back has the number that could be stored. -/
theorem numberOnReceipt_of_exec
    (h : (generateReceipt env payment cn bill).exec s = .ok (receipt, t)) :
    s.numberOnReceipt env payment (bill.map s.toBooks.balanceOf) = some receipt.receiptNumber ∧
      t.toDirectory = s.toDirectory ∧ t.allocations = s.allocations := by
  rw [generateReceipt, Txn.exec_bind, Txn.exec_fetch] at h
  rw [DB.numberOnReceipt]
  cases hexists : s.toBooks.receiptOf payment.id with
  | some existing =>
      rw [hexists] at h
      obtain ⟨rfl, rfl⟩ := Prod.mk.inj (Except.ok.inj h)
      exact ⟨rfl, rfl, rfl⟩
  | none =>
      rw [hexists] at h
      dsimp only at h
      obtain ⟨_, s₀, hraise, h₀⟩ := (Txn.exec_bind_ok _).mp h
      obtain ⟨account, s₁, haccount, h₁⟩ := (Txn.exec_bind_ok _).mp h₀
      obtain ⟨customer, s₂, hcustomer, h₂⟩ := (Txn.exec_bind_ok _).mp h₁
      obtain ⟨tenant, s₃, htenant, h₃⟩ := (Txn.exec_bind_ok _).mp h₂
      obtain ⟨provider, s₄, hprovider, h₄⟩ := (Txn.exec_bind_ok _).mp h₃
      obtain ⟨remaining, s₅, hremaining, h₅⟩ := (Txn.exec_bind_ok _).mp h₄
      obtain ⟨_, s₆, hinsert, h₆⟩ := (Txn.exec_bind_ok _).mp h₅
      rw [exec_raiseIf] at hraise
      split at hraise
      · cases hraise
      obtain ⟨-, rfl⟩ := Prod.mk.inj (Except.ok.inj hraise)
      obtain ⟨-, rfl⟩ := (looks_accountBehind cn bill).exec_ok haccount
      obtain ⟨-, rfl⟩ := (looks_customerOf account).exec_ok hcustomer
      obtain ⟨-, rfl⟩ := (looks_getRow _ _).exec_ok htenant
      obtain ⟨hfound, rfl⟩ := (looks_getRow _ _).exec_ok hprovider
      obtain ⟨rfl, hfits⟩ := remainingBalance_fits hremaining
      rw [exec_insertReceipt] at hinsert
      split at hinsert
      · next hlabel =>
          split at hinsert
          · cases hinsert
          · next hclash =>
              obtain ⟨-, rfl⟩ := Prod.mk.inj (Except.ok.inj hinsert)
              obtain ⟨rfl, rfl⟩ := Prod.mk.inj (Except.ok.inj h₆)
              rw [receiptClash_iff hexists] at hclash
              refine ⟨?_, rfl, rfl⟩
              dsimp only
              rw [hfound, Option.bind_some, if_pos ⟨hlabel, hfits, hclash⟩]
              rfl
      · cases hinsert

/-- A receipt that can be stored is stored. -/
theorem completes_generateReceipt {customer : Customer} {tenant : Tenant} {number : String}
    (hstatus : payment.status = .successful)
    (hnames : s.Names payment.tenant cn bill customer tenant)
    (hnumber : s.numberOnReceipt env payment (bill.map s.toBooks.balanceOf) = some number) :
    Completes (generateReceipt env payment cn bill) s := by
  obtain ⟨account, haccount, hcustomer, htenant⟩ := hnames
  rw [DB.numberOnReceipt] at hnumber
  cases hexists : s.toBooks.receiptOf payment.id with
  | some existing =>
      refine ⟨(existing, s), ?_⟩
      rw [generateReceipt, Txn.exec_bind, Txn.exec_fetch, hexists]
      rfl
  | none =>
      rw [hexists] at hnumber
      dsimp only at hnumber
      cases hfound : s.providers.find? (·.id = payment.provider) with
      | none =>
          rw [hfound] at hnumber
          cases hnumber
      | some provider =>
          rw [hfound, Option.bind_some] at hnumber
          split at hnumber
          · next hstorable =>
              obtain ⟨hlabel, hfits, hnew⟩ := hstorable
              obtain ⟨remaining, hremaining⟩ := exec_remainingBalance_of_fits hfits
              have hclash : ¬s.toBooks.receiptClash
                  (newReceipt env payment cn bill customer tenant provider remaining) = true := by
                rw [receiptClash_iff hexists]
                exact hnew
              have hwidth : Varchar 200 (newReceipt env payment cn bill customer tenant provider
                  remaining).paymentChannelLabel := hlabel
              have hinsert : Completes (insertReceipt
                  (newReceipt env payment cn bill customer tenant provider remaining)) s := by
                rw [Completes, exec_insertReceipt, if_pos hwidth, if_neg hclash]
                exact ⟨_, rfl⟩
              have hfetch : (Txn.fetch (.receiptOf payment.id) fun db : DB =>
                  db.toBooks.receiptOf payment.id : Tx (Option Receipt)).exec s =
                    .ok (none, s) := by
                rw [Txn.exec_fetch, hexists]
              rw [generateReceipt, completes_bind hfetch]
              dsimp only
              rw [completes_raiseIf_bind, (looks_accountBehind cn bill).completes_bind]
              refine ⟨not_not.mpr hstatus, account, haccount, ?_⟩
              rw [(looks_customerOf account).completes_bind]
              refine ⟨customer, hcustomer, ?_⟩
              rw [getTenant, (looks_getRow _ _).completes_bind]
              refine ⟨tenant, htenant, ?_⟩
              rw [getProvider, (looks_getRow _ _).completes_bind]
              refine ⟨provider, hfound, ?_⟩
              rw [completes_bind hremaining, completes_bind_iff fun _ t => completes_ret _ t]
              exact hinsert
          · cases hnumber

end Receipts

/-! ## Outcomes -/

/-- What is left to pay on the bill once the payment is allocated to it. -/
def Books.remaining (books : Books) (payment : Payment) (bill : Bill) : Money :=
  books.balanceOf bill - payment.amount.cents

/-- The bill object once the payment is allocated to it. -/
def Books.settledBill (books : Books) (now : Time) (payment : Payment) (bill : Bill) : Bill :=
  bill.after now (settledStatus bill.status (books.remaining payment bill))

/-- The status that the bill enters once the payment is allocated to it. -/
def Books.entered (books : Books) (payment : Payment) (bill : Option Bill) : Option BillStatus :=
  bill.bind fun bill => settledStatus bill.status (books.remaining payment bill)

/-- The state after `_allocate_to_bill`. -/
def DB.allocated (env : Env) (s : DB) (payment : Payment) (bill : Option Bill) : DB :=
  inBooks (fun books => (books.allocate payment bill).enterBill env.now bill
    (s.toBooks.entered payment bill)) s

theorem balanceOf_addAllocation (s : DB) (payment : Payment) (bill : Bill) :
    (inBooks (·.addAllocation (payment.allocationTo bill.id)) s).toBooks.balanceOf bill =
      s.toBooks.remaining payment bill := by
  have hpaid : (inBooks (·.addAllocation (payment.allocationTo bill.id)) s).toBooks.amountPaid
      bill.id = s.toBooks.amountPaid bill.id + payment.amount.cents := by
    simp [inBooks, Books.amountPaid, Books.addAllocation, List.filter_append,
      Payment.allocationTo]
  rw [Books.balanceOf, Books.remaining, Books.balanceOf, hpaid]
  exact (Int.sub_sub _ _ _).symm

/-- What `_apply_outcome` does after its transition can be done. -/
def Ensues (env : Env) (s : DB) (payment : Payment) (given : Related) : PaymentStatus → Prop
  | .successful => ∃ cn bill number, s.related payment given = some (cn, bill) ∧
      s.numberOnReceipt env payment (bill.map (s.toBooks.remaining payment)) = some number ∧
      Notified env s payment cn bill
        (successEvent (bill.map (s.toBooks.settledBill env.now payment)))
        [("paid_amount", payment.amountText given),
         ("remaining_balance", ((bill.map (s.toBooks.remaining payment)).map Money.str).getD ""),
         ("receipt_number", number)]
  | .failed => ∃ cn bill, s.related payment given = some (cn, bill) ∧
      Notified env s payment cn bill .paymentFailed []
  | _ => ∃ cn bill, s.related payment given = some (cn, bill) ∧
      Notified env s payment cn bill .paymentPending []

/-- The outcome can be applied to the payment. -/
def Applies (env : Env) (s : DB) (payment : Payment) (given : Related)
    (outcome : ProviderOutcome) : Prop :=
  match outcome.toStatus? with
  | none => payment.status = .initiated ∨ payment.status = .pending →
      Varchar 255 payment.failureReason ∧ env.Auditable
  | some target => payment.status = target ∨
      target ∈ payment.status.allowedTransitions ∧ Varchar 255 payment.failureReason ∧
        env.Auditable ∧ Ensues env s payment given target

section Outcomes

variable {env : Env} {s t u : DB} {payment : Payment} {cn : ControlNumber} {given : Related}

/-- Notifications depend on the directory, and on the bill's account and number only. -/
theorem notified_congr (h : t.toDirectory = s.toDirectory) {bill bill' : Option Bill}
    (hbill : bill'.map (fun b => (b.customerAccount, b.billNumber)) =
      bill.map fun b => (b.customerAccount, b.billNumber))
    {moved : Payment} (htenant : moved.tenant = payment.tenant)
    (hreference : moved.merchantReference = payment.merchantReference)
    (eventType : NotificationEventType) (extra : List (String × String)) :
    Notified env t moved cn bill' eventType extra ↔
      Notified env s payment cn bill eventType extra := by
  have haccount : accountId cn bill' = accountId cn bill := by
    cases bill' with
    | none => cases bill with
      | none => rfl
      | some b => cases hbill
    | some b' => cases bill with
      | none => cases hbill
      | some b => exact congrArg some (Prod.mk.inj (Option.some.inj hbill)).1
  have hnumber : bill'.map (·.billNumber) = bill.map (·.billNumber) := by
    have hsnd := congrArg (Option.map Prod.snd) hbill
    rw [Option.map_map, Option.map_map] at hsnd
    exact hsnd
  have hcontext : ∀ customer tenant, notificationContext moved cn bill' customer tenant extra =
      notificationContext payment cn bill customer tenant extra := by
    intro customer tenant
    rw [notificationContext, notificationContext, hnumber, hreference]
  have hnames : ∀ customer tenant, t.Names payment.tenant cn bill' customer tenant ↔
      s.Names payment.tenant cn bill customer tenant := by
    intro customer tenant
    rw [DB.Names, DB.Names, haccount, h]
    unfold DB.customerOf
    rw [h]
  unfold Notified
  simp only [htenant, hcontext, hnames, notices_congr h]

/-- `_allocate_to_bill` never raises. -/
theorem exec_allocateToBill_eq (env : Env) (payment : Payment) (bill : Option Bill) (s : DB) :
    (allocateToBill env payment bill).exec s =
      .ok (bill.map (s.toBooks.settledBill env.now payment), s.allocated env payment bill) := by
  cases bill with
  | none => rfl
  | some bill =>
      obtain ⟨v, hv⟩ : ∃ v, v = inBooks (·.addAllocation (payment.allocationTo bill.id)) s :=
        ⟨_, rfl⟩
      have hbalance : bill.balance.exec v = .ok (s.toBooks.remaining payment bill, v) := by
        rw [← balanceOf_addAllocation, ← hv]
        rfl
      have hstays : settledStatus bill.status (s.toBooks.remaining payment bill) = none →
          (pure (some bill) : Tx (Option Bill)).exec v =
            .ok (some (s.toBooks.settledBill env.now payment bill),
              s.allocated env payment (some bill)) := by
        intro hnone
        rw [Books.settledBill, DB.allocated, Books.entered, Option.bind_some, hnone, hv]
        rfl
      have hmoves : ∀ new, settledStatus bill.status (s.toBooks.remaining payment bill) = some new →
          (bill.transitionTo env new >>= fun moved => pure (some moved)).exec v =
            .ok (some (s.toBooks.settledBill env.now payment bill),
              s.allocated env payment (some bill)) := by
        intro new hsome
        have hallowed := settledStatus_allowed hsome
        rw [Books.settledBill, DB.allocated, Books.entered, Option.bind_some, hsome, hv,
          Txn.exec_bind, Bill.transitionTo, Txn.exec_bind, exec_raiseIf,
          if_neg (not_not.mpr hallowed)]
        rfl
      rw [allocateToBill, Txn.exec_bind, exec_onBooks]
      dsimp only
      have hallocation : inBooks (·.addAllocation
          { tenant := payment.tenant, payment := payment.id, bill := bill.id
            amount := payment.amount.toNumeric }) s = v := hv.symm
      rw [hallocation, Txn.exec_ite, Option.map_some]
      by_cases hpayable : bill.status ≠ .active ∧ bill.status ≠ .partiallyPaid
      · rw [if_pos hpayable]
        exact hstays (by rw [settledStatus, if_pos hpayable])
      · rw [if_neg hpayable, Txn.exec_bind, hbalance]
        dsimp only
        rw [Txn.exec_ite]
        by_cases hfull : s.toBooks.remaining payment bill ≤ 0
        · rw [if_pos hfull]
          exact hmoves .paid (by rw [settledStatus, if_neg hpayable, if_pos hfull])
        · rw [if_neg hfull, Txn.exec_ite]
          by_cases hactive : bill.status = .active
          · rw [if_pos hactive]
            exact hmoves .partiallyPaid
              (by rw [settledStatus, if_neg hpayable, if_neg hfull, if_pos hactive])
          · rw [if_neg hactive]
            exact hstays (by rw [settledStatus, if_neg hpayable, if_neg hfull, if_neg hactive])

theorem allocated_directory (env : Env) (payment : Payment) (bill : Option Bill) (s : DB) :
    (s.allocated env payment bill).toDirectory = s.toDirectory := rfl

theorem allocated_receipts (env : Env) (payment : Payment) (bill : Option Bill) (s : DB) :
    (s.allocated env payment bill).receipts = s.receipts := by
  rw [DB.allocated, inBooks, enterBill_receipts, allocate_receipts]

theorem allocated_allocations (env : Env) (payment : Payment) (bill : Option Bill) (s : DB) :
    (s.allocated env payment bill).allocations = (s.toBooks.allocate payment bill).allocations := by
  rw [DB.allocated, inBooks]
  unfold Books.enterBill
  split
  · rfl
  · rfl

/-- The balance of the bill object after `_allocate_to_bill`. -/
theorem allocated_balance (env : Env) (payment : Payment) (bill : Option Bill) (s : DB) :
    (bill.map (s.toBooks.settledBill env.now payment)).map
        (s.allocated env payment bill).toBooks.balanceOf =
      bill.map (s.toBooks.remaining payment) := by
  cases bill with
  | none => rfl
  | some bill =>
      have hsame : ∀ status, (s.allocated env payment (some bill)).toBooks.balanceOf
          (bill.after env.now status) =
            (inBooks (·.addAllocation (payment.allocationTo bill.id)) s).toBooks.balanceOf
              bill := by
        intro status
        rw [Books.balanceOf, Books.balanceOf, Books.amountPaid, Books.amountPaid,
          allocated_allocations]
        cases status with
        | none => rfl
        | some new => rfl
      rw [Option.map_some, Option.map_some, Option.map_some, Books.settledBill, hsame,
        balanceOf_addAllocation]

/-- The notification of a success. -/
theorem completes_notifyPaymentSuccessful {bill : Option Bill} {amount : String}
    {receipt : Receipt} :
    Completes (notifyPaymentSuccessful env payment cn bill amount receipt) s ↔
      Notified env s payment cn bill (successEvent bill)
        [("paid_amount", amount),
         ("remaining_balance", ((bill.map s.toBooks.balanceOf).map Money.str).getD ""),
         ("receipt_number", receipt.receiptNumber)] := by
  have hbalance : (balanceText bill).exec s =
      .ok (((bill.map s.toBooks.balanceOf).map Money.str).getD "", s) := by
    cases bill with
    | none => rfl
    | some bill => rfl
  rw [notifyPaymentSuccessful, completes_bind hbalance, completes_notify]

/-- What the side effects of a status read. -/
def DB.looked (s : DB) : Directory × List ControlNumber × List Bill × List PaymentAllocation ×
    List Receipt :=
  (s.toDirectory, s.controlNumbers, s.bills, s.allocations, s.receipts)

theorem related_congr (h : t.looked = s.looked) (payment : Payment) (given : Related) :
    t.related payment given = s.related payment given := by
  have hnumbers : t.controlNumbers = s.controlNumbers := congrArg (·.2.1) h
  have hbills : t.bills = s.bills := congrArg (·.2.2.1) h
  unfold DB.related DB.numberOf DB.boundBill
  rw [hnumbers, hbills]

theorem remaining_congr (h : t.looked = s.looked) (payment : Payment) (bill : Bill) :
    t.toBooks.remaining payment bill = s.toBooks.remaining payment bill := by
  have hallocations : t.allocations = s.allocations := congrArg (·.2.2.2.1) h
  rw [Books.remaining, Books.remaining, Books.balanceOf, Books.balanceOf, Books.amountPaid,
    Books.amountPaid, hallocations]

theorem numberOnReceipt_congr (hdirectory : t.toDirectory = s.toDirectory)
    (hreceipts : t.receipts = s.receipts) (payment : Payment) (left : Option Money) :
    t.numberOnReceipt env payment left = s.numberOnReceipt env payment left := by
  rw [DB.numberOnReceipt, DB.numberOnReceipt, Books.receiptOf, Books.receiptOf, hdirectory,
    hreceipts]

/-- What a success does once its bill is loaded. -/
theorem completes_settle {bill : Option Bill} (amount : String)
    (hcorrelated : Text.Fits 64 env.correlationId) (hstatus : payment.status = .successful) :
    Completes (do
      let bill ← allocateToBill env payment bill
      let receipt ← generateReceipt env payment cn bill
      notifyPaymentSuccessful env payment cn bill amount receipt
      dispatch env payment cn bill amount "payment.successful") s ↔
    ∃ number,
      s.numberOnReceipt env payment (bill.map (s.toBooks.remaining payment)) = some number ∧
      Notified env s payment cn bill
        (successEvent (bill.map (s.toBooks.settledBill env.now payment)))
        [("paid_amount", amount),
         ("remaining_balance", ((bill.map (s.toBooks.remaining payment)).map Money.str).getD ""),
         ("receipt_number", number)] := by
  rw [completes_bind (exec_allocateToBill_eq env payment bill s)]
  have hdirectory := allocated_directory env payment bill s
  have hreceipts := allocated_receipts env payment bill s
  have hleft := allocated_balance env payment bill s
  generalize s.allocated env payment bill = u at *
  generalize hmoved : bill.map (s.toBooks.settledBill env.now payment) = moved at *
  have hbill : moved.map (fun b => (b.customerAccount, b.billNumber)) =
      bill.map fun b => (b.customerAccount, b.billNumber) := by
    rw [← hmoved]
    cases bill with
    | none => rfl
    | some bill =>
        rw [Option.map_some, Option.map_some, Option.map_some, Books.settledBill]
        cases settledStatus bill.status (s.toBooks.remaining payment bill) with
        | none => rfl
        | some new => rfl
  have hsame : ∀ {w : DB}, w.toDirectory = u.toDirectory → ∀ extra,
      (Notified env w payment cn moved (successEvent moved) extra ↔
        Notified env s payment cn bill (successEvent moved) extra) := by
    intro w hw extra
    exact notified_congr (hw.trans hdirectory) hbill rfl rfl _ extra
  have hnumberU : u.numberOnReceipt env payment (moved.map u.toBooks.balanceOf) =
      s.numberOnReceipt env payment (bill.map (s.toBooks.remaining payment)) := by
    rw [hleft, numberOnReceipt_congr hdirectory hreceipts]
  have hnotify : ∀ {w : DB} {receipt : Receipt}, w.toDirectory = u.toDirectory →
      w.allocations = u.allocations →
      (Completes (do
        notifyPaymentSuccessful env payment cn moved amount receipt
        dispatch env payment cn moved amount "payment.successful") w ↔
        Notified env s payment cn bill (successEvent moved)
          [("paid_amount", amount),
           ("remaining_balance", ((bill.map (s.toBooks.remaining payment)).map Money.str).getD ""),
           ("receipt_number", receipt.receiptNumber)]) := by
    intro w receipt hw hallocations
    have hleftW : moved.map w.toBooks.balanceOf = bill.map (s.toBooks.remaining payment) := by
      rw [← hleft]
      have hbalance : w.toBooks.balanceOf = u.toBooks.balanceOf := by
        funext b
        rw [Books.balanceOf, Books.balanceOf, Books.amountPaid, Books.amountPaid, hallocations]
      rw [hbalance]
    rw [completes_bind_iff fun _ t => completes_dispatch hcorrelated _ _,
      completes_notifyPaymentSuccessful, hleftW, hsame hw]
  constructor
  · intro hcompletes
    obtain ⟨receipt, w, hreceipt, hrest⟩ := completes_bind_exists.mp hcompletes
    obtain ⟨hnumber, hw, hallocations⟩ := numberOnReceipt_of_exec hreceipt
    rw [hnumberU] at hnumber
    exact ⟨receipt.receiptNumber, hnumber, (hnotify hw hallocations).mp hrest⟩
  · rintro ⟨number, hnumber, hnotified⟩
    rw [← hnumberU] at hnumber
    obtain ⟨customer, tenant, rows, hnames, -⟩ :=
      (hsame (w := u) rfl _).mpr hnotified
    obtain ⟨⟨receipt, w⟩, hreceipt⟩ := completes_generateReceipt hstatus hnames hnumber
    obtain ⟨hnumber', hw, hallocations⟩ := numberOnReceipt_of_exec hreceipt
    obtain rfl := Option.some.inj (hnumber'.symm.trans hnumber)
    exact completes_bind_exists.mpr ⟨receipt, w, hreceipt, (hnotify hw hallocations).mpr hnotified⟩

/-- What follows a transition depends on the tables that it reads only. -/
theorem ensues_congr (h : t.looked = s.looked) {moved : Payment}
    (hid : moved.id = payment.id) (hnumber : moved.controlNumber = payment.controlNumber)
    (htenant : moved.tenant = payment.tenant) (hamount : moved.amount = payment.amount)
    (hprovider : moved.provider = payment.provider) (hchannel : moved.channel = payment.channel)
    (hreference : moved.merchantReference = payment.merchantReference) (target : PaymentStatus) :
    Ensues env t moved given target ↔ Ensues env s payment given target := by
  have hdirectory : t.toDirectory = s.toDirectory := congrArg (·.1) h
  have hreceipts : t.receipts = s.receipts := congrArg (·.2.2.2.2) h
  have hrelated : t.related moved given = s.related payment given := by
    rw [related_congr h]
    unfold DB.related DB.numberOf
    rw [hnumber]
  have hremaining : t.toBooks.remaining moved = s.toBooks.remaining payment := by
    funext bill
    rw [remaining_congr h, Books.remaining, Books.remaining, hamount]
  have htext : moved.amountText given = payment.amountText given := by
    rw [Payment.amountText, Payment.amountText, hamount]
  have hsettled : t.toBooks.settledBill env.now moved = s.toBooks.settledBill env.now payment := by
    funext bill
    rw [Books.settledBill, Books.settledBill, hremaining]
  have hreceipt : ∀ left,
    t.numberOnReceipt env moved left = s.numberOnReceipt env payment left := by
    intro left
    rw [numberOnReceipt_congr hdirectory hreceipts, DB.numberOnReceipt, DB.numberOnReceipt, hid,
      hprovider, hchannel, htenant]
  have hnotified : ∀ cn bill eventType extra, Notified env t moved cn bill eventType extra ↔
      Notified env s payment cn bill eventType extra := fun cn bill eventType extra =>
    notified_congr hdirectory rfl htenant hreference eventType extra
  cases target with
  | successful =>
      simp only [Ensues, hrelated, hremaining, hsettled, hreceipt, hnotified, htext]
  | _ => simp only [Ensues, hrelated, hnotified]

/-- Whether an outcome can be applied depends on the tables that it reads only. -/
theorem applies_congr (h : t.looked = s.looked) {moved : Payment}
    (hstatus : moved.status = payment.status)
    (hreason : moved.failureReason = payment.failureReason)
    (hid : moved.id = payment.id) (hnumber : moved.controlNumber = payment.controlNumber)
    (htenant : moved.tenant = payment.tenant) (hamount : moved.amount = payment.amount)
    (hprovider : moved.provider = payment.provider) (hchannel : moved.channel = payment.channel)
    (hreference : moved.merchantReference = payment.merchantReference) (outcome : ProviderOutcome) :
    Applies env t moved given outcome ↔ Applies env s payment given outcome := by
  unfold Applies
  cases outcome.toStatus? with
  | none => rw [hstatus, hreason]
  | some target =>
      dsimp only
      rw [hstatus, hreason,
        ensues_congr h hid hnumber htenant hamount hprovider hchannel hreference]

/-- An audit row that can be stored leaves what the side effects read as it is. -/
theorem exec_audited (hauditable : env.Auditable) (action : String) (tenant : Option ℕ)
    (target : Option Source) (after metadata : List (String × String)) (s : DB) :
    ∃ t, (recordAuditEvent env action tenant target after metadata).exec s = .ok ((), t) ∧
      t.looked = s.looked := by
  rw [exec_recordAuditEvent, if_pos hauditable]
  exact ⟨_, rfl, rfl⟩

theorem completes_onSuccessful (hauditable : env.Auditable)
    (hstatus : payment.status = .successful) :
    Completes (onSuccessful env payment given) s ↔ Ensues env s payment given .successful := by
  have hcorrelated := hauditable.1
  obtain ⟨s₁, haudit, h₁⟩ := exec_audited hauditable "payment.successful" (some payment.tenant)
    (some (.payment payment.id)) [] [] s
  obtain ⟨s₂, hpost, h₂⟩ : ∃ u, (postSettlementLedgerEntries env payment).exec s₁ = .ok ((), u) ∧
      u.looked = s₁.looked := by
    simp only [postSettlementLedgerEntries, Txn.exec_bind, exec_postEntry _ hcorrelated]
    exact ⟨_, rfl, rfl⟩
  obtain ⟨u, hrecord, h₃⟩ : ∃ u, (recordPaymentSuccessful env payment).exec s₂ = .ok ((), u) ∧
      u.looked = s₂.looked := by
    simp only [recordPaymentSuccessful, Txn.exec_bind, exec_postEntry _ hcorrelated,
      exec_recordEvent _ hcorrelated]
    exact ⟨_, rfl, rfl⟩
  have hu : u.looked = s.looked := h₃.trans (h₂.trans h₁)
  rw [← ensues_congr hu rfl rfl rfl rfl rfl rfl rfl, onSuccessful, completes_bind haudit,
    completes_bind hpost, completes_bind hrecord, (looks_loadRelated payment given).completes_bind]
  simp only [completes_settle _ hcorrelated hstatus]
  constructor
  · rintro ⟨⟨cn, bill⟩, hrelated, number, hsettles⟩
    exact ⟨cn, bill, number, hrelated, hsettles⟩
  · rintro ⟨cn, bill, number, hrelated, hsettles⟩
    exact ⟨(cn, bill), hrelated, number, hsettles⟩

theorem completes_onFailed (hauditable : env.Auditable) :
    Completes (onFailed env payment given) s ↔ Ensues env s payment given .failed := by
  obtain ⟨s₁, haudit, h₁⟩ := exec_audited hauditable "payment.failed" (some payment.tenant)
    (some (.payment payment.id)) [] [] s
  obtain ⟨u, hrecord, h₂⟩ : ∃ u, (recordPaymentFailed env payment).exec s₁ = .ok ((), u) ∧
      u.looked = s₁.looked :=
    ⟨_, exec_recordEvent _ hauditable.1 _ _ _ _ _ _ _, rfl⟩
  have hu : u.looked = s.looked := h₂.trans h₁
  rw [← ensues_congr hu rfl rfl rfl rfl rfl rfl rfl, onFailed, completes_bind haudit,
    completes_bind hrecord, (looks_loadRelated payment given).completes_bind]
  simp only [completes_bind_iff fun _ _ => completes_dispatch hauditable.1 _ _, completes_notify]
  constructor
  · rintro ⟨⟨cn, bill⟩, hrelated, hnotified⟩
    exact ⟨cn, bill, hrelated, hnotified⟩
  · rintro ⟨cn, bill, hrelated, hnotified⟩
    exact ⟨(cn, bill), hrelated, hnotified⟩

theorem completes_onPending (hauditable : env.Auditable) :
    Completes (onPending env payment given) s ↔ Ensues env s payment given .pending := by
  obtain ⟨u, haudit, hu⟩ := exec_audited hauditable "payment.pending" (some payment.tenant)
    (some (.payment payment.id)) [] [] s
  rw [← ensues_congr hu rfl rfl rfl rfl rfl rfl rfl, onPending, completes_bind haudit,
    (looks_loadRelated payment given).completes_bind]
  simp only [completes_bind_iff fun _ _ => completes_dispatch hauditable.1 _ _, completes_notify]
  constructor
  · rintro ⟨⟨cn, bill⟩, hrelated, hnotified⟩
    exact ⟨cn, bill, hrelated, hnotified⟩
  · rintro ⟨cn, bill, hrelated, hnotified⟩
    exact ⟨(cn, bill), hrelated, hnotified⟩

theorem completes_onEntered {target : PaymentStatus} (hstatus : payment.status = target)
    (htarget : target = .successful ∨ target = .failed ∨ target = .pending) :
    Completes (onEntered env payment given target) s ↔
      env.Auditable ∧ Ensues env s payment given target := by
  by_cases hauditable : env.Auditable
  · rw [and_iff_right hauditable]
    rcases htarget with rfl | rfl | rfl
    · exact completes_onSuccessful hauditable hstatus
    · exact completes_onFailed hauditable
    · exact completes_onPending hauditable
  · refine iff_of_false ?_ fun h => hauditable h.1
    rintro ⟨⟨⟨⟩, t⟩, hexec⟩
    exact hauditable (auditable_of_onEntered hexec)

/-- A transition that the status admits, with a reason that fits. -/
theorem exec_transitionTo (env : Env) (payment : Payment) (new : PaymentStatus) (reason : String)
    (s : DB) :
    (payment.transitionTo env new reason).exec s =
      if new ∈ payment.status.allowedTransitions then
        if Varchar 255 (payment.moveTo env.now new reason).failureReason then
          .ok (payment.moveTo env.now new reason, inBooks
            (·.updatePayment payment.id (payment.moveTo env.now new reason).saveStatus) s)
        else .error .dataError
      else .error (.validationError ("Cannot transition payment from '" ++
        payment.status.value ++ "' to '" ++ new.value ++ "'.")) := by
  rw [Payment.transitionTo, Txn.exec_bind, exec_raiseIf]
  by_cases hallowed : new ∈ payment.status.allowedTransitions
  · rw [if_neg (not_not.mpr hallowed), if_pos hallowed]
    dsimp only
    rw [Txn.exec_bind, exec_checkVarchar]
    by_cases hreason : Varchar 255 (payment.moveTo env.now new reason).failureReason
    · rw [if_pos hreason, if_pos hreason]
      rfl
    · rw [if_neg hreason, if_neg hreason]
  · rw [if_pos hallowed, if_neg hallowed]

theorem completes_transitionTo_bind {β : Type} {f : Payment → Tx β} (new : PaymentStatus) :
    Completes (payment.transitionTo env new >>= f) s ↔
      new ∈ payment.status.allowedTransitions ∧ Varchar 255 payment.failureReason ∧
        Completes (f (payment.moveTo env.now new "")) (inBooks
          (·.updatePayment payment.id (payment.moveTo env.now new "").saveStatus) s) := by
  have hreason : (payment.moveTo env.now new "").failureReason = payment.failureReason := rfl
  have hexec := exec_transitionTo env payment new "" s
  rw [hreason] at hexec
  by_cases hallowed : new ∈ payment.status.allowedTransitions
  · rw [if_pos hallowed] at hexec
    by_cases hfits : Varchar 255 payment.failureReason
    · rw [if_pos hfits] at hexec
      rw [completes_bind hexec]
      exact ⟨fun h => ⟨hallowed, hfits, h⟩, fun h => h.2.2⟩
    · rw [if_neg hfits] at hexec
      exact ⟨fun h => absurd h (completes_bind_error hexec), fun h => absurd h.2.1 hfits⟩
  · rw [if_neg hallowed] at hexec
    exact ⟨fun h => absurd h (completes_bind_error hexec), fun h => absurd h.1 hallowed⟩

/-- `_apply_outcome` raises exactly where the outcome cannot be applied. -/
theorem completes_applyOutcome (env : Env) (s : DB) (payment : Payment) (given : Related)
    (outcome : ProviderOutcome) :
    Completes (applyOutcome env payment given outcome) s ↔ Applies env s payment given outcome := by
  unfold applyOutcome Applies
  cases houtcome : outcome.toStatus? with
  | none =>
      dsimp only
      by_cases hopen : payment.status = .initiated ∨ payment.status = .pending
      · have hallowed : PaymentStatus.unknown ∈ payment.status.allowedTransitions := by
          rcases hopen with h | h
          · rw [h]; decide
          · rw [h]; decide
        rw [if_pos hopen, completes_transitionTo_bind, completes_bind_iff fun _ t =>
          completes_ret _ t, completes_recordAuditEvent]
        exact ⟨fun h _ => h.2, fun h => ⟨hallowed, h hopen⟩⟩
      · rw [if_neg hopen]
        exact ⟨fun _ h => absurd h hopen, fun _ => completes_ret _ _⟩
  | some target =>
      dsimp only
      have htarget : target = .successful ∨ target = .failed ∨ target = .pending := by
        cases outcome with
        | successful => exact Or.inl (Option.some.inj houtcome).symm
        | failed => exact Or.inr (Or.inl (Option.some.inj houtcome).symm)
        | pending => exact Or.inr (Or.inr (Option.some.inj houtcome).symm)
        | unknown => cases houtcome
      by_cases hsame : payment.status = target
      · rw [if_pos hsame]
        exact ⟨fun _ => Or.inl hsame, fun _ => completes_ret _ _⟩
      · have hmoved : (payment.moveTo env.now target "").status = target := rfl
        rw [if_neg hsame, completes_transitionTo_bind,
          completes_bind_iff fun _ t => completes_ret _ t, completes_onEntered hmoved htarget,
          ensues_congr (t := inBooks (·.updatePayment payment.id
            (payment.moveTo env.now target "").saveStatus) s) (s := s) rfl rfl rfl rfl rfl rfl rfl
            rfl]
        exact (or_iff_right hsame).symm

/-- What a first delivery that matches a payment needs besides the payment: its row can be
inserted, and the lookup takes its reference. -/
structure FirstDelivery (env : Env) (s : Books) (provider : ℕ) (parsed : ProviderCallbackResult) :
    Prop where
  fits : parsed.Fits
  unknown : s.knowsEvent provider parsed.externalEventId = false
  fresh : s.FreshEvent (env.gen.callbackEventId 0)
  reference : '\x00' ∉ parsed.providerReference.toList

theorem exec_firstDelivery {provider : PaymentProvider} {parsed : ProviderCallbackResult}
    (h : FirstDelivery env s.toBooks provider.id parsed) :
    (onParsed env provider parsed).exec s =
      (onFirstDelivery env (parsed.newEvent (env.gen.callbackEventId 0) provider.id) parsed).exec
        (inBooks (·.addCallbackEvent (parsed.newEvent (env.gen.callbackEventId 0) provider.id))
          s) := by
  rw [onParsed_exec, if_pos h.fits, if_pos ⟨h.fresh, h.unknown⟩]

/-- A first delivery that matches a payment raises nothing exactly where its outcome can be
applied. -/
theorem completes_onFirstDelivery_matched (env : Env) {event : PaymentCallbackEvent}
    {parsed : ProviderCallbackResult} (hquery : '\x00' ∉ parsed.providerReference.toList)
    (hfound : s.matchReference parsed.providerReference = some payment) :
    Completes (onFirstDelivery env event parsed) (inBooks (·.addCallbackEvent event) s) ↔
      Applies env s payment {} parsed.outcome := by
  have hlinked : Completes (applyOutcome env payment {} parsed.outcome)
      (inBooks (·.linkEvent event payment.id) s) ↔ Applies env s payment {} parsed.outcome := by
    rw [completes_applyOutcome]
    exact applies_congr rfl rfl rfl rfl rfl rfl rfl rfl rfl rfl _
  rw [← hlinked, Completes, Completes, onFirstDelivery_matched hquery hfound]
  cases happly : (applyOutcome env payment {} parsed.outcome).exec
      (inBooks (·.linkEvent event payment.id) s) with
  | ok r => exact iff_of_true ⟨_, rfl⟩ ⟨r, rfl⟩
  | error e =>
      refine iff_of_false ?_ ?_
      · rintro ⟨r, hr⟩
        cases hr
      · rintro ⟨r, hr⟩
        cases hr

/-- One that matches nothing needs its audit row. -/
theorem completes_onFirstDelivery_unmatched (env : Env) {event : PaymentCallbackEvent}
    {parsed : ProviderCallbackResult} (hquery : '\x00' ∉ parsed.providerReference.toList)
    (hnone : s.matchReference parsed.providerReference = none) :
    Completes (onFirstDelivery env event parsed) (inBooks (·.addCallbackEvent event) s) ↔
      env.Auditable := by
  constructor
  · rintro ⟨⟨after, t⟩, hexec⟩
    exact (onFirstDelivery_ok hexec).2 hnone
  · intro hauditable
    obtain ⟨t, hexec, -⟩ := onFirstDelivery_unmatched hauditable hquery hnone
    exact ⟨_, hexec⟩

theorem completes_onParsed (env : Env) {provider : PaymentProvider}
    {parsed : ProviderCallbackResult} (hfirst : FirstDelivery env s.toBooks provider.id parsed)
    (hfound : s.matchReference parsed.providerReference = some payment) :
    Completes (onParsed env provider parsed) s ↔ Applies env s payment {} parsed.outcome :=
  (completes_congr (exec_firstDelivery hfirst)).trans
    (completes_onFirstDelivery_matched env hfirst.reference hfound)

theorem completes_unmatched (env : Env) {provider : PaymentProvider}
    {parsed : ProviderCallbackResult} (hfirst : FirstDelivery env s.toBooks provider.id parsed)
    (hnone : s.matchReference parsed.providerReference = none) :
    Completes (onParsed env provider parsed) s ↔ env.Auditable :=
  (completes_congr (exec_firstDelivery hfirst)).trans
    (completes_onFirstDelivery_unmatched env hfirst.reference hnone)

end Outcomes

end Kusanya
