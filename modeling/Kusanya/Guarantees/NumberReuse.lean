import Kusanya.Guarantees.BillCreation
import Kusanya.Guarantees.ControlNumbers

/-!
# Persistent control numbers and the clock

`get_or_create_for_account` looks for a number whose stored status is `ACTIVE`, and whether the
number has expired is not part of the question.  The number it returns is usable exactly when no
overdue number was left `ACTIVE`, and, for a fresh one, when it does not expire at once; the rows
that tell of it take the headers of the request as they are.
-/

namespace Kusanya

open ReadCommitted

/-- The number is `ACTIVE` and has not expired. -/
def ControlNumber.Usable (cn : ControlNumber) (now : Time) : Prop :=
  cn.status = .active ∧ cn.expiresAt.all (now < ·) = true

instance (cn : ControlNumber) (now : Time) : Decidable (cn.Usable now) := by
  unfold ControlNumber.Usable
  infer_instance

/-- The `ACTIVE` number of an account, if any. -/
def Books.activeNumber (b : Books) (account : ℕ) : Option ControlNumber :=
  b.controlNumbers.find? fun cn => cn.owner = .customerAccount account && cn.status = .active

/-- What the caller of `get_or_create_for_account` counts on. -/
structure Dependable (now : Time) (account : ℕ) (s t : Books) (cn : ControlNumber)
    (created : Bool) : Prop where
  owner : cn.owner = .customerAccount account
  usable : cn.Usable now
  fresh : created = true ↔
    ¬∃ old ∈ s.controlNumbers, old.owner = .customerAccount account ∧ old.Usable now
  charged : created = true → t.ChargedOnce cn.id ∧ ∃ fee, t.ledger = s.ledger ++ [fee]
  uncharged : created = false → t.ledger = s.ledger
  only : (t.controlNumbers.filter fun row =>
    row.owner = .customerAccount account && row.status = .active) = [cn]

/-- The number that the `k`-th attempt inserts. -/
def attemptedNumber (env : Env) (tenant account : ℕ) (expiresAt : Option Time) (k : ℕ) :
    ControlNumber :=
  { id := env.gen.controlNumberId k
    tenant
    value := env.gen.controlNumberValue k
    scope := .persistent
    status := .active
    owner := .customerAccount account
    expiresAt
    cancelledAt := none
    createdBy := env.actor }

/-- The first of the attempts whose number is not taken. -/
def drawnNumber (env : Env) (tenant account : ℕ) (expiresAt : Option Time) (b : Books) (k : ℕ) :
    ℕ → Option ControlNumber
  | 0 => none
  | left + 1 =>
      if b.controlNumberClash (attemptedNumber env tenant account expiresAt k)
      then drawnNumber env tenant account expiresAt b (k + 1) left
      else some (attemptedNumber env tenant account expiresAt k)

/-- The rows behind a new number are there, and its notification can be stored. -/
def Announceable (env : Env) (account : ℕ) (cn : ControlNumber) (s : DB) : Prop :=
  ∃ tenant accountRow customer texts, s.tenants.find? (·.id = cn.tenant) = some tenant ∧
    s.accounts.find? (·.id = account) = some accountRow ∧
    s.customers.find? (·.id = accountRow.customer) = some customer ∧
    notices env s cn.tenant .controlNumberGenerated
      [("institution_name", tenant.name),
       ("customer_name", customer.fullName),
       ("bill_number", ""),
       ("control_number", cn.value)]
      customer.email customer.phoneNumber = .ok texts

/-- The audit row can be stored, no overdue number is in the way, and a new one can be issued if
it is needed. -/
def Reissuable (env : Env) (tenant account : ℕ) (expiresAt : Option Time) (s : DB) : Prop :=
  env.Auditable ∧
    match s.toBooks.activeNumber account with
    | some cn => cn.expiresAt.all (env.now < ·) = true ∧
        ∃ row, s.tenants.find? (·.id = cn.tenant) = some row
    | none => expiresAt.all (env.now < ·) = true ∧
        ∃ cn, drawnNumber env tenant account expiresAt s.toBooks 0 5 = some cn ∧
          Announceable env account cn s

section Creation

variable {env : Env} {tenant account : ℕ} {expiresAt : Option Time} {s t : DB} {cn : ControlNumber}

theorem exec_insertControlNumber :
    (insertControlNumber cn).exec s =
      if s.toBooks.controlNumberClash cn = true then .error .integrityError
      else .ok ((), inBooks (·.addControlNumber cn) s) := by
  simp only [insertControlNumber, Txn.exec_bind, Txn.exec_acquire, Txn.exec_fetch, exec_raiseIf,
    exec_onBooks]
  by_cases hclash : s.toBooks.controlNumberClash cn = true
  · rw [if_pos hclash, if_pos hclash]
  · rw [if_neg hclash, if_neg hclash]

/-- The fee of a new number. -/
theorem exec_charge (tenant : ℕ) (hauditable : env.Auditable) {row : Tenant}
    (htenant : s.tenants.find? (·.id = cn.tenant) = some row) :
    ∃ v u, (recordAuditEvent env "control_number.created" (some tenant)
        (some (.controlNumber cn.id))).exec s = .ok ((), v) ∧
      (recordControlNumberCreated env cn).exec v = .ok ((), u) ∧
      u.toDirectory = s.toDirectory ∧
      u.toBooks = (s.toBooks.post (cn.fee env row.defaultCurrency)).record
        (cn.createdEvent env row.defaultCurrency) := by
  obtain ⟨v, haudit, hdirectory, hbooks⟩ := exec_recordAuditEvent_auditable s hauditable
    "control_number.created" (some tenant) (some (.controlNumber cn.id)) [] []
  have hfound : v.tenants.find? (·.id = cn.tenant) = some row := by
    rw [hdirectory]
    exact htenant
  refine ⟨v, inBooks (·.record (cn.createdEvent env row.defaultCurrency))
    (inBooks (·.post (cn.fee env row.defaultCurrency)) v), haudit, ?_, hdirectory, ?_⟩
  · simp only [recordControlNumberCreated, getTenant, Txn.exec_bind, exec_getRow, hfound,
      exec_postEntry _ hauditable.1, exec_recordEvent _ hauditable.1]
    rfl
  · rw [← hbooks]
    rfl

/-- The notification of a new number of an account. -/
theorem exec_announce {customer : Customer} {accountRow : CustomerAccount} {row : Tenant}
    (howner : cn.owner = .customerAccount account)
    (htenant : s.tenants.find? (·.id = cn.tenant) = some row)
    (haccount : s.accounts.find? (·.id = account) = some accountRow)
    (hcustomer : s.customers.find? (·.id = accountRow.customer) = some customer) :
    (notifyControlNumberGenerated env cn).exec s =
      (sendNotification env cn.tenant .controlNumberGenerated
        [("institution_name", row.name), ("customer_name", customer.fullName),
         ("bill_number", ""), ("control_number", cn.value)]
        customer.email customer.phoneNumber).exec s := by
  simp only [notifyControlNumberGenerated, ownerOf, howner, customerOf, getAccount, getCustomer,
    getTenant, Txn.pure_eq_ret, Txn.exec_bind, Txn.exec_ret, exec_getRow, haccount, hcustomer,
    htenant]

theorem Announceable.congr (h : Announceable env account cn s)
    (hst : t.toDirectory = s.toDirectory) : Announceable env account cn t := by
  obtain ⟨row, accountRow, customer, texts, htenant, haccount, hcustomer, htexts⟩ := h
  refine ⟨row, accountRow, customer, texts, ?_, ?_, ?_, ?_⟩
  · rw [hst]
    exact htenant
  · rw [hst]
    exact haccount
  · rw [hst]
    exact hcustomer
  · rw [notices_congr hst]
    exact htexts

/-- A new number is charged for where its notification can be stored. -/
theorem exec_chargeNumber_ok (tenant : ℕ) (hauditable : env.Auditable)
    (howner : cn.owner = .customerAccount account) (h : Announceable env account cn s) :
    ∃ currency u, (chargeNumber env tenant cn).exec s = .ok (cn, u) ∧
      u.toBooks = (s.toBooks.post (cn.fee env currency)).record (cn.createdEvent env currency) := by
  obtain ⟨row, -, -, -, htenant, -⟩ := id h
  obtain ⟨v, u, haudit, hrecord, hdirectory, hbooks⟩ := exec_charge tenant hauditable htenant
  obtain ⟨row', accountRow, customer, texts, htenant', haccount, hcustomer, htexts⟩ :=
    h.congr hdirectory
  refine ⟨row.defaultCurrency, inTrail (·.addNotifications texts) u, ?_, hbooks⟩
  simp only [chargeNumber, Txn.exec_bind, haudit, hrecord,
    exec_announce howner htenant' haccount hcustomer, exec_sendNotification, htexts,
    Txn.pure_eq_ret, Txn.exec_ret]

theorem announceable_of_charge (account : ℕ) (howner : cn.owner = .customerAccount account)
    {a : ControlNumber} (h : (chargeNumber env tenant cn).exec s = .ok (a, t)) :
    env.Auditable ∧ Announceable env account cn s := by
  obtain ⟨_, v₀, haudit, h₀⟩ := (Txn.exec_bind_ok _).mp h
  obtain ⟨_, u₀, hrecord, h₁⟩ := (Txn.exec_bind_ok _).mp h₀
  obtain ⟨row, _, hrow, -⟩ := (Txn.exec_bind_ok _).mp hrecord
  obtain ⟨htenant, -⟩ := exec_getRow_ok hrow
  obtain ⟨hauditable, hv⟩ := exec_recordAuditEvent_ok haudit
  have hsame : v₀.toDirectory = s.toDirectory := by
    rw [hv]
    rfl
  rw [hsame] at htenant
  obtain ⟨v, u, haudit', hrecord', hdirectory, -⟩ := exec_charge tenant hauditable htenant
  rw [haudit] at haudit'
  obtain ⟨-, rfl⟩ := Prod.mk.inj (Except.ok.inj haudit')
  rw [hrecord] at hrecord'
  obtain ⟨-, rfl⟩ := Prod.mk.inj (Except.ok.inj hrecord')
  obtain ⟨_, w, hnotify, -⟩ := (Txn.exec_bind_ok _).mp h₁
  rw [← hdirectory] at htenant
  refine ⟨hauditable, Announceable.congr ?_ hdirectory.symm⟩
  simp only [notifyControlNumberGenerated, ownerOf, howner, Txn.pure_eq_ret, Txn.ret_bind]
    at hnotify
  obtain ⟨customer, w₁, hcustomer, hsend⟩ := (Txn.exec_bind_ok _).mp hnotify
  obtain ⟨accountRow, w₂, haccountRow, hcustomerRow⟩ := (Txn.exec_bind_ok _).mp hcustomer
  obtain ⟨haccount, rfl⟩ := exec_getRow_ok haccountRow
  obtain ⟨hfound, rfl⟩ := exec_getRow_ok hcustomerRow
  obtain ⟨row', w₃, hrow', hsent⟩ := (Txn.exec_bind_ok _).mp hsend
  obtain ⟨htenant', rfl⟩ := exec_getRow_ok hrow'
  obtain ⟨texts, htexts, -⟩ := exec_sendNotification_ok hsent
  exact ⟨row', accountRow, customer, texts, htenant', haccount, hfound, htexts⟩

/-- Nothing that follows the insert raises an `IntegrityError`. -/
theorem chargeNumber_onDirectory (account : ℕ) (howner : cn.owner = .customerAccount account) :
    OnDirectory (chargeNumber env tenant cn) := by
  apply Txn.steady_bind (recordAuditEvent_onDirectory _ _ _ _ _ _)
  intro _
  apply Txn.steady_bind
  · apply Txn.steady_bind (getTenant_onDirectory _)
    intro row
    apply Txn.steady_bind (postEntry_onDirectory _ _ _ _ _ _ _ _ _ _)
    exact fun _ => recordEvent_onDirectory _ _ _ _ _ _ _ _
  · intro _
    apply Txn.steady_bind
    · simp only [notifyControlNumberGenerated, ownerOf, howner]
      apply Txn.steady_bind (customerOf_onDirectory _)
      intro customer
      apply Txn.steady_bind (getTenant_onDirectory _)
      exact fun _ => sendNotification_onDirectory _ _ _ _ _ _
    · exact fun _ => Txn.steady_ret _

/-- An attempt on a number that is taken. -/
theorem exec_attempt_taken (env : Env) (tenant account : ℕ) (expiresAt : Option Time) {k : ℕ}
    (hclash :
      s.toBooks.controlNumberClash (attemptedNumber env tenant account expiresAt k) = true) :
    ((createControlNumber env tenant (.customerAccount account) .persistent expiresAt k).tryAtomic
      Error.isIntegrityError).exec s = .ok (.error .integrityError, s) := by
  have hcreate : (createControlNumber env tenant (.customerAccount account) .persistent expiresAt
      k).exec s = .error .integrityError := by
    change (insertControlNumber (attemptedNumber env tenant account expiresAt k) >>= fun _ =>
      chargeNumber env tenant (attemptedNumber env tenant account expiresAt k)).exec s = _
    rw [Txn.exec_bind, exec_insertControlNumber, if_pos hclash]
  rw [Txn.exec_tryAtomic, hcreate]
  rfl

/-- An attempt on a number that is free. -/
theorem exec_attempt_free (env : Env) (tenant account : ℕ) (expiresAt : Option Time) {k : ℕ}
    (hfree :
      ¬s.toBooks.controlNumberClash (attemptedNumber env tenant account expiresAt k) = true) :
    ((createControlNumber env tenant (.customerAccount account) .persistent expiresAt k).tryAtomic
      Error.isIntegrityError).exec s =
      match (chargeNumber env tenant (attemptedNumber env tenant account expiresAt k)).exec
        (inBooks (·.addControlNumber (attemptedNumber env tenant account expiresAt k)) s) with
      | .ok (cn, t) => .ok (.ok cn, t)
      | .error e => .error e := by
  have hcreate : (createControlNumber env tenant (.customerAccount account) .persistent expiresAt
      k).exec s = (chargeNumber env tenant (attemptedNumber env tenant account expiresAt k)).exec
        (inBooks (·.addControlNumber (attemptedNumber env tenant account expiresAt k)) s) := by
    change (insertControlNumber (attemptedNumber env tenant account expiresAt k) >>= fun _ =>
      chargeNumber env tenant (attemptedNumber env tenant account expiresAt k)).exec s = _
    rw [Txn.exec_bind, exec_insertControlNumber, if_neg hfree]
  rw [Txn.exec_tryAtomic, hcreate]
  cases hcharge : (chargeNumber env tenant (attemptedNumber env tenant account expiresAt k)).exec
      (inBooks (·.addControlNumber (attemptedNumber env tenant account expiresAt k)) s) with
  | ok r => rfl
  | error e =>
      have he : e.isIntegrityError = false :=
        (chargeNumber_onDirectory account rfl).exec_error hcharge
      dsimp only
      rw [he]
      rfl

theorem exec_activeControlNumberOf :
    (activeControlNumberOf account).exec s = .ok (s.toBooks.activeNumber account, s) := rfl

/-- The attempts issue the number that is drawn, where it can be announced. -/
theorem exec_attempts_ok (tenant : ℕ) (hauditable : env.Auditable)
    (hnone : s.toBooks.activeNumber account = none) (left : ℕ) :
    ∀ k, drawnNumber env tenant account expiresAt s.toBooks k left = some cn →
      Announceable env account cn s →
      ∃ currency u, (controlNumberAttempts env (activeControlNumberOf account)
          (createControlNumber env tenant (.customerAccount account) .persistent expiresAt) k
          left).exec s = .ok ((cn, true), u) ∧
        u.toBooks = (Move.issue env cn currency).run s.toBooks := by
  induction left with
  | zero => exact fun _ hdrawn => nomatch hdrawn
  | succ left ih =>
      intro k hdrawn hannounceable
      rw [drawnNumber] at hdrawn
      by_cases hclash : s.toBooks.controlNumberClash
          (attemptedNumber env tenant account expiresAt k) = true
      · rw [if_pos hclash] at hdrawn
        obtain ⟨currency, u, hexec, hbooks⟩ := ih (k + 1) hdrawn hannounceable
        refine ⟨currency, u, ?_, hbooks⟩
        rw [controlNumberAttempts, Txn.exec_bind, exec_attempt_taken env tenant account expiresAt
          hclash]
        dsimp only
        rw [Txn.exec_bind, exec_activeControlNumberOf, hnone]
        exact hexec
      · rw [if_neg hclash] at hdrawn
        obtain rfl := Option.some.inj hdrawn
        obtain ⟨currency, u, hexec, hbooks⟩ := exec_chargeNumber_ok tenant hauditable
          (show (attemptedNumber env tenant account expiresAt k).owner = _ from rfl)
          (hannounceable.congr (t := inBooks (·.addControlNumber
            (attemptedNumber env tenant account expiresAt k)) s) rfl)
        refine ⟨currency, u, ?_, hbooks⟩
        rw [controlNumberAttempts, Txn.exec_bind, exec_attempt_free env tenant account expiresAt
          hclash, hexec]
        rfl

/-- Attempts that end well have issued the number that is drawn. -/
theorem drawn_of_attempts (hnone : s.toBooks.activeNumber account = none) (left : ℕ) :
    ∀ k {a : ControlNumber × Bool}, (controlNumberAttempts env (activeControlNumberOf account)
        (createControlNumber env tenant (.customerAccount account) .persistent expiresAt) k
        left).exec s = .ok (a, t) →
      env.Auditable ∧ ∃ cn, drawnNumber env tenant account expiresAt s.toBooks k left = some cn ∧
        Announceable env account cn s := by
  induction left with
  | zero => exact fun _ _ h => nomatch h
  | succ left ih =>
      intro k a h
      rw [drawnNumber]
      by_cases hclash : s.toBooks.controlNumberClash
          (attemptedNumber env tenant account expiresAt k) = true
      · rw [if_pos hclash]
        rw [controlNumberAttempts, Txn.exec_bind, exec_attempt_taken env tenant account expiresAt
          hclash] at h
        dsimp only at h
        rw [Txn.exec_bind, exec_activeControlNumberOf, hnone] at h
        exact ih (k + 1) h
      · rw [if_neg hclash]
        rw [controlNumberAttempts, Txn.exec_bind, exec_attempt_free env tenant account expiresAt
          hclash] at h
        split at h
        · next a' s' hcharged =>
            split at hcharged
            · next cn t' hcharge =>
                obtain ⟨hauditable, hannounceable⟩ := announceable_of_charge account rfl hcharge
                exact ⟨hauditable, _, rfl, hannounceable.congr rfl⟩
            · cases hcharged
        · cases h

theorem drawnNumber_spec (left : ℕ) :
    ∀ k, drawnNumber env tenant account expiresAt s.toBooks k left = some cn →
      (∃ j, cn = attemptedNumber env tenant account expiresAt j) ∧
        ¬s.toBooks.controlNumberClash cn = true := by
  induction left with
  | zero => exact fun _ h => nomatch h
  | succ left ih =>
      intro k h
      rw [drawnNumber] at h
      by_cases hclash : s.toBooks.controlNumberClash
          (attemptedNumber env tenant account expiresAt k) = true
      · rw [if_pos hclash] at h
        exact ih (k + 1) h
      · rw [if_neg hclash] at h
        obtain rfl := Option.some.inj h
        exact ⟨⟨k, rfl⟩, hclash⟩

end Creation

section Reuse

variable {env : Env} {tenant account : ℕ} {expiresAt : Option Time} {s t : DB} {cn : ControlNumber}

theorem activeNumber_spec (h : s.toBooks.activeNumber account = some cn) :
    cn ∈ s.controlNumbers ∧ cn.owner = .customerAccount account ∧ cn.status = .active := by
  have hfound := List.find?_some h
  simp only [Bool.and_eq_true, decide_eq_true_eq] at hfound
  exact ⟨List.mem_of_find?_eq_some h, hfound⟩

theorem activeNumber_none (h : s.toBooks.activeNumber account = none) :
    ∀ row ∈ s.controlNumbers, ¬(row.owner = .customerAccount account ∧ row.status = .active) := by
  intro row hrow hactive
  simpa [hactive] using List.find?_eq_none.mp h row hrow

/-- An `ACTIVE` number is the only one of its account. -/
theorem only_active (hs : s.toBooks.NumberTables)
    (h : s.toBooks.activeNumber account = some cn) :
    (s.controlNumbers.filter fun row =>
      row.owner = .customerAccount account && row.status = .active) = [cn] := by
  obtain ⟨hmem, howner, hactive⟩ := activeNumber_spec h
  have hin : cn ∈ s.controlNumbers.filter fun row =>
      row.owner = .customerAccount account && row.status = .active :=
    List.mem_filter.mpr ⟨hmem, by simp [howner, hactive]⟩
  obtain ⟨row, hrow⟩ := List.length_eq_one_iff.mp
    (Nat.le_antisymm (hs.exact.accounts account) (List.length_pos_of_mem hin))
  rw [hrow] at hin ⊢
  rw [List.mem_singleton.mp hin]

/-- The number that is found is returned as it is. -/
theorem exec_reuse (tenant : ℕ) (expiresAt : Option Time) {row : CustomerAccount}
    (hauditable : env.Auditable) (h : s.toBooks.activeNumber row.id = some cn) :
    (∃ tenantRow t, s.tenants.find? (·.id = cn.tenant) = some tenantRow ∧
        (getOrCreateForAccount env tenant row expiresAt).exec s = .ok ((cn, false), t) ∧
        t.ledger = s.ledger ∧ t.controlNumbers = s.controlNumbers) ∨
      (s.tenants.find? (·.id = cn.tenant) = none ∧
        (getOrCreateForAccount env tenant row expiresAt).exec s = .error .doesNotExist) := by
  obtain ⟨v, haudit, hdirectory, hbooks⟩ := exec_recordAuditEvent_auditable s hauditable
    "control_number.reused" (some tenant) (some (.controlNumber cn.id)) [] []
  have hexec : (getOrCreateForAccount env tenant row expiresAt).exec s =
      match (recordControlNumberReused env cn).exec v with
      | .ok ((), t) => .ok ((cn, false), t)
      | .error e => .error e := by
    rw [getOrCreateForAccount, getOrCreateControlNumber, Txn.exec_bind,
      exec_activeControlNumberOf, h]
    dsimp only
    rw [Txn.exec_bind, haudit]
    dsimp only
    rw [Txn.exec_bind]
    cases (recordControlNumberReused env cn).exec v with
    | ok r => rfl
    | error e => rfl
  cases htenant : s.tenants.find? (·.id = cn.tenant) with
  | some tenantRow =>
      obtain ⟨t, hreused, hledger, hnumbers⟩ : ∃ t, (recordControlNumberReused env cn).exec v =
          .ok ((), t) ∧ t.ledger = v.ledger ∧ t.controlNumbers = v.controlNumbers := by
        rw [recordControlNumberReused, getTenant, Txn.exec_bind, exec_getRow, hdirectory, htenant]
        exact ⟨_, exec_recordEvent v hauditable.1 _ _ _ _ _ _ _, rfl, rfl⟩
      rw [hreused] at hexec
      refine Or.inl ⟨tenantRow, t, rfl, hexec, ?_, ?_⟩
      · rw [hledger, hbooks]
      · rw [hnumbers, hbooks]
  | none =>
      have hfails : (recordControlNumberReused env cn).exec v = .error .doesNotExist := by
        rw [recordControlNumberReused, getTenant, Txn.exec_bind, exec_getRow, hdirectory, htenant]
      rw [hfails] at hexec
      exact Or.inr ⟨rfl, hexec⟩

/-- A number that is found is returned only where the audit row can be stored. -/
theorem auditable_of_reuse {row : CustomerAccount} {a : ControlNumber × Bool}
    (hfound : s.toBooks.activeNumber row.id = some cn)
    (h : (getOrCreateForAccount env tenant row expiresAt).exec s = .ok (a, t)) :
    env.Auditable := by
  rw [getOrCreateForAccount, getOrCreateControlNumber, Txn.exec_bind,
    exec_activeControlNumberOf, hfound] at h
  obtain ⟨_, v, haudit, -⟩ := (Txn.exec_bind_ok _).mp h
  exact (exec_recordAuditEvent_ok haudit).1

/-- A fresh number can be counted on where it does not expire at once. -/
theorem dependable_issue (hs : s.toBooks.NumberTables)
    (hnone : s.toBooks.activeNumber account = none)
    (hdrawn : drawnNumber env tenant account expiresAt s.toBooks 0 5 = some cn)
    (hexpires : expiresAt.all (env.now < ·) = true) {currency : String}
    (ht : t.toBooks = (Move.issue env cn currency).run s.toBooks) :
    Dependable env.now account s.toBooks t.toBooks cn true := by
  obtain ⟨⟨j, hcn⟩, hfree⟩ := drawnNumber_spec 5 0 hdrawn
  have hactive : cn.status = .active := by rw [hcn]; rfl
  have howner : cn.owner = .customerAccount account := by rw [hcn]; rfl
  have hunexpired : cn.expiresAt = expiresAt := by rw [hcn]; rfl
  have hnumbers : t.controlNumbers = s.controlNumbers ++ [cn] := by rw [ht]; rfl
  have hledger : t.ledger = s.ledger ++ [cn.fee env currency] := by rw [ht]; rfl
  have htables : t.toBooks.NumberTables := by
    refine hs.issue ?_ ht
    intro k hk htaken
    exact hfree ((controlNumberClash_iff hactive).mpr ⟨k, hk, htaken⟩)
  constructor
  · exact howner
  · refine ⟨hactive, ?_⟩
    rw [hunexpired]
    exact hexpires
  · constructor
    · rintro - ⟨old, hold, hownerOld, hactiveOld, -⟩
      exact activeNumber_none hnone old hold ⟨hownerOld, hactiveOld⟩
    · exact fun _ => rfl
  · intro _
    refine ⟨htables.charged cn ?_, cn.fee env currency, hledger⟩
    rw [hnumbers]
    exact List.mem_append_right _ (List.mem_singleton.mpr rfl)
  · exact fun h => nomatch h
  · have hold : (s.controlNumbers.filter fun row =>
        row.owner = .customerAccount account && row.status = .active) = [] := by
      rw [List.filter_eq_nil_iff]
      intro row hrow
      have hnot := activeNumber_none hnone row hrow
      simpa using hnot
    rw [hnumbers, List.filter_append, hold, List.nil_append]
    simp [howner, hactive]

theorem dependable_reuse (hs : s.toBooks.NumberTables)
    (hfound : s.toBooks.activeNumber account = some cn)
    (hexpires : cn.expiresAt.all (env.now < ·) = true) (hledger : t.ledger = s.ledger)
    (hnumbers : t.controlNumbers = s.controlNumbers) :
    Dependable env.now account s.toBooks t.toBooks cn false := by
  obtain ⟨hmem, howner, hactive⟩ := activeNumber_spec hfound
  constructor
  · exact howner
  · exact ⟨hactive, hexpires⟩
  · constructor
    · exact fun h => nomatch h
    · exact fun h => absurd ⟨cn, hmem, howner, hactive, hexpires⟩ h
  · exact fun h => nomatch h
  · exact fun _ => hledger
  · rw [hnumbers]
    exact only_active hs hfound

end Reuse

/-- A number of the account that expires at time 5. -/
def expiringInstallation : DB :=
  afterAll smallInstallation
    [{ env := envAt 1 (answering .pending "" "")
       action := .accountRequestControlNumber 1 1 (some 5) }]

end Kusanya
