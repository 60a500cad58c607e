import Kusanya.Guarantees.BillTotals
import Kusanya.Invariants.Registration
import Kusanya.Model.BillSerializer
import Kusanya.Moves.Initiations

/-!
# The arithmetic of `POST /bills`

The serializer bounds the factors of a line, and the columns bound the product and the sum.  An
accepted body is stored without a database error, with a total that is not negative, exactly where
its lines and their sum are in range.
-/

namespace Kusanya

open ReadCommitted Support Tenancy

/-! ## What the serializer accepts -/

section Fields

variable {field : DecimalField} {d value : Decimal}

/-- A field accepts a number of hundredths. -/
theorem DecimalField.clean_some (h : field.clean d = some value) : value = ⟨d.hundredths, -2⟩ := by
  unfold DecimalField.clean at h
  dsimp only at h
  split at h
  · exact (Option.some.inj h).symm
  · cases h

theorem coefficient_lt (d : Decimal) : d.coefficient.natAbs < 10 ^ d.digits :=
  Nat.lt_pow_succ_log_self (by decide) _

/-- A value with two decimals at most has no more digits in hundredths than the field allows. -/
theorem DecimalField.clean_lt (hplaces : field.decimalPlaces = 2) (hdigits : 2 ≤ field.maxDigits)
    (h : field.clean d = some value) :
    value.hundredths.natAbs < 10 ^ field.maxDigits := by
  have hcoefficient := coefficient_lt d
  -- it is enough that the digits and the two decimals fit
  have hscaled : ∀ {digits k : ℕ}, d.coefficient.natAbs < 10 ^ digits →
      digits + k ≤ field.maxDigits →
      (d.coefficient * 10 ^ k).natAbs < 10 ^ field.maxDigits := by
    intro digits k hlt hfits
    rw [Int.natAbs_mul, Int.natAbs_pow]
    calc d.coefficient.natAbs * 10 ^ k
        < 10 ^ digits * 10 ^ k := Nat.mul_lt_mul_of_pos_right hlt (Nat.pow_pos (by decide))
      _ = 10 ^ (digits + k) := (Nat.pow_add 10 digits k).symm
      _ ≤ 10 ^ field.maxDigits := Nat.pow_le_pow_right (by decide) hfits
  unfold DecimalField.clean at h
  dsimp only at h
  split at h
  · next hprecision =>
      obtain ⟨htotal, hdecimals, hwhole, -⟩ := hprecision
      obtain rfl := Option.some.inj h
      rw [hundredths_of_cents]
      unfold Decimal.precision at htotal hdecimals hwhole
      rw [hplaces] at hdecimals hwhole
      unfold Decimal.hundredths
      by_cases hnonneg : 0 ≤ d.exponent
      · rw [if_pos hnonneg] at hwhole
        rw [if_pos (by omega)]
        refine hscaled hcoefficient ?_
        dsimp only at hwhole
        omega
      · rw [if_neg hnonneg] at htotal hdecimals hwhole
        by_cases hshort : d.exponent.natAbs < d.digits
        · rw [if_pos hshort] at hdecimals hwhole
          dsimp only at hdecimals hwhole
          rw [if_pos (by omega)]
          refine hscaled hcoefficient ?_
          omega
        · rw [if_neg hshort] at hdecimals
          dsimp only at hdecimals
          rw [if_pos (by omega)]
          have hsmall : d.coefficient.natAbs < 10 ^ d.exponent.natAbs :=
            lt_of_lt_of_le hcoefficient
              (Nat.pow_le_pow_right (by decide) (Nat.le_of_not_lt hshort))
          refine hscaled hsmall ?_
          omega
  · cases h

theorem DecimalField.clean_minValue (hmin : field.minValue = some 0)
    (h : field.clean d = some value) : 0 ≤ value.hundredths := by
  unfold DecimalField.clean at h
  dsimp only at h
  split at h
  · next hprecision =>
      obtain rfl := Option.some.inj h
      have hall := hprecision.2.2.2
      rw [hmin] at hall
      rw [hundredths_of_cents]
      exact of_decide_eq_true hall
  · cases h

end Fields

/-- An item whose values fit their columns. -/
structure ItemInput.Accepted (item : ItemInput) : Prop where
  description : Varchar 255 item.description
  places : item.TwoPlaces
  quantity : item.quantity.hundredths.natAbs < 10 ^ 10
  unitAmount : item.unitAmount.hundredths.natAbs < 10 ^ 18
  nonneg : 0 ≤ item.unitAmount.hundredths

theorem varchar_ofList {n : ℕ} {text : Text} (h : Text.Fits n text) :
    Varchar n (String.ofList text) := by
  rw [Varchar, String.toList_ofList]
  exact h

theorem ItemBody.clean_accepted {body : ItemBody} {item : ItemInput} (h : body.clean = some item) :
    item.Accepted := by
  simp only [ItemBody.clean, Option.bind_eq_bind, Option.bind_eq_some_iff] at h
  obtain ⟨description, hdescription, quantity, hquantity, unitAmount, hunitAmount, hitem⟩ := h
  obtain rfl := Option.some.inj hitem
  have hunit : unitAmount.TwoPlaces := by
    rw [DecimalField.clean_some hunitAmount]
    exact Or.inl (le_refl 0)
  have hcount : quantity.TwoPlaces ∧ quantity.hundredths.natAbs < 10 ^ 10 := by
    cases hgiven : body.quantity with
    | none =>
        rw [hgiven] at hquantity
        obtain rfl := Option.some.inj hquantity
        decide
    | some d =>
        rw [hgiven] at hquantity
        refine ⟨?_, DecimalField.clean_lt rfl (by decide) hquantity⟩
        rw [DecimalField.clean_some hquantity]
        exact Or.inl (le_refl 0)
  exact
    { description := varchar_ofList (charField_fits hdescription)
      places := ⟨hcount.1, hunit⟩
      quantity := hcount.2
      unitAmount := DecimalField.clean_lt rfl (by decide) hunitAmount
      nonneg := DecimalField.clean_minValue rfl hunitAmount }

/-- What `is_valid` promises to the service. -/
structure BillInput.Accepted (input : BillInput) : Prop where
  items : ∀ item ∈ input.items, item.Accepted
  externalReference : Varchar 100 input.externalReference

theorem BillBody.clean_accepted {body : BillBody} {tenant : ℕ} {input : BillInput}
    (h : body.clean tenant = some input) : input.Accepted := by
  simp only [BillBody.clean, Option.bind_eq_bind, Option.bind_eq_some_iff] at h
  obtain ⟨items, hitems, reference, hreference, hinput⟩ := h
  split at hinput
  · cases hinput
  · obtain rfl := Option.some.inj hinput
    constructor
    · intro item hitem
      obtain ⟨itemBody, -, hclean⟩ := mem_of_mapM hitems hitem
      exact ItemBody.clean_accepted hclean
    · exact varchar_ofList (optionalCharField_fits hreference)

/-! ## The lines -/

/-- `line_total`: the product has 28 digits at most, so that the decimal context keeps them all. -/
theorem ItemInput.Accepted.lineTotal {item : ItemInput} (h : item.Accepted) :
    item.lineTotal.hundredths = item.line := by
  refine Decimal.hundredths_mul h.places.1 h.places.2 ?_
  rw [Int.natAbs_mul]
  calc item.quantity.hundredths.natAbs * item.unitAmount.hundredths.natAbs
      < 10 ^ 10 * 10 ^ 18 := Nat.mul_lt_mul'' h.quantity h.unitAmount
    _ = 10 ^ 28 := by norm_num

/-- The lines of the items, each rounded to two decimals. -/
def BillInput.lines (input : BillInput) : List Money := input.items.map ItemInput.line

/-- Every line and their sum fit the money columns. -/
structure BillInput.Fits (input : BillInput) : Prop where
  lines : ∀ line ∈ input.lines, line.natAbs < 10 ^ 18
  total : input.lines.sum.natAbs < 10 ^ 18

section Rows

variable {tenant bill : ℕ} {items : List ItemInput}

theorem row?_accepted {item : ItemInput} (h : item.Accepted) (hline : item.line.natAbs < 10 ^ 18) :
    ∃ row, item.row? tenant bill = some row := by
  have hunit : Numeric.ofMoney? item.unitAmount.hundredths = some ⟨_, h.unitAmount⟩ := dif_pos _
  have htotal : Numeric.ofMoney? item.lineTotal.hundredths = some ⟨item.line, hline⟩ := by
    rw [h.lineTotal]
    exact dif_pos _
  rw [ItemInput.row?, if_pos ⟨h.description, h.quantity⟩, hunit, htotal]
  exact ⟨_, rfl⟩

/-- The rows are stored where the lines fit. -/
theorem mapM_row?_ok (tenant bill : ℕ) (h : ∀ item ∈ items, item.Accepted)
    (hfits : ∀ line ∈ items.map ItemInput.line, line.natAbs < 10 ^ 18) :
    ∃ rows, items.mapM (·.row? tenant bill) = some rows := by
  induction items with
  | nil => exact ⟨[], rfl⟩
  | cons item items ih =>
      obtain ⟨rows, hrows⟩ := ih (fun i hi => h i (List.mem_cons_of_mem _ hi))
        fun line hline => hfits line (List.mem_cons_of_mem _ hline)
      obtain ⟨row, hrow⟩ : ∃ row, item.row? tenant bill = some row :=
        row?_accepted (h item List.mem_cons_self) (hfits item.line List.mem_cons_self)
      refine ⟨row :: rows, ?_⟩
      rw [List.mapM_cons, hrow, hrows]
      rfl

/-- Every stored row has the line of its item. -/
theorem mapM_row?_lines {rows : List BillItem} (haccepted : ∀ item ∈ items, item.Accepted)
    (h : items.mapM (·.row? tenant bill) = some rows) :
    rows.map (·.lineTotal.cents) = items.map ItemInput.line := by
  induction items generalizing rows with
  | nil =>
      obtain rfl : [] = rows := by simpa using h
      rfl
  | cons item items ih =>
      simp only [List.mapM_cons, Option.bind_eq_bind, Option.bind_eq_some_iff, Option.pure_def,
        Option.some.injEq] at h
      obtain ⟨row, hrow, rest, hrest, rfl⟩ := h
      obtain ⟨hitem, hitems⟩ := List.forall_mem_cons.mp haccepted
      rw [List.map_cons, List.map_cons, ih hitems hrest,
        (ItemInput.row?_some hitem.places hrow).2.1]

theorem mapM_row?_none (haccepted : ∀ item ∈ items, item.Accepted)
    (h : ¬∀ line ∈ items.map ItemInput.line, line.natAbs < 10 ^ 18) :
    items.mapM (·.row? tenant bill) = none := by
  cases hrows : items.mapM (·.row? tenant bill) with
  | none => rfl
  | some rows =>
      refine absurd (fun line hline => ?_) h
      rw [← mapM_row?_lines haccepted hrows] at hline
      obtain ⟨row, -, rfl⟩ := List.mem_map.mp hline
      exact row.lineTotal.fits

end Rows

/-! ## The service -/

/-- The bill of the `k`-th attempt. -/
def BillInput.attempt (input : BillInput) (env : Env) (k : ℕ) : Bill :=
  input.newBill (env.gen.billId k) (env.gen.billNumber k)

/-- The first attempt from the `k`-th on whose keys are free. -/
def BillInput.freeAttempt (input : BillInput) (env : Env) (s : DB) (k left : ℕ) : Option ℕ :=
  (List.range' k left).find? fun j => !s.toBooks.billClash (input.attempt env j)

/-- What `_dispatch_bill_event` and `_notify_bill_created` look up and send for the bill. -/
def BillInput.announced (input : BillInput) (env : Env) (s : DB) (k : ℕ) :
    Except Error (List Notification) :=
  match s.accounts.find? (·.id = input.customerAccount) with
  | none => .error .doesNotExist
  | some account =>
      match s.customers.find? (·.id = account.customer),
          s.tenants.find? (·.id = input.tenant) with
      | some customer, some tenant =>
          notices env s input.tenant .billCreated
            [("institution_name", tenant.name), ("customer_name", customer.fullName),
             ("bill_number", env.gen.billNumber k)]
            customer.email customer.phoneNumber
      | _, _ => .error .doesNotExist

section Service

variable {env : Env} {input : BillInput} {s : DB} {k : ℕ}

theorem exec_recalculateTotal (bill : Bill) (s : DB) :
    (bill.recalculateTotal).exec s =
      match Numeric.ofMoney?
          ((s.billItems.filter (·.bill = bill.id)).map (·.lineTotal.cents)).sum with
      | none => .error .dataError
      | some total => .ok ({ bill with totalAmount := total },
          inBooks (·.updateBill bill.id fun row => { row with totalAmount := total }) s) := by
  unfold Bill.recalculateTotal storeNumeric
  simp only [Txn.exec_bind, Txn.exec_fetch]
  cases Numeric.ofMoney?
      ((s.billItems.filter (·.bill = bill.id)).map (·.lineTotal.cents)).sum with
  | none => rfl
  | some total => rfl

theorem announced_congr {t : DB} (h : t.toDirectory = s.toDirectory) :
    input.announced env t k = input.announced env s k := by
  unfold BillInput.announced
  rw [h]
  simp only [notices_congr h]

/-- What an attempt does once its rows are stored. -/
def announceBill (env : Env) (bill : Bill) : Tx Bill := do
  recordAuditEvent env "bill.created" (some bill.tenant) (some (.bill bill.id))
    [("total_amount", bill.recalculatedText), ("status", bill.status.value)]
  dispatchBillEvent env bill bill.recalculatedText "bill.created"
  notifyBillCreated env bill
  pure bill

theorem exec_announceBill_unaudited (bill : Bill) (s : DB) (h : ¬env.Auditable) :
    (announceBill env bill).exec s = .error env.auditError := by
  refine Txn.exec_bind_error _ ?_
  rw [exec_recordAuditEvent, if_neg h]

/-- `_dispatch_bill_event` and `_notify_bill_created`. -/
theorem exec_announceBill (hauditable : env.Auditable) {bill : Bill}
    (haccount : bill.customerAccount = input.customerAccount)
    (htenant : bill.tenant = input.tenant) (hnumber : bill.billNumber = env.gen.billNumber k)
    (s : DB) :
    match input.announced env s k with
    | .error e => (announceBill env bill).exec s = .error e
    | .ok _ => ∃ t, (announceBill env bill).exec s = .ok (bill, t) := by
  obtain ⟨s₁, haudit, hdirectory, -⟩ := exec_recordAuditEvent_auditable (s := s) hauditable
    "bill.created" (some bill.tenant) (some (.bill bill.id))
    [("total_amount", bill.recalculatedText), ("status", bill.status.value)] []
  rw [← announced_congr hdirectory, announceBill, Txn.exec_bind, haudit]
  generalize s₁ = s
  unfold BillInput.announced dispatchBillEvent notifyBillCreated customerOf getAccount getCustomer
    getTenant
  simp only [Txn.exec_bind, exec_getRow, haccount, htenant, hnumber]
  cases hfound : s.accounts.find? (·.id = input.customerAccount) with
  | none => rfl
  | some account =>
      simp only [exec_dispatchEvent _ _ _ hauditable.1, inTrail, hfound]
      cases hcustomer : s.customers.find? (·.id = account.customer) with
      | none => rfl
      | some customer =>
          cases hinstitution : s.tenants.find? (·.id = input.tenant) with
          | none => simp only [hinstitution]
          | some tenant =>
              have htrail : ∀ trail context email phone,
                  notices env { s with toTrail := trail } input.tenant .billCreated context email
                    phone = notices env s input.tenant .billCreated context email phone :=
                fun _ _ _ _ => notices_congr rfl _ _ _ _ _ _
              simp only [hinstitution, exec_sendNotification, htrail]
              cases notices env s input.tenant .billCreated
                [("institution_name", tenant.name), ("customer_name", customer.fullName),
                 ("bill_number", env.gen.billNumber k)]
                customer.email customer.phoneNumber with
              | error e => rfl
              | ok rows => exact ⟨_, rfl⟩

/-- An attempt whose keys are taken. -/
theorem exec_createBill_clash (h : input.Accepted)
    (hclash : s.toBooks.billClash (input.attempt env k) = true) :
    (createBill env input k).exec s = .error .integrityError := by
  refine Txn.exec_bind_error _ ?_
  rw [exec_insertBill]
  exact (if_pos h.externalReference).trans (if_pos hclash)

/-- The insert and the items of an attempt whose keys are free. -/
theorem exec_createBill_free (h : input.Accepted)
    (hfree : ¬s.toBooks.billClash (input.attempt env k) = true) :
    (insertBill (input.attempt env k)).exec s =
      .ok ((), inBooks (·.addBill (input.attempt env k)) s) := by
  rw [exec_insertBill]
  exact (if_pos h.externalReference).trans (if_neg hfree)

/-- The rows of a new bill are all there is of its lines. -/
theorem newLines (hs : s.toBooks.BillTables) (haccepted : input.Accepted)
    (hfree : ¬s.toBooks.billClash (input.attempt env k) = true) {rows : List BillItem}
    (hrows : input.items.mapM (·.row? input.tenant (env.gen.billId k)) = some rows) :
    (((s.billItems ++ rows).filter (·.bill = env.gen.billId k)).map (·.lineTotal.cents)).sum =
      input.lines.sum := by
  have hid : ¬BillKeyTaken (.bill (env.gen.billId k)) s := fun htaken =>
    hfree (billClash_iff.mpr ⟨_, List.mem_cons_self, htaken⟩)
  have hall : rows.filter (·.bill = env.gen.billId k) = rows := by
    rw [List.filter_eq_self]
    exact fun row hrow => decide_eq_true (items_bill hrows row hrow)
  rw [List.filter_append, hs.no_items hid, hall, List.nil_append,
    mapM_row?_lines haccepted.items hrows]
  rfl

/-- An attempt whose keys are free, from its items on. -/
theorem exec_createBill (h : input.Accepted)
    (hfree : ¬s.toBooks.billClash (input.attempt env k) = true) :
    (createBill env input k).exec s =
      (do
        createItems input.tenant (env.gen.billId k) input.items
        let bill ← (input.attempt env k).recalculateTotal
        announceBill env bill : Tx Bill).exec
          (inBooks (·.addBill (input.attempt env k)) s) := by
  have hinsert : (insertBill (input.newBill (env.gen.billId k) (env.gen.billNumber k))).exec s =
      .ok ((), inBooks (·.addBill (input.attempt env k)) s) := exec_createBill_free h hfree
  unfold createBill
  dsimp only
  rw [Txn.exec_bind, hinsert]
  rfl

/-- An attempt that gets as far as its items is refused by a column where they do not fit. -/
theorem exec_createBill_dataError (hs : s.toBooks.BillTables) (h : input.Accepted)
    (hfree : ¬s.toBooks.billClash (input.attempt env k) = true) (hfits : ¬input.Fits) :
    (createBill env input k).exec s = .error .dataError := by
  rw [exec_createBill h hfree]
  by_cases hlines : ∀ line ∈ input.lines, line.natAbs < 10 ^ 18
  · obtain ⟨rows, hrows⟩ := mapM_row?_ok input.tenant (env.gen.billId k) h.items hlines
    have htotal : Numeric.ofMoney? (((s.billItems ++ rows).filter
        (·.bill = env.gen.billId k)).map (·.lineTotal.cents)).sum = none := by
      rw [newLines hs h hfree hrows]
      exact dif_neg fun htotal => hfits ⟨hlines, htotal⟩
    rw [createItems, hrows, Txn.exec_bind, exec_onBooks]
    refine Txn.exec_bind_error _ ?_
    rw [exec_recalculateTotal]
    change (match Numeric.ofMoney? (((s.billItems ++ rows).filter
      (·.bill = env.gen.billId k)).map (·.lineTotal.cents)).sum with | none => _ | some _ => _) = _
    rw [htotal]
  · refine Txn.exec_bind_error _ ?_
    rw [createItems, mapM_row?_none h.items hlines]
    rfl

/-- Where they fit, the rows are stored, and the announcement is left. -/
theorem exec_createBill_stored (hs : s.toBooks.BillTables) (h : input.Accepted)
    (hfree : ¬s.toBooks.billClash (input.attempt env k) = true) (hfits : input.Fits) :
    ∃ (bill : Bill) (t : DB), bill.customerAccount = input.customerAccount ∧
      bill.tenant = input.tenant ∧ bill.billNumber = env.gen.billNumber k ∧
      t.toDirectory = s.toDirectory ∧
      (createBill env input k).exec s = (announceBill env bill).exec t := by
  obtain ⟨rows, hrows⟩ := mapM_row?_ok input.tenant (env.gen.billId k) h.items hfits.lines
  have htotal : Numeric.ofMoney? (((s.billItems ++ rows).filter
      (·.bill = env.gen.billId k)).map (·.lineTotal.cents)).sum =
      some ⟨input.lines.sum, hfits.total⟩ := by
    rw [newLines hs h hfree hrows]
    exact dif_pos hfits.total
  have hlines : Numeric.ofMoney? (((inBooks (·.addItems rows)
      (inBooks (·.addBill (input.attempt env k)) s)).billItems.filter
        (·.bill = (input.attempt env k).id)).map (·.lineTotal.cents)).sum =
      some ⟨input.lines.sum, hfits.total⟩ := htotal
  obtain ⟨bill, t, hrecalculate, haccount, htenant, hnumber, hdirectory⟩ : ∃ (bill : Bill) (t : DB),
      ((input.attempt env k).recalculateTotal).exec (inBooks (·.addItems rows)
        (inBooks (·.addBill (input.attempt env k)) s)) = .ok (bill, t) ∧
      bill.customerAccount = input.customerAccount ∧ bill.tenant = input.tenant ∧
      bill.billNumber = env.gen.billNumber k ∧ t.toDirectory = s.toDirectory := by
    rw [exec_recalculateTotal, hlines]
    exact ⟨_, _, rfl, rfl, rfl, rfl, rfl⟩
  refine ⟨bill, t, haccount, htenant, hnumber, hdirectory, ?_⟩
  rw [exec_createBill h hfree, createItems, hrows, Txn.exec_bind, exec_onBooks]
  dsimp only
  rw [Txn.exec_bind, hrecalculate]

/-- Then it depends on the announcement. -/
theorem exec_createBill_fits (hs : s.toBooks.BillTables) (h : input.Accepted)
    (hfree : ¬s.toBooks.billClash (input.attempt env k) = true) (hfits : input.Fits)
    (hauditable : env.Auditable) :
    match input.announced env s k with
    | .error e => (createBill env input k).exec s = .error e
    | .ok _ => ∃ bill t, (createBill env input k).exec s = .ok (bill, t) := by
  obtain ⟨bill, t, haccount, htenant, hnumber, hdirectory, hexec⟩ :=
    exec_createBill_stored hs h hfree hfits
  have hannounce := exec_announceBill hauditable haccount htenant hnumber t
  rw [announced_congr hdirectory] at hannounce
  rw [hexec]
  split at hannounce
  · exact hannounce
  · obtain ⟨u, hu⟩ := hannounce
    exact ⟨bill, u, hu⟩

theorem exec_createBill_unaudited (hs : s.toBooks.BillTables) (h : input.Accepted)
    (hfree : ¬s.toBooks.billClash (input.attempt env k) = true) (hfits : input.Fits)
    (hauditable : ¬env.Auditable) : (createBill env input k).exec s = .error env.auditError := by
  obtain ⟨bill, t, -, -, -, -, hexec⟩ := exec_createBill_stored hs h hfree hfits
  rw [hexec, exec_announceBill_unaudited bill t hauditable]

theorem announced_error {e : Error} (h : input.announced env s k = .error e) :
    e.isIntegrityError = false := by
  unfold BillInput.announced at h
  split at h
  · rw [← Except.error.inj h]
    rfl
  · split at h
    · unfold notices at h
      split at h
      · cases h
      · next e' hsms =>
          rw [← Except.error.inj h]
          exact noticeOn_error hsms
      · next e' hemail =>
          rw [← Except.error.inj h]
          exact noticeOn_error hemail
    · rw [← Except.error.inj h]
      rfl

/-- Only taken keys raise `IntegrityError`. -/
theorem createBill_free_error (hs : s.toBooks.BillTables) (h : input.Accepted)
    (hfree : ¬s.toBooks.billClash (input.attempt env k) = true) {e : Error}
    (he : (createBill env input k).exec s = .error e) : e.isIntegrityError = false := by
  by_cases hfits : input.Fits
  · by_cases hauditable : env.Auditable
    · have hannounced := exec_createBill_fits hs h hfree hfits hauditable
      split at hannounced
      · next e' hraised =>
          obtain rfl := Except.error.inj (hannounced.symm.trans he)
          exact announced_error hraised
      · obtain ⟨bill, t, hok⟩ := hannounced
        rw [hok] at he
        cases he
    · rw [exec_createBill_unaudited hs h hfree hfits hauditable] at he
      rw [← Except.error.inj he]
      exact auditError_isIntegrityError env
  · rw [exec_createBill_dataError hs h hfree hfits] at he
    rw [← Except.error.inj he]
    rfl

/-- The attempts come to the first whose keys are free. -/
theorem exec_billAttempts (hs : s.toBooks.BillTables) (h : input.Accepted)
    (hnone : input.existing s = none) (k left : ℕ) :
    (billAttempts env input k left).exec s =
      match input.freeAttempt env s k left with
      | none => .error .integrityError
      | some j => ((createBill env input j).exec s).map fun r => ((r.1, true), r.2) := by
  induction left generalizing k with
  | zero => rfl
  | succ left ih =>
      unfold billAttempts
      rw [BillInput.freeAttempt, List.range'_succ, Txn.exec_bind, Txn.exec_tryAtomic]
      by_cases hclash : s.toBooks.billClash (input.attempt env k) = true
      · rw [List.find?_cons_of_neg (by simp [hclash]), exec_createBill_clash h hclash]
        simp only [Error.isIntegrityError, if_true, Txn.exec_bind, exec_billByReference, hnone]
        exact ih (k + 1)
      · rw [List.find?_cons_of_pos (by simp [hclash])]
        cases hexec : (createBill env input k).exec s with
        | ok r =>
            simp only [hexec]
            rfl
        | error e =>
            have hother := createBill_free_error hs h hclash hexec
            simp only [hexec, hother]
            rfl

end Service

/-! ## The request -/

/-- The exceptions of the database. -/
def Error.isDatabaseError : Error → Bool
  | integrityError | dataError | transactionAborted => true
  | _ => false

/-- The account is the tenant's, and no bill has the reference yet. -/
def BillInput.Creates (input : BillInput) (s : DB) : Prop :=
  (s.accounts.find? fun a => a.id = input.customerAccount && a.tenant = input.tenant).isSome ∧
    input.existing s = none

/-- `POST /bills` raises no exception of the database, and a bill that it creates has the lines of
its items and their sum, which is not negative.  That they fit is in the type of the columns. -/
structure StaysInRange (env : Env) (input : BillInput) (s : DB) : Prop where
  completes : ∀ e, (billListCreate env input).exec s = .error e → e.isDatabaseError = false
  totals : ∀ t bill, (billListCreate env input).exec s = .ok ((), t) → bill ∈ t.bills →
    bill.id ∉ s.bills.map (·.id) →
    (t.billItems.filter (·.bill = bill.id)).map (·.lineTotal.cents) = input.lines ∧
      bill.totalAmount.cents = input.lines.sum ∧ 0 ≤ bill.totalAmount.cents

section Request

variable {env : Env} {input : BillInput} {s t : DB} {k : ℕ}

/-- What a request that creates a bill comes to. -/
theorem exec_billListCreate (env : Env) (hs : s.toBooks.BillTables) (h : input.Accepted)
    (hcreates : input.Creates s) :
    (billListCreate env input).exec s =
      match input.freeAttempt env s 0 3 with
      | none => .error .integrityError
      | some k =>
          match (createBill env input k).exec s with
          | .error e => .error e
          | .ok (bill, t) => (do
              let _ ← bill.transitionTo env .active
              pure () : Tx Unit).exec t := by
  obtain ⟨haccount, hnone⟩ := hcreates
  obtain ⟨account, haccount⟩ := Option.isSome_iff_exists.mp haccount
  unfold billListCreate accountOr404 getOrCreateBill
  simp only [Txn.exec_bind, exec_getOr404, haccount, exec_billByReference, hnone,
    exec_billAttempts hs h hnone]
  cases input.freeAttempt env s 0 3 with
  | none => rfl
  | some k =>
      cases hexec : (createBill env input k).exec s with
      | error e => simp only [hexec, Except.map]
      | ok r =>
          simp only [hexec, Except.map, if_true, Txn.exec_bind]

/-- A new bill is issued, and is the only row of the table that was not there. -/
theorem exec_issue {bill : Bill} (hs : s.toBooks.BillTables) (h : input.Accepted)
    (hexec : (createBill env input k).exec s = .ok (bill, t)) :
    ∃ u, (do
        let _ ← bill.transitionTo env .active
        pure () : Tx Unit).exec t = .ok ((), u) ∧
      bill.totalAmount.cents = input.lines.sum ∧ bill.id ∉ s.bills.map (·.id) ∧
      (u.billItems.filter (·.bill = bill.id)).map (·.lineTotal.cents) = input.lines ∧
      (∃ issued ∈ u.bills, issued.id = bill.id) ∧
      ∀ row ∈ u.bills, row.id ∉ s.bills.map (·.id) →
        row.id = bill.id ∧ row.totalAmount = bill.totalAmount := by
  obtain ⟨rows, hrows, rfl, rfl, hfree⟩ := createBill_exec hs hexec
  have hdraft : rows.bill.status = .draft := by
    obtain ⟨j, total, hbill⟩ := hrows.bill
    rw [hbill]
    rfl
  have hid : ¬BillKeyTaken (.bill rows.bill.id) s := hfree _ List.mem_cons_self
  have hlines := mapM_row?_lines h.items hrows.items
  let moved := rows.bill.moveTo env.now .active
  refine ⟨inBooks (·.updateBill rows.bill.id moved.saveStatus) (rows.addTo s), ?_, ?_, ?_, ?_, ?_,
    ?_⟩
  · unfold Bill.transitionTo
    rw [hdraft]
    rfl
  · rw [hrows.total, hlines]
    rfl
  · intro hmem
    obtain ⟨row, hrow, hsame⟩ := List.mem_map.mp hmem
    exact hid (billKeyTaken_id hrow hsame)
  · change ((s.billItems ++ rows.items).filter _).map _ = _
    have hall : rows.items.filter (·.bill = rows.bill.id) = rows.items := by
      rw [List.filter_eq_self]
      exact fun row hrow => decide_eq_true (items_bill hrows.items row hrow)
    rw [List.filter_append, hs.no_items hid, hall, List.nil_append, hlines]
    rfl
  · refine ⟨moved.saveStatus rows.bill, List.mem_map.mpr ⟨rows.bill, ?_, if_pos rfl⟩, rfl⟩
    exact List.mem_append_right _ (List.mem_singleton.mpr rfl)
  · intro row hrow hnew
    obtain ⟨old, hold, rfl⟩ := List.mem_map.mp hrow
    rcases List.mem_append.mp hold with hold | hold
    · refine absurd (List.mem_map.mpr ⟨old, hold, ?_⟩) hnew
      split
      · rfl
      · rfl
    · obtain rfl := List.mem_singleton.mp hold
      rw [if_pos rfl]
      exact ⟨rfl, rfl⟩

/-- A request that creates no bill finds no account, or leaves the tables. -/
theorem staysInRange_of_not_creates (h : ¬input.Creates s) : StaysInRange env input s := by
  have hexec : (billListCreate env input).exec s = .error .http404 ∨
      (billListCreate env input).exec s = .ok ((), s) := by
    unfold billListCreate accountOr404 getOrCreateBill
    simp only [Txn.exec_bind, exec_getOr404]
    cases haccount : s.accounts.find? fun a =>
        a.id = input.customerAccount && a.tenant = input.tenant with
    | none => exact Or.inl rfl
    | some account =>
        simp only [exec_billByReference]
        cases hexisting : input.existing s with
        | none => exact absurd ⟨Option.isSome_of_eq_some haccount, hexisting⟩ h
        | some bill => exact Or.inr rfl
  constructor
  · intro e he
    rcases hexec with hexec | hexec
    · rw [hexec] at he
      rw [← Except.error.inj he]
      rfl
    · rw [hexec] at he
      cases he
  · intro t bill hok hbill hnew
    rcases hexec with hexec | hexec
    · rw [hexec] at hok
      cases hok
    · rw [hexec] at hok
      obtain ⟨-, rfl⟩ := Prod.mk.inj (Except.ok.inj hok)
      exact absurd (List.mem_map.mpr ⟨bill, hbill, rfl⟩) hnew

/-- What an audit row raises is an error of the database unless its address cannot be read. -/
theorem auditError_isDatabaseError :
    env.auditError.isDatabaseError = false ↔ ¬env.HasAddress := by
  rw [Env.auditError, RequestContext.refusal]
  by_cases haddress : env.HasAddress
  · rw [if_pos haddress]
    exact iff_of_false (by decide) (not_not.mpr haddress)
  · rw [if_neg haddress]
    exact iff_of_true rfl haddress

/-- A request that raises stays in range where the exception is not of the database. -/
theorem staysInRange_of_error {e : Error} (he : (billListCreate env input).exec s = .error e) :
    StaysInRange env input s ↔ e.isDatabaseError = false := by
  constructor
  · intro hrange
    exact hrange.completes e he
  · intro hother
    constructor
    · intro e' he'
      rw [he] at he'
      rw [← Except.error.inj he']
      exact hother
    · intro t bill hok
      rw [he] at hok
      cases hok

/-- A request that has a free number to give. -/
theorem staysInRange_free (hs : s.toBooks.BillTables) (h : input.Accepted)
    (hcreates : input.Creates s) (hk : input.freeAttempt env s 0 3 = some k) :
    StaysInRange env input s ↔ input.Fits ∧ (¬env.HasAddress ∨ env.Auditable ∧
      match input.announced env s k with
      | .ok _ => 0 ≤ input.lines.sum
      | .error e => e.isDatabaseError = false) := by
  have hfree : ¬s.toBooks.billClash (input.attempt env k) = true := by
    simpa using List.find?_some hk
  have hrequest := exec_billListCreate env hs h hcreates
  simp only [hk] at hrequest
  by_cases hfits : input.Fits
  swap
  · rw [exec_createBill_dataError hs h hfree hfits] at hrequest
    refine iff_of_false (fun hrange => ?_) fun hthere => hfits hthere.1
    exact absurd (hrange.completes _ hrequest) (by decide)
  rw [and_iff_right hfits]
  by_cases hauditable : env.Auditable
  swap
  · rw [exec_createBill_unaudited hs h hfree hfits hauditable] at hrequest
    rw [staysInRange_of_error hrequest, auditError_isDatabaseError]
    exact (or_iff_left fun hthere => hauditable hthere.1).symm
  · rw [or_iff_right fun hnone => hnone hauditable.2.1, and_iff_right hauditable]
    have hattempt := exec_createBill_fits hs h hfree hfits hauditable
    cases hannounced : input.announced env s k with
    | error e =>
        rw [hannounced] at hattempt
        rw [hattempt] at hrequest
        exact staysInRange_of_error hrequest
    | ok notifications =>
        rw [hannounced] at hattempt
        obtain ⟨bill, t, hexec⟩ := hattempt
        obtain ⟨u, hissue, htotal, hnew, hlines, hissued, honly⟩ := exec_issue hs h hexec
        rw [hexec] at hrequest
        have hdone : (billListCreate env input).exec s = .ok ((), u) := hrequest.trans hissue
        constructor
        · intro hrange
          obtain ⟨issued, hmem, hid⟩ := hissued
          rw [← hid] at hnew
          obtain ⟨-, hsum, hnonneg⟩ := hrange.totals u issued hdone hmem hnew
          rw [hsum] at hnonneg
          exact hnonneg
        · intro hnonneg
          constructor
          · intro e he
            rw [hdone] at he
            cases he
          · intro u' row hok hrow hrowNew
            rw [hdone] at hok
            obtain ⟨-, rfl⟩ := Prod.mk.inj (Except.ok.inj hok)
            obtain ⟨hid, hsame⟩ := honly row hrow hrowNew
            rw [hid, hsame, htotal]
            exact ⟨hlines, rfl, hnonneg⟩

end Request

/-- For every accepted body and every state of the tables: `POST /bills` stays in range exactly
where it creates no bill, or one of its three bill numbers is free, its lines and their sum fit the
money columns, and what follows raises nothing, and then the sum is not negative, or an exception
that is not of the database: the audit row one for its address, the announcement one of its own. -/
theorem bill_arithmetic (env : Env) (tenant : ℕ) (body : BillBody) (input : BillInput) (s : DB)
    (haccepted : body.clean tenant = some input) (hs : s.toBooks.BillTables) :
    StaysInRange env input s ↔ (input.Creates s → ∃ k, input.freeAttempt env s 0 3 = some k ∧
      input.Fits ∧ (¬env.HasAddress ∨ env.Auditable ∧ match input.announced env s k with
        | .ok _ => 0 ≤ input.lines.sum
        | .error e => e.isDatabaseError = false)) := by
  have h := BillBody.clean_accepted haccepted
  by_cases hcreates : input.Creates s
  · cases hk : input.freeAttempt env s 0 3 with
    | none =>
        have hrequest := exec_billListCreate env hs h hcreates
        rw [hk] at hrequest
        refine iff_of_false (fun hrange => ?_) fun hthere => ?_
        · exact absurd (hrange.completes _ hrequest) (by decide)
        · obtain ⟨k, hnone, -⟩ := hthere hcreates
          cases hnone
    | some k =>
        rw [staysInRange_free hs h hcreates hk]
        constructor
        · intro hrange _
          exact ⟨k, rfl, hrange⟩
        · intro hthere
          obtain ⟨k', hsame, hrange⟩ := hthere hcreates
          obtain rfl := Option.some.inj hsame
          exact hrange
  · exact iff_of_true (staysInRange_of_not_creates hcreates) fun hthere => absurd hthere hcreates

/-! ## Two bodies -/

/-- Tuition for 100.00, once. -/
def tuitionBody : BillBody :=
  { customerAccountId := 1
    items := [⟨"Tuition".toList, none, ⟨10000, -2⟩⟩]
    externalReference := [] }

def tuitionInput : BillInput :=
  { tenant := 1, customerAccount := 1, externalReference := ""
    items := [⟨"Tuition", ⟨1, 0⟩, ⟨10000, -2⟩⟩] }

theorem bill_arithmetic_tuition :
    StaysInRange (envAt 1 (answering .pending "" "")) tuitionInput smallInstallation := by
  refine (bill_arithmetic _ 1 tuitionBody tuitionInput smallInstallation (by decide)
    smallInstallation_billTables).mpr fun _ =>
      ⟨0, by decide, ⟨by decide, by decide⟩, Or.inr ⟨by decide, ?_⟩⟩
  have hnonneg : 0 ≤ tuitionInput.lines.sum := by decide
  exact hnonneg

/-- The largest quantity at the largest price. -/
def hugeBody : BillBody :=
  { customerAccountId := 1
    items := [⟨"Tuition".toList, some ⟨9999999999, -2⟩, ⟨999999999999999999, -2⟩⟩]
    externalReference := [] }

def hugeInput : BillInput :=
  { tenant := 1, customerAccount := 1, externalReference := ""
    items := [⟨"Tuition", ⟨9999999999, -2⟩, ⟨999999999999999999, -2⟩⟩] }

/-- The serializer accepts the body, and the column of its line does not. -/
theorem bill_arithmetic_overflows :
    ¬∀ (env : Env) (tenant : ℕ) (body : BillBody) (input : BillInput) (s : DB),
      body.clean tenant = some input → s.toBooks.BillTables → StaysInRange env input s := by
  intro hall
  have hclean : hugeBody.clean 1 = some hugeInput := by decide
  have hrange := hall (envAt 1 (answering .pending "" "")) 1 hugeBody hugeInput smallInstallation
    hclean smallInstallation_billTables
  exact absurd (hrange.completes .dataError rfl) (by decide)

end Kusanya
