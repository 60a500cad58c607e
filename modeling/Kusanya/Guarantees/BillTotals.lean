import Kusanya.Model.BillItems
import Kusanya.Guarantees.BillCreation
import Kusanya.Invariants.Runs
import Kusanya.Support.Keyed
import Mathlib.Tactic.Linarith

/-!
# The total of a bill and its items

`recalculate_total` runs in `get_or_create_bill` only.  Saving or deleting an item moves the
sum of the lines of its bill by what the item counted before and counts now, and the stored
total stays: so the total is right exactly as long as these agree.
-/

namespace Kusanya

open ReadCommitted Support

/-! ## What an item counts for a bill -/

/-- What a row adds to the total of a bill. -/
def ItemRow.counts (row : ItemRow) (bill : ℕ) : Money :=
  if row.bill = bill then row.lineTotal.cents else 0

/-- The sum of the lines of a bill. -/
def lineTotals (items : List ItemRow) (bill : ℕ) : Money :=
  (items.map (·.counts bill)).sum

/-- What the row with the key adds to the total of a bill. -/
def counted (items : List ItemRow) (pk bill : ℕ) : Money :=
  lineTotals (items.filter (·.id = pk)) bill

/-- The line of an item that its columns hold: quantity times unit amount, in hundredths. -/
def ItemInput.line (item : ItemInput) : Money :=
  roundHalfAway (item.quantity.hundredths * item.unitAmount.hundredths) 2

/-- What an item is to add to the total of a bill. -/
def ItemForm.counts (form : ItemForm) (bill : ℕ) : Money :=
  if form.bill = bill then form.line else 0

theorem lineTotals_append (items rows : List ItemRow) (bill : ℕ) :
    lineTotals (items ++ rows) bill = lineTotals items bill + lineTotals rows bill := by
  rw [lineTotals, List.map_append, List.sum_append]
  rfl

theorem lineTotals_cons (row : ItemRow) (items : List ItemRow) (bill : ℕ) :
    lineTotals (row :: items) bill = row.counts bill + lineTotals items bill := by
  rw [lineTotals, List.map_cons, List.sum_cons]
  rfl

theorem counted_cons_self {row : ItemRow} {pk : ℕ} (h : row.id = pk) (items : List ItemRow)
    (bill : ℕ) : counted (row :: items) pk bill = row.counts bill + counted items pk bill := by
  rw [counted, List.filter_cons_of_pos (by simpa using h), lineTotals_cons]
  rfl

theorem counted_cons_other {row : ItemRow} {pk : ℕ} (h : row.id ≠ pk) (items : List ItemRow)
    (bill : ℕ) : counted (row :: items) pk bill = counted items pk bill := by
  rw [counted, List.filter_cons_of_neg (by simpa using h)]
  rfl

theorem counted_of_absent {items : List ItemRow} {pk : ℕ} (h : pk ∉ items.map (·.id)) (bill : ℕ) :
    counted items pk bill = 0 := by
  have hnone : items.filter (fun row => decide (row.id = pk)) = [] := by
    rw [List.filter_eq_nil_iff]
    intro row hrow hid
    exact h (List.mem_map.mpr ⟨row, hrow, of_decide_eq_true hid⟩)
  rw [counted, hnone]
  rfl

/-- Deleting a row takes away what it counted. -/
theorem lineTotals_delete (items : List ItemRow) (pk bill : ℕ) :
    lineTotals (items.filter (·.id ≠ pk)) bill = lineTotals items bill - counted items pk bill := by
  induction items with
  | nil => rfl
  | cons row items ih =>
      by_cases hid : row.id = pk
      · rw [List.filter_cons_of_neg (by simpa using hid), lineTotals_cons, counted_cons_self hid,
          ih]
        exact (add_sub_add_left_eq_sub _ _ _).symm
      · rw [List.filter_cons_of_pos (by simpa using hid), lineTotals_cons, lineTotals_cons,
          counted_cons_other hid, ih]
        exact (add_sub_assoc _ _ _).symm

/-- An update leaves the rows with other keys alone. -/
theorem map_update_of_absent {items : List ItemRow} {row : ItemRow}
    (h : row.id ∉ items.map (·.id)) :
    (items.map fun r => if r.id = row.id then row else r) = items := by
  conv_rhs => rw [← List.map_id items]
  refine List.map_congr_left fun r hr => if_neg fun hid => ?_
  exact h (List.mem_map.mpr ⟨r, hr, hid⟩)

/-- Updating a row puts what it counts now for what it counted. -/
theorem lineTotals_update {items : List ItemRow} (hnodup : (items.map (·.id)).Nodup)
    {row : ItemRow} (hmem : row.id ∈ items.map (·.id)) (bill : ℕ) :
    lineTotals (items.map fun r => if r.id = row.id then row else r) bill =
      lineTotals items bill - counted items row.id bill + row.counts bill := by
  induction items with
  | nil => cases hmem
  | cons r items ih =>
      obtain ⟨hnew, hrest⟩ := List.nodup_cons.mp hnodup
      by_cases hid : r.id = row.id
      · have habsent : row.id ∉ items.map (·.id) := hid ▸ hnew
        rw [List.map_cons, if_pos hid, map_update_of_absent habsent, lineTotals_cons,
          lineTotals_cons, counted_cons_self hid, counted_of_absent habsent]
        linarith
      · have hmem' : row.id ∈ items.map (·.id) := by
          rcases List.mem_cons.mp hmem with hself | hmem'
          · exact absurd hself.symm hid
          · exact hmem'
        rw [List.map_cons, if_neg hid, lineTotals_cons, lineTotals_cons,
          counted_cons_other hid, ih hrest hmem']
        linarith

theorem lineTotals_putItem {items : List ItemRow} (hnodup : (items.map (·.id)).Nodup)
    (row : ItemRow) (bill : ℕ) :
    lineTotals (putItem items row) bill =
      lineTotals items bill - counted items row.id bill + row.counts bill := by
  by_cases hthere : items.any (·.id = row.id) = true
  · have hmem : row.id ∈ items.map (·.id) := by
      obtain ⟨r, hr, hid⟩ := List.any_eq_true.mp hthere
      exact List.mem_map.mpr ⟨r, hr, of_decide_eq_true hid⟩
    rw [putItem, if_pos hthere, lineTotals_update hnodup hmem]
  · have habsent : row.id ∉ items.map (·.id) := by
      intro hmem
      obtain ⟨r, hr, hid⟩ := List.mem_map.mp hmem
      exact hthere (List.any_eq_true.mpr ⟨r, hr, decide_eq_true hid⟩)
    rw [putItem, if_neg hthere, lineTotals_append, counted_of_absent habsent, lineTotals_cons]
    simp [lineTotals]

/-! ## The keys -/

theorem mem_putItem {items : List ItemRow} {row r : ItemRow} (h : r ∈ putItem items row) :
    r = row ∨ r ∈ items := by
  unfold putItem at h
  split at h
  · obtain ⟨r', hr', hput⟩ := List.mem_map.mp h
    split at hput
    · exact Or.inl hput.symm
    · exact Or.inr (hput ▸ hr')
  · rcases List.mem_append.mp h with hold | hnew
    · exact Or.inr hold
    · exact Or.inl (List.mem_singleton.mp hnew)

theorem nodup_putItem {items : List ItemRow} (hnodup : (items.map (·.id)).Nodup) (row : ItemRow) :
    ((putItem items row).map (·.id)).Nodup := by
  unfold putItem
  split
  · rwa [map_key]
    intro r
    split
    · next hid => exact hid.symm
    · rfl
  · next hthere =>
      rw [List.map_append]
      refine List.Nodup.append hnodup (List.nodup_singleton _) ?_
      intro k hk hk'
      obtain ⟨r, hr, hid⟩ := List.mem_map.mp hk
      obtain rfl := List.mem_singleton.mp hk'
      exact hthere (List.any_eq_true.mpr ⟨r, hr, decide_eq_true hid⟩)

/-- Another row keeps what it counts. -/
theorem counted_putItem {items : List ItemRow} {row : ItemRow} {pk : ℕ} (h : row.id ≠ pk)
    (bill : ℕ) : counted (putItem items row) pk bill = counted items pk bill := by
  unfold putItem counted lineTotals
  split
  · have hkeep : ∀ r : ItemRow, (if r.id = row.id then row else r).id = pk ↔ r.id = pk := by
      intro r
      by_cases hid : r.id = row.id
      · rw [if_pos hid, hid]
      · rw [if_neg hid]
    refine congrArg List.sum (select_map_same ?_ ?_)
    · intro r _
      exact decide_eq_decide.mpr (hkeep r)
    · intro r _ hpk
      have hid : r.id ≠ row.id := fun hid => h (hid.symm.trans (of_decide_eq_true hpk))
      rw [if_neg hid]
  · rw [List.filter_append, List.filter_cons_of_neg (by simpa using h)]
    exact congrArg (fun rows => (rows.map fun r : ItemRow => r.counts bill).sum)
      (List.append_nil _)

theorem counted_delete {items : List ItemRow} {pk other : ℕ} (h : other ≠ pk) (bill : ℕ) :
    counted (items.filter (·.id ≠ pk)) other bill = counted items other bill := by
  unfold counted
  rw [List.filter_filter]
  refine congrArg (fun rows => lineTotals rows bill) (List.filter_congr fun r _ => ?_)
  by_cases hid : r.id = other
  · simp [hid, h]
  · simp [hid]

/-! ## Two decimals -/

/-- The line of a row is its quantity times its unit amount, rounded to two decimals. -/
def BillItem.Exact (row : BillItem) : Prop :=
  row.lineTotal.cents = roundHalfAway (row.quantity * row.unitAmount.cents) 2

/-- Neither the quantity nor the unit amount of an item has more than two decimals. -/
def ItemInput.TwoPlaces (item : ItemInput) : Prop :=
  item.quantity.TwoPlaces ∧ item.unitAmount.TwoPlaces

instance (item : ItemInput) : Decidable item.TwoPlaces := inferInstanceAs (Decidable (_ ∧ _))

theorem hundredths_of_cents (n : ℤ) : Decimal.hundredths ⟨n, -2⟩ = n := by
  have hplaces : (0 : ℤ) ≤ -2 + 2 := by decide
  exact (if_pos hplaces).trans (mul_one n)

/-- The inline form accepts two decimals only. -/
theorem InlineForm.twoPlaces (form : InlineForm) (bill : ℕ) :
    (form.item bill).toItemInput.TwoPlaces :=
  ⟨Or.inl (le_refl 0), Or.inl (le_refl 0)⟩

/-- The row of an item with two decimals has its line. -/
theorem ItemInput.row?_some {item : ItemInput} {tenant bill : ℕ} {row : BillItem}
    (hplaces : item.TwoPlaces) (h : item.row? tenant bill = some row) :
    row.bill = bill ∧ row.lineTotal.cents = item.line ∧ row.Exact := by
  unfold ItemInput.row? at h
  split at h
  · next hfits =>
      obtain ⟨unitAmount, hunit, hrow⟩ := Option.bind_eq_some_iff.mp h
      obtain ⟨lineTotal, hline, rfl⟩ := Option.map_eq_some_iff.mp hrow
      have hproduct : (item.quantity.hundredths * item.unitAmount.hundredths).natAbs < 10 ^ 28 := by
        rw [← Numeric.ofMoney?_cents hunit, Int.natAbs_mul]
        calc item.quantity.hundredths.natAbs * unitAmount.cents.natAbs
            < 10 ^ 10 * 10 ^ 18 := Nat.mul_lt_mul'' hfits.2 unitAmount.fits
          _ = 10 ^ 28 := by norm_num
      have hstored : lineTotal.cents = item.line :=
        (Numeric.ofMoney?_cents hline).trans
          (Decimal.hundredths_mul hplaces.1 hplaces.2 hproduct)
      refine ⟨rfl, hstored, ?_⟩
      rw [BillItem.Exact, hstored, ItemInput.line, Numeric.ofMoney?_cents hunit]
  · cases h

/-! ## One operation -/

/-- Every total is the sum of the lines, and every line is right. -/
structure BillStore.Totalled (s : BillStore) : Prop where
  totals : ∀ bill ∈ s.db.bills, bill.totalAmount.cents = lineTotals s.items bill.id
  lines : ∀ row ∈ s.items, row.toBillItem.Exact

/-- The constraints of the tables. -/
structure BillStore.Tables (s : BillStore) : Prop where
  bills : s.seen.toBooks.BillTables
  keys : (s.items.map (·.id)).Nodup

/-- What saving an item does. -/
theorem saveItem_ok {s t : BillStore} {pk : ℕ} {form : ItemForm}
    (h : s.saveItem pk form = .ok t) :
    ∃ row, form.row? = some row ∧ (∃ bill ∈ s.db.bills, bill.id = form.bill) ∧
      t = { s with items := putItem s.items { row with id := pk } } := by
  unfold BillStore.saveItem at h
  cases hrow : form.row? with
  | none =>
      rw [hrow] at h
      cases h
  | some row =>
      rw [hrow] at h
      dsimp only at h
      split at h
      · next hthere =>
          obtain ⟨bill, hbill, hid⟩ := List.any_eq_true.mp (Bool.and_eq_true _ _ ▸ hthere).1
          exact ⟨row, rfl, ⟨bill, hbill, of_decide_eq_true hid⟩, (Except.ok.inj h).symm⟩
      · cases h

/-- The row of a form under its key. -/
theorem ItemForm.counts_of_row {form : ItemForm} {row : BillItem}
    (hplaces : form.toItemInput.TwoPlaces) (h : form.row? = some row) (pk bill : ℕ) :
    ItemRow.counts { row with id := pk } bill = form.counts bill := by
  obtain ⟨hbill, hline, -⟩ := ItemInput.row?_some hplaces h
  rw [ItemRow.counts, ItemForm.counts, hbill, hline]

/-- What an operation on the items of the bills in `s` may have done. -/
structure Rewritten (s t : BillStore) : Prop where
  db : t.db = s.db
  keys : (t.items.map (·.id)).Nodup
  foreign : ∀ row ∈ t.items, row ∈ s.items ∨ ∃ bill ∈ s.db.bills, bill.id = row.bill

theorem saveItem_rewritten {s t : BillStore} {pk : ℕ} {form : ItemForm}
    (hkeys : (s.items.map (·.id)).Nodup) (h : s.saveItem pk form = .ok t) : Rewritten s t := by
  obtain ⟨row, hrow, ⟨bill, hbill, hid⟩, rfl⟩ := saveItem_ok h
  have hforeign := (row?_owned hrow).2
  constructor
  · rfl
  · exact nodup_putItem hkeys _
  · intro r hr
    rcases mem_putItem hr with rfl | hold
    · exact Or.inr ⟨bill, hbill, hid.trans hforeign.symm⟩
    · exact Or.inl hold

theorem saveItem_lineTotals {s t : BillStore} {pk : ℕ} {form : ItemForm}
    (hkeys : (s.items.map (·.id)).Nodup) (hplaces : form.toItemInput.TwoPlaces)
    (h : s.saveItem pk form = .ok t) (bill : ℕ) :
    lineTotals t.items bill =
      lineTotals s.items bill - counted s.items pk bill + form.counts bill := by
  obtain ⟨row, hrow, -, rfl⟩ := saveItem_ok h
  have hsum := lineTotals_putItem hkeys { row with id := pk } bill
  rw [form.counts_of_row hplaces hrow] at hsum
  exact hsum

/-- The inline forms, each under its own key. -/
theorem saveInlines_spec {s t : BillStore} {bill : ℕ} {forms : List (ℕ × InlineForm)}
    (hkeys : (s.items.map (·.id)).Nodup) (hforms : (forms.map (·.1)).Nodup)
    (h : s.saveInlines bill forms = .ok t) :
    Rewritten s t ∧
    (∀ row ∈ t.items, row ∈ s.items ∨ row.toBillItem.Exact) ∧
    (∀ pk ∉ forms.map (·.1), ∀ b, counted t.items pk b = counted s.items pk b) ∧
    ∀ b, lineTotals t.items b = lineTotals s.items b +
      (forms.map fun form => (form.2.item bill).counts b - counted s.items form.1 b).sum := by
  induction forms generalizing s with
  | nil =>
      obtain rfl := Except.ok.inj h
      refine ⟨⟨rfl, hkeys, fun row hrow => Or.inl hrow⟩, fun row hrow => Or.inl hrow,
        fun pk _ b => rfl, fun b => (add_zero _).symm⟩
  | cons form forms ih =>
      obtain ⟨pk, inline⟩ := form
      obtain ⟨hnew, hrest⟩ := List.nodup_cons.mp hforms
      cases hfirst : s.saveItem pk (inline.item bill) with
      | error e =>
          rw [BillStore.saveInlines, hfirst] at h
          cases h
      | ok u =>
          rw [BillStore.saveInlines, hfirst] at h
          have hwritten := saveItem_rewritten hkeys hfirst
          obtain ⟨hlater, hlines, hcounted, hsum⟩ := ih hwritten.keys hrest h
          obtain ⟨row, hrow, -, hu⟩ := saveItem_ok hfirst
          have hexact := (ItemInput.row?_some (inline.twoPlaces bill) hrow).2.2
          have hother : ∀ key ≠ pk, ∀ b, counted u.items key b = counted s.items key b := by
            intro key hkey b
            rw [hu]
            exact counted_putItem (Ne.symm hkey) b
          refine ⟨⟨hlater.db.trans hwritten.db, hlater.keys, ?_⟩, ?_, ?_, ?_⟩
          · intro r hr
            rcases hlater.foreign r hr with hold | hthere
            · exact hwritten.foreign r hold
            · rw [hwritten.db] at hthere
              exact Or.inr hthere
          · intro r hr
            rcases hlines r hr with hold | hright
            · rw [hu] at hold
              rcases mem_putItem hold with rfl | hold
              · exact Or.inr hexact
              · exact Or.inl hold
            · exact Or.inr hright
          · intro key hkey b
            obtain ⟨hne, hkey⟩ := List.ne_and_not_mem_of_not_mem_cons hkey
            exact (hcounted key hkey b).trans (hother key hne b)
          · intro b
            have hrests : (forms.map fun form =>
                (form.2.item bill).counts b - counted u.items form.1 b) =
                forms.map fun form =>
                  (form.2.item bill).counts b - counted s.items form.1 b := by
              refine List.map_congr_left fun form hform => ?_
              have hne : form.1 ≠ pk := by
                rintro rfl
                exact hnew (List.mem_map.mpr ⟨form, hform, rfl⟩)
              rw [hother form.1 hne b]
            rw [hsum b, hrests, saveItem_lineTotals hkeys (inline.twoPlaces bill) hfirst b,
              List.map_cons, List.sum_cons]
            linarith

/-- The removals. -/
theorem deleteItems_spec {removed : List ℕ} {s : BillStore} (hremoved : removed.Nodup) :
    (removed.foldl BillStore.deleteItem s).db = s.db ∧
    (removed.foldl BillStore.deleteItem s).items.Sublist s.items ∧
    ∀ b, lineTotals (removed.foldl BillStore.deleteItem s).items b =
      lineTotals s.items b - (removed.map fun pk => counted s.items pk b).sum := by
  induction removed generalizing s with
  | nil => exact ⟨rfl, List.Sublist.refl _, fun b => (sub_zero _).symm⟩
  | cons pk removed ih =>
      obtain ⟨hnew, hrest⟩ := List.nodup_cons.mp hremoved
      obtain ⟨hdb, hsublist, hsum⟩ := ih (s := s.deleteItem pk) hrest
      refine ⟨hdb, hsublist.trans List.filter_sublist, fun b => ?_⟩
      have hothers : (removed.map fun key => counted (s.deleteItem pk).items key b) =
          removed.map fun key => counted s.items key b := by
        refine List.map_congr_left fun key hkey => counted_delete ?_ b
        rintro rfl
        exact hnew hkey
      have hfirst : lineTotals (s.deleteItem pk).items b = _ := lineTotals_delete s.items pk b
      rw [List.foldl_cons, hsum b, hothers, hfirst, List.map_cons, List.sum_cons]
      linarith

/-! ## The tables -/

theorem Rewritten.tables {s t : BillStore} (h : Rewritten s t) (hs : s.Tables) : t.Tables where
  bills := by
    constructor
    · change t.db.bills.Pairwise _
      rw [h.db]
      exact hs.bills.unique
    · intro item hitem
      change ∃ bill ∈ t.db.bills, bill.id = item.bill
      rw [h.db]
      obtain ⟨row, hrow, rfl⟩ := List.mem_map.mp hitem
      rcases h.foreign row hrow with hold | hthere
      · exact hs.bills.foreign row.toBillItem (List.mem_map_of_mem hold)
      · exact hthere
  keys := h.keys

theorem deleteItem_rewritten {s : BillStore} (hkeys : (s.items.map (·.id)).Nodup) (pk : ℕ) :
    Rewritten s (s.deleteItem pk) where
  db := rfl
  keys := hkeys.sublist (List.filter_sublist.map _)
  foreign := fun _ hrow => Or.inl (List.mem_of_mem_filter hrow)

/-- A row that does not refuse the bill has none of its keys. -/
theorem disjoint_of_not_refuses {s : BillStore} {bill row : Bill} (h : s.refuses bill = false)
    (hrow : row ∈ s.db.bills) (hid : row.id ≠ bill.id) :
    ∀ k ∈ bill.uniqueKeys, k ∉ row.uniqueKeys := by
  have hclash : ({ s.db with bills := [row] } : DB).toBooks.billClash bill = false := by
    unfold BillStore.refuses at h
    simp only [Bool.or_eq_false_iff] at h
    have hone := List.any_eq_false.mp h.2 row hrow
    simp only [Books.billClash, List.any_cons, List.any_nil, Bool.or_false]
    simp only [Bool.and_eq_true, Bool.or_eq_true, decide_eq_true_eq, bne_iff_ne, not_and,
      not_or] at hone
    obtain ⟨hnumber, hreference⟩ := hone hid
    simp only [Bool.or_eq_false_iff, Bool.and_eq_false_iff, decide_eq_false_iff_not,
      bne_eq_false_iff_eq]
    refine ⟨⟨hid, ?_⟩, ?_⟩
    · by_cases htenant : row.tenant = bill.tenant
      · exact Or.inr (hnumber htenant)
      · exact Or.inl htenant
    · by_cases htenant : row.tenant = bill.tenant
      · by_cases hblank : bill.externalReference = ""
        · exact Or.inl (Or.inr hblank)
        · exact Or.inr (hreference htenant hblank)
      · exact Or.inl (Or.inl htenant)
  intro k hk hk'
  have htaken : ({ s.db with bills := [row] } : DB).toBooks.billClash bill = true :=
    billClash_iff.mpr ⟨k, hk, row, List.mem_singleton.mpr rfl, hk'⟩
  rw [hclash] at htaken
  cases htaken

/-- The bill form changes one row and keeps its id and its total. -/
theorem bills_after_form {s : BillStore} {pk : ℕ} {bill : Bill} {form : BillForm}
    (hs : s.Tables) (hid : bill.id = pk) (h : s.refuses (form.apply bill) = false) :
    BillStore.Tables { s with db := { s.db with
      toBooks := s.db.toBooks.updateBill pk fun _ => form.apply bill } } where
  bills := by
    constructor
    · refine List.pairwise_map.mpr (hs.bills.unique.imp_of_mem ?_)
      intro x y hx hy hdisjoint k hk
      by_cases hxid : x.id = pk
      · have hyid : y.id ≠ pk := by
          intro hyid
          refine hdisjoint (.bill pk) ?_ ?_
          · rw [← hxid]
            exact List.mem_cons_self
          · rw [← hyid]
            exact List.mem_cons_self
        rw [if_pos hxid] at hk
        rw [if_neg hyid]
        exact disjoint_of_not_refuses h hy (hid ▸ hyid) k hk
      · rw [if_neg hxid] at hk
        by_cases hyid : y.id = pk
        · rw [if_pos hyid]
          exact fun hk' => disjoint_of_not_refuses h hx (hid ▸ hxid) k hk' hk
        · rw [if_neg hyid]
          exact hdisjoint k hk
    · intro item hitem
      obtain ⟨row, hrow, hsame⟩ := hs.bills.foreign item hitem
      refine ⟨_, List.mem_map_of_mem hrow, ?_⟩
      by_cases hrowId : row.id = pk
      · rw [if_pos hrowId]
        exact hid.trans (hrowId.symm.trans hsame)
      · rw [if_neg hrowId]
        exact hsame
  keys := hs.keys

/-! ## The creation of a bill -/

theorem keyed_rows (s : BillStore) (rows : List BillItem) :
    (s.keyed rows).map (·.toBillItem) = rows := by
  rw [BillStore.keyed, List.map_map]
  exact List.zipIdx_map_fst 0 rows

theorem lt_newKey {s : BillStore} {row : ItemRow} (h : row ∈ s.items) (k : ℕ) :
    row.id < s.newKey k := by
  have hmax : ∀ l : List ℕ, ∀ n ∈ l, n ≤ l.foldr max 0 := by
    intro l
    induction l with
    | nil => simp
    | cons m l ih =>
        intro n hn
        rcases List.mem_cons.mp hn with rfl | hn
        · exact le_max_left _ _
        · exact (ih n hn).trans (le_max_right _ _)
  have hle := hmax (s.items.map (·.id)) row.id (List.mem_map_of_mem h)
  unfold BillStore.newKey
  omega

theorem keyed_keys (s : BillStore) (rows : List BillItem) :
    (s.keyed rows).map (·.id) = (List.range' 0 rows.length).map s.newKey := by
  rw [BillStore.keyed, List.map_map, ← List.zipIdx_map_snd 0 rows, List.map_map]
  rfl

theorem nodup_keyed {s : BillStore} (hkeys : (s.items.map (·.id)).Nodup) (rows : List BillItem) :
    ((s.items ++ s.keyed rows).map (·.id)).Nodup := by
  rw [List.map_append]
  refine List.Nodup.append hkeys ?_ ?_
  · rw [keyed_keys]
    refine List.Nodup.map ?_ List.nodup_range'
    intro k k' h
    unfold BillStore.newKey at h
    omega
  · intro k hk hk'
    rw [keyed_keys] at hk'
    obtain ⟨row, hrow, rfl⟩ := List.mem_map.mp hk
    obtain ⟨n, -, hn⟩ := List.mem_map.mp hk'
    have hlt := lt_newKey hrow n
    exact absurd hn hlt.ne'

/-- The lines of rows that all belong to one bill. -/
theorem lineTotals_of_bill {rows : List ItemRow} {bill : ℕ} (h : ∀ row ∈ rows, row.bill = bill) :
    lineTotals rows bill = (rows.map (·.lineTotal.cents)).sum :=
  congrArg List.sum (List.map_congr_left fun row hrow => if_pos (h row hrow))

theorem lineTotals_of_other {rows : List ItemRow} {bill : ℕ} (h : ∀ row ∈ rows, row.bill ≠ bill) :
    lineTotals rows bill = 0 := by
  refine List.sum_eq_zero fun n hn => ?_
  obtain ⟨row, hrow, rfl⟩ := List.mem_map.mp hn
  exact if_neg (h row hrow)

/-- The rows of `bulk_create` have the lines of their items. -/
theorem items_exact {tenant bill : ℕ} {items : List ItemInput} {rows : List BillItem}
    (hplaces : ∀ item ∈ items, item.TwoPlaces)
    (h : items.mapM (·.row? tenant bill) = some rows) : ∀ row ∈ rows, row.Exact := by
  intro row hrow
  obtain ⟨item, hitem, hstored⟩ := mem_of_mapM h hrow
  exact (ItemInput.row?_some (hplaces item hitem) hstored).2.2

/-- The state after a call that created a bill. -/
def BillStore.created (s : BillStore) (rows : BillRows) : BillStore :=
  { db := rows.addTo s.seen, items := s.items ++ s.keyed rows.items }

theorem getOrCreateBill_ok {s t : BillStore} {env : Env} {input : BillInput} (hs : s.Tables)
    (h : s.getOrCreateBill env input = .ok t) :
    t = { s with db := s.seen } ∨ ∃ rows : BillRows, rows.Of env input s.seen ∧
      t = s.created rows ∧ ∀ key ∈ rows.bill.uniqueKeys, ¬BillKeyTaken key s.seen := by
  have hlength : s.seen.billItems.length = s.items.length := List.length_map _
  unfold BillStore.getOrCreateBill at h
  cases hexec : (Kusanya.getOrCreateBill env input).exec s.seen with
  | error e =>
      rw [hexec] at h
      cases h
  | ok r =>
      obtain ⟨result, u⟩ := r
      rw [hexec] at h
      obtain rfl := Except.ok.inj h
      cases getOrCreateBill_exec hs.bills hexec with
      | existing _ =>
          left
          have hdrop : s.seen.billItems.drop s.items.length = [] :=
            List.drop_eq_nil_of_le hlength.le
          rw [hdrop]
          simp [BillStore.keyed]
      | @created rows hrows hfree =>
          right
          have hdrop : (rows.addTo s.seen).billItems.drop s.items.length = rows.items := by
            rw [← hlength]
            exact List.drop_left
          rw [hdrop]
          exact ⟨rows, hrows, rfl, hfree⟩

theorem created_tables {s : BillStore} {env : Env} {input : BillInput} {rows : BillRows}
    (hs : s.Tables) (hrows : rows.Of env input s.seen)
    (hfree : ∀ key ∈ rows.bill.uniqueKeys, ¬BillKeyTaken key s.seen) : (s.created rows).Tables where
  bills := by
    have hseen : (s.created rows).seen = rows.addTo s.seen := by
      have hitems : (s.items ++ s.keyed rows.items).map (·.toBillItem) =
          s.seen.billItems ++ rows.items := by
        rw [List.map_append, keyed_rows]
        rfl
      unfold BillStore.seen BillStore.created
      rw [hitems]
      rfl
    rw [hseen]
    exact addTo_tables hs.bills hrows hfree
  keys := nodup_keyed hs.keys rows.items

theorem created_totalled {s : BillStore} {env : Env} {input : BillInput} {rows : BillRows}
    (hs : s.Tables) (ht : s.Totalled) (hrows : rows.Of env input s.seen)
    (hfree : ∀ key ∈ rows.bill.uniqueKeys, ¬BillKeyTaken key s.seen)
    (hplaces : ∀ item ∈ input.items, item.TwoPlaces) : (s.created rows).Totalled where
  totals := by
    have hkeyed : ∀ row ∈ s.keyed rows.items, row.toBillItem ∈ rows.items := by
      intro row hrow
      have hmem := List.mem_map_of_mem (f := fun row : ItemRow => row.toBillItem) hrow
      rwa [keyed_rows] at hmem
    have hbill : ∀ row ∈ s.keyed rows.items, row.bill = rows.bill.id := fun row hrow =>
      items_bill hrows.items row.toBillItem (hkeyed row hrow)
    intro bill hmem
    rcases List.mem_append.mp hmem with hold | hnew
    · have hother : rows.bill.id ≠ bill.id := fun hid =>
        hfree (.bill rows.bill.id) List.mem_cons_self (billKeyTaken_id hold hid.symm)
      have hzero : lineTotals (s.keyed rows.items) bill.id = 0 :=
        lineTotals_of_other fun row hrow => (hbill row hrow).symm ▸ hother
      change bill.totalAmount.cents = lineTotals (s.items ++ s.keyed rows.items) bill.id
      rw [lineTotals_append, hzero, add_zero]
      exact ht.totals bill hold
    · obtain rfl := List.mem_singleton.mp hnew
      have hnone : lineTotals s.items rows.bill.id = 0 := by
        refine lineTotals_of_other fun row hrow hid => ?_
        obtain ⟨bill, hbillMem, hsame⟩ :=
          hs.bills.foreign row.toBillItem (List.mem_map_of_mem hrow)
        exact hfree (.bill rows.bill.id) List.mem_cons_self
          (billKeyTaken_id hbillMem (hsame.trans hid))
      have hsum : lineTotals (s.keyed rows.items) rows.bill.id =
          (rows.items.map (·.lineTotal.cents)).sum := by
        rw [lineTotals_of_bill hbill]
        conv_rhs => rw [← keyed_rows s rows.items, List.map_map]
        rfl
      change rows.bill.totalAmount.cents = lineTotals (s.items ++ s.keyed rows.items) rows.bill.id
      rw [lineTotals_append, hnone, zero_add, hsum]
      exact hrows.total
  lines := by
    intro row hrow
    rcases List.mem_append.mp hrow with hold | hnew
    · exact ht.lines row hold
    · have hmem := List.mem_map_of_mem (f := fun row : ItemRow => row.toBillItem) hnew
      rw [keyed_rows] at hmem
      exact items_exact hplaces hrows.items row.toBillItem hmem

/-! ## Runs -/

/-- The operation moves no sum, what it stores for a bill is what was counted for it, and outside
the admin form it stores no item with more than two decimals.  A form that is refused stores
nothing, nor does a call that finds the bill. -/
def BillStep.KeepsTotals (s : BillStore) : BillStep → Prop
  | getOrCreateBill _ input =>
      input.existing s.seen = none → ∀ item ∈ input.items, item.TwoPlaces
  | saveItem pk form =>
      form.row?.isSome → form.toItemInput.TwoPlaces ∧
        ∀ bill, form.counts bill = counted s.items pk bill
  | deleteItem pk => ∀ bill, counted s.items pk bill = 0
  | adminEdit pk form =>
      form.fits s pk →
        (form.saved.map fun inline => (inline.2.item pk).line).sum =
          ((form.saved.map (·.1) ++ form.removed).map fun key => counted s.items key pk).sum

/-- What a successful change view did. -/
theorem adminEdit_ok {s t : BillStore} {pk : ℕ} {form : AdminForm}
    (h : s.adminEdit pk form = .ok t) :
    ∃ bill ∈ s.db.bills, bill.id = pk ∧ s.refuses (form.bill.apply bill) = false ∧
      form.fits s pk = true ∧ ∃ u,
        BillStore.saveInlines pk form.saved { s with db := { s.db with
          toBooks := s.db.toBooks.updateBill pk fun _ => form.bill.apply bill } } = .ok u ∧
        t = form.removed.foldl BillStore.deleteItem u := by
  unfold BillStore.adminEdit at h
  cases hbill : s.db.bills.find? (·.id = pk) with
  | none =>
      rw [hbill] at h
      cases h
  | some bill =>
      rw [hbill] at h
      dsimp only at h
      split at h
      · cases h
      · next hgood =>
          simp only [Bool.or_eq_true, Bool.not_eq_true', not_or, Bool.not_eq_true,
            Bool.not_eq_false] at hgood
          have hfound := List.find?_some hbill
          have hid : bill.id = pk := of_decide_eq_true hfound
          refine ⟨bill, List.mem_of_find?_eq_some hbill, hid, hgood.1, hgood.2, ?_⟩
          cases hsaved : BillStore.saveInlines pk form.saved { s with db := { s.db with
              toBooks := s.db.toBooks.updateBill pk fun _ => form.bill.apply bill } } with
          | error e =>
              rw [hsaved] at h
              cases h
          | ok u =>
              rw [hsaved] at h
              exact ⟨u, rfl, (Except.ok.inj h).symm⟩

/-- An item of the formset counts for its bill only. -/
theorem counted_other_bill {s : BillStore} {pk key bill : ℕ} {form : AdminForm}
    (hfits : form.fits s pk = true) (hkey : key ∈ form.saved.map (·.1) ++ form.removed)
    (hother : bill ≠ pk) : counted s.items key bill = 0 := by
  refine lineTotals_of_other fun row hrow hbill => hother ?_
  obtain ⟨hmem, hid⟩ := List.mem_filter.mp hrow
  have hall := (Bool.and_eq_true _ _ ▸ hfits).2
  have hrowFits := of_decide_eq_true (List.all_eq_true.mp hall row hmem)
  have hid := of_decide_eq_true hid
  exact hbill.symm.trans (hrowFits (hid.symm ▸ hkey))

/-- The sums after a change view. -/
theorem adminEdit_lineTotals {s u : BillStore} {pk : ℕ} {form : AdminForm} (hs : s.Tables)
    {db : DB} (hfits : form.fits s pk = true)
    (hsaved : BillStore.saveInlines pk form.saved { s with db := db } = .ok u) (bill : ℕ) :
    lineTotals (form.removed.foldl BillStore.deleteItem u).items bill =
      lineTotals s.items bill +
        (form.saved.map fun inline => (inline.2.item pk).counts bill).sum -
        ((form.saved.map (·.1) ++ form.removed).map fun key => counted s.items key bill).sum := by
  have hnodup : (form.saved.map (·.1) ++ form.removed).Nodup :=
    of_decide_eq_true (Bool.and_eq_true _ _ ▸ hfits).1
  obtain ⟨hsavedNodup, hremovedNodup, hdisjoint⟩ := List.nodup_append'.mp hnodup
  have hkeys : (({ s with db := db } : BillStore).items.map (·.id)).Nodup := hs.keys
  obtain ⟨-, -, hcounted, hsum⟩ := saveInlines_spec hkeys hsavedNodup hsaved
  obtain ⟨-, -, hdeleted⟩ := deleteItems_spec (s := u) hremovedNodup
  have hremoved : (form.removed.map fun key => counted u.items key bill) =
      form.removed.map fun key => counted s.items key bill :=
    List.map_congr_left fun key hkey => hcounted key (fun hmem => hdisjoint hmem hkey) bill
  have hdifference : (form.saved.map fun inline =>
      (inline.2.item pk).counts bill - counted s.items inline.1 bill).sum =
      (form.saved.map fun inline => (inline.2.item pk).counts bill).sum -
        (form.saved.map fun inline => counted s.items inline.1 bill).sum := by
    induction form.saved with
    | nil => rfl
    | cons inline rest ih =>
        simp only [List.map_cons, List.sum_cons, ih]
        linarith
  rw [hdeleted bill, hsum bill, hremoved, hdifference, List.map_append, List.sum_append,
    List.map_map]
  simp only [Function.comp_def]
  linarith

theorem BillStep.tables {s t : BillStore} {step : BillStep} (hs : s.Tables)
    (h : step.run s = .ok t) : t.Tables := by
  cases step with
  | getOrCreateBill env input =>
      rcases getOrCreateBill_ok hs h with rfl | ⟨rows, hrows, rfl, hfree⟩
      · exact ⟨hs.bills, hs.keys⟩
      · exact created_tables hs hrows hfree
  | saveItem pk form => exact (saveItem_rewritten hs.keys h).tables hs
  | deleteItem pk =>
      obtain rfl := Except.ok.inj h
      exact (deleteItem_rewritten hs.keys pk).tables hs
  | adminEdit pk form =>
      obtain ⟨bill, -, hid, hrefuses, hfits, u, hsaved, rfl⟩ := adminEdit_ok h
      have hform := bills_after_form hs hid hrefuses
      have hnodup : (form.saved.map (·.1) ++ form.removed).Nodup :=
        of_decide_eq_true (Bool.and_eq_true _ _ ▸ hfits).1
      obtain ⟨hsavedNodup, hremovedNodup, -⟩ := List.nodup_append'.mp hnodup
      have hu := (saveInlines_spec hform.keys hsavedNodup hsaved).1.tables hform
      obtain ⟨hdb, hsublist, -⟩ := deleteItems_spec (s := u) hremovedNodup
      refine Rewritten.tables ⟨hdb, hu.keys.sublist (hsublist.map _), ?_⟩ hu
      intro row hrow
      exact Or.inl (hsublist.subset hrow)

theorem BillStep.totalled {s t : BillStore} {step : BillStep} (hs : s.Tables) (ht : s.Totalled)
    (hkeeps : step.KeepsTotals s) (h : step.run s = .ok t) : t.Totalled := by
  cases step with
  | getOrCreateBill env input =>
      rcases getOrCreateBill_ok hs h with rfl | ⟨rows, hrows, rfl, hfree⟩
      · exact ⟨ht.totals, ht.lines⟩
      · exact created_totalled hs ht hrows hfree
          (hkeeps (existing_none hrows.tenant_reference.1 hrows.tenant_reference.2
          hfree))
  | saveItem pk form =>
      obtain ⟨row, hrow, -, hsaved⟩ := saveItem_ok h
      obtain ⟨hplaces, hcounts⟩ := hkeeps (hrow ▸ rfl)
      constructor
      · intro bill hbill
        have hbill' : bill ∈ s.db.bills := by
          rwa [hsaved] at hbill
        rw [saveItem_lineTotals hs.keys hplaces h, hcounts, sub_add_cancel]
        exact ht.totals bill hbill'
      · intro r hr
        rw [hsaved] at hr
        rcases mem_putItem hr with rfl | hold
        · exact (ItemInput.row?_some hplaces hrow).2.2
        · exact ht.lines r hold
  | deleteItem pk =>
      obtain rfl := Except.ok.inj h
      constructor
      · intro bill hbill
        change bill.totalAmount.cents = lineTotals (s.items.filter (·.id ≠ pk)) bill.id
        rw [lineTotals_delete, hkeeps bill.id, sub_zero]
        exact ht.totals bill hbill
      · exact fun row hrow => ht.lines row (List.mem_of_mem_filter hrow)
  | adminEdit pk form =>
      obtain ⟨bill, hmem, hid, hrefuses, hfits, u, hsaved, rfl⟩ := adminEdit_ok h
      have hnodup : (form.saved.map (·.1) ++ form.removed).Nodup :=
        of_decide_eq_true (Bool.and_eq_true _ _ ▸ hfits).1
      obtain ⟨hsavedNodup, hremovedNodup, -⟩ := List.nodup_append'.mp hnodup
      have hform := bills_after_form hs hid hrefuses
      obtain ⟨hwritten, hlines, -⟩ := saveInlines_spec hform.keys hsavedNodup hsaved
      obtain ⟨hdb, hsublist, -⟩ := deleteItems_spec (s := u) hremovedNodup
      have hsums := adminEdit_lineTotals hs hfits hsaved
      constructor
      · intro bill' hbill'
        rw [hdb, hwritten.db] at hbill'
        obtain ⟨row, hrow, hrow'⟩ := List.mem_map.mp hbill'
        rw [hsums bill'.id]
        by_cases hpk : row.id = pk
        · rw [if_pos hpk] at hrow'
          subst hrow'
          have hcounts : (form.saved.map fun inline => (inline.2.item pk).counts pk) =
              form.saved.map fun inline => (inline.2.item pk).line :=
            List.map_congr_left fun inline _ => if_pos rfl
          have hbillId : (form.bill.apply bill).id = pk := hid
          have htotal : bill.totalAmount.cents = lineTotals s.items pk :=
            hid ▸ ht.totals bill hmem
          rw [hbillId, hcounts, hkeeps hfits, add_sub_cancel_right]
          exact htotal
        · rw [if_neg hpk] at hrow'
          subst hrow'
          have hsaves : (form.saved.map fun inline =>
              (inline.2.item pk).counts row.id).sum = 0 := by
            refine List.sum_eq_zero fun n hn => ?_
            obtain ⟨inline, -, rfl⟩ := List.mem_map.mp hn
            exact if_neg (Ne.symm hpk)
          have hkeys : ((form.saved.map (·.1) ++ form.removed).map fun key =>
              counted s.items key row.id).sum = 0 := by
            refine List.sum_eq_zero fun n hn => ?_
            obtain ⟨key, hkey, rfl⟩ := List.mem_map.mp hn
            exact counted_other_bill hfits hkey hpk
          rw [hsaves, hkeys, add_zero, sub_zero]
          exact ht.totals row hrow
      · intro row hrow
        rcases hlines row (hsublist.subset hrow) with hold | hexact
        · exact ht.lines row hold
        · exact hexact

/-- Where an operation raises nothing has changed. -/
theorem BillStep.apply_kept {s : BillStore} {step : BillStep} (hs : s.Tables) (ht : s.Totalled)
    (hkeeps : step.KeepsTotals s) : (step.apply s).Tables ∧ (step.apply s).Totalled := by
  unfold BillStep.apply
  cases hrun : step.run s with
  | error e => exact ⟨hs, ht⟩
  | ok t => exact ⟨BillStep.tables hs hrun, BillStep.totalled hs ht hkeeps hrun⟩

/-- Every operation of the run meets the condition where it is applied. -/
def KeepsTotalsAlong : BillStore → List BillStep → Prop
  | _, [] => True
  | s, step :: steps => step.KeepsTotals s ∧ KeepsTotalsAlong (step.apply s) steps

/-- **The total of a bill is the sum of its items.**  From tables without bills on, in every
run of creations, saves, deletions and admin edits in which no save, deletion or edit changes
what the items of a bill add up to, and no item has more than two decimals, every total is the sum
of the lines, and every line is its quantity times its unit amount. -/
theorem bill_totals {s : BillStore} (hbills : s.db.bills = []) (hitems : s.items = [])
    (steps : List BillStep) (hsteps : KeepsTotalsAlong s steps) :
    ∀ earlier, earlier <+: steps → (s.after earlier).Totalled := by
  have hs : s.Tables := by
    refine ⟨⟨?_, ?_⟩, ?_⟩
    · change s.db.bills.Pairwise _
      rw [hbills]
      exact List.Pairwise.nil
    · intro item hitem
      simp [BillStore.seen, hitems] at hitem
    · rw [hitems]
      exact List.nodup_nil
  have ht : s.Totalled := by
    constructor
    · simp [hbills]
    · simp [hitems]
  clear hbills hitems
  induction steps generalizing s with
  | nil =>
      intro earlier hearlier
      obtain rfl := List.prefix_nil.mp hearlier
      exact ht
  | cons step steps ih =>
      obtain ⟨hstep, hrest⟩ := hsteps
      intro earlier hearlier
      cases earlier with
      | nil => exact ht
      | cons first earlier =>
          obtain ⟨rfl, hprefix⟩ := List.cons_prefix_cons.mp hearlier
          obtain ⟨hs', ht'⟩ := BillStep.apply_kept hs ht hstep
          exact ih hrest hs' ht' earlier hprefix

/-- A bill of 100.00 with one item. -/
def tuition : BillStep :=
  .getOrCreateBill (envAt 1 (answering .pending "" ""))
    { tenant := 1
      customerAccount := 1
      items := [⟨"Tuition", ⟨1, 0⟩, ⟨10000, -2⟩⟩]
      externalReference := "" }

/-- An admin splits the item in two, of 60.00 and 40.00. -/
def splitTuition : BillStep :=
  .adminEdit 1
    { bill := ⟨1, 1, .active, "TZS", none, none, ""⟩
      saved := [(1, ⟨1, "Tuition", 100, numericOf 6000⟩), (2, ⟨1, "Books", 200, numericOf 2000⟩)]
      removed := [] }

theorem bill_totals_split :
    BillStore.Totalled (BillStore.after ⟨smallInstallation, []⟩ [tuition, splitTuition]) := by
  refine bill_totals rfl rfl [tuition, splitTuition] ?_ _ (List.prefix_refl _)
  refine ⟨fun _ => ?_, fun _ => ?_, trivial⟩
  · decide
  · decide +kernel

/-- An item is added to the bill, and its total stays 100.00. -/
def addBooks : BillStep := .saveItem 2 ⟨⟨"Books", ⟨1, 0⟩, ⟨50, 0⟩⟩, 1, 1⟩

theorem bill_totals_failing :
    ¬∀ (s : BillStore) (steps earlier : List BillStep), s.db.bills = [] → s.items = [] →
      earlier <+: steps → (s.after earlier).Totalled := by
  intro hall
  have hbad := hall ⟨smallInstallation, []⟩ [tuition, addBooks] _ rfl rfl (List.prefix_refl _)
  exact absurd hbad.totals (by decide +kernel)

end Kusanya
