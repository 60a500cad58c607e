import Kusanya.Invariants.BillReplay
import Kusanya.Invariants.Runs

/-!
# Idempotent bill creation under concurrency

Any number of `get_or_create_bill` calls run at once, each in a transaction of its own, with
arbitrary items, references and generated bill numbers.  Since each of them replays, a
schedule has the effect of the calls that commit, one after the other: those that return
`created=True` add the rows of their bill, the others nothing.
-/

namespace Kusanya

open ReadCommitted

/-- A call of `get_or_create_bill`. -/
structure BillCall where
  env : Env
  input : BillInput

def BillCall.program (call : BillCall) : Tx (Bill × Bool) :=
  getOrCreateBill call.env call.input

/-- The call is for this tenant and reference. -/
def BillCall.IsFor (call : BillCall) (tenant : ℕ) (reference : String) : Prop :=
  call.input.tenant = tenant ∧ call.input.externalReference = reference

/-- The bills of a tenant with a reference. -/
def Books.billsOf (b : Books) (tenant : ℕ) (reference : String) : List Bill :=
  b.bills.filter fun bill => bill.tenant = tenant && bill.externalReference = reference

/-- The state that a list of created bills leaves, each given with the index of its call. -/
def storeAfter (start : DB) (created : List (ℕ × BillRows)) : DB :=
  created.foldl (fun db x => x.2.addTo db) start

/-- The calls that returned `created=True`, in the order of their commits, and the state, which
holds their rows and no others. -/
structure CreatedBy (calls : List BillCall) (start : DB)
    (c : Config DB Resource Error Call (Bill × Bool)) (created : List (ℕ × BillRows)) : Prop where
  returned : ∀ i b, c.sessions[i]? = some (.committed (b, true)) ↔
    ∃ rows, (i, rows) ∈ created ∧ rows.bill = b
  once : (created.map (·.1)).Nodup
  rows : ∀ x ∈ created, ∃ call, calls[x.1]? = some call ∧ x.2.Of call.env call.input start
  store : c.store = storeAfter start created

/-- What an idempotency key is for. -/
structure OneBill (calls : List BillCall) (start : DB)
    (c : Config DB Resource Error Call (Bill × Bool)) (tenant : ℕ) (reference : String) :
    Prop where
  unique : (c.store.billsOf tenant reference).length ≤ 1
  returned : ∀ (i : ℕ) (call : BillCall) (b : Bill) (created : Bool), calls[i]? = some call →
    call.IsFor tenant reference → c.sessions[i]? = some (.committed (b, created)) →
    c.store.billsOf tenant reference = [b]
  creator : start.billsOf tenant reference = [] →
    (∃ (i : ℕ) (call : BillCall) (a : Bill × Bool), calls[i]? = some call ∧
      call.IsFor tenant reference ∧ c.sessions[i]? = some (.committed a)) →
    ∃! i : ℕ, ∃ (call : BillCall) (b : Bill), calls[i]? = some call ∧
      call.IsFor tenant reference ∧ c.sessions[i]? = some (.committed (b, true))
  content : ∀ (i : ℕ) (call : BillCall) (b : Bill), calls[i]? = some call →
    call.IsFor tenant reference → c.sessions[i]? = some (.committed (b, true)) →
    ∃ items, call.input.items.mapM (·.row? tenant b.id) = some items ∧
      c.store.billItems.filter (·.bill = b.id) = items ∧
      b.totalAmount.cents = (items.map (·.lineTotal.cents)).sum

section Rows

variable {s t : DB} {env : Env} {input : BillInput} {rows : BillRows}

theorem BillRows.Of.congr (hrows : rows.Of env input s) (h : s.toDirectory = t.toDirectory) :
    rows.Of env input t where
  bill := hrows.bill
  items := hrows.items
  total := hrows.total
  audit := hrows.audit
  side := by
    obtain ⟨account, customer, tenant, haccount, hcustomer, htenant, hdeliveries, hnotices⟩ :=
      hrows.side
    refine ⟨account, customer, tenant, ?_, ?_, ?_, ?_, ?_⟩
    · rw [← haccount, h]
    · rw [← hcustomer, h]
    · rw [← htenant, h]
    · rw [hdeliveries, activeEndpoints, activeEndpoints, h]
    · rw [← hnotices, notices_congr h]

theorem BillRows.Of.tenant_reference (hrows : rows.Of env input s) :
    rows.bill.tenant = input.tenant ∧ rows.bill.externalReference = input.externalReference := by
  obtain ⟨k, total, hbill⟩ := hrows.bill
  rw [hbill]
  exact ⟨rfl, rfl⟩

/-- The rows of a new bill keep the constraints. -/
theorem addTo_tables (hs : s.toBooks.BillTables) (hrows : rows.Of env input s)
    (hfree : ∀ key ∈ rows.bill.uniqueKeys, ¬BillKeyTaken key s) :
    (rows.addTo s).toBooks.BillTables where
  unique := by
    refine List.pairwise_append.mpr ⟨hs.unique, List.pairwise_singleton _ _, ?_⟩
    intro x hx y hy key hkey hkey'
    obtain rfl := List.mem_singleton.mp hy
    exact hfree key hkey' ⟨x, hx, hkey⟩
  foreign := by
    intro item hitem
    rcases List.mem_append.mp hitem with hold | hnew
    · obtain ⟨bill, hbill, hid⟩ := hs.foreign item hold
      exact ⟨bill, List.mem_append_left _ hbill, hid⟩
    · exact ⟨rows.bill, List.mem_append_right _ (List.mem_singleton.mpr rfl),
        (items_bill hrows.items item hnew).symm⟩

/-- The rows take the keys of their bill and no others. -/
theorem taken_addTo {key : Resource} :
    BillKeyTaken key (rows.addTo s) ↔ BillKeyTaken key s ∨ key ∈ rows.bill.uniqueKeys := by
  change (∃ r ∈ s.bills ++ [rows.bill], key ∈ r.uniqueKeys) ↔
    (∃ r ∈ s.bills, key ∈ r.uniqueKeys) ∨ _
  simp [or_and_right, exists_or]

end Rows

/-! ## Runs -/

section Runs

variable {calls : List BillCall} {start : DB} {log : List (ℕ × (Bill × Bool))} {past : List DB}
variable {store : DB}

/-- What the commits of a run come to. -/
structure BillHistory (calls : List BillCall) (start : DB) (log : List (ℕ × (Bill × Bool)))
    (created : List (ℕ × BillRows)) (store : DB) : Prop where
  returned : ∀ i b, (i, (b, true)) ∈ log ↔ ∃ rows, (i, rows) ∈ created ∧ rows.bill = b
  sub : (created.map (·.1)).Sublist (log.map (·.1))
  rows : ∀ x ∈ created, ∃ call, calls[x.1]? = some call ∧ x.2.Of call.env call.input start
  existing : ∀ i b, (i, (b, false)) ∈ log →
    ∃ call, calls[i]? = some call ∧ call.input.existing store = some b
  store_eq : store = storeAfter start created
  tables : store.toBooks.BillTables
  directory : start.toDirectory = store.toDirectory
  bills : store.bills = start.bills ++ created.map (·.2.bill)
  items : ∀ x ∈ created, store.billItems.filter (·.bill = x.2.bill.id) = x.2.items

theorem program_get {i : ℕ} {p : Tx (Bill × Bool)} (h : (calls.map BillCall.program)[i]? = some p) :
    ∃ call, calls[i]? = some call ∧ p = getOrCreateBill call.env call.input := by
  rw [List.getElem?_map, Option.map_eq_some_iff] at h
  obtain ⟨call, hcall, rfl⟩ := h
  exact ⟨call, hcall, rfl⟩

/-- One more commit. -/
theorem BillHistory.commit {created : List (ℕ × BillRows)} {t : DB} {i : ℕ} {a : Bill × Bool}
    (h : BillHistory calls start log created store)
    (hcommit : Config.Alone (calls.map BillCall.program) i a store t) :
    ∃ created', BillHistory calls start (log ++ [(i, a)]) created' t := by
  obtain ⟨p, hp, hexec⟩ := hcommit
  obtain ⟨call, hcall, rfl⟩ := program_get hp
  cases getOrCreateBill_exec h.tables hexec with
  | @existing b hfound =>
      refine ⟨created, ⟨fun j b' => ?_, ?_, h.rows, fun j b' hmem => ?_, h.store_eq, h.tables,
        h.directory, h.bills, h.items⟩⟩
      · rw [← h.returned j b']
        simp
      · rw [List.map_append]
        exact h.sub.trans (List.sublist_append_left _ _)
      · rcases List.mem_append.mp hmem with hmem | hmem
        · exact h.existing j b' hmem
        · obtain ⟨rfl, hb⟩ := Prod.mk.inj (List.mem_singleton.mp hmem)
          obtain ⟨rfl, -⟩ := Prod.mk.inj hb
          exact ⟨call, hcall, hfound⟩
  | @created rows hrows hfree =>
      have hnew : rows.Of call.env call.input start := hrows.congr h.directory.symm
      refine ⟨created ++ [(i, rows)], ⟨fun j b => ?_, ?_, fun x hx => ?_, fun j b hmem => ?_, ?_,
        addTo_tables h.tables hrows hfree, h.directory, ?_, fun x hx => ?_⟩⟩
      · rw [List.mem_append, List.mem_singleton, h.returned j b]
        constructor
        · rintro (⟨rows', hmem, hb⟩ | heq)
          · exact ⟨rows', List.mem_append_left _ hmem, hb⟩
          · obtain ⟨rfl, hb⟩ := Prod.mk.inj heq
            exact ⟨rows, List.mem_append_right _ (List.mem_singleton.mpr rfl),
              (Prod.mk.inj hb).1.symm⟩
        · rintro ⟨rows', hmem, rfl⟩
          rcases List.mem_append.mp hmem with hmem | hmem
          · exact Or.inl ⟨rows', hmem, rfl⟩
          · obtain ⟨rfl, rfl⟩ := Prod.mk.inj (List.mem_singleton.mp hmem)
            exact Or.inr rfl
      · rw [List.map_append, List.map_append]
        exact h.sub.append (List.Sublist.refl _)
      · rcases List.mem_append.mp hx with hx | hx
        · exact h.rows x hx
        · obtain rfl := List.mem_singleton.mp hx
          exact ⟨call, hcall, hnew⟩
      · rcases List.mem_append.mp hmem with hmem | hmem
        · obtain ⟨call', hcall', hfound⟩ := h.existing j b hmem
          exact ⟨call', hcall', existing_mono hfound (List.prefix_append _ _)⟩
        · obtain ⟨-, hb⟩ := Prod.mk.inj (List.mem_singleton.mp hmem)
          cases (Prod.mk.inj hb).2
      · rw [storeAfter, List.foldl_append]
        exact congrArg rows.addTo h.store_eq
      · rw [List.map_append, ← List.append_assoc, ← h.bills]
        rfl
      · change (store.billItems ++ rows.items).filter _ = _
        rw [List.filter_append]
        rcases List.mem_append.mp hx with hx | hx
        · have hother : rows.items.filter (·.bill = x.2.bill.id) = [] := by
            rw [List.filter_eq_nil_iff]
            intro item hitem hid
            have hsame := items_bill hrows.items item hitem
            refine hfree (.bill rows.bill.id) List.mem_cons_self ?_
            have hbill : x.2.bill ∈ store.bills := by
              rw [h.bills]
              exact List.mem_append_right _ (List.mem_map.mpr ⟨x, hx, rfl⟩)
            exact billKeyTaken_id hbill ((of_decide_eq_true hid).symm.trans hsame)
          rw [hother, List.append_nil]
          exact h.items x hx
        · obtain rfl := List.mem_singleton.mp hx
          rw [h.tables.no_items (hfree _ List.mem_cons_self), List.nil_append, List.filter_eq_self]
          exact fun item hitem => decide_eq_true (items_bill hrows.items item hitem)

/-- All commits of a run. -/
theorem billHistory_of_commits (hstart : start.toBooks.BillTables)
    (h : Commits (Config.Alone (calls.map BillCall.program)) start log past store) :
    ∃ created, BillHistory calls start log created store := by
  induction h with
  | none =>
      refine ⟨[], ⟨fun i b => ?_, List.Sublist.refl _, fun x hx => absurd hx List.not_mem_nil,
        fun i b hmem => absurd hmem List.not_mem_nil, rfl, hstart, rfl, ?_,
        fun x hx => absurd hx List.not_mem_nil⟩⟩
      · simp
      · rw [List.map_nil, List.append_nil]
  | commit _ hcommit ih =>
      obtain ⟨created, hhistory⟩ := ih
      exact hhistory.commit hcommit

/-- The bills of one reference are told apart by nothing. -/
theorem billsOf_length_le_one (h : store.toBooks.BillTables) (tenant : ℕ) {reference : String}
    (hblank : reference ≠ "") : (store.billsOf tenant reference).length ≤ 1 := by
  have hkeys : ∀ b ∈ store.billsOf tenant reference,
      Resource.billReference tenant reference ∈ b.uniqueKeys := by
    intro b hb
    obtain ⟨-, hsame⟩ := List.mem_filter.mp hb
    simp only [Bool.and_eq_true, decide_eq_true_eq] at hsame
    exact reference_mem_uniqueKeys hsame.1 hsame.2 hblank
  have hpairwise := h.unique.sublist (List.filter_sublist (p := fun bill =>
    bill.tenant = tenant && bill.externalReference = reference))
  change (store.billsOf tenant reference).Pairwise _ at hpairwise
  cases hlist : store.billsOf tenant reference with
  | nil => exact Nat.zero_le 1
  | cons x rest =>
      cases rest with
      | nil => exact le_refl 1
      | cons y rest =>
          rw [hlist] at hpairwise hkeys
          have hxy := (List.pairwise_cons.mp hpairwise).1 y List.mem_cons_self
          exact absurd (hkeys y (List.mem_cons_of_mem _ List.mem_cons_self))
            (hxy _ (hkeys x List.mem_cons_self))

theorem mem_billsOf {b : Books} {bill : Bill} {tenant : ℕ} {reference : String} :
    bill ∈ b.billsOf tenant reference ↔
      bill ∈ b.bills ∧ bill.tenant = tenant ∧ bill.externalReference = reference := by
  simp [Books.billsOf]

theorem BillHistory.oneBill {created : List (ℕ × BillRows)}
    {c : Config DB Resource Error Call (Bill × Bool)}
    (h : BillHistory calls start log created c.store)
    (hlogged : ∀ i a, c.sessions[i]? = some (.committed a) ↔ (i, a) ∈ log)
    (tenant : ℕ) {reference : String} (hblank : reference ≠ "") :
    OneBill calls start c tenant reference := by
  have hlength := billsOf_length_le_one h.tables tenant hblank
  -- the bill of a created call is in the table, under the reference of its call
  have hcreated : ∀ i rows call, (i, rows) ∈ created → calls[i]? = some call →
      rows.Of call.env call.input start ∧ rows.bill ∈ c.store.bills ∧
        (call.IsFor tenant reference ↔
          rows.bill.tenant = tenant ∧ rows.bill.externalReference = reference) := by
    intro i rows call hmem hcall
    obtain ⟨call', hcall', hrows⟩ := h.rows (i, rows) hmem
    obtain rfl := Option.some.inj (hcall.symm.trans hcall')
    refine ⟨hrows, ?_, ?_⟩
    · rw [h.bills]
      exact List.mem_append_right _ (List.mem_map.mpr ⟨(i, rows), hmem, rfl⟩)
    · rw [hrows.tenant_reference.1, hrows.tenant_reference.2]
      rfl
  have hreturned : ∀ (i : ℕ) (call : BillCall) (b : Bill) (isNew : Bool), calls[i]? = some call →
      call.IsFor tenant reference → c.sessions[i]? = some (.committed (b, isNew)) →
      b ∈ c.store.billsOf tenant reference := by
    intro i call b isNew hcall hfor hcommitted
    have hmem := (hlogged i _).mp hcommitted
    rw [mem_billsOf]
    cases isNew with
    | true =>
        obtain ⟨rows, hrows, rfl⟩ := (h.returned i b).mp hmem
        obtain ⟨-, hin, hiff⟩ := hcreated i rows call hrows hcall
        exact ⟨hin, hiff.mp hfor⟩
    | false =>
        obtain ⟨call', hcall', hfound⟩ := h.existing i b hmem
        obtain rfl := Option.some.inj (hcall.symm.trans hcall')
        obtain ⟨rfl, rfl⟩ := hfor
        rw [BillInput.existing, if_neg hblank] at hfound
        have hsame := List.find?_some hfound
        simp only [Bool.and_eq_true, decide_eq_true_eq] at hsame
        exact ⟨List.mem_of_find?_eq_some hfound, hsame⟩
  refine ⟨hlength, fun i call b isNew hcall hfor hcommitted => ?_, fun hnone hsome => ?_,
    fun i call b hcall hfor hcommitted => ?_⟩
  · have hmem := hreturned i call b isNew hcall hfor hcommitted
    obtain ⟨b', hb'⟩ := List.length_eq_one_iff.mp
      (Nat.le_antisymm hlength (List.length_pos_of_mem hmem))
    rw [hb'] at hmem ⊢
    rw [List.mem_singleton.mp hmem]
  · -- the bill was not there at the start, so one of the calls created it
    obtain ⟨i, call, ⟨b, isNew⟩, hcall, hfor, hcommitted⟩ := hsome
    obtain ⟨hin, htenant, hreference⟩ :=
      mem_billsOf.mp (hreturned i call b isNew hcall hfor hcommitted)
    rw [h.bills] at hin
    rcases List.mem_append.mp hin with hold | hnew
    · have hmem : b ∈ start.billsOf tenant reference := mem_billsOf.mpr ⟨hold, htenant, hreference⟩
      rw [hnone] at hmem
      cases hmem
    · obtain ⟨⟨j, rows⟩, hrows, rfl⟩ := List.mem_map.mp hnew
      obtain ⟨callj, hcallj, -⟩ := h.rows _ hrows
      obtain ⟨-, -, hiff⟩ := hcreated j rows callj hrows hcallj
      refine ⟨j, ⟨callj, rows.bill, hcallj, hiff.mpr ⟨htenant, hreference⟩,
        (hlogged j _).mpr ((h.returned j _).mpr ⟨rows, hrows, rfl⟩)⟩, ?_⟩
      rintro j' ⟨call', b', hcall', hfor', hcommitted'⟩
      obtain ⟨rows', hrows', rfl⟩ := (h.returned j' b').mp ((hlogged j' _).mp hcommitted')
      obtain ⟨-, -, hiff'⟩ := hcreated j' rows' call' hrows' hcall'
      obtain ⟨htenant', hreference'⟩ := hiff'.mp hfor'
      by_contra hne
      have hunique := h.tables.unique
      rw [h.bills] at hunique
      have hpairwise := List.pairwise_map.mp (List.pairwise_append.mp hunique).2.1
      have hsymm : Std.Symm fun x y : ℕ × BillRows =>
          ∀ k ∈ x.2.bill.uniqueKeys, k ∉ y.2.bill.uniqueKeys :=
        ⟨fun x y hxy k hk hk' => hxy k hk' hk⟩
      have hdisjoint := hpairwise.forall hrows hrows' fun heq => hne (Prod.mk.inj heq).1.symm
      exact hdisjoint (.billReference tenant reference)
        (reference_mem_uniqueKeys htenant hreference hblank)
        (reference_mem_uniqueKeys htenant' hreference' hblank)
  · obtain ⟨rows, hrows, rfl⟩ := (h.returned i b).mp ((hlogged i _).mp hcommitted)
    obtain ⟨hof, -, -⟩ := hcreated i rows call hrows hcall
    refine ⟨rows.items, ?_, h.items _ hrows, hof.total⟩
    rw [← hfor.1]
    exact hof.items

end Runs

/-- For every interleaving of `get_or_create_bill` calls: there is at most one bill for a tenant
and a non-blank reference, every call for it that commits returns this bill, exactly one of them
created it, with its own items and total, and the tables hold the rows of the calls that
returned `created=True` and of no other attempt. -/
theorem bill_creation_idempotent (calls : List BillCall) (start : DB)
    (hstart : start.toBooks.BillTables) (schedule : List Event) :
    (∃ created, CreatedBy calls start
      ((Config.start start (calls.map BillCall.program)).run schedule) created) ∧
    ∀ (tenant : ℕ) (reference : String), reference ≠ "" →
      OneBill calls start ((Config.start start (calls.map BillCall.program)).run schedule)
        tenant reference := by
  have hserial := Config.run_serial (D := billDiscipline)
    (s := start)
    (Q := fun _ a l => a.2 = true → ∀ key ∈ a.1.uniqueKeys, key ∈ l.held) hstart
    (fun i p (hp : (calls.map BillCall.program)[i]? = some p) => by
      obtain ⟨call, -, rfl⟩ := program_get hp
      exact getOrCreateBill_replays call.env call.input start)
    (fun i p a s t hp hs hexec => by
      obtain ⟨call, -, rfl⟩ := program_get hp
      cases getOrCreateBill_exec hs hexec with
      | existing _ => exact ⟨hs, rfl, List.prefix_refl _⟩
      | created hrows hfree =>
          exact ⟨addTo_tables hs hrows hfree, rfl, List.prefix_append _ _⟩)
    (fun i p a l s hp hQ hs hexec k hk => by
      obtain ⟨call, -, rfl⟩ := program_get hp
      have houtcome := getOrCreateBill_exec hs hexec
      generalize l.pend s = t at houtcome
      cases houtcome with
      | existing _ => exact fun h => h
      | created hrows hfree =>
          intro htaken
          rcases taken_addTo.mp htaken with hold | hnew
          · exact hold
          · exact absurd (hQ rfl k hnew) hk)
    schedule
  obtain ⟨log, hrun⟩ := hserial
  obtain ⟨created, hhistory⟩ := billHistory_of_commits hstart hrun.commits
  refine ⟨⟨created, fun i b => ?_, hrun.once.sublist hhistory.sub, hhistory.rows,
    hhistory.store_eq⟩, fun tenant reference hblank => hhistory.oneBill hrun.logged tenant hblank⟩
  rw [hrun.logged i (b, true)]
  exact hhistory.returned i b

/-! ## Two callers of one reference -/

/-- Two systems bill the same invoice, with different items. -/
def sameInvoice : List BillCall :=
  [{ env := envAt 1 (answering .pending "" "")
     input :=
      { tenant := 1
        customerAccount := 1
        items := [⟨"Tuition", ⟨1, 0⟩, ⟨10000, -2⟩⟩]
        externalReference := "INV-1" } },
   { env := envAt 2 (answering .pending "" "")
     input :=
      { tenant := 1
        customerAccount := 1
        items := [⟨"Tuition", ⟨1, 0⟩, ⟨20000, -2⟩⟩]
        externalReference := "INV-1" } }]

/-- Both look the reference up before either inserts its bill. -/
def bothLookedUp : List Event :=
  [.advance 0, .advance 1] ++ List.replicate 40 (.advance 0) ++ List.replicate 40 (.advance 1)

theorem smallInstallation_billTables : smallInstallation.toBooks.BillTables where
  unique := List.Pairwise.nil
  foreign _ hitem := absurd hitem List.not_mem_nil

theorem bill_creation_sameInvoice :
    (∃ created, CreatedBy sameInvoice smallInstallation ((Config.start smallInstallation
      (sameInvoice.map BillCall.program)).run bothLookedUp) created) ∧
    ∀ (tenant : ℕ) (reference : String), reference ≠ "" →
      OneBill sameInvoice smallInstallation ((Config.start smallInstallation
        (sameInvoice.map BillCall.program)).run bothLookedUp) tenant reference :=
  bill_creation_idempotent sameInvoice smallInstallation smallInstallation_billTables bothLookedUp

end Kusanya
