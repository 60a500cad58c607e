import Kusanya.Invariants.BillReplay

/-!
# Control numbers under concurrency

The keys of the control number table and what a transaction that issues, finds or retires
control numbers knows when it commits.  An account's key belongs to its active number only,
so that cancelling and expiring numbers sets keys free and takes none.
-/

namespace Kusanya

open ReadCommitted

/-! ## Keys and fees -/

/-- The keys that the unique constraints of `ControlNumber` make unique. -/
def ControlNumber.uniqueKeys (cn : ControlNumber) : List Resource :=
  .controlNumber cn.id :: .controlNumberValue cn.value ::
    match cn.owner with
    | .bill _ => [.controlNumberOf cn.owner]
    | .customerAccount _ => if cn.status = .active then [.controlNumberOf cn.owner] else []

/-- The creation fees in the ledger for a control number. -/
def Books.creationFees (b : Books) (cn : ℕ) : List LedgerEntry :=
  b.ledger.filter fun e =>
    e.entryType = .platformControlNumberFee && e.source = some (.controlNumber cn)

/-- The creation events of a control number. -/
def Books.creationEvents (b : Books) (cn : ℕ) : List RevenueEvent :=
  b.revenue.filter fun e => e.eventType = .controlNumberCreated && e.source = .controlNumber cn

/-- The control number has been charged for, once. -/
def Books.ChargedOnce (b : Books) (cn : ℕ) : Prop :=
  ∃ entry event, b.creationFees cn = [entry] ∧ b.creationEvents cn = [event] ∧
    entry.amount = controlNumberCreationFee ∧ event.amount = controlNumberCreationFee ∧
    event.ledgerEntry = some entry

/-- The constraints of the control number table, and its fees: one for each row, and none
besides. -/
structure Books.NumberTables (b : Books) : Prop where
  unique : b.controlNumbers.Pairwise fun x y => ∀ k ∈ x.uniqueKeys, k ∉ y.uniqueKeys
  charged : ∀ cn ∈ b.controlNumbers, b.ChargedOnce cn.id
  entries : ∀ e ∈ b.ledger, e.entryType = .platformControlNumberFee →
    ∃ cn ∈ b.controlNumbers, e.source = some (.controlNumber cn.id)
  events : ∀ e ∈ b.revenue, e.eventType = .controlNumberCreated →
    ∃ cn ∈ b.controlNumbers, e.source = .controlNumber cn.id

/-- Some control number has the key. -/
abbrev NumberKeyTaken (k : Resource) (db : DB) : Prop :=
  Taken (fun db : DB => db.controlNumbers) ControlNumber.uniqueKeys k db

/-- The same row, perhaps cancelled or expired since. -/
def ControlNumber.Same (cn row : ControlNumber) : Prop :=
  ∃ status cancelledAt, row = { cn with status, cancelledAt }

theorem ControlNumber.Same.refl (cn : ControlNumber) : cn.Same cn :=
  ⟨cn.status, cn.cancelledAt, rfl⟩

theorem ControlNumber.Same.trans {cn row row' : ControlNumber} (h : cn.Same row)
    (h' : row.Same row') : cn.Same row' := by
  obtain ⟨status, cancelledAt, rfl⟩ := h
  obtain ⟨status', cancelledAt', rfl⟩ := h'
  exact ⟨status', cancelledAt', rfl⟩

/-- Control numbers stay, up to their status. -/
def numberDiscipline : Discipline DB Resource :=
  Discipline.ofKeys (fun db : DB => db.controlNumbers) ControlNumber.uniqueKeys
    (fun db => db.toBooks.NumberTables)
    (fun s t => ∀ cn ∈ s.controlNumbers, ∃ row ∈ t.controlNumbers, cn.Same row)
    (fun _ cn hcn => ⟨cn, hcn, .refl cn⟩)
    fun h h' cn hcn => by
      obtain ⟨row, hrow, hsame⟩ := h cn hcn
      obtain ⟨row', hrow', hsame'⟩ := h' row hrow
      exact ⟨row', hrow', hsame.trans hsame'⟩

theorem controlNumberClash_iff {s : DB} {cn : ControlNumber} (hactive : cn.status = .active) :
    s.toBooks.controlNumberClash cn = true ↔ ∃ k ∈ cn.uniqueKeys, NumberKeyTaken k s := by
  unfold Books.controlNumberClash
  rw [List.any_eq_true]
  constructor
  · rintro ⟨row, hmem, hclash⟩
    simp only [Bool.or_eq_true, decide_eq_true_eq] at hclash
    rcases hclash with (hid | hvalue) | howner
    · refine ⟨.controlNumber cn.id, List.mem_cons_self, row, hmem, ?_⟩
      rw [← hid]
      exact List.mem_cons_self
    · refine ⟨.controlNumberValue cn.value, by simp [ControlNumber.uniqueKeys], row, hmem, ?_⟩
      simp [ControlNumber.uniqueKeys, hvalue]
    · refine ⟨.controlNumberOf cn.owner, ?_, row, hmem, ?_⟩
      · cases hown : cn.owner <;> simp [ControlNumber.uniqueKeys, hown, hactive]
      · cases hown : cn.owner <;> rw [hown] at howner <;>
          simp_all [ControlNumber.uniqueKeys]
  · rintro ⟨k, hk, row, hmem, hrow⟩
    refine ⟨row, hmem, ?_⟩
    unfold ControlNumber.uniqueKeys at hk hrow
    cases hown : cn.owner <;> cases hown' : row.owner <;>
      simp only [hown, hown', hactive, if_true, List.mem_cons, List.not_mem_nil,
        or_false] at hk hrow <;>
      grind

/-! ## What a transaction knows at its end -/

/-- The control number was inserted, with its fee, under keys that are locked and free. -/
structure NumberMade (env : Env) (owner : Owner) (cn : ControlNumber) (l : Local DB Resource) :
    Prop where
  owner_eq : cn.owner = owner
  active : cn.status = .active
  locked : ∀ k ∈ cn.uniqueKeys, k ∈ l.held ∧ ¬NumberKeyTaken k l.last
  writes : ∃ currency, ∀ s, (l.pend s).toBooks = (Move.issue env cn currency).run s.toBooks

/-- A control number of the owner was found; at most its reuse was noted. -/
structure NumberFound (owner : Owner) (cn : ControlNumber) (l : Local DB Resource) : Prop where
  owner_eq : cn.owner = owner
  there : ∃ row ∈ l.last.controlNumbers, cn.Same row
  writes : ∃ events : List RevenueEvent, (∀ e ∈ events, e.eventType = .controlNumberReused) ∧
    ∀ s, (l.pend s).toBooks = { s.toBooks with revenue := s.revenue ++ events }

/-- What a `get_or_create_for_…` returned. -/
def NumberGot (env : Env) (owner : Owner) (a : ControlNumber × Bool) (l : Local DB Resource) :
    Prop :=
  if a.2 then NumberMade env owner a.1 l else NumberFound owner a.1 l

section Calls

variable {l : Local DB Resource} {env : Env} {owner : Owner} {tenant : ℕ}
variable {scope : ControlNumberScope} {expiresAt : Option Time}

theorem getRow_lockFree {α : Type} (what : Resource) (q : DB → Option α) :
    Txn.Only (fun _ => True) (getRow what q) := by
  apply Txn.only_bind (Txn.only_fetch _ _)
  intro row
  cases row with
  | none => exact Txn.only_throw _
  | some row => exact Txn.only_ret row

theorem notifyControlNumberGenerated_lockFree (env : Env) (cn : ControlNumber) :
    Txn.Only (fun _ => True) (notifyControlNumberGenerated env cn) := by
  unfold notifyControlNumberGenerated
  apply Txn.only_bind
  · unfold ownerOf
    split
    · exact Txn.only_bind (getRow_lockFree _ _) fun _ => Txn.only_ret _
    · exact Txn.only_ret _
  · intro found
    apply Txn.only_bind (customerOf_onDirectory _).only
    intro customer
    apply Txn.only_bind (getTenant_onDirectory _).only
    exact fun _ => (sendNotification_onDirectory _ _ _ _ _ _).only

theorem recordControlNumberCreated_lockFree (env : Env) (cn : ControlNumber) :
    Txn.Only (fun _ => True) (recordControlNumberCreated env cn) := by
  apply Txn.only_bind (getTenant_onDirectory _).only
  intro _
  apply Txn.only_bind (postEntry_onDirectory _ _ _ _ _ _ _ _ _ _).only
  exact fun _ => (recordEvent_onDirectory _ _ _ _ _ _ _ _).only

/-- What the savepoint does after its insert. -/
def chargeNumber (env : Env) (tenant : ℕ) (cn : ControlNumber) : Tx ControlNumber := do
  recordAuditEvent env "control_number.created" (some tenant) (some (.controlNumber cn.id))
  recordControlNumberCreated env cn
  notifyControlNumberGenerated env cn
  pure cn

theorem chargeNumber_lockFree (env : Env) (tenant : ℕ) (cn : ControlNumber) :
    Txn.Only (fun _ => True) (chargeNumber env tenant cn) := by
  apply Txn.only_bind (recordAuditEvent_onDirectory _ _ _ _ _ _).only
  intro _
  apply Txn.only_bind (recordControlNumberCreated_lockFree env cn)
  intro _
  exact Txn.only_bind (notifyControlNumberGenerated_lockFree env cn) fun _ => Txn.only_ret cn

theorem wp_chargeNumber {κ : Call → Prop} {φ : Resource → DB → Prop} {pend : DB → DB}
    (env : Env) (tenant : ℕ) (cn : ControlNumber) :
    (chargeNumber env tenant cn).wp κ φ pend
      (fun a pend' => a = cn ∧ ∃ currency, Writes (fun b =>
        (b.post (cn.fee env currency)).record (cn.createdEvent env currency)) pend pend')
      fun _ _ => True := by
  simp only [chargeNumber, Txn.wp_bind]
  refine (recordAuditEvent_onTrail _ _ _ _ _ _).wp (fun _ p₁ h₁ => ?_) fun _ _ _ _ => trivial
  simp only [recordControlNumberCreated, getTenant, Txn.wp_bind, wp_getRow, Txn.pure_eq_ret,
    Txn.wp_ret]
  intro v _
  refine ⟨fun row _ => ?_, fun _ => trivial⟩
  refine wp_postEntry trivial (wp_recordEvent trivial ?_)
  refine (notifyControlNumberGenerated_onTrail _ _).wp (fun _ p₂ h₂ => ?_) fun _ _ _ _ => trivial
  exact ⟨trivial, row.defaultCurrency, (Writes.after_core h₁ (writes_inBooks _ p₁)).then_core h₂⟩

/-- The savepoint of an attempt. -/
theorem createControlNumber_lwp (hpend : l.pend = id) (k : ℕ) :
    (createControlNumber env tenant owner scope expiresAt k).lwp numberDiscipline l
      (NumberMade env owner) fun _ _ => True := by
  change Txn.lwp numberDiscipline (do
    insertControlNumber _
    chargeNumber env tenant _) l _ _
  generalize hcn : (ControlNumber.mk (env.gen.controlNumberId k) tenant
    (env.gen.controlNumberValue k) scope .active owner expiresAt none env.actor) = cn
  have howner : cn.owner = owner := by rw [← hcn]
  have hactive : cn.status = .active := by rw [← hcn]
  rw [Txn.lwp_bind]
  unfold insertControlNumber
  simp only [Txn.lwp_bind, Txn.lwp_acquire, Txn.lwp_fetch]
  intro s₁ h₁ s₂ h₂ s₃ h₃ s h
  unfold raiseIf
  rw [Txn.lwp_ite]
  refine ⟨fun _ => trivial, fun hclash => ?_⟩
  rw [hpend, id_eq] at hclash
  have hfree : ∀ k ∈ cn.uniqueKeys, ¬NumberKeyTaken k s := fun k hk htaken =>
    hclash ((controlNumberClash_iff hactive).mpr ⟨k, hk, htaken⟩)
  change Txn.lwp numberDiscipline (chargeNumber env tenant cn) _ _ _
  refine Txn.lwp_consequence ((chargeNumber_lockFree env tenant cn).lwp (κ := fun _ => True)
    (φ := fun _ _ => True) h.inv (fun _ _ _ _ => trivial) (wp_chargeNumber env tenant cn))
    (fun a l' hl' => ?_) fun _ _ _ => trivial
  obtain ⟨⟨rfl, currency, hwrites⟩, hheld, hsees⟩ := hl'
  refine ⟨howner, hactive, fun k hk => ?_, currency, fun t => ?_⟩
  · have hin : k ∈ l'.held := by
      rw [hheld]
      unfold ControlNumber.uniqueKeys at hk
      cases hown : a.owner <;>
        simp only [hown, hactive, if_true, List.mem_cons, List.not_mem_nil, or_false] at hk ⊢ <;>
        grind
    exact ⟨hin, fun htaken => hfree k hk (hsees.keeps k (hheld ▸ hin) htaken)⟩
  · have hbooks := congrArg Prod.snd (hwrites t)
    rw [hpend] at hbooks
    exact hbooks

theorem createControlNumber_noRelease (env : Env) (tenant : ℕ) (owner : Owner)
    (scope : ControlNumberScope) (expiresAt : Option Time) (k : ℕ) :
    (createControlNumber env tenant owner scope expiresAt k).NoRelease := by
  change Txn.NoRelease (do
    insertControlNumber _
    chargeNumber env tenant _)
  apply Txn.noRelease_bind
  · refine Txn.noRelease_bind trivial fun _ => Txn.noRelease_bind trivial fun _ => ?_
    refine Txn.noRelease_bind trivial fun _ => Txn.noRelease_bind (fun _ => trivial) fun _ => ?_
    refine Txn.noRelease_bind ?_ fun _ => trivial
    unfold raiseIf
    split <;> trivial
  · exact fun _ => (chargeNumber_lockFree _ _ _).noRelease

/-- A query for a control number of the owner. -/
structure LooksUp (owner : Owner) (lookup : Tx (Option ControlNumber)) : Prop where
  fetches : ∃ (what : Resource) (q : DB → Option ControlNumber), lookup = .fetch what q ∧
    ∀ s cn, q s = some cn → cn ∈ s.controlNumbers ∧ cn.owner = owner

theorem controlNumberOfBill_looksUp (bill : ℕ) :
    LooksUp (.bill bill) (controlNumberOfBill bill) := by
  refine ⟨_, _, rfl, fun s cn hcn => ?_⟩
  have hfound := List.find?_some hcn
  exact ⟨List.mem_of_find?_eq_some hcn, of_decide_eq_true hfound⟩

theorem activeControlNumberOf_looksUp (account : ℕ) :
    LooksUp (.customerAccount account) (activeControlNumberOf account) := by
  refine ⟨_, _, rfl, fun s cn hcn => ?_⟩
  have hfound := List.find?_some hcn
  simp only [Bool.and_eq_true, decide_eq_true_eq] at hfound
  exact ⟨List.mem_of_find?_eq_some hcn, hfound.1⟩

variable {lookup : Tx (Option ControlNumber)}

theorem controlNumberAttempts_lwp (hlookup : LooksUp owner lookup) (left k : ℕ)
    (hpend : l.pend = id) :
    (controlNumberAttempts env lookup (createControlNumber env tenant owner scope expiresAt)
      k left).lwp numberDiscipline l (NumberGot env owner) fun _ _ => True := by
  induction left generalizing k l with
  | zero => trivial
  | succ left ih =>
      unfold controlNumberAttempts
      rw [Txn.lwp_bind]
      refine Txn.lwp_tryAtomic (createControlNumber_noRelease env tenant owner scope expiresAt k)
        (Txn.lwp_consequence (createControlNumber_lwp hpend k) (fun cn l' h => h)
          fun e l' _ => ?_)
      split
      · -- lost the race, or the value is in use
        obtain ⟨what, q, rfl, hq⟩ := hlookup.fetches
        dsimp only
        rw [Txn.lwp_bind, Txn.lwp_fetch]
        intro s hs
        cases hfound : q (l.pend s) with
        | none => exact ih (k + 1) hpend
        | some existing =>
            rw [hpend] at hfound
            obtain ⟨hmem, howner⟩ := hq s existing hfound
            refine ⟨howner, ⟨existing, hmem, .refl existing⟩, [], by simp, fun t => ?_⟩
            change (l.pend t).toBooks = _
            rw [hpend, List.append_nil]
            rfl
      · trivial

/-- `get_or_create_for_bill` and `get_or_create_for_account`. -/
theorem getOrCreateControlNumber_lwp (hlookup : LooksUp owner lookup) (hpend : l.pend = id) :
    (getOrCreateControlNumber env tenant lookup
      (createControlNumber env tenant owner scope expiresAt)).lwp numberDiscipline l
      (NumberGot env owner) fun _ _ => True := by
  have hlookup' := hlookup
  obtain ⟨what, q, rfl, hq⟩ := hlookup.fetches
  unfold getOrCreateControlNumber
  rw [Txn.lwp_bind, Txn.lwp_fetch]
  intro s hs
  cases hfound : q (l.pend s) with
  | none => exact controlNumberAttempts_lwp hlookup' 5 0 hpend
  | some existing =>
      rw [hpend] at hfound
      obtain ⟨hmem, howner⟩ := hq s existing hfound
      dsimp only
      -- the rest takes no locks and notes the reuse
      have hlockFree : Txn.Only (fun _ => True) (do
          recordAuditEvent env "control_number.reused" (some tenant)
            (some (.controlNumber existing.id))
          recordControlNumberReused env existing
          pure (existing, false) : Tx (ControlNumber × Bool)) := by
        refine Txn.only_bind (recordAuditEvent_onDirectory _ _ _ _ _ _).only fun _ => ?_
        refine Txn.only_bind ?_ fun _ => Txn.only_ret _
        exact Txn.only_bind (getTenant_onDirectory _).only fun _ =>
          (recordEvent_onDirectory _ _ _ _ _ _ _ _).only
      have hwp : Txn.wp (fun _ => True) (fun _ _ => True) (do
          recordAuditEvent env "control_number.reused" (some tenant)
            (some (.controlNumber existing.id))
          recordControlNumberReused env existing
          pure (existing, false) : Tx (ControlNumber × Bool)) l.pend
          (fun a pend' => a = (existing, false) ∧ ∃ event : RevenueEvent,
            event.eventType = .controlNumberReused ∧ Writes (·.record event) l.pend pend')
          fun _ _ => True := by
        simp only [Txn.wp_bind]
        refine (recordAuditEvent_onTrail _ _ _ _ _ _).wp (fun _ p₁ h₁ => ?_)
          fun _ _ _ _ => trivial
        simp only [recordControlNumberReused, getTenant, Txn.wp_bind, wp_getRow, Txn.pure_eq_ret,
          Txn.wp_ret]
        intro v _
        refine ⟨fun row _ => ?_, fun _ => trivial⟩
        refine wp_recordEvent trivial ?_
        exact ⟨trivial, _, rfl, Writes.after_core h₁ (writes_inBooks _ p₁)⟩
      refine Txn.lwp_consequence (hlockFree.lwp (l := { l with last := s }) hs.inv
        (fun _ _ _ _ => trivial) hwp) (fun a l' hl' => ?_) fun _ _ _ => trivial
      obtain ⟨⟨rfl, event, hevent, hwrites⟩, -, hsees⟩ := hl'
      refine ⟨howner, hsees.evolves existing hmem, [event], by simpa using hevent, fun t => ?_⟩
      have hbooks := congrArg Prod.snd (hwrites t)
      rw [hpend] at hbooks
      exact hbooks

end Calls

end Kusanya
