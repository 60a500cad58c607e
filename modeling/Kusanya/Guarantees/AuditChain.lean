import Kusanya.Invariants.AuditChain

/-!
# Completeness of the audit chain

`save` links a record to the latest row and `verify_chain` walks the rows in the order
of `(created_at, id)`.  The two agree exactly when every row stored is above all rows
before it, which a clock that repeats a timestamp leaves to the random ids, and when
`jsonb` gives the hashed JSON back as it was.
-/

namespace Kusanya.Audit

open Support HashChain

/-- SHA-256 is injective on these strings. -/
def HashInjective (inputs : List Text) : Prop :=
  ∀ a ∈ inputs, ∀ b ∈ inputs, sha256 a = sha256 b → a = b

instance (inputs : List Text) : Decidable (HashInjective inputs) :=
  inferInstanceAs (Decidable (∀ a ∈ inputs, ∀ b ∈ inputs, sha256 a = sha256 b → a = b))

theorem HashInjective.mono {inputs inputs' : List Text} (h : HashInjective inputs)
    (hsubset : inputs' ⊆ inputs) : HashInjective inputs' :=
  fun a ha b hb => h a (hsubset ha) b (hsubset hb)

/-- No two of the strings share a hash, and none has the genesis value. -/
def CollisionFree (inputs : List Text) : Prop :=
  HashInjective inputs ∧ ∀ a ∈ inputs, sha256 a ≠ genesisHash

instance (inputs : List Text) : Decidable (CollisionFree inputs) :=
  inferInstanceAs (Decidable (_ ∧ _))

/-- The strings that `verify_chain` hashes. -/
def AuditTable.recomputedInputs (table : AuditTable) : List Text :=
  table.rows.map AuditLog.hashInput

/-- The records that the columns take come in the order of their keys, and `jsonb` keeps
their JSON. -/
def Orderly (isAddress : Text → Bool) (records : List AuditLog) : Prop :=
  (records.filter (·.labelled.isStorable isAddress)).Pairwise (·.key < ·.key) ∧
    ∀ record ∈ records, record.labelled.isStorable isAddress = true → record.isKept = true

/-! ## Orderly isAddress records are verified -/

theorem Intact.attempt {table : AuditTable} (h : Intact table) {record : AuditLog}
    (hrecord : record.labelled.isStorable isAddress = true →
      (∀ row ∈ table.rows, row.key < record.key) ∧ record.isKept = true) :
    Intact (table.attempt isAddress record) := by
  unfold AuditTable.attempt
  cases hsave : table.save isAddress record with
  | error e => exact h
  | ok table' =>
      obtain ⟨hstorable, -⟩ := AuditTable.save_ok hsave
      obtain ⟨habove, hkept⟩ := hrecord hstorable
      exact h.save habove hkept hsave

/-- The rows after an attempt are those before it and, at most, the record. -/
theorem AuditTable.attempt_rows (isAddress : Text → Bool) (table : AuditTable) (record : AuditLog) :
    (table.attempt isAddress record).rows = table.rows ∨
      record.labelled.isStorable isAddress = true ∧
        (table.attempt isAddress record).rows = table.rows ++ [(table.chain record).reread] := by
  unfold AuditTable.attempt
  cases hsave : table.save isAddress record with
  | error e => exact Or.inl rfl
  | ok table' => exact Or.inr (AuditTable.save_ok hsave)

theorem Intact.attempts {table : AuditTable} (h : Intact table) {records : List AuditLog}
    (horderly : Orderly isAddress records)
    (habove : ∀ row ∈ table.rows, ∀ record ∈ records, record.labelled.isStorable isAddress = true →
      row.key < record.key) :
    Intact (records.foldl (AuditTable.attempt isAddress) table) := by
  induction records generalizing table with
  | nil => exact h
  | cons record records ih =>
      obtain ⟨hincreasing, hkept⟩ := horderly
      have hrest : Orderly isAddress records :=
        ⟨hincreasing.sublist ((List.sublist_cons_self _ _).filter _),
          fun r hr => hkept r (List.mem_cons_of_mem _ hr)⟩
      refine ih (h.attempt fun hstorable => ?_) hrest ?_
      · exact ⟨fun row hrow => habove row hrow record List.mem_cons_self hstorable,
          hkept record List.mem_cons_self hstorable⟩
      · intro row hrow later hlater hstorable'
        rcases table.attempt_rows isAddress record with hrows | ⟨hstorable, hrows⟩
        · rw [hrows] at hrow
          exact habove row hrow later (List.mem_cons_of_mem _ hlater) hstorable'
        · rw [hrows] at hrow
          rcases List.mem_append.mp hrow with hrow | hrow
          · exact habove row hrow later (List.mem_cons_of_mem _ hlater) hstorable'
          · rw [List.mem_singleton.mp hrow]
            rw [List.filter_cons_of_pos (by simpa using hstorable), List.pairwise_cons]
              at hincreasing
            exact hincreasing.1 later
              (List.mem_filter.mpr ⟨hlater, by simpa using hstorable'⟩)

/-! ## Verified records are orderly -/

/-- Where the keys increase and no hashes collide, no new record repeats a hash. -/
theorem Grown.recordHash_fresh {inputs : List Text} {table : AuditTable} (h : Grown inputs table)
    (hfree : CollisionFree inputs) (hincreasing : table.rows.Pairwise (·.key < ·.key))
    {record : AuditLog} (hinput : (table.chain record).hashInput ∈ inputs) :
    ∀ row ∈ table.rows, row.recordHash ≠ (table.chain record).recordHash := by
  intro row hrow heq
  obtain ⟨sent, hsent, hhash, hmem⟩ := h.sent row hrow
  have hsame : sent.hashInput = (table.chain record).hashInput :=
    hfree.1 _ hmem _ hinput (hhash.symm.trans heq)
  have hlength : sent.previousHash.length = (table.chain record).previousHash.length := by
    have hsent_length : sent.previousHash.length = 64 := by
      have hlength := h.length_previousHash hrow
      rwa [hsent] at hlength
    have hchain_length : (table.chain record).previousHash.length = 64 :=
      length_latestHash fun r hr => h.length_recordHash hr
    rw [hsent_length, hchain_length]
  -- both name the latest row of the table, but `row` was written before it
  have hprev : row.previousHash = latestHash table.rows := by
    rw [hsent]
    exact (hashInput_inj hlength hsame).1
  obtain ⟨before, behind, hrows⟩ := List.append_of_mem hrow
  rw [h.prev before row behind hrows] at hprev
  obtain ⟨m, hm⟩ := latest_ne_nil (List.ne_nil_of_mem hrow)
  obtain ⟨hm_mem, hm_max⟩ := latest_spec hm
  have hlatest : latestHash table.rows = m.recordHash := by
    rw [latestHash, hm]
  rw [hlatest] at hprev
  cases hbefore : latest before with
  | none =>
      rw [latestHash, hbefore] at hprev
      obtain ⟨sent', -, hhash', hmem'⟩ := h.sent m hm_mem
      exact hfree.2 _ hmem' (hhash'.symm.trans hprev.symm)
  | some m' =>
      rw [latestHash, hbefore] at hprev
      obtain ⟨hm'_mem, -⟩ := latest_spec hbefore
      have hm' : m' ∈ table.rows := by
        rw [hrows]
        exact List.mem_append_left _ hm'_mem
      have hmm : m' = m := eq_of_key table.hash_unique hm' hm_mem hprev
      rw [hrows] at hincreasing
      have hlt := (List.pairwise_append.mp hincreasing).2.2 m' hm'_mem row List.mem_cons_self
      rw [hmm] at hlt
      exact absurd (hm_max row hrow) (not_le_of_gt hlt)

theorem attempts_extend (isAddress : Text → Bool) (table : AuditTable) (records : List AuditLog) :
    table.rows <+: (records.foldl (AuditTable.attempt isAddress) table).rows := by
  induction records generalizing table with
  | nil => exact List.prefix_rfl
  | cons record records ih =>
      refine List.IsPrefix.trans ?_ (ih (table.attempt isAddress record))
      rcases table.attempt_rows isAddress record with hrows | ⟨-, hrows⟩
      · rw [hrows]
      · rw [hrows]
        exact List.prefix_append _ _

/-- A stored row and the record that it was made of. -/
def StoredAs (inputs : List Text) (record row : AuditLog) : Prop :=
  ∃ table : AuditTable, row = (table.chain record).reread ∧
    (table.chain record).hashInput ∈ inputs

/-- When the rows end up in the order of their keys, every record that the columns take has
been stored. -/
theorem Grown.stored {inputs : List Text} {table : AuditTable} (h : Grown inputs table)
    (hfree : CollisionFree inputs) {records : List AuditLog}
    (hinputs : savedInputs isAddress table records ⊆ inputs)
    (hids : (table.rows.map (·.id) ++ records.map (·.id)).Nodup)
    (hincreasing :
      (records.foldl (AuditTable.attempt isAddress) table).rows.Pairwise (·.key < ·.key)) :
    ∃ new, (records.foldl (AuditTable.attempt isAddress) table).rows = table.rows ++ new ∧
      List.Forall₂ (StoredAs inputs) (records.filter (·.labelled.isStorable isAddress)) new := by
  induction records generalizing table with
  | nil => exact ⟨[], (List.append_nil _).symm, List.Forall₂.nil⟩
  | cons record records ih =>
      rw [savedInputs, List.cons_subset] at hinputs
      have hnow : table.rows.Pairwise (·.key < ·.key) :=
        hincreasing.sublist (attempts_extend isAddress table (record :: records)).sublist
      rw [List.map_cons, List.nodup_append] at hids
      obtain ⟨hids_rows, hids_records, hids_disjoint⟩ := hids
      rw [List.nodup_cons] at hids_records
      have hgrown : Grown inputs (table.attempt isAddress record) := h.attempt hinputs.1
      have hsaved : record.labelled.isStorable isAddress = true →
          (table.attempt isAddress record).rows = table.rows ++ [(table.chain record).reread] := by
        intro hstorable
        rcases table.insert_cases isAddress (table.chain record) with
          ⟨hno, -⟩ | ⟨⟨row, hrow, hclash⟩, -⟩ | ⟨table', hins, -, hrows⟩
        · exact absurd (hno.symm.trans hstorable) (by decide)
        · exfalso
          rcases hclash with hid | hhash
          · exact hids_disjoint _ (List.mem_map_of_mem hrow) _ List.mem_cons_self hid
          · exact h.recordHash_fresh hfree hnow hinputs.1 row hrow hhash
        · have hsave : table.save isAddress record = .ok table' := hins
          rw [AuditTable.attempt, hsave]
          exact hrows
      by_cases hstorable : record.labelled.isStorable isAddress = true
      · have hrows := hsaved hstorable
        obtain ⟨new, hnew, hstored⟩ := ih hgrown hinputs.2 (by
          rw [hrows, List.map_append, List.append_assoc]
          refine List.nodup_append.mpr ⟨hids_rows, List.nodup_cons.mpr hids_records, ?_⟩
          exact hids_disjoint) hincreasing
        refine ⟨(table.chain record).reread :: new, ?_, ?_⟩
        · rw [List.foldl_cons, hnew, hrows, List.append_assoc]
          rfl
        · rw [List.filter_cons_of_pos (by simpa using hstorable)]
          exact List.Forall₂.cons ⟨table, rfl, hinputs.1⟩ hstored
      · have hrows : (table.attempt isAddress record).rows = table.rows := by
          rcases table.attempt_rows isAddress record with hrows | ⟨hyes, -⟩
          · exact hrows
          · exact absurd hyes hstorable
        obtain ⟨new, hnew, hstored⟩ := ih hgrown hinputs.2 (by
          rw [hrows]
          refine List.nodup_append.mpr ⟨hids_rows, hids_records.2, ?_⟩
          exact fun a ha b hb => hids_disjoint a ha b (List.mem_cons_of_mem _ hb)) hincreasing
        refine ⟨new, ?_, ?_⟩
        · rw [List.foldl_cons, hnew, hrows]
        · rwa [List.filter_cons_of_neg (by simpa using hstorable)]

theorem StoredAs.key {inputs : List Text} {record row : AuditLog}
    (h : StoredAs inputs record row) : row.key = record.key := by
  obtain ⟨table, rfl, -⟩ := h
  rfl

/-- A row whose hash is confirmed was written from JSON that `jsonb` keeps. -/
theorem StoredAs.isKept {inputs : List Text} (hinj : HashInjective inputs)
    {record row : AuditLog} (h : StoredAs inputs record row) (hrow : row.hashInput ∈ inputs)
    (hhash : sha256 row.hashInput = row.recordHash) : record.isKept = true := by
  obtain ⟨table, rfl, hinput⟩ := h
  have hsame := hinj _ hrow _ hinput hhash
  have hlength : (table.chain record).reread.previousHash.length =
      (table.chain record).previousHash.length := rfl
  have hpayload := (hashInput_inj hlength hsame).2
  exact (canonicalPayload_reread (table.chain record)).mp hpayload

theorem recordAuditEvents_eq (isAddress : Text → Bool) (calls : List Call) :
    recordAuditEvents isAddress calls =
      (calls.map Call.record).foldl (AuditTable.attempt isAddress) AuditTable.empty := by
  rw [List.foldl_map]
  rfl

def newYear : DateTime where
  year := 2026
  month := 1
  day := 1
  hour := 0
  minute := 0
  second := 0
  microsecond := 0
  date := by decide
  time := by decide

/-- `record_audit_event(action="x")` by the system at `newYear`. -/
def call (id : Uuid) (metadata : Json) : Call where
  id := id
  now := newYear
  correlationId := ['-']
  ipAddress := none
  userAgent := []
  action := ['x']
  actor := none
  tenant := none
  target := none
  before := .null
  after := .null
  metadata := metadata

end Kusanya.Audit
