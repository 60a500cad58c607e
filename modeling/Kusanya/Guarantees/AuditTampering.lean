import Kusanya.Guarantees.AuditChain

/-!
# Tamper evidence of the audit chain

A log written under a strictly increasing clock, and any table whose record hashes all
occur in it: if `verify_chain` accepts the table, the table agrees with the beginning of
the log on every hashed field.
-/

namespace Kusanya.Audit

open Support HashChain

/-- The rows of `table`, in the order of verification, are those at the beginning of `log`
as far as the hashes cover them. -/
def PrefixOf (table log : AuditTable) : Prop :=
  table.ordered.map AuditLog.hashedFields <+: log.ordered.map AuditLog.hashedFields

/-- The log is accepted, also without its users, and every accepted table made of its
record hashes is a prefix of it, as long as SHA-256 does not collide. -/
def TamperEvident (isAddress : Text → Bool) (records : List AuditLog) (log : AuditTable) :
    Prop :=
  (∀ users : Uuid → Bool, (log.deleteUsers users).verifyChain = (true, none)) ∧
    ∀ table : AuditTable, (∀ row ∈ table.rows, row.recordHash ∈ log.rows.map (·.recordHash)) →
      HashInjective (savedInputs isAddress AuditTable.empty records ++ table.recomputedInputs) →
      table.verifyChain = (true, none) → PrefixOf table log

/-! ## Logs that `save` has written -/

variable {isAddress : Text → Bool}

/-- Every record that was saved without an error has its row. -/
theorem saveAll_ok {inputs : List Text} {table log : AuditTable} {records : List AuditLog}
    (hinputs : savedInputs isAddress table records ⊆ inputs)
    (h : table.saveAll isAddress records = .ok log) :
    records.foldl (AuditTable.attempt isAddress) table = log ∧
      ∃ new, log.rows = table.rows ++ new ∧ List.Forall₂ (StoredAs inputs) records new := by
  induction records generalizing table with
  | nil =>
      obtain rfl := Except.ok.inj h
      exact ⟨rfl, [], (List.append_nil _).symm, List.Forall₂.nil⟩
  | cons record records ih =>
      rw [savedInputs, List.cons_subset] at hinputs
      cases hsave : table.save isAddress record with
      | error e =>
          simp [AuditTable.saveAll, hsave, bind, Except.bind] at h
      | ok table' =>
          have hattempt : table.attempt isAddress record = table' := by
            rw [AuditTable.attempt, hsave]
            rfl
          have hrest : table'.saveAll isAddress records = .ok log := by
            simpa [AuditTable.saveAll, hsave, bind, Except.bind] using h
          rw [hattempt] at hinputs
          obtain ⟨hlog, new, hnew, hstored⟩ := ih hinputs.2 hrest
          obtain ⟨-, hrows⟩ := AuditTable.save_ok hsave
          refine ⟨by rw [List.foldl_cons, hattempt, hlog], _ :: new, ?_,
            List.Forall₂.cons ⟨table, rfl, hinputs.1⟩ hstored⟩
          rw [hnew, hrows, List.append_assoc]
          rfl

theorem StoredAs.createdAt {inputs : List Text} {record row : AuditLog}
    (h : StoredAs inputs record row) : record.createdAt = row.createdAt := by
  obtain ⟨table, rfl, -⟩ := h
  rfl

theorem key_lt {a b : AuditLog} (h : a.createdAt < b.createdAt) : a.key < b.key :=
  Prod.Lex.toLex_lt_toLex.mpr (Or.inl h)

/-- What is known of a log saved under a strictly increasing clock. -/
structure SavedInOrder (isAddress : Text → Bool) (records : List AuditLog) (log : AuditTable) :
    Prop where
  attempts : records.foldl (AuditTable.attempt isAddress) AuditTable.empty = log
  stored : List.Forall₂ (StoredAs (savedInputs isAddress AuditTable.empty records)) records log.rows
  clock : records.Pairwise (·.createdAt < ·.createdAt)

theorem SavedInOrder.of_saveAll {records : List AuditLog} {log : AuditTable}
    (hsaved : AuditTable.empty.saveAll isAddress records = .ok log)
    (hclock : (records.map (·.createdAt)).Pairwise (· < ·)) :
    SavedInOrder isAddress records log := by
  obtain ⟨hlog, new, hnew, hstored⟩ := saveAll_ok (List.Subset.refl _) hsaved
  constructor
  · exact hlog
  · rw [hnew]
    exact hstored
  · exact List.pairwise_map.mp hclock

namespace SavedInOrder

variable {records : List AuditLog} {log : AuditTable}

theorem grown (h : SavedInOrder isAddress records log) :
    Grown (savedInputs isAddress AuditTable.empty records) log := by
  have hgrown := (Grown.empty _).attempts
    (List.Subset.refl (savedInputs isAddress AuditTable.empty records))
  rwa [h.attempts] at hgrown

theorem rows_clock (h : SavedInOrder isAddress records log) :
    log.rows.Pairwise (·.createdAt < ·.createdAt) := by
  have htimes : records.map (·.createdAt) = log.rows.map (·.createdAt) := by
    refine List.forall₂_eq_eq_eq ▸ ?_
    exact List.forall₂_map_left_iff.mpr (List.forall₂_map_right_iff.mpr
      (h.stored.imp fun _ _ hrow => hrow.createdAt))
  have hclock := List.pairwise_map.mpr h.clock
  rw [htimes] at hclock
  exact List.pairwise_map.mp hclock

/-- If `jsonb` keeps every record, the log is intact. -/
theorem intact (h : SavedInOrder isAddress records log)
    (hkept : ∀ record ∈ records, record.isKept = true) :
    Intact log := by
  have horderly : Orderly isAddress records :=
    ⟨(h.clock.imp key_lt).filter _, fun record hrecord _ => hkept record hrecord⟩
  have hempty : ∀ row ∈ AuditTable.empty.rows, ∀ record ∈ records,
      record.labelled.isStorable isAddress = true → row.key < record.key := by
    intro row hrow
    cases hrow
  rw [← h.attempts]
  exact Intact.empty.attempts horderly hempty

/-! ## Acceptance -/

/-- An accepted log was written from records that `jsonb` keeps. -/
theorem kept_of_verified (h : SavedInOrder isAddress records log)
    (hinj : HashInjective (savedInputs isAddress AuditTable.empty records ++ log.recomputedInputs))
    (hverified : (log.deleteUsers fun _ => false).verifyChain = (true, none)) :
    ∀ record ∈ records, record.isKept = true := by
  intro record hrecord
  obtain ⟨row, hrow, table, hrow_eq, hinput⟩ := exists_of_forall₂ h.stored.flip hrecord
  have hhash : sha256 row.hashInput = row.recordHash :=
    (AuditTable.verifyChain_iff.mp hverified).2 (AuditLog.forgetActor (fun _ => false) row)
      (List.mem_map_of_mem hrow)
  exact StoredAs.isKept hinj ⟨table, hrow_eq, List.mem_append_left _ hinput⟩
    (List.mem_append_right _ (List.mem_map_of_mem hrow)) hhash

/-! ## Accepted tables are prefixes -/

/-- In an accepted table made of the hashes of the log, each row stands for a row of the
log with the same hashes and the same hashed fields. -/
theorem matched (h : SavedInOrder isAddress records log) (hintact : Intact log)
    (hinj : HashInjective (savedInputs isAddress AuditTable.empty records ++ log.recomputedInputs))
    {table : AuditTable}
    (hhashes : ∀ row ∈ table.rows, row.recordHash ∈ log.rows.map (·.recordHash))
    (hinj' :
      HashInjective (savedInputs isAddress AuditTable.empty records ++ table.recomputedInputs))
    (hverified : table.verifyChain = (true, none)) :
    ∀ row' ∈ table.ordered, ∃ row ∈ log.rows, row.recordHash = row'.recordHash ∧
      row.previousHash = row'.previousHash ∧ row'.hashedFields = row.hashedFields := by
  intro row' hrow'
  obtain ⟨hlinked', hhashed'⟩ := AuditTable.verifyChain_iff.mp hverified
  have hmem' := table.mem_ordered.mp hrow'
  obtain ⟨row, hrow, hhash⟩ := List.mem_map.mp (hhashes row' hmem')
  obtain ⟨sent, -, hsent_hash, hsent_mem⟩ := h.grown.sent row hrow
  have hsent : row.hashInput = sent.hashInput :=
    hinj _ (List.mem_append_right _ (List.mem_map_of_mem hrow)) _
      (List.mem_append_left _ hsent_mem) ((hintact.hashed row hrow).trans hsent_hash)
  have hsent' : row'.hashInput = sent.hashInput :=
    hinj' _ (List.mem_append_right _ (List.mem_map_of_mem hmem')) _
      (List.mem_append_left _ hsent_mem)
      ((hhashed' row' hmem').trans (hhash.symm.trans hsent_hash))
  -- both predecessors' hashes have 64 characters
  have hlength' : row'.previousHash.length = 64 := by
    rcases hlinked'.prev_mem hrow' with hstart | hmem
    · rw [hstart]
      rfl
    · obtain ⟨p, hp, hp_hash⟩ := List.mem_map.mp hmem
      obtain ⟨q, hq, hq_hash⟩ := List.mem_map.mp (hhashes p (table.mem_ordered.mp hp))
      rw [← hp_hash, ← hq_hash]
      exact h.grown.length_recordHash hq
  have hlength : row.previousHash.length = 64 := h.grown.length_previousHash hrow
  obtain ⟨hprev, hpayload⟩ := hashInput_inj (hlength'.trans hlength.symm)
    (hsent'.trans hsent.symm)
  exact ⟨row, hrow, hhash, hprev.symm, hashedFields_eq hpayload⟩

theorem prefixOf (h : SavedInOrder isAddress records log) (hintact : Intact log)
    (hgenesis : genesisHash ∉ (log.rows.map (·.recordHash)).dropLast)
    (hinj : HashInjective (savedInputs isAddress AuditTable.empty records ++ log.recomputedInputs))
    {table : AuditTable}
    (hhashes : ∀ row ∈ table.rows, row.recordHash ∈ log.rows.map (·.recordHash))
    (hinj' :
      HashInjective (savedInputs isAddress AuditTable.empty records ++ table.recomputedInputs))
    (hverified : table.verifyChain = (true, none)) : PrefixOf table log := by
  have hunique : (table.ordered.map (·.recordHash)).Nodup :=
    (table.ordered_perm.map _).nodup_iff.mpr table.hash_unique
  obtain ⟨k, hk⟩ := hintact.linked.prefix_of_matched
    (AuditTable.verifyChain_iff.mp hverified).1 log.hash_unique hgenesis hunique
    (h.matched hintact hinj hhashes hinj' hverified)
  have hfields : table.ordered.map AuditLog.hashedFields =
      (log.rows.take k).map AuditLog.hashedFields := by
    refine List.forall₂_eq_eq_eq ▸ ?_
    exact List.forall₂_map_left_iff.mpr (List.forall₂_map_right_iff.mpr hk)
  rw [PrefixOf, AuditTable.ordered_eq hintact.increasing, hfields]
  exact (List.take_prefix k log.rows).map _

/-! ## A record that hashes to the genesis value -/

/-- The rows behind a record hashed to the genesis value are a log of their own. -/
theorem genesis_notMem (h : SavedInOrder isAddress records log) (hintact : Intact log)
    (hinj : HashInjective (savedInputs isAddress AuditTable.empty records ++ log.recomputedInputs))
    (hevident : TamperEvident isAddress records log) :
    genesisHash ∉ (log.rows.map (·.recordHash)).dropLast := by
  intro hmem
  obtain ⟨init, last, hrows⟩ : ∃ init last, log.rows = init ++ [last] := by
    rcases List.eq_nil_or_concat log.rows with hnil | ⟨init, last, hconcat⟩
    · rw [hnil] at hmem
      cases hmem
    · exact ⟨init, last, hconcat.trans (List.concat_eq_append ..)⟩
  rw [hrows, List.map_append, List.map_singleton, List.dropLast_concat] at hmem
  obtain ⟨x, hx, hgenesis⟩ := List.mem_map.mp hmem
  obtain ⟨before, middle, rfl⟩ := List.append_of_mem hx
  have hsplit : log.rows = (before ++ [x]) ++ (middle ++ [last]) := by
    rw [hrows]
    simp
  have hsublist : (middle ++ [last]).Sublist log.rows := by
    rw [hsplit]
    exact List.sublist_append_right _ _
  let table : AuditTable :=
    { rows := middle ++ [last]
      id_unique := log.id_unique.sublist (hsublist.map _)
      hash_unique := log.hash_unique.sublist (hsublist.map _)
      kept := fun row hrow => log.kept row (hsublist.subset hrow) }
  have htable : Intact table := by
    constructor
    · exact hintact.increasing.sublist hsublist
    · have hlinked := hintact.linked
      rw [hsplit] at hlinked
      have hrest := Linked.append_right hlinked
      rw [List.getLast?_concat, Option.map_some, Option.getD_some, hgenesis] at hrest
      exact hrest
    · exact fun row hrow => hintact.hashed row (hsublist.subset hrow)
  have hinputs : savedInputs isAddress AuditTable.empty records ++ table.recomputedInputs ⊆
      savedInputs isAddress AuditTable.empty records ++ log.recomputedInputs :=
    (List.Sublist.append_left (hsublist.map _) _).subset
  have hprefix := hevident.2 table
    (fun row hrow => List.mem_map_of_mem (hsublist.subset hrow))
    (hinj.mono hinputs) htable.verifyChain
  rw [PrefixOf, AuditTable.ordered_eq htable.increasing,
    AuditTable.ordered_eq hintact.increasing] at hprefix
  -- the first row behind `x` would have to be the first of the log
  obtain ⟨first, rest, hfirst⟩ := List.exists_cons_of_ne_nil (l := middle ++ [last]) (by simp)
  obtain ⟨q, rest', hq⟩ := List.exists_cons_of_ne_nil (l := before ++ [x]) (by simp)
  have hfields : first.hashedFields = q.hashedFields := by
    rw [show table.rows = first :: rest from hfirst, hsplit, hq] at hprefix
    exact (List.cons_prefix_cons.mp hprefix).1
  have hclock := h.rows_clock
  rw [hsplit] at hclock
  have hlt := (List.pairwise_append.mp hclock).2.2 q (hq ▸ List.mem_cons_self) first
    (hfirst ▸ List.mem_cons_self)
  exact absurd (congrArg HashedFields.createdAt hfields) hlt.ne'

end SavedInOrder

/-- The first record that the columns take is saved. -/
theorem saveAll_one {record : AuditLog} (h : record.labelled.isStorable isAddress = true) :
    ∃ log, AuditTable.empty.saveAll isAddress [record] = .ok log ∧
      log.rows = [(AuditTable.empty.chain record).reread] := by
  rcases AuditTable.empty.insert_cases isAddress (AuditTable.empty.chain record) with
    ⟨hno, -⟩ | ⟨⟨row, hrow, -⟩, -⟩ | ⟨log, hins, -, hrows⟩
  · exact absurd (hno.symm.trans h) (by decide)
  · cases hrow
  · have hsave : AuditTable.empty.save isAddress record = .ok log := hins
    refine ⟨log, ?_, hrows⟩
    simp [AuditTable.saveAll, hsave]

/-- The float `1e16`, which PostgreSQL writes `10000000000000000`. -/
def tenQuadrillion : FloatLiteral where
  negative := false
  whole := 1
  fraction := []
  exponent := some 16
  fraction_lt := by simp
  positional := by simp
  scientific := by
    intro e he
    obtain rfl := Option.some.inj he
    decide

end Kusanya.Audit
