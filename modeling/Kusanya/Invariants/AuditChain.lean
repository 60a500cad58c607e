import Kusanya.Invariants.AuditPayload
import Kusanya.Support.HashChain
import Kusanya.Support.Keyed

/-!
# What the audit table holds after any calls of `save`

`Grown` holds of every table that `save` builds: each row names the row that was the
latest when it was written.  `Intact` is what `verify_chain` accepts, provided the rows
were written in the order of their keys.
-/

namespace Kusanya.Audit

open Support HashChain

abbrev Chained := Linked AuditLog.previousHash AuditLog.recordHash

/-! ## The orders -/

theorem latest_spec {rows : List AuditLog} {m : AuditLog} (h : latest rows = some m) :
    m ∈ rows ∧ ∀ row ∈ rows, row.key ≤ m.key := by
  unfold latest at h
  have hsorted := List.pairwise_insertionSort (fun a b : AuditLog => b.key ≤ a.key) rows
  have hmem : ∀ row, row ∈ rows.insertionSort (fun a b : AuditLog => b.key ≤ a.key) ↔
      row ∈ rows := fun row => List.mem_insertionSort _
  obtain ⟨rest, hrest⟩ := List.head?_eq_some_iff.mp h
  rw [hrest] at hsorted hmem
  constructor
  · exact (hmem m).mp List.mem_cons_self
  · intro row hrow
    rcases List.mem_cons.mp ((hmem row).mpr hrow) with rfl | hrow
    · exact le_rfl
    · exact (List.pairwise_cons.mp hsorted).1 row hrow

theorem latest_ne_nil {rows : List AuditLog} (h : rows ≠ []) : ∃ m, latest rows = some m := by
  cases hlatest : latest rows with
  | some m => exact ⟨m, rfl⟩
  | none =>
      have hlength := List.length_insertionSort (fun a b : AuditLog => b.key ≤ a.key) rows
      rw [List.head?_eq_none_iff.mp hlatest] at hlength
      exact absurd (List.length_eq_zero_iff.mp hlength.symm) h

/-- When the keys increase, the last row is the latest. -/
theorem latest_concat {rows : List AuditLog} {row : AuditLog}
    (h : (rows ++ [row]).Pairwise (·.key < ·.key)) : latest (rows ++ [row]) = some row := by
  have hne : rows ++ [row] ≠ [] := by simp
  obtain ⟨m, hm⟩ := latest_ne_nil hne
  obtain ⟨hmem, hmax⟩ := latest_spec hm
  rcases List.mem_append.mp hmem with hmem | hmem
  · have hlt := (List.pairwise_append.mp h).2.2 m hmem row List.mem_cons_self
    exact absurd (hmax row (by simp)) (not_le_of_gt hlt)
  · rw [hm, List.mem_singleton.mp hmem]

theorem latestHash_eq {rows : List AuditLog} (h : rows.Pairwise (·.key < ·.key)) :
    latestHash rows = (rows.getLast?.map (·.recordHash)).getD genesisHash := by
  rcases List.eq_nil_or_concat rows with rfl | ⟨rows, row, rfl⟩
  · rfl
  · rw [List.concat_eq_append] at h ⊢
    rw [latestHash, latest_concat h]
    simp

theorem AuditTable.mem_ordered (table : AuditTable) {row : AuditLog} :
    row ∈ table.ordered ↔ row ∈ table.rows :=
  List.mem_insertionSort _

theorem AuditTable.ordered_perm (table : AuditTable) : table.ordered.Perm table.rows :=
  List.perm_insertionSort _ _

theorem AuditTable.ordered_increasing (table : AuditTable) :
    table.ordered.Pairwise (·.key < ·.key) := by
  have hsorted := List.pairwise_insertionSort (fun a b : AuditLog => a.key ≤ b.key) table.rows
  have hids : (table.ordered.map (·.id)).Nodup :=
    (table.ordered_perm.map _).nodup_iff.mpr table.id_unique
  refine (hsorted.and (List.pairwise_map.mp hids)).imp ?_
  intro a b h
  refine lt_of_le_of_ne h.1 fun hkey => h.2 ?_
  exact congrArg Prod.snd (toLex.injective hkey)

/-- Rows inserted in the order of their keys are verified in that order. -/
theorem AuditTable.ordered_eq {table : AuditTable}
    (h : table.rows.Pairwise (·.key < ·.key)) : table.ordered = table.rows :=
  List.Pairwise.insertionSort_eq (h.imp le_of_lt)

/-! ## What `verify_chain` accepts -/

theorem verifyFrom_iff {expected : Text} {rows : List AuditLog} :
    verifyFrom expected rows = (true, none) ↔
      Chained expected rows ∧ ∀ row ∈ rows, sha256 row.hashInput = row.recordHash := by
  induction rows generalizing expected with
  | nil => simp [verifyFrom, Chained, Linked]
  | cons row rows ih =>
      unfold verifyFrom
      split_ifs with hprev hhash
      · constructor
        · intro h
          cases h
        · intro h
          exact absurd h.1.1 hprev
      · constructor
        · intro h
          cases h
        · intro h
          exact absurd (h.2 row List.mem_cons_self) hhash
      · rw [ih]
        simp only [ne_eq, not_not] at hprev hhash
        simp only [List.forall_mem_cons, Chained, Linked, hprev, hhash, true_and]

theorem AuditTable.verifyChain_iff {table : AuditTable} :
    table.verifyChain = (true, none) ↔
      Chained genesisHash table.ordered ∧
        ∀ row ∈ table.rows, sha256 row.hashInput = row.recordHash := by
  rw [verifyChain, verifyFrom_iff]
  simp only [table.mem_ordered]

/-- A table whose rows were written in the order of their keys and hash as they say. -/
structure Intact (table : AuditTable) : Prop where
  increasing : table.rows.Pairwise (·.key < ·.key)
  linked : Chained genesisHash table.rows
  hashed : ∀ row ∈ table.rows, sha256 row.hashInput = row.recordHash

theorem Intact.empty : Intact AuditTable.empty where
  increasing := List.Pairwise.nil
  linked := trivial
  hashed := by simp [AuditTable.empty]

theorem Intact.verifyChain {table : AuditTable} (h : Intact table) :
    table.verifyChain = (true, none) := by
  rw [AuditTable.verifyChain_iff, AuditTable.ordered_eq h.increasing]
  exact ⟨h.linked, h.hashed⟩

theorem linked_forgetActor (users : Uuid → Bool) {start : Text} {rows : List AuditLog}
    (h : Chained start rows) : Chained start (rows.map (AuditLog.forgetActor users)) := by
  induction rows generalizing start with
  | nil => trivial
  | cons row rows ih => exact ⟨h.1, ih h.2⟩

/-- Neither the order nor any hash looks at the actor. -/
theorem Intact.deleteUsers {table : AuditTable} (h : Intact table) (users : Uuid → Bool) :
    Intact (table.deleteUsers users) where
  increasing := List.pairwise_map.mpr h.increasing
  linked := linked_forgetActor users h.linked
  hashed := by
    intro row hrow
    obtain ⟨original, horiginal, rfl⟩ := List.mem_map.mp hrow
    exact h.hashed original horiginal

/-! ## One call of `save` -/

variable {isAddress : Text → Bool}

/-- What the database does with a new row. -/
theorem AuditTable.insert_cases (isAddress : Text → Bool) (table : AuditTable) (record : AuditLog) :
    (record.isStorable isAddress = false ∧ table.insert isAddress record = .error .data) ∨
    ((∃ row ∈ table.rows, row.id = record.id ∨ row.recordHash = record.recordHash) ∧
      table.insert isAddress record = .error .integrity) ∨
    ∃ table', table.insert isAddress record = .ok table' ∧ record.isStorable isAddress = true ∧
      table'.rows = table.rows ++ [record.reread] := by
  unfold AuditTable.insert
  split
  · rename_i hstorable
    split
    · exact Or.inr (Or.inr ⟨_, rfl, hstorable, rfl⟩)
    · rename_i hclash
      refine Or.inr (Or.inl ⟨?_, rfl⟩)
      by_contra hno
      push Not at hno
      exact hclash ⟨fun row hrow => (hno row hrow).1, fun row hrow => (hno row hrow).2⟩
  · rename_i hstorable
    exact Or.inl ⟨by simpa using hstorable, rfl⟩

theorem AuditTable.save_ok {table table' : AuditTable} {record : AuditLog}
    (h : table.save isAddress record = .ok table') :
    record.labelled.isStorable isAddress = true ∧
      table'.rows = table.rows ++ [(table.chain record).reread] := by
  rcases table.insert_cases isAddress (table.chain record) with
    ⟨-, hins⟩ | ⟨-, hins⟩ | ⟨t, hins, hstorable, hrows⟩
  · exact absurd (hins.symm.trans h) (by simp)
  · exact absurd (hins.symm.trans h) (by simp)
  · obtain rfl : t = table' := Except.ok.inj (hins.symm.trans h)
    exact ⟨hstorable, hrows⟩

/-- Saving a record whose key is above all others and whose JSON is kept. -/
theorem Intact.save {table table' : AuditTable} (h : Intact table) {record : AuditLog}
    (habove : ∀ row ∈ table.rows, row.key < record.key) (hkept : record.isKept = true)
    (hsave : table.save isAddress record = .ok table') : Intact table' := by
  have hreread : (table.chain record).reread = table.chain record :=
    AuditLog.reread_eq hkept
  obtain ⟨-, hrows⟩ := AuditTable.save_ok hsave
  rw [hreread] at hrows
  constructor
  · rw [hrows]
    refine List.pairwise_append.mpr ⟨h.increasing, List.pairwise_singleton _ _, ?_⟩
    intro row hrow last hlast
    rw [List.mem_singleton.mp hlast]
    exact habove row hrow
  · rw [hrows]
    exact h.linked.concat (latestHash_eq h.increasing)
  · rw [hrows]
    intro row hrow
    rcases List.mem_append.mp hrow with hrow | hrow
    · exact h.hashed row hrow
    · rw [List.mem_singleton.mp hrow]
      rfl

/-! ## Any calls of `save` -/

/-- The table after a record was sent to it. -/
def AuditTable.attempt (isAddress : Text → Bool) (table : AuditTable) (record : AuditLog) :
    AuditTable :=
  table.after (table.save isAddress record)

/-- The strings that the calls of `save` hash, those of refused records included. -/
def savedInputs (isAddress : Text → Bool) : AuditTable → List AuditLog → List Text
  | _, [] => []
  | table, record :: records =>
      (table.chain record).hashInput ::
        savedInputs isAddress (table.attempt isAddress record) records

/-- A table that `save` built by hashing the strings `inputs`. -/
structure Grown (inputs : List Text) (table : AuditTable) : Prop where
  prev : ∀ before row behind, table.rows = before ++ row :: behind →
    row.previousHash = latestHash before
  sent : ∀ row ∈ table.rows, ∃ sent : AuditLog, row = sent.reread ∧
    row.recordHash = sha256 sent.hashInput ∧ sent.hashInput ∈ inputs

theorem Grown.empty (inputs : List Text) : Grown inputs AuditTable.empty where
  prev := by simp [AuditTable.empty]
  sent := by simp [AuditTable.empty]

theorem Grown.save {inputs : List Text} {table table' : AuditTable} (h : Grown inputs table)
    {record : AuditLog} (hinput : (table.chain record).hashInput ∈ inputs)
    (hsave : table.save isAddress record = .ok table') : Grown inputs table' := by
  obtain ⟨-, hrows⟩ := AuditTable.save_ok hsave
  constructor
  · intro before row behind heq
    rw [hrows] at heq
    rcases List.eq_nil_or_concat behind with rfl | ⟨behind, last, rfl⟩
    · obtain ⟨rfl, hlast⟩ := List.append_inj' heq rfl
      rw [← List.singleton_inj.mp hlast]
      rfl
    · rw [List.concat_eq_append, ← List.cons_append, ← List.append_assoc] at heq
      exact h.prev before row behind (List.append_inj' heq rfl).1
  · intro row hrow
    rw [hrows] at hrow
    rcases List.mem_append.mp hrow with hrow | hrow
    · exact h.sent row hrow
    · rw [List.mem_singleton.mp hrow]
      exact ⟨table.chain record, rfl, rfl, hinput⟩

theorem Grown.attempt {inputs : List Text} {table : AuditTable} (h : Grown inputs table)
    {record : AuditLog} (hinput : (table.chain record).hashInput ∈ inputs) :
    Grown inputs (table.attempt isAddress record) := by
  unfold AuditTable.attempt
  cases hsave : table.save isAddress record with
  | ok table' => exact h.save hinput hsave
  | error e => exact h

theorem Grown.attempts {inputs : List Text} {table : AuditTable} (h : Grown inputs table)
    {records : List AuditLog} (hinputs : savedInputs isAddress table records ⊆ inputs) :
    Grown inputs (records.foldl (AuditTable.attempt isAddress) table) := by
  induction records generalizing table with
  | nil => exact h
  | cons record records ih =>
      rw [savedInputs, List.cons_subset] at hinputs
      exact ih (h.attempt hinputs.1) hinputs.2

theorem length_sha256 (text : Text) : (sha256 text).length = 64 :=
  Sha256.length_hexdigest _

theorem Grown.length_recordHash {inputs : List Text} {table : AuditTable}
    (h : Grown inputs table) {row : AuditLog} (hrow : row ∈ table.rows) :
    row.recordHash.length = 64 := by
  obtain ⟨sent, -, hhash, -⟩ := h.sent row hrow
  rw [hhash, length_sha256]

theorem length_latestHash {rows : List AuditLog} (h : ∀ row ∈ rows, row.recordHash.length = 64) :
    (latestHash rows).length = 64 := by
  unfold latestHash
  cases hlatest : latest rows with
  | none => simp [genesisHash]
  | some last => exact h last (latest_spec hlatest).1

theorem Grown.length_previousHash {inputs : List Text} {table : AuditTable}
    (h : Grown inputs table) {row : AuditLog} (hrow : row ∈ table.rows) :
    row.previousHash.length = 64 := by
  obtain ⟨before, behind, heq⟩ := List.append_of_mem hrow
  rw [h.prev before row behind heq]
  refine length_latestHash fun r hr => h.length_recordHash ?_
  rw [heq]
  exact List.mem_append_left _ hr

/-- Two hashed strings are equal only if both parts are. -/
theorem hashInput_inj {r s : AuditLog} (hlength : r.previousHash.length = s.previousHash.length)
    (h : r.hashInput = s.hashInput) :
    r.previousHash = s.previousHash ∧ r.canonicalPayload = s.canonicalPayload := by
  obtain ⟨hprev, hrest⟩ := List.append_inj h hlength
  exact ⟨hprev, (List.cons.inj hrest).2⟩

/-- In an accepted table each row is the first or names the hash of one before it. -/
theorem AuditTable.pred {table : AuditTable} (hlinked : Chained genesisHash table.ordered)
    {row : AuditLog} (hrow : row ∈ table.rows) :
    table.ordered.head? = some row ∨
      ∃ p ∈ table.rows, p.key < row.key ∧ row.previousHash = p.recordHash := by
  rcases hlinked.pred (table.mem_ordered.mpr hrow) with hhead | ⟨before, p, behind, heq, hprev⟩
  · exact Or.inl hhead
  · have hsorted := table.ordered_increasing
    rw [heq] at hsorted
    have hp : p ∈ table.ordered := by
      rw [heq]
      simp
    have hlt := (List.pairwise_cons.mp (List.pairwise_append.mp hsorted).2.1).1 row
      List.mem_cons_self
    exact Or.inr ⟨p, table.mem_ordered.mp hp, hlt, hprev⟩

/-- A row that was written behind others is not the first of an accepted table: it would
make an earlier row hash to the genesis value, which the row written first names as well. -/
theorem Grown.ne_first {inputs : List Text} {table : AuditTable} (h : Grown inputs table)
    (hlinked : Chained genesisHash table.ordered) {init behind : List AuditLog}
    {m row : AuditLog} (heq : table.rows = (init ++ [m]) ++ row :: behind)
    (hinit : (init ++ [m]).Pairwise (·.key < ·.key)) (hprev : row.previousHash = m.recordHash) :
    table.ordered.head? ≠ some row := by
  intro hhead
  obtain ⟨q, rest, hq⟩ := List.exists_cons_of_ne_nil (l := init ++ [m]) (by simp)
  have hq_mem : q ∈ init ++ [m] := hq ▸ List.mem_cons_self
  have hrows : ∀ r ∈ init ++ [m], r ∈ table.rows := fun r hr => by
    rw [heq]
    exact List.mem_append_left _ hr
  have hgenesis : m.recordHash = genesisHash := by
    obtain ⟨tail, htail⟩ := List.head?_eq_some_iff.mp hhead
    rw [htail] at hlinked
    exact hprev.symm.trans hlinked.1
  have hq_prev : q.previousHash = m.recordHash := by
    rw [h.prev [] q (rest ++ row :: behind) (by rw [heq, hq]; rfl), hgenesis]
    rfl
  rcases table.pred hlinked (hrows q hq_mem) with hhead' | ⟨p, hp, hlt, hpq⟩
  · have hqrow : q = row := Option.some.inj (hhead'.symm.trans hhead)
    have hids := table.id_unique
    rw [heq, List.map_append] at hids
    refine List.disjoint_of_nodup_append hids (List.mem_map_of_mem hq_mem) ?_
    rw [hqrow]
    exact List.mem_map_of_mem List.mem_cons_self
  · have hpm : p = m :=
      eq_of_key table.hash_unique hp (hrows m (by simp)) (hpq.symm.trans hq_prev)
    rw [hpm] at hlt
    rcases List.mem_append.mp hq_mem with hearly | hlast
    · have hle := (List.pairwise_append.mp hinit).2.2 q hearly m List.mem_cons_self
      exact lt_asymm hle hlt
    · rw [List.mem_singleton.mp hlast] at hlt
      exact lt_irrefl _ hlt

/-- **Order.**  `verify_chain` accepts a table only if its rows were written in the order of
their keys. -/
theorem Grown.increasing {inputs : List Text} {table : AuditTable} (h : Grown inputs table)
    (hlinked : Chained genesisHash table.ordered) : table.rows.Pairwise (·.key < ·.key) := by
  have hprefix : ∀ behind rows, table.rows = rows ++ behind → rows.Pairwise (·.key < ·.key) := by
    intro behind rows
    induction rows using List.reverseRecOn generalizing behind with
    | nil => exact fun _ => List.Pairwise.nil
    | append_singleton rows row ih =>
        intro heq
        rw [List.append_assoc] at heq
        have hrows := ih (row :: behind) heq
        rcases List.eq_nil_or_concat rows with rfl | ⟨init, m, rfl⟩
        · exact List.pairwise_singleton _ _
        rw [List.concat_eq_append] at hrows heq ⊢
        have hm : m ∈ table.rows := by
          rw [heq]
          simp
        have hrow : row ∈ table.rows := by
          rw [heq]
          simp
        have hprev : row.previousHash = m.recordHash := by
          rw [h.prev _ row behind heq, latestHash, latest_concat hrows]
        -- `row` follows the row that it names, which is `m`
        have hlt : m.key < row.key := by
          rcases table.pred hlinked hrow with hhead | ⟨p, hp, hlt, hpm⟩
          · exact absurd hhead (h.ne_first hlinked heq hrows hprev)
          · rwa [eq_of_key table.hash_unique hp hm (hpm.symm.trans hprev)] at hlt
        refine List.pairwise_append.mpr ⟨hrows, List.pairwise_singleton _ _, ?_⟩
        intro a ha b hb
        rw [List.mem_singleton.mp hb]
        rcases List.mem_append.mp ha with ha | ha
        · exact ((List.pairwise_append.mp hrows).2.2 a ha m List.mem_cons_self).trans hlt
        · rwa [List.mem_singleton.mp ha]
  exact hprefix [] table.rows (List.append_nil _).symm

end Kusanya.Audit
