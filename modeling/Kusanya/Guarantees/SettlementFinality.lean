import Kusanya.Invariants.Runs
import Kusanya.Moves.Locked
import Kusanya.Moves.Outbox
import Kusanya.ReadCommitted.Disciplined
import Kusanya.Support.Keyed

/-!
# A completed settlement is final

Batches are generated and marked as completed by any number of requests, in any interleaving.
`mark_settlement_completed` does not ask for the status of the batch.  As long as no request
completes a batch that is `COMPLETED` by the time it commits, a completed batch never changes, and
its completion has one audit event and one webhook event for each subscribed endpoint.
-/

namespace Kusanya

open ReadCommitted

/-! ## Statements -/

/-- The audit event is the completion of the batch. -/
def AuditLog.completesBatch (id : ℕ) (row : AuditLog) : Bool :=
  row.action = "settlement.completed" && row.target = some (.settlementBatch id)

/-- The webhook event tells the endpoint that the batch is completed. -/
def WebhookDelivery.completesBatch (endpoint id : ℕ) (row : WebhookDelivery) : Bool :=
  row.endpoint = endpoint && row.eventType = "settlement.completed" &&
    row.payload.any fun x => x.1 = "settlement_batch_id" && x.2 = some (toString id)

/-- The endpoint is told about the batches of its institution. -/
def WebhookEndpoint.hears (endpoint : WebhookEndpoint) (batch : SettlementBatch) : Bool :=
  endpoint.tenant = batch.tenant && endpoint.isActive &&
    endpoint.isSubscribedTo "settlement.completed"

/-- Each completed batch has been recorded and announced once, and no other one at all. -/
structure DB.CompletedOnce (s : DB) : Prop where
  batches : (s.batches.map (·.id)).Nodup
  endpoints : (s.endpoints.map (·.id)).Nodup
  audits : ∀ id, (s.auditLog.filter (·.completesBatch id)).length =
    if ∃ batch ∈ s.batches, batch.id = id ∧ batch.status = .completed then 1 else 0
  deliveries : ∀ id, ∀ endpoint ∈ s.endpoints,
    (s.deliveries.filter (·.completesBatch endpoint.id id)).length =
      if ∃ batch ∈ s.batches, batch.id = id ∧ batch.status = .completed ∧
        endpoint.hears batch = true
      then 1 else 0

/-- A completed batch stays as it is. -/
def DB.KeepsCompleted (s t : DB) : Prop :=
  ∀ batch ∈ s.batches, batch.status = .completed → batch ∈ t.batches

/-- The requests that generate and complete batches. -/
def Action.settles : Action → Bool
  | generateBatch .. => true
  | markCompleted .. => true
  | _ => false

/-- A batch that a request has looked up is not completed when the request commits. -/
def StillPending (s : DB) (_ : DB → DB) (seen : List (Resource × DB)) : Prop :=
  ∀ x ∈ seen, ∀ batch ∈ s.batches, x.1 = .batch batch.id → batch.status ≠ .completed

instance (s : DB) (pend : DB → DB) (seen : List (Resource × DB)) :
    Decidable (StillPending s pend seen) := by
  unfold StillPending
  infer_instance

/-! ## What a request knows at its end -/

/-- Batches stay, up to their status, and the directory stays as it is. -/
def batchDiscipline : Discipline DB Resource where
  inv := DB.CompletedOnce
  evolves s t := t.toDirectory = s.toDirectory ∧
    ∀ batch ∈ s.batches, ∃ row ∈ t.batches, row.id = batch.id ∧ row.tenant = batch.tenant
  keeps k s t := ∀ id, k = .batch id → (∀ batch ∈ s.batches, batch.id ≠ id) →
    ∀ batch ∈ t.batches, batch.id ≠ id
  evolves_refl _ := ⟨rfl, fun batch hbatch => ⟨batch, hbatch, rfl, rfl⟩⟩
  evolves_trans h h' := by
    refine ⟨h'.1.trans h.1, ?_⟩
    intro batch hbatch
    obtain ⟨row, hrow, hid, htenant⟩ := h.2 batch hbatch
    obtain ⟨row', hrow', hid', htenant'⟩ := h'.2 row hrow
    exact ⟨row', hrow', hid'.trans hid, htenant'.trans htenant⟩
  keeps_refl _ _ _ _ h := h
  keeps_trans h h' id hk hfree := h' id hk (h id hk hfree)

/-- A new batch under a key that is locked and free. -/
structure BatchAdded (batch : SettlementBatch) (l : Local DB Resource) : Prop where
  pending : batch.status = .pending
  key : .batch batch.id ∈ l.held
  fresh : ∀ row ∈ l.last.batches, row.id ≠ batch.id
  batches : ∀ s, (l.pend s).batches = s.batches ++ [batch]
  audits : ∃ row, row.action = "settlement.batch_created" ∧
    ∀ s, (l.pend s).auditLog = s.auditLog ++ [row]
  deliveries : ∀ s, (l.pend s).deliveries = s.deliveries
  directory : ∀ s, (l.pend s).toDirectory = s.toDirectory

/-- The update of `mark_settlement_completed`. -/
def SettlementBatch.complete (now : Time) (reference : String) (batch : SettlementBatch) :
    SettlementBatch :=
  { batch with
    status := .completed
    settlementDate := some now
    externalSettlementReference := reference }

/-- What endpoints are told about a completed batch. -/
def SettlementBatch.completionPayload (batch : SettlementBatch) (reference : String) :
    List (String × Option String) :=
  [("settlement_batch_id", some (toString batch.id)),
   ("reference", some batch.reference),
   ("net_amount", some batch.netAmount.cents.str),
   ("currency", some batch.currency),
   ("external_settlement_reference", some reference)]

/-- The batch that the request has loaded is completed. -/
structure BatchCompleted (env : Env) (batch : SettlementBatch) (reference : String)
    (l : Local DB Resource) : Prop where
  found : ∃ row ∈ l.last.batches, row.id = batch.id ∧ row.tenant = batch.tenant
  batches : ∀ s, (l.pend s).batches =
    s.batches.map fun row => if row.id = batch.id then row.complete env.now reference else row
  audits : ∃ row, row.action = "settlement.completed" ∧
    row.target = some (.settlementBatch batch.id) ∧
    ∀ s, (l.pend s).auditLog = s.auditLog ++ [row]
  deliveries : ∀ s, (l.pend s).deliveries = s.deliveries ++
    deliveriesTo env batch.tenant "settlement.completed" (batch.completionPayload reference)
      (activeEndpoints l.last batch.tenant)
  directory : ∀ s, (l.pend s).toDirectory = s.toDirectory

section Requests

variable {l : Local DB Resource} {D : Discipline DB Resource}

theorem lwp_deliverAll (env : Env) (tenant : ℕ) (eventType : String)
    (payload : List (String × Option String)) (endpoints : List WebhookEndpoint) :
    (deliverAll env tenant eventType payload endpoints).lwp D l
      (fun _ l' => l'.held = l.held ∧ l'.last = l.last ∧ ∀ s, l'.pend s =
        inTrail (·.addDeliveries (deliveriesTo env tenant eventType payload endpoints)) (l.pend s))
      fun _ _ => True := by
  induction endpoints generalizing l with
  | nil =>
      refine ⟨rfl, rfl, ?_⟩
      intro s
      simp [deliveriesTo, inTrail, addDeliveries_nil]
  | cons endpoint rest ih =>
      rw [deliverAll, deliverTo, Txn.lwp_bind, Txn.lwp_ite]
      constructor
      · intro hsubscribed
        rw [Txn.lwp_bind, storeCorrelationId, lwp_raiseIf]
        refine ⟨fun _ => trivial, fun _ => ?_⟩
        rw [lwp_onTrail]
        refine Txn.lwp_consequence ih ?_ fun _ _ h => h
        rintro _ l' ⟨hheld, hlast, hpend⟩
        refine ⟨hheld, hlast, ?_⟩
        intro s
        rw [hpend]
        simp [inTrail, deliveriesTo, hsubscribed, Trail.addDelivery, Trail.addDeliveries]
      · intro hsilent
        rw [Txn.pure_eq_ret, Txn.lwp_ret]
        refine Txn.lwp_consequence ih ?_ fun _ _ h => h
        rintro _ l' ⟨hheld, hlast, hpend⟩
        refine ⟨hheld, hlast, ?_⟩
        intro s
        rw [hpend]
        simp [deliveriesTo, hsilent]

theorem still_selectForUpdate (keep : Payment → Bool) (found : List Payment) :
    (selectForUpdate keep found).Still := by
  induction found with
  | nil => exact fun _ => trivial
  | cons payment rest ih =>
      intro held
      rw [selectForUpdate]
      apply Txn.covers_bind (Q := fun _ _ => True) (Txn.covers_acquire trivial)
      intro _ _ _ _
      apply Txn.covers_bind (Q := fun _ _ => True) (Txn.covers_fetch fun _ => trivial)
      intro row _ _ _
      apply Txn.covers_bind (Q := fun _ _ => True) (ih _)
      exact fun _ _ _ _ => Txn.covers_ret trivial

/-- A batch is added. -/
theorem generateBatch_lwp (env : Env) (tenant provider : ℕ) (periodStart periodEnd : Time)
    (s : DB) :
    (generateBatch env tenant provider periodStart periodEnd).lwp batchDiscipline (Local.fresh s)
      (fun _ l => ∃ batch, BatchAdded batch l) fun _ _ => True := by
  simp only [generateBatch, generateSettlementBatch, getProvider, Txn.lwp_bind, lwp_getRow,
    Txn.lwp_fetch]
  intro v hv
  refine ⟨fun _ _ v₁ hv₁ => ?_, fun _ => trivial⟩
  refine Txn.lwp_consequence ((still_selectForUpdate _ _).lwp hv₁.inv) ?_ fun _ _ h => h
  rintro payments ⟨held, pend, last⟩ ⟨hpend, -, -⟩
  obtain rfl : pend = id := hpend
  simp only [getTenant, lwp_getRow, lwp_storeNumeric, insertBatch, Txn.lwp_bind, Txn.lwp_acquire,
    Txn.lwp_fetch, lwp_raiseIf, lwp_onBooks, recordAuditEvent, lwp_onTrail]
  intro v₂ _ v₃ _
  refine ⟨fun row _ => ⟨fun gross _ => ⟨fun fee _ => ⟨fun net _ v₄ _ v₅ _ v₆ hv₆ =>
    ⟨fun _ => trivial, fun hclash => ⟨fun _ => trivial, fun _ => ?_⟩⟩, fun _ => trivial⟩,
    fun _ => trivial⟩, fun _ => trivial⟩, fun _ => trivial⟩
  rw [id_eq, List.any_eq_true] at hclash
  refine ⟨_, ⟨rfl, List.mem_cons_of_mem _ List.mem_cons_self, ?_, fun _ => rfl,
    ⟨_, rfl, fun _ => rfl⟩, fun _ => rfl, fun _ => rfl⟩⟩
  intro row hrow hid
  refine hclash ⟨row, hrow, ?_⟩
  exact Bool.or_eq_true_iff.mpr (Or.inl (decide_eq_true hid))

/-- A batch is completed. -/
theorem markCompleted_lwp (env : Env) (pk : ℕ) (reference : String) (s : DB) :
    (markCompleted env pk reference).lwp batchDiscipline (Local.fresh s)
      (fun _ l => ∃ batch, batch.id = pk ∧ BatchCompleted env batch reference l)
      fun _ _ => True := by
  simp only [markCompleted, markSettlementCompleted, dispatchEvent, Txn.lwp_bind, lwp_getOr404,
    lwp_checkVarchar, lwp_onBooks, recordAuditEvent, lwp_raiseIf, lwp_onTrail, Txn.lwp_fetch]
  intro v hv
  refine ⟨fun batch hbatch => ⟨fun _ => ⟨fun _ => trivial, fun _ v₁ hv₁ => ?_⟩, fun _ => trivial⟩,
    fun _ => trivial⟩
  have hmem : batch ∈ v.batches := List.mem_of_find?_eq_some hbatch
  have hid : batch.id = pk := by simpa using List.find?_some hbatch
  refine Txn.lwp_consequence (lwp_deliverAll _ _ _ _ _) ?_ fun _ _ h => h
  rintro _ l ⟨hheld, hlast, hpend⟩
  have hlast' : l.last = v₁ := hlast
  obtain ⟨row, hrow⟩ : ∃ row : AuditLog, row =
      { action := "settlement.completed"
        tenant := some batch.tenant
        target := some (.settlementBatch batch.id)
        after := []
        metadata := []
        actor := env.actor
        ipAddress := env.storedAddress
        userAgent := env.userAgent
        correlationId := env.correlationId
        createdAt := env.now } := ⟨_, rfl⟩
  refine ⟨batch, hid, ?_, ?_, ⟨row, by rw [hrow], by rw [hrow], ?_⟩, ?_, ?_⟩
  · rw [hlast']
    exact hv₁.evolves.2 batch hmem
  · intro t
    rw [hpend]
    rfl
  · intro t
    rw [hpend, hrow]
    rfl
  · intro t
    rw [hpend, hlast']
    rfl
  · intro t
    rw [hpend]
    rfl

end Requests

/-! ## What a commit makes of the tables -/

section Commits

variable {l : Local DB Resource} {s t : DB} {batch : SettlementBatch} {env : Env}
  {reference : String}

theorem toString_inj {m n : ℕ} : toString m = toString n ↔ m = n := by
  constructor
  · intro h
    have hdigits : Nat.toDigits 10 m = Nat.toDigits 10 n := by
      rw [← Nat.toList_repr, ← Nat.toList_repr]
      exact congrArg String.toList h
    rw [← @Nat.ofDigitChars_ten_toDigits m, hdigits, Nat.ofDigitChars_ten_toDigits]
  · rintro rfl
    rfl

/-- The rows that one endpoint gets for a batch. -/
theorem length_completions (hendpoints : (s.endpoints.map (·.id)).Nodup)
    {endpoint : WebhookEndpoint} (hendpoint : endpoint ∈ s.endpoints) (id : ℕ) :
    ((deliveriesTo env batch.tenant "settlement.completed" (batch.completionPayload reference)
        (activeEndpoints s batch.tenant)).filter (·.completesBatch endpoint.id id)).length =
      if id = batch.id ∧ endpoint.hears batch = true then 1 else 0 := by
  have hcompletes : ∀ e : WebhookEndpoint, WebhookDelivery.completesBatch endpoint.id id
      { tenant := batch.tenant
        eventType := "settlement.completed"
        payload := batch.completionPayload reference
        endpoint := e.id
        correlationId := env.correlationId } =
          (decide (e.id = endpoint.id) && decide (batch.id = id)) := by
    intro e
    have htext : (batch.id.repr = id.repr) ↔ batch.id = id := toString_inj
    simp [WebhookDelivery.completesBatch, SettlementBatch.completionPayload, htext]
  rw [deliveriesTo, List.filter_map, List.length_map]
  by_cases hid : id = batch.id
  · have hselect : ((activeEndpoints s batch.tenant).filter
        (·.isSubscribedTo "settlement.completed")).filter (fun e => decide (e.id = endpoint.id)) =
          (s.endpoints.filter fun e => decide (e.id = endpoint.id)).filter (·.hears batch) := by
      rw [activeEndpoints, List.filter_filter, List.filter_filter, List.filter_filter]
      refine List.filter_congr ?_
      intro e _
      simp only [WebhookEndpoint.hears, Bool.and_assoc]
      cases e.isActive <;> cases decide (e.tenant = batch.tenant) <;>
        cases e.isSubscribedTo "settlement.completed" <;> simp
    have hown : (s.endpoints.filter fun e => decide (e.id = endpoint.id)) = [endpoint] :=
      Support.filter_key (a := endpoint) hendpoints hendpoint
    rw [hown] at hselect
    have hcongr : ∀ e ∈ (activeEndpoints s batch.tenant).filter
        (·.isSubscribedTo "settlement.completed"),
        ((WebhookDelivery.completesBatch endpoint.id id) ∘ fun endpoint : WebhookEndpoint =>
          ({ tenant := batch.tenant
             eventType := "settlement.completed"
             payload := batch.completionPayload reference
             endpoint := endpoint.id
             correlationId := env.correlationId } : WebhookDelivery)) e =
          decide (e.id = endpoint.id) := by
      intro e _
      rw [Function.comp_apply, hcompletes, decide_eq_true hid.symm, Bool.and_true]
    rw [List.filter_congr hcongr, hselect]
    by_cases hhears : endpoint.hears batch = true
    · rw [if_pos ⟨hid, hhears⟩]
      simp [hhears]
    · rw [if_neg fun h => hhears h.2]
      simp [hhears]
  · rw [if_neg fun h => hid h.1, List.length_eq_zero_iff, List.filter_eq_nil_iff]
    intro e _
    rw [Function.comp_apply, hcompletes, decide_eq_false (Ne.symm hid), Bool.and_false]
    exact Bool.false_ne_true

/-- A new batch is not completed. -/
theorem exists_completed_append (hpending : batch.status = .pending)
    (P : SettlementBatch → Prop) :
    (∃ row ∈ s.batches ++ [batch], P row ∧ row.status = .completed) ↔
      ∃ row ∈ s.batches, P row ∧ row.status = .completed := by
  constructor
  · rintro ⟨row, hrow, hP, hstatus⟩
    rcases List.mem_append.mp hrow with hrow | hrow
    · exact ⟨row, hrow, hP, hstatus⟩
    · rw [List.mem_singleton.mp hrow, hpending] at hstatus
      cases hstatus
  · rintro ⟨row, hrow, hP⟩
    exact ⟨row, List.mem_append_left _ hrow, hP⟩

theorem BatchAdded.commit (h : BatchAdded batch l) (hs : l.Sees batchDiscipline s) :
    (l.pend s).CompletedOnce ∧ batchDiscipline.evolves s (l.pend s) ∧
      (∀ k, k ∉ l.held → batchDiscipline.keeps k s (l.pend s)) ∧
        s.KeepsCompleted (l.pend s) := by
  have hfresh : ∀ row ∈ s.batches, row.id ≠ batch.id :=
    hs.keeps _ h.key batch.id rfl h.fresh
  have hbatches := h.batches s
  have hdirectory := h.directory s
  obtain ⟨row, haction, haudits⟩ := h.audits
  refine ⟨⟨?_, ?_, ?_, ?_⟩, ⟨hdirectory, ?_⟩, ?_, ?_⟩
  · rw [hbatches, List.map_append, List.map_singleton]
    refine List.nodup_append.mpr ⟨hs.inv.batches, List.pairwise_singleton _ _, ?_⟩
    intro id hid id' hid' heq
    obtain ⟨old, hold, rfl⟩ := List.mem_map.mp hid
    rw [List.mem_singleton] at hid'
    exact hfresh old hold (heq.trans hid')
  · rw [hdirectory]
    exact hs.inv.endpoints
  · intro id
    have hnone : row.completesBatch id = false := by simp [AuditLog.completesBatch, haction]
    rw [haudits, List.filter_append, List.filter_cons_of_neg (by simp [hnone]), List.filter_nil,
      List.append_nil, hs.inv.audits id, hbatches]
    exact if_congr (exists_completed_append h.pending fun row => row.id = id).symm rfl rfl
  · intro id endpoint hendpoint
    rw [hdirectory] at hendpoint
    rw [h.deliveries, hs.inv.deliveries id endpoint hendpoint, hbatches]
    have happend := exists_completed_append (s := s) h.pending
      fun row => row.id = id ∧ endpoint.hears row = true
    refine if_congr ?_ rfl rfl
    constructor
    · rintro ⟨row, hrow, hid, hstatus, hhears⟩
      exact ⟨row, List.mem_append_left _ hrow, hid, hstatus, hhears⟩
    · rintro ⟨row, hrow, hid, hstatus, hhears⟩
      obtain ⟨row', hrow', ⟨hid', hhears'⟩, hstatus'⟩ :=
        happend.mp ⟨row, hrow, ⟨hid, hhears⟩, hstatus⟩
      exact ⟨row', hrow', hid', hstatus', hhears'⟩
  · intro old hold
    rw [hbatches]
    exact ⟨old, List.mem_append_left _ hold, rfl, rfl⟩
  · intro k hk id hid hfree old hold
    rw [hbatches] at hold
    rcases List.mem_append.mp hold with hold | hold
    · exact hfree old hold
    · rw [List.mem_singleton.mp hold]
      rintro rfl
      exact hk (hid ▸ h.key)
  · intro old hold _
    rw [hbatches]
    exact List.mem_append_left _ hold

/-- The rows after a completion. -/
theorem BatchCompleted.exists_iff (h : BatchCompleted env batch reference l)
    (hs : l.Sees batchDiscipline s) (id : ℕ) (P : ℕ → Prop) :
    (∃ row ∈ (l.pend s).batches, row.id = id ∧ row.status = .completed ∧ P row.tenant) ↔
      (id = batch.id ∧ P batch.tenant) ∨ (id ≠ batch.id ∧
        ∃ row ∈ s.batches, row.id = id ∧ row.status = .completed ∧ P row.tenant) := by
  obtain ⟨found, hfound, hfoundId, hfoundTenant⟩ := h.found
  obtain ⟨row₀, hrow₀, hid₀, htenant₀⟩ := hs.evolves.2 found hfound
  have hown : ∀ row ∈ s.batches, row.id = batch.id → row = row₀ := by
    intro row hrow hid
    exact Support.eq_of_key hs.inv.batches hrow hrow₀ (hid.trans (hfoundId.symm.trans hid₀.symm))
  rw [h.batches]
  constructor
  · rintro ⟨row', hrow', hid, hstatus, hP⟩
    obtain ⟨row, hrow, rfl⟩ := List.mem_map.mp hrow'
    by_cases hbatch : row.id = batch.id
    · rw [if_pos hbatch] at hid hP
      refine Or.inl ⟨hid.symm.trans hbatch, ?_⟩
      have htenant : row.tenant = batch.tenant := by
        rw [hown row hrow hbatch, htenant₀, hfoundTenant]
      rw [← htenant]
      exact hP
    · rw [if_neg hbatch] at hid hstatus hP
      exact Or.inr ⟨fun heq => hbatch (hid.trans heq), row, hrow, hid, hstatus, hP⟩
  · rintro (⟨rfl, hP⟩ | ⟨hne, row, hrow, hid, hstatus, hP⟩)
    · have hkey : row₀.id = batch.id := hid₀.trans hfoundId
      refine ⟨row₀.complete env.now reference, List.mem_map.mpr ⟨row₀, hrow₀, if_pos hkey⟩, hkey,
        rfl, ?_⟩
      have htenant : row₀.tenant = batch.tenant := htenant₀.trans hfoundTenant
      change P row₀.tenant
      rw [htenant]
      exact hP
    · exact ⟨row, List.mem_map.mpr ⟨row, hrow, if_neg fun heq => hne (hid.symm.trans heq)⟩, hid,
        hstatus, hP⟩

theorem BatchCompleted.commit (h : BatchCompleted env batch reference l)
    (hs : l.Sees batchDiscipline s)
    (hpending : ∀ row ∈ s.batches, row.id = batch.id → row.status ≠ .completed) :
    (l.pend s).CompletedOnce ∧ batchDiscipline.evolves s (l.pend s) ∧
      (∀ k, k ∉ l.held → batchDiscipline.keeps k s (l.pend s)) ∧
        s.KeepsCompleted (l.pend s) := by
  have hbatches := h.batches s
  have hdirectory := h.directory s
  obtain ⟨row, haction, htarget, haudits⟩ := h.audits
  have hkept : ∀ old : SettlementBatch,
      (if old.id = batch.id then old.complete env.now reference else old).id = old.id := by
    intro old
    split
    · rfl
    · rfl
  have hnone : ¬∃ old ∈ s.batches, old.id = batch.id ∧ old.status = .completed := by
    rintro ⟨old, hold, hid, hstatus⟩
    exact hpending old hold hid hstatus
  refine ⟨⟨?_, ?_, ?_, ?_⟩, ⟨hdirectory, ?_⟩, ?_, ?_⟩
  · rw [hbatches, List.map_map]
    have hids : ((fun old : SettlementBatch => old.id) ∘ fun old =>
        if old.id = batch.id then old.complete env.now reference else old) = fun old => old.id :=
      funext hkept
    rw [hids]
    exact hs.inv.batches
  · rw [hdirectory]
    exact hs.inv.endpoints
  · intro id
    have hexists := h.exists_iff hs id fun _ => True
    simp only [and_true] at hexists
    rw [if_congr hexists rfl rfl, haudits, List.filter_append, List.length_append,
      hs.inv.audits id]
    by_cases hid : id = batch.id
    · subst hid
      rw [if_neg hnone, if_pos (Or.inl rfl)]
      simp [AuditLog.completesBatch, haction, htarget]
    · have hother : row.completesBatch id = false := by
        simp [AuditLog.completesBatch, htarget, Ne.symm hid]
      rw [List.filter_cons_of_neg (by simp [hother])]
      simp [hid]
  · intro id endpoint hendpoint
    rw [hdirectory] at hendpoint
    have hsame : activeEndpoints l.last batch.tenant = activeEndpoints s batch.tenant := by
      rw [activeEndpoints, activeEndpoints, hs.evolves.1]
    have hexists := h.exists_iff hs id fun tenant => (endpoint.tenant = tenant &&
      endpoint.isActive && endpoint.isSubscribedTo "settlement.completed") = true
    have hcount : (∃ row ∈ (l.pend s).batches, row.id = id ∧ row.status = .completed ∧
        endpoint.hears row = true) ↔ _ := hexists
    rw [if_congr hcount rfl rfl, h.deliveries, List.filter_append, List.length_append,
      hs.inv.deliveries id endpoint hendpoint, hsame,
      length_completions hs.inv.endpoints hendpoint id]
    by_cases hid : id = batch.id
    · subst hid
      have hnot : ¬∃ old ∈ s.batches, old.id = batch.id ∧ old.status = .completed ∧
          endpoint.hears old = true := by
        rintro ⟨old, hold, hkey, hstatus, -⟩
        exact hnone ⟨old, hold, hkey, hstatus⟩
      rw [if_neg hnot, Nat.zero_add]
      refine if_congr ?_ rfl rfl
      simp [WebhookEndpoint.hears]
    · rw [if_neg (fun heq : id = batch.id ∧ endpoint.hears batch = true => hid heq.1), Nat.add_zero]
      refine if_congr ?_ rfl rfl
      simp [hid, WebhookEndpoint.hears]
  · intro old hold
    rw [hbatches]
    refine ⟨_, List.mem_map.mpr ⟨old, hold, rfl⟩, hkept old, ?_⟩
    split
    · rfl
    · rfl
  · intro k _ id _ hfree old hold
    rw [hbatches] at hold
    obtain ⟨row', hrow', rfl⟩ := List.mem_map.mp hold
    rw [hkept]
    exact hfree row' hrow'
  · intro old hold hstatus
    rw [hbatches]
    have hne : old.id ≠ batch.id := fun hid => hnone ⟨old, hold, hid, hstatus⟩
    exact List.mem_map.mpr ⟨old, hold, if_neg hne⟩

end Commits

/-! ## Every run -/

/-- What the transaction of a request knows at its end. -/
def Request.EndsSettling (request : Request) (l : Local DB Resource) : Prop :=
  match request.action with
  | .generateBatch .. => ∃ batch, BatchAdded batch l
  | .markCompleted pk reference => ∃ batch, batch.id = pk ∧
      BatchCompleted request.env batch reference l
  | _ => False

theorem settles_lwp {request : Request} (h : request.action.settles = true) (s : DB) :
    request.handler.lwp batchDiscipline (Local.fresh s) (fun _ l => request.EndsSettling l)
      fun _ _ => True := by
  obtain ⟨env, action⟩ := request
  cases action with
  | generateBatch tenant provider periodStart periodEnd =>
      exact generateBatch_lwp env tenant provider periodStart periodEnd s
  | markCompleted pk reference => exact markCompleted_lwp env pk reference s
  | _ => cases h

/-- A completion has looked its batch up. -/
theorem markCompleted_looksUp (env : Env) (pk : ℕ) (reference : String)
    (seen : List (Resource × DB)) :
    (markCompleted env pk reference).wp (fun _ => True) (fun k v => (k, v) ∈ seen) id
      (fun _ _ => ∃ v, (.batch pk, v) ∈ seen) fun _ _ => True := by
  rw [markCompleted, Txn.wp_bind, wp_getOr404]
  intro v hv
  refine ⟨fun row _ => ?_, fun _ => trivial⟩
  exact Txn.wp_consequence (Txn.wp_trivial _) (fun _ _ _ => ⟨v, hv⟩) fun _ _ _ => trivial

theorem settles_commit {request : Request} {l : Local DB Resource} {s : DB}
    {seen : List (Resource × DB)} (hl : request.EndsSettling l) (hs : l.Sees batchDiscipline s)
    (hleaves : request.handler.Leaves seen (.ret ()) l.pend) (hmeets : StillPending s l.pend seen) :
    (l.pend s).CompletedOnce ∧ batchDiscipline.evolves s (l.pend s) ∧
      (∀ k, k ∉ l.held → batchDiscipline.keeps k s (l.pend s)) ∧
        s.KeepsCompleted (l.pend s) := by
  obtain ⟨env, action⟩ := request
  cases action with
  | generateBatch tenant provider periodStart periodEnd =>
      obtain ⟨batch, hadded⟩ := hl
      exact hadded.commit hs
  | markCompleted pk reference =>
      obtain ⟨batch, hid, hcompleted⟩ := hl
      obtain ⟨v, hv⟩ :=
        hleaves _ _ _ _ (fun x hx => hx) (markCompleted_looksUp env pk reference seen)
      refine hcompleted.commit hs ?_
      intro row hrow hrowId
      refine hmeets _ hv row hrow ?_
      rw [hrowId, hid]
  | _ => exact hl.elim

theorem keepsCompleted_trans {s t u : DB} (h : s.KeepsCompleted t) (h' : t.KeepsCompleted u) :
    s.KeepsCompleted u :=
  fun batch hbatch hstatus => h' batch (h batch hbatch hstatus) hstatus

/-- In every run in which no completed batch is completed again: every committed state has one
audit event and one webhook event for each subscribed endpoint for each completed batch, and none
for any other, and a batch once committed as completed is the same in every later state. -/
theorem settlement_final (requests : List Request)
    (hrequests : ∀ r ∈ requests, r.action.settles = true) {start : DB}
    (hstart : start.CompletedOnce)
    (schedule : List Event)
    (hmeets : Config.CommitsMeet StillPending (Config.start start (requests.map Request.handler))
      schedule) :
    (∀ s ∈ ((Config.start start (requests.map Request.handler)).run schedule).history,
      s.CompletedOnce) ∧
    ((Config.start start (requests.map Request.handler)).run schedule).history.Pairwise
      DB.KeepsCompleted := by
  have hget : ∀ (i : ℕ) (p : Tx Unit), (requests.map Request.handler)[i]? = some p →
      ∃ r, requests[i]? = some r ∧ p = r.handler := by
    intro i p hp
    rw [List.getElem?_map, Option.map_eq_some_iff] at hp
    obtain ⟨r, hr, rfl⟩ := hp
    exact ⟨r, hr, rfl⟩
  obtain ⟨log, hrun⟩ := Config.run_disciplined (D := batchDiscipline) (s := start)
    (Q := fun i _ l => ∀ r, requests[i]? = some r → r.EndsSettling l)
    (C := fun _ _ s t => DB.CompletedOnce t ∧ s.KeepsCompleted t) (M := StillPending) hstart
    (fun i p hp => by
      obtain ⟨r, hr, rfl⟩ := hget i p hp
      refine Txn.lwp_consequence (settles_lwp (hrequests r (List.mem_of_getElem? hr)) start)
        (fun _ l h r' hr' => ?_) fun _ _ h => h
      rw [← Option.some.inj (hr.symm.trans hr')]
      exact h)
    (fun i p a l seen s hp hleaves _ hl hs hM => by
      obtain ⟨r, hr, rfl⟩ := hget i p hp
      obtain ⟨honce, hevolves, hkeeps, hcompleted⟩ := settles_commit (hl r hr) hs hleaves hM
      exact ⟨honce, hevolves, hkeeps, honce, hcompleted⟩)
    schedule hmeets
  obtain ⟨hall, hchain⟩ := hrun.commits.history hstart fun _ _ s t h _ => h
  refine ⟨hall, ?_⟩
  have htrans : IsTrans DB DB.KeepsCompleted := ⟨fun _ _ _ => keepsCompleted_trans⟩
  exact List.isChain_iff_pairwise.mp hchain

/-! ## One batch, completed once and twice -/

/-- A school with an endpoint that hears of completed settlements. -/
def subscribedSchool : DB :=
  { smallInstallation with endpoints := [⟨1, 1, true, []⟩] }

theorem subscribedSchool_completedOnce : subscribedSchool.CompletedOnce where
  batches := List.nodup_nil
  endpoints := List.nodup_singleton 1
  audits _ := by simp [subscribedSchool, smallInstallation]
  deliveries _ _ _ := by simp [subscribedSchool, smallInstallation]

/-- A batch is generated, and completed under the reference of the bank. -/
def completedBatch : List Request :=
  [⟨envAt 4 (answering .pending "" ""), .generateBatch 1 1 0 5⟩,
   ⟨envAt 6 (answering .pending "" ""), .markCompleted 4 "TX-1"⟩]

/-- The completion is submitted again with another reference. -/
def submittedTwice : List Request :=
  completedBatch ++ [⟨envAt 7 (answering .pending "" ""), .markCompleted 4 "TX-2"⟩]

/-- The requests one after the other. -/
def inTurn : List Event :=
  List.replicate 20 (.advance 0) ++ List.replicate 20 (.advance 1) ++
    List.replicate 20 (.advance 2)

theorem settlement_final_once :
    ∃ s ∈ ((Config.start subscribedSchool (completedBatch.map Request.handler)).run inTurn).history,
      s.CompletedOnce ∧ ∃ batch ∈ s.batches, batch.status = .completed := by
  obtain ⟨honce, -⟩ := settlement_final completedBatch (by decide) subscribedSchool_completedOnce
    inTurn (by decide +kernel)
  have hlast : ∃ s ∈ ((Config.start subscribedSchool (completedBatch.map Request.handler)).run
      inTurn).history, ∃ batch ∈ s.batches, batch.status = .completed := by decide +kernel
  obtain ⟨s, hs, hcompleted⟩ := hlast
  exact ⟨s, hs, honce s hs, hcompleted⟩

/-- The second completion writes another reference over the first, and announces it again. -/
theorem settlement_rewritten :
    ¬∀ (requests : List Request) (start : DB) (schedule : List Event),
      (∀ r ∈ requests, r.action.settles = true) → start.CompletedOnce →
      (∀ s ∈ ((Config.start start (requests.map Request.handler)).run schedule).history,
        s.CompletedOnce) ∧
      ((Config.start start (requests.map Request.handler)).run schedule).history.Pairwise
        DB.KeepsCompleted := by
  intro hall
  obtain ⟨honce, -⟩ := hall submittedTwice subscribedSchool inTurn (by decide)
    subscribedSchool_completedOnce
  have htwice : ∃ s ∈ ((Config.start subscribedSchool
      (submittedTwice.map Request.handler)).run inTurn).history,
        (s.auditLog.filter (·.completesBatch 4)).length = 2 := by decide +kernel
  obtain ⟨s, hs, hlength⟩ := htwice
  have hle := (honce s hs).audits 4
  rw [hlength] at hle
  split at hle
  · cases hle
  · cases hle

end Kusanya
