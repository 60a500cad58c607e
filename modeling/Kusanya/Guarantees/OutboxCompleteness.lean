import Kusanya.Invariants.Runs
import Kusanya.Model.OnCommit
import Kusanya.Moves.Composed
import Kusanya.Moves.Outbox

/-!
# Every committed row of the outbox gets its task

A request registers one callback for each notification and each delivery that it commits, whatever
savepoints it has rolled back on its way.  The callbacks are run in order and the first `delay()`
that fails ends them: the later rows stay without a task and the committed request is answered
with an error.
-/

namespace Kusanya

open ReadCommitted

/-! ## What a request registers -/

def Task.notification? : Task → Option Notification
  | .deliverNotification row => some row
  | .deliverWebhook _ => none

def Task.delivery? : Task → Option WebhookDelivery
  | .deliverNotification _ => none
  | .deliverWebhook row => some row

/-- The tables of the outbox have grown by the rows of the callbacks registered meanwhile. -/
def Registered (s t : DB) (tasks : List Task) : Prop :=
  t.onCommit = s.onCommit ++ tasks ∧
    t.notifications = s.notifications ++ tasks.filterMap Task.notification? ∧
    t.deliveries = s.deliveries ++ tasks.filterMap Task.delivery?

section Registered

variable {s t u : DB} {tasks tasks' : List Task}

theorem Registered.refl (s : DB) : Registered s s [] := by simp [Registered]

theorem Registered.trans (h : Registered s t tasks) (h' : Registered t u tasks') :
    Registered s u (tasks ++ tasks') := by
  obtain ⟨hcommit, hnotifications, hdeliveries⟩ := h
  obtain ⟨hcommit', hnotifications', hdeliveries'⟩ := h'
  refine ⟨?_, ?_, ?_⟩
  · rw [hcommit', hcommit, List.append_assoc]
  · rw [hnotifications', hnotifications, List.filterMap_append, List.append_assoc]
  · rw [hdeliveries', hdeliveries, List.filterMap_append, List.append_assoc]

theorem registered_notices (rows : List Notification) :
    Registered s (inTrail (·.addNotifications rows) s) (rows.map .deliverNotification) := by
  refine ⟨rfl, ?_, ?_⟩
  · rw [List.filterMap_map, show Task.notification? ∘ Task.deliverNotification = some from rfl,
      List.filterMap_some]
    rfl
  · rw [List.filterMap_map, show Task.delivery? ∘ Task.deliverNotification = fun _ => none from rfl,
      List.filterMap_none, List.append_nil]
    rfl

/-- The writes that leave the outbox alone. -/
theorem Extra.outbox {w : DB → DB} (h : Extra w) (s : DB) : Registered s (w s) [] := by
  suffices hsame : (w s).onCommit = s.onCommit ∧ (w s).notifications = s.notifications ∧
      (w s).deliveries = s.deliveries by simp [Registered, hsame]
  cases h with
  | run w hrun => cases hrun <;> exact ⟨rfl, rfl, rfl⟩
  | tenant tenant f => exact ⟨rfl, rfl, rfl⟩

end Registered

/-- Whatever is composed of the services' statements registers a callback for each row it leaves
in the outbox; a savepoint that is rolled back takes both away. -/
theorem Composed.registered {env : Env} {α : Type} {p : Tx α} (hp : Composed env Extra p) {s t : DB}
    {a : α} (h : p.exec s = .ok (a, t)) : ∃ tasks, Registered s t tasks := by
  induction hp generalizing s t with
  | ret b =>
      obtain ⟨-, rfl⟩ := Prod.mk.inj (Except.ok.inj h)
      exact ⟨[], .refl _⟩
  | throw e => cases h
  | fetch k q _ =>
      obtain ⟨-, rfl⟩ := Prod.mk.inj (Except.ok.inj h)
      exact ⟨[], .refl _⟩
  | onBooks w =>
      obtain ⟨-, rfl⟩ := Prod.mk.inj (Except.ok.inj h)
      exact ⟨[], .refl s⟩
  | audit row =>
      obtain ⟨-, rfl⟩ := Prod.mk.inj (Except.ok.inj h)
      exact ⟨[], by simp [Registered, Trail.addAudit]⟩
  | delivery row =>
      obtain ⟨-, rfl⟩ := Prod.mk.inj (Except.ok.inj h)
      refine ⟨[.deliverWebhook row], rfl, ?_, rfl⟩
      simp [Task.notification?, Trail.addDelivery]
  | send tenant eventType channel context recipient =>
      rw [exec_sendOn] at h
      split at h
      · next rows _ =>
          obtain ⟨-, rfl⟩ := Prod.mk.inj (Except.ok.inj h)
          exact ⟨_, registered_notices rows⟩
      · cases h
  | extra w hw =>
      obtain ⟨-, rfl⟩ := Prod.mk.inj (Except.ok.inj h)
      exact ⟨[], hw.outbox _⟩
  | acquire k =>
      obtain ⟨-, rfl⟩ := Prod.mk.inj (Except.ok.inj h)
      exact ⟨[], .refl _⟩
  | invoke v =>
      obtain ⟨-, rfl⟩ := Prod.mk.inj (Except.ok.inj h)
      exact ⟨[], .refl _⟩
  | bind _ _ ihp ihf =>
      obtain ⟨b, u, hfirst, hsecond⟩ := (Txn.exec_bind_ok _).mp h
      obtain ⟨tasks, htasks⟩ := ihp hfirst
      obtain ⟨tasks', htasks'⟩ := ihf b hsecond
      exact ⟨tasks ++ tasks', htasks.trans htasks'⟩
  | attempt _ ih =>
      rw [Txn.exec_tryAtomic] at h
      split at h
      · next hbody =>
          obtain ⟨-, rfl⟩ := Prod.mk.inj (Except.ok.inj h)
          exact ih hbody
      · split at h
        · obtain ⟨-, rfl⟩ := Prod.mk.inj (Except.ok.inj h)
          exact ⟨[], .refl _⟩
        · cases h
  | showing _ hearly ih =>
      rcases exec_ok_showingErrors hearly h with hbody | rfl
      · exact ih hbody
      · exact ⟨[], .refl _⟩

/-! ## Rows and callbacks -/

section Rows

variable {tasks : List Task} {n d : ℕ}

theorem notification_mem_rows {k : ℕ} : OutboxRow.notification k ∈ Task.rows n d tasks ↔
    n ≤ k ∧ k < n + (tasks.filterMap Task.notification?).length := by
  induction tasks generalizing n d with
  | nil => simp [Task.rows]
  | cons task rest ih =>
      cases task with
      | deliverNotification row =>
          simp only [Task.rows, List.mem_cons, OutboxRow.notification.injEq, ih,
            List.filterMap_cons, Task.notification?, List.length_cons]
          omega
      | deliverWebhook row => simp [Task.rows, Task.notification?, List.filterMap_cons, ih]

theorem delivery_mem_rows {k : ℕ} : OutboxRow.delivery k ∈ Task.rows n d tasks ↔
    d ≤ k ∧ k < d + (tasks.filterMap Task.delivery?).length := by
  induction tasks generalizing n d with
  | nil => simp [Task.rows]
  | cons task rest ih =>
      cases task with
      | deliverNotification row => simp [Task.rows, Task.delivery?, List.filterMap_cons, ih]
      | deliverWebhook row =>
          simp only [Task.rows, List.mem_cons, OutboxRow.delivery.injEq, ih,
            List.filterMap_cons, Task.delivery?, List.length_cons]
          omega

/-- No two callbacks are about the same row. -/
theorem rows_nodup : (Task.rows n d tasks).Nodup := by
  induction tasks generalizing n d with
  | nil => exact List.nodup_nil
  | cons task rest ih =>
      cases task with
      | deliverNotification row =>
          refine List.nodup_cons.mpr ⟨fun hmem => ?_, ih⟩
          have := (notification_mem_rows.mp hmem).1
          omega
      | deliverWebhook row =>
          refine List.nodup_cons.mpr ⟨fun hmem => ?_, ih⟩
          have := (delivery_mem_rows.mp hmem).1
          omega

end Rows

section Created

variable {s t : DB} {tasks : List Task}

theorem notification_mem_outboxRows {db : DB} {k : ℕ} :
    OutboxRow.notification k ∈ db.outboxRows ↔ k < db.notifications.length := by
  simp [DB.outboxRows]

theorem delivery_mem_outboxRows {db : DB} {k : ℕ} :
    OutboxRow.delivery k ∈ db.outboxRows ↔ k < db.deliveries.length := by
  simp [DB.outboxRows]

/-- The callbacks registered are about the rows created. -/
theorem Registered.mem_created (h : Registered s t tasks) (row : OutboxRow) :
    row ∈ s.registered t ↔ row ∈ s.created t := by
  obtain ⟨hcommit, hnotifications, hdeliveries⟩ := h
  have htasks : t.onCommit.drop s.onCommit.length = tasks := by rw [hcommit, List.drop_left]
  rw [DB.registered, htasks, DB.created, List.mem_filter, decide_eq_true_iff]
  cases row with
  | notification k =>
      rw [notification_mem_rows, notification_mem_outboxRows, notification_mem_outboxRows,
        hnotifications, List.length_append, not_lt]
      exact and_comm
  | delivery k =>
      rw [delivery_mem_rows, delivery_mem_outboxRows, delivery_mem_outboxRows, hdeliveries,
        List.length_append, not_lt]
      exact and_comm

end Created

/-! ## The callbacks after the commit -/

section OnCommit

variable (broker : OutboxRow → Bool) (rows : List OutboxRow)

theorem enqueued_prefix : (runOnCommit broker rows).enqueued <+: rows := by
  induction rows with
  | nil => exact List.nil_prefix
  | cons row rest ih =>
      unfold runOnCommit
      split
      · exact List.cons_prefix_cons.mpr ⟨rfl, ih⟩
      · exact List.nil_prefix

theorem answered_iff :
    (runOnCommit broker rows).answered = true ↔ ∀ row ∈ rows, broker row = true := by
  induction rows with
  | nil => simp [runOnCommit]
  | cons row rest ih =>
      unfold runOnCommit
      by_cases hrow : broker row = true
      · simp [hrow, ih]
      · simp [hrow]

theorem enqueued_of_answered (h : (runOnCommit broker rows).answered = true) :
    (runOnCommit broker rows).enqueued = rows := by
  induction rows with
  | nil => rfl
  | cons row rest ih =>
      have hall := (answered_iff broker _).mp h
      have hrest := (answered_iff broker rest).mpr fun r hr => hall r (List.mem_cons_of_mem _ hr)
      simp [runOnCommit, hall row List.mem_cons_self, ih hrest]

end OnCommit

/-! ## Completeness -/

/-- What the callbacks of a request that has brought `s` to `t` should leave, for the answers of
the broker to `delay()`. -/
structure OutboxComplete (broker : OutboxRow → Bool) (s t : DB) : Prop where
  committed : ∀ row ∈ (runOnCommit broker (s.registered t)).enqueued, row ∈ s.created t
  once : (runOnCommit broker (s.registered t)).enqueued.Nodup
  every : ∀ row ∈ s.created t, broker row = true →
    row ∈ (runOnCommit broker (s.registered t)).enqueued
  answered : (runOnCommit broker (s.registered t)).answered = true

instance (broker : OutboxRow → Bool) (s t : DB) : Decidable (OutboxComplete broker s t) :=
  decidable_of_iff
    ((∀ row ∈ (runOnCommit broker (s.registered t)).enqueued, row ∈ s.created t) ∧
      (runOnCommit broker (s.registered t)).enqueued.Nodup ∧
      (∀ row ∈ s.created t, broker row = true →
        row ∈ (runOnCommit broker (s.registered t)).enqueued) ∧
      (runOnCommit broker (s.registered t)).answered = true)
    ⟨fun ⟨h₁, h₂, h₃, h₄⟩ => ⟨h₁, h₂, h₃, h₄⟩, fun ⟨h₁, h₂, h₃, h₄⟩ => ⟨h₁, h₂, h₃, h₄⟩⟩

theorem exists_registered (request : Request) (s : DB) :
    ∃ tasks, Registered s (request.handler.commit s) tasks := by
  rcases Txn.commit_cases request.handler s with ⟨-, hsame⟩ | hok
  · rw [hsame]
    exact ⟨[], .refl s⟩
  · exact (handler_composed request).registered hok

/-- A request's outbox is complete exactly when every `delay()` call for a row it commits
returns. -/
theorem outbox_completeness (request : Request) (broker : OutboxRow → Bool) (s : DB) :
    OutboxComplete broker s (request.handler.commit s) ↔
      ∀ row ∈ s.created (request.handler.commit s), broker row = true := by
  obtain ⟨tasks, htasks⟩ := exists_registered request s
  have hmem := htasks.mem_created
  have hreached := enqueued_prefix broker (s.registered (request.handler.commit s))
  constructor
  · intro hcomplete row hrow
    exact (answered_iff broker _).mp hcomplete.answered row ((hmem row).mpr hrow)
  · intro hall
    have hanswered := (answered_iff broker _).mpr fun row hrow => hall row ((hmem row).mp hrow)
    refine ⟨fun row hrow => (hmem row).mp (hreached.subset hrow), ?_, fun row hrow _ => ?_,
      hanswered⟩
    · exact rows_nodup.sublist hreached.sublist
    · rw [enqueued_of_answered broker _ hanswered]
      exact (hmem row).mpr hrow

/-- An installation with two webhook endpoints that are subscribed to everything. -/
def twoListeners : DB :=
  { smallInstallation with endpoints := [⟨1, 1, true, []⟩, ⟨2, 1, true, []⟩] }

/-- A bill is announced to two endpoints; the broker is away for the first call only. -/
theorem outbox_completeness_failing :
    ¬∀ (request : Request) (broker : OutboxRow → Bool) (s : DB),
      OutboxComplete broker s (request.handler.commit s) := by
  intro hall
  have hcomplete := hall issueBill (fun row => row ≠ .delivery 0) twoListeners
  have hskipped : OutboxRow.delivery 1 ∈
      (runOnCommit (fun row => row ≠ .delivery 0)
        (twoListeners.registered (issueBill.handler.commit twoListeners))).enqueued :=
    hcomplete.every _ (by decide +kernel) rfl
  exact absurd hskipped (by decide +kernel)

end Kusanya
