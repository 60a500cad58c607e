import Kusanya.Model.WebhookTasks

/-!
# The webhook delivery machine

A delivery is promised to end `DELIVERED` or `DEAD_LETTER` after at most `max_attempts`
requests, with a further execution scheduled until then and none having an effect
afterwards.  The task keeps the promise exactly when one of its first executions gets a
2xx answer and every answer up to it can be stored: a NUL or a surrogate in an answer ends
the task with the row as it was, Celery stops after six retries whatever the row allows, and a
row in the dead letters is sent again when the task runs again.
-/

namespace Kusanya.Webhooks

open Support

/-! ## The promise -/

/-- The row waits for a further execution. -/
def Delivery.isOpen (row : Delivery) : Prop := row.status = .pending ∨ row.status = .retrying

/-- After each execution the column counts the requests made, `sent` of them before. -/
def Counts (sent : ℕ) : List Execution → Prop
  | [] => True
  | e :: rest =>
      e.row.attemptCount = sent + e.posts.length ∧ e.row.attemptCount ≤ e.row.maxAttempts ∧
        Counts (sent + e.posts.length) rest

/-- A further execution of the task does nothing. -/
def Delivery.IsSettled (row : Delivery) : Prop :=
  ∀ (retries : ℕ) (attempt : Attempt), deliverFound retries row attempt = ⟨row, [], .finished⟩

/-- What is promised of the executions of a task on `row`. -/
structure Promised (row : Delivery) (attempts : ℕ → Attempt) (run : List Execution) : Prop where
  counts : Counts 0 run
  scheduled : ∀ e ∈ run, e.row.isOpen → ∃ countdown, e.ending = .retry countdown
  settled : ∀ e ∈ run, ¬e.row.isOpen → e.row.IsSettled
  ends : ∃ e, run.getLast? = some e ∧ e.row.status =
    if ∃ i < row.maxAttempts, (attempts i).answer.succeeds = true then .delivered
    else .deadLetter

/-- The `j`-th attempt is a success that the task gets to: the row and Celery allow it, and
no answer up to it is refused by the database. -/
def GetsThrough (maxAttempts : ℕ) (attempts : ℕ → Attempt) (j : ℕ) : Prop :=
  j < maxAttempts ∧ j ≤ maxRetries ∧ (attempts j).answer.succeeds = true ∧
    ∀ i ≤ j, (attempts i).answer.isStorable = true

/-! ## Runs -/

theorem executions_ne_nil (attempts : ℕ → Attempt) (left : ℕ) (row : Delivery) :
    executions attempts left row ≠ [] := by
  cases left with
  | zero => exact List.cons_ne_nil _ _
  | succ left => exact List.cons_ne_nil _ _

section Step

variable {attempts : ℕ → Attempt} {left : ℕ} {row : Delivery}

/-- A run whose first execution asks for no retry is that execution. -/
theorem executions_stop {e : Execution}
    (h : deliverFound (maxRetries - left) row (attempts (maxRetries - left)) = e)
    (hend : ∀ countdown, e.ending ≠ .retry countdown) : executions attempts left row = [e] := by
  cases left with
  | zero =>
      rw [executions, ← h]
      rfl
  | succ left =>
      rw [executions, h]
      cases hending : e.ending with
      | retry countdown => exact absurd hending (hend countdown)
      | finished => rfl
      | failed error => rfl

theorem executions_retry {e : Execution} {countdown : ℕ}
    (h : deliverFound (maxRetries - (left + 1)) row (attempts (maxRetries - (left + 1))) = e)
    (hend : e.ending = .retry countdown) :
    executions attempts (left + 1) row = e :: executions attempts left e.row := by
  simp only [executions, h, hend]

end Step

/-- A row in the middle of its task, `n` attempts made. -/
structure Delivery.Midway (row : Delivery) (n : ℕ) : Prop where
  isOpen : row.isOpen
  count : row.attemptCount = n
  count_lt : n < row.maxAttempts

theorem Delivery.isOpen.ne_delivered {row : Delivery} (h : row.isOpen) :
    row.status ≠ .delivered := by
  rcases h with h | h <;> simp [h]

section Midway

variable {attempts : ℕ → Attempt} {row : Delivery} {n left : ℕ}

/-- The next execution continues a run that neither succeeded nor used up its attempts. -/
theorem Delivery.Midway.next (hrow : row.Midway n) (h : row.attemptCount + 1 < row.maxAttempts)
    (attempt : Attempt) :
    Delivery.Midway { row.answered attempt with status := .retrying } (n + 1) where
  isOpen := Or.inr rfl
  count := congrArg (· + 1) hrow.count
  count_lt := hrow.count ▸ h

/-- The attempts from the `n`-th on get through to a success. -/
def GetsThroughFrom (n maxAttempts : ℕ) (attempts : ℕ → Attempt) : Prop :=
  ∃ j, n ≤ j ∧ j < maxAttempts ∧ j ≤ maxRetries ∧ (attempts j).answer.succeeds = true ∧
    ∀ i, n ≤ i → i ≤ j → (attempts i).answer.isStorable = true

/-- An attempt that can be stored and is no success leaves the question to the next. -/
theorem getsThroughFrom_succ {max : ℕ} (hstore : (attempts n).answer.isStorable = true)
    (hfail : (attempts n).answer.succeeds = false) :
    GetsThroughFrom n max attempts ↔ GetsThroughFrom (n + 1) max attempts := by
  constructor
  · rintro ⟨j, hnj, hj, hretries, hsuccess, hall⟩
    have hne : j ≠ n := by
      rintro rfl
      rw [hfail] at hsuccess
      cases hsuccess
    exact ⟨j, by omega, hj, hretries, hsuccess, fun i hi => hall i (by omega)⟩
  · rintro ⟨j, hnj, hj, hretries, hsuccess, hall⟩
    refine ⟨j, by omega, hj, hretries, hsuccess, fun i hi hij => ?_⟩
    by_cases hin : i = n
    · rwa [hin]
    · exact hall i (by omega) hij

/-- The step of the two run lemmas: the run ends here with a row that is not delivered and
gets through to nothing, or it ends here with a success, or it goes on. -/
theorem executions_cases (attempts : ℕ → Attempt) (hrow : row.Midway n)
    (hleft : n + left = maxRetries) :
    (∃ e, executions attempts left row = [e] ∧ e.row.status ≠ .delivered ∧
      (∀ countdown, e.ending ≠ .retry countdown) ∧ ¬GetsThroughFrom n row.maxAttempts attempts) ∨
    (∃ post, executions attempts left row =
        [⟨row.answered (attempts n), [post], .finished⟩] ∧
      (attempts n).answer.succeeds = true ∧ GetsThroughFrom n row.maxAttempts attempts) ∨
    ∃ rest post countdown, left = rest + 1 ∧
      executions attempts left row =
        ⟨{ row.answered (attempts n) with status := .retrying }, [post], .retry countdown⟩ ::
          executions attempts rest { row.answered (attempts n) with status := .retrying } ∧
      row.attemptCount + 1 < row.maxAttempts ∧
      (GetsThroughFrom n row.maxAttempts attempts ↔
        GetsThroughFrom (n + 1) row.maxAttempts attempts) := by
  have hn : maxRetries - left = n := by omega
  have hcount := hrow.count
  obtain ⟨post, hcases⟩ := deliverFound_cases hrow.isOpen.ne_delivered n (attempts n)
  rw [← hn] at hcases
  rcases hcases with ⟨hstore, he⟩ | ⟨hstore, hsuccess, he⟩ | ⟨hstore, hfail, hmax, he⟩ |
    ⟨hstore, hfail, hmax, he⟩
  · left
    refine ⟨_, executions_stop he (by simp), hrow.isOpen.ne_delivered, by simp, ?_⟩
    rintro ⟨j, hnj, -, -, -, hall⟩
    rw [hn, hall n (Nat.le_refl n) hnj] at hstore
    cases hstore
  · right
    left
    rw [hn] at he hsuccess hstore
    refine ⟨post, executions_stop (hn.symm ▸ he) (by simp), hsuccess, n, Nat.le_refl n,
      hrow.count_lt, by omega, hsuccess, fun i hi hin => ?_⟩
    rwa [Nat.le_antisymm hin hi]
  · left
    refine ⟨_, executions_stop he (by simp), by simp, by simp, ?_⟩
    rintro ⟨j, hnj, hj, -, hsuccess, -⟩
    have hjn : j = n := by omega
    rw [hn, ← hjn, hsuccess] at hfail
    cases hfail
  · cases left with
    | zero =>
        left
        have hretry : retryTask maxRetries (min (2 ^ (row.attemptCount + 1) * 5) 300) =
            .failed .maxRetriesExceeded := if_neg (by omega)
        rw [show maxRetries - 0 = maxRetries from rfl, hretry] at he
        refine ⟨_, executions_stop he (by simp), by simp, by simp, ?_⟩
        · rintro ⟨j, hnj, -, hj, hsuccess, -⟩
          have hjn : j = n := by omega
          rw [hn, ← hjn, hsuccess] at hfail
          cases hfail
    | succ rest =>
        right
        right
        have hretry : retryTask (maxRetries - (rest + 1))
            (min (2 ^ (row.attemptCount + 1) * 5) 300) =
            .retry (min (2 ^ (row.attemptCount + 1) * 5) 300) := if_pos (by omega)
        rw [hretry] at he
        have hgo := executions_retry he rfl
        rw [hn] at hgo hstore hfail
        exact ⟨rest, post, _, rfl, hgo, hmax, getsThroughFrom_succ hstore hfail⟩

/-- The last row of a run is delivered exactly if the run gets through to a success. -/
theorem last_delivered_iff (attempts : ℕ → Attempt) (hrow : row.Midway n)
    (hleft : n + left = maxRetries) :
    (∃ e, (executions attempts left row).getLast? = some e ∧ e.row.status = .delivered) ↔
      GetsThroughFrom n row.maxAttempts attempts := by
  induction left using Nat.strong_induction_on generalizing row n with
  | h left ih =>
      have hcases := executions_cases attempts hrow hleft
      rcases hcases with ⟨e, he, hstatus, -, hnot⟩ | ⟨post, he, hsuccess, hgets⟩ |
        ⟨rest, post, countdown, rfl, he, hmax, hiff⟩
      · rw [he]
        constructor
        · rintro ⟨e', hlast, hdelivered⟩
          obtain rfl := Option.some.inj hlast
          exact absurd hdelivered hstatus
        · intro h
          exact absurd h hnot
      · rw [he]
        constructor
        · intro _
          exact hgets
        · intro _
          refine ⟨_, rfl, ?_⟩
          simp [Delivery.answered, hsuccess]
      · have hnext := hrow.next hmax (attempts n)
        rw [he, List.getLast?_cons_of_ne_nil (executions_ne_nil _ _ _), hiff]
        exact ih rest (Nat.lt_succ_self rest) hnext (by omega)

/-- The last execution of a run asks for no retry. -/
theorem last_not_retry (attempts : ℕ → Attempt) (hrow : row.Midway n)
    (hleft : n + left = maxRetries) {e : Execution}
    (hlast : (executions attempts left row).getLast? = some e) (countdown : ℕ) :
    e.ending ≠ .retry countdown := by
  induction left using Nat.strong_induction_on generalizing row n with
  | h left ih =>
      have hcases := executions_cases attempts hrow hleft
      rcases hcases with ⟨e', he, -, hend, -⟩ | ⟨post, he, -, -⟩ |
        ⟨rest, post, countdown', rfl, he, hmax, -⟩
      · rw [he] at hlast
        obtain rfl := Option.some.inj hlast
        exact hend countdown
      · rw [he] at hlast
        obtain rfl := Option.some.inj hlast
        simp
      · rw [he, List.getLast?_cons_of_ne_nil (executions_ne_nil _ _ _)] at hlast
        exact ih rest (Nat.lt_succ_self rest) (hrow.next hmax (attempts n)) (by omega) hlast

/-- A run that gets through counts its requests, schedules an execution after every failure
and closes the row with a success only. -/
theorem run_of_getsThrough (attempts : ℕ → Attempt) (hrow : row.Midway n)
    (hleft : n + left = maxRetries)
    (hgets : GetsThroughFrom n row.maxAttempts attempts) :
    Counts n (executions attempts left row) ∧
    ∀ e ∈ executions attempts left row,
      (e.row.isOpen ∧ ∃ countdown, e.ending = .retry countdown) ∨ e.row.status = .delivered := by
  have hcount := hrow.count
  have hlt := hrow.count_lt
  induction left using Nat.strong_induction_on generalizing row n with
  | h left ih =>
      have hcases := executions_cases attempts hrow hleft
      rcases hcases with ⟨e, he, -, -, hnot⟩ | ⟨post, he, hsuccess, -⟩ |
        ⟨rest, post, countdown, rfl, he, hmax, hiff⟩
      · exact absurd hgets hnot
      · rw [he]
        constructor
        · exact ⟨congrArg (· + 1) hcount, hcount ▸ hlt, trivial⟩
        · intro e hmem
          obtain rfl := List.mem_singleton.mp hmem
          right
          simp [Delivery.answered, hsuccess]
      · have hnext := hrow.next hmax (attempts n)
        obtain ⟨hcounts, hall⟩ := ih rest (Nat.lt_succ_self rest) hnext (by omega)
          (hiff.mp hgets) hnext.count hnext.count_lt
        rw [he]
        constructor
        · exact ⟨congrArg (· + 1) hcount, hcount ▸ hlt, hcounts⟩
        · intro e hmem
          rcases List.mem_cons.mp hmem with rfl | hmem
          · exact Or.inl ⟨Or.inr rfl, countdown, rfl⟩
          · exact hall e hmem

end Midway

/-! ## The promise, exactly -/

/-- A row is settled exactly if it is delivered: any other row is sent again. -/
theorem isSettled_iff (row : Delivery) : row.IsSettled ↔ row.status = .delivered := by
  constructor
  · intro h
    by_contra hstatus
    let attempt : Attempt := ⟨0, 0, .requestException []⟩
    obtain ⟨post, hcases⟩ := deliverFound_cases hstatus 0 attempt
    rw [h 0 attempt] at hcases
    simp at hcases
  · intro h retries attempt
    exact if_pos h

theorem midway_newDelivery (id : Text) (endpoint : Endpoint) (eventType : Text)
    (payload : StoredPayload)
    {maxAttempts : ℕ} (h : 1 ≤ maxAttempts) :
    (newDelivery id endpoint eventType payload maxAttempts).Midway 0 where
  isOpen := Or.inl rfl
  count := rfl
  count_lt := h

/-- For every new delivery and every sequence of answers: the task keeps its promise if and
only if one of the attempts that the row and Celery allow is a success and every answer up to
it is read and has neither NUL nor surrogate in the part that is stored. -/
theorem webhook_delivery_machine (id : Text) (endpoint : Endpoint) (eventType : Text)
    (payload : StoredPayload) (maxAttempts : ℕ) (attempts : ℕ → Attempt) (h : 1 ≤ maxAttempts) :
    Promised (newDelivery id endpoint eventType payload maxAttempts) attempts
        (taskRun attempts (newDelivery id endpoint eventType payload maxAttempts)) ↔
      ∃ j, GetsThrough maxAttempts attempts j := by
  have hrow := midway_newDelivery id endpoint eventType payload h
  have hfrom : (∃ j, GetsThrough maxAttempts attempts j) ↔
      GetsThroughFrom 0 maxAttempts attempts := by
    simp [GetsThrough, GetsThroughFrom]
  have hleft : 0 + maxRetries = maxRetries := rfl
  have hlast := last_delivered_iff attempts hrow hleft
  rw [hfrom]
  constructor
  · intro hpromise
    obtain ⟨e, he, hend⟩ := hpromise.ends
    have hmem : e ∈ taskRun attempts (newDelivery id endpoint eventType payload maxAttempts) :=
      List.mem_of_getLast? he
    have hclosed : ¬e.row.isOpen := by
      intro hopen
      obtain ⟨countdown, hretry⟩ := hpromise.scheduled e hmem hopen
      exact last_not_retry attempts hrow hleft he countdown hretry
    exact hlast.mp ⟨e, he, (isSettled_iff e.row).mp (hpromise.settled e hmem hclosed)⟩
  · intro hgets
    obtain ⟨hcounts, hall⟩ := run_of_getsThrough attempts hrow hleft hgets
    obtain ⟨e, he, hdelivered⟩ := hlast.mpr hgets
    obtain ⟨j, -, hj, -, hsuccess, -⟩ := hgets
    constructor
    · exact hcounts
    · intro e hmem hopen
      rcases hall e hmem with ⟨-, hretry⟩ | hdelivered
      · exact hretry
      · exact absurd hdelivered hopen.ne_delivered
    · intro e hmem hclosed
      rcases hall e hmem with ⟨hopen, -⟩ | hdelivered
      · exact absurd hopen hclosed
      · exact (isSettled_iff e.row).mpr hdelivered
    · refine ⟨e, he, ?_⟩
      rw [hdelivered, if_pos ⟨j, hj, hsuccess⟩]

/-- The payload `{}`. -/
def emptyPayload : StoredPayload := ⟨.obj [], rfl⟩

/-- An error page first, then a success. -/
theorem webhook_delivery_secondAttempt :
    Promised (newDelivery [] ⟨[], []⟩ [] emptyPayload 6)
      (fun i => ⟨0, 0, .response (if i = 0 then 500 else 200) (some [])⟩)
      (taskRun (fun i => ⟨0, 0, .response (if i = 0 then 500 else 200) (some [])⟩)
        (newDelivery [] ⟨[], []⟩ [] emptyPayload 6)) :=
  (webhook_delivery_machine [] ⟨[], []⟩ [] emptyPayload 6 _ (by decide)).mpr
    ⟨1, by decide, by decide, by decide, by decide⟩

/-- An endpoint that answers 500 every time: the row in the dead letters is sent again. -/
theorem webhook_deadLetter_sentAgain :
    ¬Promised (newDelivery [] ⟨[], []⟩ [] emptyPayload 6) (fun _ => ⟨0, 0, .response 500 (some [])⟩)
      (taskRun (fun _ => ⟨0, 0, .response 500 (some [])⟩)
        (newDelivery [] ⟨[], []⟩ [] emptyPayload 6)) := by
  intro hpromise
  obtain ⟨e, he, hend⟩ := hpromise.ends
  have hdead : e.row.status = .deadLetter := by
    rw [hend, if_neg]
    rintro ⟨i, -, hsuccess⟩
    cases hsuccess
  have hsettled := hpromise.settled e (List.mem_of_getLast? he) (by simp [Delivery.isOpen, hdead])
  rw [isSettled_iff, hdead] at hsettled
  cases hsettled

end Kusanya.Webhooks
