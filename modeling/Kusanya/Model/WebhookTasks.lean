import Kusanya.Model.Signing
import Kusanya.Model.Vocabulary

/-!
# The webhook delivery task

`apps.webhooks.tasks`.  A Celery worker runs it outside any transaction, so each `save`
is committed by itself; an exception that the task does not catch ends it without a
retry.  Where a row cannot be saved the exception comes from the database driver, which
refuses a text with a NUL or a surrogate, or from reading the answer.
-/

namespace Kusanya.Webhooks

open Support

/-! ## Rows -/

/-- `WebhookDeliveryStatus`. -/
inductive DeliveryStatus where
  | pending | retrying | delivered | deadLetter
  deriving DecidableEq, Repr

/-- The columns of `WebhookEndpoint` that the task reads. -/
structure Endpoint where
  url : Text
  secret : Text

/-- The payload of a row: `json.loads` has read its integers. -/
structure StoredPayload where
  value : PyJson
  printable : IsPrintable value

/-- A `WebhookDelivery` with its endpoint. -/
structure Delivery where
  id : Text
  endpoint : Endpoint
  eventType : Text
  payload : StoredPayload
  status : DeliveryStatus
  attemptCount : ℕ
  maxAttempts : ℕ
  lastAttemptedAt : Option Time
  responseStatusCode : Option ℕ
  responseBody : Str

/-- The row that `WebhookDelivery.objects.create` inserts. -/
def newDelivery (id : Text) (endpoint : Endpoint) (eventType : Text)
    (payload : StoredPayload) (maxAttempts : ℕ) : Delivery where
  id := id
  endpoint := endpoint
  eventType := eventType
  payload := payload
  status := .pending
  attemptCount := 0
  maxAttempts := maxAttempts
  lastAttemptedAt := none
  responseStatusCode := none
  responseBody := []

/-! ## The request and its answer -/

/-- The arguments of `requests.post`. -/
structure Post where
  url : Text
  body : List ℕ
  headers : List (Text × Text)

/-- How `requests.post` ends: with a response, or with a `RequestException`.  There is no text
where `response.text` raises, as with the charset `undefined`. -/
inductive Answer where
  | response (statusCode : ℕ) (text : Option Str)
  | requestException (message : Str)

def Answer.statusCode? : Answer → Option ℕ
  | response statusCode _ => some statusCode
  | requestException _ => none

/-- What the row keeps of an answer. -/
def Answer.body : Answer → Option Str
  | response _ text => text.map (·.take 2000)
  | requestException message => some (message.take 2000)

/-- `200 <= response.status_code < 300`. -/
def Answer.succeeds : Answer → Bool
  | response statusCode _ => 200 ≤ statusCode && statusCode < 300
  | requestException _ => false

/-- The answer is read, and the database takes what is kept of it. -/
def Answer.isStorable (answer : Answer) : Bool := answer.body.any Str.isStorable

/-- One attempt: the clock when the request is signed and when it is counted, and the
answer it gets. -/
structure Attempt where
  signedAt : Time
  attemptedAt : Time
  answer : Answer

/-- The exceptions that end the task: `answer` stands for those of `response.text` and of the
`save` that follows. -/
inductive TaskError where
  | signing (e : SigningError)
  | answer
  | maxRetriesExceeded
  deriving DecidableEq

/-! ## `_perform_delivery` -/

/-- `str(int(timezone.now().timestamp()))`. -/
def timestamp (now : Time) : Text := Text.decimal (now / 10 ^ 6)

/-- The request that `_perform_delivery` sends. -/
def webhookPost (delivery : Delivery) (now : Time) : Except SigningError Post := do
  let body ← canonicalBody delivery.payload.value
  let signature ← buildSignature delivery.endpoint.secret (timestamp now) body
  pure
    { url := delivery.endpoint.url
      body
      headers :=
        [("Content-Type".toList, "application/json".toList),
         ("X-KUSANYA-Event".toList, delivery.eventType),
         ("X-KUSANYA-Delivery-Id".toList, delivery.id),
         ("X-KUSANYA-Timestamp".toList, timestamp now),
         ("X-KUSANYA-Signature".toList, "sha256=".toList ++ signature)] }

/-- The object after an answer. -/
def Delivery.answered (delivery : Delivery) (attempt : Attempt) : Delivery :=
  { delivery with
    attemptCount := delivery.attemptCount + 1
    lastAttemptedAt := some attempt.attemptedAt
    responseStatusCode := attempt.answer.statusCode?
    responseBody := attempt.answer.body.getD []
    status := if attempt.answer.succeeds then .delivered else delivery.status }

/-- How `_perform_delivery` ends. -/
inductive Performed where
  | raised (posts : List Post) (e : TaskError)
  | saved (post : Post) (delivery : Delivery) (success : Bool)

/-- `_perform_delivery`. -/
def performDelivery (delivery : Delivery) (attempt : Attempt) : Performed :=
  match webhookPost delivery attempt.signedAt with
  | .error e => .raised [] (.signing e)
  | .ok post =>
      if attempt.answer.isStorable then
        .saved post (delivery.answered attempt) attempt.answer.succeeds
      else .raised [post] .answer

/-! ## `deliver_webhook` -/

/-- How an execution of the task ends. -/
inductive Ending where
  | finished
  | retry (countdown : ℕ)
  | failed (e : TaskError)
  deriving DecidableEq

/-- An execution: the row as the database has it afterwards, the requests it made and
how it ended. -/
structure Execution where
  row : Delivery
  posts : List Post
  ending : Ending

/-- `@shared_task(max_retries=6)`. -/
def maxRetries : ℕ := 6

/-- `self.retry(countdown=…)` in an execution that is the `retries`-th retry. -/
def retryTask (retries countdown : ℕ) : Ending :=
  if retries + 1 ≤ maxRetries then .retry countdown else .failed .maxRetriesExceeded

/-- What `deliver_webhook` does after an attempt that failed. -/
def afterFailure (retries : ℕ) (post : Post) (delivery : Delivery) : Execution :=
  if delivery.maxAttempts ≤ delivery.attemptCount then
    ⟨{ delivery with status := .deadLetter }, [post], .finished⟩
  else
    ⟨{ delivery with status := .retrying }, [post],
      retryTask retries (min (2 ^ delivery.attemptCount * 5) 300)⟩

/-- `deliver_webhook` on a row that it finds. -/
def deliverFound (retries : ℕ) (delivery : Delivery) (attempt : Attempt) : Execution :=
  if delivery.status = .delivered then ⟨delivery, [], .finished⟩
  else
    match performDelivery delivery attempt with
    | .raised posts e => ⟨delivery, posts, .failed e⟩
    | .saved post delivery true => ⟨delivery, [post], .finished⟩
    | .saved post delivery false => afterFailure retries post delivery

/-- `deliver_webhook`; a row that no longer exists is only logged. -/
def deliverWebhook (retries : ℕ) (delivery : Option Delivery) (attempt : Attempt) :
    Option Execution :=
  delivery.map fun row => deliverFound retries row attempt

/-! ## The executions of one task -/

/-- The executions of a task that has `left` of its retries left, `attempts i` being the
attempt of its `i`-th retry. -/
def executions (attempts : ℕ → Attempt) : (left : ℕ) → Delivery → List Execution
  | 0, row => [deliverFound maxRetries row (attempts maxRetries)]
  | left + 1, row =>
      let retries := maxRetries - (left + 1)
      let execution := deliverFound retries row (attempts retries)
      execution ::
        match execution.ending with
        | .retry _ => executions attempts left execution.row
        | _ => []

/-- The executions of `deliver_webhook.delay(…)`. -/
def taskRun (attempts : ℕ → Attempt) (row : Delivery) : List Execution :=
  executions attempts maxRetries row

/-! ## One execution -/

theorem webhookPost_ok (delivery : Delivery) (now : Time) :
    ∃ post, webhookPost delivery now = .ok post := by
  have hbody := canonicalBody_ok delivery.payload.printable
  have hsign := buildSignature_utf8 delivery.endpoint.secret (timestamp now)
    (JsonOf.compactDumps JsonOf.quote delivery.payload.value)
  simp only [webhookPost, hbody, hsign, bind, Except.bind]
  exact ⟨_, rfl⟩

/-- What an execution does with a row that is not delivered: the answer cannot be stored,
or the answer is a success, or the attempts are used up, or there is another. -/
theorem deliverFound_cases {row : Delivery} (hrow : row.status ≠ .delivered) (retries : ℕ)
    (attempt : Attempt) :
    ∃ post,
      (attempt.answer.isStorable = false ∧
        deliverFound retries row attempt = ⟨row, [post], .failed .answer⟩) ∨
      (attempt.answer.isStorable = true ∧ attempt.answer.succeeds = true ∧
        deliverFound retries row attempt = ⟨row.answered attempt, [post], .finished⟩) ∨
      (attempt.answer.isStorable = true ∧ attempt.answer.succeeds = false ∧
        row.maxAttempts ≤ row.attemptCount + 1 ∧
        deliverFound retries row attempt =
          ⟨{ row.answered attempt with status := .deadLetter }, [post], .finished⟩) ∨
      (attempt.answer.isStorable = true ∧ attempt.answer.succeeds = false ∧
        row.attemptCount + 1 < row.maxAttempts ∧
        deliverFound retries row attempt =
          ⟨{ row.answered attempt with status := .retrying }, [post],
            retryTask retries (min (2 ^ (row.attemptCount + 1) * 5) 300)⟩) := by
  obtain ⟨post, hpost⟩ := webhookPost_ok row attempt.signedAt
  refine ⟨post, ?_⟩
  rw [deliverFound, if_neg hrow, performDelivery, hpost]
  by_cases hstorable : attempt.answer.isStorable = true
  · simp only [if_pos hstorable]
    right
    by_cases hsuccess : attempt.answer.succeeds = true
    · rw [hsuccess]
      exact Or.inl ⟨hstorable, rfl, rfl⟩
    · rw [Bool.not_eq_true] at hsuccess
      rw [hsuccess]
      right
      by_cases hmax : row.maxAttempts ≤ row.attemptCount + 1
      · exact Or.inl ⟨hstorable, rfl, hmax, if_pos hmax⟩
      · exact Or.inr ⟨hstorable, rfl, not_le.mp hmax, if_neg hmax⟩
  · simp only [if_neg hstorable]
    rw [Bool.not_eq_true] at hstorable
    exact Or.inl ⟨hstorable, trivial⟩

end Kusanya.Webhooks
