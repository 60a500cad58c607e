import Kusanya.Invariants.Runs
import Kusanya.Model.MockProvider
import Kusanya.Moves.Consequences

/-!
# Callbacks that raise nothing

The endpoint of the mock provider takes any bytes and any headers.  The body is decoded before the
signature is looked at, and the comparison of two signatures refuses a text that is not ASCII, so
not every request without a genuine signature is turned away; behind a genuine one, only two
exceptions are caught.
-/

namespace Kusanya

open ReadCommitted Support

/-! ## Signatures -/

/-- The signature that the provider's secret gives the bytes of the body. -/
def MockSetting.genuine (setting : MockSetting) (inbound : InboundCallback) : Text :=
  Sha256.hex (Sha256.hmac (Text.utf8 setting.callbackSecret)
    (inbound.rawPayload.map UInt8.toNat))

/-- The signature header of the request. -/
def InboundCallback.signature (inbound : InboundCallback) : Text :=
  inbound.header "X-Mock-Signature"

section Signatures

variable {setting : MockSetting} {inbound : InboundCallback} {text : Text}

/-- For a body that is a text, the signature of the bytes is the one of the text. -/
theorem genuine_eq (h : inbound.bodyText = some text) :
    setting.genuine inbound = sign setting.callbackSecret text := by
  have hbytes : inbound.rawPayload.map UInt8.toNat = Text.utf8 text := Text.decodeUtf8_eq_some.mp h
  rw [MockSetting.genuine, hbytes, sign]

theorem verify_eq (secret message signature : Text) :
    verify secret message signature =
      if isAscii signature then .ok (sign secret message == signature) else .error .typeError := by
  rw [verify]
  by_cases hblank : signature = []
  · subst hblank
    have hother : (sign secret message == []) = false := by
      rw [beq_eq_false_iff_ne]
      exact sign_ne_nil secret message
    rw [if_pos rfl, hother]
    rfl
  · rw [if_neg hblank, compareDigest, isAscii_sign, Bool.true_and]

end Signatures

/-! ## What a genuine payload must be -/

/-- The event that is recorded with the id. -/
def Books.eventOf (b : Books) (provider : ℕ) (eventId : String) : Option PaymentCallbackEvent :=
  b.callbackEvents.find? fun row => row.provider = provider && row.externalEventId = eventId

/-- A further row of the event can be written: the key that is drawn for it is free, the audit row
can be stored, and the payment of the original is there, as the foreign key sees to. -/
structure DB.TakesDuplicate (s : DB) (env : Env) (original : Option PaymentCallbackEvent) :
    Prop where
  fresh : s.FreshEvent (env.gen.callbackEventId 1)
  auditable : env.Auditable
  linked : ∀ row ∈ original, ∀ id ∈ row.payment, (s.payment? id).isSome = true

/-- The reference can be looked up, and what it finds can take the outcome; or it finds nothing,
and the audit row can be stored. -/
structure DB.TakesFirst (s : DB) (env : Env) (reference : Option String)
    (outcome : ProviderOutcome) : Prop where
  query : ∀ text ∈ reference, '\x00' ∉ text.toList
  unmatched : reference.bind s.matchReference = none → env.Auditable
  matched : ∀ payment ∈ reference.bind s.matchReference, Applies env s payment {} outcome

/-- Neither the id of the event nor the key that is drawn for it is in the table. -/
def MockCallbackResult.IsNew (setting : MockSetting) (env : Env) (s : DB)
    (provider : PaymentProvider) (parsed : MockCallbackResult) : Prop :=
  s.FreshEvent (env.gen.callbackEventId 0) ∧
    ∃ eventId ∈ setting.column parsed.externalEventId, s.knowsEvent provider.id eventId = false

/-- The event can be stored, as a first delivery or as a duplicate, and its outcome applied. -/
structure MockCallbackResult.Processable (setting : MockSetting) (env : Env) (s : DB)
    (provider : PaymentProvider) (parsed : MockCallbackResult) : Prop where
  storable : parsed.rawResponse.isStorable = true
  short : ∀ eventId ∈ setting.column parsed.externalEventId, Varchar 150 eventId
  first : parsed.IsNew setting env s provider →
    s.TakesFirst env (setting.column parsed.providerReference) parsed.outcome
  duplicate : ¬parsed.IsNew setting env s provider →
    s.TakesDuplicate env ((setting.column parsed.externalEventId).bind (s.eventOf provider.id))

section Payloads

variable {setting : MockSetting} {env : Env} {s t : DB} {provider : PaymentProvider}
  {parsed : MockCallbackResult}

theorem knowsEvent_blank (b : Books) (provider : ℕ) : b.knowsEvent provider "" = false := by
  simp [Books.knowsEvent]

/-- A row without an event id needs a key and a payload. -/
theorem exec_insertBlankEvent {id : ℕ} (provider : ℕ) (outcome : CallbackOutcome)
    (payment : Option ℕ) {raw : Option String} (hraw : raw.isSome = true)
    (hfresh : s.FreshEvent id) :
    ∃ event, (insertCallbackEvent id provider "" outcome payment raw).exec s =
        .ok (event, inBooks (·.addCallbackEvent event) s) ∧ event.outcome = outcome := by
  have hblank : Varchar 150 "" := by decide
  rw [insertCallbackEvent_exec, if_pos ⟨hblank, hraw⟩, if_pos ⟨hfresh, knowsEvent_blank _ _⟩]
  exact ⟨_, rfl, rfl⟩

/-- Inserting an event ends normally where its columns and its keys can take it. -/
theorem completes_insertCallbackEvent {id : ℕ} {eventId : String} {outcome : CallbackOutcome}
    {payment : Option ℕ} {raw : Option String} :
    Completes (insertCallbackEvent id provider.id eventId outcome payment raw) s ↔
      (Varchar 150 eventId ∧ raw.isSome = true) ∧
        s.FreshEvent id ∧ s.knowsEvent provider.id eventId = false := by
  rw [Completes, insertCallbackEvent_exec]
  by_cases hfits : Varchar 150 eventId ∧ raw.isSome = true
  · rw [if_pos hfits, and_iff_right hfits]
    by_cases hfree : s.FreshEvent id ∧ s.knowsEvent provider.id eventId = false
    · rw [if_pos hfree]
      exact iff_of_true ⟨_, rfl⟩ hfree
    · rw [if_neg hfree]
      refine iff_of_false ?_ hfree
      rintro ⟨r, hr⟩
      cases hr
  · rw [if_neg hfits]
    refine iff_of_false ?_ fun h => hfits h.1
    rintro ⟨r, hr⟩
    cases hr

/-- A duplicate is recorded where a further row can be written. -/
theorem completes_onDuplicate (raw : ProviderCallbackResult)
    (hraw : raw.rawResponse.isSome = true) :
    Completes (onDuplicate env provider raw) s ↔
      s.TakesDuplicate env (s.eventOf provider.id raw.externalEventId) := by
  obtain ⟨original, horiginal⟩ : ∃ original,
      original = s.eventOf provider.id raw.externalEventId := ⟨_, rfl⟩
  have hfetch : (Txn.fetch (.callbackKey provider.id raw.externalEventId) fun db : DB =>
      db.callbackEvents.find? fun row => row.provider = provider.id &&
        row.externalEventId = raw.externalEventId : Tx (Option PaymentCallbackEvent)).exec s =
      .ok (original, s) := by
    rw [Txn.exec_fetch, horiginal, Books.eventOf]
  rw [onDuplicate, completes_bind hfetch, ← horiginal]
  by_cases hfresh : s.FreshEvent (env.gen.callbackEventId 1)
  swap
  · refine iff_of_false ?_ fun h => hfresh h.fresh
    rintro ⟨⟨event, t⟩, hexec⟩
    obtain ⟨dup, u, hinsert, -⟩ := (Txn.exec_bind_ok _).mp hexec
    exact hfresh (completes_insertCallbackEvent.mp ⟨_, hinsert⟩).2.1
  obtain ⟨dup, hinsert, -⟩ := exec_insertBlankEvent provider.id .duplicate
    (original.bind (·.payment)) hraw hfresh
  rw [completes_bind hinsert]
  cases hlinked : original.bind (·.payment) with
  | none =>
      dsimp only
      rw [completes_bind_iff fun _ _ => completes_ret _ _, completes_recordAuditEvent]
      constructor
      · intro hauditable
        refine ⟨hfresh, hauditable, fun row hrow id hid => ?_⟩
        rw [Option.mem_def] at hrow hid
        rw [hrow, Option.bind_some, hid] at hlinked
        cases hlinked
      · exact fun h => h.auditable
  | some id =>
      obtain ⟨row, hrow, hid⟩ := Option.bind_eq_some_iff.mp hlinked
      have hsame : (inBooks (·.addCallbackEvent dup) s).payment? id = s.payment? id := rfl
      dsimp only
      rw [(looks_getRow _ _).completes_bind, hsame]
      constructor
      · rintro ⟨payment, hpayment, ⟨event, t⟩, hexec⟩
        obtain ⟨_, u, haudit, -⟩ := (Txn.exec_bind_ok _).mp hexec
        refine ⟨hfresh, (exec_recordAuditEvent_ok haudit).1, fun other hother id' hid' => ?_⟩
        obtain rfl := Option.some.inj (hrow.symm.trans hother)
        obtain rfl := Option.some.inj (hid.symm.trans hid')
        rw [hpayment]
        rfl
      · intro h
        obtain ⟨payment, hpayment⟩ := Option.isSome_iff_exists.mp (h.linked row hrow id hid)
        refine ⟨payment, hpayment, ?_⟩
        obtain ⟨u, haudit, -⟩ := exec_audited h.auditable "payment.callback_duplicate"
          (some payment.tenant) (some (.callbackEvent dup.id)) [] []
          (inBooks (·.addCallbackEvent dup) s)
        rw [completes_bind haudit, recordPaymentDuplicate, recordZeroEvent,
          completes_bind (exec_recordEvent _ h.auditable.1 _ _ _ _ _ _ _)]
        exact completes_ret _ _

/-! ### First deliveries and duplicates -/

theorem completes_onMockFirstDelivery (event : PaymentCallbackEvent) :
    Completes (onMockFirstDelivery setting env event parsed)
        (inBooks (·.addCallbackEvent event) s) ↔
      s.TakesFirst env (setting.column parsed.providerReference) parsed.outcome := by
  unfold onMockFirstDelivery
  cases setting.column parsed.providerReference with
  | none =>
      dsimp only
      rw [completes_bind (exec_onBooks _ _), completes_bind_iff fun _ _ => completes_ret _ _,
        completes_recordAuditEvent]
      constructor
      · intro hauditable
        refine ⟨fun text h => ?_, fun _ => hauditable, fun payment h => ?_⟩
        · cases h
        · cases h
      · exact fun h => h.unmatched rfl
  | some reference =>
      dsimp only
      obtain ⟨raw, hraw⟩ : ∃ raw, raw = parsed.withIds event.externalEventId reference := ⟨_, rfl⟩
      have hreference : raw.providerReference = reference := by rw [hraw]; rfl
      have houtcome : raw.outcome = parsed.outcome := by rw [hraw]; rfl
      rw [← hraw]
      by_cases hnul : '\x00' ∈ reference.toList
      · refine iff_of_false ?_ fun h => h.query reference rfl hnul
        rintro ⟨⟨after, t⟩, hexec⟩
        exact (onFirstDelivery_ok hexec).1 (by rw [hreference]; exact hnul)
      have hquery : '\x00' ∉ raw.providerReference.toList := by rw [hreference]; exact hnul
      cases hfound : s.matchReference reference with
      | none =>
          rw [completes_onFirstDelivery_unmatched env hquery (by rw [hreference]; exact hfound)]
          constructor
          · intro hauditable
            refine ⟨fun text h => ?_, fun _ => hauditable, fun payment h => ?_⟩
            · obtain rfl := Option.some.inj h
              exact hnul
            · rw [Option.mem_def, Option.bind_some, hfound] at h
              cases h
          · exact fun h => h.unmatched hfound
      | some payment =>
          rw [completes_onFirstDelivery_matched env hquery (by rw [hreference]; exact hfound),
            houtcome]
          constructor
          · intro happlies
            refine ⟨fun text h => ?_, fun h => ?_, fun other h => ?_⟩
            · obtain rfl := Option.some.inj h
              exact hnul
            · rw [Option.bind_some, hfound] at h
              cases h
            · rw [Option.mem_def, Option.bind_some, hfound] at h
              obtain rfl := Option.some.inj h
              exact happlies
          · exact fun h => h.matched payment hfound

theorem completes_onMockDuplicate (hstorable : parsed.rawPayload.isSome = true) :
    Completes (onMockDuplicate setting env provider parsed) s ↔
      s.TakesDuplicate env
        ((setting.column parsed.externalEventId).bind (s.eventOf provider.id)) := by
  unfold onMockDuplicate
  cases setting.column parsed.externalEventId with
  | some eventId => exact completes_onDuplicate (parsed.withIds eventId "") hstorable
  | none =>
      dsimp only
      by_cases hfresh : s.FreshEvent (env.gen.callbackEventId 1)
      · obtain ⟨dup, hinsert, -⟩ :=
          exec_insertBlankEvent provider.id .duplicate none hstorable hfresh
        rw [completes_bind hinsert, completes_bind_iff fun _ _ => completes_ret _ _,
          completes_recordAuditEvent]
        exact ⟨fun h => ⟨hfresh, h, fun row hrow => by cases hrow⟩, fun h => h.auditable⟩
      · refine iff_of_false ?_ fun h => hfresh h.fresh
        rintro ⟨⟨event, t⟩, hexec⟩
        obtain ⟨dup, u, hinsert, -⟩ := (Txn.exec_bind_ok _).mp hexec
        exact hfresh (completes_insertCallbackEvent.mp ⟨_, hinsert⟩).2.1

theorem rawPayload_isSome : parsed.rawPayload.isSome = parsed.rawResponse.isStorable := by
  rw [MockCallbackResult.rawPayload]
  cases parsed.rawResponse.isStorable <;> rfl

/-- What the columns take of a parsed event. -/
def MockCallbackResult.Fits (setting : MockSetting) (parsed : MockCallbackResult) : Prop :=
  parsed.rawResponse.isStorable = true ∧
    ∀ eventId ∈ setting.column parsed.externalEventId, Varchar 150 eventId

/-- The attempt to record a first delivery: a column refuses it, it goes into the table, or a key is
taken; a `null` violates its column as a taken key does. -/
theorem insertMockEvent_exec (setting : MockSetting) (env : Env) (s : DB)
    (provider : PaymentProvider) (parsed : MockCallbackResult) :
    (¬parsed.Fits setting →
      (insertMockEvent setting (env.gen.callbackEventId 0) provider.id parsed).exec s =
        .error .dataError) ∧
    (parsed.Fits setting → parsed.IsNew setting env s provider → ∃ event,
      (insertMockEvent setting (env.gen.callbackEventId 0) provider.id parsed).exec s =
        .ok (event, inBooks (·.addCallbackEvent event) s)) ∧
    (parsed.Fits setting → ¬parsed.IsNew setting env s provider →
      (insertMockEvent setting (env.gen.callbackEventId 0) provider.id parsed).exec s =
        .error .integrityError) := by
  unfold insertMockEvent MockCallbackResult.Fits MockCallbackResult.IsNew
  cases setting.column parsed.externalEventId with
  | none =>
      dsimp only
      rw [Txn.exec_bind, exec_storeJson, MockCallbackResult.rawPayload]
      cases parsed.rawResponse.isStorable with
      | true => simp
      | false => simp
  | some eventId =>
      dsimp only
      rw [insertCallbackEvent_exec, rawPayload_isSome]
      have hfits : (parsed.rawResponse.isStorable = true ∧
          ∀ id ∈ some eventId, Varchar 150 id) ↔
            Varchar 150 eventId ∧ parsed.rawResponse.isStorable = true := by
        simp [and_comm]
      have hnew : (s.FreshEvent (env.gen.callbackEventId 0) ∧
          ∃ id ∈ some eventId, s.knowsEvent provider.id id = false) ↔
            s.FreshEvent (env.gen.callbackEventId 0) ∧
              s.knowsEvent provider.id eventId = false := by
        simp
      rw [hfits, hnew]
      refine ⟨fun h => if_neg h, fun h hfree => ?_, fun h hfree => ?_⟩
      · rw [if_pos h, if_pos hfree]
        exact ⟨_, rfl⟩
      · rw [if_pos h, if_neg hfree]

/-- A genuine payload is processed without an exception exactly if it is processable. -/
theorem completes_onMockParsed :
    Completes (onMockParsed setting env provider parsed) s ↔
      parsed.Processable setting env s provider := by
  obtain ⟨hrefused, hinserted, hclashes⟩ :=
    insertMockEvent_exec setting env s provider parsed
  by_cases hfits : parsed.Fits setting
  swap
  · have hraises : (onMockParsed setting env provider parsed).exec s = .error .dataError := by
      rw [onMockParsed]
      apply Txn.exec_bind_error
      rw [Txn.exec_tryAtomic, hrefused hfits]
      rfl
    exact iff_of_false (not_completes_of_error hraises) fun h => hfits ⟨h.storable, h.short⟩
  by_cases hnew : parsed.IsNew setting env s provider
  · obtain ⟨event, hevent⟩ := hinserted hfits hnew
    rw [onMockParsed, completes_bind (by rw [Txn.exec_tryAtomic, hevent])]
    dsimp only
    rw [completes_onMockFirstDelivery]
    exact ⟨fun h => ⟨hfits.1, hfits.2, fun _ => h, fun hknown => absurd hnew hknown⟩,
      fun h => h.first hnew⟩
  · have hcaught : ((insertMockEvent setting (env.gen.callbackEventId 0) provider.id
        parsed).tryAtomic Error.isIntegrityError).exec s = .ok (.error .integrityError, s) := by
      rw [Txn.exec_tryAtomic, hclashes hfits hnew]
      rfl
    have hstorable : parsed.rawPayload.isSome = true := rawPayload_isSome.trans hfits.1
    rw [onMockParsed, completes_bind hcaught]
    dsimp only
    rw [completes_onMockDuplicate hstorable]
    exact ⟨fun h => ⟨hfits.1, hfits.2, fun hfree => absurd hfree hnew, fun _ => h⟩,
      fun h => h.duplicate hnew⟩

end Payloads

/-! ## The endpoint -/

/-- The request ends with an event; where its signature is not genuine, the only traces are one
event `INVALID_SIGNATURE` and one audit row, and the response is 401. -/
structure Answered (setting : MockSetting) (env : Env) (s : DB) (inbound : InboundCallback) :
    Prop where
  ends : Completes (mockProviderCallback setting env inbound) s
  refuses : inbound.signature ≠ setting.genuine inbound → ∃ event row,
    (mockProviderCallback setting env inbound).exec s =
      .ok (401, inTrail (·.addAudit row) (inBooks (·.addCallbackEvent event) s)) ∧
    event.outcome = .invalidSignature ∧ row.action = "payment.callback_invalid_signature"

/-- What turning a request away needs: the key that is drawn for its event is free, and the audit
row can be stored. -/
def DB.TakesRefusal (s : DB) (env : Env) : Prop :=
  s.FreshEvent (env.gen.callbackEventId 0) ∧ env.Auditable

/-- The body is a text, the signature is ASCII, what a genuine signature covers can be processed,
and a request without one can be turned away. -/
def Acceptable (setting : MockSetting) (env : Env) (s : DB) (provider : PaymentProvider)
    (inbound : InboundCallback) : Prop :=
  ∃ bodyText, inbound.bodyText = some bodyText ∧ isAscii inbound.signature = true ∧
    (inbound.signature = setting.genuine inbound →
      ∃ data parsed, JsonOf.loads setting.parseFloat bodyText = some data ∧
        MockCallbackResult.read data = .ok parsed ∧
        parsed.Processable setting (env.serving inbound.headers) s provider) ∧
    (inbound.signature ≠ setting.genuine inbound → s.TakesRefusal (env.serving inbound.headers))

section Endpoint

variable {setting : MockSetting} {env : Env} {s : DB} {provider : PaymentProvider}
  {inbound : InboundCallback}

/-- The adapter's verdict on a request. -/
theorem mockProcessCallback_eq (setting : MockSetting) {bodyText : Text}
    (hbody : inbound.bodyText = some bodyText) (hascii : isAscii inbound.signature = true) :
    mockProcessCallback setting inbound =
      if inbound.signature = setting.genuine inbound then
        match JsonOf.loads setting.parseFloat bodyText with
        | none =>
            .error (.providerError
              ("Malformed mock callback payload: " ++ setting.decodeError bodyText))
        | some data => MockCallbackResult.read data
      else .error (.invalidSignature "Mock provider callback signature did not verify.") := by
  have hverify := verify_eq setting.callbackSecret bodyText inbound.signature
  rw [if_pos hascii] at hverify
  have hheader : inbound.header "X-Mock-Signature" = inbound.signature := rfl
  rw [genuine_eq hbody]
  unfold mockProcessCallback
  rw [hbody, hheader]
  dsimp only
  rw [hverify]
  cases hsigned : sign setting.callbackSecret bodyText == inbound.signature with
  | true => exact (if_pos (beq_iff_eq.mp hsigned).symm).symm
  | false => exact (if_neg fun h => (beq_eq_false_iff_ne.mp hsigned) h.symm).symm

/-- A request that is turned away leaves one event and one audit row. -/
theorem exec_refused (hprovider : s.providers.find? (·.code = "mock") = some provider)
    {message : String}
    (hrefused : mockProcessCallback setting inbound = .error (.invalidSignature message))
    (htakes : s.TakesRefusal (env.serving inbound.headers)) :
    ∃ event row, (mockProviderCallback setting env inbound).exec s =
        .ok (401, inTrail (·.addAudit row) (inBooks (·.addCallbackEvent event) s)) ∧
      event.outcome = .invalidSignature ∧ row.action = "payment.callback_invalid_signature" := by
  obtain ⟨hfresh, hauditable⟩ := htakes
  have hraw : (some emptyDict).isSome = true := rfl
  obtain ⟨event, hinsert, houtcome⟩ :=
    exec_insertBlankEvent provider.id .invalidSignature none hraw hfresh
  obtain ⟨row, haction, haudit⟩ : ∃ row : AuditLog,
      row.action = "payment.callback_invalid_signature" ∧
        ∀ u, (recordAuditEvent (env.serving inbound.headers) "payment.callback_invalid_signature"
          none (some (.callbackEvent event.id))).exec u = .ok ((), inTrail (·.addAudit row) u) := by
    refine ⟨_, ?_, fun u => by rw [exec_recordAuditEvent, if_pos hauditable]⟩
    rfl
  refine ⟨event, row, ?_, houtcome, haction⟩
  rw [mockProviderCallback, Txn.exec_bind, Txn.exec_fetch, hprovider]
  dsimp only
  rw [Txn.exec_bind, processMockCallback, hrefused]
  dsimp only
  rw [Txn.exec_bind, hinsert]
  dsimp only
  rw [Txn.exec_bind, haudit]
  dsimp only [Txn.pure_eq_ret, Txn.exec_ret]
  rw [houtcome]
  rfl

theorem takesRefusal_of_completes {message : String}
    (hrefused : mockProcessCallback setting inbound = .error (.invalidSignature message))
    (h : Completes (processMockCallback setting env provider inbound) s) : s.TakesRefusal env := by
  obtain ⟨⟨event, t⟩, hexec⟩ := h
  rw [processMockCallback, hrefused] at hexec
  obtain ⟨new, u, hinsert, h₁⟩ := (Txn.exec_bind_ok _).mp hexec
  obtain ⟨_, v, haudit, -⟩ := (Txn.exec_bind_ok _).mp h₁
  exact ⟨(completes_insertCallbackEvent.mp ⟨_, hinsert⟩).2.1, (exec_recordAuditEvent_ok haudit).1⟩

theorem completes_mockProviderCallback
    (hprovider : s.providers.find? (·.code = "mock") = some provider) :
    Completes (mockProviderCallback setting env inbound) s ↔
      Completes (processMockCallback setting (env.serving inbound.headers) provider inbound) s := by
  have hfetch : (Txn.fetch (.providerCode "mock") fun db : DB =>
      db.providers.find? (·.code = "mock") : Tx (Option PaymentProvider)).exec s =
        .ok (some provider, s) := by
    rw [Txn.exec_fetch, hprovider]
  rw [mockProviderCallback, completes_bind hfetch]
  exact completes_bind_iff fun _ _ => completes_ret _ _

theorem itemOf_error {data : Json} {key : String} {e : AdapterError}
    (h : itemOf data key = .error e) : e = .other := by
  unfold itemOf at h
  split at h
  · split at h
    · cases h
    · exact (Except.error.inj h).symm
  · exact (Except.error.inj h).symm

theorem outcomeOf_error {value : Json} {e : AdapterError} (h : outcomeOf value = .error e) :
    e = .other := by
  unfold outcomeOf at h
  split at h
  · split at h
    · cases h
    · exact (Except.error.inj h).symm
  · exact (Except.error.inj h).symm

/-- A payload that does not have its items raises neither of the caught exceptions. -/
theorem read_error {data : Json} {e : AdapterError}
    (h : MockCallbackResult.read data = .error e) : e = .other := by
  unfold MockCallbackResult.read at h
  cases heventId : itemOf data "event_id" with
  | error e' =>
      rw [heventId] at h
      obtain rfl : e' = e := Except.error.inj h
      exact itemOf_error heventId
  | ok eventId =>
      cases hreference : itemOf data "provider_reference" with
      | error e' =>
          rw [heventId, hreference] at h
          obtain rfl : e' = e := Except.error.inj h
          exact itemOf_error hreference
      | ok reference =>
          cases hitem : itemOf data "outcome" with
          | error e' =>
              rw [heventId, hreference, hitem] at h
              obtain rfl : e' = e := Except.error.inj h
              exact itemOf_error hitem
          | ok item =>
              cases houtcome : outcomeOf item with
              | error e' =>
                  rw [heventId, hreference, hitem] at h
                  obtain rfl : e' = e := by
                    have hbind : (outcomeOf item >>= fun outcome => pure _) = Except.error e := h
                    rw [houtcome] at hbind
                    exact Except.error.inj hbind
                  exact outcomeOf_error houtcome
              | ok outcome =>
                  rw [heventId, hreference, hitem] at h
                  have hbind : (outcomeOf item >>= fun outcome => pure _) = Except.error e := h
                  rw [houtcome] at hbind
                  cases hbind

theorem acceptable_genuine {bodyText : Text} (hbody : inbound.bodyText = some bodyText)
    (hascii : isAscii inbound.signature = true)
    (hgenuine : inbound.signature = setting.genuine inbound) :
    Acceptable setting env s provider inbound ↔
      ∃ data parsed, JsonOf.loads setting.parseFloat bodyText = some data ∧
        MockCallbackResult.read data = .ok parsed ∧
        parsed.Processable setting (env.serving inbound.headers) s provider := by
  constructor
  · rintro ⟨text, htext, -, hpayload, -⟩
    obtain rfl := Option.some.inj (hbody.symm.trans htext)
    exact hpayload hgenuine
  · exact fun hpayload =>
      ⟨bodyText, hbody, hascii, fun _ => hpayload, fun hother => absurd hgenuine hother⟩

/-- A genuine request ends with an event exactly if its payload can be processed. -/
theorem completes_genuine {bodyText : Text} (hbody : inbound.bodyText = some bodyText)
    (hascii : isAscii inbound.signature = true)
    (hgenuine : inbound.signature = setting.genuine inbound) :
    Completes (processMockCallback setting env provider inbound) s ↔
      ∃ data parsed, JsonOf.loads setting.parseFloat bodyText = some data ∧
        MockCallbackResult.read data = .ok parsed ∧ parsed.Processable setting env s provider := by
  have hverdict := mockProcessCallback_eq setting hbody hascii
  rw [if_pos hgenuine] at hverdict
  cases hloads : JsonOf.loads setting.parseFloat bodyText with
  | none =>
      rw [hloads] at hverdict
      have hraises : ∃ e, (processMockCallback setting env provider inbound).exec s = .error e := by
        rw [processMockCallback, hverdict]
        exact ⟨_, rfl⟩
      obtain ⟨e, he⟩ := hraises
      refine iff_of_false (not_completes_of_error he) ?_
      rintro ⟨data, parsed, hdata, -⟩
      cases hdata
  | some data =>
      rw [hloads] at hverdict
      dsimp only at hverdict
      cases hread : MockCallbackResult.read data with
      | error e =>
          obtain rfl := read_error hread
          rw [hread] at hverdict
          have hraises : (processMockCallback setting env provider inbound).exec s =
              .error (.adapter .other) := by
            rw [processMockCallback, hverdict]
            rfl
          refine iff_of_false (not_completes_of_error hraises) ?_
          rintro ⟨data', parsed, hdata, hparsed, -⟩
          obtain rfl := Option.some.inj hdata
          rw [hread] at hparsed
          cases hparsed
      | ok parsed =>
          rw [hread] at hverdict
          have hprocess : processMockCallback setting env provider inbound =
              onMockParsed setting env provider parsed := by
            rw [processMockCallback, hverdict]
          rw [hprocess, completes_onMockParsed]
          constructor
          · exact fun h => ⟨data, parsed, rfl, hread, h⟩
          · rintro ⟨data', parsed', hdata, hparsed, h⟩
            obtain rfl := Option.some.inj hdata
            obtain rfl := Except.ok.inj (hread.symm.trans hparsed)
            exact h

end Endpoint

/-- A secret of one letter; no float is finite, other values have no text. -/
def plainMock : MockSetting where
  callbackSecret := ['s']
  float? _ := none
  str _ := []
  decodeError _ := ""

/-- An empty body without a signature. -/
def unsignedCallback : InboundCallback := { rawPayload := [], headers := [] }

/-- A body of one byte that begins no character, without a signature. -/
def undecodableCallback : InboundCallback := { rawPayload := [0xff], headers := [] }

end Kusanya
