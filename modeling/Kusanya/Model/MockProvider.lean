import Kusanya.Model.Payments
import Kusanya.Model.Signing
import Kusanya.Support.JsonLoads

/-!
# Callbacks of the mock provider

`MockPaymentProviderAdapter.process_callback` and what `mock_provider_callback` does with it, from
the bytes and headers that come in.  The ids of a payload need not be texts: a column stores any
value but `null` as `str(value)`; a `null` violates the column, and a lookup by `null` finds no
row.
-/

namespace Kusanya

open ReadCommitted Support

/-! ## The adapter -/

/-- The secret of the adapter, and what the standard library does with numbers and texts. -/
structure MockSetting where
  callbackSecret : Text
  /-- `float` of a literal; `none` where that is infinite or no number. -/
  float? : Text → Option FloatLiteral
  /-- `str` of a value that is no text. -/
  str : Json → Text
  /-- The text of a `JSONDecodeError`. -/
  decodeError : Text → String

/-- The hook for floats.  What is no finite float has no JSON: no `jsonb` column takes what
`json.dumps` writes for it, and no outcome equals it, as with a text that has a NUL. -/
def MockSetting.parseFloat (setting : MockSetting) (literal : Text) : PyJson :=
  match setting.float? literal with
  | some x => .float x
  | none => .str [Str.ofChar '\x00']

/-- `request.headers.get(name, "")`. -/
def InboundCallback.header (inbound : InboundCallback) (name : String) : Text :=
  headerOf inbound.headers name

/-- `raw_payload.decode("utf-8")`. -/
def InboundCallback.bodyText (inbound : InboundCallback) : Option Text :=
  Text.decodeUtf8 (inbound.rawPayload.map UInt8.toNat)

/-- `data[key]`: a `KeyError` of a `dict`, a `TypeError` of anything else. -/
def itemOf (data : Json) (key : String) : Except AdapterError Json :=
  match data with
  | .obj fields =>
      match fields.lookup key.toList with
      | some value => .ok value
      | none => .error .other
  | _ => .error .other

/-- `ProviderOutcome(value)`. -/
def outcomeOf (value : Json) : Except AdapterError ProviderOutcome :=
  match value with
  | .str text =>
      match [ProviderOutcome.pending, .successful, .failed, .unknown].find? fun outcome =>
          outcome.value.toList = text with
      | some outcome => .ok outcome
      | none => .error .other
  | _ => .error .other

/-- `ProviderCallbackResult`, as the mock adapter fills it in. -/
structure MockCallbackResult where
  externalEventId : Json
  providerReference : Json
  outcome : ProviderOutcome
  rawResponse : Json

/-- The result that is read from the body. -/
def MockCallbackResult.read (data : Json) : Except AdapterError MockCallbackResult := do
  let externalEventId ← itemOf data "event_id"
  let providerReference ← itemOf data "provider_reference"
  let outcome ← itemOf data "outcome"
  let outcome ← outcomeOf outcome
  pure { externalEventId, providerReference, outcome, rawResponse := data }

/-- `MockPaymentProviderAdapter.process_callback`.  What is no JSON raises here, an overlong
integer in `json.loads` already and a surrogate at the column that refuses it: no one catches
either. -/
def mockProcessCallback (setting : MockSetting) (inbound : InboundCallback) :
    Except AdapterError MockCallbackResult :=
  let signature := inbound.header "X-Mock-Signature"
  match inbound.bodyText with
  | none => .error .other
  | some bodyText =>
      match verify setting.callbackSecret bodyText signature with
      | .error _ => .error .other
      | .ok false =>
          .error (.invalidSignature "Mock provider callback signature did not verify.")
      | .ok true =>
          match JsonOf.loads setting.parseFloat bodyText with
          | none =>
              .error (.providerError
                ("Malformed mock callback payload: " ++ setting.decodeError bodyText))
          | some data => MockCallbackResult.read data

/-! ## The service -/

/-- What a text column holds of the value, or looks for; nothing for `null`. -/
def MockSetting.column (setting : MockSetting) : Json → Option String
  | .null => none
  | .str text => some (String.ofList text)
  | value => some (String.ofList (setting.str value))

/-- The stored `raw_payload`, if the column takes it. -/
def MockCallbackResult.rawPayload (parsed : MockCallbackResult) : Option String :=
  if parsed.rawResponse.isStorable then some (String.ofList (JsonOf.write parsed.rawResponse))
  else none

/-- The result with these ids. -/
def MockCallbackResult.withIds (parsed : MockCallbackResult) (eventId reference : String) :
    ProviderCallbackResult :=
  { externalEventId := eventId
    providerReference := reference
    outcome := parsed.outcome
    rawResponse := parsed.rawPayload }

/-- `PaymentCallbackEvent.objects.create` with the parsed event id. -/
def insertMockEvent (setting : MockSetting) (id provider : ℕ) (parsed : MockCallbackResult) :
    Tx PaymentCallbackEvent :=
  match setting.column parsed.externalEventId with
  | none => do
      let _ ← storeJson parsed.rawPayload
      .throw .integrityError
  | some eventId => insertCallbackEvent id provider eventId .processed none parsed.rawPayload

/-- The branch `except IntegrityError`. -/
def onMockDuplicate (setting : MockSetting) (env : Env) (provider : PaymentProvider)
    (parsed : MockCallbackResult) : Tx PaymentCallbackEvent :=
  match setting.column parsed.externalEventId with
  | some eventId => onDuplicate env provider (parsed.withIds eventId "")
  | none => do
      let dup ← insertCallbackEvent (env.gen.callbackEventId 1) provider.id "" .duplicate none
        parsed.rawPayload
      recordAuditEvent env "payment.callback_duplicate" none (some (.callbackEvent dup.id))
      pure dup

/-- The branch for a first delivery. -/
def onMockFirstDelivery (setting : MockSetting) (env : Env) (event : PaymentCallbackEvent)
    (parsed : MockCallbackResult) : Tx PaymentCallbackEvent :=
  match setting.column parsed.providerReference with
  | some reference => onFirstDelivery env event (parsed.withIds event.externalEventId reference)
  | none => do
      onBooks (·.updateCallbackEvent event.id fun row => { row with outcome := .unmatched })
      recordAuditEvent env "payment.callback_unmatched" none (some (.callbackEvent event.id))
      pure { event with outcome := .unmatched }

/-- What `process_callback` does once the signature is verified. -/
def onMockParsed (setting : MockSetting) (env : Env) (provider : PaymentProvider)
    (parsed : MockCallbackResult) : Tx PaymentCallbackEvent := do
  let inserted ← (insertMockEvent setting (env.gen.callbackEventId 0) provider.id
    parsed).tryAtomic Error.isIntegrityError
  match inserted with
  | .error _ => onMockDuplicate setting env provider parsed
  | .ok event => onMockFirstDelivery setting env event parsed

/-- `apps.payments.services.process_callback` with the mock adapter. -/
def processMockCallback (setting : MockSetting) (env : Env) (provider : PaymentProvider)
    (inbound : InboundCallback) : Tx PaymentCallbackEvent :=
  match mockProcessCallback setting inbound with
  | .error (.invalidSignature _) => do
      let event ← insertCallbackEvent (env.gen.callbackEventId 0) provider.id "" .invalidSignature
        none (some emptyDict)
      recordAuditEvent env "payment.callback_invalid_signature" none
        (some (.callbackEvent event.id))
      pure event
  | .error e => .throw (.adapter e)
  | .ok parsed => onMockParsed setting env provider parsed

/-- The status of the response to an event. -/
def CallbackOutcome.responseStatus : CallbackOutcome → ℕ
  | invalidSignature => 401
  | unmatched => 404
  | _ => 200

/-- The environment behind the middleware, for a request with these headers; `env` has the id that
is drawn and `REMOTE_ADDR`. -/
def Env.serving (env : Env) (headers : List (String × String)) : Env :=
  { env with toRequestContext := .ofHeaders headers env.correlationId env.ipAddress }

/-- `mock_provider_callback`; gives the status of the response. -/
def mockProviderCallback (setting : MockSetting) (env : Env) (inbound : InboundCallback) :
    Tx ℕ := do
  match ← Txn.fetch (.providerCode "mock") fun db => db.providers.find? (·.code = "mock") with
  | none => pure 400
  | some provider => do
      let event ← processMockCallback setting (env.serving inbound.headers) provider inbound
      pure event.outcome.responseStatus

end Kusanya
