import Kusanya.Model.MockProvider

/-!
# The mock provider and its own transactions

`MockPaymentProviderAdapter` answers from `MockProviderTransaction`, which plays the provider's
store: a row for each initiation, with what "happened" at the provider, also where the response was
lost.  `Sandbox` is the adapter during one request, with the rows that the request finds.
-/

namespace Kusanya

open Support

/-- `MockProviderTransaction`. -/
structure MockProviderTransaction where
  merchantReference : String
  providerReference : String
  outcome : ProviderOutcome
  deriving DecidableEq

/-- The adapter during one request; `hex` is the tail of the reference that it draws. -/
structure Sandbox where
  setting : MockSetting
  transactions : List MockProviderTransaction
  hex : String

/-- `metadata.get("mock_outcome", "successful")`. -/
def outcomeHint (metadata : List (String × String)) : String :=
  (metadata.lookup "mock_outcome").getD "successful"

/-- What happens at the provider; a timeout is a success that nobody hears of. -/
def actualOutcome (hint : String) : ProviderOutcome :=
  ([("successful", .successful), ("failed", .failed), ("pending", .pending),
    ("timeout", .successful)].lookup hint).getD .successful

/-- A `dict` of the adapter, as the column of the raw response holds it. -/
def rawDict (fields : List (String × Json)) : Option String :=
  some <| String.ofList (JsonOf.write (.obj (fields.map fun field => (field.1.toList, field.2))))

namespace Sandbox

def providerReference (sandbox : Sandbox) : String := "MOCK-" ++ sandbox.hex

/-- The row that an initiation inserts. -/
def newTransaction (sandbox : Sandbox) (call : InitiateCall) : MockProviderTransaction :=
  { merchantReference := call.merchantReference
    providerReference := sandbox.providerReference
    outcome := actualOutcome (outcomeHint call.metadata) }

/-- `MockProviderTransaction.objects.create`: the columns hold 64 characters, and the merchant
reference is unique. -/
def accepts (sandbox : Sandbox) (row : MockProviderTransaction) : Bool :=
  Varchar 64 row.merchantReference && Varchar 64 row.providerReference &&
    sandbox.transactions.all (·.merchantReference ≠ row.merchantReference)

/-- `initiate_payment`. -/
def initiatePayment (sandbox : Sandbox) (call : InitiateCall) :
    Except AdapterError ProviderResult :=
  let row := sandbox.newTransaction call
  if sandbox.accepts row = false then .error .other
  else if outcomeHint call.metadata = "timeout" then
    .error (.timeout ("Simulated provider timeout for merchant_reference=" ++
      call.merchantReference))
  else .ok
    { outcome := row.outcome
      providerReference := row.providerReference
      rawResponse := rawDict
        [("mock", .bool true), ("merchant_reference", .str call.merchantReference.toList)] }

/-- `query_payment`. -/
def queryPayment (sandbox : Sandbox) (merchantReference : String) :
    Except AdapterError ProviderResult :=
  match sandbox.transactions.find? (·.merchantReference = merchantReference) with
  | none => .ok { outcome := .unknown, providerReference := "", rawResponse := rawDict [] }
  | some row => .ok
      { outcome := row.outcome
        providerReference := row.providerReference
        rawResponse := rawDict [("mock", .bool true)] }

/-- `process_callback`, for ids that a column can hold; `processMockCallback` has the others. -/
def processCallback (sandbox : Sandbox) (inbound : InboundCallback) :
    Except AdapterError ProviderCallbackResult :=
  match mockProcessCallback sandbox.setting inbound with
  | .error e => .error e
  | .ok parsed =>
      match sandbox.setting.column parsed.externalEventId,
          sandbox.setting.column parsed.providerReference with
      | some eventId, some reference => .ok (parsed.withIds eventId reference)
      | _, _ => .error .other

/-- `refund`. -/
def refund (providerReference : String) (amount : Amount) : Except AdapterError ProviderResult :=
  .ok
    { outcome := .successful
      providerReference
      rawResponse := rawDict
        [("mock", .bool true), ("refunded_amount", .str amount.cents.str.toList)] }

/-- `reverse`. -/
def reverse (providerReference : String) : Except AdapterError ProviderResult :=
  .ok
    { outcome := .successful
      providerReference
      rawResponse := rawDict [("mock", .bool true)] }

/-- `reconcile`; `first` takes the smallest primary key, a drawn one, and the earliest row stands
for it here. -/
def reconcile (sandbox : Sandbox) (providerReference : String) :
    Except AdapterError ProviderResult :=
  match sandbox.transactions.find? (·.providerReference = providerReference) with
  | none => .ok { outcome := .unknown, providerReference := "", rawResponse := rawDict [] }
  | some row => .ok
      { outcome := row.outcome
        providerReference
        rawResponse := rawDict [] }

/-- `MockPaymentProviderAdapter`. -/
def adapter (sandbox : Sandbox) : Adapter where
  initiatePayment := sandbox.initiatePayment
  queryPayment := sandbox.queryPayment
  processCallback := sandbox.processCallback
  refund := refund
  reverse := reverse
  reconcile := sandbox.reconcile

/-- `_ADAPTER_CLASSES`. -/
def registry (sandbox : Sandbox) (code : String) : Option Adapter :=
  if code = "mock" then some sandbox.adapter else none

end Sandbox

end Kusanya
