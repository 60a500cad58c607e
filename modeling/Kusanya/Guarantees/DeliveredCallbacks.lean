import Kusanya.Guarantees.CallbackConfinement
import Kusanya.Moves.Consequences
import Kusanya.Moves.TurnOperations

/-!
# Verified callbacks that are not lost

A provider may call back before the payment that it means is known under its reference.  The
delivery is then recorded as unmatched, and the row takes the key of the event: a redelivery is
answered as a duplicate "of an event_id we've already processed" although nothing was processed.
-/

namespace Kusanya

open ReadCommitted

/-! ## Reported statuses -/

/-- After the request the payment has the reported status. -/
def Reported (request : Request) (s : DB) (payment : Payment) (outcome : ProviderOutcome) : Prop :=
  ∃ row ∈ (request.handler.commit s).payments, row.id = payment.id ∧ row.status = outcome.reported

theorem statusAfter_of_accepts {payment : Payment} {outcome : ProviderOutcome}
    (h : payment.status.Accepts outcome) : payment.statusAfter outcome = outcome.reported := by
  cases outcome with
  | unknown =>
      change (if payment.status = .initiated ∨ payment.status = .pending then .unknown
        else payment.status) = PaymentStatus.unknown
      by_cases hopen : payment.status = .initiated ∨ payment.status = .pending
      · rw [if_pos hopen]
      · rw [if_neg hopen]
        rcases h with hsame | hallowed
        · exact hsame
        · revert hallowed hopen
          cases payment.status <;> decide
  | _ => rfl

section Deliveries

variable {env : Env} {provider : PaymentProvider} {parsed : ProviderCallbackResult} {s t : DB}
  {event : PaymentCallbackEvent}

/-- The payments after a delivery: as before where it is not a first one or nothing matches, or
with the status of the matched payment moved. -/
theorem onParsed_payments (hs : s.PaymentsUnique)
    (h : (onParsed env provider parsed).exec s = .ok (event, t)) :
    ((¬FirstDelivery env s.toBooks provider.id parsed ∨
        s.matchReference parsed.providerReference = none) ∧ t.payments = s.payments) ∨
      ∃ matched moved, FirstDelivery env s.toBooks provider.id parsed ∧
        s.matchReference parsed.providerReference = some matched ∧ moved.id = matched.id ∧
        moved.status = matched.statusAfter parsed.outcome ∧
        t.payments = s.payments.map fun row => if row.id = matched.id then moved else row := by
  rcases delivery_cases h with ⟨hagain, hduplicate⟩ |
    ⟨hfirst, ⟨hnone, -, hbooks⟩ | ⟨matched, moved, hmatched, happly⟩⟩
  · exact Or.inl ⟨Or.inl hagain, (exec_onDuplicate hduplicate).payments⟩
  · have hpayments : t.payments = s.payments := by
      rw [show t.payments = t.toBooks.payments from rfl, hbooks]
      rfl
    exact Or.inl ⟨Or.inr hnone, hpayments⟩
  · right
    obtain ⟨u, hu⟩ : ∃ u, u = inBooks (·.linkEvent
        (parsed.newEvent (env.gen.callbackEventId 0) provider.id) matched.id) s := ⟨_, rfl⟩
    have hsame : u.payments = s.payments := by rw [hu]; rfl
    have hunique : u.PaymentsUnique := by rw [DB.PaymentsUnique, hsame]; exact hs
    have hmem : matched ∈ u.payments := by rw [hsame]; exact (matchReference_mem hmatched).1
    rw [← hu] at happly
    have hturn := exec_applyOutcome hunique hmem (Related.valid_empty _ _) happly
    obtain ⟨-, hstatus, -⟩ := applyOutcome_exec happly
    refine ⟨matched, moved, hfirst, hmatched, hturn.id, hstatus, ?_⟩
    rw [hturn.payments, hsame]

end Deliveries

/-! ## Deliveries -/

section Delivered

variable {code : String} {inbound : InboundCallback} {provider : PaymentProvider}
  {parsed : ProviderCallbackResult} {request : Request} {s : DB} {payment : Payment}

end Delivered

/-! ## A callback that is in time, and one that is early -/

/-- The provider delivers that it has taken the money for the reference `p`, as the `n`-th
request. -/
def deliverSuccess (n : ℕ) : Request where
  env := envAt n (answering .successful "p" "e1")
  action := .providerCallback "mock" inboundRequest

/-- The provider calls back before the payment is in the table. -/
def earlyCallback : List Request :=
  [issueBill, deliverSuccess 2, payIssuedBill 3 (answering .pending "p" "") (amountOf 4000)]

end Kusanya
