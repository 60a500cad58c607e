import Kusanya.Invariants.Runs
import Kusanya.Moves.Initiations

/-!
# Dead references

The specification of control numbers says that a number becomes unusable once its bill is
paid, expired or cancelled.  `initiate_payment` looks at neither the number nor the bill, so
a dead reference takes no money exactly when the initiation fails for another reason before
it has reached the provider.
-/

namespace Kusanya

open ReadCommitted

/-! ## Requests that pay a reference -/

/-- The number is cancelled, expired or past its date, or its bill is closed. -/
def ControlNumber.Dead (cn : ControlNumber) (now : Time) (db : DB) : Prop :=
  cn.status = .cancelled ∨ cn.status = .expired ∨ cn.expiresAt.any (· < now) = true ∨
    ∃ bill ∈ db.bills, cn.bill? = some bill.id ∧
      (bill.status = .cancelled ∨ bill.status = .paid ∨ bill.status = .expired)

/-- The request opens no payment and calls nobody. -/
structure TakesNothing (request : Request) (s : DB) : Prop where
  calls : request.handler.calls s = []
  payments : (request.handler.commit s).payments = s.payments

/-- A dead reference takes no money from this request in this state. -/
def RefusesDead (request : Request) (s : DB) : Prop :=
  ∀ input bill, request.initiation? s = some (input, bill) →
    input.controlNumber.Dead request.env.now s → TakesNothing request s

section Requests

variable {request : Request} {s : DB} {input : InitiateInput} {bill : Option Bill}

/-- Such a request takes nothing exactly where its initiation does not reach the provider. -/
theorem takesNothing_iff (h : request.initiation? s = some (input, bill)) :
    TakesNothing request s ↔ input.reaches request.env s = false := by
  obtain ⟨hcalls, hexec⟩ := handler_initiation h
  constructor
  · intro hnothing
    by_contra hreaches
    refine initiatePayment_calls bill (Bool.not_eq_false _ ▸ hreaches) ?_
    rw [← payAndForget_calls, ← hcalls]
    exact hnothing.calls
  · intro hreaches
    obtain ⟨hsilent, hpayments⟩ := initiatePayment_refused bill hreaches
    refine ⟨hcalls.trans ((payAndForget_calls _ _ _ _).trans hsilent), ?_⟩
    rcases request.handler.commit_cases s with ⟨-, hsame⟩ | hok
    · rw [hsame]
    · rw [hexec, payAndForget, Txn.exec_bind_ok] at hok
      obtain ⟨payment, u, hinitiated, hret⟩ := hok
      obtain ⟨-, hu⟩ := Prod.mk.inj (Except.ok.inj hret)
      rw [← hu]
      exact hpayments payment u hinitiated

end Requests

/-- In every state that requests can reach, an initiation respects a dead reference if and only
if its reference is not dead or it fails for another reason before it reaches the provider. -/
theorem dead_references (start : DB) (earlier : List Request) (request : Request) :
    RefusesDead request (afterAll start earlier) ↔
      ∀ input bill, request.initiation? (afterAll start earlier) = some (input, bill) →
        ¬input.controlNumber.Dead request.env.now (afterAll start earlier) ∨
          input.reaches request.env (afterAll start earlier) = false := by
  generalize afterAll start earlier = s
  constructor
  · intro hrefuses input bill h
    by_cases hdead : input.controlNumber.Dead request.env.now s
    · exact Or.inr ((takesNothing_iff h).mp (hrefuses input bill h hdead))
    · exact Or.inl hdead
  · intro hcond input bill h hdead
    rcases hcond input bill h with halive | hreaches
    · exact absurd hdead halive
    · exact (takesNothing_iff h).mpr hreaches

/-- A control number that has been cancelled since it was issued for the bill. -/
def cancelledNumber : List Request :=
  [issueBill, { env := envAt 2 (answering .pending "" ""), action := .controlNumberCancel 1 1 }]

/-- The portal takes 40.00 on the cancelled number, and so would the API. -/
theorem dead_references_cancelledNumber :
    ¬∀ db, Reachable db → ∀ request, RefusesDead request db := by
  intro hall
  have hreachable : Reachable (afterAll smallInstallation cancelledNumber) :=
    ⟨_, _, smallInstallation_initial, rfl⟩
  let pay : Request := payIssuedBill 3 (answering .successful "p" "") (amountOf 4000)
  have hdead : ∃ input bill,
      pay.initiation? (afterAll smallInstallation cancelledNumber) = some (input, bill) ∧
        input.controlNumber.status = .cancelled := by
    have hsome : ((pay.initiation? (afterAll smallInstallation cancelledNumber)).map
        fun x => x.1.controlNumber.status) = some .cancelled := by decide +kernel
    obtain ⟨⟨input, bill⟩, hinit, hstatus⟩ := Option.map_eq_some_iff.mp hsome
    exact ⟨input, bill, hinit, hstatus⟩
  obtain ⟨input, bill, hinit, hstatus⟩ := hdead
  have hnothing := hall _ hreachable pay input bill hinit (Or.inl hstatus)
  have hopened : ((pay.handler.commit (afterAll smallInstallation cancelledNumber)).payments.map
      (·.id)) ≠ (afterAll smallInstallation cancelledNumber).payments.map (·.id) := by
    decide +kernel
  exact hopened (by rw [hnothing.payments])

end Kusanya
