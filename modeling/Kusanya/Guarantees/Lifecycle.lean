import Kusanya.Invariants.Histories
import Kusanya.Moves.Calls

/-!
# The life of a payment

Along every run of requests processed one at a time: the statuses of a payment are a
path of `ALLOWED_TRANSITIONS`, the provider is asked to initiate it at most once, a
timed-out initiation fails only on a report, and `completed_at` and the receipt say
what the status says.
-/

namespace Kusanya

open ReadCommitted

/-! ## Histories -/

/-- The committed statuses of a payment, in order. -/
def statusHistory (start : DB) (requests : List Request) (id : ℕ) : List PaymentStatus :=
  history Request.handler (fun db : DB => (db.payment? id).map (·.status)) start requests

section Histories

/-- The statuses of a payment are a path that starts at `INITIATED`. -/
theorem statusHistory_isChain {start : DB} (hstart : Initial start) (requests : List Request)
    (id : ℕ) :
    (PaymentStatus.initiated :: statusHistory start requests id).IsChain PaymentStatus.Step := by
  refine history_isChain (I := fun s : DB => Balanced s.toBooks) hstart.balanced ?_
    (fun s r hs => balanced_commit r hs) (fun s r x hs hx => ?_) (fun s r y hs hx hy => ?_) requests
  · have hnone : start.payments = [] := congrArg Books.payments hstart.books
    simp [Books.payment?, hnone]
  · obtain ⟨p, hp, rfl⟩ := Option.map_eq_some_iff.mp hx
    obtain ⟨hmem, hid⟩ := payment?_mem hp
    obtain ⟨q, hq, hfixed, hstep⟩ := (evolves_commit r hs).kept p hmem
    have hqid : q.id = id := (congrArg Payment.Fixed.id hfixed).trans hid
    refine ⟨q.status, ?_, hstep⟩
    rw [← hqid, payment?_eq_some (balanced_commit r hs).keyed hq]
    rfl
  · obtain ⟨q, hq, rfl⟩ := Option.map_eq_some_iff.mp hy
    obtain ⟨hmem, hid⟩ := payment?_mem hq
    rcases (evolves_commit r hs).opened q hmem with ⟨p, hp, hpid⟩ | hstep
    · exact absurd (hpid.trans hid) (payment?_none (Option.map_eq_none_iff.mp hx) p hp)
    · exact hstep

end Histories

/-- The rows of a state are still there later, with the same identity and a status that is
the same wherever the table has no way out. -/
theorem kept_afterAll {s : DB} (hs : Balanced s.toBooks) (requests : List Request) {p : Payment}
    (hp : p ∈ s.payments) :
    ∃ q ∈ (afterAll s requests).payments, q.fixed = p.fixed ∧
      (p.status.allowedTransitions = [] → q.status = p.status) := by
  induction requests generalizing s p with
  | nil => exact ⟨p, hp, rfl, fun _ => rfl⟩
  | cons r rs ih =>
      obtain ⟨row, hrow, hfixed, hstep⟩ := (evolves_commit r hs).kept p hp
      obtain ⟨q, hq, hfixed', hsame⟩ := ih (balanced_commit r hs) hrow
      refine ⟨q, hq, hfixed'.trans hfixed, fun hfinal => ?_⟩
      have hrowstatus : row.status = p.status := by
        rcases hstep with h | h
        · exact h
        · rw [hfinal] at h
          cases h
      rw [hsame (hrowstatus ▸ hfinal), hrowstatus]

/-! ## Initiations -/

/-- A call that asks the provider to initiate the payment with this merchant reference. -/
def Call.initiates (reference : String) : Call → Bool
  | .initiatePayment args => args.merchantReference = reference
  | _ => false

/-- The calls of `adapter.initiate_payment` made for a payment, by requests that raise as well
as by those that commit, from the request on that leaves the payment in the table. -/
def initiations (id : ℕ) (reference : String) : DB → List Request → ℕ
  | _, [] => 0
  | db, r :: rs =>
      (if ((r.handler.commit db).payment? id).isSome then
        (r.handler.calls db).countP (Call.initiates reference)
      else 0) + initiations id reference (r.handler.commit db) rs

theorem initiates_le (reference : String) (calls : List Call) :
    calls.countP (Call.initiates reference) ≤ calls.countP Call.isInitiate :=
  List.countP_mono_left fun call _ h => by
    cases call with
    | initiatePayment args => rfl
    | _ => cases h

/-- Nobody initiates a payment whose reference is taken. -/
theorem initiations_existing {s : DB} (hs : Balanced s.toBooks) (requests : List Request)
    {p : Payment} (hp : p ∈ s.payments) : initiations p.id p.merchantReference s requests = 0 := by
  induction requests generalizing s p with
  | nil => rfl
  | cons r rs ih =>
      have hcalls : (r.handler.calls s).countP (Call.initiates p.merchantReference) = 0 := by
        refine List.countP_eq_zero.mpr fun call hcall hinitiates => ?_
        cases call with
        | initiatePayment args =>
            have hfresh := (handler_permits hs.keyed hcall args rfl).1
            rw [View.sees_alone] at hfresh
            have hreference : args.merchantReference = p.merchantReference := by
              simpa [Call.initiates] using hinitiates
            exact hfresh p hp hreference.symm
        | _ => cases hinitiates
      obtain ⟨row, hrow, hfixed, -⟩ := (evolves_commit r hs).kept p hp
      have hrest := ih (balanced_commit r hs) hrow
      have hid : row.id = p.id := congrArg Payment.Fixed.id hfixed
      have hreference : row.merchantReference = p.merchantReference :=
        congrArg Payment.Fixed.merchantReference hfixed
      rw [hid, hreference] at hrest
      rw [initiations, hcalls, hrest, ite_self]

theorem initiations_le_one {s : DB} (hs : Balanced s.toBooks) (requests : List Request)
    {p : Payment} (hp : p ∈ (afterAll s requests).payments) :
    initiations p.id p.merchantReference s requests ≤ 1 := by
  induction requests generalizing s with
  | nil => exact Nat.zero_le 1
  | cons r rs ih =>
      have hs' := balanced_commit r hs
      rw [initiations]
      cases hfound : (r.handler.commit s).payment? p.id with
      | none =>
          simp only [Option.isSome_none, Bool.false_eq_true, if_false, Nat.zero_add]
          exact ih hs' hp
      | some row =>
          obtain ⟨hrow, hid⟩ := payment?_mem hfound
          obtain ⟨q, hq, hfixed, -⟩ := kept_afterAll hs' rs hrow
          have hfinal : Balanced (afterAll (r.handler.commit s) rs).toBooks :=
            after_invariant (I := fun s : DB => Balanced s.toBooks) hs'
              (fun _ r hs => balanced_commit r hs) rs
          obtain rfl : q = p := Support.eq_of_key hfinal.keyed hq hp
            ((congrArg Payment.Fixed.id hfixed).trans hid)
          have hid : row.id = q.id := (congrArg Payment.Fixed.id hfixed).symm
          have hreference : row.merchantReference = q.merchantReference :=
            (congrArg Payment.Fixed.merchantReference hfixed).symm
          have hrest := initiations_existing hs' rs hrow
          rw [hid, hreference] at hrest
          rw [hrest]
          simp only [Option.isSome_some, if_true, Nat.add_zero]
          exact (initiates_le _ _).trans (handler_atMostOnce r hs.keyed)

/-! ## Failures -/

/-- The arguments of `adapter.initiate_payment` for a payment. -/
def Payment.Fixed.initiateCall (p : Payment.Fixed) (cn : ControlNumber)
    (metadata : List (String × String)) : InitiateCall :=
  { amount := p.amount
    currency := p.currency
    controlNumber := cn.value
    payerReference := p.payerReference
    merchantReference := p.merchantReference
    metadata }

/-- The metadata that an initiation passes on. -/
def Action.metadata : Action → List (String × String)
  | payBill _ _ _ _ _ metadata => metadata
  | paymentListCreate _ _ _ _ _ _ _ metadata => metadata
  | _ => []

/-- The request created the payment, and the provider did not answer in time. -/
structure InitiationTimedOut (r : Request) (s : DB) (p : Payment) : Prop where
  absent : ∀ row ∈ s.payments, row.id ≠ p.id
  created : ∃ row ∈ (r.handler.commit s).payments, row.fixed = p.fixed
  answer : ∃ provider ∈ s.providers, provider.id = p.provider ∧
    ∃ adapter, r.env.registry provider.code = some adapter ∧
    ∃ cn ∈ s.controlNumbers, cn.id = p.controlNumber ∧
    ∃ message, adapter.initiatePayment (p.fixed.initiateCall cn r.action.metadata) =
      .error (.timeout message)

/-- Asked about the payment, its provider reports `FAILED`. -/
def QueryFails (env : Env) (s : DB) (p : Payment) : Prop :=
  ∃ provider, s.providers.find? (·.id = p.provider) = some provider ∧
    ∃ adapter, env.registry provider.code = some adapter ∧
    ∃ result, adapter.queryPayment p.merchantReference = .ok result ∧ result.outcome = .failed

/-- The request queried the payment, or brought a callback matched to it, and the report
was `FAILED`. -/
def ReportedFailed (r : Request) (s : DB) (p : Payment) : Prop :=
  match r.action with
  | .paymentQuery tenant pk => pk = p.id ∧ tenant = p.tenant ∧ QueryFails r.env s p
  | .triggerRun tenant => tenant = p.tenant ∧ p.status = .unknown ∧ QueryFails r.env s p
  | .providerCallback code inbound =>
      ∃ provider, s.providers.find? (·.code = code) = some provider ∧
        ∃ adapter, r.env.registry provider.code = some adapter ∧
        ∃ parsed, adapter.processCallback inbound = .ok parsed ∧
          s.matchReference parsed.providerReference = some p ∧ parsed.outcome = .failed
  | _ => False

section Failures

variable {env : Env} {payment after : Payment} {ms : List Move} {m : Move} {new : Payment}

/-- Only the outcome `FAILED` enters `FAILED`. -/
theorem Applied.entered_failed {outcome : ProviderOutcome}
    (h : Applied env payment outcome ms after) (hm : m ∈ ms) (hentered : m.entered = some new)
    (hstatus : new.status = .failed) : outcome = .failed ∧ new.id = payment.id := by
  cases h with
  | inconclusive | repeated => cases hm
  | unknown | pending =>
      obtain rfl := List.mem_singleton.mp hm
      obtain rfl := Option.some.inj hentered
      cases hstatus
  | failed houtcome =>
      rcases List.mem_cons.mp hm with rfl | hm
      · obtain rfl := Option.some.inj hentered
        exact ⟨houtcome, rfl⟩
      · obtain rfl := List.mem_singleton.mp hm
        cases hentered
  | successful _ s _ hpayment =>
      obtain rfl := List.mem_singleton.mp hm
      obtain rfl := Option.some.inj hentered
      rw [hpayment] at hstatus
      cases hstatus

theorem Queried.entered_failed {result : ProviderResult} (h : Queried env payment result ms after)
    (hm : m ∈ ms) (hentered : m.entered = some new) (hstatus : new.status = .failed) :
    result.outcome = .failed ∧ new.id = payment.id := by
  obtain ⟨hlearned, happlied⟩ := h
  rw [← hlearned.id_eq]
  rcases List.mem_append.mp hm with hm | hm
  · cases hlearned with
    | known => cases hm
    | learned =>
        obtain rfl := List.mem_singleton.mp hm
        cases hentered
  · exact happlied.entered_failed hm hentered hstatus

theorem Reconciled.entered_failed {view : View} {payments : List Payment}
    (h : Reconciled view env payments ms) (hm : m ∈ ms) (hentered : m.entered = some new)
    (hstatus : new.status = .failed) :
    ∃ payment ∈ payments, new.id = payment.id ∧ ∃ adapter result,
      Serves view env payment adapter ∧
        adapter.queryPayment payment.merchantReference = .ok result ∧
      result.outcome = .failed := by
  induction h with
  | nil => cases hm
  | @cons payment _ _ adapter result _ _ serves answer queried _ ih =>
      rcases List.mem_append.mp hm with hm | hm
      · obtain ⟨houtcome, hid⟩ := queried.entered_failed hm hentered hstatus
        exact ⟨payment, List.mem_cons_self, hid, adapter, result, serves, answer, houtcome⟩
      · obtain ⟨payment, hmem, hrest⟩ := ih hm
        exact ⟨payment, List.mem_cons_of_mem _ hmem, hrest⟩

theorem Undone.entered_status {status : PaymentStatus} (h : Undone env payment status ms after)
    (hm : m ∈ ms) (hentered : m.entered = some new) : new.status = status := by
  cases h with
  | kept => cases hm
  | undone =>
      obtain rfl := List.mem_singleton.mp hm
      obtain rfl := Option.some.inj hentered
      rfl

/-- An initiation opens one payment, and saves the status of no other. -/
theorem Initiated.opens {input : InitiateInput} {adapter : Adapter}
    (h : Initiated env input adapter ms after) :
    ∃ currency rest, ms = .openPayment (input.newPayment env currency) :: rest ∧
      (∀ m ∈ rest, m.opened = []) ∧
      ∀ m ∈ ms, ∀ new, m.entered = some new → new.id = (input.newPayment env currency).id := by
  cases h with
  | @timedOut payment currency _ hpayment =>
      subst hpayment
      refine ⟨currency, _, rfl, by simp [Move.opened], fun m hm new hentered => ?_⟩
      simp only [List.mem_cons, List.not_mem_nil, or_false] at hm
      rcases hm with rfl | rfl
      · cases hentered
      · obtain rfl := Option.some.inj hentered
        rfl
  | @refused payment currency _ _ hpayment =>
      subst hpayment
      refine ⟨currency, _, rfl, by simp [Move.opened], fun m hm new hentered => ?_⟩
      simp only [List.mem_cons, List.not_mem_nil, or_false] at hm
      rcases hm with rfl | rfl | rfl
      · cases hentered
      · obtain rfl := Option.some.inj hentered
        rfl
      · cases hentered
  | @answered payment _ currency _ ms hpayment _ happlied =>
      subst hpayment
      refine ⟨currency, _, rfl,
        by simpa [Move.opened] using happlied.opened, fun m hm new hentered => ?_⟩
      rcases List.mem_cons.mp hm with rfl | hm
      · cases hentered
      · rcases List.mem_cons.mp hm with rfl | hm
        · cases hentered
        · have hids : new.id ∈ Kusanya.enteredIds ms := by
            refine List.mem_filterMap.mpr ⟨m, hm, ?_⟩
            rw [Move.enteredId, hentered]
            rfl
          rcases happlied.enteredIds with h | h
          · rw [h] at hids
            cases hids
          · rw [h] at hids
            exact List.mem_singleton.mp hids

end Failures

section Runs

variable {s : DB}

theorem QueryFails.of_serves {env : Env} {payment : Payment} {adapter : Adapter}
    {result : ProviderResult} (hserves : Serves s.view env payment adapter)
    (hanswer : adapter.queryPayment payment.merchantReference = .ok result)
    (houtcome : result.outcome = .failed) : QueryFails env s payment := by
  obtain ⟨provider, hprovider, hadapter⟩ := hserves
  rw [View.sees_alone] at hprovider
  exact ⟨provider, hprovider, adapter, hadapter, result, hanswer, houtcome⟩

/-- A payment becomes `FAILED` only on a report. -/
theorem reportedFailed_of_step (r : Request) (hs : Balanced s.toBooks) {p q : Payment}
    (hp : p ∈ s.payments) (hbefore : p.status ≠ .failed)
    (hq : q ∈ (r.handler.commit s).payments) (hid : q.id = p.id) (hafter : q.status = .failed) :
    ReportedFailed r s p := by
  have hkeys := (balanced_commit r hs).keyed
  have hsame : p ∈ (r.handler.commit s).payments → False := by
    intro hmem
    obtain rfl := Support.eq_of_key hkeys hq hmem hid
    exact hbefore hafter
  rcases step_cases r hs.keyed with heq | ⟨_, _, -, -, hbooks⟩ | ⟨ms, hmoves, hchain, -, hbooks⟩
  · exact (hsame (by rw [heq]; exact hp)).elim
  · exact (hsame (by rw [hbooks]; exact hp)).elim
  · obtain ⟨q', hq', hfixed, hsource⟩ := chain_source ms s.toBooks hp
    rw [← hbooks] at hq'
    obtain rfl : q' = q := Support.eq_of_key hkeys hq' hq
      ((congrArg Payment.Fixed.id hfixed).trans hid.symm)
    obtain ⟨m, hm, new, hentered, hnewid, hnew⟩ :=
      hsource.resolve_left fun hstatus => hbefore (hstatus.symm.trans hafter)
    have hnew : new.status = .failed := hnew.trans hafter
    have hfound : ∀ {payment : Payment}, s.view.Holds payment → new.id = payment.id →
        payment = p := by
      intro payment hheld hpayment
      rw [View.holds_alone] at hheld
      exact Support.eq_of_key hs.keyed hheld hp (hpayment.symm.trans hnewid)
    have hundone : ∀ {payment after : Payment} {status : PaymentStatus},
        Undone r.env payment status ms after → status = .failed := fun h =>
      (h.entered_status hm hentered).symm.trans hnew
    have hinitiated : ∀ {tenant amount metadata},
        StartsPayment s.view r.env tenant amount metadata ms → False := by
      rintro tenant amount metadata (rfl | ⟨input, adapter, after, -, -, -, -, -, -, hinit⟩)
      · cases hm
      · obtain ⟨currency, rest, rfl, -, hids⟩ := hinit.opens
        obtain ⟨-, -, -, -, hclash, -⟩ := hchain.1
        rw [View.sees_alone] at hclash
        have hany := List.any_eq_false.mp hclash p hp
        have hpid : p.id = (input.newPayment r.env currency).id :=
          hnewid.symm.trans (hids m hm new hentered)
        simp [hpid] at hany
    have hclerical : (∀ m ∈ ms, m.isClerical = true) → False := fun h => by
      have hmem : m.enteredId = some new.id := by rw [Move.enteredId, hentered]; rfl
      have hids : new.id ∈ enteredIds ms := List.mem_filterMap.mpr ⟨m, hm, hmem⟩
      rw [clerical_enteredIds h] at hids
      cases hids
    obtain ⟨env, action⟩ := r
    cases action with
    | paymentQuery tenant pk =>
        obtain ⟨payment, adapter, result, after, hheld, hpk, htenant, hserves, hanswer, hqueried⟩ :=
          hmoves
        obtain ⟨houtcome, hpayment⟩ := hqueried.entered_failed hm hentered hnew
        obtain rfl := hfound hheld hpayment
        exact ⟨hpk.symm, htenant.symm, .of_serves hserves hanswer houtcome⟩
    | paymentRefund =>
        rcases hmoves with rfl | ⟨_, _, -, -, -, h⟩
        · cases hm
        · cases hundone h
    | paymentReverse =>
        rcases hmoves with rfl | ⟨_, _, -, -, -, h⟩
        · cases hm
        · cases hundone h
    | providerCallback code inbound =>
        rcases hmoves with rfl | ⟨provider, adapter, hprovider, hadapter, hback⟩
        · cases hm
        · rw [View.sees_alone] at hprovider
          generalize hanswer : adapter.processCallback inbound = answer at hback
          cases hback with
          | @matched parsed row payment after ms' found applied =>
              rw [View.seesAt_alone] at found
              rcases List.mem_cons.mp hm with rfl | hm
              · cases hentered
              rcases List.mem_cons.mp hm with rfl | hm
              · cases hentered
              obtain ⟨houtcome, hpayment⟩ := applied.entered_failed hm hentered hnew
              obtain rfl : payment = p := Support.eq_of_key hs.keyed (matchReference_mem found).1 hp
                (hpayment.symm.trans hnewid)
              exact ⟨provider, hprovider, adapter, hadapter, parsed, hanswer, found, houtcome⟩
          | invalid | orphanDuplicate =>
              obtain rfl := List.mem_singleton.mp hm
              cases hentered
          | duplicate | unmatched =>
              simp only [List.mem_cons, List.not_mem_nil, or_false] at hm
              rcases hm with rfl | rfl <;> cases hentered
    | payBill => exact (hinitiated hmoves).elim
    | paymentListCreate => exact (hinitiated hmoves).elim
    | triggerRun tenant =>
        obtain ⟨payments, hpayments, -, hreconciled⟩ := hmoves
        obtain ⟨payment, hmem, hpayment, adapter, result, hserves, hanswer, houtcome⟩ :=
          hreconciled.entered_failed hm hentered hnew
        obtain ⟨hheld, htenant, hstatus⟩ := hpayments payment hmem
        obtain rfl := hfound hheld hpayment
        exact ⟨htenant.symm, hstatus, .of_serves hserves hanswer houtcome⟩
    | _ => exact (hclerical hmoves).elim

/-- A payment that is not `FAILED` yet, and is later, was reported `FAILED` in between. -/
theorem reportedFailed_of_run (hs : Balanced s.toBooks) (requests : List Request) {p q : Payment}
    (hp : p ∈ s.payments) (hbefore : p.status ≠ .failed)
    (hq : q ∈ (afterAll s requests).payments) (hid : q.id = p.id) (hafter : q.status = .failed) :
    ∃ earlier r later, requests = earlier ++ r :: later ∧
      ∃ row ∈ (afterAll s earlier).payments, row.id = p.id ∧
        ReportedFailed r (afterAll s earlier) row := by
  induction requests generalizing s p with
  | nil =>
      obtain rfl := Support.eq_of_key hs.keyed hq hp hid
      exact absurd hafter hbefore
  | cons r rs ih =>
      obtain ⟨row, hrow, hfixed, -⟩ := (evolves_commit r hs).kept p hp
      have hrowid : row.id = p.id := congrArg Payment.Fixed.id hfixed
      by_cases hfailed : row.status = .failed
      · exact ⟨[], r, rs, rfl, p, hp, rfl,
          reportedFailed_of_step r hs hp hbefore hrow hrowid hfailed⟩
      · obtain ⟨earlier, r', later, rfl, found, hfound, hfoundid, hreported⟩ :=
          ih (balanced_commit r hs) hrow hfailed hq (hid.trans hrowid.symm)
        exact ⟨r :: earlier, r', later, rfl, found, hfound, hfoundid.trans hrowid, hreported⟩

/-- The two views that start a payment. -/
def Action.isInitiation : Action → Bool
  | payBill .. | paymentListCreate .. => true
  | _ => false

/-- Only the two views that start a payment open one. -/
theorem Action.Moves.starts {view : View} {env : Env} {action : Action} {ms : List Move} {m : Move}
    (h : action.Moves view env ms) (hm : m ∈ ms) (hopens : m.opened ≠ []) :
    action.isInitiation = true ∧
      ∃ tenant amount, StartsPayment view env tenant amount action.metadata ms := by
  have hnone : (∀ m ∈ ms, m.opened = []) → False := fun hall => hopens (hall m hm)
  cases action with
  | payBill tenant _ _ amount _ _ => exact ⟨rfl, tenant, amount.toAmount, h⟩
  | paymentListCreate tenant _ _ _ amount _ _ _ => exact ⟨rfl, tenant, amount, h⟩
  | paymentQuery =>
      obtain ⟨_, _, _, _, -, -, -, -, -, hqueried⟩ := h
      exact (hnone hqueried.opened).elim
  | paymentRefund | paymentReverse =>
      rcases h with rfl | ⟨_, _, -, -, -, hundone⟩
      · cases hm
      · exact (hnone hundone.opened).elim
  | providerCallback =>
      rcases h with rfl | ⟨_, _, -, -, hback⟩
      · cases hm
      · exact (hnone hback.opened).elim
  | triggerRun =>
      obtain ⟨_, -, -, hreconciled⟩ := h
      exact (hnone hreconciled.opened).elim
  | _ => exact (hnone fun m' hm' => opened_of_clerical (h m' hm')).elim

/-- A payment whose initiation timed out is `UNKNOWN` when the request commits. -/
theorem timedOut_unknown {r : Request} (hs : Balanced s.toBooks)
    (hdirectory : s.toDirectory.Coherent) {p : Payment} (h : InitiationTimedOut r s p) :
    ∃ row ∈ (r.handler.commit s).payments, row.id = p.id ∧ row.status = .unknown := by
  obtain ⟨habsent, ⟨row, hrow, hfixed⟩, provider, hprovider, hproviderid, adapter, hadapter, cn,
    hcn, hcnid, message, hanswer⟩ := h
  have hold : ∀ old ∈ s.payments, row.fixed ≠ old.fixed := fun old hold heq =>
    habsent old hold (congrArg Payment.Fixed.id (heq.symm.trans hfixed))
  rcases step_cases r hs.keyed with heq | ⟨_, _, -, -, hbooks⟩ | ⟨ms, hmoves, -, -, hbooks⟩
  · rw [heq] at hrow
    exact (hold row hrow rfl).elim
  · rw [hbooks] at hrow
    exact (hold row hrow rfl).elim
  · rw [hbooks] at hrow ⊢
    obtain ⟨m, hm, payment, hopened, hpayment⟩ :=
      (runAll_opened ms s.toBooks hrow).resolve_left fun ⟨old, hmem, heq⟩ => hold old hmem heq
    obtain ⟨-, tenant, amount, hstarts⟩ := hmoves.starts hm (List.ne_nil_of_mem hopened)
    rcases hstarts with rfl | ⟨input, adapter', after, -, -, hmetadata, hinputcn, hinputprovider,
      hadapter', hinit⟩
    · cases hm
    rw [View.sees_alone] at hinputcn hinputprovider
    obtain ⟨currency, rest, hms, hopens, -⟩ := hinit.opens
    -- the request asked the provider of the row for the amount of the row
    have hnew : payment = input.newPayment r.env currency := by
      rw [hms] at hm
      rcases List.mem_cons.mp hm with rfl | hm
      · exact List.mem_singleton.mp hopened
      · rw [hopens m hm] at hopened
        cases hopened
    have hrowfixed : (input.newPayment r.env currency).fixed = p.fixed := by
      rw [← hnew, ← hpayment, hfixed]
    obtain rfl : input.controlNumber = cn := Support.eq_of_key hs.keys.controlNumbers hinputcn hcn
      ((congrArg Payment.Fixed.controlNumber hrowfixed).trans hcnid.symm)
    obtain rfl : input.provider = provider :=
      Support.eq_of_key hdirectory.providers hinputprovider hprovider
        ((congrArg Payment.Fixed.provider hrowfixed).trans hproviderid.symm)
    obtain rfl : adapter' = adapter := Option.some.inj (hadapter'.symm.trans hadapter)
    have hcall : adapter'.initiatePayment (input.call (input.newPayment r.env currency)) =
        .error (.timeout message) := by
      rw [← hanswer, ← hrowfixed, ← hmetadata]
      rfl
    have hfirst : ∀ payment' rest', ms = .openPayment payment' :: rest' →
        payment' = input.newPayment r.env currency := fun payment' rest' heq =>
      Move.openPayment.inj (List.cons.inj (heq.symm.trans hms)).1
    cases hinit with
    | @timedOut payment' =>
        obtain rfl := hfirst payment' _ rfl
        have hopened : input.newPayment r.env currency ∈
            (s.toBooks.addPayment (input.newPayment r.env currency)).payments :=
          List.mem_append_right _ (List.mem_singleton.mpr rfl)
        exact ⟨_, mem_updatePayment hopened _, congrArg Payment.Fixed.id hrowfixed, rfl⟩
    | @refused payment' _ _ e _ hrefused he =>
        rw [hfirst payment' _ rfl, hcall] at hrefused
        obtain rfl := Except.error.inj hrefused
        rcases he with he | he <;> cases he
    | @answered payment' _ _ _ _ _ hanswered =>
        rw [hfirst payment' _ rfl, hcall] at hanswered
        cases hanswered

/-- What requests processed one at a time keep about a payment. -/
structure Lifecycle (start : DB) (requests : List Request) (p : Payment) : Prop where
  /-- The committed statuses are a path of `ALLOWED_TRANSITIONS` from `INITIATED`. -/
  path : (PaymentStatus.initiated :: statusHistory start requests p.id).IsChain PaymentStatus.Step
  /-- `FAILED`, `REVERSED` and `REFUNDED` are never left. -/
  final : ∀ earlier later, requests = earlier ++ later →
    ∀ row ∈ (afterAll start earlier).payments, row.id = p.id →
      row.status ∈ [PaymentStatus.failed, .reversed, .refunded] → p.status = row.status
  /-- The provider is asked at most once to initiate it. -/
  initiatedOnce : initiations p.id p.merchantReference start requests ≤ 1
  /-- After a timed-out initiation it fails only on a report. -/
  failure : ∀ earlier r later, requests = earlier ++ r :: later →
    InitiationTimedOut r (afterAll start earlier) p → p.status = .failed →
    ∃ between r' rest, later = between ++ r' :: rest ∧
      ∃ row ∈ (afterAll start (earlier ++ r :: between)).payments, row.id = p.id ∧
        ReportedFailed r' (afterAll start (earlier ++ r :: between)) row
  completion : p.completedAt.isSome ↔
    p.status ∈ [PaymentStatus.successful, .failed, .reversed, .refunded]
  receipt : (∃ row ∈ (afterAll start requests).receipts, row.payment = p.id) ↔
    EverSuccessful start requests p.id
  stated : ∀ row ∈ (afterAll start requests).receipts, row.payment = p.id →
    row.amount = p.amount.toNumeric ∧ row.currency = p.currency

end Runs

/-- Along every run, every payment lives its life. -/
theorem payment_lifecycle {start : DB} (hstart : Initial start) (requests : List Request) :
    ∀ p ∈ (afterAll start requests).payments, Lifecycle start requests p := by
  intro p hp
  have h := balanced_afterAll hstart requests
  have hsettled := everSuccessful_iff hstart requests hp
  have hinClass : p.fixed ∈ (afterAll start requests).settled ↔ p.status.settled = true := by
    constructor
    · intro hmem
      exact (fixed_of_mem_inClass h.toBooked hmem hp rfl).2
    · exact fun hstatus => mem_inClass_iff.mpr ⟨p, hp, hstatus, rfl⟩
  have hstated : ∀ row ∈ (afterAll start requests).receipts, row.payment = p.id →
      p.status.settled = true ∧ row.amount = p.amount.toNumeric ∧ row.currency = p.currency := by
    intro row hrow hid
    obtain ⟨x, hx, hxstated⟩ := List.mem_map.mp (h.receipts.subset (List.mem_map_of_mem hrow))
    have hxid : x.id = p.id := (congrArg (·.2.1) hxstated).trans hid
    obtain ⟨rfl, hstatus⟩ := fixed_of_mem_inClass h.toBooked hx hp hxid
    exact ⟨hstatus, (congrArg (·.2.2.1) hxstated).symm, (congrArg (·.2.2.2) hxstated).symm⟩
  exact
    { path := statusHistory_isChain hstart requests p.id
      final := fun earlier later hrequests row hrow hid hfinal => by
        subst hrequests
        obtain ⟨q, hq, hfixed, hsame⟩ := kept_afterAll (balanced_afterAll hstart earlier) later hrow
        rw [afterAll, ← after_append] at hq
        obtain rfl : q = p := Support.eq_of_key h.keyed hq hp
          ((congrArg Payment.Fixed.id hfixed).trans hid)
        refine hsame ?_
        simp only [List.mem_cons, List.not_mem_nil, or_false] at hfinal
        rcases hfinal with h | h | h <;> rw [h] <;> rfl
      initiatedOnce := initiations_le_one hstart.balanced requests hp
      failure := fun earlier r later hrequests htimedOut hfailed => by
        subst hrequests
        have hs := balanced_afterAll hstart earlier
        obtain ⟨row, hrow, hid, hunknown⟩ :=
          timedOut_unknown hs (coherent_afterAll hstart earlier) htimedOut
        have hlater :
            p ∈ (afterAll (r.handler.commit (afterAll start earlier)) later).payments := by
          rw [afterAll, after_append] at hp
          exact hp
        obtain ⟨between, r', rest, rfl, found, hfound, hfoundid, hreported⟩ :=
          reportedFailed_of_run (balanced_commit r hs) later hrow (by rw [hunknown]; decide) hlater
            hid.symm hfailed
        have hafter : afterAll start (earlier ++ r :: between) =
            afterAll (r.handler.commit (afterAll start earlier)) between :=
          after_append Request.handler start earlier (r :: between)
        rw [← hafter] at hfound hreported
        exact ⟨between, r', rest, rfl, found, hfound, hfoundid.trans hid, hreported⟩
      completion := by
        rw [h.completed p hp]
        simp [PaymentStatus.completes]
      receipt := by
        rw [hsettled]
        constructor
        · rintro ⟨row, hrow, hid⟩
          exact (hstated row hrow hid).1
        · intro hstatus
          have hmem := h.receipts.symm.subset (List.mem_map_of_mem (hinClass.mpr hstatus))
          obtain ⟨row, hrow, hrowstated⟩ := List.mem_map.mp hmem
          exact ⟨row, hrow, congrArg (·.2.1) hrowstated⟩
      stated := fun row hrow hid => (hstated row hrow hid).2 }

/-- A payment whose initiation times out, and a query that reports it `FAILED`. -/
def timedOutRun : List Request :=
  [issueBill,
   payIssuedBill 2
     { answering .failed "p" "" with initiatePayment := fun _ => .error (.timeout "") }
     (amountOf 4000),
   { env := envAt 3 (answering .failed "p" ""), action := .paymentQuery 1 2 }]

theorem payment_lifecycle_timedOut :
    Initial smallInstallation ∧ ∃ p ∈ (afterAll smallInstallation timedOutRun).payments,
      p.status = .failed ∧ Lifecycle smallInstallation timedOutRun p := by
  have hfailed : ∃ p ∈ (afterAll smallInstallation timedOutRun).payments, p.status = .failed := by
    decide +kernel
  obtain ⟨p, hp, hstatus⟩ := hfailed
  exact ⟨smallInstallation_initial, p, hp, hstatus,
    payment_lifecycle smallInstallation_initial timedOutRun p hp⟩

end Kusanya
