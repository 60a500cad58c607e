import Kusanya.Guarantees.Settlement
import Kusanya.Invariants.Concerns
import Kusanya.Moves.Growth
import Kusanya.ReadCommitted.PrimaryKeys
import Kusanya.ReadCommitted.Recorded

/-!
# Every request next to every other

Requests of all kinds run interleaved, each in a transaction of its own.  A request that commits
has read states that were committed before it; it made the moves of its action, with their guards,
on these states, and the moves apply to whatever is committed by then (`run_requests`).  What the
moves of one request keep is therefore kept along every schedule.
-/

namespace Kusanya

open ReadCommitted Support

/-! ## The moves of requests on payments -/

/-- The moves of the requests that work on payments; a refund or reversal stands alone. -/
def Move.worksOnPayments : Move → Bool
  | openPayment _ | refer .. | enter _ | settle _ | note _ | addCallback _ | editCallback .. => true
  | _ => false

section Work

variable {view : View} {env : Env} {payment after : Payment} {ms ms' : List Move} {m : Move}

/-- Every move of the list works on payments. -/
def Works (ms : List Move) : Prop := ∀ m ∈ ms, m.worksOnPayments = true

theorem works_nil : Works [] := fun _ hm => absurd hm List.not_mem_nil

theorem works_cons (hm : m.worksOnPayments = true) (h : Works ms) : Works (m :: ms) :=
  List.forall_mem_cons.mpr ⟨hm, h⟩

theorem works_append (h : Works ms) (h' : Works ms') : Works (ms ++ ms') :=
  List.forall_mem_append.mpr ⟨h, h'⟩

theorem Applied.works {outcome : ProviderOutcome} (h : Applied env payment outcome ms after) :
    Works ms := by
  cases h with
  | inconclusive | repeated => exact works_nil
  | unknown | pending | successful => exact works_cons rfl works_nil
  | failed => exact works_cons rfl (works_cons rfl works_nil)

theorem Learned.works {object : Payment} {reference : String}
    (h : Learned payment reference ms object) : Works ms := by
  cases h with
  | known => exact works_nil
  | learned => exact works_cons rfl works_nil

theorem Queried.works {result : ProviderResult} (h : Queried env payment result ms after) :
    Works ms := by
  obtain ⟨hlearned, happlied⟩ := h
  exact works_append hlearned.works happlied.works

/-- The moves of a request that takes a success back. -/
def Undoes (ms : List Move) : Prop :=
  ∃ env payment fee metadata, ms = [.undo env payment fee metadata]

theorem Undone.works {status : PaymentStatus} (h : Undone env payment status ms after) :
    Works ms ∨ Undoes ms := by
  cases h with
  | kept => exact Or.inl works_nil
  | undone => exact Or.inr ⟨_, _, _, _, rfl⟩

theorem Initiated.works {input : InitiateInput} {adapter : Adapter}
    (h : Initiated env input adapter ms after) : Works ms := by
  cases h with
  | timedOut => exact works_cons rfl (works_cons rfl works_nil)
  | refused => exact works_cons rfl (works_cons rfl (works_cons rfl works_nil))
  | answered _ _ happlied => exact works_cons rfl (works_cons rfl happlied.works)

theorem StartsPayment.works {tenant : ℕ} {amount : Amount} {metadata : List (String × String)}
    (h : StartsPayment view env tenant amount metadata ms) : Works ms := by
  rcases h with rfl | ⟨_, _, _, -, -, -, -, -, -, hinitiated⟩
  · exact works_nil
  · exact hinitiated.works

theorem Delivered.works (h : Delivered view env ms) : Works ms := by
  cases h with
  | refused => exact works_cons rfl works_nil
  | repeated hrepeated =>
      cases hrepeated with
      | orphan => exact works_cons rfl works_nil
      | noted => exact works_cons rfl (works_cons rfl works_nil)
  | unmatched => exact works_cons rfl (works_cons rfl works_nil)
  | matched _ happlied => exact works_cons rfl (works_cons rfl happlied.works)

theorem Reconciled.works {payments : List Payment} (h : Reconciled view env payments ms) :
    Works ms := by
  induction h with
  | nil => exact works_nil
  | cons _ _ queried _ ih => exact works_append queried.works ih

theorem Action.Acts.works {action : Action} (h : action.Acts view env ms)
    (hworks : action.worksOnPayments = true) : Works ms ∨ Undoes ms := by
  cases action with
  | payBill | paymentListCreate => exact Or.inl (StartsPayment.works h)
  | paymentQuery =>
      obtain ⟨_, _, _, _, -, -, -, -, -, hqueried⟩ := h
      exact Or.inl hqueried.works
  | paymentRefund | paymentReverse =>
      rcases h with rfl | ⟨_, _, -, -, -, hundone⟩
      · exact Or.inl works_nil
      · exact hundone.works
  | providerCallback =>
      rcases h with rfl | hdelivered
      · exact Or.inl works_nil
      · exact Or.inl hdelivered.works
  | triggerRun =>
      obtain ⟨_, -, -, hreconciled⟩ := h
      exact Or.inl hreconciled.works
  | _ => cases hworks

theorem not_openBatch (h : Works ms ∨ Undoes ms) {batch : SettlementBatch}
    {claimed : List Payment} : .openBatch batch claimed ∉ ms := by
  intro hm
  rcases h with h | ⟨_, _, _, _, rfl⟩
  · exact absurd (h _ hm) Bool.false_ne_true
  · cases List.mem_singleton.mp hm

end Work

/-! ## The moves that leave the payments aside -/

/-- The move touches neither payments nor what batches count. -/
structure Move.Aside (m : Move) : Prop where
  opens : m.opened = []
  payments : ∀ row, m.onPayment row = row
  events : ∀ e ∈ m.events, e.eventType ≠ .paymentSuccessful
  batches : m.openedBatches = []
  entered : m.entered = none
  orderly : m.Orderly

section Aside

variable {view : View} {env : Env} {ms : List Move} {m : Move} {b : Books}

theorem Move.orderly_of_same (h : ∀ row, m.onBatch row = row) : m.Orderly :=
  fun row => congrArg SettlementBatch.fixed (h row)

theorem aside_openBill {items : List BillItem} {bill : Bill} {now : Time} :
    (Move.openBill items bill now).Aside where
  opens := rfl
  payments _ := rfl
  events _ he := absurd he List.not_mem_nil
  batches := rfl
  entered := rfl
  orderly := Move.orderly_of_same fun _ => rfl

theorem aside_cancelBill {bill : Bill} : (Move.cancelBill bill).Aside where
  opens := rfl
  payments _ := rfl
  events _ he := absurd he List.not_mem_nil
  batches := rfl
  entered := rfl
  orderly := Move.orderly_of_same fun _ => rfl

theorem aside_editControlNumbers {f : ControlNumber → ControlNumber} :
    (Move.editControlNumbers f).Aside where
  opens := rfl
  payments _ := rfl
  events _ he := absurd he List.not_mem_nil
  batches := rfl
  entered := rfl
  orderly := Move.orderly_of_same fun _ => rfl

theorem aside_issue {cn : ControlNumber} {currency : String} :
    (Move.issue env cn currency).Aside where
  opens := rfl
  payments _ := rfl
  events e he hsuccess := by
    rw [List.mem_singleton.mp he] at hsuccess
    cases hsuccess
  batches := rfl
  entered := rfl
  orderly := Move.orderly_of_same fun _ => rfl

theorem aside_note {event : RevenueEvent} (h : event.eventType ≠ .paymentSuccessful) :
    (Move.note event).Aside where
  opens := rfl
  payments _ := rfl
  events e he := by
    rw [List.mem_singleton.mp he]
    exact h
  batches := rfl
  entered := rfl
  orderly := Move.orderly_of_same fun _ => rfl

theorem aside_completed {id : ℕ} {now : Time} {reference : String} :
    (Move.editBatch id (SettlementBatch.completedAs now reference)).Aside where
  opens := rfl
  payments _ := rfl
  events _ he := absurd he List.not_mem_nil
  batches := rfl
  entered := rfl
  orderly row := by
    by_cases hid : row.id = id
    · simp only [Move.onBatch, if_pos hid]
      rfl
    · simp only [Move.onBatch, if_neg hid]

/-- The requests that work neither on payments nor on new batches. -/
def Action.staysAside (action : Action) : Bool :=
  !action.settlesOrWorks && !action.savesTenant

theorem Numbered.aside {tenant : ℕ} {owner : Owner} (h : Numbered view env tenant owner ms) :
    ∀ m ∈ ms, m.Aside := by
  cases h with
  | kept => exact fun m hm => absurd hm List.not_mem_nil
  | reused =>
      intro m hm
      rw [List.mem_singleton.mp hm]
      exact aside_note fun h => by cases h
  | created =>
      intro m hm
      rw [List.mem_singleton.mp hm]
      exact aside_issue

theorem Action.Acts.aside {action : Action} (h : action.Acts view env ms)
    (haside : action.staysAside = true) : ∀ m ∈ ms, m.Aside := by
  have hnil : ms = [] → ∀ m ∈ ms, m.Aside := by
    rintro rfl m hm
    cases hm
  have hone : ∀ {m : Move}, m.Aside → ms = [m] → ∀ m ∈ ms, m.Aside := by
    rintro m hm rfl m' hm'
    rw [List.mem_singleton.mp hm']
    exact hm
  cases action with
  | billCreate =>
      rcases h with h | ⟨items, bill, ms', -, hnumbered, rfl⟩
      · exact hnil h
      · exact List.forall_mem_cons.mpr ⟨aside_openBill, hnumbered.aside⟩
  | billListCreate =>
      rcases h with h | ⟨items, bill, -, h⟩
      · exact hnil h
      · exact hone aside_openBill h
  | billCancel =>
      rcases h with h | ⟨bill, -, -, -, h⟩
      · exact hnil h
      · exact hone aside_cancelBill h
  | billRequestControlNumber | accountRequestControlNumber => exact Numbered.aside h.2
  | controlNumberCancel =>
      obtain ⟨cn, -, -, -, h⟩ := h
      exact hone aside_editControlNumbers h
  | expireOverdue =>
      obtain ⟨locked, -, h⟩ := h
      exact hone aside_editControlNumbers h
  | markCompleted => exact hone aside_completed h
  | _ => cases haside

theorem Action.Acts.orderly {action : Action} (h : action.Acts view env ms) :
    ∀ m ∈ ms, m.Orderly := by
  have hworks : Works ms ∨ Undoes ms → ∀ m ∈ ms, m.Orderly := by
    rintro (hworks | ⟨_, _, _, _, rfl⟩) m hm
    · refine Move.orderly_of_same fun row => ?_
      have hm := hworks m hm
      cases m <;> first | rfl | cases hm
    · rw [List.mem_singleton.mp hm]
      exact Move.orderly_of_same fun _ => rfl
  cases action with
  | generateBatch =>
      obtain ⟨batch, claimed, -, rfl⟩ := h
      intro m hm
      rw [List.mem_singleton.mp hm]
      exact Move.orderly_of_same fun _ => rfl
  | payBill | paymentListCreate | paymentQuery | paymentRefund | paymentReverse
  | providerCallback | triggerRun => exact hworks (Action.Acts.works h rfl)
  | changeFeeRefundPolicy | changeDefaultCurrency => cases h
  | _ => exact fun m hm => (Action.Acts.aside h rfl m hm).orderly

/-- A refund or reversal stands alone. -/
theorem Action.Acts.no_undo {action : Action} (h : action.Acts view env ms) (hnot : ¬Undoes ms)
    {env' : Env} {payment : Payment} {fee : Option RevenueEvent}
    {metadata : List (String × String)} : .undo env' payment fee metadata ∉ ms := by
  have hworks : Works ms ∨ Undoes ms → .undo env' payment fee metadata ∉ ms := by
    rintro (hworks | hundoes) hm
    · exact absurd (hworks _ hm) Bool.false_ne_true
    · exact hnot hundoes
  cases action with
  | generateBatch =>
      obtain ⟨batch, claimed, -, rfl⟩ := h
      intro hm
      cases List.mem_singleton.mp hm
  | payBill | paymentListCreate | paymentQuery | paymentRefund | paymentReverse
  | providerCallback | triggerRun => exact hworks (Action.Acts.works h rfl)
  | changeFeeRefundPolicy | changeDefaultCurrency => cases h
  | _ =>
      intro hm
      have hentered := (Action.Acts.aside h rfl _ hm).entered
      cases hentered

/-- The payments after moves that leave them aside. -/
theorem runAll_aside_payments (h : ∀ m ∈ ms, m.Aside) :
    (Move.runAll ms b).payments = b.payments := by
  induction ms generalizing b with
  | nil => rfl
  | cons m ms ih =>
      obtain ⟨hm, hms⟩ := List.forall_mem_cons.mp h
      rw [Move.runAll_cons, ih hms, m.run_payments, hm.opens, List.append_nil]
      exact (List.map_congr_left fun row _ => hm.payments row).trans (List.map_id _)

theorem runAll_aside_successes (h : ∀ m ∈ ms, m.Aside) (id : ℕ) :
    (Move.runAll ms b).successes id = b.successes id := by
  induction ms generalizing b with
  | nil => rfl
  | cons m ms ih =>
      obtain ⟨hm, hms⟩ := List.forall_mem_cons.mp h
      rw [Move.runAll_cons, ih hms]
      unfold Books.successes
      rw [m.run_revenue, List.filter_append]
      refine List.append_right_eq_self.mpr (List.filter_eq_nil_iff.mpr fun e he hsuccess => ?_)
      have htype : e.eventType = .paymentSuccessful :=
        of_decide_eq_true (Bool.and_eq_true_iff.mp hsuccess).1
      exact hm.events e he htype

theorem runAll_aside_batches (h : ∀ m ∈ ms, m.Aside) :
    (Move.runAll ms b).batches.map SettlementBatch.fixed = b.batches.map SettlementBatch.fixed := by
  induction ms generalizing b with
  | nil => rfl
  | cons m ms ih =>
      obtain ⟨hm, hms⟩ := List.forall_mem_cons.mp h
      rw [Move.runAll_cons, ih hms, m.run_batches, hm.batches, List.append_nil, List.map_map]
      exact List.map_congr_left fun row _ => hm.orderly row

/-- A success that is booked after such moves was booked before. -/
theorem mem_runAll_aside (h : ∀ m ∈ ms, m.Aside) {e : RevenueEvent}
    (he : e ∈ (Move.runAll ms b).revenue) (hsuccess : e.eventType = .paymentSuccessful) :
    e ∈ b.revenue := by
  rcases mem_runAll_revenue he with hold | ⟨m, hm, hnew⟩
  · exact hold
  · exact absurd hsuccess ((h m hm).events e hnew)

/-- What batches and payments have in common stays so. -/
theorem runAll_aside_tables (h : ∀ m ∈ ms, m.Aside) (hb : b.SettlementTables) :
    (Move.runAll ms b).SettlementTables := by
  have hpayments := runAll_aside_payments (b := b) h
  have hbatches := runAll_aside_batches (b := b) h
  have hrow : ∀ row ∈ (Move.runAll ms b).batches, ∃ old ∈ b.batches, old.fixed = row.fixed := by
    intro row hrow
    have hmem : row.fixed ∈ b.batches.map SettlementBatch.fixed := by
      rw [← hbatches]
      exact List.mem_map_of_mem hrow
    exact List.mem_map.mp hmem
  constructor
  · rw [hpayments]
    exact hb.payments
  · have hids := congrArg (List.map SettlementBatch.Fixed.id) hbatches
    rw [List.map_map, List.map_map] at hids
    change ((Move.runAll ms b).batches.map (SettlementBatch.Fixed.id ∘ SettlementBatch.fixed)).Nodup
    rw [hids]
    exact hb.batches
  · intro p hp id hid
    rw [hpayments] at hp
    obtain ⟨batch, hbatch, hbatchid⟩ := hb.pointers p hp id hid
    have hmem : batch.fixed ∈ (Move.runAll ms b).batches.map SettlementBatch.fixed := by
      rw [hbatches]
      exact List.mem_map_of_mem hbatch
    obtain ⟨row, hrow, hfixed⟩ := List.mem_map.mp hmem
    exact ⟨row, hrow, (congrArg SettlementBatch.Fixed.id hfixed).trans hbatchid⟩
  · intro row hmem
    obtain ⟨old, hold, hfixed⟩ := hrow row hmem
    have hid : old.id = row.id := congrArg SettlementBatch.Fixed.id hfixed
    have hclaimed : (Move.runAll ms b).claimedBy row.id = b.claimedBy old.id := by
      unfold Books.claimedBy
      rw [hpayments, hid]
    have hexact := hb.exact old hold
    constructor
    · rw [hclaimed, ← hexact.gross]
      exact congrArg (fun f : SettlementBatch.Fixed => f.grossAmount.cents) hfixed.symm
    · have hnet := hexact.net
      rw [show old.netAmount = row.netAmount from
          congrArg SettlementBatch.Fixed.netAmount hfixed,
        show old.grossAmount = row.grossAmount from
          congrArg SettlementBatch.Fixed.grossAmount hfixed,
        show old.platformFeeTotal = row.platformFeeTotal from
          congrArg SettlementBatch.Fixed.platformFeeTotal hfixed,
        show old.providerFeeTotal = row.providerFeeTotal from
          congrArg SettlementBatch.Fixed.providerFeeTotal hfixed] at hnet
      exact hnet
  · intro e he hsuccess
    rw [hpayments]
    exact hb.successes e (mem_runAll_aside h he hsuccess) hsuccess

end Aside

/-! ## The end of a transaction -/

section Ends

variable {request : Request} {l : Local DB Resource} {s : DB} {seen : List (Resource × DB)}
variable {φ : Resource → DB → Prop}

/-- The tenant was saved, and the money tables were left alone. -/
def SavedFor (tenant : ℕ) (s t : DB) : Prop :=
  ∃ f, (∀ row : Tenant, (f row).id = row.id ∧ (f row).name = row.name) ∧
    t.toDirectory = s.toDirectory.saveTenant tenant f ∧ t.toBooks = s.toBooks

/-- A request that saves a tenant does nothing else. -/
theorem wp_savesTenant (h : request.action.savesTenant = true) :
    request.handler.wp (fun _ => True) φ id
      (fun _ pend' => ∃ tenant, request.action.tenant? = some tenant ∧
        ∀ s, SavedFor tenant s (pend' s)) fun _ _ => True := by
  obtain ⟨env, action⟩ := request
  cases action with
  | changeFeeRefundPolicy tenant policy =>
      simp only [Request.handler, changeFeeRefundPolicy, saveTenant, Txn.wp_modify]
      refine ⟨tenant, rfl, fun s => ?_⟩
      exact ⟨fun row => { row with feeRefundPolicy := policy }, fun _ => ⟨rfl, rfl⟩, rfl, rfl⟩
  | changeDefaultCurrency tenant currency =>
      simp only [Request.handler, changeDefaultCurrency, saveTenant, Txn.wp_bind, wp_checkVarchar,
        Txn.wp_modify]
      refine ⟨fun _ => ⟨tenant, rfl, fun s => ?_⟩, fun _ => trivial⟩
      exact ⟨fun row => { row with defaultCurrency := currency }, fun _ => ⟨rfl, rfl⟩, rfl, rfl⟩
  | _ => cases h

/-- What the transaction of a request knows at its end, where it settles or works on payments. -/
def Action.EndsIf (action : Action) (l : Local DB Resource) : Prop :=
  action.settlesOrWorks = true → action.Ends l

theorem handler_endsIf (request : Request) (hs : s.toBooks.SettlementTables) :
    request.handler.lwp settlementDiscipline (Local.fresh s) (fun _ l => request.action.EndsIf l)
      fun _ _ => True := by
  by_cases hworks : request.action.settlesOrWorks = true
  · exact Txn.lwp_consequence (settlesOrWorks_lwp hworks hs) (fun _ _ h _ => h) fun _ _ h => h
  · refine Txn.lwp_consequence (Txn.lwp_of_wp (φ := fun _ _ => True) (fun _ _ _ _ => trivial)
      (Txn.wp_trivial request.handler)) (fun _ _ _ h => absurd h hworks) fun _ _ _ => trivial

/-- What a request that commits makes of the committed state `s`, whatever it read: it saves a
tenant, or its moves apply.  A batch takes payments that are free by then. -/
inductive Request.Commits (φ : Resource → DB → Prop) (request : Request) (s t : DB) : Prop
  | saved {tenant : ℕ} (saves : request.action.savesTenant = true)
      (named : request.action.tenant? = some tenant) (saved : SavedFor tenant s t)
  | acted {ms : List Move} (acts : request.action.Acts (viewOf φ id) request.env ms)
      (chain : (viewOf φ id).Chain ms) (directory : t.toDirectory = s.toDirectory)
      (books : t.toBooks = Move.runAll ms s.toBooks)
      (claims : ∀ batch claimed, .openBatch batch claimed ∈ ms → batch.Claims claimed s.toBooks)

/-- The tables grow with every commit. -/
theorem Request.Commits.grows {t : DB} (h : request.Commits φ s t) :
    s.toBooks.Grows t.toBooks := by
  cases h with
  | saved _ _ hsaved =>
      obtain ⟨-, -, -, hbooks⟩ := hsaved
      rw [hbooks]
      exact .refl _
  | acted hacts hchain _ hbooks _ =>
      rw [hbooks]
      exact hchain.grows hacts.orderly s.toBooks

/-- What a transaction that commits has read. -/
abbrev Read (seen : List (Resource × DB)) : Resource → DB → Prop := fun k v => (k, v) ∈ seen

theorem leaves_acted (hnot : request.action.savesTenant = false)
    (hunique : ∀ x ∈ seen, x.2.toBooks.SettlementTables)
    (hleaves : request.handler.Leaves seen (.ret ()) l.pend) :
    request.Acted (Read seen) l.pend :=
  hleaves _ (Read seen) _ _ (fun _ hx => hx)
    (wp_acts request hnot fun _ _ hv => (hunique _ hv).payments)

theorem leaves_saved (hsaves : request.action.savesTenant = true)
    (hleaves : request.handler.Leaves seen (.ret ()) l.pend) :
    ∃ tenant, request.action.tenant? = some tenant ∧ ∀ s, SavedFor tenant s (l.pend s) :=
  hleaves _ (Read seen) _ _ (fun _ hx => hx) (wp_savesTenant hsaves)

/-- The commit of a request. -/
theorem commits_of_leaves (hs : l.Sees settlementDiscipline s)
    (hunique : ∀ x ∈ seen, x.2.toBooks.SettlementTables) (hl : request.action.EndsIf l)
    (hleaves : request.handler.Leaves seen (.ret ()) l.pend) :
    request.Commits (Read seen) s (l.pend s) := by
  cases hsaves : request.action.savesTenant with
  | true =>
      obtain ⟨tenant, hnamed, hsaved⟩ := leaves_saved hsaves hleaves
      exact .saved hsaves hnamed (hsaved s)
  | false =>
      obtain ⟨ms, hacts, heffect⟩ := leaves_acted hsaves hunique hleaves
      have hdirectory : (l.pend s).toDirectory = s.toDirectory :=
        congrArg Prod.fst (heffect.writes s)
      have hbooks : (l.pend s).toBooks = Move.runAll ms s.toBooks :=
        congrArg Prod.snd (heffect.writes s)
      by_cases hworks : request.action.settlesOrWorks = true
      · rcases (hl hworks).cases with
          ⟨hnot, -⟩ | ⟨tenant, provider, periodStart, periodEnd, haction,
          batch, hbuilt⟩
        · refine .acted hacts heffect.chain hdirectory hbooks fun batch claimed hm => ?_
          have hwork : request.action.worksOnPayments = true := by
            cases haction : request.action with
            | generateBatch => exact absurd haction (hnot _ _ _ _)
            | _ =>
                rw [haction] at hworks
                exact hworks
          exact absurd hm (not_openBatch (hacts.works hwork))
        · obtain ⟨claimed, hclaims, -, hopened⟩ := hbuilt.claims_at hs
          have hchain : (viewOf (Read seen) id).Chain [.openBatch batch claimed] :=
            ⟨trivial, trivial⟩
          refine .acted ?_ hchain hdirectory hopened fun batch' claimed' hm => ?_
          · rw [haction] at hacts ⊢
            obtain ⟨batch', claimed', htenant, rfl⟩ := hacts
            have hsame : s.batches ++ [batch] = s.batches ++ [batch'] :=
              congrArg Books.batches (hopened.symm.trans hbooks)
            obtain rfl : batch = batch' := List.singleton_inj.mp (List.append_cancel_left hsame)
            exact ⟨batch, claimed, htenant, rfl⟩
          · obtain ⟨rfl, rfl⟩ := Move.openBatch.inj (List.mem_singleton.mp hm)
            exact hclaims
      · have haside : request.action.staysAside = true := by
          simp only [Action.staysAside, hsaves, Bool.not_eq_true] at hworks ⊢
          rw [hworks]
          rfl
        refine .acted hacts heffect.chain hdirectory hbooks fun batch claimed hm => ?_
        have hbatches := (hacts.aside haside _ hm).batches
        cases hbatches

/-- Moves that leave the payments aside keep what every lock keeps. -/
theorem aside_honours {t : DB} {ms : List Move} (hms : ∀ m ∈ ms, m.Aside)
    (hbooks : t.toBooks = Move.runAll ms s.toBooks) (hs : s.toBooks.SettlementTables) :
    t.toBooks.SettlementTables ∧ settlementDiscipline.evolves s t ∧ ∀ k, LockKeeps k s t := by
  have hpayments : t.payments = s.payments := by
    rw [hbooks]
    exact runAll_aside_payments hms
  refine ⟨?_, fun p hp => ⟨p, ?_, .refl p⟩, fun k => ?_⟩
  · rw [hbooks]
    exact runAll_aside_tables hms hs
  · rw [hpayments]
    exact hp
  · cases k with
    | payment id =>
        constructor
        · unfold Books.payment?
          rw [hpayments]
        · rw [hbooks]
          exact runAll_aside_successes hms id
    | batch id =>
        intro hfree row hrow
        rw [hbooks] at hrow
        have hmem : row.fixed ∈ s.toBooks.batches.map SettlementBatch.fixed := by
          rw [← runAll_aside_batches (b := s.toBooks) hms]
          exact List.mem_map_of_mem hrow
        obtain ⟨old, hold, hfixed⟩ := List.mem_map.mp hmem
        have hid : old.id = row.id := congrArg SettlementBatch.Fixed.id hfixed
        rw [← hid]
        exact hfree old hold
    | _ => trivial

/-- What every transaction owes the others. -/
theorem commit_honours (hs : l.Sees settlementDiscipline s)
    (hread : ∀ x ∈ seen, settlementDiscipline.inv x.2 ∧ settlementDiscipline.evolves x.2 s)
    (hl : request.action.EndsIf l) (hleaves : request.handler.Leaves seen (.ret ()) l.pend) :
    (l.pend s).toBooks.SettlementTables ∧ settlementDiscipline.evolves s (l.pend s) ∧
      ∀ k, k ∉ l.held → LockKeeps k s (l.pend s) := by
  by_cases hworks : request.action.settlesOrWorks = true
  · obtain ⟨hcommit, hkeeps⟩ := settlesOrWorks_commit (settlesOrWorks_savesTenant hworks)
      (hl hworks) hs hread hleaves
    exact ⟨hcommit.tables, hcommit.step.payments, hkeeps⟩
  · have haside : ∃ ms : List Move, (∀ m ∈ ms, m.Aside) ∧
        (l.pend s).toBooks = Move.runAll ms s.toBooks := by
      cases commits_of_leaves hs (fun x hx => (hread x hx).1) hl hleaves with
      | saved _ _ hsaved =>
          obtain ⟨-, -, -, hbooks⟩ := hsaved
          exact ⟨[], fun m hm => absurd hm List.not_mem_nil, hbooks⟩
      | @acted ms hacts _ _ hbooks _ =>
          by_cases hsaves : request.action.savesTenant = true
          · obtain ⟨tenant, -, hsaved⟩ := leaves_saved hsaves hleaves
            obtain ⟨-, -, -, hsame⟩ := hsaved s
            exact ⟨[], fun m hm => absurd hm List.not_mem_nil, hsame⟩
          · refine ⟨ms, hacts.aside ?_, hbooks⟩
            simp [Action.staysAside, hworks, hsaves]
    obtain ⟨ms, hms, hbooks⟩ := haside
    obtain ⟨htables, hevolves, hkeeps⟩ := aside_honours hms hbooks hs.inv
    exact ⟨htables, hevolves, fun k _ => hkeeps k⟩

end Ends

/-! ## Every schedule -/

/-- The request keeps to the further discipline `D`; at its end `Knows` holds of its stand. -/
structure Request.KeepsTo (D : Discipline DB Resource) (Knows : Local DB Resource → Prop)
    (request : Request) (start : DB) : Prop where
  ends : request.handler.lwp (settlementDiscipline.and D) (Local.fresh start)
    (fun _ l => Knows l) fun _ _ => True
  honours : ∀ (l : Local DB Resource) (s : DB) (seen : List (Resource × DB)), Knows l →
    l.Sees D s → request.Commits (Read seen) s (l.pend s) →
    D.inv (l.pend s) ∧ D.evolves s (l.pend s) ∧ ∀ k, k ∉ l.held → D.keeps k s (l.pend s)

/-- A commit of one of the requests, from one committed state to the next. -/
structure CommitOf (D : Discipline DB Resource) (requests : List Request) (i : ℕ)
    (seen : List (Resource × DB)) (s t : DB) : Prop where
  commits : ∃ request, requests[i]? = some request ∧ request.Commits (Read seen) s t
  ran : ∃ request pend, requests[i]? = some request ∧
    request.handler.Leaves seen (.ret ()) pend ∧ t = pend s
  read : ∀ x ∈ seen, x.2.toBooks.SettlementTables ∧ settlementDiscipline.evolves x.2 s
  before : s.toBooks.SettlementTables
  after : t.toBooks.SettlementTables
  evolves : settlementDiscipline.evolves s t
  found : D.inv s
  left : D.inv t

/-- Along every schedule of requests of all kinds that keep to a further discipline, the committed
states come from each other by commits of these requests. -/
theorem run_requests_under (D : Discipline DB Resource)
    (Knows : Request → Local DB Resource → Prop) (requests : List Request) {start : DB}
    (hstart : start.toBooks.SettlementTables) (hD : D.inv start)
    (hkeeps : ∀ request ∈ requests, request.KeepsTo D (Knows request) start)
    (schedule : List Event) :
    Recorded (fun i (_ : Unit) seen s t => CommitOf D requests i seen s t) start
      ((Config.start start (requests.map Request.handler)).commitOrder schedule)
      ((Config.start start (requests.map Request.handler)).run schedule).past
      ((Config.start start (requests.map Request.handler)).run schedule).store ∧
    ((Config.start start (requests.map Request.handler)).commitOrder schedule).Nodup := by
  have hget : ∀ (i : ℕ) (p : Tx Unit), (requests.map Request.handler)[i]? = some p →
      ∃ r, requests[i]? = some r ∧ p = r.handler := by
    intro i p hp
    rw [List.getElem?_map, Option.map_eq_some_iff] at hp
    obtain ⟨r, hr, rfl⟩ := hp
    exact ⟨r, hr, rfl⟩
  let Q : ℕ → Unit → Local DB Resource → Prop :=
    fun i _ l => ∀ r, requests[i]? = some r → r.action.EndsIf l ∧ Knows r l
  have hstarted : (settlementDiscipline.and D).inv start := ⟨hstart, hD⟩
  have hprograms : ∀ (i : ℕ) (p : Tx Unit), (requests.map Request.handler)[i]? = some p →
      p.lwp (settlementDiscipline.and D) (Local.fresh start) (Q i) fun _ _ => True := by
    intro i p hp
    obtain ⟨r, hr, rfl⟩ := hget i p hp
    have hweaker : ∀ (l : Local DB Resource) (s : DB),
        l.Sees (settlementDiscipline.and D) s → l.Sees settlementDiscipline s :=
      fun _ _ hs => hs.left
    have hends := Txn.lwp_weaken hweaker (handler_endsIf r hstart)
    refine Txn.lwp_consequence
      (Txn.lwp_conj hends (hkeeps r (List.mem_of_getElem? hr)).ends) (fun _ l h r' hr' => ?_)
      fun _ _ _ => trivial
    rw [← Option.some.inj (hr.symm.trans hr')]
    exact h
  have hhonours : Config.Honours (settlementDiscipline.and D) (requests.map Request.handler) Q
      (fun _ _ _ => True) fun _ _ _ _ => True := by
    intro i p a l seen s hp hleaves hread hknows hs _
    obtain ⟨r, hr, rfl⟩ := hget i p hp
    obtain ⟨hends, hknown⟩ := hknows r hr
    have hread' : ∀ x ∈ seen, settlementDiscipline.inv x.2 ∧ settlementDiscipline.evolves x.2 s :=
      fun x hx => ⟨(hread x hx).1.1, (hread x hx).2.1⟩
    obtain ⟨htables, hevolves, hlocks⟩ := commit_honours hs.left hread' hends hleaves
    have hcommits := commits_of_leaves hs.left (fun x hx => (hread' x hx).1) hends hleaves
    obtain ⟨hinv, hdevolves, hdlocks⟩ :=
      (hkeeps r (List.mem_of_getElem? hr)).honours l s seen hknown hs.right hcommits
    exact ⟨⟨htables, hinv⟩, ⟨hevolves, hdevolves⟩,
      fun k hk => ⟨hlocks k hk, hdlocks k hk⟩, trivial⟩
  obtain ⟨hrecorded, honce⟩ := Config.run_recorded hstarted hprograms hhonours schedule
  refine ⟨hrecorded.mono fun i a seen s t h => ?_, honce⟩
  obtain ⟨p, l, hp, hleaving⟩ := h
  obtain ⟨r, hr, rfl⟩ := hget i p hp
  have hcommits := commits_of_leaves hleaving.sees.left (fun x hx => (hleaving.read x hx).1.1)
    (hleaving.knows r hr).1 hleaving.leaves
  rw [← hleaving.writes] at hcommits
  exact
    { commits := ⟨r, hr, hcommits⟩
      ran := ⟨r, l.pend, hr, hleaving.leaves, hleaving.writes⟩
      read := fun x hx => ⟨(hleaving.read x hx).1.1, (hleaving.read x hx).2.1⟩
      before := hleaving.sees.inv.1
      after := hleaving.inv.1
      evolves := hleaving.evolves.1
      found := hleaving.sees.inv.2
      left := hleaving.inv.2 }

/-- Along every schedule of requests of all kinds, the committed states come from each other by
commits of these requests. -/
theorem run_requests (requests : List Request) {start : DB}
    (hstart : start.toBooks.SettlementTables) (schedule : List Event) :
    Recorded (fun i (_ : Unit) seen s t => CommitOf .free requests i seen s t) start
      ((Config.start start (requests.map Request.handler)).commitOrder schedule)
      ((Config.start start (requests.map Request.handler)).run schedule).past
      ((Config.start start (requests.map Request.handler)).run schedule).store ∧
    ((Config.start start (requests.map Request.handler)).commitOrder schedule).Nodup := by
  refine run_requests_under .free (fun _ _ => True) requests hstart trivial
    (fun request _ => ⟨?_, fun _ _ _ _ _ _ => ⟨trivial, trivial, fun _ _ => trivial⟩⟩) schedule
  exact Txn.lwp_of_wp (φ := fun _ _ => True) (fun _ _ _ _ => trivial)
    (Txn.wp_trivial request.handler)

/-- Requests of all kinds, however they interleave, refine the machine of the money tables: what is
committed comes about by commits one after the other, at most one of each request; each of them is
a list of moves of its request, every move with its guard on states that were committed before,
applied at once to the tables as they are by then. -/
theorem requests_refine_moves (requests : List Request) (start : DB)
    (hstart : start.toBooks.SettlementTables) (schedule : List Event) :
    Recorded (fun i (_ : Unit) seen s t =>
        ∃ request, requests[i]? = some request ∧ request.Commits (Read seen) s t) start
      ((Config.start start (requests.map Request.handler)).commitOrder schedule)
      ((Config.start start (requests.map Request.handler)).run schedule).past
      ((Config.start start (requests.map Request.handler)).run schedule).store ∧
    ((Config.start start (requests.map Request.handler)).commitOrder schedule).Nodup := by
  obtain ⟨hrecorded, honce⟩ := run_requests requests hstart schedule
  exact ⟨hrecorded.mono fun _ _ _ _ _ h => h.commits, honce⟩

theorem requests_refine_moves_inTurns :
    Recorded (fun i (_ : Unit) seen s t =>
        ∃ request, overlappingRuns[i]? = some request ∧ request.Commits (Read seen) s t)
      numberedInstallation
      ((Config.start numberedInstallation
        (overlappingRuns.map Request.handler)).commitOrder runsInTurns)
      ((Config.start numberedInstallation (overlappingRuns.map Request.handler)).run
        runsInTurns).past
      ((Config.start numberedInstallation
        (overlappingRuns.map Request.handler)).run runsInTurns).store ∧
    ((Config.start numberedInstallation
      (overlappingRuns.map Request.handler)).commitOrder runsInTurns).Nodup :=
  requests_refine_moves overlappingRuns numberedInstallation
    numberedInstallation_settlementTables runsInTurns

end Kusanya
