import Kusanya.Invariants.Histories
import Kusanya.ReadCommitted.Interleaving

/-!
# Interleaved requests on existing payments

Queries, callbacks, refunds and reversals, each in a transaction of its own.  What a
transaction saves is decided by the payment object that it loaded.  When the row has
not moved since, its moves are lawful for whatever is committed by then, and `Booked`
is kept.
-/

namespace Kusanya

open ReadCommitted

/-- The operations on a payment that exists. -/
def Action.isFollowUp : Action → Bool
  | paymentQuery .. | paymentRefund .. | paymentReverse .. | providerCallback .. => true
  | _ => false

section Moves

variable {view : View} {env : Env} {b : Books} {ms : List Move} {m : Move}

theorem Action.Moves.opensNone {action : Action} (h : action.Moves view env ms)
    (hfollow : action.isFollowUp = true) : ∀ m ∈ ms, m.opened = [] := by
  have hnil : ms = [] → ∀ m ∈ ms, m.opened = [] := by
    rintro rfl m hm
    cases hm
  cases action with
  | paymentQuery =>
      obtain ⟨_, _, _, _, -, -, -, -, -, hqueried⟩ := h
      exact hqueried.opened
  | paymentRefund | paymentReverse =>
      rcases h with h | ⟨_, _, -, -, -, hundone⟩
      · exact hnil h
      · exact hundone.opened
  | providerCallback =>
      rcases h with h | ⟨_, _, -, -, hback⟩
      · exact hnil h
      · exact hback.opened
  | _ => cases hfollow

theorem Action.isFollowUp_savesTenant {action : Action} (h : action.isFollowUp = true) :
    action.savesTenant = false := by
  cases action <;> first | rfl | cases h

/-! ## Rows -/

theorem run_payments_of_opensNone (h : m.opened = []) :
    (m.run b).payments = b.payments.map m.onPayment := by
  rw [Move.run_payments, h, List.append_nil]

/-- Moves that open no payment keep what never changes about the payments. -/
theorem runAll_fixed (hopen : ∀ m ∈ ms, m.opened = []) :
    (Move.runAll ms b).payments.map Payment.fixed = b.payments.map Payment.fixed := by
  induction ms generalizing b with
  | nil => rfl
  | cons m ms ih =>
      rw [Move.runAll_cons, ih fun m' hm' => hopen m' (List.mem_cons_of_mem _ hm'),
        run_payments_of_opensNone (hopen m List.mem_cons_self)]
      exact Support.map_key m.onPayment_fixed

/-- A row after the moves is a row before, with its status unless the moves saved one. -/
theorem runAll_row (hopen : ∀ m ∈ ms, m.opened = []) {q : Payment}
    (hq : q ∈ (Move.runAll ms b).payments) :
    ∃ p ∈ b.payments, q.id = p.id ∧ (q.id ∉ enteredIds ms → q.status = p.status) := by
  induction ms generalizing b with
  | nil => exact ⟨q, hq, rfl, fun _ => rfl⟩
  | cons m ms ih =>
      obtain ⟨row, hrow, hid, hsame⟩ := ih (fun m' hm' => hopen m' (List.mem_cons_of_mem _ hm')) hq
      rw [run_payments_of_opensNone (hopen m List.mem_cons_self)] at hrow
      obtain ⟨p, hp, rfl⟩ := List.mem_map.mp hrow
      have hpid : q.id = p.id := hid.trans (m.onPayment_id p)
      refine ⟨p, hp, hpid, fun hnot => ?_⟩
      rw [enteredIds_cons, List.mem_append, not_or] at hnot
      rw [hsame hnot.2, m.onPayment_status p]
      cases hentered : m.entered with
      | none => rfl
      | some new =>
          have hnew : q.id ≠ new.id := by
            simpa [Move.enteredId, hentered] using hnot.1
          exact if_neg fun h => hnew (hpid.trans h)

/-- A status that the moves save is there whatever the row held. -/
theorem runAll_saved (hopen : ∀ m ∈ ms, m.opened = []) (hnodup : (enteredIds ms).Nodup) {id : ℕ}
    (hid : id ∈ enteredIds ms) :
    ∃ status, ∀ b : Books, ∀ q ∈ (Move.runAll ms b).payments, q.id = id → q.status = status := by
  induction ms with
  | nil => cases hid
  | cons m ms ih =>
      have hopen' : ∀ m ∈ ms, m.opened = [] := fun m' hm' => hopen m' (List.mem_cons_of_mem _ hm')
      rw [enteredIds_cons] at hnodup hid
      rcases List.mem_append.mp hid with hid | hid
      · obtain ⟨new, hentered, rfl⟩ := Option.map_eq_some_iff.mp (Option.mem_toList.mp hid)
        refine ⟨new.status, fun b q hq hqid => ?_⟩
        have hlater : q.id ∉ enteredIds ms := by
          rw [hqid]
          exact fun hin => List.disjoint_of_nodup_append hnodup hid hin
        obtain ⟨row, hrow, hrowid, hsame⟩ := runAll_row hopen' hq
        rw [run_payments_of_opensNone (hopen m List.mem_cons_self)] at hrow
        obtain ⟨p, -, rfl⟩ := List.mem_map.mp hrow
        have hpid : p.id = new.id := (m.onPayment_id p).symm.trans (hrowid.symm.trans hqid)
        rw [hsame hlater, m.onPayment_status p, hentered]
        exact if_pos hpid
      · obtain ⟨status, hstatus⟩ := ih hopen' hnodup.of_append_right hid
        exact ⟨status, fun b => hstatus (m.run b)⟩

/-! ## Objects and rows -/

/-- The payment objects that loads found are rows, and those in `ids` are as they were found. -/
def Agrees (view : View) (b : Books) (ids : List ℕ) : Prop :=
  ∀ old, view.Holds old →
    ∃ row ∈ b.payments, row.fixed = old.fixed ∧ (old.id ∈ ids → row.status = old.status)

theorem Agrees.run (h : Agrees view b (enteredIds (m :: ms))) (hopen : m.opened = []) :
    Agrees (view.map m.run) (m.run b) (enteredIds ms) := by
  rintro moved ⟨what, hgives, hsees⟩
  rw [View.seesAt_map] at hsees
  obtain ⟨d, b₀, hview, hmoved⟩ := hsees
  rw [run_payments_of_opensNone hopen] at hmoved
  obtain ⟨old, hold, rfl⟩ := List.mem_map.mp hmoved
  obtain ⟨row, hrow, hfixed, hsame⟩ := h old ⟨what, hgives, d, b₀, hview, hold⟩
  refine ⟨m.onPayment row, ?_, ?_, fun hin => ?_⟩
  · rw [run_payments_of_opensNone hopen]
    exact List.mem_map_of_mem hrow
  · rw [m.onPayment_fixed, m.onPayment_fixed, hfixed]
  · rw [m.onPayment_id] at hin
    rw [enteredIds_cons] at hsame
    have hrowid : row.id = old.id := congrArg Payment.Fixed.id hfixed
    rw [m.onPayment_status, m.onPayment_status]
    cases hentered : m.entered with
    | none => exact hsame (List.mem_append_right _ hin)
    | some new =>
        dsimp only
        rw [hrowid]
        split
        · rfl
        · exact hsame (List.mem_append_right _ hin)

/-- Where objects and rows agree, the moves are lawful. -/
theorem View.Chain.lawfulAll_of_agrees (h : view.Chain ms) (hagrees : Agrees view b (enteredIds ms))
    (hopen : ∀ m ∈ ms, m.opened = []) : Move.LawfulAll b ms := by
  induction ms generalizing view b with
  | nil => trivial
  | cons m ms ih =>
      obtain ⟨hguard, hrest⟩ := h
      have hnone := hopen m List.mem_cons_self
      refine ⟨hguard.lawful_of (fun old p hentered henters => ?_) fun p hp => ?_,
        ih hrest (hagrees.run hnone) fun m' hm' => hopen m' (List.mem_cons_of_mem _ hm')⟩
      · obtain ⟨hholds, hallowed, ⟨now, reason, hmoved⟩, -⟩ := henters
        obtain ⟨row, hrow, hfixed, hsame⟩ := hagrees old hholds
        have hpfixed : p.fixed = old.fixed := by
          rw [hmoved]
          rfl
        refine ⟨row, hrow, hpfixed.trans hfixed.symm, Or.inl ?_⟩
        have hid : old.id ∈ enteredIds (m :: ms) := by
          rw [enteredIds_cons, Move.enteredId, hentered]
          exact List.mem_cons.mpr (Or.inl (congrArg Payment.Fixed.id hpfixed).symm)
        rw [hsame hid]
        exact hallowed
      · rw [hnone] at hp
        cases hp

end Moves

/-! ## Commits -/

/-- The transaction saves the status of the payment, whatever the row holds by then. -/
def SavesStatus (pend : DB → DB) (id : ℕ) : Prop :=
  ∃ status, ∀ db, ∀ row ∈ (pend db).payments, row.id = id → row.status = status

/-- The payments whose status the transaction saves have not moved since it loaded them. -/
def LoadsCurrent (s : DB) (pend : DB → DB) (seen : List (Resource × DB)) : Prop :=
  ∀ p ∈ s.payments, SavesStatus pend p.id → ∀ x ∈ seen, x.1.givesPayments = true →
    ∀ old ∈ x.2.payments, old.id = p.id → old.status = p.status

/-- The committed states of interleaved requests: the same payments, and what is booked in step. -/
structure Consistent (payments : List Payment.Fixed) (s : DB) : Prop where
  booked : Booked s.toBooks
  same : s.payments.map Payment.fixed = payments

/-- From one committed state to the next every payment stays or makes one step. -/
def Steps (s t : DB) : Prop :=
  ∀ p ∈ s.payments, ∃ q ∈ t.payments, q.fixed = p.fixed ∧ p.status.Step q.status

/-- A commit that loaded current payments keeps the tables in step. -/
theorem followUp_commit {r : Request} (hfollow : r.action.isFollowUp = true)
    {payments : List Payment.Fixed} {s : DB} {pend : DB → DB} {seen : List (Resource × DB)}
    (hs : Consistent payments s) (hseen : ∀ x ∈ seen, Consistent payments x.2)
    (hleaves : r.handler.Leaves seen (.ret ()) pend) (hcurrent : LoadsCurrent s pend seen) :
    Consistent payments (pend s) ∧ Steps s (pend s) := by
  obtain ⟨ms, hmoves, heffect⟩ : r.Did (fun k v => (k, v) ∈ seen) pend :=
    hleaves _ _ _ _ (fun x hx => hx)
      (wp_handler r (Action.isFollowUp_savesTenant hfollow) fun k v hv => (hseen _ hv).booked.keyed)
  have hopen := hmoves.opensNone hfollow
  have hnodup := hmoves.nodup
  have hbooks : ∀ db, (pend db).toBooks = Move.runAll ms db.toBooks := fun db =>
    congrArg Prod.snd (heffect.writes db)
  have hagrees : Agrees (viewOf (fun k v => (k, v) ∈ seen) id) s.toBooks (enteredIds ms) := by
    rintro old ⟨what, hgives, _, _, ⟨v, hv, rfl, rfl⟩, hold⟩
    have hfixed : old.fixed ∈ s.payments.map Payment.fixed := by
      rw [hs.same, ← (hseen _ hv).same]
      exact List.mem_map_of_mem hold
    obtain ⟨row, hrow, hrowfixed⟩ := List.mem_map.mp hfixed
    have hrowid : row.id = old.id := congrArg Payment.Fixed.id hrowfixed
    refine ⟨row, hrow, hrowfixed, fun hin => ?_⟩
    obtain ⟨status, hstatus⟩ := runAll_saved hopen hnodup hin
    refine (hcurrent row hrow
      ⟨status, fun db q hq hqid => ?_⟩ _ hv hgives old hold hrowid.symm).symm
    rw [hbooks db] at hq
    exact hstatus db.toBooks q hq (hqid.trans hrowid)
  have hlawful := heffect.chain.lawfulAll_of_agrees hagrees hopen
  refine ⟨⟨?_, ?_⟩, fun p hp => ?_⟩
  · rw [hbooks s]
    exact hs.booked.runAll hlawful
  · rw [hbooks s, runAll_fixed hopen]
    exact hs.same
  · obtain ⟨q, hq, hfixed, hstep, -⟩ := chain_kept hs.booked hlawful hnodup hp
    rw [hbooks s]
    exact ⟨q, hq, hfixed, hstep⟩

end Kusanya
