import Kusanya.Invariants.Balances

/-!
# Status histories

One request enters at most one status of a payment, so from one committed state to
the next every payment stays or makes one step of `ALLOWED_TRANSITIONS`.  A payment
is settled exactly when some committed state had it `SUCCESSFUL`.
-/

namespace Kusanya

open ReadCommitted

/-- A payment stays in its status or makes one step of the table. -/
def PaymentStatus.Step (old new : PaymentStatus) : Prop :=
  new = old ∨ new ∈ old.allowedTransitions

instance (old new : PaymentStatus) : Decidable (old.Step new) := by
  unfold PaymentStatus.Step
  infer_instance

namespace PaymentStatus

theorem settled_of_step {old new : PaymentStatus} (h : old.Step new)
    (hold : old.settled = true) : new.settled = true := by
  rcases h with rfl | h
  · exact hold
  · cases old <;> cases new <;> simp_all [allowedTransitions, settled]

theorem settled_step {old new : PaymentStatus} (h : old.Step new)
    (hnew : new.settled = true) : old.settled = true ∨ new = successful := by
  rcases h with rfl | h
  · exact Or.inl hnew
  · cases old <;> cases new <;> simp_all [allowedTransitions, settled]

theorem settled_first {new : PaymentStatus} (h : initiated.Step new)
    (hnew : new.settled = true) : new = successful := by
  rcases settled_step h hnew with h | h
  · cases h
  · exact h

end PaymentStatus

/-! ## Which payments a request enters -/

/-- The payment whose status a move saves. -/
def Move.enteredId (m : Move) : Option ℕ := m.entered.map (·.id)

/-- The payments whose status a list of moves saves. -/
def enteredIds (ms : List Move) : List ℕ := ms.filterMap Move.enteredId

section Entered

variable {env : Env} {payment after : Payment} {ms : List Move}

theorem Applied.enteredIds {outcome : ProviderOutcome} (h : Applied env payment outcome ms after) :
    enteredIds ms = [] ∨ enteredIds ms = [payment.id] := by
  cases h with
  | inconclusive | repeated => exact Or.inl rfl
  | unknown | pending | failed => exact Or.inr rfl
  | successful _ s _ hpayment =>
      have hid : s.payment.id = payment.id := by rw [hpayment]; rfl
      exact Or.inr (congrArg (fun id => [id]) hid)

theorem Queried.enteredIds {result : ProviderResult} (h : Queried env payment result ms after) :
    enteredIds ms = [] ∨ enteredIds ms = [payment.id] := by
  obtain ⟨hlearned, happlied⟩ := h
  rw [← hlearned.id_eq]
  cases hlearned with
  | known => exact happlied.enteredIds
  | learned => exact happlied.enteredIds

theorem Undone.enteredIds {status : PaymentStatus} (h : Undone env payment status ms after) :
    enteredIds ms = [] ∨ enteredIds ms = [payment.id] := by
  cases h with
  | kept => exact Or.inl rfl
  | undone => exact Or.inr rfl

theorem Initiated.enteredIds_length {input : InitiateInput} {adapter : Adapter}
    (h : Initiated env input adapter ms after) : (enteredIds ms).length ≤ 1 := by
  cases h with
  | timedOut | refused => exact le_rfl
  | @answered _ _ _ _ ms _ _ happlied =>
      change (Kusanya.enteredIds ms).length ≤ 1
      rcases happlied.enteredIds with h | h <;> rw [h] <;> simp

theorem CalledBack.enteredIds_length {view : View} {provider : PaymentProvider}
    {answer : Except AdapterError ProviderCallbackResult}
    (h : CalledBack view env provider answer ms) : (enteredIds ms).length ≤ 1 := by
  cases h with
  | @matched _ _ _ _ ms _ happlied =>
      change (Kusanya.enteredIds ms).length ≤ 1
      rcases happlied.enteredIds with h | h <;> rw [h] <;> simp
  | _ => exact Nat.zero_le _

theorem Reconciled.enteredIds {view : View} {payments : List Payment}
    (h : Reconciled view env payments ms) :
    List.Sublist (enteredIds ms) (payments.map (·.id)) := by
  induction h with
  | nil => exact List.nil_sublist _
  | @cons payment _ payments _ _ ms ms' _ _ queried _ ih =>
      rw [Kusanya.enteredIds, List.filterMap_append, List.map_cons]
      rcases queried.enteredIds with h | h
      · rw [Kusanya.enteredIds] at h
        rw [h]
        exact ih.cons _
      · rw [Kusanya.enteredIds] at h
        rw [h]
        exact ih.cons_cons _

theorem clerical_enteredIds (h : ∀ m ∈ ms, m.isClerical = true) : enteredIds ms = [] := by
  refine List.filterMap_eq_nil_iff.mpr fun m hm => ?_
  have hclerical := h m hm
  cases m <;> first | rfl | cases hclerical

theorem nodup_of_length_le_one {α : Type} {l : List α} (h : l.length ≤ 1) : l.Nodup := by
  match l, h with
  | [], _ => exact List.nodup_nil
  | [a], _ => exact List.nodup_singleton a

/-- A request saves the status of each payment at most once. -/
theorem Action.Moves.nodup {view : View} {action : Action} (h : action.Moves view env ms) :
    (enteredIds ms).Nodup := by
  have hone : ∀ {id}, enteredIds ms = [] ∨ enteredIds ms = [id] → (enteredIds ms).Nodup := by
    rintro id (h | h) <;> rw [h] <;> simp
  have hempty : ms = [] → (enteredIds ms).Nodup := by
    rintro rfl
    exact List.nodup_nil
  cases action with
  | paymentQuery =>
      obtain ⟨_, _, _, _, _, _, _, _, _, hqueried⟩ := h
      exact hone hqueried.enteredIds
  | paymentRefund | paymentReverse =>
      rcases h with rfl | ⟨_, _, _, _, _, hundone⟩
      · exact hempty rfl
      · exact hone hundone.enteredIds
  | providerCallback =>
      rcases h with rfl | ⟨_, _, _, _, hback⟩
      · exact hempty rfl
      · exact nodup_of_length_le_one hback.enteredIds_length
  | payBill | paymentListCreate =>
      rcases h with rfl | ⟨_, _, _, _, _, _, _, _, _, hinit⟩
      · exact hempty rfl
      · exact nodup_of_length_le_one hinit.enteredIds_length
  | triggerRun =>
      obtain ⟨_, _, hnodup, hreconciled⟩ := h
      exact hnodup.sublist hreconciled.enteredIds
  | _ =>
      rw [clerical_enteredIds h]
      exact List.nodup_nil

end Entered

/-! ## Which payments a request opens -/

section Opened

variable {env : Env} {payment after : Payment} {ms : List Move} {m : Move}

theorem opened_of_clerical (h : m.isClerical = true) : m.opened = [] := by
  cases m <;> first | rfl | cases h

theorem Applied.opened {outcome : ProviderOutcome} (h : Applied env payment outcome ms after) :
    ∀ m ∈ ms, m.opened = [] := by
  cases h <;> simp [Move.opened]

theorem Queried.opened {result : ProviderResult} (h : Queried env payment result ms after) :
    ∀ m ∈ ms, m.opened = [] := by
  obtain ⟨hlearned, happlied⟩ := h
  intro m hm
  rcases List.mem_append.mp hm with hm | hm
  · cases hlearned with
    | known => cases hm
    | learned =>
        obtain rfl := List.mem_singleton.mp hm
        rfl
  · exact happlied.opened m hm

theorem Undone.opened {status : PaymentStatus} (h : Undone env payment status ms after) :
    ∀ m ∈ ms, m.opened = [] := by
  cases h <;> simp [Move.opened]

theorem CalledBack.opened {view : View} {provider : PaymentProvider}
    {answer : Except AdapterError ProviderCallbackResult}
    (h : CalledBack view env provider answer ms) : ∀ m ∈ ms, m.opened = [] := by
  cases h with
  | matched _ happlied =>
      have hrest := happlied.opened
      simpa [Move.opened] using hrest
  | _ => simp [Move.opened]

theorem Reconciled.opened {view : View} {payments : List Payment}
    (h : Reconciled view env payments ms) : ∀ m ∈ ms, m.opened = [] := by
  induction h with
  | nil => exact fun m hm => absurd hm List.not_mem_nil
  | cons _ _ queried _ ih =>
      intro m hm
      rcases List.mem_append.mp hm with hm | hm
      · exact queried.opened m hm
      · exact ih m hm

end Opened

/-! ## One request -/

/-- From one committed state to the next. -/
structure Evolves (b b' : Books) : Prop where
  kept : ∀ p ∈ b.payments, ∃ q ∈ b'.payments, q.fixed = p.fixed ∧ p.status.Step q.status
  opened : ∀ q ∈ b'.payments,
    (∃ p ∈ b.payments, p.id = q.id) ∨ PaymentStatus.initiated.Step q.status

theorem evolves_refl (b : Books) : Evolves b b where
  kept p hp := ⟨p, hp, rfl, Or.inl rfl⟩
  opened q hq := Or.inl ⟨q, hq, rfl⟩

section Chains

variable {d : Directory} {b : Books} {ms : List Move}

theorem PaymentStatus.Admits.step {old new : PaymentStatus} (h : old.Admits new) :
    old.Step new := by
  rcases h with h | ⟨h, -⟩
  · exact Or.inr h
  · exact Or.inl h

theorem enteredIds_cons (m : Move) (ms : List Move) :
    enteredIds (m :: ms) = m.enteredId.toList ++ enteredIds ms := by
  rw [enteredIds, List.filterMap_cons]
  cases m.enteredId <;> rfl

/-- A payment whose status the moves save at most once makes at most one step. -/
theorem chain_kept (hb : Booked b) (hlawful : Move.LawfulAll b ms)
    (hnodup : (enteredIds ms).Nodup) {p : Payment} (hp : p ∈ b.payments) :
    ∃ q ∈ (Move.runAll ms b).payments, q.fixed = p.fixed ∧ p.status.Step q.status ∧
      (p.id ∉ enteredIds ms → q.status = p.status) := by
  induction ms generalizing b p with
  | nil => exact ⟨p, hp, rfl, Or.inl rfl, fun _ => rfl⟩
  | cons m ms ih =>
      obtain ⟨hm, hrest⟩ := hlawful
      have hrow : m.onPayment p ∈ (m.run b).payments := by
        rw [Move.run_payments]
        exact List.mem_append_left _ (List.mem_map_of_mem hp)
      rw [enteredIds_cons] at hnodup ⊢
      obtain ⟨q, hq, hfixed, hstep, hsame⟩ := ih (hb.run hm) hrest (List.Nodup.of_append_right
        hnodup) hrow
      have hid : (m.onPayment p).id = p.id := m.onPayment_id p
      have hstatus := m.onPayment_status p
      refine ⟨q, hq, hfixed.trans (m.onPayment_fixed p), ?_⟩
      cases hentered : m.entered with
      | none =>
          rw [hentered] at hstatus
          have hnone : m.enteredId = none := by rw [Move.enteredId, hentered]; rfl
          rw [hid, hstatus] at hsame
          rw [hstatus] at hstep
          rw [hnone]
          exact ⟨hstep, hsame⟩
      | some new =>
          rw [hentered] at hstatus
          dsimp only at hstatus
          have hsome : m.enteredId.toList = [new.id] := by rw [Move.enteredId, hentered]; rfl
          rw [hsome] at hnodup ⊢
          by_cases hnew : p.id = new.id
          · rw [if_pos hnew] at hstatus
            have hfresh : p.id ∉ enteredIds ms := by
              rw [hnew]
              exact (List.nodup_cons.mp hnodup).1
            rw [hid, hstatus] at hsame
            obtain ⟨old, hold, hfixedold, hadmits⟩ := hm.entered new hentered
            obtain rfl : p = old := Support.eq_of_key hb.keyed hp hold
              (hnew.trans (congrArg Payment.Fixed.id hfixedold))
            rw [hsame hfresh]
            exact ⟨hadmits.step, fun hnot => absurd (List.mem_append_left _
              (List.mem_singleton.mpr hnew)) hnot⟩
          · rw [if_neg hnew] at hstatus
            rw [hid, hstatus] at hsame
            rw [hstatus] at hstep
            exact ⟨hstep, fun hnot => hsame fun hin => hnot (List.mem_append_right _ hin)⟩

theorem chain_opened (hb : Booked b) (hlawful : Move.LawfulAll b ms)
    (hnodup : (enteredIds ms).Nodup) {q : Payment} (hq : q ∈ (Move.runAll ms b).payments) :
    (∃ p ∈ b.payments, p.id = q.id) ∨ PaymentStatus.initiated.Step q.status := by
  induction ms generalizing b with
  | nil => exact Or.inl ⟨q, hq, rfl⟩
  | cons m ms ih =>
      obtain ⟨hm, hrest⟩ := hlawful
      rw [enteredIds_cons] at hnodup
      have hnodup' := List.Nodup.of_append_right hnodup
      have hb' := hb.run hm
      rcases ih hb' hrest hnodup' hq with ⟨row, hrow, hid⟩ | hstep
      · have hrow' := hrow
        rw [Move.run_payments] at hrow'
        rcases List.mem_append.mp hrow' with hmem | hmem
        · obtain ⟨p, hp, rfl⟩ := List.mem_map.mp hmem
          exact Or.inl ⟨p, hp, (m.onPayment_id p).symm.trans hid⟩
        · right
          obtain ⟨q', hq', hfixed, hstep, -⟩ := chain_kept hb' hrest hnodup' hrow
          obtain rfl : q' = q := Support.eq_of_key (hb'.runAll hrest).keyed hq' hq
            ((congrArg Payment.Fixed.id hfixed).trans hid)
          rw [(hm.opened row hmem).1] at hstep
          exact hstep
      · exact Or.inr hstep

/-- A row after some moves was there before or was opened by one of them. -/
theorem runAll_opened (ms : List Move) (b : Books) {q : Payment}
    (hq : q ∈ (Move.runAll ms b).payments) :
    (∃ p ∈ b.payments, q.fixed = p.fixed) ∨ ∃ m ∈ ms, ∃ p ∈ m.opened, q.fixed = p.fixed := by
  induction ms generalizing b with
  | nil => exact Or.inl ⟨q, hq, rfl⟩
  | cons m ms ih =>
      rcases ih (m.run b) hq with ⟨row, hrow, hfixed⟩ | ⟨m', hm', hopened⟩
      · rw [Move.run_payments] at hrow
        rcases List.mem_append.mp hrow with hrow | hrow
        · obtain ⟨p, hp, rfl⟩ := List.mem_map.mp hrow
          exact Or.inl ⟨p, hp, hfixed.trans (m.onPayment_fixed p)⟩
        · exact Or.inr ⟨m, List.mem_cons_self, row, hrow, hfixed⟩
      · exact Or.inr ⟨m', List.mem_cons_of_mem _ hm', hopened⟩

/-- A status that changed was saved by one of the moves. -/
theorem chain_source (ms : List Move) (b : Books) {p : Payment} (hp : p ∈ b.payments) :
    ∃ q ∈ (Move.runAll ms b).payments, q.fixed = p.fixed ∧
      (q.status = p.status ∨
        ∃ m ∈ ms, ∃ new, m.entered = some new ∧ new.id = p.id ∧ new.status = q.status) := by
  induction ms generalizing b p with
  | nil => exact ⟨p, hp, rfl, Or.inl rfl⟩
  | cons m ms ih =>
      have hrow : m.onPayment p ∈ (m.run b).payments := by
        rw [Move.run_payments]
        exact List.mem_append_left _ (List.mem_map_of_mem hp)
      obtain ⟨q, hq, hfixed, hsource⟩ := ih (m.run b) hrow
      refine ⟨q, hq, hfixed.trans (m.onPayment_fixed p), ?_⟩
      rcases hsource with hsame | ⟨m', hm', new, hentered, hid, hstatus⟩
      · have hstatus := m.onPayment_status p
        cases hentered : m.entered with
        | none =>
            rw [hentered] at hstatus
            exact Or.inl (hsame.trans hstatus)
        | some new =>
            rw [hentered] at hstatus
            dsimp only at hstatus
            by_cases hid : p.id = new.id
            · rw [if_pos hid] at hstatus
              exact Or.inr ⟨m, List.mem_cons_self, new, hentered, hid.symm,
                (hsame.trans hstatus).symm⟩
            · rw [if_neg hid] at hstatus
              exact Or.inl (hsame.trans hstatus)
      · exact Or.inr ⟨m', List.mem_cons_of_mem _ hm', new, hentered,
          hid.trans (m.onPayment_id p), hstatus⟩

end Chains

/-- One request moves each payment by at most one step. -/
theorem evolves_commit (request : Request) {s : DB} (hs : Balanced s.toBooks) :
    Evolves s.toBooks (request.handler.commit s).toBooks := by
  rcases step_cases request hs.keyed with heq | ⟨id, f, -, -, hbooks⟩
    | ⟨ms, hmoves, hchain, -, hbooks⟩
  · rw [heq]
    exact evolves_refl _
  · rw [hbooks]
    exact evolves_refl _
  · rw [hbooks]
    have hnodup := hmoves.nodup
    have hlawful := hchain.lawfulAll
    exact
      { kept := fun p hp => by
          obtain ⟨q, hq, hfixed, hstep, -⟩ := chain_kept hs.toBooked hlawful hnodup hp
          exact ⟨q, hq, hfixed, hstep⟩
        opened := fun q hq => chain_opened hs.toBooked hlawful hnodup hq }

/-! ## Runs -/

/-- Some committed state of the run had the payment `SUCCESSFUL`. -/
def EverSuccessful (start : DB) (requests : List Request) (id : ℕ) : Prop :=
  Ever Request.handler start requests fun db =>
    ∃ p ∈ db.payments, p.id = id ∧ p.status = .successful

instance (start : DB) (requests : List Request) (id : ℕ) :
    Decidable (EverSuccessful start requests id) :=
  inferInstanceAs (Decidable (Ever _ _ _ _))

section Runs

variable {start : DB}

theorem everSuccessful_settled (hstart : Initial start) (requests : List Request) {id : ℕ}
    (h : EverSuccessful start requests id) :
    ∃ p ∈ (afterAll start requests).payments, p.id = id ∧ p.status.settled = true := by
  induction requests using List.reverseRecOn with
  | nil =>
      rw [EverSuccessful, ever_nil] at h
      obtain ⟨p, hp, hid, hstatus⟩ := h
      exact ⟨p, hp, hid, by rw [hstatus]; rfl⟩
  | append_singleton rs r ih =>
      rw [EverSuccessful, ever_concat] at h
      rcases h with h | ⟨p, hp, hid, hstatus⟩
      · obtain ⟨p, hp, hid, hsettled⟩ := ih h
        obtain ⟨q, hq, hfixed, hstep⟩ :=
          (evolves_commit r (balanced_afterAll hstart rs)).kept p hp
        rw [afterAll, after_concat]
        exact ⟨q, hq, (congrArg Payment.Fixed.id hfixed).trans hid,
          PaymentStatus.settled_of_step hstep hsettled⟩
      · exact ⟨p, hp, hid, by rw [hstatus]; rfl⟩

theorem settled_everSuccessful (hstart : Initial start) (requests : List Request) {p : Payment}
    (hp : p ∈ (afterAll start requests).payments) (h : p.status.settled = true) :
    EverSuccessful start requests p.id := by
  induction requests using List.reverseRecOn generalizing p with
  | nil =>
      have hnone : start.payments = [] := congrArg Books.payments hstart.books
      rw [afterAll, after_nil, hnone] at hp
      cases hp
  | append_singleton rs r ih =>
      rw [EverSuccessful, ever_concat]
      by_cases hsuccess : p.status = .successful
      · exact Or.inr ⟨p, hp, rfl, hsuccess⟩
      · left
        rw [afterAll, after_concat] at hp
        have hs := balanced_afterAll hstart rs
        have hevolves := evolves_commit r hs
        rcases hevolves.opened p hp with ⟨row, hrow, hid⟩ | hstep
        · obtain ⟨q, hq, hfixed, hstep⟩ := hevolves.kept row hrow
          obtain rfl : q = p := Support.eq_of_key (balanced_commit r hs).keyed hq hp
            ((congrArg Payment.Fixed.id hfixed).trans hid)
          rcases PaymentStatus.settled_step hstep h with hrowsettled | hnew
          · rw [← hid]
            exact ih hrow hrowsettled
          · exact absurd hnew hsuccess
        · exact absurd (PaymentStatus.settled_first hstep h) hsuccess

/-- The settled payments are those that were `SUCCESSFUL` at some time. -/
theorem everSuccessful_iff (hstart : Initial start) (requests : List Request) {p : Payment}
    (hp : p ∈ (afterAll start requests).payments) :
    EverSuccessful start requests p.id ↔ p.status.settled = true := by
  constructor
  · intro h
    obtain ⟨q, hq, hid, hsettled⟩ := everSuccessful_settled hstart requests h
    obtain rfl : q = p := Support.eq_of_key (balanced_afterAll hstart requests).keyed hq hp hid
    exact hsettled
  · exact settled_everSuccessful hstart requests hp

end Runs

end Kusanya
