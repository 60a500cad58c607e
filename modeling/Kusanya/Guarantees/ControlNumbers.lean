import Kusanya.Invariants.Numbers
import Kusanya.Invariants.Runs

/-!
# Control numbers and their fees under concurrency

Any number of `get_or_create_for_bill`, `get_or_create_for_account`, `cancel` and
`expire_overdue` calls run at once, each in a transaction of its own, with arbitrary
generated values.  At every commit each bill has at most one control number, each account
at most one active one, values are unique, and each control number has been charged for
exactly once.
-/

namespace Kusanya

open ReadCommitted

/-- A call of `apps.control_numbers.services`. -/
inductive NumberCall where
  | getOrCreateForBill (env : Env) (tenant : ℕ) (bill : Bill) (expiresAt : Option Time)
  | getOrCreateForAccount (env : Env) (tenant : ℕ) (account : CustomerAccount)
      (expiresAt : Option Time)
  | cancel (env : Env) (cn : ControlNumber)
  | expireOverdue (env : Env) (tenant : Option ℕ)

def NumberCall.program : NumberCall → Tx (Option (ControlNumber × Bool))
  | getOrCreateForBill env tenant bill expiresAt => do
      let result ← Kusanya.getOrCreateForBill env tenant bill expiresAt
      pure (some result)
  | getOrCreateForAccount env tenant account expiresAt => do
      let result ← Kusanya.getOrCreateForAccount env tenant account expiresAt
      pure (some result)
  | cancel env cn => do
      cancelControlNumber env cn
      pure none
  | expireOverdue env tenant => do
      Kusanya.expireOverdue env tenant
      pure none

/-- Whose control number the call asks for. -/
def NumberCall.owner? : NumberCall → Option Owner
  | getOrCreateForBill _ _ bill _ => some (.bill bill.id)
  | getOrCreateForAccount _ _ account _ => some (.customerAccount account.id)
  | cancel _ _ => none
  | expireOverdue _ _ => none

/-- What the constraints promise, read off a committed state. -/
structure NumbersExact (b : Books) : Prop where
  bills : ∀ bill : ℕ, (b.controlNumbers.filter (·.owner = .bill bill)).length ≤ 1
  accounts : ∀ account : ℕ, (b.controlNumbers.filter fun cn =>
    cn.owner = .customerAccount account && cn.status = .active).length ≤ 1
  values : (b.controlNumbers.map (·.value)).Nodup
  charged : ∀ cn ∈ b.controlNumbers, b.ChargedOnce cn.id
  entries : ∀ e ∈ b.ledger, e.entryType = .platformControlNumberFee →
    ∃ cn ∈ b.controlNumbers, e.source = some (.controlNumber cn.id)
  events : ∀ e ∈ b.revenue, e.eventType = .controlNumberCreated →
    ∃ cn ∈ b.controlNumbers, e.source = .controlNumber cn.id

/-! ## The tables after a commit -/

section Tables

variable {s t : DB} {env : Env} {cn : ControlNumber} {currency : String}

theorem numberKeyTaken_id {row : ControlNumber} (hmem : row ∈ s.controlNumbers) {id : ℕ}
    (hid : row.id = id) : NumberKeyTaken (.controlNumber id) s := by
  subst hid
  exact ⟨row, hmem, List.mem_cons_self⟩

/-- A control number of another id keeps its fee. -/
theorem ChargedOnce.congr {b b' : Books} {id : ℕ} (h : b.ChargedOnce id)
    (hfees : b'.creationFees id = b.creationFees id)
    (hevents : b'.creationEvents id = b.creationEvents id) : b'.ChargedOnce id := by
  unfold Books.ChargedOnce
  rw [hfees, hevents]
  exact h

theorem Books.NumberTables.issue (hs : s.toBooks.NumberTables)
    (hfree : ∀ k ∈ cn.uniqueKeys, ¬NumberKeyTaken k s)
    (ht : t.toBooks = (Move.issue env cn currency).run s.toBooks) : t.toBooks.NumberTables := by
  have hid : ∀ row ∈ s.controlNumbers, row.id ≠ cn.id := fun row hrow hsame =>
    hfree _ List.mem_cons_self (numberKeyTaken_id hrow hsame)
  have hnumbers : t.controlNumbers = s.controlNumbers ++ [cn] := by rw [ht]; rfl
  have hledger : t.ledger = s.ledger ++ [cn.fee env currency] := by rw [ht]; rfl
  have hrevenue : t.revenue = s.revenue ++ [cn.createdEvent env currency] := by rw [ht]; rfl
  refine ⟨?_, fun row hrow => ?_, fun e he htype => ?_, fun e he htype => ?_⟩
  · rw [hnumbers]
    refine List.pairwise_append.mpr ⟨hs.unique, List.pairwise_singleton _ _, ?_⟩
    intro x hx y hy k hk hk'
    obtain rfl := List.mem_singleton.mp hy
    exact hfree k hk' ⟨x, hx, hk⟩
  · have hfees : t.toBooks.creationFees row.id = s.toBooks.creationFees row.id ++
        [cn.fee env currency].filter fun e =>
          e.entryType = .platformControlNumberFee && e.source = some (.controlNumber row.id) := by
      rw [Books.creationFees, hledger, List.filter_append]
      rfl
    have hevents : t.toBooks.creationEvents row.id = s.toBooks.creationEvents row.id ++
        [cn.createdEvent env currency].filter fun e =>
          e.eventType = .controlNumberCreated && e.source = .controlNumber row.id := by
      rw [Books.creationEvents, hrevenue, List.filter_append]
      rfl
    rw [hnumbers] at hrow
    rcases List.mem_append.mp hrow with hold | hnew
    · have hne := hid row hold
      refine ChargedOnce.congr (hs.charged row hold) ?_ ?_
      · rw [hfees]
        simp [ControlNumber.fee, Ne.symm hne]
      · rw [hevents]
        simp [ControlNumber.createdEvent, ControlNumber.event, Ne.symm hne]
    · obtain rfl := List.mem_singleton.mp hnew
      have hnoFee : s.toBooks.creationFees row.id = [] := by
        rw [Books.creationFees, List.filter_eq_nil_iff]
        intro e he hsame
        simp only [Bool.and_eq_true, decide_eq_true_eq] at hsame
        obtain ⟨old, hold, hsource⟩ := hs.entries e he hsame.1
        rw [hsame.2] at hsource
        exact hid old hold (Source.controlNumber.inj (Option.some.inj hsource)).symm
      have hnoEvent : s.toBooks.creationEvents row.id = [] := by
        rw [Books.creationEvents, List.filter_eq_nil_iff]
        intro e he hsame
        simp only [Bool.and_eq_true, decide_eq_true_eq] at hsame
        obtain ⟨old, hold, hsource⟩ := hs.events e he hsame.1
        rw [hsame.2] at hsource
        exact hid old hold (Source.controlNumber.inj hsource).symm
      refine ⟨row.fee env currency, row.createdEvent env currency, ?_, ?_, rfl, rfl, rfl⟩
      · rw [hfees, hnoFee]
        simp [ControlNumber.fee]
      · rw [hevents, hnoEvent]
        simp [ControlNumber.createdEvent, ControlNumber.event]
  · rw [hledger] at he
    rw [hnumbers]
    rcases List.mem_append.mp he with hold | hnew
    · obtain ⟨row, hrow, hsource⟩ := hs.entries e hold htype
      exact ⟨row, List.mem_append_left _ hrow, hsource⟩
    · obtain rfl := List.mem_singleton.mp hnew
      exact ⟨cn, List.mem_append_right _ (List.mem_singleton.mpr rfl), rfl⟩
  · rw [hrevenue] at he
    rw [hnumbers]
    rcases List.mem_append.mp he with hold | hnew
    · obtain ⟨row, hrow, hsource⟩ := hs.events e hold htype
      exact ⟨row, List.mem_append_left _ hrow, hsource⟩
    · obtain rfl := List.mem_singleton.mp hnew
      exact ⟨cn, List.mem_append_right _ (List.mem_singleton.mpr rfl), rfl⟩

/-- Noting a reuse charges nobody. -/
theorem Books.NumberTables.note (hs : s.toBooks.NumberTables) {events : List RevenueEvent}
    (hevents : ∀ e ∈ events, e.eventType = .controlNumberReused)
    (ht : t.toBooks = { s.toBooks with revenue := s.revenue ++ events }) :
    t.toBooks.NumberTables := by
  have hnumbers : t.controlNumbers = s.controlNumbers := by rw [ht]
  have hledger : t.ledger = s.ledger := by rw [ht]
  have hrevenue : t.revenue = s.revenue ++ events := by rw [ht]
  refine ⟨by rw [hnumbers]; exact hs.unique, fun row hrow => ?_, ?_, fun e he htype => ?_⟩
  · rw [hnumbers] at hrow
    refine ChargedOnce.congr (hs.charged row hrow) ?_ ?_
    · rw [Books.creationFees, hledger]
      rfl
    · have hnone : (events.filter fun e =>
          e.eventType = .controlNumberCreated && e.source = .controlNumber row.id) = [] := by
        rw [List.filter_eq_nil_iff]
        intro e he
        simp [hevents e he]
      rw [Books.creationEvents, hrevenue, List.filter_append, hnone, List.append_nil]
      rfl
  · rw [hledger, hnumbers]
    exact hs.entries
  · rw [hrevenue] at he
    rw [hnumbers]
    rcases List.mem_append.mp he with hold | hnew
    · exact hs.events e hold htype
    · rw [hevents e hnew] at htype
      cases htype

/-- An update of the control numbers that at most retires them. -/
structure Retires (f : ControlNumber → ControlNumber) : Prop where
  same : ∀ row : ControlNumber, row.Same (f row)
  active : ∀ row : ControlNumber, (f row).status = .active → row.status = .active

variable {f : ControlNumber → ControlNumber}

theorem Retires.uniqueKeys (hf : Retires f) (row : ControlNumber) :
    ∀ k ∈ (f row).uniqueKeys, k ∈ row.uniqueKeys := by
  intro k hk
  obtain ⟨status, cancelledAt, heq⟩ := hf.same row
  have hactive := hf.active row
  rw [heq] at hk hactive
  unfold ControlNumber.uniqueKeys at hk ⊢
  cases hown : row.owner with
  | bill id =>
      rw [hown] at hk
      exact hk
  | customerAccount id =>
      simp only [hown, List.mem_cons] at hk ⊢
      rcases hk with hk | hk | hk
      · exact Or.inl hk
      · exact Or.inr (Or.inl hk)
      · by_cases hstatus : status = .active
        · rw [if_pos hstatus] at hk
          rw [if_pos (hactive hstatus)]
          exact Or.inr (Or.inr hk)
        · rw [if_neg hstatus] at hk
          cases hk

theorem Retires.id (hf : Retires f) (row : ControlNumber) : (f row).id = row.id := by
  obtain ⟨status, cancelledAt, heq⟩ := hf.same row
  rw [heq]

/-- Retiring control numbers keeps their fees. -/
theorem Books.NumberTables.retire (hs : s.toBooks.NumberTables) (hf : Retires f)
    (ht : t.toBooks = s.toBooks.updateControlNumbers f) : t.toBooks.NumberTables := by
  have hnumbers : t.controlNumbers = s.controlNumbers.map f := by rw [ht]; rfl
  have hledger : t.ledger = s.ledger := by rw [ht]; rfl
  have hrevenue : t.revenue = s.revenue := by rw [ht]; rfl
  refine ⟨?_, fun row hrow => ?_, fun e he htype => ?_, fun e he htype => ?_⟩
  · rw [hnumbers, List.pairwise_map]
    refine hs.unique.imp fun {x y} hxy k hk hk' => ?_
    exact hxy k (hf.uniqueKeys x k hk) (hf.uniqueKeys y k hk')
  · rw [hnumbers] at hrow
    obtain ⟨old, hold, rfl⟩ := List.mem_map.mp hrow
    rw [hf.id]
    refine ChargedOnce.congr (hs.charged old hold) ?_ ?_
    · rw [Books.creationFees, hledger]
      rfl
    · rw [Books.creationEvents, hrevenue]
      rfl
  · rw [hledger] at he
    obtain ⟨row, hrow, hsource⟩ := hs.entries e he htype
    rw [hnumbers]
    exact ⟨f row, List.mem_map_of_mem hrow, by rw [hf.id]; exact hsource⟩
  · rw [hrevenue] at he
    obtain ⟨row, hrow, hsource⟩ := hs.events e he htype
    rw [hnumbers]
    exact ⟨f row, List.mem_map_of_mem hrow, by rw [hf.id]; exact hsource⟩

/-- At most one row of a selection has the key that all of them would have. -/
theorem filter_length_le_one (hs : s.toBooks.NumberTables) {P : ControlNumber → Bool} (k : Resource)
    (hP : ∀ cn, P cn = true → k ∈ cn.uniqueKeys) : (s.controlNumbers.filter P).length ≤ 1 := by
  have hkeys : ∀ cn ∈ s.controlNumbers.filter P, k ∈ cn.uniqueKeys := fun cn hcn =>
    hP cn (List.mem_filter.mp hcn).2
  have hpairwise := hs.unique.sublist (List.filter_sublist (p := P))
  cases hlist : s.controlNumbers.filter P with
  | nil => exact Nat.zero_le 1
  | cons x rest =>
      cases rest with
      | nil => exact le_refl 1
      | cons y rest =>
          rw [hlist] at hpairwise hkeys
          have hxy := (List.pairwise_cons.mp hpairwise).1 y List.mem_cons_self
          exact absurd (hkeys y (List.mem_cons_of_mem _ List.mem_cons_self))
            (hxy k (hkeys x List.mem_cons_self))

theorem Books.NumberTables.exact (hs : s.toBooks.NumberTables) : NumbersExact s.toBooks where
  bills bill := by
    refine filter_length_le_one hs (.controlNumberOf (.bill bill)) fun cn hcn => ?_
    simp [ControlNumber.uniqueKeys, of_decide_eq_true hcn]
  accounts account := by
    refine filter_length_le_one hs (.controlNumberOf (.customerAccount account)) fun cn hcn => ?_
    simp only [Bool.and_eq_true, decide_eq_true_eq] at hcn
    simp [ControlNumber.uniqueKeys, hcn.1, hcn.2]
  values := by
    refine List.pairwise_map.mpr (hs.unique.imp fun {x y} hxy hvalue => ?_)
    refine hxy (.controlNumberValue x.value) ?_ ?_
    · simp [ControlNumber.uniqueKeys]
    · simp [ControlNumber.uniqueKeys, hvalue]
  charged := hs.charged
  entries := hs.entries
  events := hs.events

end Tables

/-! ## Commits -/

section Commits

variable {l : Local DB Resource} {env : Env}

/-- What a call knows at its end. -/
inductive NumberCall.Ends (call : NumberCall) : Option (ControlNumber × Bool) →
    Local DB Resource → Prop
  | got {env : Env} {owner : Owner} {a : ControlNumber × Bool} {l : Local DB Resource}
      (howner : call.owner? = some owner) (h : NumberGot env owner a l) : Ends call (some a) l
  | retired {f : ControlNumber → ControlNumber} {l : Local DB Resource}
      (hnone : call.owner? = none) (hf : Retires f)
      (h : ∀ s, (l.pend s).toBooks = s.toBooks.updateControlNumbers f) : Ends call none l

theorem cancelControlNumber_lwp (hpend : l.pend = id) (cn : ControlNumber) :
    (cancelControlNumber env cn).lwp numberDiscipline l
      (fun _ l' => ∃ f, Retires f ∧
        ∀ s, (l'.pend s).toBooks = s.toBooks.updateControlNumbers f) fun _ _ => True := by
  have hwp : (cancelControlNumber env cn).wp (fun _ => True) (fun _ _ => True) l.pend
      (fun _ pend' => ∃ f, Retires f ∧
        ∀ s, (pend' s).toBooks = s.toBooks.updateControlNumbers f) fun _ _ => True := by
    simp only [cancelControlNumber, Txn.wp_bind, Txn.wp_acquire, wp_onBooks]
    refine (recordAuditEvent_onTrail _ _ _ _ _ _).wp (fun _ p₁ h₁ => ?_) fun _ _ _ _ => trivial
    refine ⟨fun row => if row.id = cn.id then
      { row with status := .cancelled, cancelledAt := some env.now } else row,
      ⟨fun row => ?_, fun row hrow => ?_⟩, fun s => ?_⟩
    · by_cases hid : row.id = cn.id
      · rw [if_pos hid]
        exact ⟨.cancelled, some env.now, rfl⟩
      · rw [if_neg hid]
        exact .refl row
    · by_cases hid : row.id = cn.id
      · rw [if_pos hid] at hrow
        cases hrow
      · rw [if_neg hid] at hrow
        exact hrow
    · have hbooks := congrArg Prod.snd (h₁ s)
      rw [hpend] at hbooks
      exact hbooks
  exact Txn.lwp_of_wp (fun _ _ _ _ => trivial) hwp

theorem expireOverdue_lwp (hpend : l.pend = id) (tenant : Option ℕ) :
    (expireOverdue env tenant).lwp numberDiscipline l
      (fun _ l' => ∃ f, Retires f ∧
        ∀ s, (l'.pend s).toBooks = s.toBooks.updateControlNumbers f) fun _ _ => True := by
  have hwp : (expireOverdue env tenant).wp (fun _ => True) (fun _ _ => True) l.pend
      (fun _ pend' => ∃ f, Retires f ∧
        ∀ s, (pend' s).toBooks = s.toBooks.updateControlNumbers f) fun _ _ => True := by
    simp only [expireOverdue, Txn.wp_bind, Txn.wp_fetch]
    intro v _
    refine (lockControlNumbers_onTrail _ _).wp (fun rows p₁ h₁ => ?_) fun _ _ _ _ => trivial
    rw [wp_onBooks]
    refine ⟨fun row => if rows.any (·.id = row.id) then { row with status := .expired } else row,
      ⟨fun row => ?_, fun row hrow => ?_⟩, fun s => ?_⟩
    · by_cases hany : rows.any (·.id = row.id) = true
      · rw [if_pos hany]
        exact ⟨.expired, row.cancelledAt, rfl⟩
      · rw [if_neg hany]
        exact .refl row
    · by_cases hany : rows.any (·.id = row.id) = true
      · rw [if_pos hany] at hrow
        cases hrow
      · rw [if_neg hany] at hrow
        exact hrow
    · have hbooks : (p₁ s).toBooks = (l.pend s).toBooks := congrArg Prod.snd (h₁ s)
      rw [hpend, id_eq] at hbooks
      change (p₁ s).toBooks.updateControlNumbers _ = _
      rw [hbooks]
  exact Txn.lwp_of_wp (fun _ _ _ _ => trivial) hwp

theorem NumberCall.program_lwp (call : NumberCall) (hpend : l.pend = id) :
    call.program.lwp numberDiscipline l call.Ends fun _ _ => True := by
  cases call with
  | getOrCreateForBill env tenant bill expiresAt =>
      unfold NumberCall.program
      rw [Txn.lwp_bind]
      exact Txn.lwp_consequence (getOrCreateControlNumber_lwp (controlNumberOfBill_looksUp bill.id)
        hpend) (fun a l' h => .got rfl h) fun _ _ h => h
  | getOrCreateForAccount env tenant account expiresAt =>
      unfold NumberCall.program
      rw [Txn.lwp_bind]
      exact Txn.lwp_consequence (getOrCreateControlNumber_lwp
        (activeControlNumberOf_looksUp account.id) hpend) (fun a l' h => .got rfl h) fun _ _ h => h
  | cancel env cn =>
      unfold NumberCall.program
      rw [Txn.lwp_bind]
      exact Txn.lwp_consequence (cancelControlNumber_lwp hpend cn)
        (fun _ l' ⟨f, hf, h⟩ => .retired rfl hf h) fun _ _ h => h
  | expireOverdue env tenant =>
      unfold NumberCall.program
      rw [Txn.lwp_bind]
      exact Txn.lwp_consequence (expireOverdue_lwp hpend tenant)
        (fun _ l' ⟨f, hf, h⟩ => .retired rfl hf h) fun _ _ h => h

/-- The row that a call returned is in the table. -/
def NumberCall.Returned (call : NumberCall) (a : Option (ControlNumber × Bool)) (s : DB) : Prop :=
  ∀ owner, call.owner? = some owner →
    ∃ cn isNew, a = some (cn, isNew) ∧ ∃ row ∈ s.controlNumbers, cn.Same row ∧ row.owner = owner

/-- A commit keeps the tables, and the row it returns is there. -/
theorem NumberCall.Ends.commit {call : NumberCall} {a : Option (ControlNumber × Bool)} {s : DB}
    (h : call.Ends a l) (hsees : l.Sees numberDiscipline s) :
    (l.pend s).toBooks.NumberTables ∧ numberDiscipline.evolves s (l.pend s) ∧
      (∀ k, k ∉ l.held → numberDiscipline.keeps k s (l.pend s)) ∧ call.Returned a (l.pend s) := by
  cases h with
  | @retired f _ hnone hf hwrites =>
      have hbooks := hwrites s
      generalize l.pend s = t at hbooks ⊢
      have hnumbers : t.controlNumbers = s.controlNumbers.map f := by rw [hbooks]; rfl
      refine ⟨Books.NumberTables.retire hsees.inv hf hbooks, fun cn hcn => ?_, fun k _ htaken => ?_,
        fun owner howner => by rw [hnone] at howner; cases howner⟩
      · rw [hnumbers]
        exact ⟨f cn, List.mem_map_of_mem hcn, hf.same cn⟩
      · obtain ⟨row, hrow, hk⟩ : ∃ row ∈ t.controlNumbers, k ∈ row.uniqueKeys := htaken
        rw [hnumbers] at hrow
        obtain ⟨old, hold, rfl⟩ := List.mem_map.mp hrow
        exact ⟨old, hold, hf.uniqueKeys old k hk⟩
  | @got env owner a _ howner hgot =>
      obtain ⟨cn, isNew⟩ := a
      cases isNew with
      | true =>
          obtain ⟨currency, hwrites⟩ := NumberMade.writes hgot
          have hbooks := hwrites s
          have hfree : ∀ k ∈ cn.uniqueKeys, ¬NumberKeyTaken k s := fun k hk htaken =>
            (NumberMade.locked hgot k hk).2 (hsees.keeps k (NumberMade.locked hgot k hk).1 htaken)
          have hlocked : ∀ k ∈ cn.uniqueKeys, k ∈ l.held := fun k hk =>
            (NumberMade.locked hgot k hk).1
          generalize l.pend s = t at hbooks ⊢
          have hnumbers : t.controlNumbers = s.controlNumbers ++ [cn] := by rw [hbooks]; rfl
          refine ⟨Books.NumberTables.issue hsees.inv hfree hbooks, fun row hrow => ?_,
            fun k hk htaken => ?_, fun owner' howner' => ?_⟩
          · rw [hnumbers]
            exact ⟨row, List.mem_append_left _ hrow, .refl row⟩
          · obtain ⟨row, hrow, hkey⟩ : ∃ row ∈ t.controlNumbers, k ∈ row.uniqueKeys := htaken
            rw [hnumbers] at hrow
            rcases List.mem_append.mp hrow with hold | hnew
            · exact ⟨row, hold, hkey⟩
            · obtain rfl := List.mem_singleton.mp hnew
              exact absurd (hlocked k hkey) hk
          · obtain rfl := Option.some.inj (howner.symm.trans howner')
            refine ⟨cn, true, rfl, cn, ?_, .refl cn, NumberMade.owner_eq hgot⟩
            rw [hnumbers]
            exact List.mem_append_right _ (List.mem_singleton.mpr rfl)
      | false =>
          obtain ⟨events, hevents, hwrites⟩ := NumberFound.writes hgot
          have hbooks := hwrites s
          obtain ⟨row, hrow, hsame⟩ := NumberFound.there hgot
          obtain ⟨row', hrow', hsame'⟩ := hsees.evolves row hrow
          have hcnowner := NumberFound.owner_eq hgot
          generalize l.pend s = t at hbooks ⊢
          have hnumbers : t.controlNumbers = s.controlNumbers := by rw [hbooks]
          refine ⟨Books.NumberTables.note hsees.inv hevents hbooks, fun cn hcn => ?_,
            fun k _ htaken => ?_, fun owner' howner' => ?_⟩
          · rw [hnumbers]
            exact ⟨cn, hcn, .refl cn⟩
          · obtain ⟨row, hrow, hkey⟩ : ∃ row ∈ t.controlNumbers, k ∈ row.uniqueKeys := htaken
            rw [hnumbers] at hrow
            exact ⟨row, hrow, hkey⟩
          · obtain rfl := Option.some.inj (howner.symm.trans howner')
            have hboth := hsame.trans hsame'
            refine ⟨cn, false, rfl, row', hnumbers ▸ hrow', hboth, ?_⟩
            obtain ⟨status, cancelledAt, rfl⟩ := hboth
            exact hcnowner

end Commits

/-- For every interleaving: the tables are exact, and all calls for a bill that commit return
the one control number of this bill. -/
theorem control_numbers_exact (calls : List NumberCall) (start : DB)
    (hstart : start.toBooks.NumberTables) (schedule : List Event) :
    NumbersExact ((Config.start start (calls.map NumberCall.program)).run schedule).store.toBooks ∧
    ∀ (bill i : ℕ) (call : NumberCall) (a : Option (ControlNumber × Bool)),
      calls[i]? = some call → call.owner? = some (.bill bill) →
      ((Config.start start (calls.map NumberCall.program)).run schedule).sessions[i]? =
        some (.committed a) →
      ∃ cn isNew row, a = some (cn, isNew) ∧ cn.Same row ∧
        ((Config.start start (calls.map NumberCall.program)).run
          schedule).store.controlNumbers.filter (·.owner = .bill bill) = [row] := by
  have hget : ∀ (i : ℕ) (p : Tx (Option (ControlNumber × Bool))),
      (calls.map NumberCall.program)[i]? = some p →
      ∃ call, calls[i]? = some call ∧ p = call.program := by
    intro i p hp
    rw [List.getElem?_map, Option.map_eq_some_iff] at hp
    obtain ⟨call, hcall, rfl⟩ := hp
    exact ⟨call, hcall, rfl⟩
  obtain ⟨log, hrun⟩ := Config.run_disciplined (D := numberDiscipline)
    (s := start)
    (Q := fun i a l => ∀ call, calls[i]? = some call → call.Ends a l)
    (M := fun _ _ _ => True)
    (C := fun i a s t => numberDiscipline.evolves s t ∧
      ∀ call, calls[i]? = some call → call.Returned a t)
    hstart
    (fun i p (hp : (calls.map NumberCall.program)[i]? = some p) => by
      obtain ⟨call, hcall, rfl⟩ := hget i p hp
      refine Txn.lwp_consequence (call.program_lwp rfl) (fun a l h call' hcall' => ?_)
        fun _ _ h => h
      obtain rfl := Option.some.inj (hcall.symm.trans hcall')
      exact h)
    (fun i p a l seen s hp _ _ hends hsees _ => by
      obtain ⟨call, hcall, rfl⟩ := hget i p hp
      obtain ⟨htables, hevolves, hkeeps, hreturned⟩ := (hends call hcall).commit hsees
      refine ⟨htables, hevolves, hkeeps, hevolves, fun call' hcall' => ?_⟩
      obtain rfl := Option.some.inj (hcall.symm.trans hcall')
      exact hreturned)
    schedule (Config.commitsMeet_trivial _ schedule)
  have hexact := Books.NumberTables.exact hrun.inv
  refine ⟨hexact, fun bill i call a hcall howner hcommitted => ?_⟩
  have hreturned := hrun.commits.persists
    (P := fun i a s => ∀ call, calls[i]? = some call → call.Returned a s)
    (fun i a s t h => h.2)
    (fun i a s t h j b hold call' hcall' owner' howner' => by
      obtain ⟨cn, isNew, hb, row, hrow, hsame, hrowOwner⟩ := hold call' hcall' owner' howner'
      obtain ⟨row', hrow', hsame'⟩ := h.1 row hrow
      refine ⟨cn, isNew, hb, row', hrow', hsame.trans hsame', ?_⟩
      obtain ⟨status, cancelledAt, rfl⟩ := hsame'
      exact hrowOwner)
    (i, a) ((hrun.logged i a).mp hcommitted)
  obtain ⟨cn, isNew, ha, row, hrow, hsame, hrowOwner⟩ := hreturned call hcall _ howner
  refine ⟨cn, isNew, row, ha, hsame, ?_⟩
  have hmem : row ∈ ((Config.start start (calls.map NumberCall.program)).run
      schedule).store.controlNumbers.filter (·.owner = .bill bill) :=
    List.mem_filter.mpr ⟨hrow, decide_eq_true hrowOwner⟩
  obtain ⟨row', hrow'⟩ := List.length_eq_one_iff.mp
    (Nat.le_antisymm (hexact.bills bill) (List.length_pos_of_mem hmem))
  rw [hrow'] at hmem ⊢
  rw [List.mem_singleton.mp hmem]

/-! ## Two requests for one bill -/

def unpaidBill : Bill := BillInput.newBill ⟨1, 1, [], ""⟩ 1 "1"

def billedInstallation : DB := { smallInstallation with bills := [unpaidBill] }

/-- Two requests for the control number of one bill, and one that cancels the first's. -/
def sameBill : List NumberCall :=
  [.getOrCreateForBill (envAt 1 (answering .pending "" "")) 1 unpaidBill none,
   .getOrCreateForBill (envAt 2 (answering .pending "" "")) 1 unpaidBill none,
   .cancel (envAt 3 (answering .pending "" ""))
    ⟨1, 1, "1", .oneTime, .active, .bill 1, none, none, none⟩]

/-- The three take turns. -/
def inTurns : List Event :=
  (List.replicate 40 [Event.advance 0, .advance 1, .advance 2]).flatten

theorem billedInstallation_numberTables : billedInstallation.toBooks.NumberTables where
  unique := List.Pairwise.nil
  charged _ hcn := absurd hcn List.not_mem_nil
  entries _ he := absurd he List.not_mem_nil
  events _ he := absurd he List.not_mem_nil

theorem control_numbers_sameBill :
    NumbersExact ((Config.start billedInstallation
      (sameBill.map NumberCall.program)).run inTurns).store.toBooks ∧
    ∀ (bill i : ℕ) (call : NumberCall) (a : Option (ControlNumber × Bool)),
      sameBill[i]? = some call → call.owner? = some (.bill bill) →
      ((Config.start billedInstallation (sameBill.map NumberCall.program)).run
        inTurns).sessions[i]? = some (.committed a) →
      ∃ cn isNew row, a = some (cn, isNew) ∧ cn.Same row ∧
        ((Config.start billedInstallation (sameBill.map NumberCall.program)).run
          inTurns).store.controlNumbers.filter (·.owner = .bill bill) = [row] :=
  control_numbers_exact sameBill billedInstallation billedInstallation_numberTables inTurns

end Kusanya
