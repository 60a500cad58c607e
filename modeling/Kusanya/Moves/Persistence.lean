import Kusanya.Moves.Growth

/-!
# What was seen is still there

Rows are never deleted and keep their fixed columns.  So a row that some statement of a request
found, or that the request has inserted itself, is in the tables when the request has committed,
and every guard of its moves speaks about such rows.
-/

namespace Kusanya

open Support

/-- The rows of `b` are rows of `b'`, up to the columns that change. -/
structure Books.Within (b b' : Books) : Prop where
  bills : ∀ row ∈ b.bills, ∃ row' ∈ b'.bills, row'.fixed = row.fixed
  controlNumbers : ∀ row ∈ b.controlNumbers, ∃ row' ∈ b'.controlNumbers, row'.fixed = row.fixed
  payments : ∀ row ∈ b.payments, ∃ row' ∈ b'.payments, row'.fixed = row.fixed
  ledger : ∀ row ∈ b.ledger, row ∈ b'.ledger
  revenue : ∀ e ∈ b.revenue, e ∈ b'.revenue

theorem Books.Grows.within {b b' : Books} (h : b.Grows b') : b.Within b' where
  bills _ hrow := h.bills.mem hrow
  controlNumbers _ hrow := h.controlNumbers.mem hrow
  payments _ hrow := h.payments.mem hrow
  ledger _ hrow := h.ledger.subset hrow
  revenue _ he := h.revenue.subset he

/-- The rows that a move inserts are rows of `b`. -/
structure Move.NewIn (m : Move) (b : Books) : Prop where
  bills : ∀ row ∈ m.openedBills, ∃ row' ∈ b.bills, row'.fixed = row.fixed
  controlNumbers : ∀ row ∈ m.issued, ∃ row' ∈ b.controlNumbers, row'.fixed = row.fixed
  payments : ∀ row ∈ m.opened, ∃ row' ∈ b.payments, row'.fixed = row.fixed
  ledger : ∀ row ∈ m.postings, row ∈ b.ledger
  revenue : ∀ e ∈ m.events, e ∈ b.revenue

section Moves

variable {view : View} {ms : List Move} {m : Move} {b t : Books} {accounts : List CustomerAccount}

theorem Books.Within.run (h : b.Within t) (hguard : m.Guard view) (hnew : m.NewIn t) :
    (m.run b).Within t where
  bills row hrow := by
    rw [m.run_bills] at hrow
    rcases List.mem_append.mp hrow with hrow | hrow
    · obtain ⟨old, hold, rfl⟩ := List.mem_map.mp hrow
      rw [m.onBill_fixed]
      exact h.bills old hold
    · exact hnew.bills row hrow
  controlNumbers row hrow := by
    rw [m.run_controlNumbers] at hrow
    rcases List.mem_append.mp hrow with hrow | hrow
    · obtain ⟨old, hold, rfl⟩ := List.mem_map.mp hrow
      rw [Move.onControlNumber_fixed hguard]
      exact h.controlNumbers old hold
    · exact hnew.controlNumbers row hrow
  payments row hrow := by
    rw [m.run_payments] at hrow
    rcases List.mem_append.mp hrow with hrow | hrow
    · obtain ⟨old, hold, rfl⟩ := List.mem_map.mp hrow
      rw [m.onPayment_fixed]
      exact h.payments old hold
    · exact hnew.payments row hrow
  ledger row hrow := by
    rw [m.run_ledger] at hrow
    rcases List.mem_append.mp hrow with hrow | hrow
    · exact h.ledger row hrow
    · exact hnew.ledger row hrow
  revenue e he := by
    rw [m.run_revenue] at he
    rcases List.mem_append.mp he with he | he
    · exact h.revenue e he
    · exact hnew.revenue e he

/-- A move of the list is made somewhere on the way. -/
theorem View.Chain.on_the_way (h : view.Chain ms) (horderly : ∀ m ∈ ms, m.Orderly) (hm : m ∈ ms)
    (b : Books) : ∃ b₁, b.Grows b₁ ∧ (m.run b₁).Grows (Move.runAll ms b) := by
  induction ms generalizing view b with
  | nil => exact absurd hm List.not_mem_nil
  | cons first ms ih =>
      obtain ⟨hguard, hrest⟩ := h
      obtain ⟨hfirst, hothers⟩ := List.forall_mem_cons.mp horderly
      rcases List.mem_cons.mp hm with rfl | hm
      · exact ⟨b, .refl b, hrest.grows hothers (m.run b)⟩
      · obtain ⟨b₁, hb₁, hrun⟩ := ih hrest hothers hm (first.run b)
        exact ⟨b₁, (first.grows hguard hfirst b).trans hb₁, hrun⟩

/-- What the moves of a chain insert is there in the end. -/
theorem View.Chain.newIn (h : view.Chain ms) (horderly : ∀ m ∈ ms, m.Orderly) (b : Books) :
    ∀ m ∈ ms, m.NewIn (Move.runAll ms b) := by
  intro m hm
  obtain ⟨b₁, -, hrun⟩ := h.on_the_way horderly hm b
  have hwithin := hrun.within
  constructor
  · intro row hrow
    apply hwithin.bills
    rw [m.run_bills]
    exact List.mem_append_right _ hrow
  · intro row hrow
    apply hwithin.controlNumbers
    rw [m.run_controlNumbers]
    exact List.mem_append_right _ hrow
  · intro row hrow
    apply hwithin.payments
    rw [m.run_payments]
    exact List.mem_append_right _ hrow
  · intro row hrow
    apply hwithin.ledger
    rw [m.run_ledger]
    exact List.mem_append_right _ hrow
  · intro e he
    apply hwithin.revenue
    rw [m.run_revenue]
    exact List.mem_append_right _ he

/-- Whatever may be seen is in the tables `t`, and the accounts are those that are there. -/
def View.Within (view : View) (accounts : List CustomerAccount) (t : Books) : Prop :=
  ∀ what d b, view what d b → d.accounts = accounts ∧ b.Within t

theorem View.Within.map (h : view.Within accounts t) (hguard : m.Guard view) (hnew : m.NewIn t) :
    (view.map m.run).Within accounts t := by
  rintro what d _ ⟨b, hb, rfl⟩
  obtain ⟨haccounts, hwithin⟩ := h what d b hb
  exact ⟨haccounts, hwithin.run hguard hnew⟩

/-- Every guard of a chain is about rows that are there in the end. -/
theorem View.Chain.guards (h : view.Chain ms) (hview : view.Within accounts t)
    (hnew : ∀ m ∈ ms, m.NewIn t) :
    ∀ m ∈ ms, ∃ view' : View, view'.Within accounts t ∧ m.Guard view' := by
  induction ms generalizing view with
  | nil => exact fun m hm => absurd hm List.not_mem_nil
  | cons m ms ih =>
      obtain ⟨hguard, hrest⟩ := h
      obtain ⟨hfirst, hothers⟩ := List.forall_mem_cons.mp hnew
      intro m' hm'
      rcases List.mem_cons.mp hm' with rfl | hm'
      · exact ⟨view, hview, hguard⟩
      · exact ih hrest (hview.map hguard hfirst) hothers m' hm'

/-! ## Rows that were seen -/

theorem View.Within.bill (h : view.Within accounts t) {row : Bill}
    (hsees : view.Sees fun _ b => row ∈ b.bills) : ∃ row' ∈ t.bills, row'.fixed = row.fixed := by
  obtain ⟨what, d, b, hb, hrow⟩ := hsees
  exact (h what d b hb).2.bills row hrow

theorem View.Within.controlNumber (h : view.Within accounts t) {row : ControlNumber}
    (hsees : view.Sees fun _ b => row ∈ b.controlNumbers) :
    ∃ row' ∈ t.controlNumbers, row'.fixed = row.fixed := by
  obtain ⟨what, d, b, hb, hrow⟩ := hsees
  exact (h what d b hb).2.controlNumbers row hrow

theorem View.Within.payment (h : view.Within accounts t) {row : Payment} (hheld : view.Holds row) :
    ∃ row' ∈ t.payments, row'.fixed = row.fixed := by
  obtain ⟨what, -, d, b, hb, hrow⟩ := hheld
  exact (h what d b hb).2.payments row hrow

theorem View.Within.owner (h : view.Within accounts t) {owner : Owner} {tenant : ℕ}
    (hsees : view.Sees fun d b => owner.Exists tenant d b) {d : Directory}
    (hd : d.accounts = accounts) : owner.Exists tenant d t := by
  obtain ⟨what, d', b, hb, hexists⟩ := hsees
  obtain ⟨haccounts, hwithin⟩ := h what d' b hb
  cases owner with
  | bill id =>
      obtain ⟨row, hrow, rfl, rfl⟩ := hexists
      obtain ⟨row', hrow', hfixed⟩ := hwithin.bills row hrow
      exact ⟨row', hrow', congrArg Bill.Fixed.id hfixed, congrArg Bill.Fixed.tenant hfixed⟩
  | customerAccount id =>
      obtain ⟨account, haccount, hid, htenant⟩ := hexists
      rw [haccounts, ← hd] at haccount
      exact ⟨account, haccount, hid, htenant⟩

/-! ## Rows that are there -/

/-- A row of a table whose rows keep a key was there before, or is new. -/
theorem mem_runAll_keyed {α κ : Type} {table : Books → List α} {upd : Move → α → α}
    {new : Move → List α} {key : α → κ}
    (hrun : ∀ (m : Move) (b : Books), table (m.run b) = (table b).map (upd m) ++ new m)
    (hkey : ∀ m ∈ ms, ∀ row, key (upd m row) = key row) {row : α}
    (h : row ∈ table (Move.runAll ms b)) :
    (∃ old ∈ table b, key old = key row) ∨ ∃ m ∈ ms, ∃ n ∈ new m, key n = key row := by
  induction ms generalizing b with
  | nil => exact Or.inl ⟨row, h, rfl⟩
  | cons m ms ih =>
      obtain ⟨hfirst, hothers⟩ := List.forall_mem_cons.mp hkey
      rcases ih hothers h with ⟨old, hold, hsame⟩ | ⟨m', hm', n, hn, hsame⟩
      · rw [hrun] at hold
        rcases List.mem_append.mp hold with hold | hold
        · obtain ⟨first, hmem, rfl⟩ := List.mem_map.mp hold
          exact Or.inl ⟨first, hmem, (hfirst first).symm.trans hsame⟩
        · exact Or.inr ⟨m, List.mem_cons_self, old, hold, hsame⟩
      · exact Or.inr ⟨m', List.mem_cons_of_mem _ hm', n, hn, hsame⟩

/-- A row of a table whose rows never change was there before, or is new. -/
theorem mem_runAll_appended {α : Type} {table : Books → List α} {new : Move → List α}
    (hrun : ∀ (m : Move) (b : Books), table (m.run b) = table b ++ new m) {row : α}
    (h : row ∈ table (Move.runAll ms b)) : row ∈ table b ∨ ∃ m ∈ ms, row ∈ new m := by
  have hmapped : ∀ (m : Move) (b : Books),
      table (m.run b) = (table b).map (fun row => row) ++ new m := by
    intro m b
    rw [hrun, List.map_id']
  have hkept : ∀ m ∈ ms, ∀ row : α, id row = id row := fun _ _ _ => rfl
  rcases mem_runAll_keyed hmapped hkept h with
    ⟨old, hold, rfl⟩ | ⟨m, hm, n, hn, rfl⟩
  · exact Or.inl hold
  · exact Or.inr ⟨m, hm, hn⟩

end Moves

end Kusanya
