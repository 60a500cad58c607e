import Kusanya.Invariants.Sums
import Kusanya.Moves.Deliveries

/-!
# What belongs to some payments

An operation is confined to a set of payments when it changes only these, the bills behind
them, and adds only rows that name one of them.
-/

namespace Kusanya

open ReadCommitted

/-- From `s` to `t` only payments in `T` changed, and the bills, ledger entries, allocations
and receipts that belong to them. -/
structure Confined (s t : Books) (T : Payment → Prop) : Prop where
  payments : List.Forall₂ (fun old new => new = old ∨ new.id = old.id ∧ T old)
    s.payments t.payments
  bills : List.Forall₂ (fun old new => new = old ∨ new.id = old.id ∧
    ∃ p ∈ s.payments, T p ∧ p.OnBill s old.id) s.bills t.bills
  ledger : ∃ new, t.ledger = s.ledger ++ new ∧
    ∀ e ∈ new, ∃ p ∈ s.payments, T p ∧ e.source = some (.payment p.id)
  allocations : ∃ new, t.allocations = s.allocations ++ new ∧
    ∀ a ∈ new, ∃ p ∈ s.payments, T p ∧ a.payment = p.id
  receipts : ∃ new, t.receipts = s.receipts ++ new ∧
    ∀ r ∈ new, ∃ p ∈ s.payments, T p ∧ r.payment = p.id

section Confined

variable {s t b : Books} {T T' : Payment → Prop} {p : Payment}

theorem Confined.mono (h : Confined s t T) (hT : ∀ p ∈ s.payments, T p → T' p) :
    Confined s t T' where
  payments := by
    refine Support.forall₂_imp_of_mem h.payments fun old hold new hrow => ?_
    rcases hrow with hsame | ⟨hid, hin⟩
    · exact Or.inl hsame
    · exact Or.inr ⟨hid, hT old hold hin⟩
  bills := by
    refine h.bills.imp fun old new hrow => ?_
    rcases hrow with hsame | ⟨hid, p, hp, hin, hbill⟩
    · exact Or.inl hsame
    · exact Or.inr ⟨hid, p, hp, hT p hp hin, hbill⟩
  ledger := by
    obtain ⟨new, heq, hnew⟩ := h.ledger
    refine ⟨new, heq, fun e he => ?_⟩
    obtain ⟨p, hp, hin, hsource⟩ := hnew e he
    exact ⟨p, hp, hT p hp hin, hsource⟩
  allocations := by
    obtain ⟨new, heq, hnew⟩ := h.allocations
    refine ⟨new, heq, fun a ha => ?_⟩
    obtain ⟨p, hp, hin, hpayment⟩ := hnew a ha
    exact ⟨p, hp, hT p hp hin, hpayment⟩
  receipts := by
    obtain ⟨new, heq, hnew⟩ := h.receipts
    refine ⟨new, heq, fun r hr => ?_⟩
    obtain ⟨p, hp, hin, hpayment⟩ := hnew r hr
    exact ⟨p, hp, hT p hp hin, hpayment⟩

/-- The tables that `Confined` speaks about. -/
def Books.money (b : Books) :
    List Payment × List Bill × List LedgerEntry × List PaymentAllocation × List Receipt :=
  (b.payments, b.bills, b.ledger, b.allocations, b.receipts)

theorem Confined.of_money (h : t.money = s.money) : Confined s t T := by
  simp only [Books.money, Prod.mk.injEq] at h
  obtain ⟨hpayments, hbills, hledger, hallocations, hreceipts⟩ := h
  constructor
  · rw [hpayments]
    exact List.forall₂_same.mpr fun _ _ => Or.inl rfl
  · rw [hbills]
    exact List.forall₂_same.mpr fun _ _ => Or.inl rfl
  · exact ⟨[], by rw [hledger, List.append_nil], by simp⟩
  · exact ⟨[], by rw [hallocations, List.append_nil], by simp⟩
  · exact ⟨[], by rw [hreceipts, List.append_nil], by simp⟩

/-- What happens after a change elsewhere, or before one, is as confined. -/
theorem Confined.congr {s' t' : Books} (h : Confined s' t' T) (hs : s'.money = s.money)
    (hcn : s'.controlNumbers = s.controlNumbers) (ht : t.money = t'.money) : Confined s t T := by
  simp only [Books.money, Prod.mk.injEq] at hs ht
  obtain ⟨hpayments, hbills, hledger, hallocations, hreceipts⟩ := hs
  obtain ⟨hpayments', hbills', hledger', hallocations', hreceipts'⟩ := ht
  constructor
  · rw [← hpayments, hpayments']
    exact h.payments
  · rw [← hbills, hbills', ← hpayments]
    simpa only [Payment.OnBill, hcn] using h.bills
  · rw [← hledger, hledger', ← hpayments]
    exact h.ledger
  · rw [← hallocations, hallocations', ← hpayments]
    exact h.allocations
  · rw [← hreceipts, hreceipts', ← hpayments]
    exact h.receipts

/-- A move that is about one payment is confined to it. -/
theorem confined_run {m : Move} (hkeys : (b.payments.map (·.id)).Nodup) (hp : p ∈ b.payments)
    (hopened : m.opened = []) (hopenedBills : m.openedBills = [])
    (hpayment : ∀ row : Payment, row.id ≠ p.id → m.onPayment row = row)
    (hbill : ∀ row, m.onBill row = row ∨ p.OnBill b row.id)
    (hpostings : ∀ e ∈ m.postings, e.source = some (.payment p.id))
    (hallocations : ∀ a ∈ m.allocations, a.payment = p.id)
    (hreceipts : ∀ r ∈ m.receipts, r.payment = p.id) : Confined b (m.run b) (· = p) where
  payments := by
    rw [Move.run_payments, hopened, List.append_nil]
    refine List.forall₂_map_right_iff.mpr (List.forall₂_same.mpr fun row hrow => ?_)
    by_cases hid : row.id = p.id
    · exact Or.inr ⟨m.onPayment_id row, Support.eq_of_key hkeys hrow hp hid⟩
    · exact Or.inl (hpayment row hid)
  bills := by
    rw [Move.run_bills, hopenedBills, List.append_nil]
    refine List.forall₂_map_right_iff.mpr (List.forall₂_same.mpr fun row _ => ?_)
    rcases hbill row with hsame | hon
    · exact Or.inl hsame
    · exact Or.inr ⟨m.onBill_id row, p, hp, rfl, hon⟩
  ledger := ⟨m.postings, m.run_ledger b, fun e he => ⟨p, hp, rfl, hpostings e he⟩⟩
  allocations := ⟨m.allocations, m.run_allocations b, fun a ha => ⟨p, hp, rfl, hallocations a ha⟩⟩
  receipts := ⟨m.receipts, m.run_receipts b, fun r hr => ⟨p, hp, rfl, hreceipts r hr⟩⟩

/-- A status that books no money is confined to its payment. -/
theorem confined_enter (hkeys : (b.payments.map (·.id)).Nodup) (hp : p ∈ b.payments)
    {new : Payment} (hid : new.id = p.id) : Confined b ((Move.enter new).run b) (· = p) := by
  refine confined_run hkeys hp rfl rfl (fun row hrow => ?_) (fun _ => Or.inl rfl) ?_ ?_ ?_
  · exact if_neg fun h => hrow (h.trans hid)
  · simp [Move.postings]
  · simp [Move.allocations]
  · simp [Move.receipts]

/-- A success is confined to its payment. -/
theorem confined_settle {d : Directory} {x : Settlement} (hkeys : (b.payments.map (·.id)).Nodup)
    (hp : p ∈ b.payments) (hfixed : x.payment.fixed = p.fixed)
    (hguard : x.Guard (View.alone d b)) : Confined b ((Move.settle x).run b) (· = p) := by
  have hid : x.payment.id = p.id := congrArg Payment.Fixed.id hfixed
  refine confined_run hkeys hp rfl rfl (fun row hrow => ?_) (fun row => ?_) ?_ ?_ ?_
  · exact if_neg fun h => hrow (h.trans hid)
  · simp only [Move.onBill]
    split
    · next bill status hbill _ =>
        split
        · next hrow =>
            refine Or.inr ⟨x.controlNumber, ?_, ?_, ?_⟩
            · exact (View.sees_alone d b _).mp hguard.loaded.controlNumber
            · exact hguard.loaded.id.trans (congrArg Payment.Fixed.controlNumber hfixed)
            · cases hbound : x.controlNumber.bill? with
              | none =>
                  rw [hguard.loaded.unbound hbound] at hbill
                  cases hbill
              | some id =>
                  obtain ⟨found, hfound, hfoundid, -⟩ := hguard.loaded.bound id hbound
                  obtain rfl := Option.some.inj (hbill.symm.trans hfound)
                  rw [hrow, hfoundid]
                  exact bill?_eq_some.mp hbound
        · exact Or.inl rfl
    · exact Or.inl rfl
  · intro e he
    simp only [Move.postings, List.mem_cons, List.not_mem_nil, or_false] at he
    rcases he with rfl | rfl | rfl <;> rw [← hid] <;> rfl
  · intro a ha
    obtain ⟨bill, -, rfl⟩ := Option.map_eq_some_iff.mp (Option.mem_toList.mp ha)
    exact hid
  · intro r hr
    have hreceipt := hguard.receipts.inserted r (Option.mem_toList.mp hr)
    exact hreceipt.1.trans hid

/-- Whatever an outcome does is confined to the payment it is applied to. -/
theorem Applied.confined {env : Env} {d : Directory} {after : Payment} {outcome : ProviderOutcome}
    {ms : List Move} (h : Applied env p outcome ms after) (hchain : (View.alone d b).Chain ms)
    (hkeys : (b.payments.map (·.id)).Nodup) (hp : p ∈ b.payments) :
    Confined b (Move.runAll ms b) (· = p) := by
  cases h with
  | inconclusive | repeated => exact Confined.of_money rfl
  | unknown | pending => exact confined_enter hkeys hp rfl
  | failed =>
      have henter : Confined b ((Move.enter (p.moveTo env.now .failed "")).run b) (· = p) :=
        confined_enter hkeys hp rfl
      exact henter.congr rfl rfl rfl
  | successful _ x _ hpayment =>
      have hfixed : x.payment.fixed = p.fixed := by
        rw [hpayment]
        rfl
      exact confined_settle hkeys hp hfixed hchain.1

end Confined

/-! ## Several payments in a row -/

/-- `Confined`, and new revenue events name payments in `T` as well. -/
structure OnlyTouches (s t : Books) (T : Payment → Prop) : Prop extends Confined s t T where
  revenue : ∃ new, t.revenue = s.revenue ++ new ∧
    ∀ e ∈ new, ∃ p ∈ s.payments, T p ∧ e.source = .payment p.id
  controlNumbers : t.controlNumbers = s.controlNumbers

section OnlyTouches

variable {s t u b : Books} {T T' : Payment → Prop} {p : Payment}

theorem OnlyTouches.refl (s : Books) (T : Payment → Prop) : OnlyTouches s s T where
  toConfined := Confined.of_money rfl
  revenue := ⟨[], (List.append_nil _).symm, fun _ he => absurd he List.not_mem_nil⟩
  controlNumbers := rfl

/-- Rows added by two steps, each naming a payment of its set. -/
theorem added_trans {γ : Type} {rows rows' rows'' : List γ} {r : γ → ℕ → Prop}
    (h : ∃ new, rows' = rows ++ new ∧ ∀ x ∈ new, ∃ p ∈ s.payments, T p ∧ r x p.id)
    (h' : ∃ new, rows'' = rows' ++ new ∧ ∀ x ∈ new, ∃ p ∈ t.payments, T' p ∧ r x p.id)
    (hT : ∀ p' ∈ t.payments, T' p' → ∃ p ∈ s.payments, T p ∧ p.id = p'.id) :
    ∃ new, rows'' = rows ++ new ∧ ∀ x ∈ new, ∃ p ∈ s.payments, T p ∧ r x p.id := by
  obtain ⟨new, rfl, hnew⟩ := h
  obtain ⟨new', rfl, hnew'⟩ := h'
  refine ⟨new ++ new', List.append_assoc _ _ _, fun x hx => ?_⟩
  rcases List.mem_append.mp hx with hx | hx
  · exact hnew x hx
  · obtain ⟨p', hp', hin, hnames⟩ := hnew' x hx
    obtain ⟨p, hp, hin', hid⟩ := hT p' hp' hin
    exact ⟨p, hp, hin', by rw [hid]; exact hnames⟩

/-- What belongs to payments in `T'` afterwards belonged to payments in `T` before. -/
theorem OnlyTouches.trans (h : OnlyTouches s t T) (h' : OnlyTouches t u T')
    (hkeys : (s.payments.map (·.id)).Nodup)
    (hT : ∀ p' ∈ t.payments, T' p' → ∃ p ∈ s.payments, T p ∧ p.id = p'.id ∧
      p.controlNumber = p'.controlNumber) : OnlyTouches s u T := by
  have hids : ∀ p' ∈ t.payments, T' p' → ∃ p ∈ s.payments, T p ∧ p.id = p'.id := by
    intro p' hp' hin
    obtain ⟨p, hp, hin', hid, -⟩ := hT p' hp' hin
    exact ⟨p, hp, hin', hid⟩
  constructor
  · constructor
    · refine Support.forall₂_trans h.payments h'.payments
        fun old hold mid hmid new hfirst hsecond => ?_
      rcases hsecond with rfl | ⟨hid, hin⟩
      · exact hfirst
      · have hmidId : mid.id = old.id := by
          rcases hfirst with rfl | ⟨hsame, -⟩
          · rfl
          · exact hsame
        obtain ⟨p, hp, hin', hpid⟩ := hids mid hmid hin
        obtain rfl := Support.eq_of_key hkeys hp hold (hpid.trans hmidId)
        exact Or.inr ⟨hid.trans hmidId, hin'⟩
    · refine Support.forall₂_trans h.bills h'.bills fun old _ mid _ new hfirst hsecond => ?_
      rcases hsecond with rfl | ⟨hid, p', hp', hin, hbill⟩
      · exact hfirst
      · have hmidId : mid.id = old.id := by
          rcases hfirst with rfl | ⟨hsame, -⟩
          · rfl
          · exact hsame
        obtain ⟨p, hp, hin', -, hnumber⟩ := hT p' hp' hin
        refine Or.inr ⟨hid.trans hmidId, p, hp, hin', ?_⟩
        obtain ⟨cn, hcn, hcnid, howner⟩ := hbill
        rw [hmidId] at howner
        rw [h.controlNumbers] at hcn
        exact ⟨cn, hcn, hcnid.trans hnumber.symm, howner⟩
    · exact added_trans (r := fun (e : LedgerEntry) id => e.source = some (.payment id))
        h.ledger h'.ledger hids
    · exact added_trans h.allocations h'.allocations hids
    · exact added_trans h.receipts h'.receipts hids
  · exact added_trans
      (r := fun (e : RevenueEvent) id => e.source = .payment id) h.revenue h'.revenue hids
  · exact h'.controlNumbers.trans h.controlNumbers

/-- An outcome touches only the payment it is applied to. -/
theorem Applied.onlyTouches {env : Env} {d : Directory} {after : Payment}
    {outcome : ProviderOutcome} {ms : List Move} (h : Applied env p outcome ms after)
    (hchain : (View.alone d b).Chain ms) (hkeys : (b.payments.map (·.id)).Nodup)
    (hp : p ∈ b.payments) : OnlyTouches b (Move.runAll ms b) (· = p) where
  toConfined := h.confined hchain hkeys hp
  revenue := by
    cases h with
    | inconclusive | repeated | unknown | pending =>
        exact ⟨[], (List.append_nil _).symm, fun e he => absurd he List.not_mem_nil⟩
    | failed =>
        refine ⟨_, rfl, fun e he => ⟨p, hp, rfl, ?_⟩⟩
        rw [List.mem_singleton.mp he]
        rfl
    | successful _ x _ hpayment =>
        refine ⟨(Move.settle x).events, Move.run_revenue (.settle x) b, fun e he =>
          ⟨p, hp, rfl, ?_⟩⟩
        rw [List.mem_singleton.mp he]
        change Source.payment x.payment.id = _
        rw [hpayment]
        rfl
  controlNumbers := by
    cases h with
    | successful _ x =>
        have hsame : (Move.settle x).onControlNumber = fun row => row := rfl
        rw [Move.runAll_cons, Move.runAll_nil, Move.run_controlNumbers, hsame, List.map_id']
        exact List.append_nil _
    | _ => rfl

/-- So does a query. -/
theorem Queried.onlyTouches {env : Env} {d : Directory} {after : Payment} {result : ProviderResult}
    {ms : List Move} (h : Queried env p result ms after)
    (hchain : (View.alone d b).Chain ms) (hkeys : (b.payments.map (·.id)).Nodup)
    (hp : p ∈ b.payments) : OnlyTouches b (Move.runAll ms b) (· = p) := by
  obtain ⟨hlearned, happlied⟩ := h
  cases hlearned with
  | known => exact happlied.onlyTouches hchain hkeys hp
  | learned hblank hlength =>
      obtain ⟨-, hrest⟩ := (View.chain_append _ _ _).mp hchain
      have hid : ∀ row : Payment, row.id ≠ p.id →
          (Move.refer p.id result.providerReference none).onPayment row = row :=
        fun row hrow => if_neg hrow
      have hrefer : OnlyTouches b ((Move.refer p.id result.providerReference none).run b)
          (· = p) :=
        { toConfined := confined_run hkeys hp rfl rfl hid (fun _ => Or.inl rfl)
            (by simp [Move.postings]) (by simp [Move.allocations]) (by simp [Move.receipts])
          revenue := ⟨[], (List.append_nil _).symm, fun _ he => absurd he List.not_mem_nil⟩
          controlNumbers := rfl }
      have hkeys' : (((Move.refer p.id result.providerReference none).run b).payments.map
          (·.id)).Nodup := by
        have hids : ((Move.refer p.id result.providerReference none).run b).payments.map (·.id) =
            b.payments.map (·.id) :=
          Support.map_key (Move.refer p.id result.providerReference none).onPayment_id
        rw [hids]
        exact hkeys
      rw [View.map_alone] at hrest
      rw [Move.runAll_append]
      refine hrefer.trans (happlied.onlyTouches hrest hkeys' (mem_updatePayment hp _)) hkeys ?_
      rintro p' - rfl
      exact ⟨p, hp, rfl, rfl, rfl⟩

end OnlyTouches

end Kusanya
