import Kusanya.Invariants.BillRows

/-!
# `get_or_create_bill` replays

Run again at the moment of its commit, a call of `get_or_create_bill` gives the result it has
and the state it leaves: a key that was taken stays taken, a bill that was found is still
found, and the keys of the bill it inserted were locked, so that nobody else has them.
-/

namespace Kusanya

open ReadCommitted

section Statements

variable {D : Discipline DB Resource} {l : Local DB Resource}
variable {Q : Unit → Local DB Resource → Prop} {R : Error → Local DB Resource → Prop}

theorem checkVarchar_replays {n : ℕ} {text : String} (hQ : Varchar n text → Q () l)
    (hR : ¬Varchar n text → R .dataError l) : (checkVarchar n text).Replays D l Q R :=
  Txn.replays_ite (fun h => Txn.replays_ret (hQ h)) fun h => Txn.replays_throw (hR h)

theorem raiseIf_replays {c : Prop} [Decidable c] {e : Error} (hR : c → R e l)
    (hQ : ¬c → Q () l) : (raiseIf c e).Replays D l Q R :=
  Txn.replays_ite (fun h => Txn.replays_throw (hR h)) fun h => Txn.replays_ret (hQ h)

theorem acquireUnlessBlank_replays {text : String} {key : Resource} (hblank : text = "" → Q () l)
    (hkey : text ≠ "" → ∀ s, l.Sees D s → Q () { l with held := key :: l.held, last := s }) :
    (acquireUnlessBlank text key).Replays D l Q R :=
  Txn.replays_ite (fun h => Txn.replays_ret (hblank h)) fun h => Txn.replays_acquire (hkey h)

end Statements

section Insert

variable {l l' : Local DB Resource} {s t : DB} {bill : Bill}

/-- Keys that are locked and free stay free. -/
theorem free_of_sees (hst : l.Sees billDiscipline t) {k : Resource} (hk : k ∈ l.held)
    (hfree : ¬BillKeyTaken k l.last) : ¬BillKeyTaken k t :=
  fun htaken => hfree (hst.keeps k hk htaken)

/-- The insert: it is left with the keys of the bill, or finds one of them taken. -/
theorem insertBill_replays (hpend : l.pend = id) :
    (insertBill bill).Replays billDiscipline l
      (fun _ l' => l'.pend = inBooks (·.addBill bill) ∧
        ∀ k ∈ bill.uniqueKeys, k ∈ l'.held ∧ ¬BillKeyTaken k l'.last)
      fun e l' => e.isIntegrityError = true → Varchar 100 bill.externalReference ∧
        l.Sees billDiscipline l'.last ∧ ∃ k ∈ bill.uniqueKeys, BillKeyTaken k l'.last := by
  unfold insertBill
  refine Txn.replays_bind (checkVarchar_replays (fun hlength => ?_) fun _ he => by cases he)
  refine Txn.replays_bind (Txn.replays_acquire fun s₁ h₁ => ?_)
  refine Txn.replays_bind (Txn.replays_acquire fun s₂ h₂ => ?_)
  -- the rest runs with all keys locked
  suffices hrest : ∀ l₁ : Local DB Resource, l₁.pend = id → (∀ k ∈ bill.uniqueKeys, k ∈ l₁.held) →
      (∀ s, l₁.Sees billDiscipline s → l.Sees billDiscipline s) →
      Txn.Replays billDiscipline (do
        let clash ← Txn.fetch (.billReference bill.tenant bill.externalReference) fun db =>
          db.toBooks.billClash bill
        raiseIf clash .integrityError
        onBooks (·.addBill bill)) l₁
      (fun _ l' => l'.pend = inBooks (·.addBill bill) ∧
        ∀ k ∈ bill.uniqueKeys, k ∈ l'.held ∧ ¬BillKeyTaken k l'.last)
      fun e l' => e.isIntegrityError = true → Varchar 100 bill.externalReference ∧
        l.Sees billDiscipline l'.last ∧ ∃ k ∈ bill.uniqueKeys, BillKeyTaken k l'.last by
    refine Txn.replays_bind (acquireUnlessBlank_replays (fun hblank => ?_)
      fun hblank s₃ h₃ => ?_)
    · apply hrest
      · exact hpend
      · simp [Bill.uniqueKeys, hblank]
      · exact fun s hs => h₁.locked (h₂.locked hs)
    · apply hrest
      · exact hpend
      · simp [Bill.uniqueKeys, hblank]
      · exact fun s hs => h₁.locked (h₂.locked (h₃.locked hs))
  intro l₁ hid hheld hback
  refine Txn.replays_bind (Txn.replays_fetch fun s hs => ⟨fun t ht => ?_, ?_⟩)
  · rw [hid]
    apply Bool.eq_iff_iff.mpr
    rw [id_eq, id_eq, billClash_iff, billClash_iff]
    constructor
    · rintro ⟨k, hk, htaken⟩
      exact ⟨k, hk, ht.keeps k (hheld k hk) htaken⟩
    · rintro ⟨k, hk, htaken⟩
      exact ⟨k, hk, htaken.mono ht.evolves.2⟩
  · rw [hid, id_eq]
    refine Txn.replays_bind (raiseIf_replays (fun hclash _ => ?_) fun hclash => ?_)
    · exact ⟨hlength, hback s hs, billClash_iff.mp hclash⟩
    · refine Txn.replays_modify ⟨rfl, fun k hk => ⟨hheld k hk, fun htaken => ?_⟩⟩
      exact hclash (billClash_iff.mpr ⟨k, hk, htaken⟩)

end Insert

/-! ## An attempt -/

section Attempt

variable {l : Local DB Resource} {env : Env} {input : BillInput} {k : ℕ}

theorem dispatchBillEvent_onDirectory (env : Env) (bill : Bill)
    (totalAmount eventType : String) :
    OnDirectory (dispatchBillEvent env bill totalAmount eventType) :=
  Txn.steady_bind (getAccount_onDirectory _) fun _ => dispatchEvent_onDirectory _ _ _ _

theorem notifyBillCreated_onDirectory (env : Env) (bill : Bill) :
    OnDirectory (notifyBillCreated env bill) :=
  Txn.steady_bind (customerOf_onDirectory _) fun _ =>
    Txn.steady_bind (getTenant_onDirectory _) fun _ => sendNotification_onDirectory _ _ _ _ _ _

theorem OnDirectory.replaysUnder {α : Type} {p : Tx α} (hp : OnDirectory p)
    (hl : ∀ s, (l.pend s).toDirectory = s.toDirectory) :
    p.Replays billDiscipline l
      (fun _ l' => l'.held = l.held ∧ ∀ s, (l'.pend s).toDirectory = s.toDirectory)
      fun e _ => e.isIntegrityError = false := by
  refine (Txn.Steady.replays (D := billDiscipline) hp (fun s t h => h.1)
    fun s t hst => ?_).consequence
    (fun _ l' h => ⟨h.1, fun s => (h.2.2 s).trans (hl s)⟩) fun _ _ he => he
  exact (hl s).trans (hst.trans (hl t).symm)

/-- A savepoint of `get_or_create_bill`: it is left with the keys of its bill locked, or with
one of them taken. -/
theorem createBill_replays (hpend : l.pend = id) :
    (createBill env input k).Replays billDiscipline l
      (fun b l' => ∀ key ∈ b.uniqueKeys, key ∈ l'.held)
      fun e l' => e.isIntegrityError = true → Varchar 100 input.externalReference ∧
        l.Sees billDiscipline l'.last ∧
        ∃ key ∈ (input.newBill (env.gen.billId k) (env.gen.billNumber k)).uniqueKeys,
          BillKeyTaken key l'.last := by
  unfold createBill
  dsimp only
  generalize hbill : input.newBill (env.gen.billId k) (env.gen.billNumber k) = bill
  have hreference : bill.externalReference = input.externalReference := by
    rw [← hbill]
    rfl
  rw [← hreference]
  refine Txn.replays_bind ((insertBill_replays hpend).consequence (fun _ l₁ h₁ => ?_)
    fun e l' he => he)
  obtain ⟨hpend₁, hkeys₁⟩ := h₁
  unfold createItems
  split
  · exact Txn.replays_bind (Txn.replays_throw fun he => by cases he)
  next rows hrows =>
  refine Txn.replays_bind (Txn.replays_modify ?_)
  have hside : ∀ {α : Type} {p : Tx α} {l' : Local DB Resource}
      {Q : α → Local DB Resource → Prop}, OnDirectory p →
      (∀ s, (l'.pend s).toDirectory = s.toDirectory) → (∀ key ∈ bill.uniqueKeys, key ∈ l'.held) →
      (∀ a l'', (∀ s, (l''.pend s).toDirectory = s.toDirectory) →
        (∀ key ∈ bill.uniqueKeys, key ∈ l''.held) → Q a l'') →
      p.Replays billDiscipline l' Q fun e l' => e.isIntegrityError = true →
        Varchar 100 bill.externalReference ∧ l.Sees billDiscipline l'.last ∧
          ∃ key ∈ bill.uniqueKeys, BillKeyTaken key l'.last := by
    intro α p l' Q hp hdirectory hheld hQ
    refine (OnDirectory.replaysUnder hp hdirectory).consequence (fun a l'' h => ?_)
      fun e l'' he he' => ?_
    · exact hQ a l'' h.2 fun key hkey => h.1 ▸ hheld key hkey
    · rw [he] at he'
      cases he'
  unfold Bill.recalculateTotal
  refine Txn.replays_bind (Txn.replays_bind (Txn.replays_fetch fun s hs => ⟨fun t ht => ?_, ?_⟩))
  · -- only the new rows belong to the bill
    have hrowsOf : ∀ {u : DB}, l₁.Sees billDiscipline u →
        ((u.billItems ++ rows).filter (·.bill = bill.id)) = rows.filter (·.bill = bill.id) := by
      intro u hu
      have hid := hkeys₁ (.bill bill.id) List.mem_cons_self
      rw [List.filter_append, Books.BillTables.no_items hu.inv (free_of_sees hu hid.1 hid.2)]
      rfl
    have hs' : l₁.Sees billDiscipline s := ⟨hs.inv, hs.evolves, hs.keeps⟩
    have ht' : l₁.Sees billDiscipline t :=
      hs'.trans (fun _ hk => hk) ⟨ht.inv, ht.evolves, ht.keeps⟩
    rw [hpend₁]
    change (((t.billItems ++ rows).filter _).map _).sum =
      (((s.billItems ++ rows).filter _).map _).sum
    rw [hrowsOf hs', hrowsOf ht']
  refine Txn.replays_bind (hside (storeNumeric_onDirectory _) (fun u => by rw [hpend₁]; rfl)
    (fun key hkey => (hkeys₁ key hkey).1) fun total l₂ hdirectory₂ hheld₂ => ?_)
  refine Txn.replays_bind (Txn.replays_acquire fun s₃ h₃ => ?_)
  refine Txn.replays_bind (hside (onBooks_onDirectory _) hdirectory₂
    (fun key hkey => List.mem_cons_of_mem _ (hheld₂ key hkey)) fun _ l₄ hdirectory₄ hheld₄ => ?_)
  refine Txn.replays_ret ?_
  refine Txn.replays_bind (hside (recordAuditEvent_onDirectory _ _ _ _ _ _) hdirectory₄ hheld₄
    fun _ l₅ hdirectory₅ hheld₅ => ?_)
  refine Txn.replays_bind (hside (dispatchBillEvent_onDirectory _ _ _ _) hdirectory₅ hheld₅
    fun _ l₆ hdirectory₆ hheld₆ => ?_)
  refine Txn.replays_bind (hside (notifyBillCreated_onDirectory _ _) hdirectory₆ hheld₆
    fun _ l₇ hdirectory₇ hheld₇ => ?_)
  exact Txn.replays_ret hheld₇

theorem createBill_noRelease (env : Env) (input : BillInput) (k : ℕ) :
    (createBill env input k).NoRelease := by
  have hinsert : ∀ bill : Bill, (insertBill bill).NoRelease := by
    intro bill
    refine Txn.noRelease_bind (checkVarchar_onDirectory _ _).noRelease fun _ => ?_
    refine Txn.noRelease_bind trivial fun _ => Txn.noRelease_bind trivial fun _ => ?_
    refine Txn.noRelease_bind ?_ fun _ => Txn.noRelease_bind (fun _ => trivial) fun _ => ?_
    · unfold acquireUnlessBlank
      split <;> trivial
    · refine Txn.noRelease_bind ?_ fun _ => trivial
      unfold raiseIf
      split <;> trivial
  have hitems : ∀ (tenant bill : ℕ) (items : List ItemInput),
      (createItems tenant bill items).NoRelease := by
    intro tenant bill items
    unfold createItems
    split <;> trivial
  refine Txn.noRelease_bind (hinsert _) fun _ => Txn.noRelease_bind (hitems _ _ _) fun _ => ?_
  refine Txn.noRelease_bind ?_ fun bill => ?_
  · refine Txn.noRelease_bind (fun _ => trivial) fun sum => ?_
    refine Txn.noRelease_bind (storeNumeric_onDirectory _).noRelease fun total => ?_
    exact Txn.noRelease_bind trivial fun _ => Txn.noRelease_bind trivial fun _ => trivial
  · refine Txn.noRelease_bind (recordAuditEvent_onDirectory _ _ _ _ _ _).noRelease fun _ => ?_
    refine Txn.noRelease_bind (dispatchBillEvent_onDirectory _ _ _ _).noRelease fun _ => ?_
    exact Txn.noRelease_bind (notifyBillCreated_onDirectory _ _).noRelease fun _ => trivial

end Attempt

/-! ## The whole call -/

/-- The bill that the query for the reference finds. -/
def BillInput.existing (input : BillInput) (db : DB) : Option Bill :=
  if input.externalReference = "" then none
  else db.bills.find? fun b =>
    b.tenant = input.tenant && b.externalReference = input.externalReference

section Call

variable {l l' : Local DB Resource} {env : Env} {input : BillInput} {k left : ℕ} {s t : DB}
variable {b : Bill} {a : Bill × Bool}

theorem exec_billByReference (input : BillInput) (s : DB) :
    (billByReference input).exec s = .ok (input.existing s, s) := by
  unfold billByReference BillInput.existing
  split <;> rfl

theorem existing_mono (h : input.existing s = some b) (hst : s.bills <+: t.bills) :
    input.existing t = some b := by
  unfold BillInput.existing at h ⊢
  split at h
  · cases h
  · next hblank =>
      rw [if_neg hblank]
      exact hst.find?_eq_some h

/-- The reference is free where the keys of a new bill are. -/
theorem existing_none {bill : Bill} (htenant : bill.tenant = input.tenant)
    (hreference : bill.externalReference = input.externalReference)
    (hfree : ∀ key ∈ bill.uniqueKeys, ¬BillKeyTaken key s) : input.existing s = none := by
  unfold BillInput.existing
  split
  · rfl
  · next hblank =>
      rw [List.find?_eq_none]
      intro row hrow hsame
      simp only [Bool.and_eq_true, decide_eq_true_eq] at hsame
      exact hfree (.billReference input.tenant input.externalReference)
        (reference_mem_uniqueKeys htenant hreference hblank)
        ⟨row, hrow, reference_mem_uniqueKeys hsame.1 hsame.2 hblank⟩

/-- An attempt that fails leaves everything as it was, whatever it had written. -/
theorem exec_attempt_error {e : Error} (hpend : l.pend = id)
    (hlast : l.Sees billDiscipline l'.last) (hlength : Varchar 100 input.externalReference)
    (htaken : ∃ key ∈ (input.newBill (env.gen.billId k) (env.gen.billNumber k)).uniqueKeys,
      BillKeyTaken key l'.last)
    (he : e.isIntegrityError = true)
    (hs : (Local.mk l.held l.pend l'.last).Sees billDiscipline s) :
    l.Sees billDiscipline s ∧ (createBill env input k).exec (l.pend s) = .error e := by
  refine ⟨hlast.trans (fun _ hk => hk) hs, ?_⟩
  obtain rfl : e = .integrityError := by
    cases e <;> first | rfl | cases he
  obtain ⟨key, hkey, hkeyTaken⟩ := htaken
  have hclash := billClash_iff.mpr ⟨key, hkey, hkeyTaken.mono hs.evolves.2⟩
  rw [hpend, id_eq, createBill, Txn.exec_bind, exec_insertBill]
  have hlength' : Varchar 100 (input.newBill (env.gen.billId k)
      (env.gen.billNumber k)).externalReference := hlength
  rw [if_pos hlength', if_pos hclash]

/-- What the attempts come to, wherever they end. -/
def Settles (env : Env) (input : BillInput) (k left : ℕ) (l : Local DB Resource)
    (a : Bill × Bool) (l' : Local DB Resource) : Prop :=
  ∀ s, l'.Sees billDiscipline s → l.Sees billDiscipline s ∧
    if a.2 then
      input.existing s = none ∧ (billAttempts env input k left).exec s = .ok (a, l'.pend s)
    else input.existing s = some a.1 ∧ l'.pend s = s

/-- A failed attempt before. -/
theorem Settles.cons {e : Error} {l₁ : Local DB Resource}
    (hfailed : ∀ s, l₁.Sees billDiscipline s → l.Sees billDiscipline s ∧
      ((createBill env input k).tryAtomic Error.isIntegrityError).exec s = .ok (.error e, s))
    (h : Settles env input (k + 1) left l₁ a l') : Settles env input k (left + 1) l a l' := by
  intro s hs
  obtain ⟨hl₁, hcase⟩ := h s hs
  obtain ⟨hl, hexec⟩ := hfailed s hl₁
  refine ⟨hl, ?_⟩
  by_cases ha : a.2 = true
  · rw [if_pos ha] at hcase ⊢
    refine ⟨hcase.1, ?_⟩
    rw [billAttempts, Txn.exec_bind, hexec]
    dsimp only
    rw [Txn.exec_bind, exec_billByReference, hcase.1]
    exact hcase.2
  · rw [if_neg ha] at hcase ⊢
    exact hcase

/-- What an attempt leaves: the keys of its bill locked, or nothing at all. -/
def Attempted : Except Error Bill → Local DB Resource → Prop
  | .ok b, l' => ∀ key ∈ b.uniqueKeys, key ∈ l'.held
  | .error _, l' => l'.pend = id

theorem billAttempts_lwp (left : ℕ) (hpend : l.pend = id) :
    (billAttempts env input k left).lwp billDiscipline l
      (fun a l' => Settles env input k left l a l' ∧
        (a.2 = true → ∀ key ∈ a.1.uniqueKeys, key ∈ l'.held)) fun _ _ => True := by
  induction left generalizing k l with
  | zero => trivial
  | succ left ih =>
      unfold billAttempts
      rw [Txn.lwp_bind]
      -- the savepoint of this attempt
      have hcreate : (createBill env input k).Replays billDiscipline l _ _ :=
        createBill_replays hpend
      have hattempt := Txn.replays_tryAtomic
        (Q := Attempted)
        (R := fun _ _ => True) (createBill_noRelease env input k)
        (hcreate.consequence
          (fun b l' h => h) fun e l' he => by
            show if Error.isIntegrityError e then _ else _
            split
            · next hcaught =>
                obtain ⟨hlength, hlast, htaken⟩ := he hcaught
                exact ⟨fun s hs => exec_attempt_error hpend hlast hlength htaken hcaught hs, hpend⟩
            · trivial)
      refine Txn.lwp_consequence hattempt (fun r l₁ h => ?_) fun _ _ _ => trivial
      obtain ⟨hrepeats, hr⟩ := h
      rw [Txn.Repeats, hpend] at hrepeats
      cases r with
      | ok b =>
          refine ⟨fun s hs => ⟨(hrepeats s hs).1, ?_⟩, fun _ => hr⟩
          have hexec := (hrepeats s hs).2
          rw [if_pos rfl]
          constructor
          · rw [Txn.exec_tryAtomic] at hexec
            cases hcreate : (createBill env input k).exec s with
            | error e =>
                simp only [id_eq, hcreate] at hexec
                split at hexec <;> cases hexec
            | ok r =>
                simp only [id_eq, hcreate, Except.ok.injEq, Prod.mk.injEq] at hexec
                obtain ⟨rfl, -⟩ := hexec
                obtain ⟨rows, hrows, hb, -, hfree⟩ := createBill_exec hs.inv hcreate
                obtain ⟨j, total, hbill⟩ := hrows.bill
                rw [hb] at hbill
                exact existing_none (by rw [hbill]; rfl) (by rw [hbill]; rfl) hfree
          · rw [billAttempts, Txn.exec_bind]
            rw [id_eq] at hexec
            rw [hexec]
            rfl
      | error e =>
          have hpend₁ : l₁.pend = id := hr
          simp only [hpend₁, id_eq] at hrepeats
          rw [Txn.lwp_bind]
          unfold billByReference
          rw [Txn.lwp_ite]
          have hnext : ∀ l₂ : Local DB Resource, l₂.pend = id →
              (∀ s, l₂.Sees billDiscipline s → l₁.Sees billDiscipline s) →
              (billAttempts env input (k + 1) left).lwp billDiscipline l₂
                (fun a l' => Settles env input k (left + 1) l a l' ∧
                  (a.2 = true → ∀ key ∈ a.1.uniqueKeys, key ∈ l'.held)) fun _ _ => True := by
            intro l₂ hpend₂ hback
            refine Txn.lwp_consequence (ih hpend₂) (fun a l' h => ⟨?_, h.2⟩) fun _ _ h => h
            exact h.1.cons fun s hs => hrepeats s (hback s hs)
          refine ⟨fun _ => hnext l₁ hpend₁ fun _ hs => hs, fun hblank s₂ h₂ => ?_⟩
          have hlookup : ((l₁.pend s₂).bills.find? fun b =>
              b.tenant = input.tenant && b.externalReference = input.externalReference) =
                input.existing s₂ := by
            rw [hpend₁, BillInput.existing, if_neg hblank]
            rfl
          dsimp only
          rw [hlookup]
          cases hfound : input.existing s₂ with
          | none => exact hnext _ hpend₁ fun s hs => h₂.trans (fun _ hk => hk) hs
          | some existing =>
              refine ⟨fun s hs => ⟨(hrepeats s (h₂.trans (fun _ hk => hk) hs)).1, ?_⟩,
                fun h => by cases h⟩
              rw [if_neg Bool.false_ne_true]
              exact ⟨existing_mono hfound hs.evolves.2, congrFun hpend₁ s⟩

/-- `get_or_create_bill` replays, with the keys of a bill it created locked. -/
theorem getOrCreateBill_replays (env : Env) (input : BillInput) (start : DB) :
    (getOrCreateBill env input).Replays billDiscipline (Local.fresh start)
      (fun a l' => a.2 = true → ∀ key ∈ a.1.uniqueKeys, key ∈ l'.held) fun _ _ => True := by
  have hattempts : ∀ l : Local DB Resource, l.pend = id →
      (∀ s, l.Sees billDiscipline s → (Local.fresh start).Sees billDiscipline s) →
      (billAttempts env input 0 3).lwp billDiscipline l
        (fun a l' => (getOrCreateBill env input).Repeats billDiscipline (Local.fresh start) a l' ∧
          (a.2 = true → ∀ key ∈ a.1.uniqueKeys, key ∈ l'.held)) fun _ _ => True := by
    intro l hpend hback
    refine Txn.lwp_consequence (billAttempts_lwp 3 hpend) (fun a l' h => ⟨fun s hs => ?_, h.2⟩)
      fun _ _ h => h
    obtain ⟨hl, hcase⟩ := h.1 s hs
    refine ⟨hback s hl, ?_⟩
    change (getOrCreateBill env input).exec s = _
    rw [getOrCreateBill, Txn.exec_bind, exec_billByReference]
    by_cases ha : a.2 = true
    · rw [if_pos ha] at hcase
      rw [hcase.1]
      exact hcase.2
    · rw [if_neg ha] at hcase
      rw [hcase.1, hcase.2]
      exact congrArg (fun created => Except.ok ((a.1, created), s)) (Bool.eq_false_iff.mpr ha).symm
  unfold Txn.Replays getOrCreateBill
  rw [Txn.lwp_bind]
  unfold billByReference
  rw [Txn.lwp_ite]
  refine ⟨fun _ => hattempts _ rfl fun _ hs => hs, fun hblank s₁ h₁ => ?_⟩
  cases hfound : s₁.bills.find? fun b =>
      b.tenant = input.tenant && b.externalReference = input.externalReference with
  | none =>
      simp only [Local.fresh, id_eq, hfound]
      exact hattempts _ rfl fun s hs => h₁.trans (fun _ hk => hk) hs
  | some existing =>
      simp only [Local.fresh, id_eq, hfound]
      refine ⟨fun s hs => ⟨h₁.trans (fun _ hk => hk) hs, ?_⟩, fun h => by cases h⟩
      have hexisting : input.existing s = some existing := by
        refine existing_mono (s := s₁) ?_ hs.evolves.2
        rw [BillInput.existing, if_neg hblank]
        exact hfound
      change (getOrCreateBill env input).exec s = .ok ((existing, false), s)
      rw [getOrCreateBill, Txn.exec_bind, exec_billByReference, hexisting]
      rfl

/-- What a call does that runs alone: it finds the bill, or it adds the rows of a new one. -/
inductive BillOutcome (env : Env) (input : BillInput) (s : DB) : Bill × Bool → DB → Prop
  | existing {b : Bill} (h : input.existing s = some b) : BillOutcome env input s (b, false) s
  | created {rows : BillRows} (h : rows.Of env input s)
      (free : ∀ key ∈ rows.bill.uniqueKeys, ¬BillKeyTaken key s) :
      BillOutcome env input s (rows.bill, true) (rows.addTo s)

theorem billAttempts_exec (hs : s.toBooks.BillTables)
    (h : (billAttempts env input k left).exec s = .ok (a, t)) : BillOutcome env input s a t := by
  induction left generalizing k with
  | zero => cases h
  | succ left ih =>
      rw [billAttempts, Txn.exec_bind, Txn.exec_tryAtomic] at h
      cases hcreate : (createBill env input k).exec s with
      | ok r =>
          rw [hcreate] at h
          obtain ⟨rfl, rfl⟩ := Prod.mk.inj (Except.ok.inj h)
          obtain ⟨rows, hrows, hb, ht, hfree⟩ := createBill_exec hs hcreate
          rw [← hb] at hfree ⊢
          rw [ht]
          exact .created hrows hfree
      | error e =>
          rw [hcreate] at h
          by_cases hcaught : e.isIntegrityError = true
          · simp only [hcaught, if_true] at h
            rw [Txn.exec_bind, exec_billByReference] at h
            cases hexisting : input.existing s with
            | some b =>
                rw [hexisting] at h
                obtain ⟨rfl, rfl⟩ := Prod.mk.inj (Except.ok.inj h)
                exact .existing hexisting
            | none =>
                rw [hexisting] at h
                exact ih h
          · simp [hcaught] at h

theorem getOrCreateBill_exec (hs : s.toBooks.BillTables)
    (h : (getOrCreateBill env input).exec s = .ok (a, t)) : BillOutcome env input s a t := by
  rw [getOrCreateBill, Txn.exec_bind, exec_billByReference] at h
  cases hexisting : input.existing s with
  | some b =>
      rw [hexisting] at h
      obtain ⟨rfl, rfl⟩ := Prod.mk.inj (Except.ok.inj h)
      exact .existing hexisting
  | none =>
      rw [hexisting] at h
      exact billAttempts_exec hs h

end Call

end Kusanya
