import Kusanya.Invariants.BillReplay
import Kusanya.Invariants.PaymentLocks
import Kusanya.System.EveryRequest

/-!
# The primary keys of bills and control numbers

A bill and a control number are inserted under the lock of their primary key, once the statement
has found it free; no other statement changes a primary key.  So the ids are unique in every
committed state of every schedule, whatever the identifiers that requests draw.
-/

namespace Kusanya

open ReadCommitted

/-- The primary keys of the bills and the control numbers. -/
def Books.ids (b : Books) : List Resource :=
  b.bills.map (fun bill => Resource.bill bill.id) ++
    b.controlNumbers.map fun cn => Resource.controlNumber cn.id

def DB.ids (s : DB) : List Resource := s.toBooks.ids

theorem ids_of_core {s t : DB} (h : s.core = t.core) : s.ids = t.ids :=
  congrArg (fun core : Directory × Books => core.2.ids) h

/-! ## Statements that insert neither -/

/-- A program that leaves the ids as they are, and gives no lock back. -/
structure KeepsIds {α : Type} (p : Tx α) : Prop where
  frame : Txn.Frame DB.ids (fun _ => True) p
  noRelease : p.NoRelease

section Keeping

variable {α β : Type}

theorem keepsIds_ret (a : α) : KeepsIds (.ret a : Tx α) where
  frame := Txn.frame_ret a
  noRelease := trivial

theorem keepsIds_throw (e : Error) : KeepsIds (.throw e : Tx α) where
  frame := Txn.frame_throw trivial
  noRelease := trivial

theorem keepsIds_fetch (k : Resource) (q : DB → α) : KeepsIds (.fetch k q) where
  frame := Txn.frame_fetch k q
  noRelease _ := trivial

theorem keepsIds_acquire (k : Resource) : KeepsIds (.acquire k) where
  frame _ _ := rfl
  noRelease := trivial

theorem keepsIds_onBooks {w : Books → Books} (hw : ∀ b, (w b).ids = b.ids) :
    KeepsIds (onBooks w) where
  frame := Txn.frame_modify fun s => hw s.toBooks
  noRelease := trivial

theorem keepsIds_bind {p : Tx α} {f : α → Tx β} (hp : KeepsIds p) (hf : ∀ a, KeepsIds (f a)) :
    KeepsIds (p >>= f) where
  frame := Txn.frame_bind hp.frame fun a => (hf a).frame
  noRelease := Txn.noRelease_bind hp.noRelease fun a => (hf a).noRelease

theorem keepsIds_ite {c : Prop} [Decidable c] {p q : Tx α} (hp : KeepsIds p) (hq : KeepsIds q) :
    KeepsIds (if c then p else q) := by
  split
  · exact hp
  · exact hq

/-- What writes on the side only. -/
theorem keepsIds_onTrail {p : Tx α} (hp : OnTrail p) (hnoRelease : p.NoRelease) : KeepsIds p where
  frame _ := hp.wp (fun _ _ h s => ids_of_core (h s)) fun _ _ _ h =>
    ⟨trivial, fun s => ids_of_core (h s)⟩
  noRelease := hnoRelease

theorem keepsIds_getRow (what : Resource) (q : DB → Option α) : KeepsIds (getRow what q) := by
  apply keepsIds_bind (keepsIds_fetch _ _)
  intro row
  cases row with
  | none => exact keepsIds_throw _
  | some row => exact keepsIds_ret row

theorem keepsIds_getOr404 (what : Resource) (q : DB → Option α) : KeepsIds (getOr404 what q) := by
  apply keepsIds_bind (keepsIds_fetch _ _)
  intro row
  cases row with
  | none => exact keepsIds_throw _
  | some row => exact keepsIds_ret row

theorem keepsIds_raiseIf (c : Prop) [Decidable c] (e : Error) : KeepsIds (raiseIf c e) :=
  keepsIds_ite (keepsIds_throw e) (keepsIds_ret _)

theorem keepsIds_checkVarchar (n : ℕ) (text : String) : KeepsIds (checkVarchar n text) :=
  keepsIds_ite (keepsIds_ret _) (keepsIds_throw _)

theorem keepsIds_acquireUnlessBlank (text : String) (k : Resource) :
    KeepsIds (acquireUnlessBlank text k) :=
  keepsIds_ite (keepsIds_ret _) (keepsIds_acquire k)

theorem keepsIds_storeNumeric (m : Money) : KeepsIds (storeNumeric m) := by
  apply keepsIds_onTrail (storeNumeric_onTrail m)
  exact (storeNumeric_onDirectory m).noRelease

theorem keepsIds_recordAuditEvent (env : Env) (action : String) (tenant : Option ℕ)
    (target : Option Source) (after metadata : List (String × String)) :
    KeepsIds (recordAuditEvent env action tenant target after metadata) :=
  keepsIds_bind (keepsIds_raiseIf _ _) fun _ => keepsIds_onTrail (onTrail_onTrail _) trivial

/-- An `UPDATE` of bills keeps their ids. -/
theorem ids_updateBill (b : Books) (id : ℕ) {f : Bill → Bill} (hf : ∀ row, (f row).id = row.id) :
    (b.updateBill id f).ids = b.ids := by
  have hrow : ∀ row : Bill, (if row.id = id then f row else row).id = row.id := by
    intro row
    split
    · exact hf row
    · rfl
  change (b.bills.map fun row => if row.id = id then f row else row).map _ ++ _ = _
  rw [List.map_map]
  exact congrArg (· ++ _) (List.map_congr_left fun row _ => congrArg Resource.bill (hrow row))

theorem keepsIds_billTransitionTo (env : Env) (bill : Bill) (newStatus : BillStatus) :
    KeepsIds (bill.transitionTo env newStatus) := by
  apply keepsIds_bind (keepsIds_raiseIf _ _)
  intro _
  apply keepsIds_bind (keepsIds_acquire _)
  intro _
  refine keepsIds_bind (keepsIds_onBooks fun b => ids_updateBill b bill.id ?_) ?_
  · exact fun _ => rfl
  · exact fun _ => keepsIds_ret _

theorem keepsIds_createItems (tenant bill : ℕ) (items : List ItemInput) :
    KeepsIds (createItems tenant bill items) := by
  unfold createItems
  split
  · exact keepsIds_throw _
  · exact keepsIds_onBooks fun _ => rfl

theorem keepsIds_recalculateTotal (bill : Bill) : KeepsIds bill.recalculateTotal := by
  apply keepsIds_bind (keepsIds_fetch _ _)
  intro sum
  apply keepsIds_bind (keepsIds_storeNumeric _)
  intro total
  apply keepsIds_bind (keepsIds_acquire _)
  intro _
  refine keepsIds_bind (keepsIds_onBooks fun b => ids_updateBill b bill.id ?_) ?_
  · exact fun _ => rfl
  · exact fun _ => keepsIds_ret _

theorem keepsIds_billByReference (input : BillInput) : KeepsIds (billByReference input) :=
  keepsIds_ite (keepsIds_ret _) (keepsIds_fetch _ _)

theorem keepsIds_postEntry (env : Env) (tenant : ℕ) (entryType : LedgerEntryType)
    (account : LedgerAccount) (amount : Numeric) (currency reference : String)
    (source : Option Source) (relatedEntry : Option Posting) (metadata : List (String × String)) :
    KeepsIds (postEntry env tenant entryType account amount currency reference source relatedEntry
      metadata) :=
  keepsIds_bind (keepsIds_raiseIf _ _) fun _ =>
    keepsIds_bind (keepsIds_onBooks fun _ => rfl) fun _ => keepsIds_ret _

theorem keepsIds_recordEvent (env : Env) (tenant : ℕ) (eventType : RevenueEventType)
    (amount : Numeric) (currency : String) (source : Source) (ledgerEntry : Option LedgerEntry)
    (metadata : List (String × String)) :
    KeepsIds (recordEvent env tenant eventType amount currency source ledgerEntry metadata) :=
  keepsIds_bind (keepsIds_raiseIf _ _) fun _ => keepsIds_onBooks fun _ => rfl

/-- `record_control_number_created`, and the notification after it. -/
theorem keepsIds_chargeNumber (env : Env) (tenant : ℕ) (cn : ControlNumber) :
    KeepsIds (chargeNumber env tenant cn) := by
  apply keepsIds_bind (keepsIds_recordAuditEvent _ _ _ _ _ _)
  intro _
  apply keepsIds_bind
  · apply keepsIds_bind (keepsIds_getRow _ _)
    intro row
    exact keepsIds_bind (keepsIds_postEntry _ _ _ _ _ _ _ _ _ _) fun _ =>
      keepsIds_recordEvent _ _ _ _ _ _ _ _
  · intro _
    apply keepsIds_bind
    · exact keepsIds_onTrail (notifyControlNumberGenerated_onTrail _ _)
        (notifyControlNumberGenerated_lockFree _ _).noRelease
    · exact fun _ => keepsIds_ret _

theorem keepsIds_recordControlNumberReused (env : Env) (cn : ControlNumber) :
    KeepsIds (recordControlNumberReused env cn) := by
  apply keepsIds_bind (keepsIds_getRow _ _)
  exact fun _ => keepsIds_recordEvent _ _ _ _ _ _ _ _

end Keeping

/-! ## Inserts -/

/-- The program inserts only under primary keys that it has locked and found free. -/
abbrev Inserts {α : Type} (p : Tx α) : Prop :=
  ∀ held, p.Maintains (Discipline.unique DB.ids) (Inserting DB.ids) held fun _ _ => True

section Inserts

variable {α β : Type}

theorem KeepsIds.inserts {p : Tx α} (hp : KeepsIds p) : Inserts p :=
  fun _ => Txn.maintains_frame hp.frame hp.noRelease

theorem inserts_bind {p : Tx α} {f : α → Tx β} (hp : Inserts p) (hf : ∀ a, Inserts (f a)) :
    Inserts (p >>= f) :=
  fun held => Txn.maintains_bind (hp held) fun a held' _ _ => hf a held'

theorem inserts_tryAtomic {p : Tx α} {catches : Error → Bool} (hp : Inserts p)
    (hnoRelease : p.NoRelease) : Inserts (p.tryAtomic catches) :=
  fun held => Txn.maintains_tryAtomic lasting_inserting hnoRelease (hp held) fun _ => trivial

/-- An insert: with the primary key locked, the query for a clash comes first. -/
theorem inserts_row {k what : Resource} {clash : DB → Bool} {w : DB → DB} {held : List Resource}
    (hk : k ∈ held) (hclash : ∀ s, k ∈ s.ids → clash s = true)
    (hw : ∀ s, (w s).ids.Perm (k :: s.ids)) :
    (do
      let found ← Txn.fetch what clash
      raiseIf found Error.integrityError
      Txn.modify w : Tx Unit).Maintains (Discipline.unique DB.ids) (Inserting DB.ids) held
      fun _ _ => True := by
  rintro l rfl hl hinv
  rw [Txn.lwp_bind, Txn.lwp_fetch]
  intro s hs
  have hseen : Inserting DB.ids { l with last := s } := lasting_inserting.sees hl hs
  have hleads : Txn.Leads (Discipline.unique DB.ids) (Inserting DB.ids) l { l with last := s } :=
    ⟨hseen, hs.inv, fun _ hk => hk, hs⟩
  rw [Txn.lwp_bind]
  unfold raiseIf
  rw [Txn.lwp_ite]
  constructor
  · exact fun _ => hleads
  · intro hfree
    have hnew : k ∉ DB.ids (l.pend s) := fun hin => hfree (hclash _ hin)
    exact ⟨trivial, hseen.insert hk hnew hw, hs.inv, fun _ hk => hk, hs⟩

theorem inserts_insertBill (bill : Bill) : Inserts (insertBill bill) := by
  intro held
  apply Txn.maintains_bind ((keepsIds_checkVarchar _ _).inserts held)
  intro _ held₁ _ _
  apply Txn.maintains_bind (Txn.maintains_acquire (Q := fun _ held' => .bill bill.id ∈ held')
    lasting_inserting List.mem_cons_self)
  intro _ held₂ _ hlocked
  apply Txn.maintains_bind ((keepsIds_acquire _).inserts held₂)
  intro _ held₃ hheld₃ _
  apply Txn.maintains_bind ((keepsIds_acquireUnlessBlank _ _).inserts held₃)
  intro _ held₄ hheld₄ _
  refine inserts_row (hheld₄ _ (hheld₃ _ hlocked)) (fun s hs => ?_) fun s => ?_
  · rcases List.mem_append.mp hs with hs | hs
    · obtain ⟨row, hrow, hid⟩ := List.mem_map.mp hs
      refine List.any_eq_true.mpr ⟨row, hrow, ?_⟩
      simp [Resource.bill.inj hid]
    · obtain ⟨row, -, hid⟩ := List.mem_map.mp hs
      cases hid
  · change ((s.bills ++ [bill]).map _ ++ _).Perm _
    rw [List.map_append, List.append_assoc]
    exact List.perm_middle

theorem inserts_insertControlNumber (cn : ControlNumber) : Inserts (insertControlNumber cn) := by
  intro held
  apply Txn.maintains_bind (Txn.maintains_acquire
    (Q := fun _ held' => .controlNumber cn.id ∈ held') lasting_inserting List.mem_cons_self)
  intro _ held₁ _ hlocked
  apply Txn.maintains_bind ((keepsIds_acquire _).inserts held₁)
  intro _ held₂ hheld₂ _
  apply Txn.maintains_bind ((keepsIds_acquire _).inserts held₂)
  intro _ held₃ hheld₃ _
  refine inserts_row (hheld₃ _ (hheld₂ _ hlocked)) (fun s hs => ?_) fun s => ?_
  · rcases List.mem_append.mp hs with hs | hs
    · obtain ⟨row, -, hid⟩ := List.mem_map.mp hs
      cases hid
    · obtain ⟨row, hrow, hid⟩ := List.mem_map.mp hs
      refine List.any_eq_true.mpr ⟨row, hrow, ?_⟩
      simp [Resource.controlNumber.inj hid]
  · change (_ ++ (s.controlNumbers ++ [cn]).map _).Perm _
    rw [List.map_append, ← List.append_assoc]
    exact List.perm_append_singleton _ _

/-- The savepoint of `get_or_create_bill`. -/
theorem inserts_createBill (env : Env) (input : BillInput) (k : ℕ) :
    Inserts (createBill env input k) := by
  apply inserts_bind (inserts_insertBill _)
  intro _
  refine KeepsIds.inserts (keepsIds_bind (keepsIds_createItems _ _ _) fun _ => ?_)
  apply keepsIds_bind (keepsIds_recalculateTotal _)
  intro bill
  apply keepsIds_bind (keepsIds_recordAuditEvent _ _ _ _ _ _)
  intro _
  apply keepsIds_bind (keepsIds_onTrail (dispatchBillEvent_onTrail _ _ _ _)
    (dispatchBillEvent_onDirectory _ _ _ _).noRelease)
  intro _
  apply keepsIds_bind (keepsIds_onTrail (notifyBillCreated_onTrail _ _)
    (notifyBillCreated_onDirectory _ _).noRelease)
  exact fun _ => keepsIds_ret _

theorem inserts_billAttempts (env : Env) (input : BillInput) (left k : ℕ) :
    Inserts (billAttempts env input k left) := by
  induction left generalizing k with
  | zero => exact (keepsIds_throw _).inserts
  | succ left ih =>
      apply inserts_bind (inserts_tryAtomic (inserts_createBill _ _ _) (createBill_noRelease _ _ _))
      intro result
      cases result with
      | ok bill => exact (keepsIds_ret _).inserts
      | error e =>
          apply inserts_bind (keepsIds_billByReference input).inserts
          intro found
          cases found with
          | none => exact ih (k + 1)
          | some existing => exact (keepsIds_ret _).inserts

theorem inserts_getOrCreateBill (env : Env) (input : BillInput) :
    Inserts (getOrCreateBill env input) := by
  apply inserts_bind (keepsIds_billByReference input).inserts
  intro found
  cases found with
  | none => exact inserts_billAttempts env input 3 0
  | some existing => exact (keepsIds_ret _).inserts

/-- The savepoint of a `get_or_create_for_…`. -/
theorem inserts_createControlNumber (env : Env) (tenant : ℕ) (owner : Owner)
    (scope : ControlNumberScope) (expiresAt : Option Time) (k : ℕ) :
    Inserts (createControlNumber env tenant owner scope expiresAt k) := by
  change Inserts (do
    insertControlNumber _
    chargeNumber env tenant _)
  exact inserts_bind (inserts_insertControlNumber _) fun _ => (keepsIds_chargeNumber _ _ _).inserts

section Numbers

variable {env : Env} {tenant : ℕ} {owner : Owner} {scope : ControlNumberScope}
variable {expiresAt : Option Time} {lookup : Tx (Option ControlNumber)}

theorem inserts_controlNumberAttempts (hlookup : KeepsIds lookup) (left k : ℕ) :
    Inserts (controlNumberAttempts env lookup (createControlNumber env tenant owner scope expiresAt)
      k left) := by
  induction left generalizing k with
  | zero => exact (keepsIds_throw _).inserts
  | succ left ih =>
      apply inserts_bind (inserts_tryAtomic (inserts_createControlNumber _ _ _ _ _ _)
        (createControlNumber_noRelease _ _ _ _ _ _))
      intro result
      cases result with
      | ok cn => exact (keepsIds_ret _).inserts
      | error e =>
          apply inserts_bind hlookup.inserts
          intro found
          cases found with
          | none => exact ih (k + 1)
          | some existing => exact (keepsIds_ret _).inserts

theorem inserts_getOrCreateControlNumber (hlookup : KeepsIds lookup) :
    Inserts (getOrCreateControlNumber env tenant lookup
      (createControlNumber env tenant owner scope expiresAt)) := by
  apply inserts_bind hlookup.inserts
  intro found
  cases found with
  | none => exact inserts_controlNumberAttempts hlookup 5 0
  | some existing =>
      apply inserts_bind (keepsIds_recordAuditEvent _ _ _ _ _ _).inserts
      intro _
      apply inserts_bind (keepsIds_recordControlNumberReused _ _).inserts
      exact fun _ => (keepsIds_ret _).inserts

end Numbers

end Inserts

/-! ## Requests -/

/-- The requests that insert a bill or a control number. -/
def Action.insertsRows : Action → Bool
  | .billCreate _ | .billListCreate _ | .billRequestControlNumber ..
  | .accountRequestControlNumber .. => true
  | _ => false

theorem inserts_handler {request : Request} (h : request.action.insertsRows = true) :
    Inserts request.handler := by
  obtain ⟨env, action⟩ := request
  cases action with
  | billCreate input =>
      apply inserts_bind (keepsIds_getOr404 _ _).inserts
      intro _
      apply inserts_bind (inserts_getOrCreateBill env input)
      rintro ⟨bill, created⟩
      cases created with
      | false => exact (keepsIds_ret _).inserts
      | true =>
          apply inserts_bind (keepsIds_billTransitionTo _ _ _).inserts
          intro bill
          apply inserts_bind (inserts_getOrCreateControlNumber (keepsIds_fetch _ _))
          exact fun _ => (keepsIds_ret _).inserts
  | billListCreate input =>
      apply inserts_bind (keepsIds_getOr404 _ _).inserts
      intro _
      apply inserts_bind (inserts_getOrCreateBill env input)
      rintro ⟨bill, created⟩
      cases created with
      | false => exact (keepsIds_ret _).inserts
      | true =>
          apply inserts_bind (keepsIds_billTransitionTo _ _ _).inserts
          exact fun _ => (keepsIds_ret _).inserts
  | billRequestControlNumber tenant pk =>
      apply inserts_bind (keepsIds_getOr404 _ _).inserts
      intro bill
      apply inserts_bind (inserts_getOrCreateControlNumber (keepsIds_fetch _ _))
      exact fun _ => (keepsIds_ret _).inserts
  | accountRequestControlNumber tenant pk expiresAt =>
      apply inserts_bind (keepsIds_getOr404 _ _).inserts
      intro account
      apply inserts_bind (inserts_getOrCreateControlNumber (keepsIds_fetch _ _))
      exact fun _ => (keepsIds_ret _).inserts
  | _ => cases h

/-- The move inserts neither a bill nor a control number. -/
def Move.KeepsRows (m : Move) : Prop := m.openedBills = [] ∧ m.issued = []

theorem Works.keepsRows {ms : List Move} (h : Works ms) : ∀ m ∈ ms, m.KeepsRows := by
  intro m hm
  have hworks := h m hm
  cases m <;> first | exact ⟨rfl, rfl⟩ | cases hworks

theorem Action.Acts.keepsRows {view : View} {env : Env} {action : Action} {ms : List Move}
    (h : action.Acts view env ms) (hnot : action.insertsRows = false) : ∀ m ∈ ms, m.KeepsRows := by
  have hone : ∀ {m : Move}, m.KeepsRows → ms = [m] → ∀ m ∈ ms, m.KeepsRows := by
    rintro m hm rfl m' hm'
    rw [List.mem_singleton.mp hm']
    exact hm
  have hworks : Works ms ∨ Undoes ms → ∀ m ∈ ms, m.KeepsRows := by
    rintro (hworks | ⟨_, _, _, _, hms⟩)
    · exact hworks.keepsRows
    · exact hone ⟨rfl, rfl⟩ hms
  cases action with
  | billCancel =>
      rcases h with rfl | ⟨bill, -, -, -, hms⟩
      · exact fun m hm => absurd hm List.not_mem_nil
      · exact hone ⟨rfl, rfl⟩ hms
  | controlNumberCancel =>
      obtain ⟨cn, -, -, -, hms⟩ := h
      exact hone ⟨rfl, rfl⟩ hms
  | expireOverdue =>
      obtain ⟨locked, -, hms⟩ := h
      exact hone ⟨rfl, rfl⟩ hms
  | generateBatch =>
      obtain ⟨batch, claimed, -, hms⟩ := h
      exact hone ⟨rfl, rfl⟩ hms
  | markCompleted => exact hone ⟨rfl, rfl⟩ h
  | payBill | paymentListCreate | paymentQuery | paymentRefund | paymentReverse
  | providerCallback | triggerRun => exact hworks (Action.Acts.works h rfl)
  | changeFeeRefundPolicy | changeDefaultCurrency => cases h
  | _ => cases hnot

/-- Moves that insert neither keep the ids. -/
theorem runAll_ids {view : View} {ms : List Move} {b : Books} (h : ∀ m ∈ ms, m.KeepsRows)
    (hchain : view.Chain ms) : (Move.runAll ms b).ids = b.ids := by
  induction ms generalizing view b with
  | nil => rfl
  | cons m ms ih =>
      obtain ⟨⟨hbills, hissued⟩, hms⟩ := List.forall_mem_cons.mp h
      obtain ⟨hguard, hrest⟩ := hchain
      rw [Move.runAll_cons, ih hms hrest]
      unfold Books.ids
      rw [m.run_bills, m.run_controlNumbers, hbills, hissued, List.append_nil, List.append_nil,
        List.map_map, List.map_map]
      congr 1
      · exact List.map_congr_left fun row _ => congrArg Resource.bill (m.onBill_id row)
      · exact List.map_congr_left fun row _ => congrArg
          (fun f : ControlNumber.Fixed => Resource.controlNumber f.id)
          (Move.onControlNumber_fixed hguard row)

/-- Every request keeps the ids unique. -/
theorem keepsTo_unique (request : Request) {start : DB} (hids : start.ids.Nodup) :
    request.KeepsTo (Discipline.unique DB.ids)
      (fun l => request.action.insertsRows = true → Inserting DB.ids l) start where
  ends := by
    by_cases hinserts : request.action.insertsRows = true
    · refine Txn.lwp_consequence (Txn.lwp_weaken (fun _ _ hs => hs.right)
        (inserts_handler hinserts [] (Local.fresh start) rfl (inserting_untouched rfl) hids))
        (fun _ _ h _ => h.2.kept) fun _ _ _ => trivial
    · refine Txn.lwp_consequence (Txn.lwp_of_wp (φ := fun _ _ => True) (fun _ _ _ _ => trivial)
        (Txn.wp_trivial request.handler)) (fun _ _ _ h => absurd h hinserts) fun _ _ _ => trivial
  honours := by
    intro l s seen hknows hs hcommits
    by_cases hinserts : request.action.insertsRows = true
    · obtain ⟨hnodup, hkeeps⟩ := (hknows hinserts).commit hs
      exact ⟨hnodup, trivial, hkeeps⟩
    · have hsame : DB.ids (l.pend s) = DB.ids s := by
        cases hcommits with
        | saved _ _ hsaved =>
            obtain ⟨-, -, -, hbooks⟩ := hsaved
            exact congrArg Books.ids hbooks
        | @acted ms hacts hchain _ hbooks _ =>
            have hrows := hacts.keepsRows (Bool.eq_false_of_not_eq_true hinserts)
            exact (congrArg Books.ids hbooks).trans (runAll_ids hrows hchain)
      refine ⟨?_, trivial, fun k _ hfree => ?_⟩
      · change (DB.ids (l.pend s)).Nodup
        rw [hsame]
        exact hs.inv
      · rw [hsame]
        exact hfree

end Kusanya
