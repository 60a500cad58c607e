import Kusanya.Moves.Retries
import Kusanya.System.RowIdentity

/-!
# Retries next to every other request

A payment and a callback event are inserted under the locks of their unique columns, once the
statement has found these free.  So the columns are unique in every committed state of every
schedule.  Once an initiation has committed under an idempotency key, every later one under this key
leaves the money tables alone; once a provider's event has been recorded, every later delivery of
it is only noted.
-/

namespace Kusanya

open ReadCommitted

def DB.uniqueKeys (s : DB) : List Resource := s.toBooks.uniqueKeys

/-! ## What is locked before it is inserted -/

/-- The transaction has added no unique key, or it has reserved those in `ks`. -/
def Prepared (ks : List Resource) (l : Local DB Resource) : Prop :=
  (∀ s, DB.uniqueKeys (l.pend s) = DB.uniqueKeys s) ∨ Reserved DB.uniqueKeys ks l

/-- A transaction that adds nothing, or all that it was prepared for. -/
theorem Prepared.inserting {ks : List Resource} {l : Local DB Resource} (h : Prepared ks l)
    (hnodup : ks.Nodup) (hadded : (∀ s, (DB.uniqueKeys (l.pend s)).Perm (DB.uniqueKeys s)) ∨
      ∀ s, (DB.uniqueKeys (l.pend s)).Perm (ks ++ DB.uniqueKeys s)) :
    Inserting DB.uniqueKeys l := by
  rcases h with hkept | hreserved
  · apply inserting_kept
    intro s
    rw [hkept s]
  · rcases hadded with hkept | hadded
    · exact inserting_kept hkept
    · exact hreserved.inserting hnodup hadded

section Preparing

variable {α : Type} {env : Env} {l : Local DB Resource}

/-- A program that adds no unique key. -/
theorem lwp_prepared {p : Tx α} {ks : List Resource}
    (hp : Txn.Frame DB.uniqueKeys (fun _ => True) p)
    (hkept : ∀ s, DB.uniqueKeys (l.pend s) = DB.uniqueKeys s) :
    p.lwp (Discipline.unique DB.uniqueKeys) l (fun _ l' => Prepared ks l') fun _ _ => True := by
  have hwp : p.wp (fun _ => True) (fun _ _ => True) l.pend
      (fun _ pend' => ∀ s, DB.uniqueKeys (pend' s) = DB.uniqueKeys (l.pend s)) fun _ _ => True :=
    hp.wp (fun _ _ h => h) fun _ _ _ _ => trivial
  refine Txn.lwp_consequence (Txn.lwp_of_wp (fun _ _ _ _ => trivial) hwp) (fun _ l' h => ?_)
    fun _ _ h => h
  exact Or.inl fun s => (h s).trans (hkept s)

/-- A lookup before anything is written. -/
theorem lwp_fetch_kept {β : Type} {f : α → Tx β} {k : Resource} {q : DB → α}
    {Q : β → Local DB Resource → Prop} {R : Error → Local DB Resource → Prop}
    (h : ∀ a (l' : Local DB Resource), l'.pend = l.pend →
      (f a).lwp (Discipline.unique DB.uniqueKeys) l' Q R) :
    (Txn.fetch k q >>= f).lwp (Discipline.unique DB.uniqueKeys) l Q R := by
  rw [Txn.lwp_bind, Txn.lwp_fetch]
  exact fun s hs => h _ _ rfl

section Rows

variable {β : Type} {f : α → Tx β} {k : Resource} {q : DB → Option α}
variable {Q : β → Local DB Resource → Prop} {R : Error → Local DB Resource → Prop}

theorem lwp_getRow_kept (hR : ∀ e l', R e l')
    (h : ∀ a (l' : Local DB Resource), l'.pend = l.pend →
      (f a).lwp (Discipline.unique DB.uniqueKeys) l' Q R) :
    (getRow k q >>= f).lwp (Discipline.unique DB.uniqueKeys) l Q R := by
  rw [Txn.lwp_bind]
  apply lwp_fetch_kept
  intro found l' hpend
  cases found with
  | none => exact hR _ _
  | some a => exact h a l' hpend

theorem lwp_getOr404_kept (hR : ∀ e l', R e l')
    (h : ∀ a (l' : Local DB Resource), l'.pend = l.pend →
      (f a).lwp (Discipline.unique DB.uniqueKeys) l' Q R) :
    (getOr404 k q >>= f).lwp (Discipline.unique DB.uniqueKeys) l Q R := by
  rw [Txn.lwp_bind]
  apply lwp_fetch_kept
  intro found l' hpend
  cases found with
  | none => exact hR _ _
  | some a => exact h a l' hpend

end Rows

theorem insertPayment_reserved {payment : Payment}
    (hkept : ∀ s, DB.uniqueKeys (l.pend s) = DB.uniqueKeys s) :
    (insertPayment payment).lwp (Discipline.unique DB.uniqueKeys) l
      (fun _ l' => Reserved DB.uniqueKeys payment.uniqueKeys l' ∧ (DB.uniqueKeys l'.last).Nodup)
      fun _ _ => True := by
  simp only [insertPayment, raiseIf, checkVarchar, acquireUnlessBlank, onBooks, Txn.lwp_bind,
    Txn.lwp_ite, Txn.lwp_throw, Txn.pure_eq_ret, Txn.lwp_ret, Txn.lwp_acquire, Txn.lwp_fetch,
    Txn.lwp_modify]
  have hfree : ∀ s : DB, (l.pend s).toBooks.paymentClash payment ≠ true →
      ∀ k ∈ payment.uniqueKeys, k ∉ DB.uniqueKeys s := by
    intro s hclash k hk htaken
    rw [← hkept s] at htaken
    exact hclash (paymentClash_of_mem hk htaken)
  refine ⟨fun _ => trivial, fun _ => ⟨fun _ s₁ _ s₂ _ => ⟨fun hblank s₃ hs₃ => ?_,
    fun hblank s₃ _ s₄ hs₄ => ?_⟩, fun _ => trivial⟩⟩
  · refine ⟨fun _ => trivial, fun hclash => ⟨fun k hk => ⟨?_, hfree s₃ hclash k hk⟩, hs₃.inv⟩⟩
    unfold Payment.uniqueKeys paymentKeys at hk
    rw [if_pos hblank, List.mem_singleton] at hk
    exact hk ▸ List.mem_cons_self
  · refine ⟨fun _ => trivial, fun hclash => ⟨fun k hk => ⟨?_, hfree s₄ hclash k hk⟩, hs₄.inv⟩⟩
    unfold Payment.uniqueKeys paymentKeys at hk
    rw [if_neg hblank, List.mem_cons, List.mem_singleton] at hk
    rcases hk with rfl | rfl
    · exact List.mem_cons_of_mem _ List.mem_cons_self
    · exact List.mem_cons_self

theorem frame_recordAuditEvent (action : String) (tenant : Option ℕ) (target : Option Source)
    (after metadata : List (String × String)) :
    Txn.Frame DB.uniqueKeys (fun _ => True)
      (recordAuditEvent env action tenant target after metadata) := by
  apply Txn.frame_bind (Txn.frame_ite (Txn.frame_throw trivial) (Txn.frame_ret _))
  intro _
  exact Txn.frame_modify fun _ => rfl

/-- An initiation reserves its keys before it calls the provider. -/
theorem initiatePayment_prepared {input : InitiateInput} {bill : Option Bill}
    (hkept : ∀ s, DB.uniqueKeys (l.pend s) = DB.uniqueKeys s) :
    (initiatePayment env input bill).lwp (Discipline.unique DB.uniqueKeys) l
      (fun _ l' =>
        Prepared (paymentKeys env.gen.merchantReference input.tenant input.idempotencyKey)
        l') fun _ _ => True := by
  have hexisting : ∀ (existing : Payment) (l' : Local DB Resource), l'.pend = l.pend →
      (do
        recordAuditEvent env "payment.initiation_deduplicated" (some input.tenant)
          (some (.payment existing.id))
        pure existing : Tx Payment).lwp (Discipline.unique DB.uniqueKeys) l' (fun _ l' => Prepared
          (paymentKeys env.gen.merchantReference input.tenant input.idempotencyKey) l')
        fun _ _ => True := by
    intro existing l' hpend
    apply lwp_prepared
    · exact Txn.frame_bind (frame_recordAuditEvent _ _ _ _ _) fun _ => Txn.frame_ret _
    · rw [hpend]
      exact hkept
  have hnew : ∀ l' : Local DB Resource, l'.pend = l.pend →
      (do
        let tenant ← getTenant input.tenant
        let payment := input.newPayment env tenant.defaultCurrency
        insertPayment payment
        recordAuditEvent env "payment.initiated" (some input.tenant) (some (.payment payment.id))
        let adapter ← getAdapter env input.provider
        Txn.invoke (.initiatePayment (input.call payment))
        onInitiated env payment (input.related bill)
          (adapter.initiatePayment (input.call payment)) : Tx Payment).lwp
        (Discipline.unique DB.uniqueKeys) l' (fun _ l' => Prepared
          (paymentKeys env.gen.merchantReference input.tenant input.idempotencyKey) l')
        fun _ _ => True := by
    intro l' hpend
    apply lwp_getRow_kept fun _ _ => trivial
    intro tenant l₁ hpend₁
    rw [Txn.lwp_bind]
    have hkept₁ : ∀ s, DB.uniqueKeys (l₁.pend s) = DB.uniqueKeys s := by
      rw [hpend₁, hpend]
      exact hkept
    refine Txn.lwp_consequence (insertPayment_reserved hkept₁) (fun _ l₂ h => ?_) fun _ _ h => h
    obtain ⟨hreserved, hinv⟩ := h
    -- from here on no lock is given back
    refine Txn.lwp_consequence (Txn.NoRelease.reserved ?_ hinv hreserved) (fun _ _ h => Or.inr h)
      fun _ _ h => h
    refine Txn.noRelease_bind (keepsIds_recordAuditEvent _ _ _ _ _ _).noRelease fun _ =>
      Txn.noRelease_bind ?_ fun adapter => ?_
    · exact (idle_getAdapter env input.provider []).noRelease
    · have hcovers : (onInitiated env (input.newPayment env tenant.defaultCurrency)
          (input.related bill)
          (adapter.initiatePayment
            (input.call (input.newPayment env tenant.defaultCurrency)))).Covers
          UnderLock [] fun _ _ => True := onInitiated_covers
      exact hcovers.noRelease
  unfold initiatePayment paymentByKey
  rw [Txn.lwp_bind, Txn.lwp_ite]
  constructor
  · intro _
    exact hnew l rfl
  · intro _
    rw [Txn.lwp_fetch]
    intro s hs
    cases hfound : (l.pend s).payments.find? fun p =>
        p.tenant = input.tenant && p.idempotencyKey = input.idempotencyKey with
    | none => exact hnew _ rfl
    | some existing => exact hexisting existing _ rfl

theorem insertCallbackEvent_reserved {id provider : ℕ} {eventId : String}
    {outcome : CallbackOutcome} {payment : Option ℕ} {raw : Option String}
    (hkept : ∀ s, DB.uniqueKeys (l.pend s) = DB.uniqueKeys s) :
    (insertCallbackEvent id provider eventId outcome payment raw).lwp
      (Discipline.unique DB.uniqueKeys) l
      (fun _ l' => Reserved DB.uniqueKeys (eventKeys provider eventId) l' ∧
        (DB.uniqueKeys l'.last).Nodup) fun _ _ => True := by
  cases raw with
  | none =>
      simp only [insertCallbackEvent, storeJson, raiseIf, checkVarchar, Txn.lwp_bind, Txn.lwp_ite,
        Txn.lwp_throw, Txn.pure_eq_ret, Txn.lwp_ret, implies_true, and_self]
  | some text =>
      simp only [insertCallbackEvent, storeJson, raiseIf, checkVarchar, acquireUnlessBlank, onBooks,
        Txn.lwp_bind, Txn.lwp_ite, Txn.lwp_throw, Txn.pure_eq_ret, Txn.lwp_ret, Txn.lwp_acquire,
        Txn.lwp_fetch, Txn.lwp_modify]
      refine ⟨fun _ s₀ _ => ⟨fun hblank s₁ hs₁ => ⟨fun _ => trivial, fun _ => ⟨?_, hs₁.inv⟩⟩,
        fun hblank s₁ _ s₂ hs₂ => ⟨fun _ => trivial, fun hclash => ⟨?_, hs₂.inv⟩⟩⟩, fun _ =>
          trivial⟩
      · rw [eventKeys, if_pos hblank]
        exact fun k hk => absurd hk List.not_mem_nil
      · rw [eventKeys, if_neg hblank]
        intro k hk
        obtain rfl := List.mem_singleton.mp hk
        refine ⟨List.mem_cons_self, fun htaken => hclash ?_⟩
        rw [← hkept s₂] at htaken
        have hknown := knowsEvent_iff.mpr ⟨hblank, htaken⟩
        rw [callbackClash_iff]
        exact fun hfree => Bool.false_ne_true (hfree.2.symm.trans hknown)

theorem frame_storeJson (raw : Option String) :
    Txn.Frame DB.uniqueKeys (fun _ => True) (storeJson raw) := by
  cases raw with
  | none => exact Txn.frame_throw trivial
  | some text => exact Txn.frame_ret text

/-- An event without an id takes no key. -/
theorem frame_insertCallbackEvent {id provider : ℕ} {outcome : CallbackOutcome}
    {payment : Option ℕ} {raw : Option String} :
    Txn.Frame DB.uniqueKeys (fun _ => True)
      (insertCallbackEvent id provider "" outcome payment raw) := by
  apply Txn.frame_bind (Txn.frame_ite (Txn.frame_ret _) (Txn.frame_throw trivial))
  intro _
  apply Txn.frame_bind (frame_storeJson raw)
  intro text
  apply Txn.frame_bind (Txn.frame_acquire _)
  intro _
  apply Txn.frame_bind (Txn.frame_ret _)
  intro _
  apply Txn.frame_bind (Txn.frame_fetch _ _)
  intro clash
  apply Txn.frame_bind (Txn.frame_ite (Txn.frame_throw trivial) (Txn.frame_ret _))
  intro _
  refine Txn.frame_bind (Txn.frame_modify fun s => ?_) fun _ => Txn.frame_ret _
  change s.payments.flatMap _ ++ (s.callbackEvents ++ [_]).flatMap _ = _
  rw [List.flatMap_append]
  exact congrArg _ (List.append_nil _)

theorem frame_onDuplicate {provider : PaymentProvider} {parsed : ProviderCallbackResult} :
    Txn.Frame DB.uniqueKeys (fun _ => True) (onDuplicate env provider parsed) := by
  apply Txn.frame_bind (Txn.frame_fetch _ _)
  intro original
  apply Txn.frame_bind frame_insertCallbackEvent
  intro dup
  split
  · exact Txn.frame_bind (frame_recordAuditEvent _ _ _ _ _) fun _ => Txn.frame_ret _
  · refine Txn.frame_bind (Txn.frame_bind (Txn.frame_fetch _ _) fun found => ?_) fun payment => ?_
    · cases found with
      | none => exact Txn.frame_throw trivial
      | some payment => exact Txn.frame_ret payment
    · apply Txn.frame_bind (frame_recordAuditEvent _ _ _ _ _)
      intro _
      refine Txn.frame_bind ?_ fun _ => Txn.frame_ret _
      apply Txn.frame_bind (Txn.frame_ite (Txn.frame_throw trivial) (Txn.frame_ret _))
      exact fun _ => Txn.frame_modify fun _ => rfl

/-- A verified delivery reserves the key of its event before it applies anything. -/
theorem onParsed_prepared {provider : PaymentProvider} {parsed : ProviderCallbackResult}
    (hkept : ∀ s, DB.uniqueKeys (l.pend s) = DB.uniqueKeys s) :
    (onParsed env provider parsed).lwp (Discipline.unique DB.uniqueKeys) l
      (fun _ l' => Prepared (eventKeys provider.id parsed.externalEventId) l') fun _ _ => True := by
  unfold onParsed
  rw [Txn.lwp_bind]
  apply Txn.lwp_tryAtomic (idle_insertCallbackEvent _ _ _ _ _ _ []).noRelease
  refine Txn.lwp_consequence (insertCallbackEvent_reserved hkept) (fun event l₁ h => ?_)
    fun e l₁ _ => ?_
  · obtain ⟨hreserved, hinv⟩ := h
    have hcovers : (onFirstDelivery env event parsed).Covers UnderLock [] fun _ _ => True :=
      onFirstDelivery_covers event parsed
    exact Txn.lwp_consequence (Txn.NoRelease.reserved hcovers.noRelease hinv hreserved)
      (fun _ _ h => Or.inr h) fun _ _ h => h
  · split
    · exact lwp_prepared frame_onDuplicate hkept
    · trivial

/-- The answer that the adapter of a provider gives to a delivery. -/
def Env.reads (env : Env) (provider : PaymentProvider) (inbound : InboundCallback) :
    Option (Except AdapterError ProviderCallbackResult) :=
  (env.registry provider.code).map fun adapter => adapter.processCallback inbound

theorem processCallback_prepared {provider : PaymentProvider} {inbound : InboundCallback}
    (hkept : ∀ s, DB.uniqueKeys (l.pend s) = DB.uniqueKeys s) :
    (processCallback env provider inbound).lwp (Discipline.unique DB.uniqueKeys) l
      (fun _ l' => ∀ parsed, env.reads provider inbound = some (.ok parsed) →
        Prepared (eventKeys provider.id parsed.externalEventId) l') fun _ _ => True := by
  cases hanswer : env.reads provider inbound with
  | none =>
      refine Txn.lwp_consequence (Txn.lwp_of_wp (φ := fun _ _ => True) (fun _ _ _ _ => trivial)
        (Txn.wp_trivial _)) (fun _ _ _ parsed hok => ?_) fun _ _ h => h
      cases hok
  | some answer =>
      obtain ⟨adapter, hadapter, hreads⟩ := Option.map_eq_some_iff.mp hanswer
      cases answer with
      | error e =>
          refine Txn.lwp_consequence (Txn.lwp_of_wp (φ := fun _ _ => True) (fun _ _ _ _ => trivial)
            (Txn.wp_trivial _)) (fun _ _ _ parsed hok => ?_) fun _ _ h => h
          cases hok
      | ok parsed =>
          simp only [processCallback, getAdapter, hadapter, Txn.lwp_bind, Txn.pure_eq_ret,
            Txn.lwp_ret, hreads]
          refine Txn.lwp_consequence (onParsed_prepared hkept) (fun _ _ h parsed' hok => ?_)
            fun _ _ h => h
          exact Except.ok.inj (Option.some.inj hok) ▸ h

theorem Effect.uniqueKeys {φ : Resource → DB → Prop} {ms : List Move} {pend : DB → DB}
    (h : Effect φ id ms pend) (s : DB) :
    (DB.uniqueKeys (pend s)).Perm (ms.flatMap Move.uniqueKeys ++ DB.uniqueKeys s) := by
  have hbooks : (pend s).toBooks = Move.runAll ms s.toBooks := congrArg Prod.snd (h.writes s)
  unfold DB.uniqueKeys
  rw [hbooks]
  exact Move.runAll_uniqueKeys h.chain _

theorem processCallback_inserting {provider : PaymentProvider} {inbound : InboundCallback}
    (hpend : l.pend = id) :
    (processCallback env provider inbound).lwp (Discipline.unique DB.uniqueKeys) l
      (fun _ l' => Inserting DB.uniqueKeys l') fun _ _ => True := by
  have hmoves : (processCallback env provider inbound).lwp (Discipline.unique DB.uniqueKeys) l
      (fun _ l' => ∃ adapter ms, env.registry provider.code = some adapter ∧
        Processed (viewOf (fun _ _ => True) id) env provider (adapter.processCallback inbound) ms ∧
        Effect (fun _ _ => True) id ms l'.pend) fun _ _ => True := by
    have hwp : (processCallback env provider inbound).wp (fun _ => True) (fun _ _ => True) l.pend
        (fun _ pend' => ∃ adapter ms, env.registry provider.code = some adapter ∧
          Processed (viewOf (fun _ _ => True) id) env provider
            (adapter.processCallback inbound) ms ∧
          Effect (fun _ _ => True) id ms pend') fun _ _ => True := by
      rw [hpend]
      exact wp_processCallback_processed
    exact Txn.lwp_of_wp (fun _ _ _ _ => trivial) hwp
  have hkept : ∀ s, DB.uniqueKeys (l.pend s) = DB.uniqueKeys s := by
    intro s
    rw [hpend]
    rfl
  have hprepared : (processCallback env provider inbound).lwp (Discipline.unique DB.uniqueKeys) l
      (fun _ l' => ∀ parsed, env.reads provider inbound = some (.ok parsed) →
        Prepared (eventKeys provider.id parsed.externalEventId) l') fun _ _ => True :=
    processCallback_prepared hkept
  refine Txn.lwp_consequence (Txn.lwp_conj hmoves hprepared) (fun _ l' h => ?_) fun _ _ h => h.1
  obtain ⟨⟨adapter, ms, hadapter, hprocessed, heffect⟩, hready⟩ := h
  rcases hprocessed.uniqueKeys with hnone | ⟨parsed, hok, hkeys⟩
  · apply inserting_kept
    intro s
    have hadded := heffect.uniqueKeys s
    rw [hnone] at hadded
    exact hadded
  · have hreads : env.reads provider inbound = some (.ok parsed) := by
      rw [Env.reads, hadapter, Option.map_some, hok]
    apply (hready parsed hreads).inserting (eventKeys_nodup _ _)
    right
    intro s
    rw [← hkeys]
    exact heffect.uniqueKeys s

end Preparing

/-! ## Requests -/

/-- The requests that insert a payment or a callback event. -/
def Action.insertsKeys : Action → Bool
  | .payBill .. | .paymentListCreate .. | .providerCallback .. => true
  | _ => false

/-- The other requests take no unique key. -/
theorem Action.Acts.keyless {view : View} {env : Env} {action : Action} {ms : List Move}
    (h : action.Acts view env ms) (hnot : action.insertsKeys = false) : Keyless ms := by
  have hone : ∀ {m : Move}, m.uniqueKeys = [] → ms = [m] → Keyless ms := by
    rintro m hm rfl
    exact keyless_cons hm keyless_nil
  have hnumbered : ∀ {view : View} {tenant : ℕ} {owner : Owner} {ms : List Move},
      Numbered view env tenant owner ms → Keyless ms := by
    intro view tenant owner ms h
    cases h with
    | kept => exact keyless_nil
    | reused | created => exact keyless_cons rfl keyless_nil
  cases action with
  | billCreate =>
      rcases h with rfl | ⟨items, bill, ms', -, h, rfl⟩
      · exact keyless_nil
      · exact keyless_cons rfl (hnumbered h)
  | billListCreate =>
      rcases h with rfl | ⟨items, bill, -, hms⟩
      · exact keyless_nil
      · exact hone rfl hms
  | billCancel =>
      rcases h with rfl | ⟨bill, -, -, -, hms⟩
      · exact keyless_nil
      · exact hone rfl hms
  | billRequestControlNumber | accountRequestControlNumber => exact hnumbered h.2
  | controlNumberCancel =>
      obtain ⟨cn, -, -, -, hms⟩ := h
      exact hone rfl hms
  | expireOverdue =>
      obtain ⟨locked, -, hms⟩ := h
      exact hone rfl hms
  | paymentQuery =>
      obtain ⟨_, _, _, _, -, -, -, -, -, hqueried⟩ := h
      exact hqueried.keyless
  | paymentRefund | paymentReverse =>
      rcases h with rfl | ⟨_, _, -, -, -, hundone⟩
      · exact keyless_nil
      · exact hundone.keyless
  | triggerRun =>
      obtain ⟨_, -, -, hreconciled⟩ := h
      exact hreconciled.keyless
  | generateBatch =>
      obtain ⟨batch, claimed, -, hms⟩ := h
      exact hone rfl hms
  | markCompleted => exact hone rfl h
  | changeFeeRefundPolicy | changeDefaultCurrency => cases h
  | _ => cases hnot

/-- Such a request inserts its keys only where it has reserved them. -/
theorem inserting_handler {request : Request} (h : request.action.insertsKeys = true) {start : DB} :
    request.handler.lwp (Discipline.unique DB.uniqueKeys) (Local.fresh start)
      (fun _ l => Inserting DB.uniqueKeys l) fun _ _ => True := by
  obtain ⟨env, action⟩ := request
  have hinitiates : ∀ {tenant : ℕ} {key : String} {p : Tx Unit},
      p.lwp (Discipline.unique DB.uniqueKeys) (Local.fresh start)
        (fun _ l => Prepared (paymentKeys env.gen.merchantReference tenant key) l)
        (fun _ _ => True) →
      p.wp (fun _ => True) (fun _ _ => True) id (fun _ pend' => ∃ ms,
        Initiates (viewOf (fun _ _ => True) id) env tenant key ms ∧
          Effect (fun _ _ => True) id ms pend') (fun _ _ => True) →
      p.lwp (Discipline.unique DB.uniqueKeys) (Local.fresh start)
        (fun _ l => Inserting DB.uniqueKeys l) fun _ _ => True := by
    intro tenant key p hprepared hwp
    have hmoves := Txn.lwp_of_wp (D := Discipline.unique DB.uniqueKeys) (l := Local.fresh start)
      (fun _ _ _ _ => trivial) hwp
    refine Txn.lwp_consequence (Txn.lwp_conj hmoves hprepared) (fun _ l' h => ?_) fun _ _ h => h.1
    obtain ⟨⟨ms, hinitiates, heffect⟩, hready⟩ := h
    apply hready.inserting (paymentKeys_nodup _ _ _)
    rcases hinitiates.uniqueKeys with rfl | hall
    · exact Or.inl fun s => heffect.uniqueKeys s
    · right
      intro s
      rw [← hall]
      exact heffect.uniqueKeys s
  cases action with
  | payBill tenant billPk code amount payerReference metadata =>
      apply hinitiates _ wp_payBill_initiates
      apply lwp_getOr404_kept fun _ _ => trivial
      intro bill l₁ hpend₁
      apply lwp_fetch_kept
      intro cn l₂ hpend₂
      cases cn with
      | none => exact Or.inl fun s => by rw [hpend₂, hpend₁]; rfl
      | some cn =>
          apply lwp_getRow_kept fun _ _ => trivial
          intro provider l₃ hpend₃
          rw [Txn.lwp_bind]
          refine initiatePayment_prepared fun s => ?_
          rw [hpend₃, hpend₂, hpend₁]
          rfl
  | paymentListCreate tenant value code channel amount payerReference key metadata =>
      apply hinitiates _ wp_paymentListCreate_initiates
      apply lwp_getOr404_kept fun _ _ => trivial
      intro cn l₁ hpend₁
      apply lwp_getOr404_kept fun _ _ => trivial
      intro provider l₂ hpend₂
      rw [Txn.lwp_bind]
      refine initiatePayment_prepared fun s => ?_
      rw [hpend₂, hpend₁]
      rfl
  | providerCallback code inbound =>
      apply lwp_fetch_kept
      intro provider l₁ hpend₁
      cases provider with
      | none => exact inserting_kept fun s => by rw [hpend₁]; exact List.Perm.refl _
      | some provider =>
          rw [Txn.lwp_bind]
          exact processCallback_inserting hpend₁
  | _ => cases h

/-- Every request keeps the unique keys unique. -/
theorem keepsTo_uniqueKeys (request : Request) (start : DB) :
    request.KeepsTo (Discipline.unique DB.uniqueKeys)
      (fun l => request.action.insertsKeys = true → Inserting DB.uniqueKeys l) start where
  ends := by
    by_cases hinserts : request.action.insertsKeys = true
    · exact Txn.lwp_consequence (Txn.lwp_weaken (fun _ _ hs => hs.right)
        (inserting_handler hinserts)) (fun _ _ h _ => h) fun _ _ h => h
    · refine Txn.lwp_consequence (Txn.lwp_of_wp (φ := fun _ _ => True) (fun _ _ _ _ => trivial)
        (Txn.wp_trivial request.handler)) (fun _ _ _ h => absurd h hinserts) fun _ _ h => h
  honours := by
    intro l s seen hknows hs hcommits
    by_cases hinserts : request.action.insertsKeys = true
    · obtain ⟨hnodup, hkeeps⟩ := (hknows hinserts).commit hs
      exact ⟨hnodup, trivial, hkeeps⟩
    · have hsame : (DB.uniqueKeys (l.pend s)).Perm (DB.uniqueKeys s) := by
        cases hcommits with
        | saved _ _ hsaved =>
            obtain ⟨-, -, -, hbooks⟩ := hsaved
            unfold DB.uniqueKeys
            rw [hbooks]
        | @acted ms hacts hchain _ hbooks _ =>
            have hkeyless := hacts.keyless (Bool.eq_false_of_not_eq_true hinserts)
            have hadded := Move.runAll_uniqueKeys hchain s.toBooks
            rw [hkeyless.flatMap] at hadded
            unfold DB.uniqueKeys
            rw [hbooks]
            exact hadded
      refine ⟨?_, trivial, fun k _ hfree htaken => hfree (hsame.mem_iff.mp htaken)⟩
      exact hsame.nodup_iff.mpr hs.inv

/-! ## Every schedule -/

/-- What a commit finds and leaves. -/
structure RetryCommit (requests : List Request) (start : DB) (i : ℕ) (seen : List (Resource × DB))
    (s t : DB) : Prop where
  commit : CommitOf (Discipline.unique DB.uniqueKeys) requests i seen s t
  providers : ∀ x ∈ seen, x.2.providers = start.providers
  known : ∀ x ∈ seen, x.2.uniqueKeys ⊆ s.uniqueKeys
  grows : ∀ x ∈ seen, x.2.toBooks.Grows s.toBooks
  grown : s.uniqueKeys ⊆ t.uniqueKeys

theorem Request.Commits.uniqueKeys {φ : Resource → DB → Prop} {request : Request} {s t : DB}
    (h : request.Commits φ s t) : s.uniqueKeys ⊆ t.uniqueKeys := by
  unfold DB.uniqueKeys
  cases h with
  | saved _ _ hsaved =>
      obtain ⟨-, -, -, hbooks⟩ := hsaved
      rw [hbooks]
      exact List.Subset.refl _
  | acted _ hchain _ hbooks _ =>
      rw [hbooks]
      exact fun k hk => (Move.runAll_uniqueKeys hchain _).mem_iff.mpr (List.mem_append_right _ hk)

theorem Request.Commits.providers {φ : Resource → DB → Prop} {request : Request} {s t : DB}
    (h : request.Commits φ s t) : t.providers = s.providers := by
  cases h with
  | saved _ _ hsaved =>
      obtain ⟨f, -, hdirectory, -⟩ := hsaved
      have hsame := congrArg (fun d : Directory => d.providers) hdirectory
      exact hsame
  | acted _ _ hdirectory _ _ => exact congrArg Directory.providers hdirectory

theorem run_retries (requests : List Request) {start : DB} (hstart : start.toBooks.SettlementTables)
    (hkeys : start.uniqueKeys.Nodup) (schedule : List Event) :
    Recorded (fun i (_ : Unit) seen s t => RetryCommit requests start i seen s t) start
      ((Config.start start (requests.map Request.handler)).commitOrder schedule)
      ((Config.start start (requests.map Request.handler)).run schedule).past
      ((Config.start start (requests.map Request.handler)).run schedule).store := by
  obtain ⟨hrun, -⟩ := run_requests_under (Discipline.unique DB.uniqueKeys)
    (fun request l => request.action.insertsKeys = true → Inserting DB.uniqueKeys l) requests hstart
    hkeys (fun request _ => keepsTo_uniqueKeys request start) schedule
  have hstronger := hrun.strengthen (J := fun s => s.providers = start.providers)
    (G := fun s t => s.uniqueKeys ⊆ t.uniqueKeys ∧ s.toBooks.Grows t.toBooks) rfl
    (fun s => ⟨List.Subset.refl _, .refl s.toBooks⟩)
    (fun _ _ _ h h' => ⟨List.Subset.trans h.1 h'.1, h.2.trans h'.2⟩) fun i _ seen s t h hs _ => by
      obtain ⟨request, -, hcommits⟩ := h.commits
      exact ⟨hcommits.providers.trans hs, hcommits.uniqueKeys, hcommits.grows⟩
  refine hstronger.mono fun i _ seen s t h => ?_
  obtain ⟨hcommit, -, hread⟩ := h
  obtain ⟨request, -, hcommits⟩ := hcommit.commits
  exact ⟨hcommit, fun x hx => (hread x hx).1, fun x hx => (hread x hx).2.1,
    fun x hx => (hread x hx).2.2, hcommits.uniqueKeys⟩

/-- The unique keys stay unique in every committed state. -/
theorem run_uniqueKeys (requests : List Request) {start : DB}
    (hstart : start.toBooks.SettlementTables) (hkeys : start.uniqueKeys.Nodup)
    (schedule : List Event) :
    ∀ s ∈ ((Config.start start (requests.map Request.handler)).run schedule).history,
      s.uniqueKeys.Nodup := by
  obtain ⟨hstates, -⟩ := (run_retries requests hstart hkeys schedule).invariant
    (J := fun s => s.uniqueKeys.Nodup) (G := fun _ _ => True) hkeys (fun _ => trivial)
    (fun _ _ _ _ _ => trivial) fun _ _ _ _ _ h _ _ => ⟨h.commit.left, trivial⟩
  exact fun s hs => (hstates s hs).1

section Commits

variable {requests : List Request} {request : Request} {start s t : DB} {i : ℕ}
variable {seen : List (Resource × DB)}

/-- A key that some read found taken is taken. -/
theorem RetryCommit.taken (h : RetryCommit requests start i seen s t) {k : Resource}
    {P : Books → Prop} (hsees : (viewOf (Read seen) id).Sees fun _ b => P b)
    (hP : ∀ b, P b → k ∈ b.uniqueKeys) : k ∈ s.uniqueKeys := by
  obtain ⟨what, d, b, ⟨v, hv, -, rfl⟩, hb⟩ := hsees
  exact h.known _ hv (hP _ hb)

/-- A row key that some read found taken is taken. -/
theorem RetryCommit.drawn (h : RetryCommit requests start i seen s t) {id : ℕ}
    {v : Resource × DB} (hv : v ∈ seen) (htaken : ¬v.2.toBooks.FreshEvent id) :
    ¬s.toBooks.FreshEvent id := by
  intro hfresh
  apply htaken
  rintro row hrow rfl
  obtain ⟨row', hrow', hfixed⟩ := (h.grows v hv).callbackEvents.mem hrow
  exact hfresh row' hrow' (congrArg PaymentCallbackEvent.Fixed.id hfixed)

/-- A commit that takes keys takes new ones. -/
theorem RetryCommit.fresh (h : RetryCommit requests start i seen s t) {ks : List Resource}
    (hadded : t.uniqueKeys.Perm (ks ++ s.uniqueKeys)) : ∀ k ∈ ks, k ∉ s.uniqueKeys := by
  have hnodup : (ks ++ s.uniqueKeys).Nodup := hadded.nodup_iff.mp h.commit.left
  exact fun k hk hold => (List.nodup_append.mp hnodup).2.2 k hk k hold rfl

/-- The request asks for a payment under an idempotency key. -/
def Request.InitiatesUnder (request : Request) (tenant : ℕ) (key : String) : Prop :=
  ∃ value code channel amount payer metadata, request.action =
    .paymentListCreate tenant value code channel amount payer key metadata

theorem RetryCommit.initiates (h : RetryCommit requests start i seen s t) {tenant : ℕ}
    {key : String}
    (hi : requests[i]? = some request) (hrequest : request.InitiatesUnder tenant key) :
    ∃ ms pend, Initiates (viewOf (Read seen) id) request.env tenant key ms ∧
      Effect (Read seen) id ms pend ∧ t = pend s := by
  obtain ⟨r, pend, hr, hleaves, rfl⟩ := h.commit.ran
  obtain rfl := Option.some.inj (hi.symm.trans hr)
  obtain ⟨env, action⟩ := request
  obtain ⟨value, code, channel, amount, payer, metadata, rfl⟩ := hrequest
  obtain ⟨ms, hinitiates, heffect⟩ := hleaves _ (Read seen) _ _ (fun _ hx => hx)
    wp_paymentListCreate_initiates
  exact ⟨ms, pend, hinitiates, heffect, rfl⟩

/-- The request delivers the event of a provider. -/
def Request.Delivers (request : Request) (providers : List PaymentProvider) (provider : ℕ)
    (eventId : String) : Prop :=
  ∃ code inbound row parsed, request.action = .providerCallback code inbound ∧
    providers.find? (·.code = code) = some row ∧ row.id = provider ∧
    request.env.reads row inbound = some (.ok parsed) ∧ parsed.externalEventId = eventId

theorem RetryCommit.processed (h : RetryCommit requests start i seen s t) {provider : ℕ}
    {eventId : String} (hi : requests[i]? = some request)
    (hrequest : request.Delivers start.providers provider eventId) :
    ∃ row parsed ms pend, row.id = provider ∧ parsed.externalEventId = eventId ∧
      Processed (viewOf (Read seen) id) request.env row (.ok parsed) ms ∧
      Effect (Read seen) id ms pend ∧ t = pend s := by
  obtain ⟨r, pend, hr, hleaves, rfl⟩ := h.commit.ran
  obtain rfl := Option.some.inj (hi.symm.trans hr)
  obtain ⟨env, action⟩ := request
  obtain ⟨code, inbound, row, parsed, rfl, hrow, hid, hreads, hevent⟩ := hrequest
  obtain ⟨v, ms, hv, hreceived, heffect⟩ := hleaves _ (Read seen) _ _ (fun _ hx => hx)
    wp_providerCallback_received
  rw [h.providers _ hv, hrow] at hreceived
  obtain ⟨adapter, hadapter, hanswer⟩ := Option.map_eq_some_iff.mp hreads
  cases hreceived with
  | processed hregistered hprocessed =>
      obtain rfl := Option.some.inj (hadapter.symm.trans hregistered)
      rw [hanswer] at hprocessed
      exact ⟨row, parsed, ms, pend, hid, hevent, hprocessed, heffect, rfl⟩

/-- The money tables but for what the program notes of a delivery: an event row without an id, and
revenue events without an amount. -/
def Books.Noted (b b' : Books) : Prop :=
  ∃ row notes, row.externalEventId = "" ∧
    (∀ e ∈ notes, e.eventType = RevenueEventType.paymentDuplicate ∧ e.amount.cents = 0) ∧
    b' = { b with
      callbackEvents := b.callbackEvents ++ [row]
      revenue := b.revenue ++ notes }

theorem Redelivers.only_notes {env : Env} {ms : List Move} (h : Redelivers env ms) (b : Books) :
    b.Noted (Move.runAll ms b) := by
  cases h with
  | @orphan row hblank =>
      refine ⟨row, [], hblank, fun e he => absurd he List.not_mem_nil, ?_⟩
      rw [List.append_nil]
      rfl
  | @noted row payment hblank =>
      refine ⟨row, [payment.event env .paymentDuplicate .zero none []], hblank, fun e he => ?_, rfl⟩
      obtain rfl := List.mem_singleton.mp he
      exact ⟨rfl, rfl⟩

theorem mem_eventKeys {provider : ℕ} {eventId : String} (hevent : eventId ≠ "") :
    Resource.callbackKey provider eventId ∈ eventKeys provider eventId := by
  rw [eventKeys, if_neg hevent]
  exact List.mem_singleton_self _

theorem RetryCommit.delivers_directory (h : RetryCommit requests start i seen s t) {provider : ℕ}
    {eventId : String} (hi : requests[i]? = some request)
    (hrequest : request.Delivers start.providers provider eventId) :
    t.toDirectory = s.toDirectory := by
  obtain ⟨row, parsed, ms, pend, -, -, -, heffect, rfl⟩ := h.processed hi hrequest
  exact congrArg Prod.fst (heffect.writes s)

/-- A committed delivery leaves the key of its event behind, or it is only noted, because the key
drawn for its row was taken. -/
theorem RetryCommit.delivers (h : RetryCommit requests start i seen s t) {provider : ℕ}
    {eventId : String} (hevent : eventId ≠ "") (hi : requests[i]? = some request)
    (hrequest : request.Delivers start.providers provider eventId) :
    Resource.callbackKey provider eventId ∈ t.uniqueKeys ∨
      ¬s.toBooks.FreshEvent (request.env.gen.callbackEventId 0) ∧ s.toBooks.Noted t.toBooks := by
  obtain ⟨row, parsed, ms, pend, rfl, rfl, hprocessed, heffect, rfl⟩ := h.processed hi hrequest
  have hbooks : (pend s).toBooks = Move.runAll ms s.toBooks := congrArg Prod.snd (heffect.writes s)
  cases hprocessed with
  | again htaken hredelivers =>
      obtain ⟨what, d, b, ⟨v, hv, -, rfl⟩, hclash⟩ := htaken
      by_cases hfresh : v.toBooks.FreshEvent (request.env.gen.callbackEventId 0)
      · left
        have hknown : v.toBooks.knowsEvent row.id parsed.externalEventId = true := by
          rw [← Bool.not_eq_false]
          exact fun hunknown => hclash ⟨hfresh, hunknown⟩
        exact h.grown (h.known _ hv (knowsEvent_iff.mp hknown).2)
      · right
        rw [hbooks]
        exact ⟨h.drawn hv hfresh, hredelivers.only_notes _⟩
  | @first _ event ms hprovider hid hrest =>
      left
      rw [(heffect.uniqueKeys s).mem_iff, flatMap_addCallback hrest,
        PaymentCallbackEvent.uniqueKeys, hprovider, hid]
      exact List.mem_append_left _ (mem_eventKeys hevent)

/-- A delivery of an event that is in the table is only noted. -/
theorem RetryCommit.redelivers (h : RetryCommit requests start i seen s t) {provider : ℕ}
    {eventId : String} (hevent : eventId ≠ "") (hi : requests[i]? = some request)
    (hrequest : request.Delivers start.providers provider eventId)
    (htaken : Resource.callbackKey provider eventId ∈ s.uniqueKeys) :
    s.toBooks.Noted t.toBooks := by
  obtain ⟨row, parsed, ms, pend, rfl, rfl, hprocessed, heffect, rfl⟩ := h.processed hi hrequest
  have hbooks : (pend s).toBooks = Move.runAll ms s.toBooks := congrArg Prod.snd (heffect.writes s)
  cases hprocessed with
  | again _ hredelivers =>
      rw [hbooks]
      exact hredelivers.only_notes _
  | @first _ event ms hprovider hid hrest =>
      have hadded := heffect.uniqueKeys s
      rw [flatMap_addCallback hrest, PaymentCallbackEvent.uniqueKeys, hprovider, hid] at hadded
      exact absurd htaken (h.fresh hadded _ (mem_eventKeys hevent))

end Commits

/-- A client asks twice for a payment, and the provider reports its success twice. -/
def everythingTwice : List Request :=
  let pending := answering .pending "p" "e"
  let successful := answering .successful "p" "e"
  [{ env := envAt 3 pending
     action := .paymentListCreate 1 "1" "mock" none (amountOf 4000) "0700" "k" [] },
   { env := envAt 4 pending
     action := .paymentListCreate 1 "1" "mock" none (amountOf 4000) "0700" "k" [] },
   { env := envAt 5 successful, action := .providerCallback "mock" ⟨[], []⟩ },
   { env := envAt 6 successful, action := .providerCallback "mock" ⟨[], []⟩ }]

/-- The client waits for its first answer; the provider does not wait. -/
def reportsInTurns : List Event :=
  List.replicate 60 (.advance 0) ++ List.replicate 60 (.advance 1) ++
    (List.replicate 90 [Event.advance 2, .advance 3]).flatten

theorem everythingTwice_commits :
    (Config.start numberedInstallation (everythingTwice.map Request.handler)).commitOrder
      reportsInTurns = [0, 1, 2, 3] := by
  decide +kernel

theorem everythingTwice_delivers : ∀ request ∈ everythingTwice.drop 2,
    request.Delivers numberedInstallation.providers 1 "e" := by
  intro request hrequest
  have hcases : request = everythingTwice[2] ∨ request = everythingTwice[3] := by
    simpa [everythingTwice] using hrequest
  rcases hcases with rfl | rfl <;> exact ⟨_, _, _, _, rfl, rfl, rfl, rfl, rfl⟩

/-- The unique keys of payments and callback events stay unique in every committed state.  Once an
initiation under an idempotency key has committed, every later one under this key leaves the money
tables as they are, whatever runs between them and beside them. -/
theorem initiations_take_effect_once (requests : List Request) (start : DB)
    (hstart : start.toBooks.SettlementTables) (hkeys : start.uniqueKeys.Nodup)
    (schedule : List Event) :
    (∀ s ∈ ((Config.start start (requests.map Request.handler)).run schedule).history,
      s.uniqueKeys.Nodup) ∧
    ∀ (tenant : ℕ) (key : String) (j k i i' : ℕ) (first again : Request), key ≠ "" → j < k →
      ((Config.start start (requests.map Request.handler)).commitOrder schedule)[j]? = some i →
      ((Config.start start (requests.map Request.handler)).commitOrder schedule)[k]? = some i' →
      requests[i]? = some first → requests[i']? = some again →
      first.InitiatesUnder tenant key → again.InitiatesUnder tenant key →
      ∃ s t,
        ((Config.start start (requests.map Request.handler)).run schedule).history[k]? = some s ∧
        ((Config.start start (requests.map Request.handler)).run schedule).history[k + 1]? =
          some t ∧
        t.toDirectory = s.toDirectory ∧ t.toBooks = s.toBooks := by
  refine ⟨run_uniqueKeys requests hstart hkeys schedule, ?_⟩
  intro tenant key j k i i' first again hkey hjk hi hi' hfirst hagain hfirstKey hagainKey
  have hmem : Resource.idempotencyKey tenant key ∈
      paymentKeys first.env.gen.merchantReference tenant key ∧
      Resource.idempotencyKey tenant key ∈
        paymentKeys again.env.gen.merchantReference tenant key := by
    simp [paymentKeys, hkey]
  have hrun := run_retries requests hstart hkeys schedule
  obtain ⟨-, seen₁, s₁, t₁, -, ht₁, hcommit₁⟩ := hrun.commitAt hi
  obtain ⟨-, seen, s, t, hs, ht, hcommit⟩ := hrun.commitAt hi'
  have hfound : Resource.idempotencyKey tenant key ∈ t₁.uniqueKeys := by
    obtain ⟨ms, pend, hinitiates, heffect, rfl⟩ := hcommit₁.initiates hfirst hfirstKey
    cases hinitiates with
    | unpayable hblank => exact absurd hblank hkey
    | repeated hfound => exact hcommit₁.grown (hcommit₁.taken hfound fun b hb => hb.uniqueKey)
    | opened hkeys hrest =>
        rw [(heffect.uniqueKeys s₁).mem_iff, flatMap_openPayment hrest, hkeys]
        exact List.mem_append_left _ hmem.1
  have htaken : Resource.idempotencyKey tenant key ∈ s.uniqueKeys :=
    hrun.lasting (M := fun s => .idempotencyKey tenant key ∈ s.uniqueKeys)
      (fun _ _ _ _ _ h hs => h.grown hs) hjk ht₁ hs hfound
  refine ⟨s, t, hs, ht, ?_⟩
  obtain ⟨ms, pend, hinitiates, heffect, rfl⟩ := hcommit.initiates hagain hagainKey
  rcases hinitiates.uniqueKeys with rfl | hall
  · exact ⟨congrArg Prod.fst (heffect.writes s), congrArg Prod.snd (heffect.writes s)⟩
  · have hadded := heffect.uniqueKeys s
    rw [hall] at hadded
    exact absurd htaken (hcommit.fresh hadded _ hmem.2)

theorem initiations_take_effect_once_everythingTwice :
    (∀ s ∈ ((Config.start numberedInstallation
      (everythingTwice.map Request.handler)).run reportsInTurns).history, s.uniqueKeys.Nodup) ∧
    ∃ s t, ((Config.start numberedInstallation
        (everythingTwice.map Request.handler)).run reportsInTurns).history[1]? = some s ∧
      ((Config.start numberedInstallation
        (everythingTwice.map Request.handler)).run reportsInTurns).history[2]? = some t ∧
      t.toDirectory = s.toDirectory ∧ t.toBooks = s.toBooks :=
  (initiations_take_effect_once everythingTwice numberedInstallation
    numberedInstallation_settlementTables List.nodup_nil reportsInTurns).imp_right fun honce =>
      honce 1 "k" 0 1 0 1 everythingTwice[0] everythingTwice[1] (by decide) Nat.zero_lt_one
        (by rw [everythingTwice_commits]; rfl) (by rw [everythingTwice_commits]; rfl) rfl rfl
        ⟨_, _, _, _, _, _, rfl⟩ ⟨_, _, _, _, _, _, rfl⟩

/-- Once a delivery of a provider's event has committed, every later delivery of it only notes that
it came: no payment, bill, control number, allocation, ledger row, receipt or batch changes,
whatever runs between them and beside them.  The one exception is a first delivery that was only
noted itself, because the key drawn for its row was taken. -/
theorem events_take_effect_once (requests : List Request) (start : DB)
    (hstart : start.toBooks.SettlementTables) (hkeys : start.uniqueKeys.Nodup)
    (schedule : List Event) {provider : ℕ} {eventId : String} (hevent : eventId ≠ "")
    {j k i i' : ℕ} (hjk : j < k)
    (hi : ((Config.start start (requests.map Request.handler)).commitOrder schedule)[j]? = some i)
    (hi' : ((Config.start start (requests.map Request.handler)).commitOrder schedule)[k]? = some i')
    {first again : Request} (hfirst : requests[i]? = some first)
    (hagain : requests[i']? = some again)
    (hfirstEvent : first.Delivers start.providers provider eventId)
    (hagainEvent : again.Delivers start.providers provider eventId) :
    ∃ s₁ t₁ s t,
      ((Config.start start (requests.map Request.handler)).run schedule).history[j]? = some s₁ ∧
      ((Config.start start (requests.map Request.handler)).run schedule).history[j + 1]? = some t₁ ∧
      ((Config.start start (requests.map Request.handler)).run schedule).history[k]? = some s ∧
      ((Config.start start (requests.map Request.handler)).run schedule).history[k + 1]? = some t ∧
      t.toDirectory = s.toDirectory ∧ (s.toBooks.Noted t.toBooks ∨
        ¬s₁.toBooks.FreshEvent (first.env.gen.callbackEventId 0) ∧
          s₁.toBooks.Noted t₁.toBooks) := by
  have hrun := run_retries requests hstart hkeys schedule
  obtain ⟨-, seen₁, s₁, t₁, hs₁, ht₁, hcommit₁⟩ := hrun.commitAt hi
  obtain ⟨-, seen, s, t, hs, ht, hcommit⟩ := hrun.commitAt hi'
  refine ⟨s₁, t₁, s, t, hs₁, ht₁, hs, ht, hcommit.delivers_directory hagain hagainEvent, ?_⟩
  rcases hcommit₁.delivers hevent hfirst hfirstEvent with hfound | hclash
  · left
    have htaken : Resource.callbackKey provider eventId ∈ s.uniqueKeys :=
      hrun.lasting (M := fun s => .callbackKey provider eventId ∈ s.uniqueKeys)
        (fun _ _ _ _ _ h hs => h.grown hs) hjk ht₁ hs hfound
    exact hcommit.redelivers hevent hagain hagainEvent htaken
  · exact Or.inr hclash

theorem events_take_effect_once_everythingTwice :
    ∃ s₁ t₁ s t,
      ((Config.start numberedInstallation
        (everythingTwice.map Request.handler)).run reportsInTurns).history[2]? = some s₁ ∧
      ((Config.start numberedInstallation
        (everythingTwice.map Request.handler)).run reportsInTurns).history[3]? = some t₁ ∧
      ((Config.start numberedInstallation
        (everythingTwice.map Request.handler)).run reportsInTurns).history[3]? = some s ∧
      ((Config.start numberedInstallation
        (everythingTwice.map Request.handler)).run reportsInTurns).history[4]? = some t ∧
      t.toDirectory = s.toDirectory ∧ (s.toBooks.Noted t.toBooks ∨
        ¬s₁.toBooks.FreshEvent (everythingTwice[2].env.gen.callbackEventId 0) ∧
          s₁.toBooks.Noted t₁.toBooks) :=
  events_take_effect_once everythingTwice numberedInstallation
    numberedInstallation_settlementTables List.nodup_nil reportsInTurns (by decide : "e" ≠ "")
    (Nat.lt_succ_self 2) (by rw [everythingTwice_commits]; rfl)
    (by rw [everythingTwice_commits]; rfl) rfl rfl
    (everythingTwice_delivers _ List.mem_cons_self)
    (everythingTwice_delivers _ (List.mem_cons_of_mem _ List.mem_cons_self))

end Kusanya
