import Kusanya.Invariants.Runs
import Kusanya.Moves.Composed
import Kusanya.Moves.Outbox
import Kusanya.ReadCommitted.Families

/-!
# What a notification template can change

A request renders the templates of its messages inside its own transaction.  A run of its handler
over databases in which every template is empty tells which messages these are: where it starts and
what it asks for fix them.  If each of them can be rendered and stored, the templates decide nothing
but the texts; if one of them cannot, the request is rolled back.
-/

namespace Kusanya

open ReadCommitted

/-! ## Messages -/

/-- With the templates of `db` the message can be rendered, and its subject fits the column. -/
def Message.isRenderable (env : Env) (db : DB) (m : Message) : Bool :=
  let template := templateFor db m.tenant m.eventType m.channel
  match env.formatMap template.1 (safeDict m.context),
      env.formatMap template.2 (safeDict m.context) with
  | some subject, some body =>
      decide (Varchar 255 (if m.channel = .email then subject else "") ∧ '\x00' ∉ body.toList)
  | _, _ => false

/-- All messages can be rendered with the templates of `db`. -/
abbrev Renderable (env : Env) (db : DB) (messages : List Message) : Prop :=
  ∀ m ∈ messages, m.isRenderable env db = true

/-- The messages among the queries of a run. -/
def messagesIn (queries : List Resource) : List Message := queries.filterMap Resource.message?

section Messages

variable {env : Env} {s t : DB}

theorem isRenderable_congr (m : Message) (h : t.templates = s.templates) :
    m.isRenderable env t = m.isRenderable env s := by
  unfold Message.isRenderable templateFor
  rw [h]

theorem renderable_iff_of_templates {messages : List Message} (h : t.templates = s.templates) :
    Renderable env t messages ↔ Renderable env s messages :=
  forall_congr' fun m => imp_congr_right fun _ => by rw [isRenderable_congr m h]

theorem messagesIn_append (queries queries' : List Resource) :
    messagesIn (queries ++ queries') = messagesIn queries ++ messagesIn queries' :=
  List.filterMap_append

/-- The row of a message that can be rendered is stored unless the columns refuse what it has
besides its text. -/
theorem noticeOn_renderable {m : Message} {recipient : String} (hrecipient : recipient ≠ "")
    (h : m.isRenderable env s = true) : ∃ row : Notification,
      row.withoutText =
        { tenant := m.tenant, eventType := m.eventType, channel := m.channel, recipient
          subject := "", body := "", correlationId := env.correlationId } ∧
      noticeOn env s m.tenant m.eventType m.channel m.context recipient =
        if 255 < recipient.length then .error .valueError
        else if Support.Text.Fits 64 env.correlationId then .ok [row] else .error .dataError := by
  rw [Message.isRenderable] at h
  rw [noticeOn, if_neg hrecipient]
  dsimp only at h ⊢
  cases hfirst : env.formatMap (templateFor s m.tenant m.eventType m.channel).1
      (safeDict m.context) with
  | none =>
      rw [hfirst] at h
      cases h
  | some subject =>
      cases hsecond : env.formatMap (templateFor s m.tenant m.eventType m.channel).2
          (safeDict m.context) with
      | none =>
          rw [hfirst, hsecond] at h
          cases h
      | some body =>
          rw [hfirst, hsecond] at h
          obtain ⟨hsubject, hbody⟩ := of_decide_eq_true h
          refine ⟨{ tenant := m.tenant, eventType := m.eventType, channel := m.channel, recipient
                    body, subject := if m.channel = .email then subject else ""
                    correlationId := env.correlationId }, rfl, ?_⟩
          simp only [hsubject, hbody, not_false_eq_true, true_and]

/-- A message that cannot be rendered raises what no savepoint and no view catches. -/
theorem noticeOn_unrenderable {m : Message} {recipient : String} (hrecipient : recipient ≠ "")
    (h : ¬m.isRenderable env s = true) :
    ∃ e, noticeOn env s m.tenant m.eventType m.channel m.context recipient = .error e ∧
      e.isIntegrityError = false ∧ e.isValidationError = false := by
  rw [Message.isRenderable] at h
  rw [noticeOn, if_neg hrecipient]
  dsimp only at h ⊢
  cases hfirst : env.formatMap (templateFor s m.tenant m.eventType m.channel).1
      (safeDict m.context) with
  | none => exact ⟨_, rfl, rfl, rfl⟩
  | some subject =>
      cases hsecond : env.formatMap (templateFor s m.tenant m.eventType m.channel).2
          (safeDict m.context) with
      | none => exact ⟨_, rfl, rfl, rfl⟩
      | some body =>
          rw [hfirst, hsecond] at h
          have hrefused : ¬(Varchar 255 (if m.channel = .email then subject else "") ∧
              '\x00' ∉ body.toList ∧ Support.Text.Fits 64 env.correlationId) := fun hfits =>
            h (decide_eq_true ⟨hfits.1, hfits.2.1⟩)
          by_cases hlong : 255 < recipient.length
          · exact ⟨.valueError, if_pos hlong, rfl, rfl⟩
          · exact ⟨.dataError, (if_neg hlong).trans (if_neg hrefused), rfl, rfl⟩

end Messages

/-! ## Databases with empty templates -/

/-- The database with other templates. -/
def DB.withTemplates (db : DB) (templates : List NotificationTemplate) : DB := { db with templates }

/-- What a query finds where every message has an empty template. -/
def DB.dry (db : DB) : Resource → DB
  | .template m => db.withTemplates
      [{ tenant := m.tenant, eventType := m.eventType, channel := m.channel, subject := ""
         body := "", isActive := true }]
  | _ => db.withTemplates []

/-- The databases of a family are `σ` but for their texts, and where a template is looked for it is
empty. -/
structure Dry (σ : DB) (family : Resource → DB) : Prop where
  same : ∀ k, (family k).withoutTexts = σ
  blank : ∀ m : Message,
    templateFor (family (.template m)) m.tenant m.eventType m.channel = ("", "")

theorem dry_dry (db : DB) : Dry db.withoutTexts db.dry where
  same := fun k => by cases k <;> rfl
  blank := fun m => by simp [DB.dry, DB.withTemplates, templateFor]

/-- A write that neither looks at texts nor touches templates keeps a family dry. -/
theorem Dry.write {σ : DB} {family : Resource → DB} (h : Dry σ family) {w : DB → DB}
    (hw : ∀ s, (w s).withoutTexts = w s.withoutTexts) (ht : ∀ s, (w s).templates = s.templates) :
    Dry (w σ) (w ∘ family) where
  same := fun k => (hw _).trans (congrArg w (h.same k))
  blank := fun m => by
    have hblank := h.blank m
    unfold templateFor at hblank ⊢
    rwa [Function.comp_apply, ht]

/-! ## What is foreseen whatever the templates are -/

/-- An outcome but for the texts in the state that it leaves. -/
def withoutTexts {α : Type} : Except Error (α × DB) → Except Error (α × DB)
  | .ok (a, t) => .ok (a, t.withoutTexts)
  | .error e => .error e

/-- How a run over a family ends, read off one of its databases. -/
def endOf {α : Type} :
    Except (Error × (Resource → DB)) (α × (Resource → DB)) → Except Error (α × DB)
  | .ok (a, family) => .ok (a, (family .controlNumbers).withoutTexts)
  | .error (e, _) => .error e

/-- From every state that is `σ` but for its texts, `p` ends in `outcome` if it can render
`messages`, and raises if not. -/
def Foreseen {α : Type} (env : Env) (p : Tx α) (σ : DB) (messages : List Message)
    (outcome : Except Error (α × DB)) : Prop :=
  ∀ s : DB, s.withoutTexts = σ →
    (Renderable env s messages → withoutTexts (p.exec s) = outcome) ∧
    (¬Renderable env s messages →
      ∃ e, p.exec s = .error e ∧ e.isIntegrityError = false ∧ e.isValidationError = false)

section Foreseen

variable {env : Env} {α β : Type} {p : Tx α} {σ τ : DB} {messages messages' : List Message}
  {family : Resource → DB}

theorem foreseen_of_exec {outcome : Except Error (α × DB)}
    (h : ∀ s : DB, s.withoutTexts = σ → withoutTexts (p.exec s) = outcome) :
    Foreseen env p σ [] outcome :=
  fun s hs => ⟨fun _ => h s hs, fun hnot => absurd (fun _ hm => by cases hm) hnot⟩

/-- A write that acts on the state without its texts is foreseen. -/
theorem foreseen_modify (w : DB → DB) (hw : ∀ s, (w s).withoutTexts = w s.withoutTexts) (σ : DB) :
    Foreseen env (.modify w) σ [] (.ok ((), w σ)) := by
  apply foreseen_of_exec
  rintro s rfl
  exact congrArg (fun u => Except.ok ((), u)) (hw s)

theorem foreseen_bind_ok {f : α → Tx β} {a : α} {outcome : Except Error (β × DB)}
    (htemplates : p.Keeps (·.templates)) (hp : Foreseen env p σ messages (.ok (a, τ)))
    (hf : Foreseen env (f a) τ messages' outcome) :
    Foreseen env (p >>= f) σ (messages ++ messages') outcome := by
  intro s hs
  obtain ⟨hsent, hunsent⟩ := hp s hs
  unfold Renderable
  simp only [List.forall_mem_append]
  rw [Txn.exec_bind]
  by_cases hrenderable : Renderable env s messages
  · have hfirst := hsent hrenderable
    cases hexec : p.exec s with
    | error e =>
        rw [hexec] at hfirst
        cases hfirst
    | ok r =>
        obtain ⟨b, t⟩ := r
        rw [hexec] at hfirst
        obtain ⟨rfl, ht⟩ := Prod.mk.inj (Except.ok.inj hfirst)
        have hsame : Renderable env t messages' ↔ Renderable env s messages' :=
          renderable_iff_of_templates (htemplates s b t hexec)
        obtain ⟨hrest, hnorest⟩ := hf t ht
        exact ⟨fun hboth => hrest (hsame.mpr hboth.2),
          fun hnot => hnorest fun hall => hnot ⟨hrenderable, hsame.mp hall⟩⟩
  · obtain ⟨e, hexec, hkind⟩ := hunsent hrenderable
    rw [hexec]
    exact ⟨fun hboth => absurd hboth.1 hrenderable, fun _ => ⟨e, rfl, hkind⟩⟩

theorem foreseen_bind_error {f : α → Tx β} {e : Error}
    (hp : Foreseen env p σ messages (.error e)) :
    Foreseen env (p >>= f) σ messages (.error e) := by
  intro s hs
  obtain ⟨hsent, hunsent⟩ := hp s hs
  rw [Txn.exec_bind]
  constructor
  · intro hrenderable
    have hfirst := hsent hrenderable
    cases hexec : p.exec s with
    | error e' =>
        rw [hexec] at hfirst
        obtain rfl : e' = e := Except.error.inj hfirst
        rfl
    | ok r =>
        rw [hexec] at hfirst
        cases hfirst
  · intro hnot
    obtain ⟨e', hexec, hkind⟩ := hunsent hnot
    rw [hexec]
    exact ⟨e', rfl, hkind⟩

/-- The outcome of a savepoint. -/
def afterSavepoint (σ : DB) : Except Error (α × DB) → Except Error (Except Error α × DB)
  | .ok (a, τ) => .ok (.ok a, τ)
  | .error e => if e.isIntegrityError then .ok (.error e, σ) else .error e

theorem foreseen_tryAtomic {outcome : Except Error (α × DB)}
    (hp : Foreseen env p σ messages outcome) :
    Foreseen env (p.tryAtomic Error.isIntegrityError) σ messages (afterSavepoint σ outcome) := by
  rintro s rfl
  obtain ⟨hsent, hunsent⟩ := hp s rfl
  rw [Txn.exec_tryAtomic]
  constructor
  · intro hrenderable
    rw [← hsent hrenderable]
    cases p.exec s with
    | ok r => rfl
    | error e =>
        by_cases hcaught : e.isIntegrityError = true
        · simp [withoutTexts, afterSavepoint, hcaught]
        · simp [withoutTexts, afterSavepoint, hcaught]
  · intro hnot
    obtain ⟨e, hexec, hintegrity, hvalidation⟩ := hunsent hnot
    rw [hexec]
    exact ⟨e, by simp [hintegrity], hintegrity, hvalidation⟩

theorem foreseen_showingErrors {p : Tx Unit} {outcome : Except Error (Unit × DB)}
    (hearly : Early p) (hp : Foreseen env p σ messages outcome) :
    Foreseen env (showingErrors p) σ messages (shown σ outcome) := by
  rintro s rfl
  obtain ⟨hsent, hunsent⟩ := hp s rfl
  rw [exec_showingErrors hearly]
  constructor
  · intro hrenderable
    rw [← hsent hrenderable]
    cases p.exec s with
    | ok r => rfl
    | error e =>
        by_cases hshown : e.isValidationError = true
        · simp [withoutTexts, shown, hshown]
        · simp [withoutTexts, shown, hshown]
  · intro hnot
    obtain ⟨e, hexec, hintegrity, hvalidation⟩ := hunsent hnot
    rw [hexec]
    exact ⟨e, by simp [shown, hvalidation], hintegrity, hvalidation⟩

end Foreseen

/-! ## Every request is foreseen -/

theorem Extra.withoutTexts {w : DB → DB} (h : Extra w) (s : DB) :
    (w s).withoutTexts = w s.withoutTexts := by
  cases h with
  | run w hrun => cases hrun <;> rfl
  | tenant tenant f => rfl

theorem Extra.templates {w : DB → DB} (h : Extra w) (s : DB) : (w s).templates = s.templates := by
  cases h with
  | run w hrun => cases hrun <;> rfl
  | tenant tenant f => rfl

theorem Composed.templates {env : Env} {α : Type} {p : Tx α} (hp : Composed env Extra p) :
    p.Keeps (·.templates) := by
  refine hp.keeps fun w hw s => ?_
  cases hw with
  | extra w hextra => exact hextra.templates s
  | _ => rfl

/-- The run of `p` over a dry family tells its messages and its outcome, and leaves a dry family. -/
def Tells {α : Type} (env : Env) (p : Tx α) : Prop :=
  ∀ (σ : DB) (family : Resource → DB), Dry σ family →
    Foreseen env p σ (messagesIn (p.spread family).1) (endOf (p.spread family).2) ∧
    ∀ a family', (p.spread family).2 = .ok (a, family') → ∃ τ, Dry τ family'

section Tells

variable {env : Env} {α β : Type} {p : Tx α} {σ : DB} {family family' : Resource → DB}

/-- A family that is dry for `τ` is read off as `τ`. -/
theorem Dry.endOf {τ : DB} (h : Dry τ family') (a : α) :
    endOf (.ok (a, family')) = .ok (a, τ) := by
  rw [Kusanya.endOf, h.same]

/-- A statement that asks for nothing and changes nothing. -/
theorem tells_idle {a : α} (hspread : ∀ family, p.spread family = ([], .ok (a, family)))
    (hexec : ∀ s, p.exec s = .ok (a, s)) : Tells env p := by
  intro σ family hdry
  rw [hspread, hdry.endOf]
  refine ⟨foreseen_of_exec fun s hs => by rw [hexec, ← hs]; rfl, ?_⟩
  intro b family' h
  obtain ⟨-, rfl⟩ := Prod.mk.inj (Except.ok.inj h)
  exact ⟨σ, hdry⟩

theorem tells_ret (a : α) : Tells env (.ret a) := tells_idle (fun _ => rfl) fun _ => rfl

theorem tells_modify {w : DB → DB} (hw : ∀ s, (w s).withoutTexts = w s.withoutTexts)
    (ht : ∀ s, (w s).templates = s.templates) : Tells env (.modify w : Tx Unit) := by
  intro σ family hdry
  have hafter := hdry.write hw ht
  rw [Txn.spread_modify, hafter.endOf]
  refine ⟨foreseen_modify w hw σ, ?_⟩
  intro a family' h
  obtain ⟨-, rfl⟩ := Prod.mk.inj (Except.ok.inj h)
  exact ⟨w σ, hafter⟩

theorem withoutTexts_addNotifications (rows : List Notification) (s : DB) :
    (inTrail (·.addNotifications rows) s).withoutTexts =
      inTrail (·.addNotifications (rows.map Notification.withoutText)) s.withoutTexts := by
  simp [DB.withoutTexts, inTrail, Trail.addNotifications, Task.withoutText]

/-- The row of a notification without text, stored by a run over a family. -/
theorem spread_createNotification {row : Notification} (hsubject : row.subject = "")
    (hbody : row.body = "") (family : Resource → DB) :
    (createNotification row).spread family =
      ([], if 255 < row.recipient.length then .error (.valueError, family)
        else if Support.Text.Fits 64 row.correlationId then
          .ok ((), inTrail (·.addNotifications [row]) ∘ family)
        else .error (.dataError, family)) := by
  have hvarchar : Varchar 255 row.subject := by
    rw [hsubject]
    decide
  have hparameter : '\x00' ∉ row.body.toList := by
    rw [hbody]
    decide
  unfold createNotification checkVarchar checkParameter storeCorrelationId raiseIf
  rw [if_pos hvarchar, if_neg hparameter]
  by_cases hlong : 255 < row.recipient.length
  · rw [if_pos hlong, if_pos hlong]
    rfl
  · rw [if_neg hlong, if_neg hlong]
    by_cases hfits : Support.Text.Fits 64 row.correlationId
    · rw [if_neg (not_not.mpr hfits), if_pos hfits]
      rfl
    · rw [if_pos hfits, if_neg hfits]
      rfl

/-- An empty template is rendered as it is. -/
theorem spread_renderTemplate {σ : DB} (hdry : Dry σ family) (m : Message) :
    (renderTemplate env m.tenant m.eventType m.channel m.context).spread family =
      ([.template m], .ok (("", ""), family)) := by
  have hempty : env.formatMap "" (safeDict m.context) = some "" := by
    rw [Env.formatMap, show "".toList = [] from rfl, Support.formatMap_nil]
    rfl
  rw [renderTemplate, Txn.spread_bind, Txn.spread_fetch]
  dsimp only
  rw [hdry.blank m]
  simp only [hempty]
  rfl

theorem tells_sendOn (m : Message) (recipient : String) :
    Tells env (sendOn env m.tenant m.eventType m.channel m.context recipient) := by
  intro σ family hdry
  by_cases hblank : recipient = ""
  · have hskip : sendOn env m.tenant m.eventType m.channel m.context recipient = .ret () :=
      if_pos hblank
    rw [hskip]
    exact tells_ret () σ family hdry
  let row : Notification :=
    { tenant := m.tenant, eventType := m.eventType, channel := m.channel, recipient
      subject := "", body := "", correlationId := env.correlationId }
  have hspread :
      (sendOn env m.tenant m.eventType m.channel m.context recipient).spread family =
        ([.template m], if 255 < recipient.length then .error (.valueError, family)
          else if Support.Text.Fits 64 env.correlationId then
            .ok ((), inTrail (·.addNotifications [row]) ∘ family)
          else .error (.dataError, family)) := by
    have hsubject : (if m.channel = .email then "" else "") = "" := ite_self _
    rw [sendOn, if_neg hblank, Txn.spread_bind, spread_renderTemplate hdry]
    dsimp only
    rw [hsubject, spread_createNotification rfl rfl]
    rfl
  rw [hspread]
  dsimp only
  constructor
  · intro s hs
    have hall : Renderable env s (messagesIn [.template m]) ↔ m.isRenderable env s = true :=
      List.forall_mem_singleton
    rw [exec_sendOn, hall]
    constructor
    · intro hrenderable
      obtain ⟨sent, hsent, hnotice⟩ := noticeOn_renderable hblank hrenderable
      rw [hnotice]
      by_cases hlong : 255 < recipient.length
      · rw [if_pos hlong, if_pos hlong]
        rfl
      rw [if_neg hlong, if_neg hlong]
      by_cases hfits : Support.Text.Fits 64 env.correlationId
      · rw [if_pos hfits, if_pos hfits,
          (hdry.write (withoutTexts_addNotifications [row]) fun _ => rfl).endOf, ← hs]
        have hsame : [sent].map Notification.withoutText =
            [row].map Notification.withoutText := by
          rw [List.map_singleton, hsent]
          rfl
        have hstored := withoutTexts_addNotifications [sent] s
        rw [hsame] at hstored
        exact congrArg (fun u => Except.ok ((), u)) hstored
      · rw [if_neg hfits, if_neg hfits]
        rfl
    · intro hnot
      obtain ⟨e, hnotice, hkind⟩ := noticeOn_unrenderable hblank hnot
      rw [hnotice]
      exact ⟨e, rfl, hkind⟩
  · intro a family' h
    split at h
    · cases h
    split at h
    · obtain ⟨-, rfl⟩ := Prod.mk.inj (Except.ok.inj h)
      exact ⟨_, hdry.write (withoutTexts_addNotifications [row]) fun _ => rfl⟩
    · cases h

theorem Tells.bind {f : α → Tx β} (htemplates : p.Keeps (·.templates)) (hp : Tells env p)
    (hf : ∀ a, Tells env (f a)) : Tells env (p >>= f) := by
  intro σ family hdry
  obtain ⟨hfirst, hafter⟩ := hp σ family hdry
  cases hspread : (p.spread family).2 with
  | error r =>
      rw [Txn.spread_bind_error hspread]
      rw [hspread] at hfirst
      exact ⟨foreseen_bind_error hfirst, fun _ _ h => by cases h⟩
  | ok r =>
      obtain ⟨a, family'⟩ := r
      obtain ⟨τ, hdry'⟩ := hafter a family' hspread
      obtain ⟨hrest, hafter'⟩ := hf a τ family' hdry'
      rw [hspread, hdry'.endOf] at hfirst
      rw [Txn.spread_bind_ok hspread, messagesIn_append]
      exact ⟨foreseen_bind_ok htemplates hfirst hrest, hafter'⟩

theorem Tells.tryAtomic (hp : Tells env p) : Tells env (p.tryAtomic Error.isIntegrityError) := by
  intro σ family hdry
  obtain ⟨hbody, hafter⟩ := hp σ family hdry
  have hforeseen := foreseen_tryAtomic hbody
  rw [Txn.spread_tryAtomic]
  cases hspread : (p.spread family).2 with
  | ok r =>
      obtain ⟨a, family'⟩ := r
      obtain ⟨τ, hdry'⟩ := hafter a family' hspread
      rw [hspread, hdry'.endOf] at hforeseen
      dsimp only
      rw [hdry'.endOf]
      refine ⟨hforeseen, ?_⟩
      intro b family'' h
      obtain ⟨-, rfl⟩ := Prod.mk.inj (Except.ok.inj h)
      exact ⟨τ, hdry'⟩
  | error r =>
      obtain ⟨e, family'⟩ := r
      rw [hspread] at hforeseen
      dsimp only
      by_cases hcaught : e.isIntegrityError = true
      · rw [if_pos hcaught, hdry.endOf]
        simp only [endOf, afterSavepoint, hcaught, if_true] at hforeseen
        refine ⟨hforeseen, ?_⟩
        intro b family'' h
        obtain ⟨-, rfl⟩ := Prod.mk.inj (Except.ok.inj h)
        exact ⟨σ, hdry⟩
      · rw [if_neg hcaught]
        simp only [endOf, afterSavepoint, hcaught] at hforeseen
        exact ⟨hforeseen, fun _ _ h => by cases h⟩

theorem Tells.showingErrors {p : Tx Unit} (hearly : Early p) (hp : Tells env p) :
    Tells env (showingErrors p) := by
  intro σ family hdry
  obtain ⟨hbody, hafter⟩ := hp σ family hdry
  have hforeseen := foreseen_showingErrors hearly hbody
  rw [Kusanya.showingErrors, Txn.pure_eq_ret, Txn.spread_handle]
  cases hspread : (p.spread family).2 with
  | ok r =>
      obtain ⟨a, family'⟩ := r
      obtain ⟨τ, hdry'⟩ := hafter a family' hspread
      rw [hspread, hdry'.endOf] at hforeseen
      dsimp only
      rw [hdry'.endOf]
      exact ⟨hforeseen, fun b family'' h => by
        obtain ⟨-, rfl⟩ := Prod.mk.inj (Except.ok.inj h)
        exact ⟨τ, hdry'⟩⟩
  | error r =>
      obtain ⟨e, family'⟩ := r
      rw [hspread] at hforeseen
      dsimp only
      by_cases hshown : e.isValidationError = true
      · -- The exception is early: nothing has been written.
        obtain ⟨pend, hpend, rfl⟩ := Txn.spread_error_of_wp hearly (fun _ => trivial) hspread
        obtain rfl := hpend hshown
        rw [if_pos hshown]
        simp only [endOf, shown, hshown, if_true] at hforeseen
        refine ⟨?_, fun b family'' h => ?_⟩
        · exact (hdry.endOf ()).symm ▸ hforeseen
        · obtain ⟨-, rfl⟩ := Prod.mk.inj (Except.ok.inj h)
          exact ⟨σ, hdry⟩
      · rw [if_neg hshown]
        simp only [endOf, shown, hshown] at hforeseen
        exact ⟨hforeseen, fun _ _ h => by cases h⟩

end Tells

/-- Whatever is composed of the statements of the services is told by a run over a dry family. -/
theorem Composed.tells {env : Env} {α : Type} {p : Tx α} (hp : Composed env Extra p) :
    Tells env p := by
  induction hp with
  | ret a => exact tells_ret a
  | throw e =>
      intro σ family hdry
      exact ⟨foreseen_of_exec fun s _ => rfl, fun _ _ h => by cases h⟩
  | fetch k q hq hk =>
      intro σ family hdry
      have hquery : messagesIn [k] = [] := by simp [messagesIn, hk]
      have hanswer : q (family k) = q σ := by rw [← hq, hdry.same]
      rw [Txn.spread_fetch, hdry.endOf, hquery, hanswer]
      refine ⟨foreseen_of_exec fun s hs => ?_, fun a family' h => ?_⟩
      · rw [← hs, hq]
        rfl
      · obtain ⟨-, rfl⟩ := Prod.mk.inj (Except.ok.inj h)
        exact ⟨σ, hdry⟩
  | onBooks w => exact tells_modify (w := inBooks w) (fun _ => rfl) fun _ => rfl
  | audit row => exact tells_modify (w := inTrail (·.addAudit row)) (fun _ => rfl) fun _ => rfl
  | delivery row =>
      refine tells_modify (w := inTrail (·.addDelivery row)) (fun s => ?_) fun _ => rfl
      simp [DB.withoutTexts, inTrail, Trail.addDelivery, Task.withoutText]
  | send tenant eventType channel context recipient =>
      exact tells_sendOn { tenant, eventType, channel, context } recipient
  | extra w hw => exact tells_modify hw.withoutTexts hw.templates
  | acquire k => exact tells_idle (fun _ => rfl) fun _ => rfl
  | invoke v => exact tells_idle (fun _ => rfl) fun _ => rfl
  | bind hp _ ihp ihf => exact ihp.bind hp.templates ihf
  | attempt _ ih => exact ih.tryAtomic
  | showing _ hearly ih => exact ih.showingErrors hearly

/-! ## Noninterference -/

/-- The payments, the bills, and everything booked for them. -/
def DB.money (db : DB) :
    List Payment × List Bill × List PaymentAllocation × List LedgerEntry × List RevenueEvent ×
      List Receipt × List ControlNumber :=
  (db.payments, db.bills, db.allocations, db.ledger, db.revenue, db.receipts, db.controlNumbers)

def Request.Raises (request : Request) (s : DB) : Prop := ∃ e, request.handler.exec s = .error e

/-- The request ends in the same money state from `s` and from `t`, and raises from both or from
neither. -/
structure Unaffected (request : Request) (s t : DB) : Prop where
  money : (request.handler.commit s).money = (request.handler.commit t).money
  raises : request.Raises s ↔ request.Raises t

theorem withTemplates_withoutTexts (db : DB) (templates : List NotificationTemplate) :
    (db.withTemplates templates).withoutTexts = db.withoutTexts := rfl

theorem money_withoutTexts (db : DB) : db.withoutTexts.money = db.money := rfl

section Noninterference

variable {request : Request} {s t : DB} {messages : List Message} {σ : DB}

/-- What is foreseen of a request that goes through. -/
theorem Foreseen.commit {a : Unit} {τ : DB}
    (h : Foreseen request.env request.handler σ messages (.ok (a, τ))) (hs : s.withoutTexts = σ) :
    (Renderable request.env s messages → ¬request.Raises s ∧
        (request.handler.commit s).withoutTexts = τ) ∧
      (¬Renderable request.env s messages → request.Raises s) := by
  obtain ⟨hsent, hunsent⟩ := h s hs
  constructor
  · intro hrenderable
    have hok := hsent hrenderable
    cases hexec : request.handler.exec s with
    | error e =>
        rw [hexec] at hok
        cases hok
    | ok r =>
        obtain ⟨⟨⟩, u⟩ := r
        rw [hexec] at hok
        obtain ⟨-, hu⟩ := Prod.mk.inj (Except.ok.inj hok)
        constructor
        · rintro ⟨e, herror⟩
          rw [hexec] at herror
          cases herror
        · rw [Txn.commit_ok hexec, hu]
  · intro hnot
    obtain ⟨e, hexec, -⟩ := hunsent hnot
    exact ⟨e, hexec⟩

/-- A request that is foreseen to raise does so whatever the templates are. -/
theorem Foreseen.raises {e : Error}
    (h : Foreseen request.env request.handler σ messages (.error e)) (hs : s.withoutTexts = σ) :
    request.Raises s := by
  obtain ⟨hsent, hunsent⟩ := h s hs
  by_cases hrenderable : Renderable request.env s messages
  · have herror := hsent hrenderable
    cases hexec : request.handler.exec s with
    | error e' => exact ⟨e', hexec⟩
    | ok r =>
        rw [hexec] at herror
        cases herror
  · obtain ⟨e', hexec, -⟩ := hunsent hrenderable
    exact ⟨e', hexec⟩

theorem commit_of_raises (h : request.Raises s) : request.handler.commit s = s := by
  obtain ⟨e, hexec⟩ := h
  exact Txn.commit_error hexec

end Noninterference

/-- The messages that the request renders where every template is empty. -/
def Request.messages (request : Request) (s : DB) : List Message :=
  messagesIn (request.handler.spread s.dry).1

/-- The request raises where every template is empty. -/
def Request.RaisesAnyway (request : Request) (s : DB) : Prop :=
  ∃ r, (request.handler.spread s.dry).2 = .error r

/-- The small installation, with a customer who can be reached by email. -/
def reachableCustomer : DB :=
  { smallInstallation with customers := [⟨1, 1, "Asha", "asha@school.tz", ""⟩] }

end Kusanya
