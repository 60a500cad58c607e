import Mathlib.Data.List.Nodup
import Kusanya.Model.Login
import Kusanya.ReadCommitted.CommitLog

/-!
# Backup codes are used once

Verifications, new sets and switching off, each in a transaction of its own.  A verification
finds a code unused and marks it used in two statements, a new set deletes the codes that it
found.  Where what a transaction found is still so when it commits, the log of commits uses each
code at most once, and only one of the latest set.
-/

namespace Kusanya.Accounts

open ReadCommitted Support

/-! ## Requests -/

/-- The transactions on backup codes. -/
inductive CodeRequest where
  | verify (context : RequestContext) (now : Time) (user : User) (code : Text)
  | generate (context : RequestContext) (user : User) (drawn : List DrawnCode)
  | disable (context : RequestContext) (user : User)

/-- The transaction of a request; it ends with the key of the backup code that it used, where
`consume_backup_code` returned `True`. -/
def CodeRequest.program (setting : Setting) : CodeRequest → AccountTx (Option ℕ)
  | verify context now user code => do
      let verified ← verifyCode setting context now user code
      pure ((verified.bind (·.backup)).map (·.id))
  | generate context user drawn => do
      generateBackupCodes setting context user drawn
      pure none
  | disable context user => do
      disableMfa setting context user
      pure none

/-- What a statement found is still so: an unused code, or all codes to delete. -/
def FoundCurrent (s : Tables) : AccountKey × Tables → Prop
  | (.unusedCode user lookupHash, v) => ∀ row ∈ v.unusedCode user lookupHash, row ∈ s.backupCodes
  | (.backupCodes user, v) => ∀ id ∈ s.codeIds user, id ∈ v.codeIds user
  | _ => True

/-- What the transaction found is still so. -/
def CodesCurrent (s : Tables) (seen : List (AccountKey × Tables)) : Prop :=
  ∀ x ∈ seen, FoundCurrent s x

instance (s : Tables) (x : AccountKey × Tables) : Decidable (FoundCurrent s x) := by
  unfold FoundCurrent
  split <;> infer_instance

instance (s : Tables) (seen : List (AccountKey × Tables)) : Decidable (CodesCurrent s seen) :=
  inferInstanceAs (Decidable (∀ x ∈ seen, FoundCurrent s x))

/-- The codes with one marked used. -/
def markCode (codes : List BackupCode) (id : ℕ) (now : Time) : List BackupCode :=
  codes.map fun row => if row.id = id then { row with usedAt := some now } else row

/-- What a committed request has done to the codes. -/
def CodeRequest.Effect (setting : Setting) (result : Option ℕ) (s t : List BackupCode) :
    CodeRequest → Prop
  | verify _ now user code =>
      (result = none ∧ t = s) ∨ ∃ row ∈ s, result = some row.id ∧ row.user = user.id ∧
        row.usedAt = none ∧ row.lookupHash = backupCodeLookupHash setting (strip code) ∧
        t = markCode s row.id now
  | generate _ user drawn =>
      result = none ∧ t = newCodes setting user.id drawn ++ s.filter (·.user ≠ user.id)
  | disable _ user => result = none ∧ t = s.filter (·.user ≠ user.id)

/-! ## Programs -/

section Programs

variable {setting : Setting} {φ : AccountKey → Tables → Prop} {κ : AccountCall → Prop}
  {pend : Tables → Tables} {context : RequestContext} {now : Time} {user : User}

/-- The program leaves the codes alone. -/
abbrev LeavesCodes {α : Type} (p : AccountTx α) : Prop :=
  Txn.Frame (fun t : Tables => t.backupCodes) (fun _ => True) p

theorem recordAccountEvent_leavesCodes (action : String) (actor target : Option ℕ) (email : Text) :
    LeavesCodes (recordAccountEvent setting context action actor target email) :=
  Txn.frame_ite (Txn.frame_modify fun _ => rfl) (Txn.frame_throw trivial)

theorem verifyDevice_leavesCodes (device : Option MFADevice) (code : Text) :
    LeavesCodes (verifyDevice setting now device code) := by
  cases device with
  | none => exact Txn.frame_ret _
  | some device =>
      simp only [verifyDevice, verifyTotp]
      split
      · exact Txn.frame_ret _
      · split
        · exact Txn.frame_throw trivial
        · exact Txn.frame_ret _

theorem recordVerified_leavesCodes (device : Option MFADevice) :
    LeavesCodes (recordVerified setting context now user device) := by
  apply Txn.frame_bind (recordAccountEvent_leavesCodes _ _ _ _)
  intro _
  cases device with
  | none => exact Txn.frame_ret _
  | some device =>
      apply Txn.frame_bind (Txn.frame_fetch _ _)
      intro found
      exact Txn.frame_ite (Txn.frame_modify fun _ => rfl) (Txn.frame_throw trivial)

/-- What `consume_backup_code` is going to commit. -/
theorem wp_consumeBackupCode (code : Text) {Q : Option BackupCode → (Tables → Tables) → Prop}
    {R : AccountError → (Tables → Tables) → Prop} (hR : ∀ e p, R e p)
    (hpend : ∀ s, (pend s).backupCodes = s.backupCodes)
    (hnone : ∀ p, (∀ s, (p s).backupCodes = s.backupCodes) → Q none p)
    (hsome : ∀ v row p, φ (.unusedCode user.id (backupCodeLookupHash setting code)) v →
      v.unusedCode user.id (backupCodeLookupHash setting code) = some row →
      (∀ s, (p s).backupCodes = markCode s.backupCodes row.id now) → Q (some row) p) :
    (consumeBackupCode setting context now user code).wp κ φ pend Q R := by
  unfold consumeBackupCode
  rw [Txn.wp_ite]
  refine ⟨fun _ => hnone pend hpend, fun _ => ?_⟩
  rw [Txn.wp_bind, Txn.wp_fetch]
  intro v hv
  have hfound : (pend v).unusedCode user.id (backupCodeLookupHash setting code) =
      v.unusedCode user.id (backupCodeLookupHash setting code) := by
    rw [Tables.unusedCode, Tables.unusedCode, hpend]
  rw [hfound]
  cases hrow : v.unusedCode user.id (backupCodeLookupHash setting code) with
  | none => exact hnone pend hpend
  | some row =>
      simp only [BackupCode.markUsed, Txn.wp_bind, Txn.wp_acquire, Txn.wp_fetch, Txn.wp_ite,
        Txn.wp_modify, Txn.wp_throw]
      intro w _
      refine ⟨fun _ => ?_, fun _ => hR _ _⟩
      refine (recordAccountEvent_leavesCodes _ _ _ _).wp (fun _ p hp => ?_) fun e p _ _ => hR e p
      apply hsome v row p hv hrow
      intro s
      rw [hp s, ← hpend s]
      rfl

theorem wp_verify (code : Text) {Q : Option ℕ → (Tables → Tables) → Prop}
    {R : AccountError → (Tables → Tables) → Prop} (hR : ∀ e p, R e p)
    (hnone : ∀ p, (∀ s, (p s).backupCodes = s.backupCodes) → Q none p)
    (hsome : ∀ v row p,
      φ (.unusedCode user.id (backupCodeLookupHash setting (strip code))) v →
      v.unusedCode user.id (backupCodeLookupHash setting (strip code)) = some row →
      (∀ s, (p s).backupCodes = markCode s.backupCodes row.id now) → Q (some row.id) p) :
    ((CodeRequest.verify context now user code).program setting).wp (fun _ => True) φ id Q R := by
  simp only [CodeRequest.program, verifyCode, Txn.wp_bind, Txn.wp_fetch]
  intro v hv
  refine (verifyDevice_leavesCodes _ _).wp (fun accepted p hp => ?_) fun e p _ _ => hR e p
  have hrest : ∀ backup : Option BackupCode, ∀ p' : Tables → Tables,
      (∀ p'', (∀ s, (p'' s).backupCodes = (p' s).backupCodes) →
        (backup = none → Q none p'') ∧ ∀ row, backup = some row → Q (some row.id) p'') →
      Txn.wp (fun _ => True) φ
        (if accepted || backup.isSome then do
            Txn.invoke (.reset .mfa (mfaIdentifier user))
            recordVerified setting context now user ((id v).confirmedDevice user.id)
            pure (some { user, backup })
          else pure none : AccountTx (Option Verified)) p'
        (fun verified p'' => Txn.wp (fun _ => True) φ
          (pure ((verified.bind (·.backup)).map (·.id)) : AccountTx (Option ℕ)) p'' Q R) R := by
    intro backup p' hQ
    rw [Txn.wp_ite]
    refine ⟨fun _ => ?_, fun hnot => ?_⟩
    · simp only [Txn.wp_bind, Txn.wp_invoke]
      refine ⟨trivial, ?_⟩
      refine (recordVerified_leavesCodes _).wp (fun _ p'' hp'' => ?_) fun e p _ _ => hR e p
      cases backup with
      | none => exact (hQ p'' hp'').1 rfl
      | some row => exact (hQ p'' hp'').2 row rfl
    · cases backup with
      | none => exact (hQ p' fun _ => rfl).1 rfl
      | some row => simp at hnot
  have hno : ∀ p' : Tables → Tables, (∀ s, (p' s).backupCodes = s.backupCodes) →
      ∀ p'' : Tables → Tables, (∀ s, (p'' s).backupCodes = (p' s).backupCodes) →
      ((none : Option BackupCode) = none → Q none p'') ∧
        ∀ row, (none : Option BackupCode) = some row → Q (some row.id) p'' := by
    intro p' hp' p'' hp''
    constructor
    · exact fun _ => hnone p'' fun s => (hp'' s).trans (hp' s)
    · intro row hrow
      cases hrow
  unfold consumeUnless
  rw [Txn.wp_ite]
  constructor
  · exact fun _ => hrest none p (hno p hp)
  · intro _
    apply wp_consumeBackupCode _ hR hp
    · exact fun p' hp' => hrest none p' (hno p' hp')
    · intro v row p' hv hrow hp'
      apply hrest (some row) p'
      intro p'' hp''
      constructor
      · intro hnone
        cases hnone
      · intro row' hrow'
        obtain rfl := Option.some.inj hrow'
        exact hsome v row p'' hv hrow fun s => (hp'' s).trans (hp' s)

/-- What `BackupCode.objects.filter(user=user).delete()` is going to commit. -/
theorem wp_deleteBackupCodes (id : ℕ) {Q : Unit → (Tables → Tables) → Prop}
    {R : AccountError → (Tables → Tables) → Prop}
    (hpend : ∀ s, (pend s).backupCodes = s.backupCodes)
    (hQ : ∀ v p, φ (.backupCodes id) v → (∀ s, (p s).backupCodes = s.backupCodes.filter fun row =>
      !(row.user = id && row.id ∈ v.codeIds id)) → Q () p) :
    (deleteBackupCodes id).wp κ φ pend Q R := by
  have hlocks : ∀ found : List ℕ, Txn.Frame (fun t : Tables => t.backupCodes) (fun _ => False)
      (found.forM fun code => (Txn.acquire (.backupCode code) : AccountTx Unit)) := by
    intro found
    induction found with
    | nil => exact Txn.frame_ret _
    | cons code found ih => exact Txn.frame_bind (fun pend s => rfl) fun _ => ih
  simp only [deleteBackupCodes, Txn.wp_bind, Txn.wp_fetch]
  intro v hv
  refine (hlocks _).wp (fun _ p hp => ?_) fun e p he _ => he.elim
  rw [Txn.wp_modify]
  apply hQ v _ hv
  intro s
  have hfound : (pend v).codeIds id = v.codeIds id := by
    rw [Tables.codeIds, Tables.codeIds, hpend]
  simp only [Function.comp_apply, Tables.deleteCodes, hp, hpend, hfound]

theorem wp_generate (drawn : List DrawnCode) {Q : Option ℕ → (Tables → Tables) → Prop}
    {R : AccountError → (Tables → Tables) → Prop} (hR : ∀ e p, R e p)
    (hQ : ∀ v p, φ (.backupCodes user.id) v →
      (∀ s, (p s).backupCodes = newCodes setting user.id drawn ++ s.backupCodes.filter fun row =>
        !(row.user = user.id && row.id ∈ v.codeIds user.id)) → Q none p) :
    ((CodeRequest.generate context user drawn).program setting).wp κ φ id Q R := by
  simp only [CodeRequest.program, generateBackupCodes, Txn.wp_bind, Txn.wp_modify,
    Txn.pure_eq_ret, Txn.wp_ret]
  refine wp_deleteBackupCodes user.id (fun s => rfl) fun v p hv hp => ?_
  refine (recordAccountEvent_leavesCodes _ _ _ _).wp (fun _ p' hp' => ?_) fun e p _ _ => hR e p
  apply hQ v p' hv
  intro s
  simp only [hp', Function.comp_apply, hp]

theorem wp_disable {Q : Option ℕ → (Tables → Tables) → Prop}
    {R : AccountError → (Tables → Tables) → Prop} (hR : ∀ e p, R e p)
    (hQ : ∀ v p, φ (.backupCodes user.id) v → (∀ s, (p s).backupCodes =
      s.backupCodes.filter fun row => !(row.user = user.id && row.id ∈ v.codeIds user.id)) →
      Q none p) :
    ((CodeRequest.disable context user).program setting).wp κ φ id Q R := by
  simp only [CodeRequest.program, disableMfa, Txn.wp_bind, Txn.wp_modify, Txn.pure_eq_ret,
    Txn.wp_ret]
  refine wp_deleteBackupCodes user.id (fun s => rfl) fun v p hv hp => ?_
  refine (recordAccountEvent_leavesCodes _ _ _ _).wp (fun _ p' hp' => ?_) fun e p _ _ => hR e p
  apply hQ v p' hv
  intro s
  simp only [hp', hp]

/-- Deleting the codes that were found deletes all codes, if there are no others by now. -/
theorem filter_found {s : Tables} {id : ℕ} {found : List ℕ}
    (h : ∀ code ∈ s.codeIds id, code ∈ found) :
    (s.backupCodes.filter fun row => !(row.user = id && row.id ∈ found)) =
      s.backupCodes.filter (·.user ≠ id) := by
  apply List.filter_congr
  intro row hrow
  by_cases huser : row.user = id
  · have hmem : row.id ∈ s.codeIds id :=
      List.mem_map_of_mem (List.mem_filter.mpr ⟨hrow, decide_eq_true huser⟩)
    simp [huser, h _ hmem]
  · simp [huser]

/-- What a transaction commits on current codes. -/
theorem codeRequest_effect {request : CodeRequest} {s : Tables} {p : Tables → Tables}
    {seen : List (AccountKey × Tables)} {result : Option ℕ}
    (hleaves : (request.program setting).Leaves seen (.ret result) p)
    (hcurrent : CodesCurrent s seen) :
    request.Effect setting result s.backupCodes (p s).backupCodes := by
  have hend : ∀ Q : Option ℕ → (Tables → Tables) → Prop,
      (request.program setting).wp (fun _ => True) (fun k v => (k, v) ∈ seen) id Q
        (fun _ _ => True) → Q result p :=
    fun Q hwp => hleaves _ _ Q _ (fun _ hx => hx) hwp
  cases request with
  | verify context now user code =>
      refine hend
        (fun a p => (CodeRequest.verify context now user code).Effect setting a s.backupCodes
        (p s).backupCodes) (wp_verify code (fun _ _ => trivial) (fun p hp => ?_)
          fun v row p hv hfound hp => ?_)
      · exact Or.inl ⟨rfl, hp s⟩
      · have hrow := hcurrent _ hv row hfound
        have hkey := List.find?_some hfound
        simp only [Bool.and_eq_true, decide_eq_true_eq, Option.isNone_iff_eq_none] at hkey
        exact Or.inr ⟨row, hrow, rfl, hkey.1.1, hkey.2, hkey.1.2, hp s⟩
  | generate context user drawn =>
      refine hend
        (fun a p => (CodeRequest.generate context user drawn).Effect setting a s.backupCodes
        (p s).backupCodes) (wp_generate drawn (fun _ _ => trivial) fun v p hv hp => ⟨rfl, ?_⟩)
      have hfound := hcurrent _ hv
      rw [hp, filter_found hfound]
  | disable context user =>
      refine hend (fun a p => (CodeRequest.disable context user).Effect setting a s.backupCodes
        (p s).backupCodes) (wp_disable (fun _ _ => trivial) fun v p hv hp => ⟨rfl, ?_⟩)
      have hfound := hcurrent _ hv
      rw [hp, filter_found hfound]

end Programs

/-! ## The log of commits -/

/-- The keys that a request draws for its codes. -/
def CodeRequest.drawnIds : CodeRequest → List ℕ
  | generate _ _ drawn => drawn.map (·.id)
  | _ => []

/-- The key and the hash. -/
def BackupCode.label (row : BackupCode) : ℕ × Text := (row.id, row.lookupHash)

/-- A code by its key and its hash. -/
abbrev Label := ℕ × Text

/-- The user's set after a committed request. -/
def CodeRequest.nextSet (setting : Setting) (user : ℕ) (current : List Label) :
    CodeRequest → List Label
  | verify _ _ _ _ => current
  | generate _ owner drawn =>
      if owner.id = user then (newCodes setting user drawn).map BackupCode.label else current
  | disable _ owner => if owner.id = user then [] else current

/-- The set of the user's codes when the requests of the log have committed: that of the last
`generate_backup_codes`, and none after a later `disable_mfa`. -/
def latestSet (setting : Setting) (start : Tables) (requests : List CodeRequest) (user : ℕ)
    (log : List (ℕ × Option ℕ)) : List Label :=
  (log.filterMap fun entry => requests[entry.1]?).foldl (CodeRequest.nextSet setting user)
    ((start.backupCodes.filter (·.user = user)).map BackupCode.label)

/-- Primary keys are drawn once. -/
def DistinctKeys (start : Tables) (requests : List CodeRequest) : Prop :=
  (start.backupCodes.map (·.id) ++ requests.flatMap CodeRequest.drawnIds).Nodup

instance (start : Tables) (requests : List CodeRequest) : Decidable (DistinctKeys start requests) :=
  inferInstanceAs (Decidable (List.Nodup _))

section Log

variable {setting : Setting} {start : Tables} {requests : List CodeRequest}
  {log : List (ℕ × Option ℕ)} {codes : List BackupCode}

theorem latestSet_concat (user : ℕ) (log : List (ℕ × Option ℕ)) {entry : ℕ × Option ℕ}
    {request : CodeRequest} (h : requests[entry.1]? = some request) :
    latestSet setting start requests user (log ++ [entry]) =
      request.nextSet setting user (latestSet setting start requests user log) := by
  have hentry : [entry].filterMap (fun entry => requests[entry.1]?) = [request] := by
    simp [h]
  rw [latestSet, List.filterMap_append, List.foldl_append, hentry]
  rfl

/-- A key that the start or a committed request brought. -/
def Issued (start : Tables) (requests : List CodeRequest) (log : List (ℕ × Option ℕ)) (id : ℕ) :
    Prop :=
  id ∈ start.backupCodes.map (·.id) ∨
    ∃ entry ∈ log, ∃ request, requests[entry.1]? = some request ∧ id ∈ request.drawnIds

/-- What the log says about the codes: they are those of the latest sets, what was used stays
used, and nothing was used twice. -/
structure Spent (setting : Setting) (start : Tables) (requests : List CodeRequest)
    (log : List (ℕ × Option ℕ)) (codes : List BackupCode) : Prop where
  sets : ∀ user, (codes.filter (·.user = user)).map BackupCode.label =
    latestSet setting start requests user log
  issued : ∀ row ∈ codes, Issued start requests log row.id
  used : ∀ id ∈ log.filterMap Prod.snd, Issued start requests log id ∧
    ∀ row ∈ codes, row.id = id → row.usedAt ≠ none
  once : (log.filterMap Prod.snd).Nodup

theorem spent_start : Spent setting start requests [] start.backupCodes where
  sets _ := rfl
  issued _ hrow := Or.inl (List.mem_map_of_mem hrow)
  used _ h := absurd h List.not_mem_nil
  once := List.nodup_nil

theorem Issued.concat {id : ℕ} (h : Issued start requests log id) (entry : ℕ × Option ℕ) :
    Issued start requests (log ++ [entry]) id := by
  rcases h with h | ⟨x, hx, request⟩
  · exact Or.inl h
  · exact Or.inr ⟨x, List.mem_append_left _ hx, request⟩

/-- What a request that has not committed yet draws is new. -/
theorem not_issued (hkeys : DistinctKeys start requests) {i : ℕ} {request : CodeRequest}
    (hi : i ∉ log.map Prod.fst) (hrequest : requests[i]? = some request) {id : ℕ}
    (hid : id ∈ request.drawnIds) : ¬Issued start requests log id := by
  obtain ⟨-, hdrawn, hstart⟩ := List.nodup_append.mp hkeys
  obtain ⟨-, hapart⟩ := List.nodup_flatMap.mp hdrawn
  rintro (hold | ⟨entry, hentry, other, hother, hid'⟩)
  · have hmem := List.mem_flatMap.mpr ⟨request, List.mem_of_getElem? hrequest, hid⟩
    exact hstart id hold id hmem rfl
  · have hne : entry.1 ≠ i := fun heq => hi (heq ▸ List.mem_map_of_mem hentry)
    obtain ⟨hlt, hget⟩ := List.getElem?_eq_some_iff.mp hrequest
    obtain ⟨hlt', hget'⟩ := List.getElem?_eq_some_iff.mp hother
    subst hget hget'
    rcases Nat.lt_or_gt_of_ne hne with hbefore | hafter
    · exact List.pairwise_iff_getElem.mp hapart _ _ hlt' hlt hbefore hid' hid
    · exact List.pairwise_iff_getElem.mp hapart _ _ hlt hlt' hafter hid hid'

theorem markCode_labels (codes : List BackupCode) (id : ℕ) (now : Time) (user : ℕ) :
    ((markCode codes id now).filter (·.user = user)).map BackupCode.label =
      (codes.filter (·.user = user)).map BackupCode.label := by
  induction codes with
  | nil => rfl
  | cons row codes ih =>
      have hrow : ∀ row' : BackupCode, row'.user = row.user → row'.label = row.label →
          ((row' :: markCode codes id now).filter (·.user = user)).map BackupCode.label =
            ((row :: codes).filter (·.user = user)).map BackupCode.label := by
        intro row' huser hlabel
        rw [List.filter_cons, List.filter_cons, huser]
        split
        · rw [List.map_cons, List.map_cons, hlabel, ih]
        · exact ih
      rw [markCode, List.map_cons]
      split
      · exact hrow _ rfl rfl
      · exact hrow _ rfl rfl

theorem mem_markCode {id : ℕ} {now : Time} {row : BackupCode} (h : row ∈ markCode codes id now) :
    (row.id = id ∧ row.usedAt ≠ none ∧ ∃ old ∈ codes, old.id = row.id) ∨
      row.id ≠ id ∧ row ∈ codes := by
  obtain ⟨old, hold, rfl⟩ := List.mem_map.mp h
  by_cases hid : old.id = id
  · rw [if_pos hid]
    exact Or.inl ⟨hid, Option.some_ne_none _, old, hold, rfl⟩
  · rw [if_neg hid]
    exact Or.inr ⟨hid, hold⟩

theorem filter_newCodes (owner user : ℕ) (drawn : List DrawnCode) :
    (newCodes setting owner drawn).filter (·.user = user) =
      if owner = user then newCodes setting owner drawn else [] := by
  split
  · next h =>
      apply List.filter_eq_self.mpr
      intro row hrow
      obtain ⟨code, -, rfl⟩ := List.mem_map.mp hrow
      exact decide_eq_true h
  · next h =>
      apply List.filter_eq_nil_iff.mpr
      intro row hrow
      obtain ⟨code, -, rfl⟩ := List.mem_map.mp hrow
      exact fun huser => h (of_decide_eq_true huser)

/-- Of the codes of a user, without those of `owner`. -/
theorem filter_deleted (owner user : ℕ) (codes : List BackupCode) :
    (codes.filter (·.user ≠ owner)).filter (·.user = user) =
      if owner = user then [] else codes.filter (·.user = user) := by
  rw [List.filter_filter]
  split
  · next h =>
      apply List.filter_eq_nil_iff.mpr
      intro row _
      simp [h]
  · next h =>
      apply List.filter_congr
      intro row _
      by_cases huser : row.user = user
      · simp [huser, Ne.symm h]
      · simp [huser]

theorem newCodes_drawn {owner : ℕ} {drawn : List DrawnCode} {row : BackupCode}
    (h : row ∈ newCodes setting owner drawn) : row.id ∈ drawn.map (·.id) := by
  obtain ⟨code, hcode, rfl⟩ := List.mem_map.mp h
  exact List.mem_map_of_mem hcode

/-- The sets after a request that used nothing. -/
theorem Spent.unused {i : ℕ} {request : CodeRequest} {after : List BackupCode}
    (h : Spent setting start requests log codes) (hrequest : requests[i]? = some request)
    (hsets : ∀ user, (after.filter (·.user = user)).map BackupCode.label =
      request.nextSet setting user ((codes.filter (·.user = user)).map BackupCode.label))
    (hnew : ∀ row ∈ after, row ∈ codes ∨
      row.id ∈ request.drawnIds ∧ ¬Issued start requests log row.id) :
    Spent setting start requests (log ++ [(i, none)]) after := by
  have huses : (log ++ [(i, none)]).filterMap Prod.snd = log.filterMap Prod.snd := by
    rw [List.filterMap_append]
    exact List.append_nil _
  constructor
  · intro user
    rw [latestSet_concat user log hrequest, hsets, h.sets]
  · intro row hrow
    rcases hnew row hrow with hold | ⟨hid, -⟩
    · exact (h.issued row hold).concat _
    · exact Or.inr ⟨(i, none), List.mem_append_right _ List.mem_cons_self, request, hrequest, hid⟩
  · intro id hid
    rw [huses] at hid
    obtain ⟨hissued, hrows⟩ := h.used id hid
    refine ⟨hissued.concat _, fun row hrow heq => ?_⟩
    rcases hnew row hrow with hold | ⟨-, hfresh⟩
    · exact hrows row hold heq
    · exact absurd (heq ▸ hissued) hfresh
  · rw [huses]
    exact h.once

/-- A commit keeps the books. -/
theorem Spent.commit (h : Spent setting start requests log codes)
    (hkeys : DistinctKeys start requests) {i : ℕ} {result : Option ℕ} {request : CodeRequest}
    {after : List BackupCode} (hi : i ∉ log.map Prod.fst) (hrequest : requests[i]? = some request)
    (heffect : request.Effect setting result codes after) :
    Spent setting start requests (log ++ [(i, result)]) after := by
  cases request with
  | verify context now user code =>
      rcases heffect with ⟨rfl, rfl⟩ | ⟨row, hrow, rfl, -, hunused, -, rfl⟩
      · exact h.unused hrequest (fun _ => rfl) fun row hrow => Or.inl hrow
      · have huses : (log ++ [(i, some row.id)]).filterMap Prod.snd =
            log.filterMap Prod.snd ++ [row.id] := by
          rw [List.filterMap_append]
          rfl
        constructor
        · intro user'
          rw [latestSet_concat user' log hrequest, markCode_labels, h.sets]
          rfl
        · intro row' hrow'
          rcases mem_markCode hrow' with ⟨-, -, old, hold, hid⟩ | ⟨-, hold⟩
          · exact hid ▸ (h.issued old hold).concat _
          · exact (h.issued row' hold).concat _
        · intro id hid
          rw [huses, List.mem_append, List.mem_singleton] at hid
          constructor
          · rcases hid with hid | rfl
            · exact (h.used id hid).1.concat _
            · exact (h.issued row hrow).concat _
          · intro row' hrow' heq
            rcases mem_markCode hrow' with ⟨-, hused, -⟩ | ⟨hne, hold⟩
            · exact hused
            · rcases hid with hid | rfl
              · exact (h.used id hid).2 row' hold heq
              · exact absurd heq hne
        · rw [huses]
          apply List.nodup_append.mpr
          refine ⟨h.once, List.nodup_singleton _, ?_⟩
          rintro id hid _ hrow' rfl
          obtain rfl := List.mem_singleton.mp hrow'
          exact (h.used _ hid).2 row hrow rfl hunused
  | generate context owner drawn =>
      obtain ⟨rfl, rfl⟩ := heffect
      apply h.unused hrequest
      · intro user
        rw [List.filter_append, filter_newCodes, filter_deleted]
        by_cases howner : owner.id = user
        · simp [CodeRequest.nextSet, howner]
        · simp [CodeRequest.nextSet, howner]
      · intro row hrow
        rcases List.mem_append.mp hrow with hnew | hold
        · have hid := newCodes_drawn hnew
          exact Or.inr ⟨hid, not_issued hkeys hi hrequest hid⟩
        · exact Or.inl (List.mem_of_mem_filter hold)
  | disable context owner =>
      obtain ⟨rfl, rfl⟩ := heffect
      apply h.unused hrequest
      · intro user
        rw [filter_deleted]
        by_cases howner : owner.id = user
        · simp [CodeRequest.nextSet, howner]
        · simp [CodeRequest.nextSet, howner]
      · exact fun row hrow => Or.inl (List.mem_of_mem_filter hrow)

end Log

/-! ## Codes are used once -/

/-- A code without its letter case and the blanks around it. -/
def normalForm (setting : Setting) (code : Text) : Text := setting.upper (strip code)

/-- The request replaces or deletes the codes of the user. -/
def CodeRequest.Replaces (user : ℕ) : CodeRequest → Prop
  | verify _ _ _ _ => False
  | generate _ owner _ => owner.id = user
  | disable _ owner => owner.id = user

/-- What a log of commits says when backup codes are single-use. -/
structure SingleUse (setting : Setting) (start : Tables) (requests : List CodeRequest)
    (log : List (ℕ × Option ℕ)) : Prop where
  /-- No code is used twice. -/
  once : (log.filterMap Prod.snd).Nodup
  /-- What a request uses is the code that it was sent, of the latest set. -/
  latest : ∀ before i id after, log = before ++ (i, some id) :: after →
    ∃ context now user code, requests[i]? = some (.verify context now user code) ∧
      (id, backupCodeLookupHash setting (strip code)) ∈
        latestSet setting start requests user.id before
  /-- A code is accepted once in all its spellings, until it comes up in a later set. -/
  spelled : ∀ before i id between j id' after context now user code context' now' user' code',
    log = before ++ (i, some id) :: between ++ (j, some id') :: after →
    requests[i]? = some (.verify context now user code) →
    requests[j]? = some (.verify context' now' user' code') → user.id = user'.id →
    normalForm setting (strip code) = normalForm setting (strip code') →
    ∃ entry ∈ between, ∃ request, requests[entry.1]? = some request ∧ request.Replaces user.id

/-- The codes of one set are distinct. -/
def DistinctCodes (setting : Setting) (start : Tables) (requests : List CodeRequest) : Prop :=
  (∀ user, ((start.backupCodes.filter (·.user = user)).map (·.lookupHash)).Nodup) ∧
    ∀ context owner drawn, CodeRequest.generate context owner drawn ∈ requests →
      (drawn.map fun code => normalForm setting code.raw).Nodup

section Uses

variable {setting : Setting} {start : Tables} {requests : List CodeRequest}

theorem newCodes_hashes (hhmac : setting.hmac.Injective) (owner : ℕ) {drawn : List DrawnCode}
    (h : (drawn.map fun code => normalForm setting code.raw).Nodup) :
    (((newCodes setting owner drawn).map BackupCode.label).map Prod.snd).Nodup := by
  have hhashes : ((newCodes setting owner drawn).map BackupCode.label).map Prod.snd =
      (drawn.map fun code => normalForm setting code.raw).map setting.hmac := by
    simp only [newCodes, List.map_map]
    rfl
  rw [hhashes]
  exact h.map hhmac

/-- The hashes of a set are distinct. -/
theorem latestSet_hashes (hhmac : setting.hmac.Injective)
    (hcodes : DistinctCodes setting start requests) (user : ℕ) (log : List (ℕ × Option ℕ)) :
    ((latestSet setting start requests user log).map Prod.snd).Nodup := by
  have hstep : ∀ (steps : List CodeRequest) (current : List Label),
      (∀ request ∈ steps, request ∈ requests) → (current.map Prod.snd).Nodup →
      ((steps.foldl (CodeRequest.nextSet setting user) current).map Prod.snd).Nodup := by
    intro steps
    induction steps with
    | nil => exact fun _ _ h => h
    | cons request steps ih =>
        intro current hsteps hcurrent
        obtain ⟨hrequest, hrest⟩ := List.forall_mem_cons.mp hsteps
        apply ih _ hrest
        cases request with
        | verify context now owner code => exact hcurrent
        | generate context owner drawn =>
            rw [CodeRequest.nextSet]
            split
            · exact newCodes_hashes hhmac user (hcodes.2 context owner drawn hrequest)
            · exact hcurrent
        | disable context owner =>
            rw [CodeRequest.nextSet]
            split
            · exact List.nodup_nil
            · exact hcurrent
  apply hstep
  · intro request hrequest
    obtain ⟨entry, -, hget⟩ := List.mem_filterMap.mp hrequest
    exact List.mem_of_getElem? hget
  · rw [List.map_map]
    exact hcodes.1 user

/-- The set stays while nothing replaces it. -/
theorem latestSet_kept {user : ℕ} {between : List (ℕ × Option ℕ)} (before : List (ℕ × Option ℕ))
    (h : ∀ entry ∈ between, ∀ request, requests[entry.1]? = some request →
      ¬request.Replaces user) :
    latestSet setting start requests user (before ++ between) =
      latestSet setting start requests user before := by
  induction between generalizing before with
  | nil => rw [List.append_nil]
  | cons entry between ih =>
      obtain ⟨hentry, hrest⟩ := List.forall_mem_cons.mp h
      have hone : latestSet setting start requests user (before ++ [entry]) =
          latestSet setting start requests user before := by
        cases hget : requests[entry.1]? with
        | none => simp [latestSet, hget]
        | some request =>
            have hkept := hentry request hget
            rw [latestSet_concat user before hget]
            cases request with
            | verify context now owner code => rfl
            | generate context owner drawn => exact if_neg hkept
            | disable context owner => exact if_neg hkept
      have hlater := ih (before ++ [entry]) hrest
      rwa [List.append_assoc, hone] at hlater

/-- The committed effects of the log, from `s` to `t`. -/
abbrev CommitTells (setting : Setting) (requests : List CodeRequest) (s : Tables)
    (log : List (ℕ × Option ℕ)) (t : Tables) : Prop :=
  Tells (fun x s t => ∃ request, requests[x.1]? = some request ∧
    request.Effect setting x.2 s.backupCodes t.backupCodes) s log t

theorem CommitTells.spent {log : List (ℕ × Option ℕ)} {t : Tables}
    (h : CommitTells setting requests start log t) (hkeys : DistinctKeys start requests)
    (hlog : (log.map Prod.fst).Nodup) : Spent setting start requests log t.backupCodes := by
  let I (log : List (ℕ × Option ℕ)) (s : Tables) : Prop :=
    (log.map Prod.fst).Nodup → Spent setting start requests log s.backupCodes
  have hstart : I [] start := fun _ => spent_start
  refine h.invariant hstart ?_ hlog
  rintro earlier ⟨i, result⟩ s t hs ⟨request, hrequest, heffect⟩ hnodup
  rw [List.map_append] at hnodup
  obtain ⟨hearlier, -, hnew⟩ := List.nodup_append.mp hnodup
  refine (hs hearlier).commit hkeys (fun hi => ?_) hrequest heffect
  exact hnew i hi i List.mem_cons_self rfl

theorem CommitTells.singleUse {log : List (ℕ × Option ℕ)} {t : Tables}
    (h : CommitTells setting requests start log t) (hkeys : DistinctKeys start requests)
    (hcodes : DistinctCodes setting start requests) (hhmac : setting.hmac.Injective)
    (hlog : (log.map Prod.fst).Nodup) : SingleUse setting start requests log := by
  have hlatest : ∀ before i id after, log = before ++ (i, some id) :: after →
      ∃ context now user code, requests[i]? = some (.verify context now user code) ∧
        (id, backupCodeLookupHash setting (strip code)) ∈
          latestSet setting start requests user.id before := by
    rintro before i id after rfl
    obtain ⟨s, hbefore, hrest⟩ := Tells.split h
    rw [List.map_append] at hlog
    have hspent := CommitTells.spent hbefore hkeys (List.nodup_append.mp hlog).1
    cases hrest with
    | cons first _ =>
        obtain ⟨request, hrequest, heffect⟩ := first
        cases request with
        | verify context now user code =>
            refine ⟨context, now, user, code, hrequest, ?_⟩
            rcases heffect with ⟨hnone, -⟩ | ⟨row, hrow, hid, huser, -, hhash, -⟩
            · cases hnone
            · obtain rfl := Option.some.inj hid
              rw [← hspent.sets, ← hhash]
              exact List.mem_map_of_mem (List.mem_filter.mpr ⟨hrow, decide_eq_true huser⟩)
        | generate context owner drawn => cases heffect.1
        | disable context owner => cases heffect.1
  have honce := (CommitTells.spent h hkeys hlog).once
  refine ⟨honce, hlatest, ?_⟩
  intro before i id between j id' after context now user code context' now' user' code' heq hi hj
    huser hform
  by_contra hno
  push Not at hno
  -- the two uses find the same hash in the same set, so the same code
  have hfirst : (id, backupCodeLookupHash setting (strip code)) ∈
      latestSet setting start requests user.id before := by
    obtain ⟨_, now₁, user₁, code₁, hi₁, hmem⟩ :=
      hlatest before i id (between ++ (j, some id') :: after) (by rw [heq, List.append_assoc]; rfl)
    rw [hi] at hi₁
    cases hi₁
    exact hmem
  have hsecond : (id', backupCodeLookupHash setting (strip code)) ∈
      latestSet setting start requests user.id before := by
    obtain ⟨_, now₁, user₁, code₁, hj₁, hmem⟩ :=
      hlatest (before ++ (i, some id) :: between) j id' after heq
    rw [hj] at hj₁
    cases hj₁
    have hhash : backupCodeLookupHash setting (strip code') =
        backupCodeLookupHash setting (strip code) :=
      congrArg setting.hmac hform.symm
    rw [hhash, ← huser, latestSet_kept before] at hmem
    · exact hmem
    · intro entry hentry request hrequest
      rcases List.mem_cons.mp hentry with rfl | hbetween
      · rw [hi] at hrequest
        cases hrequest
        exact fun hreplaces => hreplaces
      · exact hno entry hbetween request hrequest
  have hid : id = id' := by
    have hinj := List.inj_on_of_nodup_map (latestSet_hashes hhmac hcodes user.id before)
    exact congrArg Prod.fst (hinj hfirst hsecond rfl)
  subst hid
  rw [heq, List.filterMap_append, List.filterMap_append] at honce
  obtain ⟨-, -, hapart⟩ := List.nodup_append.mp honce
  refine hapart id ?_ id List.mem_cons_self rfl
  exact List.mem_append_right _ List.mem_cons_self

end Uses

/-- Where every verification commits over the unused row that it found, and a deletion over the
codes that it found, backup codes are used once. -/
theorem backup_codes_single_use (setting : Setting) (start : Tables) (requests : List CodeRequest)
    (hhmac : setting.hmac.Injective) (hcodes : DistinctCodes setting start requests)
    (hkeys : DistinctKeys start requests) (schedule : List Event)
    (hmeets : Config.CommitsMeet (fun s _ seen => CodesCurrent s seen)
      (Config.start start (requests.map (CodeRequest.program setting))) schedule) :
    SingleUse setting start requests
      ((Config.start start (requests.map (CodeRequest.program setting))).commits schedule) := by
  have htells : CommitTells setting requests start
      ((Config.start start (requests.map (CodeRequest.program setting))).commits schedule)
      ((Config.start start (requests.map (CodeRequest.program setting))).run schedule).store := by
    refine Config.run_tells (J := fun _ => True) ?_ (Config.sound_start trivial) schedule hmeets
    intro i p hp s pend seen a _ _ hleaves hcurrent
    rw [List.getElem?_map] at hp
    obtain ⟨request, hrequest, rfl⟩ := Option.map_eq_some_iff.mp hp
    exact ⟨trivial, request, hrequest, codeRequest_effect hleaves hcurrent⟩
  exact htells.singleUse hkeys hcodes hhmac (Config.commits_nodup _ schedule)

/-! ## One after the other, and at once -/

def codesUser : User :=
  { id := 1, email := "a@x".toList, password := [], isActive := true, isStaff := false }

def noCodes : Tables := { users := [codesUser], devices := [], backupCodes := [], auditLog := [] }

/-- A set of two codes, and the first of them in lower case. -/
def generateThenUse : List CodeRequest :=
  [.generate plainContext codesUser [⟨1, "ABCDE-12345".toList⟩, ⟨2, "FGHIJ-67890".toList⟩],
   .verify plainContext 5 codesUser " abcde-12345".toList]

/-- The transactions of the requests, about to start. -/
abbrev codesStart (start : Tables) (requests : List CodeRequest) :
    Config Tables AccountKey AccountError AccountCall (Option ℕ) :=
  Config.start start (requests.map (CodeRequest.program plainSetting))

/-- The first transaction runs to its end, then the second. -/
def oneThenOther : List Event := List.replicate 12 (.advance 0) ++ List.replicate 12 (.advance 1)

theorem backup_codes_single_use_once :
    (codesStart noCodes generateThenUse).commits oneThenOther = [(0, none), (1, some 1)] ∧
      SingleUse plainSetting noCodes generateThenUse
        ((codesStart noCodes generateThenUse).commits oneThenOther) := by
  refine ⟨by decide +kernel, ?_⟩
  refine backup_codes_single_use plainSetting noCodes generateThenUse ?_ ⟨?_, ?_⟩ (by decide)
    oneThenOther (by decide +kernel)
  · exact List.cons_injective
  · exact fun _ => List.nodup_nil
  · intro context owner drawn h
    simp only [generateThenUse, List.mem_cons, List.not_mem_nil, or_false, reduceCtorEq,
      CodeRequest.generate.injEq] at h
    obtain ⟨-, rfl, rfl⟩ := h
    decide +kernel

/-- One unused code. -/
def oneCode : Tables :=
  { noCodes with backupCodes := newCodes plainSetting 1 [⟨1, "ABCDE-12345".toList⟩] }

def useTwice : List CodeRequest :=
  [.verify plainContext 5 codesUser "ABCDE-12345".toList,
    .verify plainContext 5 codesUser "ABCDE-12345".toList]

/-- Both verifications find the code unused before either commits. -/
def bothFound : List Event :=
  [.advance 0, .advance 0, .advance 1, .advance 1] ++ oneThenOther

theorem backup_codes_single_use_failing :
    ¬ ∀ (setting : Setting) (start : Tables) (requests : List CodeRequest) (schedule : List Event),
      setting.hmac.Injective → DistinctCodes setting start requests →
      DistinctKeys start requests →
      SingleUse setting start requests
        ((Config.start start (requests.map (CodeRequest.program setting))).commits schedule) := by
  intro h
  have huse : SingleUse plainSetting oneCode useTwice
      ((codesStart oneCode useTwice).commits bothFound) := by
    refine h plainSetting oneCode useTwice bothFound List.cons_injective ⟨?_, ?_⟩ (by decide)
    · intro user
      exact (List.nodup_singleton _).sublist (List.filter_sublist.map _)
    · intro context owner drawn hmem
      simp [useTwice] at hmem
  have htwice : (codesStart oneCode useTwice).commits bothFound = [(0, some 1), (1, some 1)] := by
    decide +kernel
  have honce := huse.once
  rw [htwice] at honce
  exact absurd honce (by decide)

end Kusanya.Accounts
