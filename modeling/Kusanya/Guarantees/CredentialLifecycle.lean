import Kusanya.Model.Credentials
import Kusanya.ReadCommitted.Disciplined

/-!
# The life of API credentials

Creations, rotations, revocations, changes of tenant status and authenticating requests run
at once, each in a transaction of its own.  Rotation and revocation save different columns,
so neither undoes the other: what a header is worth in a committed state can be read off the
list of the calls committed so far.
-/

namespace Kusanya.Api

open ReadCommitted Support

/-! ## Headers -/

theorem isUrlSafe_ne_dot {c : Char} (h : isUrlSafe c = true) : c ≠ '.' := by
  rintro rfl
  revert h
  decide

theorem isUrlSafe_not_space {c : Char} (h : isUrlSafe c = true) : isSpace c = false := by
  have hle : ∀ a b : Char, a ≤ b ↔ a.toNat ≤ b.toNat := fun a b => UInt32.le_iff_toNat_le
  have hlower : 'a'.toNat = 97 ∧ 'z'.toNat = 122 := by decide
  have hupper : 'A'.toNat = 65 ∧ 'Z'.toNat = 90 := by decide
  have hdigit : '0'.toNat = 48 ∧ '9'.toNat = 57 := by decide
  have hrange : 33 ≤ c.toNat ∧ c.toNat < 0x80 := by
    simp only [isUrlSafe, Bool.or_eq_true, Bool.and_eq_true, decide_eq_true_eq, hle] at h
    rcases h with (((h | h) | h) | rfl) | rfl
    · omega
    · omega
    · omega
    · decide
    · decide
  simp only [isSpace, Bool.or_eq_false_iff, Bool.and_eq_false_iff, decide_eq_false_iff_not]
  omega

theorem dropWhile_isSpace {text : Text} (h : ∀ c ∈ text, isSpace c = false) :
    text.dropWhile isSpace = text := by
  cases text with
  | nil => rfl
  | cons c rest => simp [h c List.mem_cons_self]

theorem strip_of_not_space {text : Text} (h : ∀ c ∈ text, isSpace c = false) :
    strip text = text := by
  have hreverse : ∀ c ∈ text.reverse, isSpace c = false := fun c hc =>
    h c (List.mem_reverse.mp hc)
  rw [strip, dropWhile_isSpace h, dropWhile_isSpace hreverse, List.reverse_reverse]

/-- The first dot is the one in front of which there is no other. -/
theorem partitionDot_eq_some {text key secret : Text} :
    partitionDot text = some (key, secret) ↔ text = key ++ '.' :: secret ∧ '.' ∉ key := by
  induction text generalizing key with
  | nil => simp [partitionDot]
  | cons c rest ih =>
      unfold partitionDot
      by_cases hc : c = '.'
      · subst hc
        rw [if_pos rfl]
        cases key with
        | nil => simp [eq_comm]
        | cons d key => simp +contextual [eq_comm]
      · rw [if_neg hc, Option.map_eq_some_iff]
        constructor
        · rintro ⟨⟨key', secret'⟩, hparts, heq⟩
          obtain ⟨rfl, rfl⟩ := Prod.mk.inj heq
          obtain ⟨rfl, hdot⟩ := ih.mp hparts
          exact ⟨rfl, by simp [Ne.symm hc, hdot]⟩
        · rintro ⟨htext, hdot⟩
          cases key with
          | nil => exact absurd (List.cons.inj htext).1 hc
          | cons d key =>
              obtain ⟨rfl, hrest⟩ := List.cons.inj htext
              refine ⟨(key, secret), ih.mpr ⟨hrest, ?_⟩, rfl⟩
              exact fun hin => hdot (List.mem_cons_of_mem _ hin)

theorem Token.not_dot (token : Token) : '.' ∉ token.text :=
  fun h => isUrlSafe_ne_dot (token.urlSafe _ h) rfl

/-- `Bearer k.s`. -/
def bearerHeader (key secret : Token) : Text := bearer ++ (key.text ++ '.' :: secret.text)

theorem strip_bearerHeader (key secret : Token) :
    strip ((bearerHeader key secret).drop bearer.length) = key.text ++ '.' :: secret.text := by
  rw [bearerHeader, List.drop_left]
  refine strip_of_not_space fun c hc => ?_
  rcases List.mem_append.mp hc with hc | hc
  · exact isUrlSafe_not_space (key.urlSafe c hc)
  · rcases List.mem_cons.mp hc with rfl | hc
    · decide
    · exact isUrlSafe_not_space (secret.urlSafe c hc)

/-! ## What authentication decides -/

def Access.tenantStatus (access : Access) (tenant : ℕ) : Option TenantStatus :=
  (access.tenants.find? (·.id = tenant)).map (·.status)

/-- Some row makes the key and the secret good for the tenant. -/
def Access.Admits (access : Access) (hasher : Hasher) (key secret : Text) (tenant : ℕ) : Prop :=
  ∃ row, access.credentials.find? (·.keyId.text = key) = some row ∧ row.tenant = tenant ∧
    row.isActive = true ∧ hasher.checkPassword secret row.secretHash = true ∧
      access.tenantStatus tenant = some .active

variable {hasher : Hasher} {access : Access}

theorem byKeyId_eq_some {key : Text} {row : ApiCredential} {inst : Institution} :
    access.byKeyId key = some (row, inst) ↔
      access.credentials.find? (·.keyId.text = key) = some row ∧
        access.tenants.find? (·.id = row.tenant) = some inst := by
  unfold Access.byKeyId
  cases access.credentials.find? (·.keyId.text = key) with
  | none => simp
  | some row' =>
      cases htenant : access.tenants.find? (·.id = row'.tenant) with
      | none =>
          simp only [Option.bind_eq_bind, Option.bind_some, htenant, Option.bind_none,
            Option.some.injEq, reduceCtorEq, false_iff, not_and]
          rintro rfl
          simp [htenant]
      | some inst' =>
          simp only [Option.bind_eq_bind, Option.bind_some, htenant, Option.pure_def,
            Option.some.injEq, Prod.mk.injEq]
          constructor
          · rintro ⟨rfl, rfl⟩
            exact ⟨rfl, htenant⟩
          · rintro ⟨rfl, hinst⟩
            exact ⟨rfl, Option.some.inj (htenant.symm.trans hinst)⟩

theorem vouch_eq_ok {secret : Text} {found : Option (ApiCredential × Institution)}
    {row : ApiCredential} {inst : Institution} :
    vouch hasher secret found = .ok (row, inst) ↔
      found = some (row, inst) ∧ row.isActive = true ∧
        hasher.checkPassword secret row.secretHash = true ∧ inst.status = .active := by
  cases found with
  | none => simp [vouch]
  | some pair =>
      obtain ⟨row', inst'⟩ := pair
      unfold vouch
      constructor
      · intro h
        dsimp only at h
        split at h
        · cases h
        · next hactive =>
            split at h
            · cases h
            · next hcheck =>
                split at h
                · cases h
                · next hstatus =>
                    obtain ⟨rfl, rfl⟩ := Prod.mk.inj (Except.ok.inj h)
                    exact ⟨rfl, by simpa using hactive, by simpa using hcheck,
                      by simpa using hstatus⟩
      · rintro ⟨hsame, hactive, hcheck, hstatus⟩
        obtain ⟨rfl, rfl⟩ := Prod.mk.inj (Option.some.inj hsame)
        simp [hactive, hcheck, hstatus]

theorem admits_iff {key secret : Text} {tenant : ℕ} :
    access.Admits hasher key secret tenant ↔
      ∃ row inst, vouch hasher secret (access.byKeyId key) = .ok (row, inst) ∧
        inst.id = tenant := by
  constructor
  · rintro ⟨row, hrow, rfl, hactive, hcheck, hstatus⟩
    obtain ⟨inst, hinst, hstatus⟩ := Option.map_eq_some_iff.mp hstatus
    refine ⟨row, inst, vouch_eq_ok.mpr ⟨byKeyId_eq_some.mpr ⟨hrow, hinst⟩, hactive, hcheck,
      hstatus⟩, ?_⟩
    simpa using List.find?_some hinst
  · rintro ⟨row, inst, hvouch, rfl⟩
    obtain ⟨hfound, hactive, hcheck, hstatus⟩ := vouch_eq_ok.mp hvouch
    obtain ⟨hrow, hinst⟩ := byKeyId_eq_some.mp hfound
    have hid : inst.id = row.tenant := by simpa using List.find?_some hinst
    refine ⟨row, hrow, hid.symm, hactive, hcheck, ?_⟩
    rw [Access.tenantStatus, hid, hinst, Option.map_some, hstatus]

theorem authenticatesAs_iff {now : Time} {header : Text} {tenant : ℕ} :
    access.authenticatesAs hasher now header = some tenant ↔
      bearer.isPrefixOf header = true ∧ ∃ key secret,
        partitionDot (strip (header.drop bearer.length)) = some (key, secret) ∧
          access.Admits hasher key secret tenant := by
  unfold Access.authenticatesAs authenticate
  by_cases hbearer : bearer.isPrefixOf header = false
  · simp [hbearer]
  · rw [if_neg hbearer]
    rw [Bool.not_eq_false] at hbearer
    simp only [hbearer, true_and]
    cases partitionDot (strip (header.drop bearer.length)) with
    | none => simp
    | some parts =>
        obtain ⟨key, secret⟩ := parts
        simp only [Txn.exec_bind, Txn.exec_fetch, Option.some.injEq, Prod.mk.injEq, admits_iff]
        cases hvouch : vouch hasher secret (access.byKeyId key) with
        | error e =>
            simp only [Txn.exec_throw, reduceCtorEq, false_iff]
            rintro ⟨_, _, ⟨rfl, rfl⟩, row, inst, hok, -⟩
            rw [hvouch] at hok
            cases hok
        | ok pair =>
            obtain ⟨row, inst⟩ := pair
            simp only [markUsed, Txn.exec_bind, Txn.exec_acquire, Txn.exec_modify,
              Txn.pure_eq_ret, Txn.exec_ret, Option.some.injEq]
            constructor
            · rintro rfl
              exact ⟨key, secret, ⟨rfl, rfl⟩, row, inst, hvouch, rfl⟩
            · rintro ⟨_, _, ⟨rfl, rfl⟩, row', inst', hok, rfl⟩
              rw [hvouch] at hok
              obtain ⟨rfl, rfl⟩ := Prod.mk.inj (Except.ok.inj hok)
              rfl

/-! ## What a call commits -/

/-- What a committed call has done to the two tables. -/
inductive Effect (hasher : Hasher) : CredentialCall → Access → Access → Prop
  | create {draw : Draw} {tenant : ℕ} {name : Text} {s t : Access}
      (hfree : ∀ row ∈ s.credentials, row.id ≠ draw.credentialId ∧ row.keyId ≠ draw.keyId)
      (hrows : t.credentials = s.credentials ++ [newCredential hasher draw tenant name])
      (htenants : t.tenants = s.tenants) : Effect hasher (.create draw tenant name) s t
  | rotate {draw : Draw} {tenant pk : ℕ} {s t : Access} (hrow : ∃ row ∈ s.credentials, row.id = pk)
      (hrows : t.credentials = s.credentials.map fun row => if row.id = pk then
        { row with secretHash := hasher.makePassword draw.salt draw.secret.text } else row)
      (htenants : t.tenants = s.tenants) : Effect hasher (.rotate draw tenant pk) s t
  | revoke {draw : Draw} {tenant pk : ℕ} {s t : Access} (hrow : ∃ row ∈ s.credentials, row.id = pk)
      (hrows : t.credentials = s.credentials.map fun row => if row.id = pk then
        { row with isActive := false, revokedAt := some draw.now } else row)
      (htenants : t.tenants = s.tenants) : Effect hasher (.revoke draw tenant pk) s t
  | changeStatus {tenant : ℕ} {status : TenantStatus} {s t : Access}
      (hrows : t.credentials = s.credentials) : Effect hasher (.changeStatus tenant status) s t
  | used {now : Time} {header : Text} {id : ℕ} {s t : Access}
      (hrows : t.credentials = s.credentials.map fun row => if row.id = id then
        { row with lastUsedAt := some now } else row)
      (htenants : t.tenants = s.tenants) : Effect hasher (.request now header) s t
  | ignored {now : Time} {header : Text} {s : Access} : Effect hasher (.request now header) s s

/-- The unique columns of a credential. -/
def ApiCredential.uniqueKeys (row : ApiCredential) : List AccessKey :=
  [.credential row.id, .keyId row.keyId.text]

def KeysUnique (access : Access) : Prop :=
  access.credentials.Pairwise fun x y => ∀ k ∈ x.uniqueKeys, k ∉ y.uniqueKeys

/-- Credentials are never deleted and keep their identity. -/
def CredentialsStay (s t : Access) : Prop :=
  ∀ row ∈ s.credentials, ∃ row' ∈ t.credentials,
    row'.id = row.id ∧ row'.tenant = row.tenant ∧ row'.keyId = row.keyId

/-- Rows that are updated in place, each keeping its identity. -/
structure KeepsIdentity (f : ApiCredential → ApiCredential) : Prop where
  id : ∀ row, (f row).id = row.id
  tenant : ∀ row, (f row).tenant = row.tenant
  keyId : ∀ row, (f row).keyId = row.keyId

theorem KeepsIdentity.ite {f : ApiCredential → ApiCredential} (hf : KeepsIdentity f) (pk : ℕ) :
    KeepsIdentity fun row => if row.id = pk then f row else row where
  id row := by by_cases h : row.id = pk <;> simp [h, hf.id row]
  tenant row := by by_cases h : row.id = pk <;> simp [h, hf.tenant row]
  keyId row := by by_cases h : row.id = pk <;> simp [h, hf.keyId row]

theorem keepsIdentity_rotate (pk : ℕ) (secretHash : Text) :
    KeepsIdentity fun row => if row.id = pk then { row with secretHash := secretHash } else row :=
  KeepsIdentity.ite (f := fun row => { row with secretHash := secretHash })
    ⟨fun _ => rfl, fun _ => rfl, fun _ => rfl⟩ pk

theorem keepsIdentity_revoke (pk : ℕ) (now : Time) :
    KeepsIdentity fun row => if row.id = pk then
      { row with isActive := false, revokedAt := some now } else row :=
  KeepsIdentity.ite (f := fun row => { row with isActive := false, revokedAt := some now })
    ⟨fun _ => rfl, fun _ => rfl, fun _ => rfl⟩ pk

theorem keepsIdentity_use (pk : ℕ) (now : Time) :
    KeepsIdentity fun row => if row.id = pk then { row with lastUsedAt := some now } else row :=
  KeepsIdentity.ite (f := fun row => { row with lastUsedAt := some now })
    ⟨fun _ => rfl, fun _ => rfl, fun _ => rfl⟩ pk

/-- A call either inserts a free row or updates rows in place. -/
theorem Effect.rows {call : CredentialCall} {s t : Access} (h : Effect hasher call s t) :
    (∃ f, KeepsIdentity f ∧ t.credentials = s.credentials.map f) ∨
      ∃ row, (∀ k ∈ row.uniqueKeys, ¬Taken Access.credentials ApiCredential.uniqueKeys k s) ∧
        t.credentials = s.credentials ++ [row] := by
  cases h with
  | @create draw tenant name _ _ hfree hrows _ =>
      refine Or.inr ⟨_, fun k hk htaken => ?_, hrows⟩
      obtain ⟨row, hrow, hin⟩ := htaken
      obtain ⟨hid, hkey⟩ := hfree row hrow
      have hkey' : row.keyId.text ≠ draw.keyId.text := fun heq => hkey (by
        cases hrow : row.keyId
        cases hdraw : draw.keyId
        simp_all)
      simp only [ApiCredential.uniqueKeys, newCredential, List.mem_cons, List.not_mem_nil,
        or_false] at hk hin
      rcases hk with rfl | rfl
      · simp [Ne.symm hid] at hin
      · simp [Ne.symm hkey'] at hin
  | rotate _ hrows _ => exact Or.inl ⟨_, keepsIdentity_rotate _ _, hrows⟩
  | revoke _ hrows _ => exact Or.inl ⟨_, keepsIdentity_revoke _ _, hrows⟩
  | changeStatus hrows =>
      refine Or.inl ⟨id, ⟨fun _ => rfl, fun _ => rfl, fun _ => rfl⟩, ?_⟩
      rw [hrows, List.map_id]
  | used hrows _ => exact Or.inl ⟨_, keepsIdentity_use _ _, hrows⟩
  | ignored =>
      refine Or.inl ⟨id, ⟨fun _ => rfl, fun _ => rfl, fun _ => rfl⟩, ?_⟩
      rw [List.map_id]

theorem KeepsIdentity.uniqueKeys {f : ApiCredential → ApiCredential} (hf : KeepsIdentity f)
    (row : ApiCredential) : (f row).uniqueKeys = row.uniqueKeys := by
  rw [ApiCredential.uniqueKeys, ApiCredential.uniqueKeys, hf.id, hf.keyId]

theorem Effect.keysUnique {call : CredentialCall} {s t : Access} (h : Effect hasher call s t)
    (hs : KeysUnique s) : KeysUnique t := by
  unfold KeysUnique
  rcases h.rows with ⟨f, hf, hrows⟩ | ⟨row, hfree, hrows⟩
  · rw [hrows, List.pairwise_map]
    simp only [hf.uniqueKeys]
    exact hs
  · rw [hrows]
    refine List.pairwise_append.mpr ⟨hs, List.pairwise_singleton _ _, ?_⟩
    intro x hx y hy k hk hk'
    obtain rfl := List.mem_singleton.mp hy
    exact hfree k hk' ⟨x, hx, hk⟩

theorem Effect.stay {call : CredentialCall} {s t : Access} (h : Effect hasher call s t) :
    CredentialsStay s t := by
  intro x hx
  rcases h.rows with ⟨f, hf, hrows⟩ | ⟨row, -, hrows⟩
  · rw [hrows]
    exact ⟨f x, List.mem_map_of_mem hx, hf.id x, hf.tenant x, hf.keyId x⟩
  · rw [hrows]
    exact ⟨x, List.mem_append_left _ hx, rfl, rfl, rfl⟩

/-! ## Calls among other calls -/

def credentialDiscipline : Discipline Access AccessKey :=
  Discipline.ofKeys Access.credentials ApiCredential.uniqueKeys KeysUnique CredentialsStay
    (fun _ row hrow => ⟨row, hrow, rfl, rfl, rfl⟩)
    (by
      intro s t u hst htu row hrow
      obtain ⟨row', hrow', hid, htenant, hkey⟩ := hst row hrow
      obtain ⟨row'', hrow'', hid', htenant', hkey'⟩ := htu row' hrow'
      exact ⟨row'', hrow'', hid'.trans hid, htenant'.trans htenant, hkey'.trans hkey⟩)

/-- What a call knows at its end. -/
structure Ends (hasher : Hasher) (call : CredentialCall) (l : Local Access AccessKey) : Prop where
  effect : ∀ s, l.Sees credentialDiscipline s → Effect hasher call s (l.pend s)
  guarded : l.Guarded credentialDiscipline

/-- An update in place takes no key. -/
theorem guarded_of_map {l : Local Access AccessKey} {f : ApiCredential → ApiCredential}
    (hf : KeepsIdentity f) (h : ∀ s, (l.pend s).credentials = s.credentials.map f) :
    l.Guarded credentialDiscipline := by
  rintro s k - ⟨row, hrow, hk⟩
  rw [h s] at hrow
  obtain ⟨old, hold, rfl⟩ := List.mem_map.mp hrow
  rw [hf.uniqueKeys] at hk
  exact ⟨old, hold, hk⟩

theorem create_ends (draw : Draw) (tenant : ℕ) (name : Text) (start : Access) :
    (createCredential hasher draw tenant name).lwp credentialDiscipline (Local.fresh start)
      (fun _ l => Ends hasher (.create draw tenant name) l) fun _ _ => True := by
  simp only [createCredential, insertCredential, recordCredentialEvent, Txn.lwp_bind,
    Txn.lwp_acquire, Txn.lwp_fetch, Txn.lwp_ite, Txn.lwp_throw, Txn.lwp_modify]
  intro s₁ _ s₂ _ s₃ _
  refine ⟨fun _ => trivial, fun hclash => ⟨fun _ => ⟨fun s hs => ?_, ?_⟩, fun _ => trivial⟩⟩
  · -- both keys were free when the locks were held, and nobody else can take them
    have hfree : ∀ k ∈ (newCredential hasher draw tenant name).uniqueKeys,
        ¬Taken Access.credentials ApiCredential.uniqueKeys k s := by
      intro k hk htaken
      have hheld :
          k ∈ [AccessKey.keyId draw.keyId.text, AccessKey.credential draw.credentialId] := by
        rcases List.mem_cons.mp hk with rfl | hk
        · exact List.mem_cons_of_mem _ (List.mem_singleton.mpr rfl)
        · rw [List.mem_singleton.mp hk]
          exact List.mem_cons_self
      obtain ⟨row, hrow, hin⟩ := hs.keeps k hheld htaken
      refine hclash (List.any_eq_true.mpr ⟨row, hrow, ?_⟩)
      simp only [ApiCredential.uniqueKeys, List.mem_cons, List.not_mem_nil, or_false] at hk hin
      rcases hk with rfl | rfl
      · rcases hin with hin | hin
        · simp [AccessKey.credential.inj hin]
        · cases hin
      · rcases hin with hin | hin
        · cases hin
        · have hkey : row.keyId = draw.keyId := by
            cases hrow : row.keyId
            cases hdraw : draw.keyId
            simp_all [newCredential]
          simp [hkey, newCredential]
    refine Effect.create (fun row hrow => ⟨fun hid => ?_, fun hkey => ?_⟩) rfl rfl
    · exact hfree (.credential draw.credentialId) List.mem_cons_self
        ⟨row, hrow, by simp [ApiCredential.uniqueKeys, hid]⟩
    · exact hfree (.keyId draw.keyId.text) (List.mem_cons_of_mem _ (List.mem_singleton.mpr rfl))
        ⟨row, hrow, by simp [ApiCredential.uniqueKeys, hkey]⟩
  · rintro s k hk ⟨row, hrow, hin⟩
    rcases List.mem_append.mp hrow with hrow | hrow
    · exact ⟨row, hrow, hin⟩
    · rw [List.mem_singleton.mp hrow] at hin
      refine absurd ?_ hk
      rcases List.mem_cons.mp hin with rfl | hin
      · exact List.mem_cons_of_mem _ (List.mem_singleton.mpr rfl)
      · rw [List.mem_singleton.mp hin]
        exact List.mem_cons_self

theorem credentialOr404_lwp {tenant pk : ℕ} {l : Local Access AccessKey}
    {Q : ApiCredential → Local Access AccessKey → Prop}
    (h : ∀ s row, l.Sees credentialDiscipline s → row ∈ (l.pend s).credentials → row.id = pk →
      Q row { l with last := s }) :
    (credentialOr404 tenant pk).lwp credentialDiscipline l Q fun _ _ => True := by
  unfold credentialOr404
  rw [Txn.lwp_bind, Txn.lwp_fetch]
  intro s hs
  cases hfind : (l.pend s).credentials.find? fun row => row.id = pk && row.tenant = tenant with
  | none => trivial
  | some row =>
      have hrow := List.find?_some hfind
      simp only [Bool.and_eq_true, decide_eq_true_eq] at hrow
      exact h s row hs (List.mem_of_find?_eq_some hfind) hrow.1

/-- The row that was loaded is still there at the commit. -/
theorem row_stays {l : Local Access AccessKey} {s : Access} {pk : ℕ}
    (hs : l.Sees credentialDiscipline s) (h : ∃ row ∈ l.last.credentials, row.id = pk) :
    ∃ row ∈ s.credentials, row.id = pk := by
  obtain ⟨row, hrow, hid⟩ := h
  obtain ⟨row', hrow', hid', -⟩ := hs.evolves row hrow
  exact ⟨row', hrow', hid'.trans hid⟩

theorem rotate_ends (draw : Draw) (tenant pk : ℕ) (start : Access) :
    (credentialRotate hasher draw tenant pk).lwp credentialDiscipline (Local.fresh start)
      (fun _ l => Ends hasher (.rotate draw tenant pk) l) fun _ _ => True := by
  unfold credentialRotate
  rw [Txn.lwp_bind]
  refine credentialOr404_lwp fun s row _ hrow hid => ?_
  subst hid
  simp only [rotateCredential, recordCredentialEvent, Txn.lwp_bind, Txn.lwp_acquire,
    Txn.lwp_modify, Txn.lwp_ite, Txn.lwp_throw]
  intro s₁ hs₁
  have hstays := row_stays hs₁ ⟨row, hrow, rfl⟩
  refine ⟨fun _ => ⟨fun t ht => Effect.rotate (row_stays ht hstays) rfl rfl, ?_⟩, fun _ => trivial⟩
  exact guarded_of_map (keepsIdentity_rotate _ _) fun _ => rfl

theorem revoke_ends (draw : Draw) (tenant pk : ℕ) (start : Access) :
    (credentialRevoke hasher draw tenant pk).lwp credentialDiscipline (Local.fresh start)
      (fun _ l => Ends hasher (.revoke draw tenant pk) l) fun _ _ => True := by
  unfold credentialRevoke
  rw [Txn.lwp_bind]
  refine credentialOr404_lwp fun s row _ hrow hid => ?_
  subst hid
  simp only [revokeCredential, recordCredentialEvent, Txn.lwp_bind, Txn.lwp_acquire,
    Txn.lwp_modify, Txn.lwp_ite, Txn.lwp_throw]
  intro s₁ hs₁
  have hstays := row_stays hs₁ ⟨row, hrow, rfl⟩
  refine ⟨fun _ => ⟨fun t ht => Effect.revoke (row_stays ht hstays) rfl rfl, ?_⟩, fun _ => trivial⟩
  exact guarded_of_map (keepsIdentity_revoke _ _) fun _ => rfl

theorem request_ends (now : Time) (header : Text) (start : Access) :
    (authenticate hasher now header).lwp credentialDiscipline (Local.fresh start)
      (fun _ l => Ends hasher (.request now header) l) fun _ _ => True := by
  have hignored : Ends hasher (.request now header) (Local.fresh start) :=
    ⟨fun _ _ => Effect.ignored, Local.guarded_fresh⟩
  unfold authenticate
  rw [Txn.lwp_ite]
  refine ⟨fun _ => hignored, fun _ => ?_⟩
  cases partitionDot (strip (header.drop bearer.length)) with
  | none => trivial
  | some parts =>
      dsimp only
      rw [Txn.lwp_bind, Txn.lwp_fetch]
      intro s _
      cases vouch hasher parts.2 (((Local.fresh start : Local Access AccessKey).pend s).byKeyId
          parts.1) with
      | error e => trivial
      | ok pair =>
          simp only [markUsed, Txn.lwp_bind, Txn.lwp_acquire, Txn.lwp_modify, Txn.pure_eq_ret,
            Txn.lwp_ret]
          intro s₁ _
          refine ⟨fun t _ => Effect.used rfl rfl, ?_⟩
          exact guarded_of_map (keepsIdentity_use _ _) fun _ => rfl

theorem call_ends (call : CredentialCall) (start : Access) :
    (call.program hasher).lwp credentialDiscipline (Local.fresh start)
      (fun _ l => Ends hasher call l) fun _ _ => True := by
  cases call with
  | create draw tenant name => exact create_ends draw tenant name start
  | rotate draw tenant pk => exact rotate_ends draw tenant pk start
  | revoke draw tenant pk => exact revoke_ends draw tenant pk start
  | changeStatus tenant status =>
      simp only [CredentialCall.program, changeTenantStatus, Txn.lwp_bind, Txn.lwp_acquire,
        Txn.lwp_modify]
      intro s _
      refine ⟨fun t _ => Effect.changeStatus rfl, ?_⟩
      exact guarded_of_map (f := id) ⟨fun _ => rfl, fun _ => rfl, fun _ => rfl⟩
        fun s => (List.map_id _).symm
  | request now header =>
      simp only [CredentialCall.program, Txn.lwp_bind, Txn.pure_eq_ret, Txn.lwp_ret]
      exact request_ends now header start

/-! ## Reading the tables off the committed calls -/

/-- The secret that the call gives to the credential. -/
def CredentialCall.sets? (pk : ℕ) : CredentialCall → Option Text
  | create draw _ _ => if draw.credentialId = pk then some draw.secret.text else none
  | rotate draw _ pk' => if pk' = pk then some draw.secret.text else none
  | _ => none

def CredentialCall.revokes (pk : ℕ) : CredentialCall → Bool
  | revoke _ _ pk' => pk' = pk
  | _ => false

/-- The call needs the credential to be there. -/
def CredentialCall.loads (pk : ℕ) : CredentialCall → Bool
  | rotate _ _ pk' => pk' = pk
  | revoke _ _ pk' => pk' = pk
  | _ => false

/-- The secret of the last creation or rotation. -/
def lastSecret (pk : ℕ) (done : List CredentialCall) : Option Text :=
  (done.filterMap (·.sets? pk)).getLast?

/-- The credential tables when the calls of `done` have been committed in this order. -/
structure Reflects (hasher : Hasher) (done : List CredentialCall) (access : Access) : Prop where
  unique : KeysUnique access
  created : ∀ row ∈ access.credentials, ∃ draw name, .create draw row.tenant name ∈ done ∧
    draw.credentialId = row.id ∧ draw.keyId = row.keyId
  kept : ∀ draw tenant name, .create draw tenant name ∈ done → ∃ row ∈ access.credentials,
    row.id = draw.credentialId ∧ row.tenant = tenant ∧ row.keyId = draw.keyId
  loaded : ∀ call ∈ done, ∀ pk, call.loads pk = true → ∃ row ∈ access.credentials, row.id = pk
  active : ∀ row ∈ access.credentials,
    row.isActive = true ↔ ∀ call ∈ done, call.revokes row.id = false
  secret : ∀ row ∈ access.credentials, ∃ salt secret,
    lastSecret row.id done = some secret ∧ row.secretHash = hasher.makePassword salt secret

section Reflects

variable {done : List CredentialCall} {call : CredentialCall} {s t : Access} {pk : ℕ}

theorem lastSecret_concat : lastSecret pk (done ++ [call]) =
    (call.sets? pk).or (lastSecret pk done) := by
  unfold lastSecret
  rw [List.filterMap_append]
  cases h : call.sets? pk with
  | none => simp [h]
  | some secret => simp [h]

theorem revokes_loads (h : call.revokes pk = true) : call.loads pk = true := by
  cases call <;> simp_all [CredentialCall.revokes, CredentialCall.loads]

/-- A call that updates rows in place. -/
theorem Reflects.update (hs : Reflects hasher done s) (heffect : Effect hasher call s t)
    {f : ApiCredential → ApiCredential} (hf : KeepsIdentity f)
    (hrows : t.credentials = s.credentials.map f)
    (hcall : ∀ draw tenant name, call ≠ .create draw tenant name)
    (hloads : ∀ pk, call.loads pk = true → ∃ row ∈ s.credentials, row.id = pk)
    (hactive : ∀ row : ApiCredential,
      (f row).isActive = true ↔ row.isActive = true ∧ call.revokes row.id = false)
    (hkeeps : ∀ row : ApiCredential, call.sets? row.id = none → (f row).secretHash = row.secretHash)
    (hsets : ∀ (row : ApiCredential) (secret : Text), call.sets? row.id = some secret →
      ∃ salt, (f row).secretHash = hasher.makePassword salt secret) :
    Reflects hasher (done ++ [call]) t where
  unique := heffect.keysUnique hs.unique
  created row hrow := by
    rw [hrows] at hrow
    obtain ⟨old, hold, rfl⟩ := List.mem_map.mp hrow
    obtain ⟨draw, name, hmem, hid, hkey⟩ := hs.created old hold
    refine ⟨draw, name, ?_, by rw [hid, hf.id], by rw [hkey, hf.keyId]⟩
    rw [hf.tenant]
    exact List.mem_append_left _ hmem
  kept draw tenant name hmem := by
    rcases List.mem_append.mp hmem with hmem | hmem
    · obtain ⟨row, hrow, hid, htenant, hkey⟩ := hs.kept draw tenant name hmem
      rw [hrows]
      exact ⟨f row, List.mem_map_of_mem hrow, by rw [hf.id, hid], by rw [hf.tenant, htenant],
        by rw [hf.keyId, hkey]⟩
    · exact absurd (List.mem_singleton.mp hmem).symm (hcall draw tenant name)
  loaded call' hmem pk hpk := by
    have hold : ∃ row ∈ s.credentials, row.id = pk := by
      rcases List.mem_append.mp hmem with hmem | hmem
      · exact hs.loaded call' hmem pk hpk
      · rw [List.mem_singleton.mp hmem] at hpk
        exact hloads pk hpk
    obtain ⟨row, hrow, hid⟩ := hold
    rw [hrows]
    exact ⟨f row, List.mem_map_of_mem hrow, by rw [hf.id, hid]⟩
  active row hrow := by
    rw [hrows] at hrow
    obtain ⟨old, hold, rfl⟩ := List.mem_map.mp hrow
    rw [hactive, hs.active old hold, hf.id]
    simp only [List.mem_append, List.mem_singleton]
    constructor
    · rintro ⟨hbefore, hnow⟩ call' (hmem | rfl)
      · exact hbefore call' hmem
      · exact hnow
    · exact fun h => ⟨fun call' hmem => h call' (Or.inl hmem), h call (Or.inr rfl)⟩
  secret row hrow := by
    rw [hrows] at hrow
    obtain ⟨old, hold, rfl⟩ := List.mem_map.mp hrow
    rw [hf.id, lastSecret_concat]
    cases hcase : call.sets? old.id with
    | none =>
        rw [hkeeps old hcase]
        exact hs.secret old hold
    | some secret =>
        obtain ⟨salt, hhash⟩ := hsets old secret hcase
        exact ⟨salt, secret, rfl, hhash⟩

/-- A call that inserts a credential. -/
theorem Reflects.insert (hs : Reflects hasher done s) {draw : Draw} {tenant : ℕ} {name : Text}
    (heffect : Effect hasher (.create draw tenant name) s t)
    (hfree : ∀ row ∈ s.credentials, row.id ≠ draw.credentialId)
    (hrows : t.credentials = s.credentials ++ [newCredential hasher draw tenant name]) :
    Reflects hasher (done ++ [.create draw tenant name]) t where
  unique := heffect.keysUnique hs.unique
  created row hrow := by
    rw [hrows] at hrow
    rcases List.mem_append.mp hrow with hrow | hrow
    · obtain ⟨draw', name', hmem, hsame⟩ := hs.created row hrow
      exact ⟨draw', name', List.mem_append_left _ hmem, hsame⟩
    · rw [List.mem_singleton.mp hrow]
      exact ⟨draw, name, List.mem_append_right _ (List.mem_singleton.mpr rfl), rfl, rfl⟩
  kept draw' tenant' name' hmem := by
    rw [hrows]
    rcases List.mem_append.mp hmem with hmem | hmem
    · obtain ⟨row, hrow, hsame⟩ := hs.kept draw' tenant' name' hmem
      exact ⟨row, List.mem_append_left _ hrow, hsame⟩
    · obtain ⟨rfl, rfl, rfl⟩ := CredentialCall.create.inj (List.mem_singleton.mp hmem)
      exact ⟨_, List.mem_append_right _ (List.mem_singleton.mpr rfl), rfl, rfl, rfl⟩
  loaded call' hmem pk hpk := by
    rw [hrows]
    rcases List.mem_append.mp hmem with hmem | hmem
    · obtain ⟨row, hrow, hid⟩ := hs.loaded call' hmem pk hpk
      exact ⟨row, List.mem_append_left _ hrow, hid⟩
    · rw [List.mem_singleton.mp hmem] at hpk
      cases hpk
  active row hrow := by
    rw [hrows] at hrow
    simp only [List.mem_append, List.mem_singleton]
    rcases List.mem_append.mp hrow with hrow | hrow
    · rw [hs.active row hrow]
      constructor
      · rintro hbefore call' (hmem | rfl)
        · exact hbefore call' hmem
        · rfl
      · exact fun h call' hmem => h call' (Or.inl hmem)
    · rw [List.mem_singleton.mp hrow]
      refine ⟨fun _ call' hcall' => ?_, fun _ => rfl⟩
      rcases hcall' with hmem | rfl
      · -- nobody can have revoked a credential that was not there
        by_contra hrevokes
        rw [Bool.not_eq_false] at hrevokes
        obtain ⟨old, hold, hid⟩ := hs.loaded call' hmem _ (revokes_loads hrevokes)
        exact hfree old hold hid
      · rfl
  secret row hrow := by
    rw [hrows] at hrow
    rw [lastSecret_concat]
    rcases List.mem_append.mp hrow with hrow | hrow
    · have hnot : CredentialCall.sets? row.id (.create draw tenant name) = none := by
        simp [CredentialCall.sets?, Ne.symm (hfree row hrow)]
      rw [hnot]
      exact hs.secret row hrow
    · rw [List.mem_singleton.mp hrow]
      refine ⟨draw.salt, draw.secret.text, ?_, rfl⟩
      simp [CredentialCall.sets?, newCredential]

theorem Reflects.step (hs : Reflects hasher done s) (heffect : Effect hasher call s t) :
    Reflects hasher (done ++ [call]) t := by
  cases heffect with
  | create hfree hrows htenants =>
      exact hs.insert (.create hfree hrows htenants) (fun row hrow => (hfree row hrow).1) hrows
  | @rotate draw tenant pk _ _ hrow hrows htenants =>
      refine hs.update (.rotate hrow hrows htenants) (keepsIdentity_rotate _ _) hrows
        (fun _ _ _ h => by cases h) (fun pk' hpk' => ?_) (fun row => ?_) (fun row hnone => ?_)
        fun row secret hsome => ?_
      · rw [← of_decide_eq_true hpk']
        exact hrow
      · by_cases hid : row.id = pk <;> simp [hid, CredentialCall.revokes]
      · have hne : row.id ≠ pk := fun hid => by simp [CredentialCall.sets?, hid] at hnone
        rw [if_neg hne]
      · by_cases hid : row.id = pk
        · simp only [CredentialCall.sets?, hid, if_true, Option.some.injEq] at hsome
          rw [if_pos hid, ← hsome]
          exact ⟨draw.salt, rfl⟩
        · simp [CredentialCall.sets?, Ne.symm hid] at hsome
  | @revoke draw tenant pk _ _ hrow hrows htenants =>
      refine hs.update (.revoke hrow hrows htenants) (keepsIdentity_revoke _ _) hrows
        (fun _ _ _ h => by cases h) (fun pk' hpk' => ?_) (fun row => ?_) (fun row _ => ?_)
        fun row secret hsome => by cases hsome
      · rw [← of_decide_eq_true hpk']
        exact hrow
      · by_cases hid : row.id = pk
        · simp [hid, CredentialCall.revokes]
        · simp [hid, Ne.symm hid, CredentialCall.revokes]
      · by_cases hid : row.id = pk <;> simp [hid]
  | changeStatus hrows =>
      refine hs.update (.changeStatus hrows) (f := id) ⟨fun _ => rfl, fun _ => rfl, fun _ => rfl⟩
        (by rw [hrows, List.map_id]) (fun _ _ _ h => by cases h) (fun _ h => by cases h)
        (fun row => by simp [CredentialCall.revokes]) (fun _ _ => rfl) fun _ _ h => by cases h
  | @used now header id _ _ hrows htenants =>
      refine hs.update (.used hrows htenants) (keepsIdentity_use _ _) hrows
        (fun _ _ _ h => by cases h) (fun _ h => by cases h) (fun row => ?_) (fun row _ => ?_)
        fun _ _ h => by cases h
      · by_cases hid : row.id = id <;> simp [hid, CredentialCall.revokes]
      · by_cases hid : row.id = id <;> simp [hid]
  | ignored =>
      refine hs.update .ignored (f := id) ⟨fun _ => rfl, fun _ => rfl, fun _ => rfl⟩
        (List.map_id _).symm (fun _ _ _ h => by cases h) (fun _ h => by cases h)
        (fun row => by simp [CredentialCall.revokes]) (fun _ _ => rfl) fun _ _ h => by cases h

/-- The key and the secret belong to a credential of the tenant that has never been revoked,
the secret is its last one, and the tenant is active. -/
def Entitled (done : List CredentialCall) (access : Access) (key secret : Text) (tenant : ℕ) :
    Prop :=
  ∃ draw name, .create draw tenant name ∈ done ∧ draw.keyId.text = key ∧
    (∀ call ∈ done, call.revokes draw.credentialId = false) ∧
    lastSecret draw.credentialId done = some secret ∧
    access.tenantStatus tenant = some .active

theorem Token.ext_text {a b : Token} (h : a.text = b.text) : a = b := by
  cases a
  cases b
  simpa using h

/-- Two rows with one key id are one row. -/
theorem KeysUnique.same_key (hs : KeysUnique s) {x y : ApiCredential} (hx : x ∈ s.credentials)
    (hy : y ∈ s.credentials) (hkey : x.keyId = y.keyId) : x = y := by
  have hin : ∀ row : ApiCredential, AccessKey.keyId row.keyId.text ∈ row.uniqueKeys := fun row =>
    List.mem_cons_of_mem _ (List.mem_singleton.mpr rfl)
  by_contra hne
  have hsymm : Std.Symm fun x y : ApiCredential => ∀ k ∈ x.uniqueKeys, k ∉ y.uniqueKeys :=
    ⟨fun x y h k hk hk' => h k hk' hk⟩
  exact hs.forall hx hy hne _ (hin x) (hkey ▸ hin y)

theorem Reflects.admits (hs : Reflects hasher done s) {key secret : Text} {tenant : ℕ} :
    s.Admits hasher key secret tenant ↔ Entitled done s key secret tenant := by
  constructor
  · rintro ⟨row, hfind, rfl, hactive, hcheck, hstatus⟩
    have hrow := List.mem_of_find?_eq_some hfind
    have hkey : row.keyId.text = key := by simpa using List.find?_some hfind
    obtain ⟨draw, name, hmem, hid, hsame⟩ := hs.created row hrow
    obtain ⟨salt, secret', hlast, hhash⟩ := hs.secret row hrow
    rw [hhash, hasher.check_make] at hcheck
    subst hcheck
    refine ⟨draw, name, hmem, by rw [hsame, hkey], ?_, by rw [hid, hlast], hstatus⟩
    rw [hid]
    exact (hs.active row hrow).mp hactive
  · rintro ⟨draw, name, hmem, hkey, hnever, hlast, hstatus⟩
    obtain ⟨row, hrow, hid, htenant, hsame⟩ := hs.kept draw tenant name hmem
    obtain ⟨salt, secret', hlast', hhash⟩ := hs.secret row hrow
    rw [hid, hlast, Option.some.injEq] at hlast'
    subst hlast'
    have hrowKey : row.keyId.text = key := by rw [hsame, hkey]
    have hfind : s.credentials.find? (·.keyId.text = key) = some row := by
      cases hcase : s.credentials.find? (·.keyId.text = key) with
      | none =>
          have hnone := List.find?_eq_none.mp hcase row hrow
          exact absurd (decide_eq_true hrowKey) hnone
      | some found =>
          have hfound : found.keyId.text = key := by simpa using List.find?_some hcase
          rw [hs.unique.same_key (List.mem_of_find?_eq_some hcase) hrow
            (Token.ext_text (hfound.trans hrowKey.symm))]
    refine ⟨row, hfind, htenant, (hs.active row hrow).mpr ?_, ?_, hstatus⟩
    · rw [hid]
      exact hnever
    · rw [hhash, hasher.check_make]

/-- The key id of an entitled pair is a generated one. -/
theorem Entitled.key_not_dot {key secret : Text} {tenant : ℕ}
    (h : Entitled done s key secret tenant) : '.' ∉ key := by
  obtain ⟨draw, -, -, rfl, -⟩ := h
  exact draw.keyId.not_dot

end Reflects

/-! ## Runs -/

/-- The tables before any credential exists. -/
def Access.opening (tenants : List Institution) : Access :=
  { tenants, credentials := [], auditLog := [] }

/-- The calls at once, over tenants without credentials. -/
def startCalls (hasher : Hasher) (tenants : List Institution) (calls : List CredentialCall) :
    Config Access AccessKey AccessError Empty Unit :=
  Config.start (Access.opening tenants) (calls.map (·.program hasher))

/-- The calls that a schedule commits, in the order of their commits. -/
def committedCalls (hasher : Hasher) (tenants : List Institution) (calls : List CredentialCall)
    (schedule : List Event) : List CredentialCall :=
  ((startCalls hasher tenants calls).commitOrder schedule).filterMap (calls[·]?)

theorem run_reflects (tenants : List Institution) (calls : List CredentialCall)
    (schedule : List Event) :
    Reflects hasher (committedCalls hasher tenants calls schedule)
      ((startCalls hasher tenants calls).run schedule).store := by
  let Q : ℕ → Unit → Local Access AccessKey → Prop := fun i _ l =>
    ∃ call, calls[i]? = some call ∧ Ends hasher call l
  let C : ℕ → Unit → Access → Access → Prop := fun i _ s t =>
    ∃ call, calls[i]? = some call ∧ Effect hasher call s t
  have hprograms : ∀ (i : ℕ) (p : AccessTx Unit), (calls.map (·.program hasher))[i]? = some p →
      p.lwp credentialDiscipline (Local.fresh (Access.opening tenants)) (Q i) fun _ _ => True := by
    intro i p hp
    rw [List.getElem?_map, Option.map_eq_some_iff] at hp
    obtain ⟨call, hcall, rfl⟩ := hp
    exact Txn.lwp_consequence (call_ends call _) (fun _ _ h => ⟨call, hcall, h⟩) fun _ _ h => h
  have hhonours : Config.Honours credentialDiscipline (calls.map (·.program hasher)) Q
      (fun _ _ _ => True) C := by
    intro i p a l seen s _ _ _ hQ hs _
    obtain ⟨call, hcall, hends⟩ := hQ
    have heffect := hends.effect s hs
    exact ⟨heffect.keysUnique hs.inv, heffect.stay, hends.guarded s, call, hcall, heffect⟩
  obtain ⟨log, hrun, horder⟩ := Config.run_disciplined_order (D := credentialDiscipline)
    (s := Access.opening tenants) List.Pairwise.nil hprograms hhonours schedule
    (Config.commitsMeet_trivial _ schedule)
  have hreflects : Reflects hasher ((log.map (·.1)).filterMap (calls[·]?))
      ((Config.start (Access.opening tenants) (calls.map (·.program hasher))).run
        schedule).store := by
    refine hrun.commits.order_invariant
      (P := fun order s => Reflects hasher (order.filterMap (calls[·]?)) s) ?_ ?_
    · constructor
      · exact List.Pairwise.nil
      · exact fun _ h => absurd h List.not_mem_nil
      · exact fun _ _ _ h => absurd h List.not_mem_nil
      · exact fun _ h => absurd h List.not_mem_nil
      · exact fun _ h => absurd h List.not_mem_nil
      · exact fun _ h => absurd h List.not_mem_nil
    · rintro order i a s t ⟨call, hcall, heffect⟩ hs
      rw [List.filterMap_append]
      have hlast : [i].filterMap (calls[·]?) = [call] := by simp [hcall]
      rw [hlast]
      exact hs.step heffect
  rw [horder] at hreflects
  exact hreflects

theorem committedCalls_grow {tenants : List Institution} {calls : List CredentialCall}
    {schedule later : List Event} {call : CredentialCall}
    (h : call ∈ committedCalls hasher tenants calls schedule) :
    call ∈ committedCalls hasher tenants calls (schedule ++ later) := by
  unfold committedCalls at h ⊢
  rw [Config.commitOrder_append, List.filterMap_append]
  exact List.mem_append_left _ h

/-- A committed revocation ends what the key of the credential is worth. -/
theorem Reflects.revoked {done : List CredentialCall} {s : Access}
    (hs : Reflects hasher done s) {draw : Draw} {owner tenant : ℕ} {name secret : Text}
    {call : CredentialCall} (hcreate : .create draw owner name ∈ done) (hcall : call ∈ done)
    (hrevokes : call.revokes draw.credentialId = true) :
    ¬Entitled done s draw.keyId.text secret tenant := by
  rintro ⟨draw', name', hcreate', hkey, hnever, -, -⟩
  obtain ⟨row, hrow, hid, -, hsame⟩ := hs.kept draw owner name hcreate
  obtain ⟨row', hrow', hid', -, hsame'⟩ := hs.kept draw' tenant name' hcreate'
  have hrows : row = row' := by
    refine hs.unique.same_key hrow hrow' ?_
    rw [hsame, hsame']
    exact (Token.ext_text hkey).symm
  have hids : draw'.credentialId = draw.credentialId := by rw [← hid', ← hrows, hid]
  have hnot := hnever call hcall
  rw [hids, hrevokes] at hnot
  cases hnot

/-- In every committed state of every schedule, a header authenticates as a tenant if and only
if it carries the key and the last secret of a credential of that tenant which has never been
revoked, and the tenant is active; once a revocation has committed, nothing that commits later
makes the key good again. -/
theorem credential_lifecycle (hasher : Hasher) (tenants : List Institution)
    (calls : List CredentialCall) (schedule : List Event) (now : Time) :
    (∀ (key secret : Token) (tenant : ℕ),
      ((startCalls hasher tenants calls).run schedule).store.authenticatesAs hasher now
          (bearerHeader key secret) = some tenant ↔
        Entitled (committedCalls hasher tenants calls schedule)
          ((startCalls hasher tenants calls).run schedule).store key.text secret.text tenant) ∧
    (∀ (header : Text) (tenant : ℕ),
      ((startCalls hasher tenants calls).run schedule).store.authenticatesAs hasher now
          header = some tenant ↔
        bearer.isPrefixOf header = true ∧ ∃ key secret : Text,
          strip (header.drop bearer.length) = key ++ '.' :: secret ∧
            Entitled (committedCalls hasher tenants calls schedule)
              ((startCalls hasher tenants calls).run schedule).store key secret tenant) ∧
    (∀ (draw : Draw) (owner : ℕ) (name : Text) (call : CredentialCall) (later : List Event)
      (secret : Token),
      .create draw owner name ∈ committedCalls hasher tenants calls schedule →
      call ∈ committedCalls hasher tenants calls schedule →
      call.revokes draw.credentialId = true →
      ((startCalls hasher tenants calls).run (schedule ++ later)).store.authenticatesAs hasher now
        (bearerHeader draw.keyId secret) = none) := by
  have hall : ∀ (schedule : List Event) (header : Text) (tenant : ℕ),
      ((startCalls hasher tenants calls).run schedule).store.authenticatesAs hasher now
          header = some tenant ↔
        bearer.isPrefixOf header = true ∧ ∃ key secret : Text,
          strip (header.drop bearer.length) = key ++ '.' :: secret ∧
            Entitled (committedCalls hasher tenants calls schedule)
              ((startCalls hasher tenants calls).run schedule).store key secret tenant := by
    intro schedule header tenant
    rw [authenticatesAs_iff]
    refine and_congr_right fun _ => exists_congr fun key => exists_congr fun secret => ?_
    rw [partitionDot_eq_some, (run_reflects tenants calls schedule).admits]
    constructor
    · rintro ⟨⟨htext, -⟩, hentitled⟩
      exact ⟨htext, hentitled⟩
    · rintro ⟨htext, hentitled⟩
      exact ⟨⟨htext, hentitled.key_not_dot⟩, hentitled⟩
  have htoken : ∀ (schedule : List Event) (key secret : Token) (tenant : ℕ),
      ((startCalls hasher tenants calls).run schedule).store.authenticatesAs hasher now
          (bearerHeader key secret) = some tenant ↔
        Entitled (committedCalls hasher tenants calls schedule)
          ((startCalls hasher tenants calls).run schedule).store key.text secret.text tenant := by
    intro schedule key secret tenant
    rw [hall, strip_bearerHeader]
    constructor
    · rintro ⟨-, key', secret', htext, hentitled⟩
      -- neither key has a dot, so the two texts split at the same place
      have hsplit : partitionDot (key.text ++ '.' :: secret.text) = some (key', secret') :=
        partitionDot_eq_some.mpr ⟨htext, hentitled.key_not_dot⟩
      have hsame := hsplit.symm.trans (partitionDot_eq_some.mpr ⟨rfl, key.not_dot⟩)
      obtain ⟨rfl, rfl⟩ := Prod.mk.inj (Option.some.inj hsame)
      exact hentitled
    · intro hentitled
      refine ⟨?_, key.text, secret.text, rfl, hentitled⟩
      exact List.isPrefixOf_iff_prefix.mpr (List.prefix_append _ _)
  refine ⟨htoken schedule, hall schedule, ?_⟩
  intro draw owner name call later secret hcreate hcall hrevokes
  cases hcase : ((startCalls hasher tenants calls).run
      (schedule ++ later)).store.authenticatesAs hasher now (bearerHeader draw.keyId secret) with
  | none => rfl
  | some tenant =>
      exact absurd ((htoken _ _ _ _).mp hcase) <|
        (run_reflects tenants calls (schedule ++ later)).revoked (committedCalls_grow hcreate)
          (committedCalls_grow hcall) hrevokes

/-! A rotation that has loaded the row before the revocation commits, and commits after it. -/

/-- A hasher that marks the secret and does not hide it. -/
def markingHasher : Hasher where
  isAddress := dottedAddress
  makePassword _ secret := '!' :: secret
  checkPassword secret hash := hash == '!' :: secret
  check_make salt x y := by
    rw [beq_iff_eq, List.cons_inj_right]
    exact eq_comm

def letter (c : Char) (h : isUrlSafe c = true) : Token where
  text := [c]
  urlSafe := by
    rw [List.forall_mem_singleton]
    exact h

def lateKeyId : Token :=
  letter 'k' (by decide)

def lateDraw (secret : Token) : Draw where
  now := 0
  context := { correlationId := ['1'], ipAddress := none, userAgent := [] }
  actor := none
  credentialId := 1
  keyId := lateKeyId
  secret := secret
  salt := []

def lateCalls : List CredentialCall :=
  [.create (lateDraw (letter 'a' (by decide))) 7 [],
    .rotate (lateDraw (letter 'b' (by decide))) 7 1,
   .revoke (lateDraw (letter 'c' (by decide))) 7 1]

def lateSchedule : List Event :=
  List.replicate 6 (.advance 0) ++ [.advance 1] ++ List.replicate 5 (.advance 2) ++
    List.replicate 4 (.advance 1)

theorem credential_lifecycle_lateRotation :
    committedCalls markingHasher [⟨7, .active⟩] lateCalls lateSchedule =
      [lateCalls[0], lateCalls[2], lateCalls[1]] ∧
    ((startCalls markingHasher [⟨7, .active⟩] lateCalls).run
      (lateSchedule.take 6)).store.authenticatesAs markingHasher 0
        (bearerHeader lateKeyId (letter 'a' (by decide))) = some 7 ∧
    ((startCalls markingHasher [⟨7, .active⟩] lateCalls).run
      lateSchedule).store.authenticatesAs markingHasher 0
        (bearerHeader lateKeyId (letter 'b' (by decide))) = none := by
  have hcommitted : committedCalls markingHasher [⟨7, .active⟩] lateCalls lateSchedule =
      [lateCalls[0], lateCalls[2], lateCalls[1]] := by decide +kernel
  have hopened : committedCalls markingHasher [⟨7, .active⟩] lateCalls (lateSchedule.take 6) =
      [lateCalls[0]] := by decide +kernel
  refine ⟨hcommitted, ?_, ?_⟩
  · refine ((credential_lifecycle markingHasher [⟨7, .active⟩] lateCalls (lateSchedule.take 6)
      0).1 _ _ 7).mpr ⟨lateDraw (letter 'a' (by decide)), [], ?_, rfl, ?_, ?_, by decide +kernel⟩
    · rw [hopened]
      decide +kernel
    · rw [hopened]
      decide +kernel
    · rw [hopened]
      decide +kernel
  · have hrevoked := (credential_lifecycle markingHasher [⟨7, .active⟩] lateCalls lateSchedule
      0).2.2 (lateDraw (letter 'a' (by decide))) 7 [] lateCalls[2] [] (letter 'b' (by decide))
    rw [List.append_nil, hcommitted] at hrevoked
    exact hrevoked (by decide +kernel) (by decide +kernel) (by decide +kernel)

end Kusanya.Api
