import Kusanya.Model.FieldEncryption
import Kusanya.Support.Keyed

/-!
# The encryption migrations preserve the data

Each migration goes over a snapshot of the rows and updates them by key, so it is enough
to look at one row: what `encryptColumn` stores, a field reads back and `decryptColumn`
restores.
-/

namespace Kusanya.Encryption

open Support

/-! ## One column -/

variable {setting : Setting}

theorem encryptColumn_blank (calls : List (List ℕ)) :
    encryptColumn setting [] calls = ([], calls) := rfl

theorem encryptColumn_of_ne {value : Text} (hvalue : value ≠ []) (calls : List (List ℕ)) :
    encryptColumn setting value calls =
      (setting.encrypt calls.length (Text.utf8 value), calls ++ [Text.utf8 value]) := by
  rw [encryptColumn, if_neg hvalue]
  rfl

/-- The plaintexts that the migration of a row encrypts. -/
def plaintexts (texts : List Text) : List (List ℕ) :=
  (texts.filter fun text => text ≠ []).map Text.utf8

theorem plaintexts_cons (text : Text) (texts : List Text) :
    plaintexts (text :: texts) = plaintexts [text] ++ plaintexts texts := by
  rw [plaintexts, ← List.singleton_append, List.filter_append, List.map_append]
  rfl

theorem encryptColumn_calls (value : Text) (calls : List (List ℕ)) :
    (encryptColumn setting value calls).2 = calls ++ plaintexts [value] := by
  by_cases hvalue : value = []
  · subst hvalue
    rw [encryptColumn_blank]
    exact (List.append_nil calls).symm
  · rw [encryptColumn_of_ne hvalue]
    simp [plaintexts, hvalue]

theorem encryptColumn_encryptColumn_calls (setting : Setting) (first second : Text)
    (calls : List (List ℕ)) :
    (encryptColumn setting second (encryptColumn setting first calls).2).2 =
      calls ++ plaintexts [first, second] := by
  rw [encryptColumn_calls, encryptColumn_calls, plaintexts_cons first [second], List.append_assoc]

/-- The field reads the original text. -/
theorem fromDbValue_encryptColumn (h : setting.Lawful) (value : Text) (calls : List (List ℕ)) :
    fromDbValue setting (some (encryptColumn setting value calls).1) = .ok (some value) := by
  by_cases hvalue : value = []
  · subst hvalue
    rfl
  · rw [encryptColumn_of_ne hvalue]
    exact fromDbValue_encrypt h calls.length value

theorem fernetDecrypt_encrypt (h : setting.Lawful) (call : ℕ) (value : Text) :
    fernetDecrypt setting (setting.encrypt call (Text.utf8 value)) = some value := by
  rw [fernetDecrypt, h.decrypt_encrypt, Option.bind_some, Text.decodeUtf8_utf8]

/-- The reverse migration restores it. -/
theorem decryptColumn_encryptColumn (h : setting.Lawful) (value : Text) (calls : List (List ℕ)) :
    (decryptColumn setting (encryptColumn setting value calls).1).getD
      (encryptColumn setting value calls).1 = value := by
  by_cases hvalue : value = []
  · subst hvalue
    rfl
  · rw [encryptColumn_of_ne hvalue, decryptColumn, if_neg (h.token_ne_blank _ _),
      fernetDecrypt_encrypt h, Option.getD_some]

/-! ## One migration -/

/-- A model with encrypted columns and the two functions of its migration. -/
structure Migration (Row : Type) where
  pk : Row → ℕ
  texts : Row → List Text
  load : Setting → Row → Except FieldError Row
  save : Setting → Row → Row
  encryptExistingRows : Setting → List Row → Encrypting (List Row)
  decryptExistingRows : Setting → List Row → List Row

def customers : Migration Customer where
  pk := Customer.pk
  texts := Customer.texts
  load := Customer.load
  save := Customer.save
  encryptExistingRows := Customer.encryptExistingRows
  decryptExistingRows := Customer.decryptExistingRows

def tenants : Migration Tenant where
  pk := Tenant.pk
  texts := Tenant.texts
  load := Tenant.load
  save := Tenant.save
  encryptExistingRows := Tenant.encryptExistingRows
  decryptExistingRows := Tenant.decryptExistingRows

def users : Migration User where
  pk := User.pk
  texts := User.texts
  load := User.load
  save := User.save
  encryptExistingRows := User.encryptExistingRows
  decryptExistingRows := User.decryptExistingRows

def payments : Migration Payment where
  pk := Payment.pk
  texts := Payment.texts
  load := Payment.load
  save := Payment.save
  encryptExistingRows := Payment.encryptExistingRows
  decryptExistingRows := Payment.decryptExistingRows

variable {Row : Type}

/-- The model reads the row `after` with the texts of `before`, and saving what it reads
would set the lookup hashes that are there. -/
def Migration.Reads (migration : Migration Row) (setting : Setting) (before after : Row) : Prop :=
  migration.pk after = migration.pk before ∧
    ∃ row, migration.load setting after = .ok row ∧
      migration.texts row = migration.texts before ∧ migration.save setting row = row

/-- The same row of the table with the same texts in its columns. -/
def Migration.SameTexts (migration : Migration Row) (before after : Row) : Prop :=
  migration.pk after = migration.pk before ∧ migration.texts after = migration.texts before

/-- What the migration of `table` promises, from the calls of Fernet before it on. -/
structure Migration.PreservesData (migration : Migration Row) (setting : Setting)
    (table : List Row) (calls : List (List ℕ)) : Prop where
  /-- Every row reads as it did, with the hashes that `save` computes. -/
  reads : List.Forall₂ (migration.Reads setting) table
    (migration.encryptExistingRows setting table calls).1
  /-- Every text that is not blank is encrypted once, and nothing else is. -/
  once : (migration.encryptExistingRows setting table calls).2 =
    calls ++ table.flatMap fun row => plaintexts (migration.texts row)
  /-- The reverse migration restores the columns. -/
  restores : List.Forall₂ migration.SameTexts table
    (migration.decryptExistingRows setting
      (migration.encryptExistingRows setting table calls).1)

/-- From one row to the table, for a loop that encrypts row by row. -/
theorem Migration.preservesData (migration : Migration Row) {setting : Setting}
    (encryptRow : Row → Encrypting (Row → Row)) (decryptRow : Row → StateM Unit (Row → Row))
    {table : List Row} (hnodup : (table.map migration.pk).Nodup)
    (hencrypt : migration.encryptExistingRows setting table =
      rewriteRows migration.pk encryptRow table table)
    (hdecrypt : ∀ after, migration.decryptExistingRows setting after =
      (rewriteRows migration.pk decryptRow after after ()).1)
    (hpk : ∀ row calls r, migration.pk ((encryptRow row calls).1 r) = migration.pk r)
    (hpk' : ∀ row s r, migration.pk ((decryptRow row s).1 r) = migration.pk r)
    (hreads : ∀ row ∈ table, ∀ calls,
      migration.Reads setting row ((encryptRow row calls).1 row))
    (honce : ∀ row calls, (encryptRow row calls).2 = calls ++ plaintexts (migration.texts row))
    (hrestores : ∀ row calls,
      migration.SameTexts row
        ((decryptRow ((encryptRow row calls).1 row) ()).1 ((encryptRow row calls).1 row)))
    (calls : List (List ℕ)) : migration.PreservesData setting table calls := by
  have hafter : migration.encryptExistingRows setting table calls =
      rewriteEach encryptRow table calls := by
    rw [hencrypt, rewriteRows_eq hpk hnodup]
  have hrows :
      List.Forall₂ (fun before after => ∃ calls, (encryptRow before calls).1 before = after)
      table (migration.encryptExistingRows setting table calls).1 := by
    rw [hafter]
    exact rewriteEach_forall₂ (fun row s => ⟨s, rfl⟩) table calls
  have hkeys : (migration.encryptExistingRows setting table calls).1.map migration.pk =
      table.map migration.pk := by
    have hsame : List.Forall₂ (fun before after => migration.pk before = migration.pk after)
        table (migration.encryptExistingRows setting table calls).1 := by
      refine hrows.imp fun before after hrow => ?_
      obtain ⟨s, rfl⟩ := hrow
      exact (hpk before s before).symm
    have hmap : List.Forall₂ (· = ·) (table.map migration.pk)
        ((migration.encryptExistingRows setting table calls).1.map migration.pk) :=
      List.forall₂_map_left_iff.mpr (List.forall₂_map_right_iff.mpr hsame)
    rw [List.forall₂_eq_eq_eq] at hmap
    exact hmap.symm
  have hback : List.Forall₂ (fun before after => (decryptRow before ()).1 before = after)
      (migration.encryptExistingRows setting table calls).1
      (migration.decryptExistingRows setting
        (migration.encryptExistingRows setting table calls).1) := by
    rw [hdecrypt, rewriteRows_eq hpk' (hkeys ▸ hnodup)]
    exact rewriteEach_forall₂ (R := fun before after => (decryptRow before ()).1 before = after)
      (fun row s => rfl) _ ()
  constructor
  · refine forall₂_imp_of_mem hrows ?_
    intro row hrow after hafter
    obtain ⟨s, rfl⟩ := hafter
    exact hreads row hrow s
  · rw [hafter]
    exact rewriteEach_log honce table calls
  · refine forall₂_trans hrows hback ?_
    intro before _ middle _ after hmiddle hafter
    obtain ⟨s, rfl⟩ := hmiddle
    subst hafter
    exact hrestores before s

/-! ## The four models -/

theorem Customer.load_eq {row : Customer} {fullName email phoneNumber : Text}
    (hname : fromDbValue setting (some row.fullName) = .ok (some fullName))
    (hemail : fromDbValue setting (some row.email) = .ok (some email))
    (hphone : fromDbValue setting (some row.phoneNumber) = .ok (some phoneNumber)) :
    Customer.load setting row =
      .ok { row with fullName := fullName, email := email, phoneNumber := phoneNumber } := by
  rw [Customer.load, hname, hemail, hphone]
  rfl

theorem Customer.calls_encryptRow (row : Customer) (calls : List (List ℕ)) :
    (Customer.encryptRow setting row calls).2 = calls ++ plaintexts row.texts := by
  calc (Customer.encryptRow setting row calls).2
      = (encryptColumn setting row.phoneNumber (encryptColumn setting row.email
          (encryptColumn setting row.fullName calls).2).2).2 := rfl
    _ = calls ++ plaintexts row.texts := by
      rw [encryptColumn_encryptColumn_calls, encryptColumn_calls row.fullName, List.append_assoc,
        ← plaintexts_cons]
      rfl

theorem customers_preservesData (h : setting.Lawful) {table : List Customer}
    (hnodup : (table.map Customer.pk).Nodup) (calls : List (List ℕ)) :
    customers.PreservesData setting table calls := by
  apply customers.preservesData (Customer.encryptRow setting) (Customer.decryptRow setting) hnodup
    rfl (fun _ => rfl) (fun _ _ _ => rfl) (fun _ _ _ => rfl)
  · intro row _ calls
    have hname := fromDbValue_encryptColumn h row.fullName calls
    have hemail :=
      fromDbValue_encryptColumn h row.email (encryptColumn setting row.fullName calls).2
    have hphone := fromDbValue_encryptColumn h row.phoneNumber
      (encryptColumn setting row.email (encryptColumn setting row.fullName calls).2).2
    constructor
    · rfl
    · exact ⟨_, Customer.load_eq hname hemail hphone, rfl, rfl⟩
  · exact Customer.calls_encryptRow
  · intro row calls
    have hname := decryptColumn_encryptColumn h row.fullName calls
    have hemail := decryptColumn_encryptColumn h row.email
      (encryptColumn setting row.fullName calls).2
    have hphone := decryptColumn_encryptColumn h row.phoneNumber
      (encryptColumn setting row.email (encryptColumn setting row.fullName calls).2).2
    constructor
    · rfl
    · exact congrArg₂ List.cons hname (congrArg₂ List.cons hemail (congrArg (fun t => [t]) hphone))

theorem Tenant.load_eq {row : Tenant} {contactEmail contactPhone : Text}
    (hemail : fromDbValue setting (some row.contactEmail) = .ok (some contactEmail))
    (hphone : fromDbValue setting (some row.contactPhone) = .ok (some contactPhone)) :
    Tenant.load setting row =
      .ok { row with contactEmail := contactEmail, contactPhone := contactPhone } := by
  rw [Tenant.load, hemail, hphone]
  rfl

/-- The blank email is the one on which `Tenant.save` and the migration differ. -/
theorem tenants_preservesData (h : setting.Lawful) {table : List Tenant}
    (hnodup : (table.map Tenant.pk).Nodup) (hemail : ∀ row ∈ table, row.contactEmail ≠ [])
    (calls : List (List ℕ)) : tenants.PreservesData setting table calls := by
  apply tenants.preservesData (Tenant.encryptRow setting) (Tenant.decryptRow setting) hnodup
    rfl (fun _ => rfl) (fun _ _ _ => rfl) (fun _ _ _ => rfl)
  · intro row hrow calls
    have hmail := fromDbValue_encryptColumn h row.contactEmail calls
    have hphone := fromDbValue_encryptColumn h row.contactPhone
      (encryptColumn setting row.contactEmail calls).2
    have hhash : computeLookupHash setting (setting.lower row.contactEmail) =
        if row.contactEmail = [] then []
        else computeLookupHash setting (setting.lower row.contactEmail) :=
      (if_neg (hemail row hrow)).symm
    constructor
    · rfl
    · refine ⟨_, Tenant.load_eq hmail hphone, rfl, ?_⟩
      exact congrArg (Tenant.mk row.pk row.contactEmail row.contactPhone) hhash
  · intro row calls
    exact encryptColumn_encryptColumn_calls setting row.contactEmail row.contactPhone calls
  · intro row calls
    have hmail := decryptColumn_encryptColumn h row.contactEmail calls
    have hphone := decryptColumn_encryptColumn h row.contactPhone
      (encryptColumn setting row.contactEmail calls).2
    constructor
    · rfl
    · exact congrArg₂ List.cons hmail (congrArg (fun t => [t]) hphone)

theorem User.load_eq {row : User} {firstName lastName phoneNumber : Text}
    (hfirst : fromDbValue setting (some row.firstName) = .ok (some firstName))
    (hlast : fromDbValue setting (some row.lastName) = .ok (some lastName))
    (hphone : fromDbValue setting (some row.phoneNumber) = .ok (some phoneNumber)) :
    User.load setting row =
      .ok { row with firstName := firstName, lastName := lastName, phoneNumber :=
        phoneNumber } := by
  rw [User.load, hfirst, hlast, hphone]
  rfl

theorem User.calls_encryptRow (row : User) (calls : List (List ℕ)) :
    (User.encryptRow setting row calls).2 = calls ++ plaintexts row.texts := by
  calc (User.encryptRow setting row calls).2
      = (encryptColumn setting row.phoneNumber (encryptColumn setting row.lastName
          (encryptColumn setting row.firstName calls).2).2).2 := rfl
    _ = calls ++ plaintexts row.texts := by
      rw [encryptColumn_encryptColumn_calls, encryptColumn_calls row.firstName, List.append_assoc,
        ← plaintexts_cons]
      rfl

theorem users_preservesData (h : setting.Lawful) {table : List User}
    (hnodup : (table.map User.pk).Nodup) (calls : List (List ℕ)) :
    users.PreservesData setting table calls := by
  apply users.preservesData (User.encryptRow setting) (User.decryptRow setting) hnodup
    rfl (fun _ => rfl) (fun _ _ _ => rfl) (fun _ _ _ => rfl)
  · intro row _ calls
    have hfirst := fromDbValue_encryptColumn h row.firstName calls
    have hlast :=
      fromDbValue_encryptColumn h row.lastName (encryptColumn setting row.firstName calls).2
    have hphone := fromDbValue_encryptColumn h row.phoneNumber
      (encryptColumn setting row.lastName (encryptColumn setting row.firstName calls).2).2
    constructor
    · rfl
    · exact ⟨_, User.load_eq hfirst hlast hphone, rfl, rfl⟩
  · exact User.calls_encryptRow
  · intro row calls
    have hfirst := decryptColumn_encryptColumn h row.firstName calls
    have hlast := decryptColumn_encryptColumn h row.lastName
      (encryptColumn setting row.firstName calls).2
    have hphone := decryptColumn_encryptColumn h row.phoneNumber
      (encryptColumn setting row.lastName (encryptColumn setting row.firstName calls).2).2
    constructor
    · rfl
    · exact congrArg₂ List.cons hfirst (congrArg₂ List.cons hlast (congrArg (fun t => [t]) hphone))

theorem Payment.load_eq {row : Payment} {payerReference : Text}
    (hreference : fromDbValue setting (some row.payerReference) = .ok (some payerReference)) :
    Payment.load setting row = .ok { row with payerReference := payerReference } := by
  rw [Payment.load, hreference]
  rfl

/-- A row that the query of the reverse migration leaves out is one that `decryptColumn`
leaves as it is. -/
theorem Payment.decryptRow_unlessBlank (setting : Setting) (row : Payment) :
    ((if decide (row.payerReference ≠ []) = true then Payment.decryptRow setting row
      else pure id) ()).1 row =
      { row with
        payerReference := (decryptColumn setting row.payerReference).getD row.payerReference } := by
  by_cases hblank : row.payerReference = []
  · rw [if_neg (by simpa using hblank), decryptColumn, if_pos hblank]
    rfl
  · rw [if_pos (by simpa using hblank), decryptColumn, if_neg hblank]
    rfl

/-- The reverse migration of payments queries the rows that are not blank, where the others
test the column inside the loop. -/
theorem payments_preservesData (h : setting.Lawful) {table : List Payment}
    (hnodup : (table.map Payment.pk).Nodup) (calls : List (List ℕ)) :
    payments.PreservesData setting table calls := by
  apply payments.preservesData (Payment.encryptRow setting)
    (fun row =>
      if decide (row.payerReference ≠ []) then Payment.decryptRow setting row else pure id)
    hnodup rfl (fun after => congrArg (fun loop => (loop ()).1) (rewriteRows_filter _ after after))
    (fun _ _ _ => rfl)
  · intro row _ r
    by_cases hblank : decide (row.payerReference ≠ []) = true
    · rw [if_pos hblank]
      rfl
    · rw [if_neg hblank]
      rfl
  · intro row _ calls
    have hreference := fromDbValue_encryptColumn h row.payerReference calls
    constructor
    · rfl
    · exact ⟨_, Payment.load_eq hreference, rfl, rfl⟩
  · intro row calls
    exact encryptColumn_calls row.payerReference calls
  · intro row calls
    have hreference := decryptColumn_encryptColumn h row.payerReference calls
    have hrow := Payment.decryptRow_unlessBlank setting
      ((Payment.encryptRow setting row calls).1 row)
    have hpk := congrArg Payment.pk hrow
    constructor
    · exact hpk
    · exact (congrArg Payment.texts hrow).trans (congrArg (fun t => [t]) hreference)

/-- **The encryption migrations preserve the data.**  Under a lawful Fernet, whatever the
texts of the tables are, each migration leaves rows that read as before, with the lookup
hashes that saving them would compute; it encrypts every text that is not blank once; and
its reverse restores the columns. -/
theorem encryption_migrations (setting : Setting) (h : setting.Lawful) (calls : List (List ℕ)) :
    (∀ table : List Customer, (table.map Customer.pk).Nodup →
      customers.PreservesData setting table calls) ∧
    (∀ table : List Tenant, (table.map Tenant.pk).Nodup →
      (∀ row ∈ table, row.contactEmail ≠ []) → tenants.PreservesData setting table calls) ∧
    (∀ table : List User, (table.map User.pk).Nodup →
      users.PreservesData setting table calls) ∧
    (∀ table : List Payment, (table.map Payment.pk).Nodup →
      payments.PreservesData setting table calls) := by
  refine ⟨?_, ?_, ?_, ?_⟩
  · intro table hnodup
    exact customers_preservesData h hnodup calls
  · intro table hnodup hemail
    exact tenants_preservesData h hnodup hemail calls
  · intro table hnodup
    exact users_preservesData h hnodup calls
  · intro table hnodup
    exact payments_preservesData h hnodup calls

/-! ## A Fernet that behaves as the real one on one text -/

/-- The token of the published test vector: the text `hello`, the vector 0 to 15, the time
499162800. -/
def helloToken : Text :=
  'g' :: ("AAAAAAdwJ6wAAECAwQFBgcICQoLDA0ODy021cpGVWKZ_eEwCGM4BLLF_5CV9dOPmrhuVUPgJobwO" ++
    "z7JcbmrR64jVmpU4IwqDA==").toList

def hello : List ℕ := Text.utf8 "hello".toList

/-- Numbers in unary, each ended by a dot. -/
def unary (numbers : List ℕ) : Text :=
  numbers.flatMap fun n => List.replicate n '1' ++ ['.']

def readUnary : ℕ → List ℕ → List ℕ
  | _, [] => []
  | n, 0x31 :: rest => readUnary (n + 1) rest
  | n, _ :: rest => n :: readUnary 0 rest

theorem readUnary_utf8 (k n : ℕ) (rest : Text) :
    readUnary k (Text.utf8 (List.replicate n '1' ++ '.' :: rest)) =
      (k + n) :: readUnary 0 (Text.utf8 rest) := by
  induction n generalizing k with
  | zero => rfl
  | succ n ih =>
      have hstep : readUnary k (Text.utf8 (List.replicate (n + 1) '1' ++ '.' :: rest)) =
          readUnary (k + 1) (Text.utf8 (List.replicate n '1' ++ '.' :: rest)) := rfl
      rw [hstep, ih, Nat.add_right_comm, Nat.add_assoc]

theorem readUnary_unary (numbers : List ℕ) : readUnary 0 (Text.utf8 (unary numbers)) = numbers := by
  induction numbers with
  | nil => rfl
  | cons n numbers ih =>
      have hread := readUnary_utf8 0 n (unary numbers)
      rw [unary, List.flatMap_cons, List.append_assoc, List.singleton_append]
      rw [← unary, hread, Nat.zero_add, ih]

/-- One token is the real one; any other plaintext is only written down. -/
def helloEncrypt (plain : List ℕ) : Text :=
  if plain = hello then helloToken else '-' :: unary plain

def helloDecrypt (token : List ℕ) : Option (List ℕ) :=
  if token = Text.utf8 helloToken then some hello
  else if token.head? = some 0x2d then some (readUnary 0 token.tail) else none

def helloSetting : Setting where
  fieldEncryptionKey := "key".toList
  encrypt _ plain := helloEncrypt plain
  decrypt := helloDecrypt
  lower := id

theorem helloDecrypt_unary (plain : List ℕ) :
    helloDecrypt (Text.utf8 ('-' :: unary plain)) = some plain := by
  have hother : Text.utf8 ('-' :: unary plain) ≠ Text.utf8 helloToken := by
    intro h
    have hhead : some 0x2d = some 0x67 := congrArg List.head? h
    cases hhead
  have htail : (Text.utf8 ('-' :: unary plain)).tail = Text.utf8 (unary plain) := rfl
  have hhead : (Text.utf8 ('-' :: unary plain)).head? = some 0x2d := rfl
  rw [helloDecrypt, if_neg hother, if_pos hhead, htail, readUnary_unary]

theorem helloSetting_lawful : helloSetting.Lawful where
  decrypt_encrypt call plain := by
    change helloDecrypt (Text.utf8 (helloEncrypt plain)) = some plain
    by_cases hplain : plain = hello
    · rw [helloEncrypt, if_pos hplain, helloDecrypt, if_pos rfl, hplain]
    · rw [helloEncrypt, if_neg hplain, helloDecrypt_unary]
  token_ne_blank call plain := by
    change helloEncrypt plain ≠ []
    by_cases hplain : plain = hello
    · rw [helloEncrypt, if_pos hplain]
      exact List.cons_ne_nil _ _
    · rw [helloEncrypt, if_neg hplain]
      exact List.cons_ne_nil _ _

/-- One row a table, with the text `hello` and blanks. -/
theorem encryption_migrations_hello :
    customers.PreservesData helloSetting [⟨1, "hello".toList, [], [], [], [], []⟩] [] ∧
    tenants.PreservesData helloSetting [⟨1, "hello".toList, [], []⟩] [] ∧
    users.PreservesData helloSetting [⟨1, [], "hello".toList, [], [], []⟩] [] ∧
    payments.PreservesData helloSetting [⟨1, [], []⟩, ⟨2, "hello".toList, []⟩] [] := by
  obtain ⟨hcustomers, htenants, husers, hpayments⟩ :=
    encryption_migrations helloSetting helloSetting_lawful []
  refine ⟨hcustomers _ (by decide), htenants _ (by decide) ?_, husers _ (by decide),
    hpayments _ (by decide)⟩
  intro row hrow
  obtain rfl := List.mem_singleton.mp hrow
  exact List.cons_ne_nil _ _

end Kusanya.Encryption
