import Kusanya.Guarantees.EncryptionMigrations
import Kusanya.Invariants.Registration
import Kusanya.Model.CustomerEdit

/-!
# What editing does to encrypted columns

A column that does not decrypt is shown as a placeholder, and the placeholder is what a save writes
back.  A column survives an edit that leaves it as it was shown exactly where nothing is saved, or
the column decrypts to a text without space around it.
-/

namespace Kusanya.Encryption

open Support Tenancy

/-- The placeholder of `from_db_value`. -/
def unreadable : Text := "[unreadable: decryption failed]".toList

/-- The column holds a text that the current key does not decrypt. -/
def Undecryptable (setting : Setting) (stored : Text) : Prop :=
  stored ≠ [] ∧ setting.decrypt (Text.utf8 stored) = none

/-- What is left of a column and of its lookup hash: a text that decrypts decrypts to the same, and
its hash still matches; one that does not is the same, and so is its hash. -/
structure Kept (setting : Setting) (hashOf : Text → Text) (stored hash stored' hash' : Text) :
    Prop where
  undecryptable : Undecryptable setting stored → stored' = stored ∧ hash' = hash
  decrypts : ∀ text, ¬Undecryptable setting stored →
    fromDbValue setting (some stored) = .ok (some text) →
    fromDbValue setting (some stored') = .ok (some text) ∧
      (hash = hashOf text → hash' = hashOf text)

section Columns

variable {setting : Setting} {hashOf : Text → Text} {stored hash : Text}

theorem Kept.refl (setting : Setting) (hashOf : Text → Text) (stored hash : Text) :
    Kept setting hashOf stored hash stored hash where
  undecryptable _ := ⟨rfl, rfl⟩
  decrypts _ _ h := ⟨h, fun heq => heq⟩

theorem fromDbValue_undecryptable (h : Undecryptable setting stored) :
    fromDbValue setting (some stored) = .ok (some unreadable) := by
  obtain ⟨hne, hnone⟩ := h
  obtain ⟨c, rest, rfl⟩ := List.exists_cons_of_ne_nil hne
  simp only [fromDbValue, hnone]
  rfl

/-- A text is read as a text. -/
theorem fromDbValue_getD {value : Option Text} (h : fromDbValue setting (some stored) = .ok value) :
    value = some (value.getD []) := by
  have hsome : value.isSome = true := by
    unfold fromDbValue at h
    split at h
    · next heq => cases heq
    · rw [← Except.ok.inj h, Option.isSome_some]
    · split at h
      · rw [← Except.ok.inj h, Option.isSome_some]
      · split at h
        · cases h
        · rw [← Except.ok.inj h, Option.isSome_some]
  obtain ⟨text, rfl⟩ := Option.isSome_iff_exists.mp hsome
  rfl

/-- What a field writes decrypts. -/
theorem not_undecryptable_of_charPrepValue (h : setting.Lawful) {maxLength call : ℕ} {text : Text}
    (hstored : charPrepValue setting maxLength call (some text) = .ok (some stored)) :
    ¬Undecryptable setting stored := by
  unfold charPrepValue at hstored
  by_cases hlong : maxLength ≠ 0 ∧ maxLength < ((some text).getD []).length
  · rw [if_pos hlong] at hstored
    cases hstored
  · rw [if_neg hlong] at hstored
    have hprep := Except.ok.inj hstored
    cases text with
    | nil =>
        obtain rfl := Option.some.inj hprep
        exact fun hbad => hbad.1 rfl
    | cons c rest =>
        obtain rfl := Option.some.inj hprep
        intro hbad
        have hdecrypt := hbad.2
        rw [h.decrypt_encrypt] at hdecrypt
        cases hdecrypt

/-- A column that is written with another text than it shows does not survive, nor does one whose
placeholder is written. -/
theorem kept_iff (h : setting.Lawful) {maxLength call : ℕ} {shown text stored' hash' : Text}
    (hshown : fromDbValue setting (some stored) = .ok (some shown))
    (hstored : charPrepValue setting maxLength call (some text) = .ok (some stored'))
    (hhash : text = shown → hash' = hashOf shown) :
    Kept setting hashOf stored hash stored' hash' ↔
      ¬Undecryptable setting stored ∧ text = shown := by
  have hread := fromDbValue_charPrepValue h hstored
  constructor
  · intro hkept
    have hdecrypts : ¬Undecryptable setting stored := by
      intro hbad
      refine not_undecryptable_of_charPrepValue h hstored ?_
      rw [(hkept.undecryptable hbad).1]
      exact hbad
    refine ⟨hdecrypts, ?_⟩
    obtain ⟨hsame, -⟩ := hkept.decrypts shown hdecrypts hshown
    rw [hread] at hsame
    exact Option.some.inj (Except.ok.inj hsame)
  · rintro ⟨hdecrypts, rfl⟩
    refine ⟨fun hbad => absurd hbad hdecrypts, fun other _ hother => ?_⟩
    obtain rfl := Option.some.inj (Except.ok.inj (hshown.symm.trans hother))
    exact ⟨hread, fun _ => hhash rfl⟩

end Columns

/-! ## The form -/

def CustomerColumn.hash : CustomerColumn → Customer → Text
  | fullName => Customer.fullNameLookupHash
  | email => Customer.emailLookupHash
  | phoneNumber => Customer.phoneNumberLookupHash

/-- The lookup hash that `Customer.save` gives a text of the column. -/
def CustomerColumn.hashOf (setting : Setting) : CustomerColumn → Text → Text
  | email, text => if text = [] then [] else computeLookupHash setting (setting.lower text)
  | _, text => computeLookupHash setting text

def CustomerColumn.posted : CustomerColumn → CustomerPost → Text
  | fullName => CustomerPost.fullName
  | email => CustomerPost.email
  | phoneNumber => CustomerPost.phoneNumber

/-- The POST is valid, its address fits the column and its external reference is free. -/
structure Accepted (validEmail taken : Text → Bool) (post : CustomerPost) (data : CustomerPost) :
    Prop where
  clean : post.clean validEmail = some data
  email : data.email.length ≤ 254
  free : ¬(data.externalReference ≠ [] ∧ taken data.externalReference = true)

section Form

variable {validEmail taken : Text → Bool} {post data : CustomerPost}

theorem optionalCharField_some {maxLength : ℕ} {text value : Text}
    (h : optionalCharField maxLength text = some value) : value = strip text := by
  unfold optionalCharField at h
  by_cases hblank : strip text = []
  · rw [if_pos hblank] at h
    rw [← Option.some.inj h, hblank]
  · rw [if_neg hblank] at h
    exact (charField_some h).1

theorem optionalEmailField_some {text value : Text}
    (h : optionalEmailField validEmail text = some value) : value = strip text := by
  unfold optionalEmailField at h
  by_cases hblank : strip text = []
  · rw [if_pos hblank] at h
    rw [← Option.some.inj h, hblank]
  · rw [if_neg hblank] at h
    exact (charField_some (Option.filter_eq_some_iff.mp h).1).1

/-- Every column is stripped, and two of them are checked for their lengths. -/
theorem clean_some (h : post.clean validEmail = some data) :
    (∀ column : CustomerColumn, column.posted data = strip (column.posted post)) ∧
      data.fullName.length ≤ 255 ∧ data.phoneNumber.length ≤ 32 := by
  simp only [CustomerPost.clean, Option.bind_eq_bind, Option.bind_eq_some_iff] at h
  obtain ⟨fullName, hname, email, hemail, phoneNumber, hphone, reference, -, hdata⟩ := h
  obtain rfl := Option.some.inj hdata
  refine ⟨fun column => ?_, (charField_fits hname).1, (optionalCharField_fits hphone).1⟩
  cases column with
  | fullName => exact (charField_some hname).1
  | email => exact optionalEmailField_some hemail
  | phoneNumber => exact optionalCharField_some hphone

end Form

/-! ## The edit -/

section Edit

variable {setting : Setting} {validEmail taken : Text → Bool} {call : ℕ} {row : ListedCustomer}
  {post data : CustomerPost}

theorem charPrepValue_fits {maxLength : ℕ} {text : Text} (h : text.length ≤ maxLength) :
    charPrepValue setting maxLength call (some text) =
      .ok (textPrepValue setting call (some text)) := by
  rw [charPrepValue, if_neg]
  rintro ⟨-, hlong⟩
  exact absurd h (Nat.not_le.mpr hlong)

theorem textPrepValue_some (setting : Setting) (call : ℕ) (text : Text) :
    some ((textPrepValue setting call (some text)).getD []) =
      textPrepValue setting call (some text) := by
  cases text with
  | nil => rfl
  | cons c rest => rfl

/-- The row that an accepted POST leaves. -/
theorem customerEdit_saved {loaded : Customer} (hload : row.toCustomer.load setting = .ok loaded)
    (hdata : Accepted validEmail taken post data) :
    rowAfter row (customerEdit setting validEmail taken call row post) =
      { row with
        pk := loaded.pk
        fullName := (textPrepValue setting call (some data.fullName)).getD []
        email := (textPrepValue setting (call + 1) (some data.email)).getD []
        phoneNumber := (textPrepValue setting (call + 2) (some data.phoneNumber)).getD []
        fullNameLookupHash := CustomerColumn.fullName.hashOf setting data.fullName
        emailLookupHash := CustomerColumn.email.hashOf setting data.email
        phoneNumberLookupHash := CustomerColumn.phoneNumber.hashOf setting data.phoneNumber
        externalReference := data.externalReference } := by
  obtain ⟨-, hname, hphone⟩ := clean_some hdata.clean
  have hfree : ¬(decide (data.externalReference ≠ []) && taken data.externalReference) = true := by
    rw [Bool.and_eq_true, decide_eq_true_eq]
    exact hdata.free
  simp only [customerEdit, hload, hdata.clean, Customer.store, Customer.save,
    charPrepValue_fits hname, charPrepValue_fits hdata.email, charPrepValue_fits hphone, bind,
    Except.bind, pure, Except.pure]
  rw [if_neg hfree]
  rfl

/-- What an accepted POST stores of a column. -/
theorem customerEdit_column (call : ℕ) {loaded : Customer}
    (hload : row.toCustomer.load setting = .ok loaded) (hdata : Accepted validEmail taken post data)
    (column : CustomerColumn) :
    ∃ maxLength n, charPrepValue setting maxLength n (some (column.posted data)) = .ok (some
        (column.value
          (rowAfter row (customerEdit setting validEmail taken call row post)).toCustomer)) ∧
      column.hash (rowAfter row (customerEdit setting validEmail taken call row post)).toCustomer =
        column.hashOf setting (column.posted data) := by
  obtain ⟨-, hname, hphone⟩ := clean_some hdata.clean
  rw [customerEdit_saved hload hdata]
  cases column with
  | fullName =>
      refine ⟨255, call, (charPrepValue_fits hname).trans ?_, rfl⟩
      exact congrArg Except.ok (textPrepValue_some setting call _).symm
  | email =>
      refine ⟨254, call + 1, (charPrepValue_fits hdata.email).trans ?_, rfl⟩
      exact congrArg Except.ok (textPrepValue_some setting (call + 1) _).symm
  | phoneNumber =>
      refine ⟨32, call + 2, (charPrepValue_fits hphone).trans ?_, rfl⟩
      exact congrArg Except.ok (textPrepValue_some setting (call + 2) _).symm

/-- An address that does not fit its column is not stored. -/
theorem store_email {customer stored : Customer}
    (h : customer.store setting call = .ok stored) : customer.email.length ≤ 254 := by
  by_contra hlong
  have hemail : charPrepValue setting 254 (call + 1) (some customer.email) =
      .error (.valueError 254 customer.email.length) :=
    if_pos ⟨by decide, Nat.lt_of_not_le hlong⟩
  simp only [Customer.store, hemail, bind, Except.bind] at h
  split at h
  · cases h
  · cases h

/-- Without one the row stays as it is. -/
theorem customerEdit_rejected (hno : (∀ loaded, row.toCustomer.load setting ≠ .ok loaded) ∨
      ∀ data, ¬Accepted validEmail taken post data) :
    rowAfter row (customerEdit setting validEmail taken call row post) = row := by
  unfold customerEdit
  cases hload : row.toCustomer.load setting with
  | error e => rfl
  | ok loaded =>
      cases hclean : post.clean validEmail with
      | none => rfl
      | some data =>
          have hnot : ¬Accepted validEmail taken post data := by
            rcases hno with hload' | hno
            · exact absurd hload (hload' loaded)
            · exact hno data
          dsimp only
          split
          · rfl
          · next stored hstore =>
              have hemail : data.email.length ≤ 254 := store_email hstore
              have htaken : (decide (data.externalReference ≠ []) && taken data.externalReference) =
                  true := by
                by_contra hfree
                refine hnot ⟨hclean, hemail, fun htaken => hfree ?_⟩
                rw [Bool.and_eq_true, decide_eq_true_eq]
                exact htaken
              rw [if_pos htaken]
              rfl

/-- A loaded column shows what its field reads. -/
theorem load_value {customer loaded : Customer} (h : customer.load setting = .ok loaded)
    (column : CustomerColumn) :
    fromDbValue setting (some (column.value customer)) = .ok (some (column.value loaded)) := by
  unfold Customer.load at h
  cases hname : fromDbValue setting (some customer.fullName) with
  | error e => rw [hname] at h; cases h
  | ok fullName =>
      cases hemail : fromDbValue setting (some customer.email) with
      | error e => rw [hname, hemail] at h; cases h
      | ok email =>
          cases hphone : fromDbValue setting (some customer.phoneNumber) with
          | error e => rw [hname, hemail, hphone] at h; cases h
          | ok phoneNumber =>
              rw [hname, hemail, hphone] at h
              obtain rfl := Except.ok.inj h
              cases column with
              | fullName => exact hname.trans (congrArg Except.ok (fromDbValue_getD hname))
              | email => exact hemail.trans (congrArg Except.ok (fromDbValue_getD hemail))
              | phoneNumber => exact hphone.trans (congrArg Except.ok (fromDbValue_getD hphone))

end Edit

/-- For every stored row, every POST of `customer_edit` and every column that the POST leaves as it
was shown: the column and its hash survive exactly where nothing is saved, or the column decrypts
and what it shows has no space around it.  A full save of any encrypted column as it was loaded
keeps it exactly where it decrypts. -/
theorem customer_edit_keeps {setting : Setting} (h : setting.Lawful) :
    (∀ (validEmail taken : Text → Bool) (call : ℕ) (row : ListedCustomer) (post : CustomerPost)
      (column : CustomerColumn),
      (∀ loaded, row.toCustomer.load setting = .ok loaded →
        column.posted post = column.value loaded) →
      (Kept setting (column.hashOf setting) (column.value row.toCustomer)
          (column.hash row.toCustomer)
          (column.value
            (rowAfter row (customerEdit setting validEmail taken call row post)).toCustomer)
          (column.hash
            (rowAfter row (customerEdit setting validEmail taken call row post)).toCustomer) ↔
        (∀ loaded, row.toCustomer.load setting = .ok loaded →
          (∃ data, Accepted validEmail taken post data) →
            ¬Undecryptable setting (column.value row.toCustomer) ∧
              strip (column.value loaded) = column.value loaded))) ∧
    ∀ (hashOf : Text → Text) (maxLength call : ℕ) (stored hash shown stored' : Text),
      fromDbValue setting (some stored) = .ok (some shown) →
      charPrepValue setting maxLength call (some shown) = .ok (some stored') →
      (Kept setting hashOf stored hash stored' (hashOf shown) ↔ ¬Undecryptable setting stored) := by
  constructor
  · intro validEmail taken call row post column hshown
    by_cases hsaves : ∃ loaded data, row.toCustomer.load setting = .ok loaded ∧
        Accepted validEmail taken post data
    · obtain ⟨loaded, data, hload, hdata⟩ := hsaves
      obtain ⟨maxLength, n, hstored, hhash⟩ := customerEdit_column call hload hdata column
      have htext : column.posted data = strip (column.value loaded) := by
        rw [(clean_some hdata.clean).1 column, hshown loaded hload]
      rw [htext] at hstored hhash
      rw [kept_iff h (load_value hload column) hstored fun heq => by rw [hhash, heq]]
      constructor
      · intro hkept loaded' hload' _
        obtain rfl := Except.ok.inj (hload.symm.trans hload')
        exact hkept
      · intro hall
        exact hall loaded hload ⟨data, hdata⟩
    · have hsame : rowAfter row (customerEdit setting validEmail taken call row post) = row := by
        refine customerEdit_rejected ?_
        by_cases hload : ∃ loaded, row.toCustomer.load setting = .ok loaded
        · obtain ⟨loaded, hload⟩ := hload
          exact Or.inr fun data hdata => hsaves ⟨loaded, data, hload, hdata⟩
        · exact Or.inl fun loaded heq => hload ⟨loaded, heq⟩
      rw [hsame]
      refine iff_of_true (Kept.refl _ _ _ _) ?_
      rintro loaded hload ⟨data, hdata⟩
      exact absurd ⟨loaded, data, hload, hdata⟩ hsaves
  · intro hashOf maxLength call stored hash shown stored' hshown hstored
    rw [kept_iff h hshown hstored fun _ => rfl]
    exact and_iff_left rfl

/-! ## Two customers -/

/-- A customer named `hello`. -/
def helloRow : ListedCustomer where
  pk := 1
  fullName := helloToken
  email := []
  phoneNumber := []
  fullNameLookupHash := computeLookupHash helloSetting "hello".toList
  emailLookupHash := []
  phoneNumberLookupHash := computeLookupHash helloSetting []
  tenant := 1
  externalReference := "C-1".toList

def helloPost : CustomerPost where
  fullName := "hello".toList
  email := []
  phoneNumber := "0710".toList
  externalReference := "C-1".toList

theorem decrypt_helloToken : helloSetting.decrypt (Text.utf8 helloToken) = some hello := by
  change helloDecrypt (Text.utf8 helloToken) = some hello
  rw [helloDecrypt, if_pos rfl]

theorem fromDbValue_helloToken :
    fromDbValue helloSetting (some helloToken) = .ok (some "hello".toList) := by
  have hread : ∀ token, token ≠ [] → helloSetting.decrypt (Text.utf8 token) = some hello →
      fromDbValue helloSetting (some token) = .ok (some "hello".toList) := by
    intro token hne hdecrypt
    obtain ⟨c, rest, rfl⟩ := List.exists_cons_of_ne_nil hne
    simp only [fromDbValue, hdecrypt, hello, Text.decodeUtf8_utf8]
  exact hread helloToken (List.cons_ne_nil _ _) decrypt_helloToken

theorem load_helloRow : helloRow.toCustomer.load helloSetting =
    .ok { helloRow.toCustomer with fullName := "hello".toList } :=
  Customer.load_eq fromDbValue_helloToken rfl rfl

/-- A new telephone number leaves the name. -/
theorem customer_edit_keeps_hello :
    Kept helloSetting (CustomerColumn.fullName.hashOf helloSetting) helloToken
      (computeLookupHash helloSetting "hello".toList)
      (rowAfter helloRow (customerEdit helloSetting (fun _ => true) (fun _ => false) 0 helloRow
        helloPost)).fullName
      (rowAfter helloRow (customerEdit helloSetting (fun _ => true) (fun _ => false) 0 helloRow
        helloPost)).fullNameLookupHash := by
  have hloaded : ∀ loaded, helloRow.toCustomer.load helloSetting = .ok loaded →
      loaded.fullName = "hello".toList := by
    intro loaded hload
    obtain rfl := Except.ok.inj (load_helloRow.symm.trans hload)
    rfl
  refine ((customer_edit_keeps helloSetting_lawful).1 (fun _ => true) (fun _ => false) 0 helloRow
    helloPost .fullName fun loaded hload => (hloaded loaded hload).symm).mpr ?_
  intro loaded hload _
  refine ⟨fun hbad => ?_, ?_⟩
  · have hnone := hbad.2.symm.trans decrypt_helloToken
    cases hnone
  · change strip loaded.fullName = loaded.fullName
    rw [hloaded loaded hload]
    decide

/-- The same customer after the key has been rotated. -/
def rotatedRow : ListedCustomer := { helloRow with fullName := "gAAAAABrotated".toList }

def rotatedPost : CustomerPost := { helloPost with fullName := unreadable }

/-- The page shows the placeholder, and posting the page overwrites the ciphertext. -/
theorem customer_edit_overwrites :
    ¬∀ (setting : Setting), setting.Lawful → ∀ (validEmail taken : Text → Bool) (call : ℕ)
      (row : ListedCustomer) (post : CustomerPost) (column : CustomerColumn),
      (∀ loaded, row.toCustomer.load setting = .ok loaded →
        column.posted post = column.value loaded) →
      Kept setting (column.hashOf setting) (column.value row.toCustomer)
        (column.hash row.toCustomer)
        (column.value
          (rowAfter row (customerEdit setting validEmail taken call row post)).toCustomer)
        (column.hash
          (rowAfter row (customerEdit setting validEmail taken call row post)).toCustomer) := by
  intro hall
  have hbad : Undecryptable helloSetting rotatedRow.fullName := ⟨List.cons_ne_nil _ _, by decide⟩
  have hload : rotatedRow.toCustomer.load helloSetting =
      .ok { rotatedRow.toCustomer with fullName := unreadable } :=
    Customer.load_eq (fromDbValue_undecryptable hbad) rfl rfl
  have hkept := hall helloSetting helloSetting_lawful (fun _ => true) (fun _ => false) 0 rotatedRow
    rotatedPost .fullName fun loaded hloaded => by
      obtain rfl := Except.ok.inj (hload.symm.trans hloaded)
      rfl
  have hdata : Accepted (fun _ => true) (fun _ => false) rotatedPost rotatedPost :=
    ⟨by decide, by decide, fun hfree => Bool.false_ne_true hfree.2⟩
  obtain ⟨maxLength, n, hstored, -⟩ := customerEdit_column 0 hload hdata .fullName
  refine not_undecryptable_of_charPrepValue helloSetting_lawful hstored ?_
  rw [(hkept.undecryptable hbad).1]
  exact hbad

end Kusanya.Encryption
