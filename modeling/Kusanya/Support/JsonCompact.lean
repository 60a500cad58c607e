import Kusanya.Support.CodePoints
import Kusanya.Support.JsonText
import Mathlib.Data.List.Perm.Basic

/-!
# Compact JSON, and values up to the order of their fields

`compactDumps` is `json.dumps(value, sort_keys=True, separators=(",", ":"))`.  Two
values are `Same` if they differ in the order of fields only; for values whose objects
have each key once that is what sorting the keys decides.
-/

namespace Support.JsonOf

/-! ## Writing -/

/-- A code point of a string: a surrogate is escaped by itself. -/
def escapeCode (c : Fin 0x110000) : Text :=
  match Str.char? c with
  | some char => escapeChar char
  | none => unicodeEscape c.val

def quote (s : Str) : Text := '"' :: (s.flatMap escapeCode ++ ['"'])

section Writing

variable {σ : Type} (quote : σ → Text)

mutual

/-- `json.dumps(value, separators=(",", ":"))`, for strings that are written by `quote`. -/
def compact : JsonOf σ → Text
  | null => ['n', 'u', 'l', 'l']
  | bool true => ['t', 'r', 'u', 'e']
  | bool false => ['f', 'a', 'l', 's', 'e']
  | int n => writeInt n
  | float x => writeFloat x
  | str s => quote s
  | arr [] => ['[', ']']
  | arr (item :: items) => '[' :: (compact item ++ compactItems items)
  | obj [] => ['{', '}']
  | obj ((key, value) :: fields) =>
      '{' :: (quote key ++ ':' :: (compact value ++ compactFields fields))

/-- The items behind the first one, and the closing bracket. -/
def compactItems : List (JsonOf σ) → Text
  | [] => [']']
  | item :: items => ',' :: (compact item ++ compactItems items)

def compactFields : List (σ × JsonOf σ) → Text
  | [] => ['}']
  | (key, value) :: fields =>
      ',' :: (quote key ++ ':' :: (compact value ++ compactFields fields))

end

def compactDumps [LinearOrder σ] (value : JsonOf σ) : Text := compact quote (sortKeys value)

end Writing

variable {σ : Type}

/-! ## Equality up to the order of fields -/

mutual

/-- The values differ at most in the order of the fields of their objects. -/
def Same : JsonOf σ → JsonOf σ → Prop
  | null, null => True
  | bool a, bool b => a = b
  | int m, int n => m = n
  | float x, float y => x = y
  | str s, str t => s = t
  | arr items, arr items' => SameItems items items'
  | obj fields, obj fields' => ∃ fields'', fields''.Perm fields' ∧ SameFields fields fields''
  | _, _ => False

def SameItems : List (JsonOf σ) → List (JsonOf σ) → Prop
  | [], [] => True
  | item :: items, item' :: items' => Same item item' ∧ SameItems items items'
  | _, _ => False

/-- Field by field: the same key, and the same value. -/
def SameFields : List (σ × JsonOf σ) → List (σ × JsonOf σ) → Prop
  | [], [] => True
  | (key, value) :: fields, (key', value') :: fields' =>
      key = key' ∧ Same value value' ∧ SameFields fields fields'
  | _, _ => False

end

variable [LinearOrder σ]

/-! ## Values without floats -/

mutual

/-- Built from null, booleans, integers, strings, lists and objects that have each key
once. -/
def isPlain : JsonOf σ → Bool
  | float _ => false
  | arr items => plainItems items
  | obj fields => decide (fields.map (·.1)).Nodup && plainFields fields
  | _ => true

def plainItems : List (JsonOf σ) → Bool
  | [] => true
  | item :: items => isPlain item && plainItems items

def plainFields : List (σ × JsonOf σ) → Bool
  | [] => true
  | (_, value) :: fields => isPlain value && plainFields fields

end

theorem isPlain_obj {fields : List (σ × JsonOf σ)} :
    (obj fields).isPlain = true ↔ (fields.map (·.1)).Nodup ∧ plainFields fields = true := by
  rw [isPlain, Bool.and_eq_true, decide_eq_true_eq]

/-! ## Sorting -/

/-- The order in which `sort_keys` puts the fields. -/
def KeyLe (a b : σ × JsonOf σ) : Prop := a.1 ≤ b.1

instance : @DecidableRel (σ × JsonOf σ) (σ × JsonOf σ) KeyLe :=
  fun a b => inferInstanceAs (Decidable (a.1 ≤ b.1))

instance : @Std.Total (σ × JsonOf σ) KeyLe := ⟨fun a b => le_total a.1 b.1⟩

instance : IsTrans (σ × JsonOf σ) KeyLe := ⟨fun _ _ _ h h' => le_trans h h'⟩

/-- A field with its value sorted. -/
def sortedField (field : σ × JsonOf σ) : σ × JsonOf σ := (field.1, sortKeys field.2)

theorem sortFields_eq (fields : List (σ × JsonOf σ)) :
    sortFields fields = (fields.map sortedField).insertionSort KeyLe := by
  induction fields with
  | nil => rfl
  | cons field fields ih =>
      rw [List.map_cons, List.insertionSort_cons, ← ih]
      rfl

theorem sortFields_perm (fields : List (σ × JsonOf σ)) :
    (sortFields fields).Perm (fields.map sortedField) := by
  rw [sortFields_eq]
  exact List.perm_insertionSort _ _

theorem sortFields_pairwise (fields : List (σ × JsonOf σ)) :
    (sortFields fields).Pairwise KeyLe := by
  rw [sortFields_eq]
  exact List.pairwise_insertionSort _ _

theorem map_sortedField_keys (fields : List (σ × JsonOf σ)) :
    (fields.map sortedField).map (·.1) = fields.map (·.1) := by
  rw [List.map_map]
  rfl

/-- A list whose keys are distinct is determined by its fields and their order. -/
theorem eq_of_perm_of_keys {l l' : List (σ × JsonOf σ)} (hperm : l.Perm l')
    (hl : l.Pairwise KeyLe) (hl' : l'.Pairwise KeyLe) (hkeys : (l.map (·.1)).Nodup) :
    l = l' := by
  apply hperm.eq_of_pairwise _ hl hl'
  intro a b ha hb hab hba
  exact List.inj_on_of_nodup_map hkeys ha (hperm.mem_iff.mpr hb) (le_antisymm hab hba)

/-- Sorting forgets the order of the fields. -/
theorem sortFields_congr {fields fields' : List (σ × JsonOf σ)} (hperm : fields.Perm fields')
    (hkeys : (fields.map (·.1)).Nodup) : sortFields fields = sortFields fields' := by
  have hsorted : (sortFields fields).Perm (sortFields fields') :=
    (sortFields_perm fields).trans ((hperm.map sortedField).trans (sortFields_perm fields').symm)
  apply eq_of_perm_of_keys hsorted (sortFields_pairwise fields) (sortFields_pairwise fields')
  have hmap := (sortFields_perm fields).map (·.1)
  rw [map_sortedField_keys] at hmap
  exact hmap.nodup_iff.mpr hkeys

/-- A list that has the same image as `l` can be put in an order in which the images
match one by one. -/
theorem exists_perm_map_eq {α β : Type} {f : α → β} {l l' : List α}
    (h : (l.map f).Perm (l'.map f)) : ∃ l'' : List α, l''.Perm l' ∧ l''.map f = l.map f := by
  have hforall : List.Forall₂ (fun y x => y = f x) (l'.map f) l' := by
    rw [List.forall₂_map_left_iff, List.forall₂_same]
    exact fun _ _ => rfl
  obtain ⟨l'', hmatch, hperm⟩ := List.perm_comp_forall₂ h hforall
  refine ⟨l'', hperm, ?_⟩
  clear hperm h hforall
  generalize l.map f = m at hmatch ⊢
  induction hmatch with
  | nil => rfl
  | cons hhead htail ih => rw [List.map_cons, ih, hhead]

theorem keys_of_sortedField {fields fields' : List (σ × JsonOf σ)}
    (h : fields.map sortedField = fields'.map sortedField) :
    fields.map (·.1) = fields'.map (·.1) := by
  rw [← map_sortedField_keys, h, map_sortedField_keys]

mutual

/-- Sorted alike, the values differ in the order of fields only. -/
theorem same_of_sortKeys (a : JsonOf σ) : ∀ {b : JsonOf σ}, sortKeys a = sortKeys b → Same a b := by
  intro b h
  match a, b, h with
  | null, null, _ => trivial
  | bool a, bool b, h => exact bool.inj h
  | int m, int n, h => exact int.inj h
  | float x, float y, h => exact float.inj h
  | str s, str t, h => exact str.inj h
  | arr items, arr items', h =>
      exact sameItems_of_sortItems items (arr.inj h)
  | obj fields, obj fields', h =>
      have hperm : (fields.map sortedField).Perm (fields'.map sortedField) := by
        have hsort : sortFields fields = sortFields fields' := obj.inj h
        exact (sortFields_perm fields).symm.trans (hsort ▸ sortFields_perm fields')
      obtain ⟨fields'', hperm', hmap⟩ := exists_perm_map_eq hperm
      exact ⟨fields'', hperm', sameFields_of_map fields hmap.symm⟩

theorem sameItems_of_sortItems (items : List (JsonOf σ)) : ∀ {items' : List (JsonOf σ)},
    sortItems items = sortItems items' → SameItems items items' := by
  intro items' h
  match items, items', h with
  | [], [], _ => trivial
  | item :: items, item' :: items', h =>
      obtain ⟨hitem, hitems⟩ := List.cons.inj h
      exact ⟨same_of_sortKeys item hitem, sameItems_of_sortItems items hitems⟩

theorem sameFields_of_map (fields : List (σ × JsonOf σ)) : ∀ {fields' : List (σ × JsonOf σ)},
    fields.map sortedField = fields'.map sortedField → SameFields fields fields' := by
  intro fields' h
  match fields, fields', h with
  | [], [], _ => trivial
  | (key, value) :: fields, (key', value') :: fields', h =>
      obtain ⟨hfield, hfields⟩ := List.cons.inj h
      obtain ⟨hkey, hvalue⟩ := Prod.mk.inj hfield
      exact ⟨hkey, same_of_sortKeys value hvalue, sameFields_of_map fields hfields⟩

end

mutual

/-- Values that differ in the order of fields only are sorted alike. -/
theorem sortKeys_of_same (a : JsonOf σ) : ∀ {b : JsonOf σ}, a.isPlain = true → Same a b →
    sortKeys a = sortKeys b := by
  intro b ha h
  match a, b, h with
  | null, null, _ => rfl
  | bool a, bool b, h => exact congrArg bool h
  | int m, int n, h => exact congrArg int h
  | float x, float y, h => exact congrArg float h
  | str s, str t, h => exact congrArg str h
  | arr items, arr items', h =>
      exact congrArg arr (sortItems_of_same items ha h)
  | obj fields, obj fields', h =>
      obtain ⟨fields'', hperm, hsame⟩ := h
      rw [isPlain_obj] at ha
      have hmap := map_of_sameFields fields ha.2 hsame
      have hkeys : (fields''.map (·.1)).Nodup := by
        rw [← keys_of_sortedField hmap]
        exact ha.1
      apply congrArg obj
      rw [← sortFields_congr hperm hkeys, sortFields_eq, sortFields_eq, hmap]

theorem sortItems_of_same (items : List (JsonOf σ)) : ∀ {items' : List (JsonOf σ)},
    plainItems items = true → SameItems items items' → sortItems items = sortItems items' := by
  intro items' hitems h
  match items, items', h with
  | [], [], _ => rfl
  | item :: items, item' :: items', h =>
      rw [plainItems, Bool.and_eq_true] at hitems
      rw [sortItems, sortItems, sortKeys_of_same item hitems.1 h.1,
        sortItems_of_same items hitems.2 h.2]

theorem map_of_sameFields (fields : List (σ × JsonOf σ)) : ∀ {fields' : List (σ × JsonOf σ)},
    plainFields fields = true → SameFields fields fields' →
    fields.map sortedField = fields'.map sortedField := by
  intro fields' hfields h
  match fields, fields', h with
  | [], [], _ => rfl
  | (key, value) :: fields, (key', value') :: fields', h =>
      obtain ⟨hkey, hvalue, hrest⟩ := h
      rw [plainFields, Bool.and_eq_true] at hfields
      rw [List.map_cons, List.map_cons, sortedField, sortedField, hkey,
        sortKeys_of_same value hfields.1 hvalue, map_of_sameFields fields hfields.2 hrest]

end

mutual

/-- Sorting changes nothing but the order of fields. -/
theorem same_sortKeys : ∀ a : JsonOf σ, Same a (sortKeys a)
  | null => trivial
  | bool _ => rfl
  | int _ => rfl
  | float _ => rfl
  | str _ => rfl
  | arr items => sameItems_sortItems items
  | obj fields => ⟨fields.map sortedField, (sortFields_perm fields).symm, sameFields_sorted fields⟩

theorem sameItems_sortItems : ∀ items : List (JsonOf σ), SameItems items (sortItems items)
  | [] => trivial
  | item :: items => ⟨same_sortKeys item, sameItems_sortItems items⟩

theorem sameFields_sorted : ∀ fields : List (σ × JsonOf σ),
    SameFields fields (fields.map sortedField)
  | [] => trivial
  | (_, value) :: fields => ⟨rfl, same_sortKeys value, sameFields_sorted fields⟩

end

theorem same_iff_sortKeys {a b : JsonOf σ} (ha : a.isPlain = true) :
    Same a b ↔ sortKeys a = sortKeys b := by
  constructor
  · exact sortKeys_of_same a ha
  · exact same_of_sortKeys a

end Support.JsonOf
