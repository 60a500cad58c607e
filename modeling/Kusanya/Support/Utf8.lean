import Kusanya.Support.Text

/-!
# Decoding UTF-8

The strict decoder of Python: overlong forms, surrogates and numbers beyond the last
code point are refused.  It accepts exactly the encodings of texts.
-/

namespace Support.Text

/-- The number of bytes that a first byte announces. -/
def utf8Length (first : ℕ) : ℕ :=
  if first < 0x80 then 1 else if first < 0xe0 then 2 else if first < 0xf0 then 3 else 4

/-- The payload bits of one encoded character. -/
def utf8Value : List ℕ → ℕ
  | [a] => a
  | [a, b] => a % 0x20 * 0x40 + b % 0x40
  | [a, b, c] => a % 0x10 * 0x1000 + b % 0x40 * 0x40 + c % 0x40
  | [a, b, c, d] => a % 0x08 * 0x40000 + b % 0x40 * 0x1000 + c % 0x40 * 0x40 + d % 0x40
  | _ => 0

/-- The first character, if the bytes in front are its encoding. -/
def decodeChar : List ℕ → Option (Char × List ℕ)
  | [] => none
  | first :: bytes =>
      let head := (first :: bytes).take (utf8Length first)
      let c := Char.ofNat (utf8Value head)
      if utf8Char c = head then some (c, (first :: bytes).drop (utf8Length first)) else none

/-- At most `fuel` characters. -/
def decodeFrom : ℕ → List ℕ → Option Text
  | _, [] => some []
  | 0, _ :: _ => none
  | fuel + 1, first :: bytes =>
      match decodeChar (first :: bytes) with
      | none => none
      | some (c, rest) => (decodeFrom fuel rest).map (c :: ·)

/-- `bytes.decode("utf-8")`, `none` for a `UnicodeDecodeError`. -/
def decodeUtf8 (bytes : List ℕ) : Option Text := decodeFrom bytes.length bytes

/-! ## Encodings are decoded -/

theorem toNat_lt (c : Char) : c.toNat < 0x110000 := by
  have hvalid : c.toNat < 0xd800 ∨ 0xdfff < c.toNat ∧ c.toNat < 0x110000 := c.valid
  omega

/-- The first byte announces the length, and the payload bits are the code point. -/
theorem utf8Char_spec (c : Char) :
    ∃ first bytes, utf8Char c = first :: bytes ∧ utf8Length first = (utf8Char c).length ∧
      utf8Value (utf8Char c) = c.toNat := by
  have hlt := toNat_lt c
  unfold utf8Char
  by_cases h₁ : c.toNat < 0x80
  · simp only [if_pos h₁]
    exact ⟨_, _, rfl, if_pos h₁, rfl⟩
  by_cases h₂ : c.toNat < 0x800
  · simp only [if_neg h₁, if_pos h₂]
    refine ⟨_, _, rfl, ?_, ?_⟩
    · rw [utf8Length, if_neg (by omega), if_pos (by omega)]
      rfl
    · simp only [utf8Value]
      omega
  by_cases h₃ : c.toNat < 0x10000
  · simp only [if_neg h₁, if_neg h₂, if_pos h₃]
    refine ⟨_, _, rfl, ?_, ?_⟩
    · rw [utf8Length, if_neg (by omega), if_neg (by omega), if_pos (by omega)]
      rfl
    · simp only [utf8Value]
      omega
  · simp only [if_neg h₁, if_neg h₂, if_neg h₃]
    refine ⟨_, _, rfl, ?_, ?_⟩
    · rw [utf8Length, if_neg (by omega), if_neg (by omega), if_neg (by omega)]
      rfl
    · simp only [utf8Value]
      omega

theorem utf8Char_ne_nil (c : Char) : utf8Char c ≠ [] := by
  obtain ⟨first, bytes, h, -, -⟩ := utf8Char_spec c
  rw [h]
  exact List.cons_ne_nil _ _

theorem decodeChar_utf8 (c : Char) (rest : List ℕ) :
    decodeChar (utf8Char c ++ rest) = some (c, rest) := by
  obtain ⟨first, bytes, h, hlength, hvalue⟩ := utf8Char_spec c
  have htake : (utf8Char c ++ rest).take (utf8Length first) = utf8Char c := by
    rw [hlength, List.take_left]
  have hdrop : (utf8Char c ++ rest).drop (utf8Length first) = rest := by
    rw [hlength, List.drop_left]
  rw [h, List.cons_append] at htake hdrop ⊢
  rw [decodeChar]
  simp only [htake, hdrop]
  rw [← h, hvalue, Char.ofNat_toNat, if_pos rfl]

theorem decodeFrom_utf8 {text : Text} {fuel : ℕ} (h : text.length ≤ fuel) :
    decodeFrom fuel (utf8 text) = some text := by
  induction text generalizing fuel with
  | nil => cases fuel <;> rfl
  | cons c text ih =>
      obtain ⟨first, bytes, hfirst, -, -⟩ := utf8Char_spec c
      have hcons : utf8 (c :: text) = first :: (bytes ++ utf8 text) := by
        rw [utf8, List.flatMap_cons, hfirst]
        rfl
      have hchar : decodeChar (first :: (bytes ++ utf8 text)) = some (c, utf8 text) := by
        rw [← List.cons_append, ← hfirst]
        exact decodeChar_utf8 c _
      cases fuel with
      | zero => cases h
      | succ fuel =>
          rw [hcons, decodeFrom, hchar]
          simp only [ih (Nat.le_of_succ_le_succ h), Option.map_some]

theorem length_le_utf8 (text : Text) : text.length ≤ (utf8 text).length := by
  induction text with
  | nil => exact Nat.zero_le _
  | cons c text ih =>
      have hpos := List.length_pos_iff.mpr (utf8Char_ne_nil c)
      rw [utf8, List.flatMap_cons, List.length_append, List.length_cons]
      rw [utf8] at ih
      omega

theorem decodeUtf8_utf8 (text : Text) : decodeUtf8 (utf8 text) = some text :=
  decodeFrom_utf8 (length_le_utf8 text)

theorem utf8_injective : Function.Injective utf8 := by
  intro s t h
  have hdecode := congrArg decodeUtf8 h
  rw [decodeUtf8_utf8, decodeUtf8_utf8] at hdecode
  exact Option.some.inj hdecode

/-! ## Only encodings are decoded -/

theorem decodeChar_eq_some {bytes rest : List ℕ} {c : Char}
    (h : decodeChar bytes = some (c, rest)) : bytes = utf8Char c ++ rest := by
  cases bytes with
  | nil => cases h
  | cons first bytes =>
      rw [decodeChar] at h
      split at h
      · next heq =>
          obtain ⟨rfl, rfl⟩ := Prod.mk.inj (Option.some.inj h)
          rw [heq]
          exact (List.take_append_drop _ _).symm
      · cases h

theorem decodeFrom_eq_some {fuel : ℕ} {bytes : List ℕ} {text : Text}
    (h : decodeFrom fuel bytes = some text) : bytes = utf8 text := by
  induction fuel generalizing bytes text with
  | zero =>
      cases bytes with
      | nil =>
          obtain rfl := Option.some.inj h
          rfl
      | cons first bytes => cases h
  | succ fuel ih =>
      cases bytes with
      | nil =>
          obtain rfl := Option.some.inj h
          rfl
      | cons first bytes =>
          rw [decodeFrom] at h
          split at h
          · cases h
          · next c rest hchar =>
              obtain ⟨tail, htail, rfl⟩ := Option.map_eq_some_iff.mp h
              rw [decodeChar_eq_some hchar, ih htail]
              rfl

theorem decodeUtf8_eq_some {bytes : List ℕ} {text : Text} :
    decodeUtf8 bytes = some text ↔ bytes = utf8 text := by
  constructor
  · intro h
    exact decodeFrom_eq_some h
  · rintro rfl
    exact decodeUtf8_utf8 text

end Support.Text
