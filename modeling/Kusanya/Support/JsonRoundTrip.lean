import Kusanya.Support.JsonLoads

/-!
# What is written compactly is read back

The scanner takes exactly one value off the front of a compact text, so a value without
floats, surrogate pairs and overlong integers comes back from its text.  The induction
is on the fuel of the scanner; no token of a compact text is preceded by whitespace.
-/

namespace Support.JsonOf

/-! ## Strings -/

section Strings

variable {c : Fin 0x110000} {x : Text}

theorem hexValue?_digitChar {d : ℕ} (hd : d < 16) : hexValue? (Nat.digitChar d) = some d := by
  have hall : ∀ d < 16, hexValue? (Nat.digitChar d) = some d := by decide
  exact hall d hd

/-- Reading one more digit. -/
theorem readHex_append {width acc : ℕ} {digits : Text} {n : ℕ} {d : ℕ} (hd : d < 16)
    (hlength : digits.length = width) (h : readHex width acc digits = some (n, [])) :
    readHex (width + 1) acc (digits ++ (Nat.digitChar d :: x)) = some (n * 16 + d, x) := by
  induction width generalizing acc digits with
  | zero =>
      obtain rfl := List.length_eq_zero_iff.mp hlength
      obtain ⟨rfl, -⟩ := Prod.mk.inj (Option.some.inj h)
      rw [List.nil_append, readHex, hexValue?_digitChar hd]
      rfl
  | succ width ih =>
      cases digits with
      | nil => cases hlength
      | cons e digits =>
          rw [readHex] at h
          rw [List.cons_append, readHex]
          cases he : hexValue? e with
          | none => simp [he] at h
          | some v =>
              simp only [he] at h ⊢
              exact ih (Nat.succ.inj hlength) h

theorem readHex_fixed (width n : ℕ) (x : Text) :
    readHex width 0 (Text.fixed 16 width n ++ x) = some (n % 16 ^ width, x) := by
  induction width generalizing n x with
  | zero => simp [Text.fixed, readHex, Nat.mod_one]
  | succ width ih =>
      have hdigits : readHex width 0 (Text.fixed 16 width (n / 16)) =
          some (n / 16 % 16 ^ width, []) := by
        have hnil := ih (n / 16) []
        rwa [List.append_nil] at hnil
      rw [Text.fixed, List.append_assoc, List.singleton_append,
        readHex_append (Nat.mod_lt n (by decide)) (Text.length_fixed 16 width (n / 16)) hdigits,
        pow_succ', Nat.mod_mul, Nat.mul_comm, Nat.add_comm]

/-- A code unit behind its `\u`. -/
theorem readHex_unit {unit : ℕ} (h : unit < 16 ^ 4) (x : Text) :
    readHex 4 0 (Text.fixed 16 4 unit ++ x) = some (unit, x) := by
  rw [readHex_fixed, Nat.mod_eq_of_lt h]

/-- The UTF-16 code units of a code point. -/
def codeUnits (c : Fin 0x110000) : List ℕ :=
  if c.val < 0x10000 then [c.val]
  else [0xd800 + (c.val - 0x10000) / 0x400, 0xdc00 + (c.val - 0x10000) % 0x400]

/-- The three ways in which a code point is written. -/
theorem escapeCode_cases (c : Fin 0x110000) :
    (∃ char letter, c = Str.ofChar char ∧ shortEscapes.lookup char = some letter ∧
      escapeCode c = ['\\', letter]) ∨
    (∃ char, c = Str.ofChar char ∧ char ≠ '"' ∧ char ≠ '\\' ∧ escapeCode c = [char] ∧
      escapeChar char = [char]) ∨
    escapeCode c = (codeUnits c).flatMap unicodeEscape := by
  rcases Str.char?_cases c with ⟨hsurrogate, hnone⟩ | ⟨char, hchar, rfl⟩
  · right
    right
    have hsmall : c.val < 0x10000 := by
      simp only [Str.isSurrogate, Str.isHigh, Str.isLow, Bool.or_eq_true, Bool.and_eq_true,
        decide_eq_true_eq] at hsurrogate
      omega
    rw [escapeCode, hnone, codeUnits, if_pos hsmall, List.flatMap_singleton]
  · rw [escapeCode, hchar]
    rcases escapeChar_cases char with ⟨letter, hletter, hw⟩ | ⟨hquote, hslash, hw⟩ | hw
    · exact Or.inl ⟨char, letter, rfl, hletter, hw⟩
    · exact Or.inr (Or.inl ⟨char, rfl, hquote, hslash, hw, hw⟩)
    · exact Or.inr (Or.inr hw)

/-- What follows a code point does not join it to a character. -/
def Apart (c : Fin 0x110000) (x : Text) : Prop :=
  Str.isHigh c = true → readLow c.val x = some (c, x)

theorem ofNat_val (c : Fin 0x110000) : Fin.ofNat 0x110000 c.val = c :=
  Fin.ext (Nat.mod_eq_of_lt c.isLt)

theorem readUnicode_codeUnits (hx : Apart c x) :
    ∃ l, (codeUnits c).flatMap unicodeEscape ++ x = '\\' :: 'u' :: l ∧
      readUnicode l = some (c, x) := by
  have hlt := c.isLt
  unfold codeUnits
  split
  · next hsmall =>
      refine ⟨Text.fixed 16 4 c.val ++ x, by simp [unicodeEscape], ?_⟩
      rw [readUnicode, readHex_unit (by omega)]
      simp only
      by_cases hhigh : 0xd800 ≤ c.val ∧ c.val ≤ 0xdbff
      · rw [if_pos hhigh]
        apply hx
        simp only [Str.isHigh, Bool.and_eq_true, decide_eq_true_eq]
        omega
      · rw [if_neg hhigh, ofNat_val]
  · next hbig =>
      refine ⟨Text.fixed 16 4 (0xd800 + (c.val - 0x10000) / 0x400) ++
        ('\\' :: 'u' :: (Text.fixed 16 4 (0xdc00 + (c.val - 0x10000) % 0x400) ++ x)),
        by simp [unicodeEscape], ?_⟩
      rw [readUnicode, readHex_unit (by omega)]
      simp only
      rw [if_pos (by omega), readLow, readHex_unit (by omega)]
      simp only
      rw [if_pos (by omega)]
      have hcode : 0x10000 + (0xd800 + (c.val - 0x10000) / 0x400 - 0xd800) * 0x400 +
          (0xdc00 + (c.val - 0x10000) % 0x400 - 0xdc00) = c.val := by omega
      rw [hcode, ofNat_val]

/-- A surrogate is apart from the end of its string. -/
theorem apart_quote (c : Fin 0x110000) (x : Text) : Apart c ('"' :: x) := by
  intro _
  rw [readLow, ofNat_val]
  simp

/-- A code point is apart from the next one unless the two are a surrogate pair. -/
theorem apart_escapeCode {d : Fin 0x110000} (h : (Str.isHigh c && Str.isLow d) = false) :
    Apart c (escapeCode d ++ x) := by
  intro hhigh
  rw [hhigh, Bool.true_and] at h
  rcases escapeCode_cases d with ⟨char, letter, -, hletter, hw⟩ | ⟨char, -, -, hslash, hw, -⟩ | hw
  · have hu := shortEscape_ne_u hletter
    rw [hw, List.cons_append, List.singleton_append, readLow, ofNat_val]
    intro rest heq
    exact hu (List.cons.inj (List.cons.inj heq).2).1
  · rw [hw, List.singleton_append, readLow, ofNat_val]
    intro rest heq
    exact hslash (List.cons.inj heq).1
  · -- the first unit of `d` is no low surrogate
    obtain ⟨unit, l, hl, hunit, hlow⟩ : ∃ unit l, (codeUnits d).flatMap unicodeEscape ++ x =
        '\\' :: 'u' :: (Text.fixed 16 4 unit ++ l) ∧ unit < 16 ^ 4 ∧
          ¬(0xdc00 ≤ unit ∧ unit ≤ 0xdfff) := by
      have hlt := d.isLt
      simp only [Str.isLow, Bool.and_eq_false_iff, decide_eq_false_iff_not] at h
      unfold codeUnits
      split
      · exact ⟨d.val, x, by simp [unicodeEscape], by omega, by omega⟩
      · exact ⟨0xd800 + (d.val - 0x10000) / 0x400,
          unicodeEscape (0xdc00 + (d.val - 0x10000) % 0x400) ++ x, by simp [unicodeEscape],
          by omega, by omega⟩
    rw [hw, hl, readLow, readHex_unit hunit]
    simp only
    rw [if_neg hlow, ofNat_val]

/-- Control characters are escaped. -/
theorem not_lt_of_escapeChar {char : Char} (h : escapeChar char = [char]) : ¬char < ' ' := by
  intro hlt
  have hall : ∀ n < 32, escapeChar (Char.ofNat n) ≠ [Char.ofNat n] := by decide
  have hc := hall char.toNat hlt
  rw [Char.ofNat_toNat] at hc
  exact hc h

/-- One code point of a string. -/
theorem readStr_escapeCode {fuel : ℕ} {s : Str} {y : Text} (hx : Apart c x)
    (h : readStr fuel x = some (s, y)) :
    readStr (fuel + 1) (escapeCode c ++ x) = some (c :: s, y) := by
  have hescape : ∀ l, readEscape l = some (c, x) →
      readStr (fuel + 1) ('\\' :: l) = some (c :: s, y) := by
    intro l hl
    rw [readStr, if_neg (by decide), if_pos rfl, hl]
    simp only [h, Option.map_some]
  rcases escapeCode_cases c with ⟨char, letter, rfl, hletter, hw⟩ |
    ⟨char, rfl, hquote, hslash, hw, hprinted⟩ | hw
  · have hall : ∀ p ∈ shortEscapes, p.2 ≠ 'u' ∧ unescapes.lookup p.2 = some p.1 := by decide
    obtain ⟨hu, hlookup⟩ := hall _ (mem_shortEscapes hletter)
    have hletter : readEscape (letter :: x) = some (Str.ofChar char, x) := by
      rw [readEscape, if_neg hu, hlookup]
      rfl
    rw [hw]
    exact hescape _ hletter
  · rw [hw, List.singleton_append, readStr, if_neg hquote, if_neg hslash]
    rw [if_neg (not_lt_of_escapeChar hprinted), h]
    rfl
  · obtain ⟨l, hl, hread⟩ := readUnicode_codeUnits hx
    rw [hw, hl]
    apply hescape
    rw [readEscape, if_pos rfl]
    exact hread

/-- A string without surrogate pairs is read back. -/
theorem readStr_quote {fuel : ℕ} {s : Str} (hs : s.isJoined = true) (h : s.length < fuel) :
    readStr fuel (s.flatMap escapeCode ++ '"' :: x) = some (s, x) := by
  induction s generalizing fuel with
  | nil =>
      obtain ⟨fuel, rfl⟩ := Nat.exists_eq_succ_of_ne_zero (Nat.ne_zero_of_lt h)
      rw [List.flatMap_nil, List.nil_append, readStr, if_pos rfl]
  | cons c s ih =>
      obtain ⟨fuel, rfl⟩ := Nat.exists_eq_succ_of_ne_zero (Nat.ne_zero_of_lt h)
      have hread := ih (Str.isJoined_tail hs) (Nat.lt_of_succ_lt_succ h)
      rw [List.flatMap_cons, List.append_assoc]
      refine readStr_escapeCode ?_ hread
      cases s with
      | nil => exact apart_quote c x
      | cons d s =>
          rw [Str.isJoined, Bool.and_eq_true, Bool.not_eq_true'] at hs
          rw [List.flatMap_cons, List.append_assoc]
          exact apart_escapeCode hs.1

theorem length_escapeCode (c : Fin 0x110000) : 1 ≤ (escapeCode c).length := by
  rcases escapeCode_cases c with ⟨char, letter, -, -, hw⟩ | ⟨char, -, -, -, hw, -⟩ | hw
  · simp [hw]
  · simp [hw]
  · rw [hw, codeUnits]
    split <;> simp [unicodeEscape]

/-- A string is no longer than what it is written as. -/
theorem length_lt_quote (s : Str) : s.length + 1 < (quote s).length := by
  have hle : s.length ≤ (s.flatMap escapeCode).length := by
    induction s with
    | nil => exact Nat.le_refl _
    | cons c s ih =>
        have hc := length_escapeCode c
        rw [List.flatMap_cons, List.length_append, List.length_cons]
        omega
  simp only [quote, List.length_cons, List.length_append, List.length_nil]
  omega

end Strings

/-! ## Numbers -/

/-- What may stand behind a value in a compact quote text. -/
def Delimited (x : Text) : Prop := ∀ c ∈ x.head?, c = ',' ∨ c = ']' ∨ c = '}'

theorem delimited_nil : Delimited [] := by simp [Delimited]

theorem delimited_cons {c : Char} {x : Text} (h : c = ',' ∨ c = ']' ∨ c = '}') :
    Delimited (c :: x) := by
  simpa [Delimited] using h

theorem Delimited.takeWhile_append {x digits : Text} (hx : Delimited x)
    (h : ∀ c ∈ digits, c.isDigit = true) : (digits ++ x).takeWhile Char.isDigit = digits := by
  rw [List.takeWhile_append_of_pos h]
  cases x with
  | nil => simp
  | cons c x =>
      rcases hx c rfl with rfl | rfl | rfl <;> simp

theorem Delimited.parts {x : Text} (hx : Delimited x) :
    fractionPart x = [] ∧ exponentPart x = [] := by
  cases x with
  | nil => exact ⟨rfl, rfl⟩
  | cons c x =>
      rcases hx c rfl with rfl | rfl | rfl
      · exact ⟨rfl, rfl⟩
      · exact ⟨rfl, rfl⟩
      · exact ⟨rfl, rfl⟩

/-- A positive number has no leading zero. -/
theorem decimal_head {n : ℕ} (hn : 0 < n) : ∃ c digits, Text.decimal n = c :: digits ∧ c ≠ '0' := by
  induction n using Nat.strong_induction_on with
  | h n ih =>
      by_cases hlt : n < 10
      · refine ⟨Nat.digitChar n, [], Nat.toDigits_of_lt_base hlt, ?_⟩
        have hall : ∀ n < 10, 0 < n → Nat.digitChar n ≠ '0' := by decide
        exact hall n hlt hn
      · obtain ⟨c, digits, hdigits, hc⟩ := ih (n / 10) (by omega) (by omega)
        refine ⟨c, digits ++ [Nat.digitChar (n % 10)], ?_, hc⟩
        rw [Text.decimal, Nat.toDigits_of_base_le (by decide) (by omega)]
        rw [Text.decimal] at hdigits
        rw [hdigits]
        rfl

theorem wholePart_decimal {n : ℕ} {x : Text} (hx : Delimited x) :
    wholePart (Text.decimal n ++ x) = Text.decimal n := by
  by_cases hn : n = 0
  · subst hn
    rfl
  · obtain ⟨c, digits, hdigits, hc⟩ := decimal_head (Nat.pos_of_ne_zero hn)
    have htake : (Text.decimal n ++ x).takeWhile Char.isDigit = Text.decimal n :=
      hx.takeWhile_append fun c hc => Text.isDigit_decimal hc
    rw [hdigits, List.cons_append] at htake ⊢
    rw [wholePart, if_neg hc]
    exact htake

theorem readNumber_int (parseFloat : Text → JsonOf Str) {n : ℤ} (hn : isConvertible n = true)
    {x : Text} (hx : Delimited x) :
    readNumber parseFloat (writeInt n ++ x) = some (int n, x) := by
  have hdrop : ∀ l : Text, (l ++ x).drop l.length = x := fun l => List.drop_left
  have hsign : signPart (writeInt n ++ x) = sign (n < 0) := by
    by_cases hneg : n < 0
    · simp [writeInt, sign, hneg, signPart]
    · obtain ⟨c, digits, hdigits⟩ := List.exists_cons_of_ne_nil (Text.decimal_ne_nil n.natAbs)
      have hdigit : c.isDigit = true := Text.isDigit_decimal (n := n.natAbs) (by simp [hdigits])
      have hc : c ≠ '-' := by
        rintro rfl
        exact absurd hdigit (by decide)
      simp [writeInt, sign, hneg, signPart, hdigits, hc]
  have hwhole : (writeInt n ++ x).drop (sign (n < 0)).length = Text.decimal n.natAbs ++ x := by
    rw [writeInt, List.append_assoc, List.drop_left]
  have hrest : (writeInt n ++ x).drop (sign (n < 0) ++ Text.decimal n.natAbs).length = x :=
    hdrop (writeInt n)
  simp only [readNumber, hsign, hwhole, wholePart_decimal hx, hrest, hx.parts.1,
    List.length_nil, List.drop_zero, hx.parts.2]
  have hlength : (Text.decimal n.natAbs).length ≤ 4300 := of_decide_eq_true hn
  rw [if_neg (Text.decimal_ne_nil _), if_pos ⟨trivial, trivial⟩, if_pos hlength,
    Text.ofDigitChars_decimal]
  by_cases hneg : n < 0
  · have habs : -(n.natAbs : ℤ) = n := by omega
    rw [if_neg (by simp [sign, hneg]), habs]
  · have habs : (n.natAbs : ℤ) = n := by omega
    rw [if_pos (by simp [sign, hneg]), habs]

/-! ## Values -/

/-- The first character of a value is the first of its kind, compact quote or not. -/
theorem shape_compact (j : JsonOf Str) (x : Text) :
    ∃ c l, compact quote j ++ x = c :: l ∧ Shape.ofChar c = some j.shape := by
  cases j with
  | null => exact ⟨_, _, rfl, by decide⟩
  | bool b => cases b <;> exact ⟨_, _, rfl, by decide⟩
  | int n =>
      rw [compact, writeInt, List.append_assoc]
      exact shape_signed _ _ _
  | float f =>
      rw [compact, writeFloat_append]
      exact shape_signed _ _ _
  | str s => exact ⟨_, _, rfl, rfl⟩
  | arr items => cases items <;> exact ⟨_, _, rfl, rfl⟩
  | obj fields => rcases fields with _ | ⟨⟨key, value⟩, fields⟩ <;> exact ⟨_, _, rfl, rfl⟩

/-- A character that begins a value is neither space nor punctuation. -/
theorem not_isSpace_of_shape {c : Char} {s : Shape} (h : Shape.ofChar c = some s) :
    isSpace c = false := by
  cases hspace : isSpace c with
  | false => rfl
  | true =>
      simp only [isSpace, Bool.or_eq_true, beq_iff_eq] at hspace
      rcases hspace with ((rfl | rfl) | rfl) | rfl <;> cases h

theorem skip_cons {c : Char} (hc : isSpace c = false) (x : Text) : skip (c :: x) = c :: x := by
  rw [skip, List.dropWhile_cons_of_neg (by simp [hc])]

theorem skip_compact (j : JsonOf Str) (x : Text) :
    skip (compact quote j ++ x) = compact quote j ++ x := by
  obtain ⟨c, l, hl, hshape⟩ := shape_compact j x
  rw [hl, skip_cons (not_isSpace_of_shape hshape)]

theorem expect_self {c : Char} (hc : isSpace c = false) (x : Text) :
    expect c (c :: x) = some x := by
  rw [expect, skip_cons hc]
  exact if_pos rfl

theorem expect_other {c token : Char} (hc : isSpace c = false) (hne : c ≠ token) (x : Text) :
    expect token (c :: x) = none := by
  rw [expect, skip_cons hc]
  exact if_neg hne

theorem expect_compact {token : Char} (htoken : Shape.ofChar token = none) (j : JsonOf Str)
    (x : Text) :
    expect token (compact quote j ++ x) = none := by
  obtain ⟨c, l, hl, hshape⟩ := shape_compact j x
  rw [hl]
  apply expect_other (not_isSpace_of_shape hshape)
  rintro rfl
  rw [htoken] at hshape
  cases hshape

theorem setField_of_notMem {field : Str × JsonOf Str} {fields : List (Str × JsonOf Str)}
    (h : field.1 ∉ fields.map (·.1)) : setField field fields = fields ++ [field] := by
  induction fields with
  | nil => rfl
  | cons other fields ih =>
      rw [List.map_cons, List.mem_cons, not_or] at h
      rw [setField, if_neg (Ne.symm h.1), ih h.2]
      rfl

/-- Fields with distinct keys are kept as they come. -/
theorem dict_of_nodup {pairs : List (Str × JsonOf Str)} (h : (pairs.map (·.1)).Nodup) :
    dict pairs = pairs := by
  have hfold : ∀ fields : List (Str × JsonOf Str), ((fields ++ pairs).map (·.1)).Nodup →
      pairs.foldl (fun fields field => setField field fields) fields = fields ++ pairs := by
    clear h
    induction pairs with
    | nil => exact fun fields _ => (List.append_nil fields).symm
    | cons field pairs ih =>
        intro fields hnodup
        have hnew : field.1 ∉ fields.map (·.1) := by
          rw [List.map_append, List.map_cons] at hnodup
          intro hmem
          exact (List.nodup_append.mp hnodup).2.2 _ hmem _ List.mem_cons_self rfl
        rw [List.foldl_cons, setField_of_notMem hnew, ih]
        · rw [List.append_assoc, List.singleton_append]
        · rwa [List.append_assoc, List.singleton_append]
  exact hfold [] h

/-- A number is none of the words. -/
theorem readWord_int (parseFloat : Text → JsonOf Str) (n : ℤ) (x : Text) :
    readWord parseFloat (writeInt n ++ x) = none := by
  obtain ⟨c, digits, hdigits⟩ := List.exists_cons_of_ne_nil (Text.decimal_ne_nil n.natAbs)
  have hdigit : c.isDigit = true := Text.isDigit_decimal (n := n.natAbs) (by simp [hdigits])
  have hne : ∀ d : Char, d.isDigit = false → d ≠ c := by
    rintro d hd rfl
    rw [hdigit] at hd
    cases hd
  by_cases hneg : n < 0
  · have hwrite : writeInt n ++ x = '-' :: c :: (digits ++ x) := by
      simp [writeInt, sign, hneg, hdigits]
    simp [readWord, hwrite, hne 'I' rfl]
  · have hwrite : writeInt n ++ x = c :: (digits ++ x) := by
      simp [writeInt, sign, hneg, hdigits]
    simp [readWord, hwrite, hne 'n' rfl, hne 't' rfl, hne 'f' rfl, hne 'N' rfl, hne 'I' rfl,
      hne '-' rfl]

variable (parseFloat : Text → JsonOf Str)

theorem readValue_int {fuel : ℕ} {n : ℤ} (hn : isConvertible n = true) {x : Text}
    (hx : Delimited x) :
    readValue parseFloat (fuel + 1) (writeInt n ++ x) = some (int n, x) := by
  have hword := readWord_int parseFloat n x
  have hnumber := readNumber_int parseFloat hn hx
  obtain ⟨c, l, hl, hshape⟩ := shape_compact (int n) x
  have hne : ∀ d : Char, Shape.ofChar d ≠ some .number → c ≠ d := by
    rintro d hd rfl
    exact hd hshape
  change writeInt n ++ x = c :: l at hl
  rw [hl] at hword hnumber ⊢
  rw [readValue, if_neg (hne _ (by decide)), if_neg (hne _ (by decide)),
    if_neg (hne _ (by decide)), hword]
  exact hnumber

theorem quote_append (s : Str) (x : Text) :
    quote s ++ x = '"' :: (s.flatMap escapeCode ++ '"' :: x) := by
  simp [quote]

theorem length_compactItems (items : List (JsonOf Str)) :
    1 ≤ (compactItems quote items).length := by
  cases items <;> simp [compactItems]

theorem length_compactFields (fields : List (Str × JsonOf Str)) :
    1 ≤ (compactFields quote fields).length := by
  rcases fields with _ | ⟨⟨key, value⟩, fields⟩ <;> simp [compactFields]

theorem delimited_compactItems (items : List (JsonOf Str)) (x : Text) :
    Delimited (compactItems quote items ++ x) := by
  cases items <;> exact delimited_cons (by decide)

theorem delimited_compactFields (fields : List (Str × JsonOf Str)) (x : Text) :
    Delimited (compactFields quote fields ++ x) := by
  rcases fields with _ | ⟨⟨key, value⟩, fields⟩ <;> exact delimited_cons (by decide)

/-- With this fuel, every value, list and object whose compact text is no longer is read
back from it. -/
structure Reads (parseFloat : Text → JsonOf Str) (fuel : ℕ) : Prop where
  value : ∀ (j : JsonOf Str) (x : Text), j.isPlain = true →
    j.allParts Str.isJoined isConvertible = true → (compact quote j).length ≤ fuel →
    Delimited x → readValue parseFloat fuel (compact quote j ++ x) = some (j, x)
  items : ∀ (item : JsonOf Str) (items : List (JsonOf Str)) (x : Text),
    plainItems (item :: items) = true →
    allItems Str.isJoined isConvertible (item :: items) = true →
    (compact quote item ++ compactItems quote items).length ≤ fuel →
    readItems parseFloat fuel (compact quote item ++ (compactItems quote items ++ x)) =
      some (item :: items, x)
  fields : ∀ (key : Str) (value : JsonOf Str) (fields : List (Str × JsonOf Str)) (x : Text),
    plainFields ((key, value) :: fields) = true →
    allFields Str.isJoined isConvertible ((key, value) :: fields) = true →
    (quote key ++ ':' :: (compact quote value ++ compactFields quote fields)).length ≤ fuel →
    readFields parseFloat fuel
        (quote key ++ ':' :: (compact quote value ++ (compactFields quote fields ++ x))) =
      some ((key, value) :: fields, x)

theorem compact_ne_nil (j : JsonOf Str) : compact quote j ≠ [] := by
  obtain ⟨c, l, hl, -⟩ := shape_compact j []
  rw [List.append_nil] at hl
  rw [hl]
  exact List.cons_ne_nil _ _

section Reading

variable {parseFloat} {fuel : ℕ} (h : Reads parseFloat fuel)
include h

theorem Reads.value_succ (j : JsonOf Str) (x : Text) (hj : j.isPlain = true)
    (hparts : j.allParts Str.isJoined isConvertible = true)
    (hfuel : (compact quote j).length ≤ fuel + 1) (hx : Delimited x) :
    readValue parseFloat (fuel + 1) (compact quote j ++ x) = some (j, x) := by
  match j with
  | null => rfl
  | bool true => rfl
  | bool false => rfl
  | int n => exact readValue_int parseFloat hparts hx
  | float y => cases hj
  | str s =>
      have hlength := length_lt_quote s
      change (quote s).length ≤ fuel + 1 at hfuel
      have hread : readStr fuel (s.flatMap escapeCode ++ '"' :: x) = some (s, x) :=
        readStr_quote hparts (by omega)
      change readValue parseFloat (fuel + 1) (quote s ++ x) = _
      rw [quote_append, readValue, if_pos rfl, hread]
      rfl
  | arr [] => rfl
  | arr (item :: items) =>
      rw [compact, List.length_cons] at hfuel
      have hitems := h.items item items x hj hparts (Nat.le_of_succ_le_succ hfuel)
      rw [compact, List.cons_append, List.append_assoc, readValue, if_neg (by decide), if_pos rfl,
        expect_compact (by decide)]
      simp only [skip_compact, hitems, Option.map_some]
  | obj [] => rfl
  | obj ((key, value) :: fields) =>
      rw [isPlain_obj] at hj
      rw [compact, List.length_cons] at hfuel
      have hfields := h.fields key value fields x hj.2 hparts (Nat.le_of_succ_le_succ hfuel)
      rw [compact, List.cons_append, List.append_assoc, List.cons_append, List.append_assoc,
        readValue, if_neg (by decide), if_neg (by decide), if_pos rfl]
      rw [quote_append] at hfields ⊢
      rw [expect_other rfl (by decide), skip_cons rfl]
      simp only [hfields, Option.map_some, dict_of_nodup hj.1]

theorem Reads.items_succ (item : JsonOf Str) (items : List (JsonOf Str)) (x : Text)
    (hitems : plainItems (item :: items) = true)
    (hparts : allItems Str.isJoined isConvertible (item :: items) = true)
    (hfuel : (compact quote item ++ compactItems quote items).length ≤ fuel + 1) :
    readItems parseFloat (fuel + 1) (compact quote item ++ (compactItems quote items ++ x)) =
      some (item :: items, x) := by
  have hpos := length_compactItems items
  rw [plainItems, Bool.and_eq_true] at hitems
  rw [allItems, Bool.and_eq_true] at hparts
  rw [List.length_append] at hfuel
  rw [readItems, h.value item _ hitems.1 hparts.1 (by omega) (delimited_compactItems items x)]
  cases items with
  | nil => rfl
  | cons item' items =>
      have hlength : (compact quote item' ++ compactItems quote items).length ≤ fuel := by
        have hitem := List.length_pos_iff.mpr (compact_ne_nil item)
        rw [compactItems, List.length_cons] at hfuel
        omega
      simp only [compactItems, List.cons_append, List.append_assoc,
        expect_self (show isSpace ',' = false from rfl), skip_compact,
        h.items item' items x hitems.2 hparts.2 hlength, Option.map_some]

theorem Reads.fields_succ (key : Str) (value : JsonOf Str) (fields : List (Str × JsonOf Str))
    (x : Text) (hfields : plainFields ((key, value) :: fields) = true)
    (hparts : allFields Str.isJoined isConvertible ((key, value) :: fields) = true)
    (hfuel : (quote key ++ ':' :: (compact quote value ++ compactFields quote fields)).length ≤
      fuel + 1) :
    readFields parseFloat (fuel + 1)
        (quote key ++ ':' :: (compact quote value ++ (compactFields quote fields ++ x))) =
      some ((key, value) :: fields, x) := by
  have hpos := length_compactFields fields
  have hkey := length_lt_quote key
  rw [plainFields, Bool.and_eq_true] at hfields
  rw [allFields, Bool.and_eq_true, Bool.and_eq_true] at hparts
  rw [List.length_append, List.length_cons, List.length_append] at hfuel
  have hvalue := h.value value _ hfields.1 hparts.1.2 (by omega) (delimited_compactFields fields x)
  rw [quote_append, readFields, if_pos rfl, readStr_quote hparts.1.1 (by omega)]
  simp only [expect_self (show isSpace ':' = false from rfl), skip_compact, hvalue]
  match fields with
  | [] => rfl
  | (key', value') :: fields =>
      have hlength : (quote key' ++ ':' :: (compact quote value' ++
          compactFields quote fields)).length ≤ fuel := by
        rw [compactFields, List.length_cons] at hfuel
        omega
      have hrest := h.fields key' value' fields x hfields.2 hparts.2 hlength
      rw [quote_append] at hrest
      simp only [compactFields, List.cons_append, List.append_assoc, quote_append,
        expect_self (show isSpace ',' = false from rfl),
        skip_cons (show isSpace '"' = false from rfl), hrest, Option.map_some]

end Reading

theorem reads (fuel : ℕ) : Reads parseFloat fuel := by
  induction fuel with
  | zero =>
      constructor
      · intro j x _ _ hfuel
        exact absurd (List.length_eq_zero_iff.mp (Nat.le_zero.mp hfuel)) (compact_ne_nil j)
      · intro item items x _ _ hfuel
        rw [List.length_append] at hfuel
        have hpos := length_compactItems items
        omega
      · intro key value fields x _ _ hfuel
        rw [List.length_append, List.length_cons] at hfuel
        omega
  | succ fuel ih =>
      constructor
      · exact ih.value_succ
      · exact ih.items_succ
      · exact ih.fields_succ

/-- `json.loads` gives back what `json.dumps` wrote. -/
theorem scan_compact {j : JsonOf Str} (hj : j.isPlain = true)
    (hparts : j.allParts Str.isJoined isConvertible = true) :
    scan parseFloat (compact quote j) = some j := by
  have hread := (reads parseFloat _).value j [] hj hparts (Nat.le_succ _) delimited_nil
  have hskip := skip_compact j []
  rw [List.append_nil] at hread hskip
  rw [scan, hskip, hread]
  rfl

/-! ## Sorted values -/

section Sorted

variable {σ : Type} [LinearOrder σ]

theorem plainFields_insertField (field : σ × JsonOf σ) (l : List (σ × JsonOf σ)) :
    plainFields (insertField field l) = (field.2.isPlain && plainFields l) := by
  induction l with
  | nil => rfl
  | cons head l ih =>
      unfold insertField at ih ⊢
      rw [List.orderedInsert_cons]
      split
      · rfl
      · rw [plainFields, ih, plainFields]
        exact Bool.and_left_comm _ _ _

mutual

theorem isPlain_sortKeys (j : JsonOf σ) (hj : j.isPlain = true) : (sortKeys j).isPlain = true := by
  match j with
  | null => rfl
  | bool _ => rfl
  | int _ => rfl
  | float _ => cases hj
  | str _ => rfl
  | arr items => exact plainItems_sortItems items hj
  | obj fields =>
      rw [isPlain_obj] at hj
      have hkeys := (sortFields_perm fields).map (·.1)
      rw [map_sortedField_keys] at hkeys
      rw [sortKeys, isPlain_obj]
      exact ⟨hkeys.nodup_iff.mpr hj.1, plainFields_sortFields fields hj.2⟩

theorem plainItems_sortItems (items : List (JsonOf σ)) (hitems : plainItems items = true) :
    plainItems (sortItems items) = true := by
  match items with
  | [] => rfl
  | item :: items =>
      rw [plainItems, Bool.and_eq_true] at hitems
      rw [sortItems, plainItems, isPlain_sortKeys item hitems.1,
        plainItems_sortItems items hitems.2]
      rfl

theorem plainFields_sortFields (fields : List (σ × JsonOf σ))
    (hfields : plainFields fields = true) :
    plainFields (sortFields fields) = true := by
  match fields with
  | [] => rfl
  | (key, value) :: fields =>
      rw [plainFields, Bool.and_eq_true] at hfields
      rw [sortFields, plainFields_insertField, isPlain_sortKeys value hfields.1,
        plainFields_sortFields fields hfields.2]
      rfl

end

section Parts

variable (okStr : σ → Bool) (okInt : ℤ → Bool)

theorem allFields_insertField (field : σ × JsonOf σ) (l : List (σ × JsonOf σ)) :
    allFields okStr okInt (insertField field l) =
      (okStr field.1 && field.2.allParts okStr okInt && allFields okStr okInt l) := by
  induction l with
  | nil => rfl
  | cons head l ih =>
      unfold insertField at ih ⊢
      rw [List.orderedInsert_cons]
      split
      · rfl
      · rw [allFields, ih, allFields]
        exact Bool.and_left_comm _ _ _

mutual

theorem allParts_sortKeys : ∀ j : JsonOf σ,
    (sortKeys j).allParts okStr okInt = j.allParts okStr okInt
  | null => rfl
  | bool _ => rfl
  | int _ => rfl
  | float _ => rfl
  | str _ => rfl
  | arr items => allItems_sortItems items
  | obj fields => allFields_sortFields fields

theorem allItems_sortItems : ∀ l : List (JsonOf σ),
    allItems okStr okInt (sortItems l) = allItems okStr okInt l
  | [] => rfl
  | item :: items => by
      rw [sortItems, allItems, allItems, allParts_sortKeys item, allItems_sortItems items]

theorem allFields_sortFields : ∀ l : List (σ × JsonOf σ),
    allFields okStr okInt (sortFields l) = allFields okStr okInt l
  | [] => rfl
  | (key, value) :: fields => by
      rw [sortFields, allFields_insertField, allFields, allParts_sortKeys value,
        allFields_sortFields fields]

end

end Parts

end Sorted

end Support.JsonOf
