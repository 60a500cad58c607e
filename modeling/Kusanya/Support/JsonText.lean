import Kusanya.Support.Json

/-!
# The JSON text determines the value

`write` puts enough between the parts of a value to tell where each one ends, so two
values with the same text are the same; `dumps` forgets only the order of fields.
-/

namespace Support

attribute [ext] FloatLiteral

namespace JsonOf

/-! ## Numbers -/

/-- A text that cannot continue a number. -/
def Closes (x : Text) : Prop :=
  Text.StartsOff (fun c => c.isDigit || c == '.' || c == 'e') x

theorem closes_nil : Closes [] := Text.startsOff_nil _

theorem Closes.startsOff {x : Text} (h : Closes x) : Text.StartsOff Char.isDigit x := by
  intro c hc
  have hoff := h c hc
  simp only [Bool.or_eq_false_iff] at hoff
  exact hoff.1.1

theorem Closes.ne_cons {x y : Text} (h : Closes x) {c : Char} (hc : c = '.' ∨ c = 'e') :
    x ≠ c :: y := by
  rintro rfl
  have hoff := Text.startsOff_cons.mp h
  rcases hc with rfl | rfl <;> simp at hoff

/-- A sign and a decimal numeral in front of something that is not a digit. -/
theorem signed_cancel {p q : Bool} {m n : ℕ} {x y : Text} (hx : Text.StartsOff Char.isDigit x)
    (hy : Text.StartsOff Char.isDigit y)
    (h : sign p ++ (Text.decimal m ++ x) = sign q ++ (Text.decimal n ++ y)) :
    p = q ∧ m = n ∧ x = y := by
  have hne : ∀ (n : ℕ) (y z : Text), '-' :: z ≠ Text.decimal n ++ y := by
    intro n y z heq
    obtain ⟨c, l, hl⟩ := List.exists_cons_of_ne_nil (Text.decimal_ne_nil n)
    have hdigit : c.isDigit = true := Text.isDigit_decimal (n := n) (by simp [hl])
    rw [hl, List.cons_append, List.cons.injEq] at heq
    rw [← heq.1] at hdigit
    exact absurd hdigit (by decide)
  have hpq : p = q := by
    cases p <;> cases q
    · rfl
    · exact absurd h.symm (hne _ _ _)
    · exact absurd h (hne _ _ _)
    · rfl
  subst hpq
  obtain ⟨hrun, hrest⟩ := Text.append_run (fun c hc => Text.isDigit_decimal hc)
    (fun c hc => Text.isDigit_decimal hc) hx hy (List.append_cancel_left h)
  exact ⟨rfl, Text.decimal_injective hrun, hrest⟩

theorem writeInt_cancel {m n : ℤ} {x y : Text} (hx : Closes x) (hy : Closes y)
    (h : writeInt m ++ x = writeInt n ++ y) : m = n ∧ x = y := by
  rw [writeInt, writeInt, List.append_assoc, List.append_assoc] at h
  obtain ⟨hneg, habs, hrest⟩ := signed_cancel hx.startsOff hy.startsOff h
  have hiff : m < 0 ↔ n < 0 := by simpa using hneg
  exact ⟨by omega, hrest⟩

theorem writeExponent_cancel {e e' : ℤ} {x y : Text} (hx : Closes x) (hy : Closes y)
    (h : writeExponent e ++ x = writeExponent e' ++ y) : e = e' ∧ x = y := by
  have hdigits : ∀ n : ℕ, ∀ c ∈ (if n < 10 then ['0'] else []) ++ Text.decimal n,
      c.isDigit = true := by
    intro n c hc
    rcases List.mem_append.mp hc with hc | hc
    · split at hc
      · obtain rfl := List.mem_singleton.mp hc
        decide
      · cases hc
    · exact Text.isDigit_decimal hc
  have hread : ∀ n : ℕ,
      Nat.ofDigitChars 10 ((if n < 10 then ['0'] else []) ++ Text.decimal n) 0 = n := by
    intro n
    split
    · simpa [Nat.ofDigitChars_cons] using Text.ofDigitChars_decimal n
    · simpa using Text.ofDigitChars_decimal n
  simp only [writeExponent, List.cons_append, List.cons.injEq, true_and] at h
  obtain ⟨hsign, hrest⟩ := h
  obtain ⟨hrun, hxy⟩ := Text.append_run (hdigits _) (hdigits _) hx.startsOff hy.startsOff hrest
  have habs : e.natAbs = e'.natAbs := by
    rw [← hread e.natAbs, ← hread e'.natAbs, hrun]
  have hiff : e < 0 ↔ e' < 0 := by
    by_cases he : e < 0 <;> by_cases he' : e' < 0 <;> simp [he, he'] at hsign ⊢
  exact ⟨by omega, hxy⟩

theorem writeExponent?_cancel {e e' : Option ℤ} {x y : Text} (hx : Closes x) (hy : Closes y)
    (h : writeExponent? e ++ x = writeExponent? e' ++ y) : e = e' ∧ x = y := by
  cases e with
  | none =>
      cases e' with
      | none => exact ⟨rfl, h⟩
      | some e' => exact absurd h (hx.ne_cons (Or.inr rfl))
  | some e =>
      cases e' with
      | none => exact absurd h.symm (hy.ne_cons (Or.inr rfl))
      | some e' =>
          obtain ⟨rfl, hxy⟩ := writeExponent_cancel hx hy h
          exact ⟨rfl, hxy⟩

theorem startsOff_exponent {e : Option ℤ} {x : Text} (hx : Closes x) :
    Text.StartsOff Char.isDigit (writeExponent? e ++ x) := by
  cases e with
  | none => exact hx.startsOff
  | some e => exact Text.startsOff_cons.mpr (by decide)

theorem writeFraction_cancel {l l' : List ℕ} {e e' : Option ℤ} {x y : Text}
    (hl : ∀ d ∈ l, d < 10) (hl' : ∀ d ∈ l', d < 10) (hx : Closes x) (hy : Closes y)
    (h : writeFraction l ++ (writeExponent? e ++ x) = writeFraction l' ++
      (writeExponent? e' ++ y)) :
    l = l' ∧ e = e' ∧ x = y := by
  have hpoint : ∀ (e : Option ℤ) (x z : Text), Closes x → writeExponent? e ++ x ≠ '.' :: z := by
    intro e x z hx heq
    cases e with
    | none => exact hx.ne_cons (Or.inl rfl) heq
    | some e => exact absurd (List.cons.inj heq).1 (by decide)
  have hdigit : ∀ l : List ℕ, (∀ d ∈ l, d < 10) → ∀ c ∈ l.map Nat.digitChar,
      c.isDigit = true := by
    intro l hl c hc
    obtain ⟨d, hd, rfl⟩ := List.mem_map.mp hc
    exact Text.isDigit_digitChar (hl d hd)
  by_cases hnil : l = [] <;> by_cases hnil' : l' = []
  · subst hnil hnil'
    exact ⟨rfl, writeExponent?_cancel hx hy h⟩
  · rw [writeFraction, writeFraction, if_pos hnil, if_neg hnil'] at h
    exact absurd h (hpoint _ _ _ hx)
  · rw [writeFraction, writeFraction, if_neg hnil, if_pos hnil'] at h
    exact absurd h.symm (hpoint _ _ _ hy)
  · rw [writeFraction, writeFraction, if_neg hnil, if_neg hnil'] at h
    obtain ⟨hrun, hrest⟩ := Text.append_run (hdigit l hl) (hdigit l' hl')
      (startsOff_exponent hx) (startsOff_exponent hy) (List.cons.inj h).2
    exact ⟨Text.map_digitChar_injective hl hl' hrun, writeExponent?_cancel hx hy hrest⟩

theorem writeFloat_append (f : FloatLiteral) (x : Text) :
    writeFloat f ++ x = sign f.negative ++
      (Text.decimal f.whole ++ (writeFraction f.fraction ++ (writeExponent? f.exponent ++ x))) := by
  simp [writeFloat]

theorem startsOff_fraction {l : List ℕ} {e : Option ℤ} {x : Text} (hx : Closes x) :
    Text.StartsOff Char.isDigit (writeFraction l ++ (writeExponent? e ++ x)) := by
  unfold writeFraction
  split
  · exact startsOff_exponent hx
  · exact Text.startsOff_cons.mpr (by decide)

theorem writeFloat_cancel {f g : FloatLiteral} {x y : Text} (hx : Closes x) (hy : Closes y)
    (h : writeFloat f ++ x = writeFloat g ++ y) : f = g ∧ x = y := by
  rw [writeFloat_append, writeFloat_append] at h
  obtain ⟨hneg, hwhole, hrest⟩ := signed_cancel (startsOff_fraction hx) (startsOff_fraction hy) h
  obtain ⟨hfraction, hexponent, hxy⟩ :=
    writeFraction_cancel f.fraction_lt g.fraction_lt hx hy hrest
  exact ⟨FloatLiteral.ext hneg hwhole hfraction hexponent, hxy⟩

/-- No float is written like an integer: it has a point or an exponent. -/
theorem writeInt_ne_writeFloat {n : ℤ} {f : FloatLiteral} {x y : Text} (hx : Closes x)
    (hy : Closes y) : writeInt n ++ x ≠ writeFloat f ++ y := by
  intro h
  rw [writeInt, List.append_assoc, writeFloat_append] at h
  obtain ⟨-, -, hrest⟩ := signed_cancel hx.startsOff (startsOff_fraction hy) h
  by_cases hfraction : f.fraction = []
  · rw [writeFraction, if_pos hfraction] at hrest
    cases hexponent : f.exponent with
    | none => exact (f.positional hexponent).1 hfraction
    | some e =>
        rw [hexponent] at hrest
        exact hx.ne_cons (Or.inr rfl) hrest
  · rw [writeFraction, if_neg hfraction] at hrest
    exact hx.ne_cons (Or.inl rfl) hrest

/-! ## Strings -/

theorem mem_shortEscapes {c letter : Char} (h : shortEscapes.lookup c = some letter) :
    (c, letter) ∈ shortEscapes := by
  obtain ⟨before, behind, heq, -⟩ := List.lookup_eq_some_iff.mp h
  rw [heq]
  exact List.mem_append_right _ List.mem_cons_self

theorem unicodeEscape_cancel {u v : ℕ} {x y : Text} (hu : u < 16 ^ 4) (hv : v < 16 ^ 4)
    (h : unicodeEscape u ++ x = unicodeEscape v ++ y) : u = v ∧ x = y := by
  simp only [unicodeEscape, List.cons_append, List.cons.injEq, true_and] at h
  obtain ⟨hfixed, hxy⟩ := List.append_inj h (by simp)
  exact ⟨Text.fixed_injective (by decide) (by decide) hu hv hfixed, hxy⟩

/-- Only the first unit of a surrogate pair lies in the range of the high surrogates. -/
theorem utf16_cancel {c d : Char} {x y : Text}
    (h : (utf16 c).flatMap unicodeEscape ++ x = (utf16 d).flatMap unicodeEscape ++ y) :
    c = d ∧ x = y := by
  have hvalid : ∀ c : Char, c.toNat < 0xd800 ∨ 0xdfff < c.toNat ∧ c.toNat < 0x110000 := fun c =>
    c.valid
  have hc := hvalid c
  have hd := hvalid d
  unfold utf16 at h
  split at h <;> split at h <;>
    simp only [List.flatMap_cons, List.flatMap_nil, List.append_nil, List.append_assoc] at h
  · obtain ⟨hunit, hxy⟩ := unicodeEscape_cancel (by omega) (by omega) h
    exact ⟨Char.toNat_inj.mp hunit, hxy⟩
  · obtain ⟨hunit, -⟩ := unicodeEscape_cancel (by omega) (by omega) h
    omega
  · obtain ⟨hunit, -⟩ := unicodeEscape_cancel (by omega) (by omega) h
    omega
  · obtain ⟨hhigh, hrest⟩ := unicodeEscape_cancel (by omega) (by omega) h
    obtain ⟨hlow, hxy⟩ := unicodeEscape_cancel (by omega) (by omega) hrest
    exact ⟨Char.toNat_inj.mp (by omega), hxy⟩

/-- The three ways in which a character is written. -/
theorem escapeChar_cases (c : Char) :
    (∃ letter, shortEscapes.lookup c = some letter ∧ escapeChar c = ['\\', letter]) ∨
    (c ≠ '"' ∧ c ≠ '\\' ∧ escapeChar c = [c]) ∨
    escapeChar c = (utf16 c).flatMap unicodeEscape := by
  unfold escapeChar
  split
  · exact Or.inl ⟨_, ‹_›, rfl⟩
  · right
    split
    · refine Or.inl ⟨?_, ?_, rfl⟩
      · rintro rfl
        exact absurd ‹shortEscapes.lookup '"' = none› (by decide)
      · rintro rfl
        exact absurd ‹shortEscapes.lookup '\\' = none› (by decide)
    · exact Or.inr rfl

theorem utf16_escape_cons (c : Char) :
    ∃ l, (utf16 c).flatMap unicodeEscape = '\\' :: 'u' :: l := by
  unfold utf16
  split <;> exact ⟨_, rfl⟩

theorem shortEscape_ne_u {c letter : Char} (h : shortEscapes.lookup c = some letter) :
    letter ≠ 'u' := by
  have hall : ∀ p ∈ shortEscapes, p.2 ≠ 'u' := by decide
  exact hall _ (mem_shortEscapes h)

theorem escapeChar_cancel {c d : Char} {x y : Text} (h : escapeChar c ++ x = escapeChar d ++ y) :
    c = d ∧ x = y := by
  obtain ⟨lc, hlc⟩ := utf16_escape_cons c
  obtain ⟨ld, hld⟩ := utf16_escape_cons d
  rcases escapeChar_cases c with ⟨letter, hc, hwc⟩ | ⟨-, hc, hwc⟩ | hwc <;>
    rcases escapeChar_cases d with ⟨letter', hd, hwd⟩ | ⟨-, hd, hwd⟩ | hwd <;>
    rw [hwc, hwd] at h
  · simp only [List.cons_append, List.nil_append, List.cons.injEq, true_and] at h
    obtain ⟨rfl, hxy⟩ := h
    have hall : ∀ p ∈ shortEscapes, ∀ q ∈ shortEscapes, p.2 = q.2 → p.1 = q.1 := by decide
    exact ⟨hall _ (mem_shortEscapes hc) _ (mem_shortEscapes hd) rfl, hxy⟩
  · exact absurd (List.cons.inj h).1.symm hd
  · rw [hld] at h
    exact absurd (List.cons.inj (List.cons.inj h).2).1 (shortEscape_ne_u hc)
  · exact absurd (List.cons.inj h).1 hc
  · obtain ⟨rfl, hxy⟩ := List.cons.inj h
    exact ⟨rfl, hxy⟩
  · rw [hld] at h
    exact absurd (List.cons.inj h).1 hc
  · rw [hlc] at h
    exact absurd (List.cons.inj (List.cons.inj h).2).1.symm (shortEscape_ne_u hd)
  · rw [hlc] at h
    exact absurd (List.cons.inj h).1.symm hd
  · exact utf16_cancel h

theorem escapeChar_ne_quote (c : Char) (x y : Text) : escapeChar c ++ x ≠ '"' :: y := by
  intro h
  obtain ⟨l, hl⟩ := utf16_escape_cons c
  rcases escapeChar_cases c with ⟨letter, -, hw⟩ | ⟨hc, -, hw⟩ | hw <;> rw [hw] at h
  · exact absurd (List.cons.inj h).1 (by decide)
  · exact hc (List.cons.inj h).1
  · rw [hl] at h
    exact absurd (List.cons.inj h).1 (by decide)

theorem writeStr_cancel {s t : Text} {x y : Text} (h : writeStr s ++ x = writeStr t ++ y) :
    s = t ∧ x = y := by
  simp only [writeStr, List.cons_append, List.append_assoc, List.nil_append, List.cons.injEq,
    true_and] at h
  induction s generalizing t with
  | nil =>
      cases t with
      | nil => exact ⟨rfl, (List.cons.inj h).2⟩
      | cons d t =>
          rw [List.flatMap_cons, List.append_assoc] at h
          exact absurd h.symm (escapeChar_ne_quote _ _ _)
  | cons c s ih =>
      cases t with
      | nil =>
          rw [List.flatMap_cons, List.append_assoc] at h
          exact absurd h (escapeChar_ne_quote _ _ _)
      | cons d t =>
          rw [List.flatMap_cons, List.flatMap_cons, List.append_assoc, List.append_assoc] at h
          obtain ⟨rfl, hrest⟩ := escapeChar_cancel h
          obtain ⟨rfl, hxy⟩ := ih hrest
          exact ⟨rfl, hxy⟩

/-! ## Values -/

/-- What the first character of a value's text tells. -/
inductive Shape where
  | null | true | false | number | str | arr | obj
  deriving DecidableEq

def shape {σ : Type} : JsonOf σ → Shape
  | null => .null
  | bool true => .true
  | bool false => .false
  | int _ => .number
  | float _ => .number
  | str _ => .str
  | arr _ => .arr
  | obj _ => .obj

def Shape.ofChar (c : Char) : Option Shape :=
  if c = 'n' then some .null
  else if c = 't' then some .true
  else if c = 'f' then some .false
  else if c = '"' then some .str
  else if c = '[' then some .arr
  else if c = '{' then some .obj
  else if c = '-' ∨ c.isDigit then some .number
  else none

theorem ofChar_digit {c : Char} (h : c.isDigit = true) : Shape.ofChar c = some .number := by
  have hne : ∀ d : Char, d.isDigit = false → c ≠ d := by
    rintro d hd rfl
    rw [h] at hd
    cases hd
  simp [Shape.ofChar, h, hne 'n' rfl, hne 't' rfl, hne 'f' rfl, hne '"' rfl, hne '[' rfl,
    hne '{' rfl]

theorem shape_signed (negative : Bool) (n : ℕ) (x : Text) :
    ∃ c l, sign negative ++ (Text.decimal n ++ x) = c :: l ∧ Shape.ofChar c = some .number := by
  cases negative with
  | true => exact ⟨'-', _, rfl, by decide⟩
  | false =>
      obtain ⟨c, l, hl⟩ := List.exists_cons_of_ne_nil (Text.decimal_ne_nil n)
      refine ⟨c, l ++ x, by simp [sign, hl], ?_⟩
      exact ofChar_digit (Text.isDigit_decimal (n := n) (by simp [hl]))

theorem shape_write (j : Json) (x : Text) :
    ∃ c l, write j ++ x = c :: l ∧ Shape.ofChar c = some j.shape := by
  cases j with
  | null => exact ⟨_, _, rfl, by decide⟩
  | bool b => cases b <;> exact ⟨_, _, rfl, by decide⟩
  | int n =>
      rw [write, writeInt, List.append_assoc]
      exact shape_signed _ _ _
  | float f =>
      rw [write, writeFloat_append]
      exact shape_signed _ _ _
  | str s => exact ⟨_, _, rfl, rfl⟩
  | arr items => cases items <;> exact ⟨_, _, rfl, rfl⟩
  | obj fields => rcases fields with _ | ⟨⟨key, value⟩, fields⟩ <;> exact ⟨_, _, rfl, rfl⟩

/-- Values with the same text begin with the same character. -/
theorem shape_eq {a b : Json} {x y : Text} (h : write a ++ x = write b ++ y) :
    a.shape = b.shape := by
  obtain ⟨c, l, hc, hshape⟩ := shape_write a x
  obtain ⟨c', l', hc', hshape'⟩ := shape_write b y
  rw [hc, hc'] at h
  rw [(List.cons.inj h).1, hshape'] at hshape
  exact (Option.some.inj hshape).symm

/-- No value begins with a character that closes one. -/
theorem write_ne_cons {j : Json} {x y : Text} {c : Char} (hc : Shape.ofChar c = none) :
    write j ++ x ≠ c :: y := by
  intro h
  obtain ⟨c', l, hl, hshape⟩ := shape_write j x
  rw [hl] at h
  rw [(List.cons.inj h).1, hc] at hshape
  cases hshape

theorem closes_writeItems (items : List Json) (x : Text) : Closes (writeItems items ++ x) := by
  cases items <;> exact Text.startsOff_cons.mpr (by decide)

theorem closes_writeFields (fields : List (Text × Json)) (x : Text) :
    Closes (writeFields fields ++ x) := by
  rcases fields with _ | ⟨⟨key, value⟩, fields⟩ <;> exact Text.startsOff_cons.mpr (by decide)

mutual

/-- The text of a value, followed by something that does not continue it, determines
the value and what follows. -/
theorem write_cancel (a : Json) : ∀ {b : Json} {x y : Text}, Closes x → Closes y →
    write a ++ x = write b ++ y → a = b ∧ x = y := by
  intro b x y hx hy h
  have hshape := shape_eq h
  match a, b, hshape with
  | null, null, _ => exact ⟨rfl, List.append_cancel_left h⟩
  | bool true, bool true, _ => exact ⟨rfl, List.append_cancel_left h⟩
  | bool false, bool false, _ => exact ⟨rfl, List.append_cancel_left h⟩
  | int m, int n, _ =>
      obtain ⟨rfl, hxy⟩ := writeInt_cancel hx hy h
      exact ⟨rfl, hxy⟩
  | int m, float g, _ => exact absurd h (writeInt_ne_writeFloat hx hy)
  | float f, int n, _ => exact absurd h.symm (writeInt_ne_writeFloat hy hx)
  | float f, float g, _ =>
      obtain ⟨rfl, hxy⟩ := writeFloat_cancel hx hy h
      exact ⟨rfl, hxy⟩
  | str s, str t, _ =>
      obtain ⟨rfl, hxy⟩ := writeStr_cancel h
      exact ⟨rfl, hxy⟩
  | arr [], arr [], _ => exact ⟨rfl, List.append_cancel_left h⟩
  | arr [], arr (item :: items), _ =>
      simp only [write, List.cons_append, List.append_assoc, List.nil_append, List.cons.injEq,
        true_and] at h
      exact absurd h.symm (write_ne_cons (by decide))
  | arr (item :: items), arr [], _ =>
      simp only [write, List.cons_append, List.append_assoc, List.nil_append, List.cons.injEq,
        true_and] at h
      exact absurd h (write_ne_cons (by decide))
  | arr (item :: items), arr (item' :: items'), _ =>
      simp only [write, List.cons_append, List.append_assoc, List.cons.injEq, true_and] at h
      obtain ⟨rfl, hrest⟩ := write_cancel item (closes_writeItems _ _) (closes_writeItems _ _) h
      obtain ⟨rfl, hxy⟩ := writeItems_cancel items hrest
      exact ⟨rfl, hxy⟩
  | obj [], obj [], _ => exact ⟨rfl, List.append_cancel_left h⟩
  | obj [], obj ((key, value) :: fields), _ => cases h
  | obj ((key, value) :: fields), obj [], _ => cases h
  | obj ((key, value) :: fields), obj ((key', value') :: fields'), _ =>
      simp only [write, List.cons_append, List.append_assoc, List.cons.injEq, true_and] at h
      obtain ⟨rfl, hvalue⟩ := writeStr_cancel h
      simp only [List.cons.injEq, true_and] at hvalue
      obtain ⟨rfl, hrest⟩ :=
        write_cancel value (closes_writeFields _ _) (closes_writeFields _ _) hvalue
      obtain ⟨rfl, hxy⟩ := writeFields_cancel fields hrest
      exact ⟨rfl, hxy⟩

theorem writeItems_cancel (l : List Json) : ∀ {l' : List Json} {x y : Text},
    writeItems l ++ x = writeItems l' ++ y → l = l' ∧ x = y := by
  intro l' x y h
  match l, l' with
  | [], [] => exact ⟨rfl, List.append_cancel_left h⟩
  | [], item :: items => exact absurd (List.cons.inj h).1 (by decide)
  | item :: items, [] => exact absurd (List.cons.inj h).1 (by decide)
  | item :: items, item' :: items' =>
      simp only [writeItems, List.cons_append, List.append_assoc, List.cons.injEq, true_and] at h
      obtain ⟨rfl, hrest⟩ := write_cancel item (closes_writeItems _ _) (closes_writeItems _ _) h
      obtain ⟨rfl, hxy⟩ := writeItems_cancel items hrest
      exact ⟨rfl, hxy⟩

theorem writeFields_cancel (l : List (Text × Json)) : ∀ {l' : List (Text × Json)} {x y : Text},
    writeFields l ++ x = writeFields l' ++ y → l = l' ∧ x = y := by
  intro l' x y h
  match l, l' with
  | [], [] => exact ⟨rfl, List.append_cancel_left h⟩
  | [], (key, value) :: fields => exact absurd (List.cons.inj h).1 (by decide)
  | (key, value) :: fields, [] => exact absurd (List.cons.inj h).1 (by decide)
  | (key, value) :: fields, (key', value') :: fields' =>
      simp only [writeFields, List.cons_append, List.append_assoc, List.cons.injEq, true_and] at h
      obtain ⟨rfl, hvalue⟩ := writeStr_cancel h
      simp only [List.cons.injEq, true_and] at hvalue
      obtain ⟨rfl, hrest⟩ :=
        write_cancel value (closes_writeFields _ _) (closes_writeFields _ _) hvalue
      obtain ⟨rfl, hxy⟩ := writeFields_cancel fields hrest
      exact ⟨rfl, hxy⟩

end

theorem write_injective : Function.Injective write := by
  intro a b h
  exact (write_cancel a closes_nil closes_nil (congrArg (· ++ []) h)).1

/-- The text determines the value up to the order of fields. -/
theorem dumps_eq_iff {a b : Json} : dumps a = dumps b ↔ sortKeys a = sortKeys b :=
  write_injective.eq_iff

/-! ## The round trip through `jsonb` -/

theorem isKept_floatJsonb (x : FloatLiteral) : x.jsonb.isKept = true := by
  unfold FloatLiteral.jsonb
  split
  · rename_i e he
    split
    · rename_i hneg
      simp [isKept, FloatLiteral.isKept, he, hneg]
    · rfl
  · rename_i he
    split
    · simp [isKept, FloatLiteral.isKept, he]
    · rename_i hzero
      simp [isKept, FloatLiteral.isKept, he, hzero]

theorem floatJsonb_eq {x : FloatLiteral} (h : x.isKept = true) : x.jsonb = .float x := by
  unfold FloatLiteral.isKept at h
  unfold FloatLiteral.jsonb
  split at h
  · rename_i e he
    rw [if_pos (by simpa using h)]
  · split
    · rename_i hzero
      have hneg : x.negative = false := by simpa [hzero] using h
      rw [← hneg]
    · rfl

mutual

theorem isKept_jsonb : ∀ j : Json, (jsonb j).isKept = true
  | null => rfl
  | bool _ => rfl
  | int _ => rfl
  | float x => isKept_floatJsonb x
  | str _ => rfl
  | arr items => keptItems_jsonb items
  | obj fields => keptFields_jsonb fields

theorem keptItems_jsonb : ∀ l : List Json, keptItems (jsonbItems l) = true
  | [] => rfl
  | item :: items => by
      rw [jsonbItems, keptItems, isKept_jsonb item, keptItems_jsonb items]
      rfl

theorem keptFields_jsonb : ∀ l : List (Text × Json), keptFields (jsonbFields l) = true
  | [] => rfl
  | (key, value) :: fields => by
      rw [jsonbFields, keptFields, isKept_jsonb value, keptFields_jsonb fields]
      rfl

end

mutual

theorem jsonb_eq : ∀ j : Json, j.isKept = true → jsonb j = j
  | null, _ => rfl
  | bool _, _ => rfl
  | int _, _ => rfl
  | float _, h => floatJsonb_eq h
  | str _, _ => rfl
  | arr items, h => congrArg arr (jsonbItems_eq items h)
  | obj fields, h => congrArg obj (jsonbFields_eq fields h)

theorem jsonbItems_eq : ∀ l : List Json, keptItems l = true → jsonbItems l = l
  | [], _ => rfl
  | item :: items, h => by
      rw [keptItems, Bool.and_eq_true] at h
      rw [jsonbItems, jsonb_eq item h.1, jsonbItems_eq items h.2]

theorem jsonbFields_eq : ∀ l : List (Text × Json), keptFields l = true → jsonbFields l = l
  | [], _ => rfl
  | (key, value) :: fields, h => by
      rw [keptFields, Bool.and_eq_true] at h
      rw [jsonbFields, jsonb_eq value h.1, jsonbFields_eq fields h.2]

end

theorem keptFields_insertField (field : Text × Json) (l : List (Text × Json)) :
    keptFields (insertField field l) = (field.2.isKept && keptFields l) := by
  induction l with
  | nil => rfl
  | cons head l ih =>
      unfold insertField at ih ⊢
      rw [List.orderedInsert_cons]
      split
      · rfl
      · rw [keptFields, ih, keptFields]
        exact Bool.and_left_comm _ _ _

mutual

theorem isKept_sortKeys : ∀ j : Json, (sortKeys j).isKept = j.isKept
  | null => rfl
  | bool _ => rfl
  | int _ => rfl
  | float _ => rfl
  | str _ => rfl
  | arr items => keptItems_sortItems items
  | obj fields => keptFields_sortFields fields

theorem keptItems_sortItems : ∀ l : List Json, keptItems (sortItems l) = keptItems l
  | [] => rfl
  | item :: items => by
      rw [sortItems, keptItems, keptItems, isKept_sortKeys item, keptItems_sortItems items]

theorem keptFields_sortFields : ∀ l : List (Text × Json), keptFields (sortFields l) = keptFields l
  | [] => rfl
  | (key, value) :: fields => by
      rw [sortFields, keptFields_insertField, keptFields, isKept_sortKeys value,
        keptFields_sortFields fields]

end

/-- The value read back is written as before exactly if the column keeps every float. -/
theorem dumps_jsonb_iff (j : Json) : dumps (jsonb j) = dumps j ↔ j.isKept = true := by
  rw [dumps_eq_iff]
  constructor
  · intro h
    rw [← isKept_sortKeys j, ← h, isKept_sortKeys]
    exact isKept_jsonb j
  · intro h
    rw [jsonb_eq j h]

end JsonOf

end Support
