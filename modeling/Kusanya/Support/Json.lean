import Kusanya.Support.Text
import Mathlib.Data.Char
import Mathlib.Data.List.Lex
import Mathlib.Data.List.Sort

/-!
# JSON as Python writes it and as PostgreSQL keeps it

`dumps` is `json.dumps(value, sort_keys=True)`; its text determines the value up to
the order of the fields of its objects.  `jsonb` is what `json.loads` makes of the
text that a `jsonb` column gives back: the column keeps numbers as decimals, so a
float that is written with a positive exponent comes back as an integer, and a
negative zero as a positive one.
-/

namespace Support

/-- A finite `float`, by the literal `float.__repr__` writes for it: the digits before
and after the point, and the exponent of the literals that have one. -/
structure FloatLiteral where
  negative : Bool
  whole : ℕ
  fraction : List ℕ
  exponent : Option ℤ
  fraction_lt : ∀ d ∈ fraction, d < 10
  positional : exponent = none → fraction ≠ [] ∧ whole < 10 ^ 16
  scientific : ∀ e, exponent = some e →
    1 ≤ whole ∧ whole < 10 ∧ fraction.length ≤ 16 ∧ (e ≤ -5 ∨ 16 ≤ e)

/-- A JSON value with strings of type `σ`.  An object is the list of its fields. -/
inductive JsonOf (σ : Type) where
  | null
  | bool (b : Bool)
  | int (n : ℤ)
  | float (x : FloatLiteral)
  | str (s : σ)
  | arr (items : List (JsonOf σ))
  | obj (fields : List (σ × JsonOf σ))

/-- A JSON value whose strings are texts. -/
abbrev Json := JsonOf Text

namespace JsonOf

/-! ## Numbers -/

def sign (negative : Bool) : Text := if negative then ['-'] else []

def writeInt (n : ℤ) : Text := sign (n < 0) ++ Text.decimal n.natAbs

/-- The exponent has at least two digits. -/
def writeExponent (e : ℤ) : Text :=
  'e' :: (if e < 0 then '-' else '+') ::
    ((if e.natAbs < 10 then ['0'] else []) ++ Text.decimal e.natAbs)

def writeExponent? : Option ℤ → Text
  | none => []
  | some e => writeExponent e

def writeFraction (fraction : List ℕ) : Text :=
  if fraction = [] then [] else '.' :: fraction.map Nat.digitChar

def writeFloat (x : FloatLiteral) : Text :=
  sign x.negative ++ Text.decimal x.whole ++ writeFraction x.fraction ++ writeExponent? x.exponent

/-! ## Strings -/

/-- The escapes that are one letter behind the backslash. -/
def shortEscapes : List (Char × Char) :=
  [('"', '"'), ('\\', '\\'), ('\n', 'n'), ('\r', 'r'), ('\t', 't'),
   ('\x0c', 'f'), ('\x08', 'b')]

/-- The UTF-16 code units of a character. -/
def utf16 (c : Char) : List ℕ :=
  if c.toNat < 0x10000 then [c.toNat]
  else [0xd800 + (c.toNat - 0x10000) / 0x400, 0xdc00 + (c.toNat - 0x10000) % 0x400]

def unicodeEscape (unit : ℕ) : Text := '\\' :: 'u' :: Text.fixed 16 4 unit

def isPrintable (c : Char) : Bool := ' ' ≤ c && c ≤ '~'

def escapeChar (c : Char) : Text :=
  match shortEscapes.lookup c with
  | some letter => ['\\', letter]
  | none => if isPrintable c then [c] else (utf16 c).flatMap unicodeEscape

def writeStr (s : Text) : Text := '"' :: (s.flatMap escapeChar ++ ['"'])

/-! ## Values -/

mutual

def write : Json → Text
  | null => ['n', 'u', 'l', 'l']
  | bool true => ['t', 'r', 'u', 'e']
  | bool false => ['f', 'a', 'l', 's', 'e']
  | int n => writeInt n
  | float x => writeFloat x
  | str s => writeStr s
  | arr [] => ['[', ']']
  | arr (item :: items) => '[' :: (write item ++ writeItems items)
  | obj [] => ['{', '}']
  | obj ((key, value) :: fields) =>
      '{' :: (writeStr key ++ ':' :: ' ' :: (write value ++ writeFields fields))

/-- The items behind the first one, and the closing bracket. -/
def writeItems : List Json → Text
  | [] => [']']
  | item :: items => ',' :: ' ' :: (write item ++ writeItems items)

def writeFields : List (Text × Json) → Text
  | [] => ['}']
  | (key, value) :: fields =>
      ',' :: ' ' :: (writeStr key ++ ':' :: ' ' :: (write value ++ writeFields fields))

end

section Sorting

variable {σ : Type} [LinearOrder σ]

/-- A field put at its place in the order of the keys. -/
def insertField (field : σ × JsonOf σ) (fields : List (σ × JsonOf σ)) : List (σ × JsonOf σ) :=
  fields.orderedInsert (fun a b => a.1 ≤ b.1) field

mutual

def sortKeys : JsonOf σ → JsonOf σ
  | arr items => arr (sortItems items)
  | obj fields => obj (sortFields fields)
  | value => value

def sortItems : List (JsonOf σ) → List (JsonOf σ)
  | [] => []
  | item :: items => sortKeys item :: sortItems items

def sortFields : List (σ × JsonOf σ) → List (σ × JsonOf σ)
  | [] => []
  | (key, value) :: fields => insertField (key, sortKeys value) (sortFields fields)

end

end Sorting

def dumps (value : Json) : Text := write (sortKeys value)

/-! ## The round trip through `jsonb` -/

end JsonOf

/-- The decimal digits of the literal as one number. -/
def FloatLiteral.mantissa (x : FloatLiteral) : ℕ :=
  x.fraction.foldl (fun n d => 10 * n + d) x.whole

/-- The column gives this float back as it was. -/
def FloatLiteral.isKept (x : FloatLiteral) : Bool :=
  match x.exponent with
  | some e => e < 0
  | none => !(x.negative && x.mantissa == 0)

def FloatLiteral.jsonb (x : FloatLiteral) : Json :=
  match x.exponent with
  | some e =>
      if e < 0 then .float x
      else
        let n : ℤ := x.mantissa * 10 ^ (e.toNat - x.fraction.length)
        .int (if x.negative then -n else n)
  | none => .float (if x.mantissa = 0 then { x with negative := false } else x)

namespace JsonOf

mutual

def jsonb : Json → Json
  | float x => x.jsonb
  | arr items => arr (jsonbItems items)
  | obj fields => obj (jsonbFields fields)
  | value => value

def jsonbItems : List Json → List Json
  | [] => []
  | item :: items => jsonb item :: jsonbItems items

def jsonbFields : List (Text × Json) → List (Text × Json)
  | [] => []
  | (key, value) :: fields => (key, jsonb value) :: jsonbFields fields

end

mutual

/-- No float in the value is changed by the round trip. -/
def isKept : Json → Bool
  | float x => x.isKept
  | arr items => keptItems items
  | obj fields => keptFields fields
  | _ => true

def keptItems : List Json → Bool
  | [] => true
  | item :: items => isKept item && keptItems items

def keptFields : List (Text × Json) → Bool
  | [] => true
  | (_, value) :: fields => isKept value && keptFields fields

end

section Parts

variable {σ : Type} (okStr : σ → Bool) (okInt : ℤ → Bool)

mutual

/-- Every string, keys included, and every integer of the value is as required. -/
def allParts : JsonOf σ → Bool
  | int n => okInt n
  | str s => okStr s
  | arr items => allItems items
  | obj fields => allFields fields
  | _ => true

def allItems : List (JsonOf σ) → Bool
  | [] => true
  | item :: items => allParts item && allItems items

def allFields : List (σ × JsonOf σ) → Bool
  | [] => true
  | (key, value) :: fields => okStr key && allParts value && allFields fields

end

mutual

/-- What holds of more strings holds of more values. -/
theorem allParts_mono {okStr okStr' : σ → Bool} {okInt : ℤ → Bool}
    (h : ∀ s, okStr s = true → okStr' s = true) : ∀ j : JsonOf σ,
    j.allParts okStr okInt = true → j.allParts okStr' okInt = true
  | null, _ => rfl
  | bool _, _ => rfl
  | int _, hj => hj
  | float _, _ => rfl
  | str s, hj => h s hj
  | arr items, hj => allItems_mono h items hj
  | obj fields, hj => allFields_mono h fields hj

theorem allItems_mono {okStr okStr' : σ → Bool} {okInt : ℤ → Bool}
    (h : ∀ s, okStr s = true → okStr' s = true) : ∀ l : List (JsonOf σ),
    allItems okStr okInt l = true → allItems okStr' okInt l = true
  | [], _ => rfl
  | item :: items, hl => by
      rw [allItems, Bool.and_eq_true] at hl ⊢
      exact ⟨allParts_mono h item hl.1, allItems_mono h items hl.2⟩

theorem allFields_mono {okStr okStr' : σ → Bool} {okInt : ℤ → Bool}
    (h : ∀ s, okStr s = true → okStr' s = true) : ∀ l : List (σ × JsonOf σ),
    allFields okStr okInt l = true → allFields okStr' okInt l = true
  | [], _ => rfl
  | (key, value) :: fields, hl => by
      rw [allFields, Bool.and_eq_true, Bool.and_eq_true] at hl ⊢
      exact ⟨⟨h key hl.1.1, allParts_mono h value hl.1.2⟩, allFields_mono h fields hl.2⟩

end

end Parts

/-- An integer that Python converts to text and back: it has at most 4300 digits. -/
def isConvertible (n : ℤ) : Bool := (Text.decimal n.natAbs).length ≤ 4300

/-- Python writes the value and the column takes it: no integer has more than 4300
digits, and no text contains a NUL. -/
def isStorable (value : Json) : Bool := value.allParts (fun s => '\x00' ∉ s) isConvertible

end JsonOf

end Support
