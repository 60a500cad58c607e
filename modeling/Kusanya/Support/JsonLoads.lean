import Kusanya.Support.JsonCompact
import Kusanya.Support.Utf8

/-!
# Reading JSON

`scan` is `json.loads` of a text.  It follows the scanner of the `json` package:
whitespace between tokens, the escapes of strings with surrogate pairs joined, the
last of two fields with one key, integers of at most 4300 digits.  What it makes of a
number with a point or an exponent and of `NaN` and the infinities is left to the hook
`parseFloat`.  `loads` refuses in addition what has a surrogate, which no column takes.
-/

namespace Support.JsonOf

/-! ## Strings -/

def unescapes : List (Char × Char) :=
  [('"', '"'), ('\\', '\\'), ('/', '/'), ('b', '\x08'), ('f', '\x0c'), ('n', '\n'), ('r', '\r'),
   ('t', '\t')]

def hexValue? (c : Char) : Option ℕ :=
  if c.isDigit then some (c.toNat - '0'.toNat)
  else if 'a' ≤ c ∧ c ≤ 'f' then some (c.toNat - 'a'.toNat + 10)
  else if 'A' ≤ c ∧ c ≤ 'F' then some (c.toNat - 'A'.toNat + 10)
  else none

/-- A number of `width` hexadecimal digits, behind the digits that make up `acc`. -/
def readHex : ℕ → ℕ → Text → Option (ℕ × Text)
  | 0, acc, text => some (acc, text)
  | _ + 1, _, [] => none
  | width + 1, acc, c :: rest =>
      match hexValue? c with
      | none => none
      | some d => readHex width (acc * 16 + d) rest

/-- Behind the escape of a high surrogate: that of a low one makes it a character. -/
def readLow (high : ℕ) : Text → Option (Fin 0x110000 × Text)
  | '\\' :: 'u' :: rest =>
      match readHex 4 0 rest with
      | none => none
      | some (low, behind) =>
          if 0xdc00 ≤ low ∧ low ≤ 0xdfff then
            some (Fin.ofNat _ (0x10000 + (high - 0xd800) * 0x400 + (low - 0xdc00)), behind)
          else some (Fin.ofNat _ high, '\\' :: 'u' :: rest)
  | text => some (Fin.ofNat _ high, text)

/-- The escape of a code unit, behind its `\u`. -/
def readUnicode (text : Text) : Option (Fin 0x110000 × Text) :=
  match readHex 4 0 text with
  | none => none
  | some (unit, rest) =>
      if 0xd800 ≤ unit ∧ unit ≤ 0xdbff then readLow unit rest
      else some (Fin.ofNat _ unit, rest)

/-- An escape, behind its backslash. -/
def readEscape : Text → Option (Fin 0x110000 × Text)
  | [] => none
  | c :: rest =>
      if c = 'u' then readUnicode rest
      else (unescapes.lookup c).map fun d => (Str.ofChar d, rest)

/-- A string behind its opening quote. -/
def readStr : ℕ → Text → Option (Str × Text)
  | 0, _ => none
  | _ + 1, [] => none
  | fuel + 1, c :: rest =>
      if c = '"' then some ([], rest)
      else if c = '\\' then
        match readEscape rest with
        | none => none
        | some (d, rest) => (readStr fuel rest).map fun r => (d :: r.1, r.2)
      else if c < ' ' then none
      else (readStr fuel rest).map fun r => (Str.ofChar c :: r.1, r.2)

/-! ## Numbers -/

/-- The digits before the point: no leading zeros. -/
def wholePart : Text → Text
  | [] => []
  | c :: rest => if c = '0' then [c] else (c :: rest).takeWhile Char.isDigit

def fractionPart : Text → Text
  | '.' :: rest =>
      let digits := rest.takeWhile Char.isDigit
      if digits = [] then [] else '.' :: digits
  | _ => []

def exponentPart : Text → Text
  | [] => []
  | c :: rest =>
      if c = 'e' ∨ c = 'E' then
        let signed := rest.takeWhile fun d => d == '+' || d == '-'
        let digits := (rest.drop signed.length).takeWhile Char.isDigit
        if signed.length ≤ 1 ∧ digits ≠ [] then c :: (signed ++ digits) else []
      else []

def signPart : Text → Text
  | [] => []
  | c :: _ => if c = '-' then [c] else []

def readNumber (parseFloat : Text → JsonOf Str) (text : Text) : Option (JsonOf Str × Text) :=
  let signed := signPart text
  let whole := wholePart (text.drop signed.length)
  let rest := text.drop (signed ++ whole).length
  let fraction := fractionPart rest
  let exponent := exponentPart (rest.drop fraction.length)
  if whole = [] then none
  else if fraction = [] ∧ exponent = [] then
    let n : ℤ := Nat.ofDigitChars 10 whole 0
    if whole.length ≤ 4300 then some (.int (if signed = [] then n else -n), rest) else none
  else
    some (parseFloat (signed ++ whole ++ fraction ++ exponent),
      rest.drop (fraction ++ exponent).length)

/-! ## Values -/

def isSpace (c : Char) : Bool := c == ' ' || c == '\t' || c == '\n' || c == '\r'

def skip (text : Text) : Text := text.dropWhile isSpace

/-- A field put into a `dict`: a key that is there already keeps its place. -/
def setField (field : Str × JsonOf Str) : List (Str × JsonOf Str) → List (Str × JsonOf Str)
  | [] => [field]
  | other :: fields =>
      if other.1 = field.1 then field :: fields else other :: setField field fields

/-- `dict(pairs)`. -/
def dict (pairs : List (Str × JsonOf Str)) : List (Str × JsonOf Str) :=
  pairs.foldl (fun fields field => setField field fields) []

/-- The words of `json`, and the words of `parse_constant`. -/
def readWord (parseFloat : Text → JsonOf Str) (text : Text) : Option (JsonOf Str × Text) :=
  let words : List (Text × JsonOf Str) :=
    [(['n', 'u', 'l', 'l'], null), (['t', 'r', 'u', 'e'], bool true),
     (['f', 'a', 'l', 's', 'e'], bool false)] ++
    ([['N', 'a', 'N'], ['I', 'n', 'f', 'i', 'n', 'i', 't', 'y'],
      ['-', 'I', 'n', 'f', 'i', 'n', 'i', 't', 'y']].map fun word => (word, parseFloat word))
  (words.find? fun word => word.1.isPrefixOf text).map fun word =>
    (word.2, text.drop word.1.length)

/-- One token, with the whitespace in front of it. -/
def expect (token : Char) (text : Text) : Option Text :=
  match skip text with
  | [] => none
  | c :: rest => if c = token then some rest else none

mutual

/-- One value, with the text behind it. -/
def readValue (parseFloat : Text → JsonOf Str) : ℕ → Text → Option (JsonOf Str × Text)
  | 0, _ => none
  | _ + 1, [] => none
  | fuel + 1, c :: rest =>
      if c = '"' then (readStr fuel rest).map fun r => (str r.1, r.2)
      else if c = '[' then
        match expect ']' rest with
        | some rest => some (arr [], rest)
        | none => (readItems parseFloat fuel (skip rest)).map fun r => (arr r.1, r.2)
      else if c = '{' then
        match expect '}' rest with
        | some rest => some (obj [], rest)
        | none => (readFields parseFloat fuel (skip rest)).map fun r => (obj (dict r.1), r.2)
      else
        match readWord parseFloat (c :: rest) with
        | some r => some r
        | none => readNumber parseFloat (c :: rest)

/-- The items of a list that is not empty, and its closing bracket. -/
def readItems (parseFloat : Text → JsonOf Str) : ℕ → Text → Option (List (JsonOf Str) × Text)
  | 0, _ => none
  | fuel + 1, text =>
      match readValue parseFloat fuel text with
      | none => none
      | some (item, rest) =>
          match expect ',' rest with
          | some rest =>
              (readItems parseFloat fuel (skip rest)).map fun r => (item :: r.1, r.2)
          | none => (expect ']' rest).map fun rest => ([item], rest)

/-- The fields of an object that is not empty, and its closing brace. -/
def readFields (parseFloat : Text → JsonOf Str) : ℕ → Text → Option (List (Str × JsonOf Str) × Text)
  | 0, _ => none
  | _ + 1, [] => none
  | fuel + 1, c :: text =>
      if c = '"' then
        match readStr fuel text with
        | none => none
        | some (key, rest) =>
            match expect ':' rest with
            | none => none
            | some rest =>
                match readValue parseFloat fuel (skip rest) with
                | none => none
                | some (value, rest) =>
                    match expect ',' rest with
                    | some rest =>
                        (readFields parseFloat fuel (skip rest)).map fun r =>
                          ((key, value) :: r.1, r.2)
                    | none => (expect '}' rest).map fun rest => ([(key, value)], rest)
      else none

end

/-- `json.loads` of a text, `none` where it raises. -/
def scan (parseFloat : Text → JsonOf Str) (text : Text) : Option (JsonOf Str) :=
  match readValue parseFloat (text.length + 1) (skip text) with
  | none => none
  | some (value, rest) => if skip rest = [] then some value else none

/-- `json.loads` of bytes in UTF-8. -/
def scanBytes (parseFloat : Text → JsonOf Str) (bytes : List ℕ) : Option (JsonOf Str) :=
  (Text.decodeUtf8 bytes).bind (scan parseFloat)

/-! ## Values without surrogates -/

mutual

/-- The value with its strings as texts, if none has a surrogate. -/
def texts? : JsonOf Str → Option Json
  | null => some null
  | bool b => some (bool b)
  | int n => some (int n)
  | float x => some (float x)
  | str s => (Str.text? s).map str
  | arr items => (textItems? items).map arr
  | obj fields => (textFields? fields).map obj

def textItems? : List (JsonOf Str) → Option (List Json)
  | [] => some []
  | item :: items => do
      let item ← texts? item
      let items ← textItems? items
      pure (item :: items)

def textFields? : List (Str × JsonOf Str) → Option (List (Text × Json))
  | [] => some []
  | (key, value) :: fields => do
      let key ← Str.text? key
      let value ← texts? value
      let fields ← textFields? fields
      pure ((key, value) :: fields)

end

/-- What `json.loads` reads, if it has no surrogate. -/
def loads (parseFloat : Text → JsonOf Str) (text : Text) : Option Json :=
  (scan parseFloat text).bind texts?

end Support.JsonOf
