import Kusanya.Support.Text

/-!
# `str.format_map`

A template is literal text and replacement fields: a name, the attributes and items behind it, a
conversion, and a format specification, in which fields can stand again.  The mapping gives texts;
what the interpreter knows of other objects is left to an `Interpreter`.  Where Python raises, the
result is `none`.
-/

namespace Support

/-- What a replacement field reaches: a `str`, or another object of the interpreter. -/
inductive PyObject where
  | str (text : Text)
  | other (id : ℕ)

/-- What stands between brackets. -/
inductive Subscript where
  | key (name : Text)
  | index (n : ℕ)

/-- The objects of an interpreter: `decimal` is `unicodedata.decimal`, `getitem`, `str` and
`format` are about objects that are no texts, and no text is longer than `maxLength`. -/
structure Interpreter where
  decimal : Char → Option ℕ
  getattr : PyObject → Text → Option PyObject
  getitem : ℕ → Subscript → Option PyObject
  repr : PyObject → Option Text
  ascii : PyObject → Option Text
  str : ℕ → Option Text
  format : ℕ → Text → Option Text
  maxLength : ℕ

namespace FormatMap

/-! ## Fields -/

structure Field where
  name : Text
  conversion : Option Char
  spec : Text

inductive Piece where
  | literal (c : Char)
  | field (field : Field)

/-- The name of a field, the mark that ends it, and what follows; within brackets no mark ends
it. -/
def scanName : Bool → Text → Option (Text × Char × Text)
  | _, [] => none
  | true, c :: rest => (scanName (c ≠ ']') rest).map fun r => (c :: r.1, r.2)
  | false, c :: rest =>
      if c = '{' then none
      else if c = '}' ∨ c = ':' ∨ c = '!' then some ([], c, rest)
      else (scanName (c = '[') rest).map fun r => (c :: r.1, r.2)

/-- A format specification, up to the brace that closes the `depth` open ones. -/
def scanSpec : ℕ → Text → Option (Text × Text)
  | _, [] => none
  | depth, c :: rest =>
      if c = '}' ∧ depth ≤ 1 then some ([], rest)
      else
        let depth := if c = '{' then depth + 1 else if c = '}' then depth - 1 else depth
        (scanSpec depth rest).map fun r => (c :: r.1, r.2)

/-- A field behind its opening brace. -/
def readField (text : Text) : Option (Field × Text) :=
  match scanName false text with
  | none => none
  | some (name, mark, rest) =>
      if mark = '}' then some (⟨name, none, []⟩, rest)
      else if mark = ':' then (scanSpec 1 rest).map fun r => (⟨name, none, r.1⟩, r.2)
      else
        match rest with
        | conversion :: '}' :: rest => some (⟨name, some conversion, []⟩, rest)
        | conversion :: ':' :: rest =>
            (scanSpec 1 rest).map fun r => (⟨name, some conversion, r.1⟩, r.2)
        | _ => none

/-- The pieces of a template of at most `fuel` characters; a brace that is doubled stands for
itself. -/
def pieces : ℕ → Text → Option (List Piece)
  | _, [] => some []
  | 0, _ :: _ => none
  | fuel + 1, c :: rest =>
      if c = '{' ∨ c = '}' then
        match rest with
        | [] => none
        | d :: behind =>
            if d = c then (pieces fuel behind).map (.literal c :: ·)
            else if c = '}' then none
            else
              match readField rest with
              | none => none
              | some (field, behind) => (pieces fuel behind).map (.field field :: ·)
      else (pieces fuel rest).map (.literal c :: ·)

/-! ## Objects -/

variable (py : Interpreter)

/-- `PY_SSIZE_T_MAX`. -/
def sizeMax : ℕ := 2 ^ 63 - 1

/-- A text of decimal digits as a number. -/
def integer? (text : Text) : Option ℕ :=
  if text = [] then none
  else (text.mapM py.decimal).map fun digits => digits.foldl (fun n d => 10 * n + d) 0

/-- A number that fits into a machine word. -/
def size? (n : ℕ) : Option ℕ := if n ≤ sizeMax then some n else none

/-- One step from an object: an attribute or an item. -/
inductive Step where
  | getattr (name : Text)
  | getitem (subscript : Subscript)

/-- What stands between brackets, as a subscript. -/
def subscript (name : Text) : Option Subscript :=
  if name = [] then none
  else
    match integer? py name with
    | some n => (size? n).map .index
    | none => some (.key name)

/-- The steps behind the first name of a field. -/
def readSteps : ℕ → Text → Option (List Step)
  | _, [] => some []
  | 0, _ :: _ => none
  | fuel + 1, c :: rest =>
      if c = '.' then
        let name := rest.takeWhile fun d => d ≠ '.' ∧ d ≠ '['
        if name = [] then none
        else (readSteps fuel (rest.drop name.length)).map (.getattr name :: ·)
      else if c = '[' then
        let name := rest.takeWhile (· ≠ ']')
        match rest.drop name.length, subscript py name with
        | _ :: behind, some sub => (readSteps fuel behind).map (.getitem sub :: ·)
        | _, _ => none
      else none

def follow (object : PyObject) : Step → Option PyObject
  | .getattr name => py.getattr object name
  | .getitem sub =>
      match object, sub with
      | .str text, .index n => text[n]?.map fun c => .str [c]
      | .str _, .key _ => none
      | .other id, sub => py.getitem id sub

/-- The object that a field names; a field without a name, or with a number, is positional. -/
def objectOf (mapping : Text → Text) (name : Text) : Option PyObject :=
  let first := name.takeWhile fun c => c ≠ '.' ∧ c ≠ '['
  if first = [] ∨ (integer? py first).isSome then none
  else
    match readSteps py name.length (name.drop first.length) with
    | none => none
    | some steps => steps.foldlM (follow py) (.str (mapping first))

/-- `!s`, `!r` and `!a`. -/
def convert (object : PyObject) : Option Char → Option PyObject
  | none => some object
  | some c =>
      if c = 's' then
        match object with
        | .str text => some (.str text)
        | .other id => (py.str id).map .str
      else if c = 'r' then (py.repr object).map .str
      else if c = 'a' then (py.ascii object).map .str
      else none

/-! ## Format specifications of texts -/

def isAlign (c : Char) : Bool := c = '<' || c = '>' || c = '=' || c = '^'

/-- The fill character and the alignment in front of a specification. -/
def splitAlign : Text → Option Char × Option Char × Text
  | fill :: align :: rest =>
      if isAlign align then (some fill, some align, rest)
      else if isAlign fill then (none, some fill, align :: rest)
      else (none, none, fill :: align :: rest)
  | [align] => if isAlign align then (none, some align, []) else (none, none, [align])
  | [] => (none, none, [])

/-- Digits in front of a specification, `none` where there are none. -/
def splitNumber (spec : Text) : Option ℕ × Text :=
  let digits := spec.takeWhile fun c => (py.decimal c).isSome
  (integer? py digits, spec.drop digits.length)

/-- The text with its width, aligned and filled. -/
def pad (fill : Char) (align : Option Char) (width : ℕ) (text : Text) : Text :=
  let padding := width - text.length
  let left := if align = some '>' then padding else if align = some '^' then padding / 2 else 0
  List.replicate left fill ++ text ++ List.replicate (padding - left) fill

/-- `str.__format__`: no sign, no alternate form, no separators, no other type than `s`. -/
def formatStr (spec text : Text) : Option Text := do
  let (fill, align, rest) := splitAlign spec
  if align = some '=' then none
  let zero := fill = none ∧ rest.head? = some '0'
  let (width, rest) := splitNumber py (if zero then rest.drop 1 else rest)
  let width ← size? (width.getD 0)
  let (precision, rest) ←
    match rest with
    | '.' :: rest =>
        match splitNumber py rest with
        | (some n, rest) => (size? n).map fun n => (n, rest)
        | (none, _) => none
    | rest => some (text.length, rest)
  if (rest ≠ [] ∧ rest ≠ ['s']) ∨ py.maxLength < width then none
  pure (pad (fill.getD (if zero then '0' else ' ')) align width (text.take precision))

/-! ## Templates -/

/-- A field, written with the specification that `expand` makes of its own. -/
def formatField (mapping : Text → Text) (expand : Text → Option Text) (field : Field) :
    Option Text := do
  let object ← objectOf py mapping field.name
  let object ← convert py object field.conversion
  let spec ← if '{' ∈ field.spec then expand field.spec else some field.spec
  match object with
  | .str text => formatStr py spec text
  | .other id => py.format id spec

def formatPiece (mapping : Text → Text) (expand : Text → Option Text) : Piece → Option Text
  | .literal c => some [c]
  | .field field => formatField py mapping expand field

/-- The text of a template whose fields are at most `depth` deep. -/
def build (mapping : Text → Text) : ℕ → Text → Option Text
  | 0, _ => none
  | depth + 1, template =>
      match pieces template.length template with
      | none => none
      | some list => (list.mapM (formatPiece py mapping (build mapping depth))).map List.flatten

end FormatMap

/-- `template.format_map(mapping)`. -/
def formatMap (py : Interpreter) (mapping : Text → Text) (template : Text) : Option Text :=
  match FormatMap.build py mapping 2 template with
  | none => none
  | some text => if text.length ≤ py.maxLength then some text else none

theorem formatMap_nil (py : Interpreter) (mapping : Text → Text) :
    formatMap py mapping [] = some [] := rfl

/-- An interpreter that knows the digits `0` to `9` and no object but texts. -/
def Interpreter.plain : Interpreter where
  decimal := fun c => if c.isDigit then some (c.toNat - '0'.toNat) else none
  getattr := fun _ _ => none
  getitem := fun _ _ => none
  repr := fun _ => none
  ascii := fun _ => none
  str := fun _ => none
  format := fun _ _ => none
  maxLength := 10 ^ 6

example : formatMap .plain (fun _ => "Asha".toList)
    "Dear \x7bname:_>6\x7d, \x7b\x7b\x7bname[0]\x7d\x7d\x7d".toList =
    some "Dear __Asha, \x7bA\x7d".toList := by decide +kernel

end Support
