import Mathlib.Data.Nat.Digits.Defs

/-!
# Texts as lists of characters

What a column takes of a text, decimal and fixed-width numerals, UTF-8, and when a
numeral can be told from what follows it.
-/

namespace Support

/-- A text by its code points. -/
abbrev Text := List Char

/-- `str.isspace`, character by character. -/
def isSpace (c : Char) : Bool :=
  let n := c.toNat
  (9 ≤ n && n ≤ 13) || (28 ≤ n && n ≤ 32) || n = 0x85 || n = 0xa0 || n = 0x1680 ||
    (0x2000 ≤ n && n ≤ 0x200a) || n = 0x2028 || n = 0x2029 || n = 0x202f || n = 0x205f ||
    n = 0x3000

/-- `str.strip()`. -/
def strip (text : Text) : Text :=
  ((text.dropWhile isSpace).reverse.dropWhile isSpace).reverse

namespace Text

/-- A `varchar(n)` column takes the text: no more than `n` characters, and none of them a NUL. -/
def Fits (n : ℕ) (text : Text) : Prop := text.length ≤ n ∧ '\x00' ∉ text

instance (n : ℕ) (text : Text) : Decidable (Fits n text) := inferInstanceAs (Decidable (_ ∧ _))

/-- `l` does not begin with a character of the kind `p`. -/
def StartsOff (p : Char → Bool) (l : Text) : Prop :=
  ∀ c ∈ l.head?, p c = false

theorem startsOff_nil (p : Char → Bool) : StartsOff p [] := by
  simp [StartsOff]

theorem startsOff_cons {p : Char → Bool} {c : Char} {l : Text} :
    StartsOff p (c :: l) ↔ p c = false := by
  simp [StartsOff]

/-- The longest run of characters of one kind is determined by the whole text. -/
theorem append_run {p : Char → Bool} {l l' x x' : Text} (hl : ∀ c ∈ l, p c = true)
    (hl' : ∀ c ∈ l', p c = true) (hx : StartsOff p x) (hx' : StartsOff p x')
    (h : l ++ x = l' ++ x') : l = l' ∧ x = x' := by
  have htake : ∀ {m y : Text}, (∀ c ∈ m, p c = true) → StartsOff p y →
      (m ++ y).takeWhile p = m := by
    intro m y hm hy
    rw [List.takeWhile_append_of_pos hm]
    cases y with
    | nil => simp
    | cons c y => simp [startsOff_cons.mp hy]
  have hrun : l = l' := by
    rw [← htake hl hx, ← htake hl' hx', h]
  subst hrun
  exact ⟨rfl, List.append_cancel_left h⟩

/-! ## Numerals -/

/-- The decimal numeral without leading zeros. -/
def decimal (n : ℕ) : Text := Nat.toDigits 10 n

theorem isDigit_decimal {n : ℕ} {c : Char} (hc : c ∈ decimal n) : c.isDigit = true :=
  Nat.isDigit_of_mem_toDigits (by decide) (by decide) hc

/-- A decimal numeral reads back as its number. -/
theorem ofDigitChars_decimal (n : ℕ) : Nat.ofDigitChars 10 (decimal n) 0 = n :=
  Nat.ofDigitChars_ten_toDigits

theorem decimal_injective : Function.Injective decimal :=
  Function.LeftInverse.injective ofDigitChars_decimal

theorem decimal_ne_nil (n : ℕ) : decimal n ≠ [] := Nat.toDigits_ne_nil

/-- The last `width` digits of `n` in base `base`. -/
def fixed (base : ℕ) : ℕ → ℕ → Text
  | 0, _ => []
  | width + 1, n => fixed base width (n / base) ++ [Nat.digitChar (n % base)]

@[simp] theorem length_fixed (base width n : ℕ) : (fixed base width n).length = width := by
  induction width generalizing n with
  | zero => rfl
  | succ width ih => simp [fixed, ih]

theorem digitChar_injective {m n : ℕ} (hm : m < 16) (hn : n < 16)
    (h : Nat.digitChar m = Nat.digitChar n) : m = n := by
  have hall : ∀ m < 16, ∀ n < 16, Nat.digitChar m = Nat.digitChar n → m = n := by decide
  exact hall m hm n hn h

theorem map_digitChar_injective {l l' : List ℕ} (hl : ∀ d ∈ l, d < 10) (hl' : ∀ d ∈ l', d < 10)
    (h : l.map Nat.digitChar = l'.map Nat.digitChar) : l = l' := by
  induction l generalizing l' with
  | nil => exact (List.map_eq_nil_iff.mp h.symm).symm
  | cons d l ih =>
      cases l' with
      | nil => cases h
      | cons d' l' =>
          obtain ⟨hhead, htail⟩ := List.cons.inj h
          have hd : d < 16 := (hl d List.mem_cons_self).trans (by decide)
          have hd' : d' < 16 := (hl' d' List.mem_cons_self).trans (by decide)
          rw [digitChar_injective hd hd' hhead,
            ih (fun e he => hl e (List.mem_cons_of_mem _ he))
              (fun e he => hl' e (List.mem_cons_of_mem _ he)) htail]

theorem isDigit_digitChar {d : ℕ} (hd : d < 10) : (Nat.digitChar d).isDigit = true := by
  have hall : ∀ d < 10, (Nat.digitChar d).isDigit = true := by decide
  exact hall d hd

/-- A fixed-width numeral determines the number up to the digits it leaves out. -/
theorem fixed_mod {base width m n : ℕ} (hpos : 0 < base) (hbase : base ≤ 16)
    (h : fixed base width m = fixed base width n) : m % base ^ width = n % base ^ width := by
  induction width generalizing m n with
  | zero => simp [Nat.mod_one]
  | succ width ih =>
      obtain ⟨hinit, hlast⟩ := List.append_inj' h rfl
      have hmod : m % base = n % base :=
        digitChar_injective ((Nat.mod_lt m hpos).trans_le hbase)
          ((Nat.mod_lt n hpos).trans_le hbase) (List.singleton_inj.mp hlast)
      rw [pow_succ', Nat.mod_mul, Nat.mod_mul, hmod, ih hinit]

theorem fixed_injective {base width m n : ℕ} (hpos : 0 < base) (hbase : base ≤ 16)
    (hm : m < base ^ width) (hn : n < base ^ width)
    (h : fixed base width m = fixed base width n) : m = n := by
  have hmod := fixed_mod hpos hbase h
  rwa [Nat.mod_eq_of_lt hm, Nat.mod_eq_of_lt hn] at hmod

/-! ## UTF-8 -/

def utf8Char (c : Char) : List ℕ :=
  let n := c.toNat
  if n < 0x80 then [n]
  else if n < 0x800 then [0xc0 + n / 0x40, 0x80 + n % 0x40]
  else if n < 0x10000 then [0xe0 + n / 0x1000, 0x80 + n / 0x40 % 0x40, 0x80 + n % 0x40]
  else [0xf0 + n / 0x40000, 0x80 + n / 0x1000 % 0x40, 0x80 + n / 0x40 % 0x40, 0x80 + n % 0x40]

/-- `str.encode("utf-8")`, one number a byte. -/
def utf8 (text : Text) : List ℕ := text.flatMap utf8Char

end Text

end Support
