import Kusanya.Support.Text
import Mathlib.Algebra.BigOperators.Group.List.Basic
import Mathlib.Data.List.Induction
import Mathlib.Data.List.TakeWhile

/-!
# Numerals of a fixed width, and base 32

`int.to_bytes` and `int.from_bytes` in any base, the most significant digit first, and what
`base64` makes of them.
-/

namespace Support

/-- The last `width` digits of `n`. -/
def numeral (base : ℕ) : ℕ → ℕ → List ℕ
  | 0, _ => []
  | width + 1, n => numeral base width (n / base) ++ [n % base]

/-- The number that digits stand for. -/
def value (base : ℕ) (digits : List ℕ) : ℕ :=
  digits.foldl (fun acc digit => acc * base + digit) 0

section Numerals

variable {base : ℕ}

@[simp] theorem length_numeral (width n : ℕ) : (numeral base width n).length = width := by
  induction width generalizing n with
  | zero => rfl
  | succ width ih => simp [numeral, ih]

theorem lt_of_mem_numeral (hbase : 0 < base) {width n digit : ℕ}
    (h : digit ∈ numeral base width n) : digit < base := by
  induction width generalizing n with
  | zero => cases h
  | succ width ih =>
      rw [numeral, List.mem_append, List.mem_singleton] at h
      rcases h with h | rfl
      · exact ih h
      · exact Nat.mod_lt n hbase

@[simp] theorem value_nil : value base [] = 0 := rfl

theorem value_concat (digits : List ℕ) (digit : ℕ) :
    value base (digits ++ [digit]) = value base digits * base + digit := by
  simp [value, List.foldl_append]

/-- A numeral stands for its number, up to the digits that it leaves out. -/
theorem value_numeral (width n : ℕ) : value base (numeral base width n) = n % base ^ width := by
  induction width generalizing n with
  | zero => simp [numeral, Nat.mod_one]
  | succ width ih =>
      rw [numeral, value_concat, ih, pow_succ', Nat.mod_mul]
      ring

/-- Digits are the numeral of their number. -/
theorem numeral_value {digits : List ℕ} (h : ∀ digit ∈ digits, digit < base) :
    numeral base digits.length (value base digits) = digits := by
  induction digits using List.reverseRecOn with
  | nil => rfl
  | append_singleton digits digit ih =>
      have hdigit : digit < base := h digit (List.mem_append_right _ List.mem_cons_self)
      have hpos : 0 < base := Nat.zero_lt_of_lt hdigit
      rw [List.length_append, List.length_singleton, numeral, value_concat, Nat.add_comm,
        Nat.add_mul_div_right _ _ hpos, Nat.add_mul_mod_self_right, Nat.div_eq_of_lt hdigit,
        Nat.zero_add, Nat.mod_eq_of_lt hdigit, ih fun x hx => h x (List.mem_append_left _ hx)]

theorem value_lt {digits : List ℕ} (h : ∀ digit ∈ digits, digit < base) :
    value base digits < base ^ digits.length := by
  induction digits using List.reverseRecOn with
  | nil => simp
  | append_singleton digits digit ih =>
      have hdigit : digit < base := h digit (List.mem_append_right _ List.mem_cons_self)
      have hinit := ih fun x hx => h x (List.mem_append_left _ hx)
      rw [value_concat, List.length_append, List.length_singleton, pow_succ]
      calc value base digits * base + digit < value base digits * base + base := by omega
        _ = (value base digits + 1) * base := by ring
        _ ≤ base ^ digits.length * base := Nat.mul_le_mul_right _ hinit

end Numerals

/-! ## Decimal numerals -/

/-- `str.zfill(width)`, of a text without a sign. -/
def zfill (width : ℕ) (text : Text) : Text :=
  List.replicate (width - text.length) '0' ++ text

theorem fixed_zero (base width : ℕ) : Text.fixed base width 0 = List.replicate width '0' := by
  induction width with
  | zero => rfl
  | succ width ih =>
      rw [Text.fixed, Nat.zero_div, ih, Nat.zero_mod, List.replicate_succ']
      rfl

theorem Text.isDigit_of_mem_fixed {base width n : ℕ} (hbase : 0 < base ∧ base ≤ 10) {c : Char}
    (h : c ∈ Text.fixed base width n) : c.isDigit = true := by
  induction width generalizing n with
  | zero => cases h
  | succ width ih =>
      rw [Text.fixed, List.mem_append, List.mem_singleton] at h
      rcases h with h | rfl
      · exact ih h
      · exact Text.isDigit_digitChar ((Nat.mod_lt n hbase.1).trans_le hbase.2)

/-- A decimal numeral filled up with zeros has all its digits and no other. -/
theorem zfill_decimal {width n : ℕ} (hpos : 0 < width) (h : n < 10 ^ width) :
    zfill width (Text.decimal n) = Text.fixed 10 width n := by
  induction width generalizing n with
  | zero => cases hpos
  | succ width ih =>
      by_cases hsmall : n < 10
      · have hdecimal : Text.decimal n = [Nat.digitChar n] := Nat.toDigits_of_lt_base hsmall
        rw [zfill, hdecimal, Text.fixed, Nat.div_eq_of_lt hsmall, Nat.mod_eq_of_lt hsmall,
          fixed_zero]
        rfl
      · have hdecimal : Text.decimal n = Text.decimal (n / 10) ++ [Nat.digitChar (n % 10)] :=
          Nat.toDigits_of_base_le (by decide) (Nat.le_of_not_lt hsmall)
        have hwidth : 0 < width := by
          by_contra hzero
          have : width = 0 := by omega
          subst this
          exact hsmall h
        have hdiv : n / 10 < 10 ^ width := by
          rw [pow_succ] at h
          exact Nat.div_lt_of_lt_mul (by omega)
        rw [Text.fixed, ← ih hwidth hdiv, zfill, zfill, hdecimal, List.length_append,
          List.length_singleton, Nat.add_sub_add_right, List.append_assoc]

/-! ## Pieces of one length -/

/-- `count` pieces of `size` elements. -/
def pieces {α : Type*} (size : ℕ) : ℕ → List α → List (List α)
  | 0, _ => []
  | count + 1, l => l.take size :: pieces size count (l.drop size)

section Pieces

variable {α β : Type*} {size : ℕ}

theorem length_of_mem_pieces {count : ℕ} {l piece : List α} (hlength : l.length = size * count)
    (h : piece ∈ pieces size count l) : piece.length = size := by
  induction count generalizing l with
  | zero => cases h
  | succ count ih =>
      rw [pieces, List.mem_cons] at h
      rcases h with rfl | h
      · rw [List.length_take, hlength, Nat.mul_succ]
        omega
      · refine ih ?_ h
        rw [List.length_drop, hlength, Nat.mul_succ]
        omega

theorem flatten_pieces {count : ℕ} {l : List α} (hlength : l.length = size * count) :
    (pieces size count l).flatten = l := by
  induction count generalizing l with
  | zero => exact (List.eq_nil_of_length_eq_zero hlength).symm
  | succ count ih =>
      rw [pieces, List.flatten_cons, ih, List.take_append_drop]
      rw [List.length_drop, hlength, Nat.mul_succ]
      omega

/-- Pieces that were put together are found again. -/
theorem pieces_flatten {parts : List (List α)} (h : ∀ part ∈ parts, part.length = size) :
    pieces size parts.length parts.flatten = parts := by
  induction parts with
  | nil => rfl
  | cons part rest ih =>
      have hpart : part.length = size := h part List.mem_cons_self
      rw [List.length_cons, pieces, List.flatten_cons, List.take_left' hpart,
        List.drop_left' hpart, ih fun part hmem => h part (List.mem_cons_of_mem _ hmem)]

theorem length_pieces (count : ℕ) (l : List α) : (pieces size count l).length = count := by
  induction count generalizing l with
  | zero => rfl
  | succ count ih => rw [pieces, List.length_cons, ih]

end Pieces

/-! ## Base 32 -/

namespace Base32

def alphabet : Text := "ABCDEFGHIJKLMNOPQRSTUVWXYZ234567".toList

def digit (n : ℕ) : Char := alphabet.getD n 'A'

/-- The number of a letter; `none` where it is not of the alphabet. -/
def ofDigit (c : Char) : Option ℕ := alphabet.findIdx? (· = c)

/-- Five bytes as eight letters. -/
def encodeQuantum (bytes : List ℕ) : Text := (numeral 32 8 (value 256 bytes)).map digit

/-- `base64.b32encode`. -/
def encode (bytes : List ℕ) : Text :=
  let leftover := bytes.length % 5
  let padded := bytes ++ List.replicate ((5 - leftover) % 5) 0
  let letters := (pieces 5 (padded.length / 5) padded).flatMap encodeQuantum
  let missing := [0, 6, 4, 3, 1].getD leftover 0
  letters.take (letters.length - missing) ++ List.replicate missing '='

/-- `base64.b32decode`; `none` where it raises `binascii.Error`. -/
def decode (text : Text) : Option (List ℕ) := do
  if text.length % 8 ≠ 0 then none
  let letters := (text.reverse.dropWhile (· = '=')).reverse
  let padchars := text.length - letters.length
  let quanta ← (pieces 8 ((letters.length + 7) / 8) letters).mapM (·.mapM ofDigit)
  if padchars ∉ [0, 1, 3, 4, 6] then none
  let decoded := quanta.flatMap fun digits => numeral 256 5 (value 32 digits)
  match padchars, quanta.getLast? with
  | 0, _ | _, none => some decoded
  | padchars, some digits =>
      let last := numeral 256 5 (value 32 digits * 32 ^ padchars)
      some (decoded.take (decoded.length - 5) ++ last.take ((43 - 5 * padchars) / 8))

theorem ofDigit_digit {n : ℕ} (h : n < 32) : ofDigit (digit n) = some n := by
  have hall : ∀ n < 32, ofDigit (digit n) = some n := by decide
  exact hall n h

theorem digit_letter {n : ℕ} (h : n < 32) :
    digit n ≠ '=' ∧ (digit n).toNat < 128 ∧ (digit n).toUpper = digit n := by
  have hall : ∀ n < 32, digit n ≠ '=' ∧ (digit n).toNat < 128 ∧ (digit n).toUpper = digit n := by
    decide
  exact hall n h

theorem mem_encodeQuantum {bytes : List ℕ} {c : Char} (h : c ∈ encodeQuantum bytes) :
    ∃ n < 32, c = digit n := by
  obtain ⟨n, hn, rfl⟩ := List.mem_map.mp h
  exact ⟨n, lt_of_mem_numeral (by decide) hn, rfl⟩

theorem length_encodeQuantum (bytes : List ℕ) : (encodeQuantum bytes).length = 8 := by
  rw [encodeQuantum, List.length_map, length_numeral]

/-- Full quanta are not padded. -/
theorem encode_quanta {bytes : List ℕ} {count : ℕ} (h : bytes.length = 5 * count) :
    encode bytes = (pieces 5 count bytes).flatMap encodeQuantum := by
  have hleftover : bytes.length % 5 = 0 := by omega
  have hcount : bytes.length / 5 = count := by omega
  have hletters : ∀ letters : Text, letters.take letters.length = letters :=
    fun letters => List.take_length
  simp only [encode, hleftover, Nat.sub_zero, Nat.mod_self, List.replicate_zero, List.append_nil,
    hcount, List.getD_cons_zero, hletters]

theorem encode_letters {bytes : List ℕ} {count : ℕ} (h : bytes.length = 5 * count) {c : Char}
    (hc : c ∈ encode bytes) : ∃ n < 32, c = digit n := by
  rw [encode_quanta h, List.mem_flatMap] at hc
  obtain ⟨piece, -, hmem⟩ := hc
  exact mem_encodeQuantum hmem

theorem length_encode {bytes : List ℕ} {count : ℕ} (h : bytes.length = 5 * count) :
    (encode bytes).length = 8 * count := by
  have hquanta : ∀ part ∈ (pieces 5 count bytes).map encodeQuantum, part.length = 8 := by
    intro part hpart
    obtain ⟨piece, -, rfl⟩ := List.mem_map.mp hpart
    exact length_encodeQuantum piece
  rw [encode_quanta h, List.flatMap_def, List.length_flatten,
    List.map_congr_left (g := fun _ => 8) hquanta, List.map_const', List.sum_replicate,
    List.length_map, length_pieces, Nat.nsmul_eq_mul, Nat.mul_comm]

theorem mapM_ofDigit {digits : List ℕ} (h : ∀ n ∈ digits, n < 32) :
    (digits.map digit).mapM ofDigit = some digits := by
  induction digits with
  | nil => rfl
  | cons n rest ih =>
      rw [List.map_cons, List.mapM_cons, ofDigit_digit (h n List.mem_cons_self),
        ih fun m hm => h m (List.mem_cons_of_mem _ hm)]
      rfl

/-- The letters of five bytes are these bytes. -/
theorem numeral_value_quantum {bytes : List ℕ} (hlength : bytes.length = 5)
    (hbytes : ∀ byte ∈ bytes, byte < 256) :
    numeral 256 5 (value 32 (numeral 32 8 (value 256 bytes))) = bytes := by
  have hlt : value 256 bytes < 32 ^ 8 := by
    calc value 256 bytes < 256 ^ bytes.length := value_lt hbytes
      _ = 32 ^ 8 := by rw [hlength]; rfl
  have hvalue := numeral_value hbytes
  rw [hlength] at hvalue
  rw [value_numeral, Nat.mod_eq_of_lt hlt, hvalue]

theorem mapM_quanta (parts : List (List ℕ)) :
    (parts.map encodeQuantum).mapM (·.mapM ofDigit) =
      some (parts.map fun part => numeral 32 8 (value 256 part)) := by
  induction parts with
  | nil => rfl
  | cons part rest ih =>
      have hpart : (encodeQuantum part).mapM ofDigit = some (numeral 32 8 (value 256 part)) :=
        mapM_ofDigit fun n hn => lt_of_mem_numeral (by decide) hn
      rw [List.map_cons, List.mapM_cons, hpart, ih]
      rfl

/-- Full quanta of bytes are decoded as they were. -/
theorem decode_encode {bytes : List ℕ} {count : ℕ} (hlength : bytes.length = 5 * count)
    (hbytes : ∀ byte ∈ bytes, byte < 256) : decode (encode bytes) = some bytes := by
  have hparts : ∀ part ∈ pieces 5 count bytes, part.length = 5 :=
    fun part hpart => length_of_mem_pieces hlength hpart
  have hquanta : ∀ part ∈ (pieces 5 count bytes).map encodeQuantum, part.length = 8 := by
    intro part hpart
    obtain ⟨piece, -, rfl⟩ := List.mem_map.mp hpart
    exact length_encodeQuantum piece
  have hletters := length_encode hlength
  have hstrip : ((encode bytes).reverse.dropWhile (· = '=')).reverse = encode bytes := by
    rw [List.reverse_eq_iff, List.dropWhile_eq_self_iff]
    intro hne
    obtain ⟨n, hn, hc⟩ := encode_letters hlength (c := (encode bytes).reverse[0])
      (List.mem_reverse.mp (List.getElem_mem hne))
    rw [hc, decide_eq_true_eq]
    exact (digit_letter hn).1
  have hpieces : pieces 8 ((8 * count + 7) / 8) (encode bytes) =
      (pieces 5 count bytes).map encodeQuantum := by
    have hcount : (8 * count + 7) / 8 = ((pieces 5 count bytes).map encodeQuantum).length := by
      rw [List.length_map, length_pieces]
      omega
    rw [hcount, encode_quanta hlength, List.flatMap_def, pieces_flatten hquanta]
  have hdecoded : ((pieces 5 count bytes).map fun part => numeral 32 8 (value 256 part)).flatMap
      (fun digits => numeral 256 5 (value 32 digits)) = bytes := by
    rw [List.flatMap_def, List.map_map]
    conv_rhs => rw [← flatten_pieces hlength]
    refine congrArg List.flatten ?_
    conv_rhs => rw [← List.map_id (pieces 5 count bytes)]
    refine List.map_congr_left ?_
    intro part hpart
    refine numeral_value_quantum (hparts part hpart) ?_
    intro byte hbyte
    refine hbytes byte ?_
    rw [← flatten_pieces hlength]
    exact List.mem_flatten.mpr ⟨part, hpart, hbyte⟩
  simp only [decode, hletters, hstrip, hpieces, mapM_quanta]
  simp [hdecoded]

end Base32

end Support
