import Kusanya.Support.Utf8

/-!
# Strings with surrogates

A `str` is a list of code points, and a surrogate may stand in it alone.  The texts are the
strings without surrogates; no column takes another.
-/

namespace Support

/-- A `str` by its code points, surrogates among them. -/
abbrev Str := List (Fin 0x110000)

namespace Str

def isHigh (c : Fin 0x110000) : Bool := 0xd800 ≤ c.val && c.val < 0xdc00

def isLow (c : Fin 0x110000) : Bool := 0xdc00 ≤ c.val && c.val < 0xe000

def isSurrogate (c : Fin 0x110000) : Bool := isHigh c || isLow c

/-- The code point of a character. -/
def ofChar (c : Char) : Fin 0x110000 := ⟨c.toNat, Text.toNat_lt c⟩

/-- The character of a code point, unless that is a surrogate. -/
def char? (c : Fin 0x110000) : Option Char :=
  if isSurrogate c then none else some (Char.ofNat c.val)

/-- The text of a string without surrogates. -/
def text? (s : Str) : Option Text := s.mapM char?

/-- No high surrogate is directly followed by a low one: in UTF-16 the two are one character. -/
def isJoined : Str → Bool
  | high :: low :: s => !(isHigh high && isLow low) && isJoined (low :: s)
  | _ => true

/-- A text column takes the string: it has no NUL and no surrogate. -/
def isStorable (s : Str) : Bool := s.all fun c => c.val ≠ 0 && !isSurrogate c

/-- A code point is a surrogate or that of its character. -/
theorem char?_cases (c : Fin 0x110000) :
    (isSurrogate c = true ∧ char? c = none) ∨ ∃ char, char? c = some char ∧ c = ofChar char := by
  by_cases hc : isSurrogate c = true
  · exact Or.inl ⟨hc, if_pos hc⟩
  · refine Or.inr ⟨Char.ofNat c.val, if_neg hc, Fin.ext ?_⟩
    have hvalid : c.val.isValidChar := by
      have hlt := c.isLt
      simp only [isSurrogate, isHigh, isLow, Bool.or_eq_true, Bool.and_eq_true,
        decide_eq_true_eq] at hc
      unfold Nat.isValidChar
      omega
    have hnat : (Char.ofNat c.val).toNat = c.val := by
      rw [Char.ofNat, dif_pos hvalid]
      rfl
    exact hnat.symm

theorem isJoined_tail {c : Fin 0x110000} {s : Str} (h : isJoined (c :: s) = true) :
    isJoined s = true := by
  cases s with
  | nil => rfl
  | cons d s =>
      rw [isJoined, Bool.and_eq_true] at h
      exact h.2

end Str

end Support
