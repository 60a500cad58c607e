import Mathlib.Algebra.Order.Floor.Ring
import Mathlib.Data.Nat.Log
import Mathlib.Data.Rat.Floor
import Mathlib.Tactic.FieldSimp
import Mathlib.Tactic.Linarith
import Mathlib.Tactic.NormNum
import Mathlib.Tactic.Ring

/-!
# Decimal arithmetic

Decimals with a coefficient and an exponent, their product in a context of 28 digits, and
what a column with two decimals stores of them.
-/

namespace Support

/-- `decimal.Decimal`: `coefficient * 10 ^ exponent`. -/
structure Decimal where
  coefficient : ℤ
  exponent : ℤ
  deriving DecidableEq

/-- Without its last `k` digits, half to even: the rounding of the decimal context. -/
def roundHalfEven (n : ℤ) (k : ℕ) : ℤ :=
  let quotient := n.natAbs / 10 ^ k
  let rest := n.natAbs % 10 ^ k
  let up := 10 ^ k < 2 * rest ∨ (2 * rest = 10 ^ k ∧ quotient % 2 = 1)
  n.sign * ((if up then quotient + 1 else quotient : ℕ) : ℤ)

/-- Without its last `k` digits, half away from zero: the rounding of PostgreSQL. -/
def roundHalfAway (n : ℤ) (k : ℕ) : ℤ :=
  n.sign * ((n.natAbs + 10 ^ k / 2) / 10 ^ k : ℕ)

theorem sign_mul_pow (n : ℤ) (k : ℕ) : (n * 10 ^ k).sign = n.sign := by
  have hpos : (0 : ℤ) < 10 ^ k := pow_pos (by decide) k
  rw [Int.sign_mul, Int.sign_eq_one_of_pos hpos, mul_one]

theorem natAbs_mul_pow (n : ℤ) (k : ℕ) : (n * 10 ^ k).natAbs = n.natAbs * 10 ^ k := by
  rw [Int.natAbs_mul, Int.natAbs_pow]
  rfl

/-- Digits that are zero do not round. -/
theorem roundHalfEven_mul_pow (n : ℤ) (k : ℕ) : roundHalfEven (n * 10 ^ k) k = n := by
  have hpos : 0 < 10 ^ k := pow_pos (by decide) k
  unfold roundHalfEven
  rw [sign_mul_pow, natAbs_mul_pow, Nat.mul_div_cancel _ hpos, Nat.mul_mod_left]
  have hdown : ¬(10 ^ k < 2 * 0 ∨ 2 * 0 = 10 ^ k ∧ n.natAbs % 2 = 1) := by
    omega
  dsimp only
  rw [if_neg hdown]
  exact Int.sign_mul_natAbs n

theorem roundHalfAway_mul_pow (n : ℤ) (k : ℕ) : roundHalfAway (n * 10 ^ k) k = n := by
  have hpos : 0 < 10 ^ k := pow_pos (by decide) k
  have hhalf : 10 ^ k / 2 < 10 ^ k := Nat.div_lt_self hpos (by decide)
  rw [roundHalfAway, sign_mul_pow, natAbs_mul_pow, Nat.add_comm, Nat.add_mul_div_right _ _ hpos,
    Nat.div_eq_of_lt hhalf, Nat.zero_add]
  exact Int.sign_mul_natAbs n

namespace Decimal

/-- The result of an operation in the default context: at most 28 digits. -/
def inContext (d : Decimal) : Decimal :=
  if d.coefficient.natAbs < 10 ^ 28 then d
  else
    let extra := Nat.log 10 d.coefficient.natAbs - 27
    ⟨roundHalfEven d.coefficient extra, d.exponent + extra⟩

/-- `Decimal.__mul__`. -/
def mul (a b : Decimal) : Decimal :=
  inContext ⟨a.coefficient * b.coefficient, a.exponent + b.exponent⟩

/-- What a numeric column with two decimals stores, in hundredths. -/
def hundredths (d : Decimal) : ℤ :=
  if 0 ≤ d.exponent + 2 then d.coefficient * 10 ^ (d.exponent + 2).toNat
  else roundHalfAway d.coefficient (-(d.exponent + 2)).toNat

/-- The number of digits of `as_tuple()`; zero has one. -/
def digits (d : Decimal) : ℕ := Nat.log 10 d.coefficient.natAbs + 1

/-- The digits in all, before the point and after it. -/
def precision (d : Decimal) : ℕ × ℕ × ℕ :=
  if 0 ≤ d.exponent then (d.digits + d.exponent.natAbs, d.digits + d.exponent.natAbs, 0)
  else if d.exponent.natAbs < d.digits then
    (d.digits, d.digits - d.exponent.natAbs, d.exponent.natAbs)
  else (d.exponent.natAbs, 0, d.exponent.natAbs)

/-- No more than two decimals, zeros at the end apart. -/
def TwoPlaces (d : Decimal) : Prop :=
  0 ≤ d.exponent + 2 ∨ 10 ^ (-(d.exponent + 2)).toNat ∣ d.coefficient

instance (d : Decimal) : Decidable d.TwoPlaces := inferInstanceAs (Decidable (_ ∨ _))

/-! ## Values -/

def value (d : Decimal) : ℚ := d.coefficient * 10 ^ d.exponent

section Values

variable {a b d : Decimal}

theorem value_product (a b : Decimal) :
    value ⟨a.coefficient * b.coefficient, a.exponent + b.exponent⟩ = a.value * b.value := by
  have hten : (10 : ℚ) ≠ 0 := by norm_num
  rw [value, value, value, zpow_add₀ hten]
  push_cast
  ring

/-- When a decimal is `n` units of `10 ^ (-k)`, by its digits. -/
theorem value_eq_iff {n : ℤ} {k : ℕ} : d.value * 10 ^ k = n ↔
    (0 ≤ d.exponent + k ∧ d.coefficient * 10 ^ (d.exponent + k).toNat = n) ∨
      (d.exponent + k < 0 ∧ d.coefficient = n * 10 ^ (-(d.exponent + k)).toNat) := by
  have hten : (10 : ℚ) ≠ 0 := by norm_num
  have hshift : d.value * 10 ^ k = (d.coefficient : ℚ) * 10 ^ (d.exponent + k) := by
    rw [value, zpow_add₀ hten, zpow_natCast, mul_assoc]
  rw [hshift]
  rcases le_or_gt 0 (d.exponent + k) with hk | hk
  · obtain ⟨j, hj⟩ := Int.eq_ofNat_of_zero_le hk
    rw [or_iff_left fun h => hk.not_gt h.1, and_iff_right hk, hj, zpow_natCast,
      Int.toNat_natCast]
    exact_mod_cast Iff.rfl
  · obtain ⟨j, hj⟩ := Int.eq_ofNat_of_zero_le (neg_nonneg.mpr hk.le)
    have hneg : d.exponent + k = -(j : ℤ) := by omega
    have hne : (10 : ℚ) ^ j ≠ 0 := pow_ne_zero j hten
    rw [or_iff_right fun h => hk.not_ge h.1, and_iff_right hk, hneg, zpow_neg, zpow_natCast,
      neg_neg, Int.toNat_natCast, mul_inv_eq_iff_eq_mul₀ hne]
    exact_mod_cast Iff.rfl

theorem value_shift (n e : ℤ) (k : ℕ) : value ⟨n * 10 ^ k, e⟩ = value ⟨n, e + k⟩ := by
  have hten : (10 : ℚ) ≠ 0 := by norm_num
  rw [value, value, zpow_add₀ hten, zpow_natCast]
  push_cast
  ring

/-- The context rounds nothing off a number of ten-thousandths with at most 28 digits. -/
theorem value_inContext {n : ℤ} (h : d.value * 10 ^ 4 = n) (hn : n.natAbs < 10 ^ 28) :
    d.inContext.value = d.value := by
  by_cases hshort : d.coefficient.natAbs < 10 ^ 28
  · rw [inContext, if_pos hshort]
  · rw [inContext, if_neg hshort]
    dsimp only
    rcases value_eq_iff.mp h with ⟨-, hwhole⟩ | ⟨-, hlong⟩
    · have habs : n.natAbs = d.coefficient.natAbs * 10 ^ (d.exponent + (4 : ℕ)).toNat := by
        rw [← hwhole, natAbs_mul_pow]
      have hle : d.coefficient.natAbs ≤ n.natAbs := by
        rw [habs]
        exact Nat.le_mul_of_pos_right _ (pow_pos (by decide) _)
      omega
    · obtain ⟨j, hj⟩ : ∃ j, j = (-(d.exponent + (4 : ℕ))).toNat := ⟨_, rfl⟩
      obtain ⟨extra, hextra⟩ : ∃ k, k = Nat.log 10 d.coefficient.natAbs - 27 := ⟨_, rfl⟩
      rw [← hj] at hlong
      rw [← hextra]
      -- The digits that are rounded off are among the zeros at the end.
      have hdigits : extra ≤ j := by
        have hlt : d.coefficient.natAbs < 10 ^ (28 + j) := by
          rw [hlong, natAbs_mul_pow, pow_add]
          exact Nat.mul_lt_mul_of_pos_right hn (pow_pos (by decide) _)
        have hne : d.coefficient.natAbs ≠ 0 := by omega
        have hlog := Nat.log_lt_of_lt_pow hne hlt
        omega
      have hsplit : d.coefficient = n * 10 ^ (j - extra) * 10 ^ extra := by
        rw [hlong, mul_assoc, ← pow_add, Nat.sub_add_cancel hdigits]
      have hround : roundHalfEven d.coefficient extra = n * 10 ^ (j - extra) := by
        rw [hsplit, roundHalfEven_mul_pow]
      rw [hround, ← value_shift, ← hsplit]

/-- Rounding sees the value only. -/
theorem roundHalfAway_shift (n : ℤ) {k : ℕ} (hk : 0 < k) (j : ℕ) :
    roundHalfAway (n * 10 ^ j) (k + j) = roundHalfAway n k := by
  have hpos : 0 < 10 ^ j := pow_pos (by decide) j
  obtain ⟨half, hhalf⟩ : ∃ half, 10 ^ k = 2 * half := by
    obtain ⟨i, rfl⟩ := Nat.exists_eq_succ_of_ne_zero hk.ne'
    exact ⟨5 * 10 ^ i, by rw [pow_succ]; ring⟩
  have hdouble : 10 ^ (k + j) / 2 = half * 10 ^ j := by
    rw [pow_add, hhalf, Nat.mul_assoc, Nat.mul_div_cancel_left _ (by decide)]
  have hsingle : 10 ^ k / 2 = half := by
    rw [hhalf, Nat.mul_div_cancel_left _ (by decide)]
  rw [roundHalfAway, roundHalfAway, sign_mul_pow, natAbs_mul_pow, hdouble, hsingle, ← Nat.add_mul,
    pow_add, Nat.mul_div_mul_right _ _ hpos]

/-- What the column stores of a number of ten-thousandths. -/
theorem hundredths_of_value {n : ℤ} (h : d.value * 10 ^ 4 = n) :
    d.hundredths = roundHalfAway n 2 := by
  unfold hundredths
  by_cases hplaces : 0 ≤ d.exponent + 2
  · rw [if_pos hplaces]
    rcases value_eq_iff.mp h with ⟨-, hwhole⟩ | ⟨hlong, -⟩
    · have hexponent : (d.exponent + (4 : ℕ)).toNat = (d.exponent + 2).toNat + 2 := by omega
      rw [← hwhole, hexponent, pow_add, ← mul_assoc, roundHalfAway_mul_pow]
    · omega
  · rw [if_neg hplaces]
    have hpos : 0 < (-(d.exponent + 2)).toNat := by omega
    rcases value_eq_iff.mp h with ⟨hshort, hwhole⟩ | ⟨hlong, hzeros⟩
    · have htwo : 2 = (-(d.exponent + 2)).toNat + (d.exponent + (4 : ℕ)).toNat := by omega
      rw [← hwhole, htwo, roundHalfAway_shift _ hpos]
    · have hsplit : (-(d.exponent + 2)).toNat = 2 + (-(d.exponent + (4 : ℕ))).toNat := by omega
      rw [hsplit, hzeros, roundHalfAway_shift _ (by decide)]

/-- The column holds a decimal with two places exactly. -/
theorem TwoPlaces.value (h : d.TwoPlaces) : d.value * 10 ^ 2 = d.hundredths := by
  rw [value_eq_iff, hundredths]
  by_cases hplaces : 0 ≤ d.exponent + 2
  · rw [if_pos hplaces]
    exact Or.inl ⟨hplaces, rfl⟩
  · rw [if_neg hplaces]
    obtain ⟨n, hn⟩ := h.resolve_left hplaces
    rw [mul_comm] at hn
    refine Or.inr ⟨not_le.mp hplaces, ?_⟩
    rw [hn, roundHalfAway_mul_pow]
    rfl

/-- The product of two such decimals has four places, which the column rounds. -/
theorem hundredths_mul (ha : a.TwoPlaces) (hb : b.TwoPlaces)
    (h : (a.hundredths * b.hundredths).natAbs < 10 ^ 28) :
    (a.mul b).hundredths = roundHalfAway (a.hundredths * b.hundredths) 2 := by
  have hproduct : Decimal.value ⟨a.coefficient * b.coefficient, a.exponent + b.exponent⟩ *
      10 ^ 4 = ((a.hundredths * b.hundredths : ℤ) : ℚ) := by
    have hplaces : a.value * b.value * 10 ^ 4 = (a.value * 10 ^ 2) * (b.value * 10 ^ 2) := by
      ring
    rw [value_product, hplaces, ha.value, hb.value, Int.cast_mul]
  apply hundredths_of_value
  rw [mul, value_inContext hproduct h]
  exact hproduct

end Values

end Decimal

end Support
