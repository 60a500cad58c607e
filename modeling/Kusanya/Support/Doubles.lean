import Mathlib.Data.Nat.Size
import Mathlib.Tactic.Ring

/-!
# Rounding to a number of significant bits

A binary floating-point number of `p` bits that is a multiple of some least unit is a natural
number of this unit, with at most `p` significant binary digits.  `nearest p` rounds a sum to the
nearest one, ties to even.
-/

namespace Support.Doubles

variable {p m n k : ℕ}

/-- The unit in the last place of the `p`-bit numbers at `n`. -/
def ulp (p n : ℕ) : ℕ := 2 ^ (n.size - p)

/-- The nearest number with at most `p` significant bits; of two, the one with an even last bit. -/
def nearest (p n : ℕ) : ℕ :=
  let q := n / ulp p n
  let r := n % ulp p n
  if 2 * r < ulp p n ∨ (2 * r = ulp p n ∧ q % 2 = 0) then q * ulp p n else (q + 1) * ulp p n

theorem ulp_pos (p n : ℕ) : 0 < ulp p n := Nat.two_pow_pos _

/-- Rounding goes down or up. -/
theorem nearest_cases (p n : ℕ) :
    (2 * (n % ulp p n) ≤ ulp p n ∧ nearest p n = ulp p n * (n / ulp p n)) ∨
      (ulp p n ≤ 2 * (n % ulp p n) ∧ nearest p n = ulp p n * (n / ulp p n + 1)) := by
  by_cases h : 2 * (n % ulp p n) < ulp p n ∨
      (2 * (n % ulp p n) = ulp p n ∧ n / ulp p n % 2 = 0)
  · refine Or.inl ⟨?_, ?_⟩
    · omega
    · rw [nearest, if_pos h, Nat.mul_comm]
  · refine Or.inr ⟨?_, ?_⟩
    · omega
    · rw [nearest, if_neg h, Nat.mul_comm]

/-- A tie goes to the even neighbour. -/
theorem nearest_tie (h : 2 * (n % ulp p n) = ulp p n) (hodd : n / ulp p n % 2 = 1) :
    nearest p n = ulp p n * (n / ulp p n + 1) := by
  rw [nearest, if_neg (by omega), Nat.mul_comm]

theorem ulp_dvd_nearest (p n : ℕ) : ulp p n ∣ nearest p n := by
  rcases nearest_cases p n with ⟨-, h⟩ | ⟨-, h⟩
  · exact ⟨_, h⟩
  · exact ⟨_, h⟩

/-- A multiple of the unit is not rounded. -/
theorem nearest_of_dvd (h : ulp p n ∣ n) : nearest p n = n := by
  have hr : n % ulp p n = 0 := Nat.mod_eq_zero_of_dvd h
  have hpos := ulp_pos p n
  rw [nearest, hr, if_pos (Or.inl (by omega))]
  exact Nat.div_mul_cancel h

/-- Rounding does not pass a multiple of the unit from below. -/
theorem nearest_le (hle : n ≤ k) (hk : ulp p n ∣ k) : nearest p n ≤ k := by
  by_cases heq : n = k
  · rw [nearest_of_dvd (heq ▸ hk), heq]
  · obtain ⟨c, rfl⟩ := hk
    have hq : n / ulp p n < c := Nat.div_lt_of_lt_mul (by omega)
    rcases nearest_cases p n with ⟨-, h⟩ | ⟨-, h⟩
    · rw [h]
      exact Nat.mul_le_mul_left _ hq.le
    · rw [h]
      exact Nat.mul_le_mul_left _ hq

/-- Rounding does not pass a multiple of the unit from above. -/
theorem le_nearest (hle : k ≤ n) (hk : ulp p n ∣ k) : k ≤ nearest p n := by
  obtain ⟨c, rfl⟩ := hk
  have hq : c ≤ n / ulp p n := by
    rw [Nat.le_div_iff_mul_le (ulp_pos p n), Nat.mul_comm]
    exact hle
  rcases nearest_cases p n with ⟨-, h⟩ | ⟨-, h⟩
  · rw [h]
    exact Nat.mul_le_mul_left _ hq
  · rw [h]
    exact Nat.mul_le_mul_left _ (hq.trans (Nat.le_succ _))

/-- The number is one of the `p`-bit numbers. -/
theorem ulp_dvd_of_nearest (h : nearest p n = n) : ulp p n ∣ n := by
  have hdvd := ulp_dvd_nearest p n
  rwa [h] at hdvd

/-- The unit of a smaller number divides that of a larger one. -/
theorem ulp_dvd (h : m ≤ n) : ulp p m ∣ ulp p n :=
  pow_dvd_pow 2 (Nat.sub_le_sub_right (Nat.size_le_size h) p)

theorem ulp_dvd_two_pow {e : ℕ} (h : n < 2 ^ (p + e)) : ulp p n ∣ 2 ^ e := by
  refine pow_dvd_pow 2 ?_
  have hsize := Nat.size_le.mpr h
  omega

/-- The unit doubles at each power of two. -/
theorem ulp_of_size {j : ℕ} (hlow : 2 ^ j ≤ n) (hhigh : n < 2 ^ (j + 1)) :
    ulp p n = 2 ^ (j + 1 - p) := by
  have hle : n.size ≤ j + 1 := Nat.size_le.mpr hhigh
  have hlt : j < n.size := Nat.lt_size.mpr hlow
  rw [ulp, Nat.le_antisymm hle hlt]

/-- A sum of two multiples of the unit is rounded up to a multiple of four units exactly where it is
half of its own unit below, which has then doubled. -/
theorem nearest_add_eq_iff (hn : ulp p n ∣ n) (hm : ulp p n ∣ m) (hle : m ≤ n) (hpos : 0 < n)
    (hsize : p ≤ n.size) (hk : 4 * ulp p n ∣ k) (hlt : n + m < k) :
    nearest p (n + m) = k ↔ ∃ j, n < 2 ^ j ∧ 2 ^ j ≤ n + m ∧ n + m + 2 ^ (j - p) = k := by
  obtain ⟨j, hj⟩ : ∃ j, n.size = j + 1 := by
    refine Nat.exists_eq_succ_of_ne_zero ?_
    intro hzero
    exact hpos.ne' (Nat.size_eq_zero.mp hzero)
  have hhigh : n < 2 ^ (j + 1) := hj ▸ Nat.lt_size_self n
  have hlow : 2 ^ j ≤ n := Nat.lt_size.mp (by omega)
  have hp : p ≤ j + 1 := hj ▸ hsize
  have hunit : ulp p n = 2 ^ (j + 1 - p) := ulp_of_size hlow hhigh
  have hulp := ulp_pos p n
  have hdvd : ulp p n ∣ n + m := Nat.dvd_add hn hm
  have hone : ∀ {i : ℕ}, n < 2 ^ i → j + 1 ≤ i := by
    intro i hi
    by_contra hij
    have hpow : 2 ^ i ≤ 2 ^ j := Nat.pow_le_pow_right (by decide) (by omega)
    omega
  by_cases hcross : 2 ^ (j + 1) ≤ n + m
  · -- the sum has one bit more than `n`, so that its last bit is lost
    have hbound : n + m < 2 ^ (j + 1 + 1) := by
      rw [pow_succ]
      omega
    have htwice : ulp p (n + m) = 2 * ulp p n := by
      rw [ulp_of_size hcross hbound, hunit, ← pow_succ']
      congr 1
      omega
    have hdivmod := Nat.div_add_mod (n + m) (ulp p (n + m))
    constructor
    · intro hround
      refine ⟨j + 1, hhigh, hcross, ?_⟩
      rcases nearest_cases p (n + m) with ⟨-, hdown⟩ | ⟨hhalf, hup⟩
      · omega
      · rw [hround, Nat.mul_succ] at hup
        have hrest : (n + m) % ulp p (n + m) < ulp p (n + m) := Nat.mod_lt _ (ulp_pos _ _)
        have hmultiple : ulp p n ∣ (n + m) % ulp p (n + m) := by
          rw [htwice]
          exact (Nat.dvd_mod_iff (Nat.dvd_mul_left _ 2)).mpr hdvd
        obtain ⟨c, hc⟩ := hmultiple
        have hc1 : c = 1 := by
          rw [hc, htwice] at hhalf hrest
          have hge : 1 ≤ c := by
            by_contra hzero
            have : c = 0 := by omega
            subst this
            omega
          have hlt2 : c < 2 := by
            by_contra htwo
            have hmul : ulp p n * 2 ≤ ulp p n * c := Nat.mul_le_mul_left _ (by omega)
            omega
          omega
        rw [hc1, Nat.mul_one] at hc
        rw [← hunit]
        omega
    · rintro ⟨i, hi, hcross', hhalf⟩
      have hij : i = j + 1 := by
        refine Nat.le_antisymm ?_ (hone hi)
        by_contra hij
        have hpow : 2 ^ (j + 1 + 1) ≤ 2 ^ i := Nat.pow_le_pow_right (by decide) (by omega)
        omega
      rw [hij, ← hunit] at hhalf
      obtain ⟨c, hc⟩ := hk
      have hcpos : 0 < c := by
        by_contra hzero
        have : c = 0 := by omega
        subst this
        omega
      obtain ⟨b, rfl⟩ : ∃ b, c = b + 1 := ⟨c - 1, by omega⟩
      have hexpand : n + m + ulp p n = ulp p (n + m) * (2 * b + 1) + ulp p n + ulp p n := by
        rw [hhalf, hc, htwice]
        ring
      have hsum : n + m = ulp p n + ulp p (n + m) * (2 * b + 1) := by omega
      have hsmall : ulp p n < ulp p (n + m) := by omega
      have hq : (n + m) / ulp p (n + m) = 2 * b + 1 := by
        calc (n + m) / ulp p (n + m)
            = (ulp p n + ulp p (n + m) * (2 * b + 1)) / ulp p (n + m) := by rw [← hsum]
          _ = 2 * b + 1 := by
            rw [Nat.add_mul_div_left _ _ (ulp_pos _ _), Nat.div_eq_of_lt hsmall, Nat.zero_add]
      have hr : (n + m) % ulp p (n + m) = ulp p n := by
        rw [hq] at hdivmod
        omega
      rw [nearest_tie (by omega) (by omega), hq, htwice, hc]
      ring
  · -- the sum has the unit of `n`, and is exact
    have hsame : ulp p (n + m) = ulp p n := by
      rw [ulp_of_size (hlow.trans (Nat.le_add_right n m)) (by omega), hunit]
    rw [nearest_of_dvd (hsame ▸ hdvd)]
    constructor
    · intro heq
      omega
    · rintro ⟨i, hi, hcross', -⟩
      have hpow : 2 ^ (j + 1) ≤ 2 ^ i := Nat.pow_le_pow_right (by decide) (hone hi)
      omega

end Support.Doubles
