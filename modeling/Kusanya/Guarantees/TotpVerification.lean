import Kusanya.Model.Accounts
import Kusanya.Model.Totp

/-!
# Verification of one-time passwords

`verify_totp` is total and exact on ASCII text and away from the instants at which the sum of the
clock and thirty seconds is rounded up to the next period.  A code of digits of which one is not
ASCII raises `TypeError`.
-/

namespace Kusanya.Totp

open Support Api

/-! ## The value of a counter -/

theorem toUpper_alphabet {text : Text} (h : ∀ c ∈ text, ∃ n < 32, c = Base32.digit n) :
    text.map Char.toUpper = text := by
  conv_rhs => rw [← List.map_id text]
  refine List.map_congr_left ?_
  intro c hc
  obtain ⟨n, hn, rfl⟩ := h c hc
  exact (Base32.digit_letter hn).2.2

/-- The secret is decoded as the bytes that were drawn. -/
theorem decode_secret (strings : Strings) (urandom : Bytes20) :
    Base32.decode (strings.upper (generateSecret urandom) ++
      List.replicate ((8 - (generateSecret urandom).length % 8) % 8) '=') = some urandom.bytes := by
  have hlength : urandom.bytes.length = 5 * 4 := urandom.length
  have hletters : ∀ c ∈ generateSecret urandom, ∃ n < 32, c = Base32.digit n :=
    fun c hc => Base32.encode_letters hlength hc
  have hascii : ∀ c ∈ generateSecret urandom, c.toNat < 128 := by
    intro c hc
    obtain ⟨n, hn, rfl⟩ := hletters c hc
    exact (Base32.digit_letter hn).2.1
  have hupper : strings.upper (generateSecret urandom) = generateSecret urandom := by
    rw [strings.upper_ascii _ hascii, toUpper_alphabet hletters]
  have hsize : (generateSecret urandom).length = 32 := by
    rw [generateSecret, Base32.length_encode hlength]
  rw [hupper, hsize]
  exact (congrArg Base32.decode (List.append_nil _)).trans
    (Base32.decode_encode hlength urandom.byte)

/-- The four bytes at the offset are there. -/
theorem unpackI_digest (digest : Bytes20) :
    unpackI ((digest.bytes.drop (digest.bytes.getLastD 0 &&& 0x0F)).take 4) =
      .ok (value 256 ((digest.bytes.drop (digest.bytes.getD 19 0 % 16)).take 4)) := by
  have hlast : digest.bytes.getLastD 0 = digest.bytes.getD 19 0 := by
    rw [List.getLastD_eq_getLast?, List.getLast?_eq_getElem?, digest.length,
      List.getD_eq_getElem?_getD]
  have hmask : digest.bytes.getLastD 0 &&& 0x0F = digest.bytes.getD 19 0 % 16 := by
    rw [hlast]
    exact Nat.and_two_pow_sub_one_eq_mod _ 4
  have hlength : ((digest.bytes.drop (digest.bytes.getD 19 0 % 16)).take 4).length = 4 := by
    rw [List.length_take, List.length_drop, digest.length]
    have := Nat.mod_lt (digest.bytes.getD 19 0) (show 0 < 16 by decide)
    omega
  rw [hmask, unpackI, if_pos hlength]

/-- The code of a generated secret is the standard's. -/
theorem hotp_generated (strings : Strings) (hmacSha1 : HmacSha1) (urandom : Bytes20) {counter : ℕ}
    (hcounter : counter < 2 ^ 64) :
    hotp strings hmacSha1 (generateSecret urandom) counter =
      .ok (Rfc4226.hotp hmacSha1 urandom.bytes counter) := by
  have hpack : packQ counter = .ok (numeral 256 8 counter) := if_pos hcounter
  have hmask : ∀ n : ℕ, n &&& 0x7FFFFFFF = n % 2 ^ 31 :=
    fun n => Nat.and_two_pow_sub_one_eq_mod n 31
  have hlt : ∀ n : ℕ, n % 10 ^ 6 < 10 ^ 6 := fun n => Nat.mod_lt n (by decide)
  simp only [hotp, decode_secret, hpack, unpackI_digest, hmask, bind, Except.bind, pure,
    Except.pure]
  exact congrArg Except.ok (zfill_decimal (by decide) (hlt _))

/-! ## The counters -/

/-- A period in ticks. -/
def periodTicks : ℕ := periodSeconds * ticksPerSecond

/-- The period of the clock. -/
def Clock.period (now : Clock) : ℕ := now.ticks / periodTicks

/-- The clock is the last double before a period, and thirty seconds later is past a power of two:
the sum is rounded up to the beginning of the period after the next one. -/
def Clock.Carries (now : Clock) : Prop :=
  ∃ j, now.ticks < 2 ^ j ∧ 2 ^ j ≤ now.ticks + periodTicks ∧
    now.ticks + 2 ^ (j - 53) = (now.period + 1) * periodTicks

/-- The counter that an offset leads to. -/
def Clock.counterAt (now : Clock) (offset : ℤ) : ℕ :=
  now.plus (offset * periodSeconds) / (periodSeconds * ticksPerSecond)

section Counters

variable (now : Clock)

theorem periodTicks_pos : 0 < periodTicks := by decide

/-- Up to a bound far from every clock, a period is a multiple of the unit. -/
theorem ulp_dvd_period {n : ℕ} (h : n < 2 ^ 101) : Doubles.ulp 53 n ∣ periodTicks :=
  (Doubles.ulp_dvd_two_pow (e := 48) h).trans ⟨30, by decide⟩

theorem Clock.ticks_lt : now.ticks < 2 ^ 82 := now.early

theorem Clock.period_le : now.period * periodTicks ≤ now.ticks := Nat.div_mul_le_self _ _

theorem Clock.lt_next : now.ticks < (now.period + 1) * periodTicks := by
  rw [Nat.mul_comm]
  exact Nat.lt_mul_div_succ _ periodTicks_pos

theorem Clock.plus_zero : now.plus 0 = now.ticks := by
  have htoNat : ((now.ticks : ℤ) + 0 * ticksPerSecond).toNat = now.ticks := by simp
  rw [Clock.plus, htoNat, now.double]

theorem Clock.plus_period :
    now.plus periodSeconds = Doubles.nearest 53 (now.ticks + periodTicks) := by
  have htoNat : ((now.ticks : ℤ) + (periodSeconds : ℤ) * ticksPerSecond).toNat =
      now.ticks + periodTicks := by
    rw [periodTicks]
    omega
  rw [Clock.plus, htoNat]

/-- The difference is not rounded. -/
theorem Clock.minus_period : now.plus (-periodSeconds) = now.ticks - periodTicks := by
  have htoNat : ((now.ticks : ℤ) + (-(periodSeconds : ℤ)) * ticksPerSecond).toNat =
      now.ticks - periodTicks := by
    rw [periodTicks, Int.neg_mul]
    omega
  have hunit : Doubles.ulp 53 (now.ticks - periodTicks) ∣ now.ticks :=
    (Doubles.ulp_dvd (Nat.sub_le _ _)).trans (Doubles.ulp_dvd_of_nearest now.double)
  have hperiod : Doubles.ulp 53 (now.ticks - periodTicks) ∣ periodTicks := by
    refine ulp_dvd_period ?_
    have := now.ticks_lt
    omega
  rw [Clock.plus, htoNat]
  exact Doubles.nearest_of_dvd (Nat.dvd_sub hunit hperiod)

theorem Clock.counterAt_zero : now.counterAt 0 = now.period := by
  rw [Clock.counterAt, Int.zero_mul, now.plus_zero]
  rfl

theorem Clock.counterAt_neg : now.counterAt (-1) = now.period - 1 := by
  rw [Clock.counterAt, Int.neg_one_mul, now.minus_period]
  have hstep := Nat.div_eq_sub_div periodTicks_pos now.late
  rw [Clock.period, hstep, Nat.add_sub_cancel, periodTicks]

/-- The sum is between the beginnings of the next two periods. -/
theorem Clock.plus_bounds :
    (now.period + 1) * periodTicks ≤ now.plus periodSeconds ∧
      now.plus periodSeconds ≤ (now.period + 2) * periodTicks := by
  have hunit : Doubles.ulp 53 (now.ticks + periodTicks) ∣ periodTicks := by
    refine ulp_dvd_period ?_
    have hlt := now.ticks_lt
    have hperiod : periodTicks < 2 ^ 82 := by decide
    omega
  rw [now.plus_period]
  constructor
  · refine Doubles.le_nearest ?_ (hunit.trans (Nat.dvd_mul_left _ _))
    rw [Nat.succ_mul]
    exact Nat.add_le_add_right now.period_le _
  · refine Doubles.nearest_le ?_ (hunit.trans (Nat.dvd_mul_left _ _))
    have hlt := now.lt_next
    have hsucc : (now.period + 2) * periodTicks = (now.period + 1) * periodTicks + periodTicks := by
      ring
    omega

/-- The sum reaches the period after the next one exactly where the clock is at one of the instants
before a carry. -/
theorem Clock.carries_iff :
    now.plus periodSeconds = (now.period + 2) * periodTicks ↔ now.Carries := by
  have hnext := now.lt_next
  have hafter : (now.period + 2) * periodTicks = (now.period + 1) * periodTicks + periodTicks := by
    ring
  have hclock : 2 ^ 52 ≤ now.ticks := le_trans (by decide) now.late
  have hfourth : 4 * Doubles.ulp 53 now.ticks ∣ periodTicks := by
    have hunit : Doubles.ulp 53 now.ticks ∣ 2 ^ 46 := by
      refine Doubles.ulp_dvd_two_pow (now.ticks_lt.trans ?_)
      exact Nat.pow_lt_pow_right (by decide) (by decide)
    exact (Nat.mul_dvd_mul_left 4 hunit).trans ⟨30, by decide⟩
  have hrounds := Doubles.nearest_add_eq_iff (Doubles.ulp_dvd_of_nearest now.double)
    ((Nat.dvd_mul_left _ 4).trans hfourth) now.late
    (Nat.zero_lt_of_lt hclock) (Nat.lt_size.mpr hclock) (hfourth.trans (Nat.dvd_mul_left _ _))
    (show now.ticks + periodTicks < (now.period + 2) * periodTicks by omega)
  rw [now.plus_period, hrounds, Clock.Carries]
  refine exists_congr fun j => and_congr_right fun _ => and_congr_right fun _ => ?_
  omega

theorem Clock.counterAt_one :
    (now.Carries ∧ now.counterAt 1 = now.period + 2) ∨
      (¬now.Carries ∧ now.counterAt 1 = now.period + 1) := by
  obtain ⟨hlow, hhigh⟩ := now.plus_bounds
  have hcounter : now.counterAt 1 = now.plus periodSeconds / periodTicks := by
    rw [Clock.counterAt, Int.one_mul]
    rfl
  rw [← now.carries_iff, hcounter]
  by_cases hcarries : now.plus periodSeconds = (now.period + 2) * periodTicks
  · refine Or.inl ⟨hcarries, ?_⟩
    rw [hcarries, Nat.mul_div_cancel _ periodTicks_pos]
  · refine Or.inr ⟨hcarries, ?_⟩
    refine Nat.div_eq_of_lt_le hlow ?_
    exact Nat.lt_of_le_of_ne hhigh hcarries

end Counters

/-! ## The loop -/

section Loop

variable (strings : Strings) (hmacSha1 : HmacSha1) (now : Clock) (urandom : Bytes20) {code : Text}

/-- The code of the standard at an offset. -/
def codeAt (offset : ℤ) : Text := Rfc4226.hotp hmacSha1 urandom.bytes (now.counterAt offset)

theorem Clock.counterAt_lt (offset : ℤ) (h : offset ∈ offsets validWindow) :
    now.counterAt offset < 2 ^ 64 := by
  have hperiod : now.period < 2 ^ 34 := by
    refine Nat.div_lt_of_lt_mul (now.early.trans_le ?_)
    decide
  have hoffsets : offsets validWindow = [-1, 0, 1] := by decide
  rw [hoffsets] at h
  simp only [List.mem_cons, List.not_mem_nil, or_false] at h
  rcases h with rfl | rfl | rfl
  · rw [now.counterAt_neg]
    omega
  · rw [now.counterAt_zero]
    omega
  · rcases now.counterAt_one with ⟨-, hcounter⟩ | ⟨-, hcounter⟩
    · omega
    · omega

theorem isAscii_hotp (key : List ℕ) (counter : ℕ) :
    ∀ c ∈ Rfc4226.hotp hmacSha1 key counter, c.isDigit = true ∧ c.toNat < 128 := by
  intro c hc
  have hdigit := Text.isDigit_of_mem_fixed (by decide) hc
  refine ⟨hdigit, ?_⟩
  simp only [Char.isDigit, Bool.and_eq_true, decide_eq_true_eq] at hdigit
  have hle : c.toNat ≤ '9'.toNat := hdigit.2
  exact hle.trans_lt (by decide)

theorem compareDigest_ascii {a b : Text} (ha : ∀ c ∈ a, c.toNat < 128)
    (hb : ∀ c ∈ b, c.toNat < 128) : compareDigest a b = .ok (decide (a = b)) := by
  have hall : ∀ {text : Text}, (∀ c ∈ text, c.toNat < 128) → text.all (·.toNat < 128) = true := by
    intro text htext
    exact List.all_eq_true.mpr fun c hc => decide_eq_true (htext c hc)
  rw [compareDigest, hall ha, hall hb]
  rfl

/-- On ASCII text the loop compares the code with those of the offsets. -/
theorem matchesAny_ascii (hascii : ∀ c ∈ code, c.toNat < 128) {l : List ℤ}
    (hl : ∀ offset ∈ l, offset ∈ offsets validWindow) :
    matchesAny strings hmacSha1 now (generateSecret urandom) code l =
      .ok (l.any fun offset => codeAt hmacSha1 now urandom offset = code) := by
  induction l with
  | nil => rfl
  | cons offset rest ih =>
      have hcandidate : generateTotp strings hmacSha1 (generateSecret urandom)
          (now.plus (offset * periodSeconds)) = .ok (codeAt hmacSha1 now urandom offset) :=
        hotp_generated strings hmacSha1 urandom
          (now.counterAt_lt offset (hl offset List.mem_cons_self))
      have hcompare : compareDigest (codeAt hmacSha1 now urandom offset) code =
          .ok (decide (codeAt hmacSha1 now urandom offset = code)) :=
        compareDigest_ascii
          (fun c hc => (isAscii_hotp hmacSha1 urandom.bytes (now.counterAt offset) c hc).2) hascii
      have hrest := ih fun offset hmem => hl offset (List.mem_cons_of_mem _ hmem)
      rw [matchesAny, hcandidate, List.any_cons]
      change (compareDigest (codeAt hmacSha1 now urandom offset) code >>= fun equal =>
        if equal = true then pure true else
          matchesAny strings hmacSha1 now (generateSecret urandom) code rest) = _
      rw [hcompare, hrest]
      by_cases heq : codeAt hmacSha1 now urandom offset = code
      · rw [decide_eq_true heq]
        rfl
      · rw [decide_eq_false heq]
        rfl

/-- Of other text the first comparison raises. -/
theorem matchesAny_raises (hcode : ∃ c ∈ code, 128 ≤ c.toNat) {offset : ℤ} (rest : List ℤ)
    (hoffset : offset ∈ offsets validWindow) :
    matchesAny strings hmacSha1 now (generateSecret urandom) code (offset :: rest) =
      .error .typeError := by
  have hcandidate : generateTotp strings hmacSha1 (generateSecret urandom)
      (now.plus (offset * periodSeconds)) = .ok (codeAt hmacSha1 now urandom offset) :=
    hotp_generated strings hmacSha1 urandom (now.counterAt_lt offset hoffset)
  have hcompare : compareDigest (codeAt hmacSha1 now urandom offset) code = .error .typeError := by
    obtain ⟨c, hc, hlarge⟩ := hcode
    have hnot : code.all (·.toNat < 128) = false := by
      rw [List.all_eq_false]
      exact ⟨c, hc, by simpa using hlarge⟩
    rw [compareDigest, hnot, Bool.and_false]
    rfl
  rw [matchesAny, hcandidate]
  change (compareDigest (codeAt hmacSha1 now urandom offset) code >>= fun equal =>
    if equal = true then pure true else
      matchesAny strings hmacSha1 now (generateSecret urandom) code rest) = _
  rw [hcompare]
  rfl

end Loop

/-! ## Totality and exactness -/

section Verification

variable (strings : Strings) (hmacSha1 : HmacSha1) (now : Clock) (urandom : Bytes20) (code : Text)

/-- `verify_totp` answers, and accepts exactly the codes of the period of the clock and of the two
around it. -/
def VerifiesExactly : Prop :=
  ∃ verified, verifyTotp strings hmacSha1 now (generateSecret urandom) code = .ok verified ∧
    (verified = true ↔ strip code ∈ [now.period - 1, now.period, now.period + 1].map
      (Rfc4226.hotp hmacSha1 urandom.bytes))

/-- The code consists of digits, and not all of them are ASCII. -/
def ForeignDigits : Prop :=
  isDigits strings (strip code) = true ∧ ∃ c ∈ strip code, 128 ≤ c.toNat

/-- The code is that of one of the two periods after the next period has begun, and not that of an
earlier one. -/
def Confused : Prop :=
  strip code ∉ [now.period - 1, now.period].map (Rfc4226.hotp hmacSha1 urandom.bytes) ∧
    (strip code = Rfc4226.hotp hmacSha1 urandom.bytes (now.period + 1) ↔
      strip code ≠ Rfc4226.hotp hmacSha1 urandom.bytes (now.period + 2))

/-- What is accepted where no digit is outside ASCII. -/
theorem verifyTotp_ascii (hforeign : ¬ForeignDigits strings code) :
    ∃ verified, verifyTotp strings hmacSha1 now (generateSecret urandom) code = .ok verified ∧
      (verified = true ↔ strip code ∈ [now.counterAt (-1), now.counterAt 0, now.counterAt 1].map
        (Rfc4226.hotp hmacSha1 urandom.bytes)) := by
  by_cases hdigits : isDigits strings (strip code) = true
  · have hne : code.isEmpty = false := by
      rw [← Bool.not_eq_true, List.isEmpty_iff]
      rintro rfl
      cases hdigits
    have hascii : ∀ c ∈ strip code, c.toNat < 128 := by
      intro c hc
      by_contra hlarge
      exact hforeign ⟨hdigits, c, hc, Nat.le_of_not_lt hlarge⟩
    have hloop := matchesAny_ascii strings hmacSha1 now urandom hascii
      (l := offsets validWindow) fun _ h => h
    refine ⟨(offsets validWindow).any fun offset => codeAt hmacSha1 now urandom offset = strip code,
      ?_, ?_⟩
    · rw [verifyTotp, hne, hdigits]
      exact hloop
    · have hoffsets : offsets validWindow = [-1, 0, 1] := by decide
      simp only [hoffsets, List.any_cons, List.any_nil, Bool.or_false, Bool.or_eq_true,
        decide_eq_true_eq, List.map_cons, List.map_nil, List.mem_cons, List.not_mem_nil, or_false,
        codeAt, eq_comm (b := strip code)]
  · have hnone : ∀ counter, strip code ≠ Rfc4226.hotp hmacSha1 urandom.bytes counter := by
      intro counter heq
      apply hdigits
      have hall : (strip code).all strings.isDigit = true := by
        rw [List.all_eq_true, heq]
        intro c hc
        obtain ⟨hdigit, hlt⟩ := isAscii_hotp hmacSha1 urandom.bytes counter c hc
        rw [strings.isDigit_ascii c hlt, hdigit]
      have hlength : (strip code).length = 6 := by
        rw [heq]
        exact Text.length_fixed _ _ _
      have hne : (strip code).isEmpty = false := by
        rw [← Bool.not_eq_true, List.isEmpty_iff]
        intro hnil
        rw [hnil] at hlength
        cases hlength
      rw [isDigits, hne, hall]
      rfl
    refine ⟨false, ?_, ?_⟩
    · rw [verifyTotp, if_pos (by simp [hdigits])]
    · simp [hnone]

theorem verifyTotp_raises (hforeign : ForeignDigits strings code) :
    verifyTotp strings hmacSha1 now (generateSecret urandom) code = .error .typeError := by
  obtain ⟨hdigits, hcode⟩ := hforeign
  have hne : code.isEmpty = false := by
    rw [← Bool.not_eq_true, List.isEmpty_iff]
    rintro rfl
    cases hdigits
  rw [verifyTotp, hne, hdigits]
  exact matchesAny_raises strings hmacSha1 now urandom hcode _ (by decide)

/-- `verify_totp` is total and exact on a code that has no digits outside ASCII, unless its sum with
the clock is rounded up and the code is that of one of the two periods that this confuses. -/
theorem verify_totp_exact :
    VerifiesExactly strings hmacSha1 now urandom code ↔
      ¬ForeignDigits strings code ∧ ¬(now.Carries ∧ Confused hmacSha1 now urandom code) := by
  by_cases hforeign : ForeignDigits strings code
  · constructor
    · rintro ⟨verified, hverified, -⟩
      rw [verifyTotp_raises strings hmacSha1 now urandom code hforeign] at hverified
      cases hverified
    · rintro ⟨hnot, -⟩
      exact absurd hforeign hnot
  · obtain ⟨verified, hverified, haccepts⟩ :=
      verifyTotp_ascii strings hmacSha1 now urandom code hforeign
    have hexact : VerifiesExactly strings hmacSha1 now urandom code ↔
        (strip code ∈ [now.counterAt (-1), now.counterAt 0, now.counterAt 1].map
            (Rfc4226.hotp hmacSha1 urandom.bytes) ↔
          strip code ∈ [now.period - 1, now.period, now.period + 1].map
            (Rfc4226.hotp hmacSha1 urandom.bytes)) := by
      rw [← haccepts]
      constructor
      · rintro ⟨verified', hverified', hspec⟩
        rw [hverified] at hverified'
        rw [Except.ok.inj hverified']
        exact hspec
      · intro hspec
        exact ⟨verified, hverified, hspec⟩
    rw [hexact, now.counterAt_neg, now.counterAt_zero]
    simp only [List.map_cons, List.map_nil, List.mem_cons, List.not_mem_nil, or_false, Confused]
    have hconfused : ∀ a b c d : Prop,
        (a ∨ b ∨ d ↔ a ∨ b ∨ c) ↔ ¬(¬(a ∨ b) ∧ (c ↔ ¬d)) := by
      intro a b c d
      by_cases ha : a <;> by_cases hb : b <;> by_cases hc : c <;> by_cases hd : d <;>
        simp [ha, hb, hc, hd]
    rcases now.counterAt_one with ⟨hcarries, hcounter⟩ | ⟨hexactly, hcounter⟩
    · rw [hcounter, hconfused]
      simp only [hforeign, hcarries, not_false_eq_true, true_and, ne_eq]
    · rw [hcounter]
      simp only [hforeign, hexactly, not_false_eq_true, false_and, and_true]

end Verification

/-! ## Codes that raise, and a clock that carries -/

/-- `str` on ASCII, with the Arabic digits. -/
def arabicStrings : Strings where
  upper text := text.map Char.toUpper
  isDigit c := c.isDigit || (0x660 ≤ c.toNat && c.toNat ≤ 0x669)
  upper_ascii _ _ := rfl
  isDigit_ascii c hc := by
    have hnot : ¬0x660 ≤ c.toNat := by omega
    rw [decide_eq_false hnot, Bool.false_and, Bool.or_false]

def zeroBytes : Bytes20 where
  bytes := List.replicate 20 0
  length := by decide
  byte := by decide

/-- A clock in the summer of 2025. -/
def summerClock : Clock where
  ticks := 1753000000 * ticksPerSecond
  double := by decide +kernel
  late := by decide
  early := by decide

/-- Three Arabic digits. -/
theorem arabic_code_raises :
    ¬∀ (strings : Strings) (hmacSha1 : HmacSha1) (now : Clock) (urandom : Bytes20) (code : Text),
      VerifiesExactly strings hmacSha1 now urandom code := by
  intro hall
  obtain ⟨verified, hverified, -⟩ :=
    hall arabicStrings (fun _ _ => zeroBytes) summerClock zeroBytes "٣٣٣".toList
  have hforeign : ForeignDigits arabicStrings "٣٣٣".toList :=
    ⟨by decide, '٣', by decide, by decide⟩
  rw [verifyTotp_raises arabicStrings _ summerClock zeroBytes _ hforeign] at hverified
  cases hverified

/-- The last double before the period in which the clock passes `2 ^ 31` s. -/
def lastInstant : Clock where
  ticks := (2 ^ 31 - 8) * ticksPerSecond - 2 ^ 26
  double := by decide +kernel
  late := by decide
  early := by decide

example : lastInstant.counterAt 1 = lastInstant.period + 2 := by decide +kernel

/-! ## The model of the login -/

/-- The login's `verify_totp`, which counts whole microseconds, is this one where the sum is not
rounded up. -/
theorem verifyTotp_accounts (strings : Strings) (hmacSha1 : HmacSha1) (now : Clock)
    (urandom : Bytes20) (code : Text) {setting : Accounts.Setting} {time : Time}
    (hdigit : setting.isDigit = strings.isDigit)
    (hhotp : ∀ counter, setting.hotp (generateSecret urandom) counter =
      Rfc4226.hotp hmacSha1 urandom.bytes counter)
    (hperiod : time / 10 ^ 6 / Accounts.periodSeconds = now.period) (hcarries : ¬now.Carries) :
    Accounts.verifyTotp setting time (generateSecret urandom) code =
      match verifyTotp strings hmacSha1 now (generateSecret urandom) code with
      | .ok verified => pure verified
      | .error _ => .throw .typeError := by
  have hdigits : isDigits strings (strip code) =
      !((strip code).isEmpty || !(strip code).all setting.isDigit) := by
    rw [isDigits, hdigit, Bool.not_or, Bool.not_not]
  by_cases hforeign : ForeignDigits strings code
  · have hany : (strip code).any (fun c => 128 ≤ c.toNat) = true := by
      obtain ⟨c, hc, hlarge⟩ := hforeign.2
      exact List.any_eq_true.mpr ⟨c, hc, decide_eq_true hlarge⟩
    rw [verifyTotp_raises strings hmacSha1 now urandom code hforeign]
    have htest := hforeign.1
    rw [hdigits, Bool.not_eq_true'] at htest
    simp only [Accounts.verifyTotp, htest, hany]
    rfl
  · by_cases hall : isDigits strings (strip code) = true
    · obtain ⟨verified, hverified, haccepts⟩ :=
        verifyTotp_ascii strings hmacSha1 now urandom code hforeign
      have hnone : ¬(strip code).any (fun c => 128 ≤ c.toNat) = true := by
        intro hany
        obtain ⟨c, hc, hlarge⟩ := List.any_eq_true.mp hany
        exact hforeign ⟨hall, c, hc, of_decide_eq_true hlarge⟩
      have hcounter : now.counterAt 1 = now.period + 1 := by
        rcases now.counterAt_one with ⟨hyes, -⟩ | ⟨-, hcounter⟩
        · exact absurd hyes hcarries
        · exact hcounter
      rw [now.counterAt_neg, now.counterAt_zero, hcounter] at haccepts
      rw [hverified]
      rw [hdigits, Bool.not_eq_true'] at hall
      have hsame : ([now.period - 1, now.period, now.period + 1].any fun n =>
          setting.hotp (generateSecret urandom) n = strip code) = verified := by
        rw [Bool.eq_iff_iff, haccepts]
        simp only [List.any_cons, List.any_nil, Bool.or_false, Bool.or_eq_true, decide_eq_true_eq,
          List.map_cons, List.map_nil, List.mem_cons, List.not_mem_nil, or_false, hhotp,
          eq_comm (b := strip code)]
      simp only [Accounts.verifyTotp, hall, hnone, hperiod, hsame]
      rfl
    · have hrejects :
          verifyTotp strings hmacSha1 now (generateSecret urandom) code = .ok false := by
        rw [verifyTotp, if_pos (by simp [hall])]
      rw [hrejects]
      rw [hdigits, Bool.not_eq_true', Bool.not_eq_false] at hall
      simp only [Accounts.verifyTotp, hall]
      rfl

end Kusanya.Totp
