import Kusanya.Model.Credentials
import Kusanya.Support.Doubles
import Kusanya.Support.Numerals

/-!
# One-time passwords

`apps.accounts.totp`, with the secret as base 32 and the clock as the double that `time.time()`
returns.  HMAC-SHA1 is a parameter, and so is what `str` knows of the characters outside ASCII.
-/

namespace Kusanya.Totp

open Support Api

/-! ## The platform -/

/-- `str.upper()`, and `str.isdigit()` character by character. -/
structure Strings where
  upper : Text → Text
  isDigit : Char → Bool
  upper_ascii : ∀ text : Text, (∀ c ∈ text, c.toNat < 128) → upper text = text.map Char.toUpper
  isDigit_ascii : ∀ c : Char, c.toNat < 128 → isDigit c = c.isDigit

/-- The twenty bytes of a SHA-1 digest, or of `os.urandom(20)`. -/
structure Bytes20 where
  bytes : List ℕ
  length : bytes.length = 20
  byte : ∀ byte ∈ bytes, byte < 256

/-- `hmac.new(key, message, hashlib.sha1).digest()`. -/
abbrev HmacSha1 := List ℕ → List ℕ → Bytes20

/-- Doubles from 16 s up are multiples of a tick. -/
def ticksPerSecond : ℕ := 2 ^ 48

/-- A value of `time.time()` after the first period.  The clock behind it counts nanoseconds in
64 bits. -/
structure Clock where
  ticks : ℕ
  double : Doubles.nearest 53 ticks = ticks
  late : 30 * ticksPerSecond ≤ ticks
  early : ticks < 2 ^ 34 * ticksPerSecond

/-- The sum of the clock and a number of seconds. -/
def Clock.plus (now : Clock) (seconds : ℤ) : ℕ :=
  Doubles.nearest 53 (now.ticks + seconds * ticksPerSecond).toNat

inductive TotpError where
  /-- From `base64.b32decode`. -/
  | binasciiError
  /-- From `struct.pack` and `struct.unpack`. -/
  | structError
  /-- From `hmac.compare_digest`, on text that is not ASCII. -/
  | typeError
  deriving DecidableEq

/-- `struct.pack(">Q", n)`. -/
def packQ (n : ℕ) : Except TotpError (List ℕ) :=
  if n < 2 ^ 64 then .ok (numeral 256 8 n) else .error .structError

/-- `struct.unpack(">I", bytes)[0]`. -/
def unpackI (bytes : List ℕ) : Except TotpError ℕ :=
  if bytes.length = 4 then .ok (value 256 bytes) else .error .structError

/-- `hmac.compare_digest`, of two texts. -/
def compareDigest (a b : Text) : Except TotpError Bool :=
  if a.all (·.toNat < 128) && b.all (·.toNat < 128) then .ok (a = b) else .error .typeError

/-! ## The module -/

def digits : ℕ := 6

def periodSeconds : ℕ := 30

def validWindow : ℕ := 1

/-- `generate_secret`, of the bytes that it draws. -/
def generateSecret (urandom : Bytes20) : Text := Base32.encode urandom.bytes

/-- `_hotp`. -/
def hotp (strings : Strings) (hmacSha1 : HmacSha1) (secretB32 : Text) (counter : ℕ) :
    Except TotpError Text := do
  let padding := List.replicate ((8 - secretB32.length % 8) % 8) '='
  let key ← match Base32.decode (strings.upper secretB32 ++ padding) with
    | some key => .ok key
    | none => .error .binasciiError
  let message ← packQ counter
  let digest := hmacSha1 key message
  let offset := digest.bytes.getLastD 0 &&& 0x0F
  let unpacked ← unpackI ((digest.bytes.drop offset).take 4)
  let truncated := unpacked &&& 0x7FFFFFFF
  pure (zfill digits (Text.decimal (truncated % 10 ^ digits)))

/-- `generate_totp`.  The quotient of two doubles of this size is exact before it is floored. -/
def generateTotp (strings : Strings) (hmacSha1 : HmacSha1) (secretB32 : Text) (forTime : ℕ) :
    Except TotpError Text :=
  hotp strings hmacSha1 secretB32 (forTime / (periodSeconds * ticksPerSecond))

/-- `str.isdigit()`. -/
def isDigits (strings : Strings) (text : Text) : Bool :=
  !text.isEmpty && text.all strings.isDigit

/-- The loop of `verify_totp`. -/
def matchesAny (strings : Strings) (hmacSha1 : HmacSha1) (now : Clock) (secretB32 code : Text) :
    List ℤ → Except TotpError Bool
  | [] => .ok false
  | offset :: rest => do
      let candidate ← generateTotp strings hmacSha1 secretB32 (now.plus (offset * periodSeconds))
      if ← compareDigest candidate code then pure true
      else matchesAny strings hmacSha1 now secretB32 code rest

/-- `range(-valid_window, valid_window + 1)`. -/
def offsets (validWindow : ℕ) : List ℤ :=
  (List.range (2 * validWindow + 1)).map fun n => (n : ℤ) - validWindow

/-- `verify_totp`. -/
def verifyTotp (strings : Strings) (hmacSha1 : HmacSha1) (now : Clock) (secretB32 code : Text) :
    Except TotpError Bool :=
  if code.isEmpty || !isDigits strings (strip code) then .ok false
  else matchesAny strings hmacSha1 now secretB32 (strip code) (offsets validWindow)

/-! ## What the standard says -/

namespace Rfc4226

/-- Dynamic truncation: the last 31 bits of the four bytes at the offset that the low-order four
bits of the last byte give. -/
def truncate (digest : Bytes20) : ℕ :=
  value 256 ((digest.bytes.drop (digest.bytes.getD 19 0 % 16)).take 4) % 2 ^ 31

/-- The six-digit value of a key at a counter. -/
def hotp (hmacSha1 : HmacSha1) (key : List ℕ) (counter : ℕ) : Text :=
  Text.fixed 10 6 (truncate (hmacSha1 key (numeral 256 8 counter)) % 10 ^ 6)

end Rfc4226

end Kusanya.Totp
