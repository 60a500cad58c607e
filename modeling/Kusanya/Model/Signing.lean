import Kusanya.Support.JsonRoundTrip
import Kusanya.Support.Sha256

/-!
# Signatures

`apps.core.signing` and `apps.webhooks.signing`.  Bytes are numbers; a `str` is the list of
its characters, but for those of a payload, in which a surrogate may stand.
-/

namespace Kusanya

open Support

/-! ## `apps.core.signing` -/

/-- The exceptions of the signing functions. -/
inductive SigningError where
  | unicodeDecodeError
  | typeError
  | valueError
  deriving DecidableEq, Repr

def isAscii (text : Text) : Bool := text.all fun c => c.toNat < 0x80

/-- `hmac.compare_digest` of two `str`: only ASCII texts can be compared. -/
def compareDigest (a b : Text) : Except SigningError Bool :=
  if isAscii a && isAscii b then .ok (a == b) else .error .typeError

/-- `apps.core.signing.sign`. -/
def sign (secret message : Text) : Text :=
  Sha256.hex (Sha256.hmac (Text.utf8 secret) (Text.utf8 message))

/-- `apps.core.signing.verify`. -/
def verify (secret message signature : Text) : Except SigningError Bool :=
  if signature = [] then .ok false else compareDigest (sign secret message) signature

/-! ## `apps.webhooks.signing` -/

/-- What Python reads from JSON. -/
abbrev PyJson := JsonOf Str

/-- No integer is too long for `int.__repr__`. -/
def IsPrintable (payload : PyJson) : Prop :=
  payload.allParts (fun _ => true) JsonOf.isConvertible = true

instance (payload : PyJson) : Decidable (IsPrintable payload) :=
  inferInstanceAs (Decidable (_ = _))

/-- `apps.webhooks.signing.canonical_body`. -/
def canonicalBody (payload : PyJson) : Except SigningError (List ℕ) :=
  if IsPrintable payload then .ok (Text.utf8 (JsonOf.compactDumps JsonOf.quote payload))
  else .error .valueError

/-- The text that a webhook signature covers, given the decoded body. -/
def signedText (timestamp body : Text) : Text := timestamp ++ '.' :: body

/-- `f"{timestamp}.{body.decode('utf-8')}"`. -/
def signedMessage (timestamp : Text) (body : List ℕ) : Except SigningError Text :=
  match Text.decodeUtf8 body with
  | none => .error .unicodeDecodeError
  | some text => .ok (signedText timestamp text)

/-- `apps.webhooks.signing.build_signature`. -/
def buildSignature (secret timestamp : Text) (body : List ℕ) : Except SigningError Text := do
  let message ← signedMessage timestamp body
  pure (sign secret message)

/-- `apps.webhooks.signing.verify_signature`. -/
def verifySignature (secret timestamp : Text) (body : List ℕ) (signature : Text) :
    Except SigningError Bool := do
  let message ← signedMessage timestamp body
  verify secret message signature

/-! ## What the functions compute -/

theorem canonicalBody_ok {payload : PyJson} (h : IsPrintable payload) :
    canonicalBody payload = .ok (Text.utf8 (JsonOf.compactDumps JsonOf.quote payload)) :=
  if_pos h

theorem signedMessage_utf8 (timestamp text : Text) :
    signedMessage timestamp (Text.utf8 text) = .ok (signedText timestamp text) := by
  rw [signedMessage, Text.decodeUtf8_utf8]

theorem buildSignature_utf8 (secret timestamp text : Text) :
    buildSignature secret timestamp (Text.utf8 text) =
      .ok (sign secret (signedText timestamp text)) := by
  rw [buildSignature, signedMessage_utf8]
  rfl

theorem verifySignature_utf8 (secret timestamp text signature : Text) :
    verifySignature secret timestamp (Text.utf8 text) signature =
      verify secret (signedText timestamp text) signature := by
  rw [verifySignature, signedMessage_utf8]
  rfl

theorem length_sign (secret message : Text) : (sign secret message).length = 64 := by
  simp [sign, Sha256.hex, Sha256.hmac, List.length_flatMap, List.map_const', Sha256.length_digest]

theorem sign_ne_nil (secret message : Text) : sign secret message ≠ [] := by
  intro h
  have hlength := length_sign secret message
  rw [h] at hlength
  cases hlength

/-- A hexadecimal numeral is ASCII. -/
theorem isAscii_fixed (width n : ℕ) : isAscii (Text.fixed 16 width n) = true := by
  induction width generalizing n with
  | zero => rfl
  | succ width ih =>
      have hall : ∀ d < 16, (Nat.digitChar d).toNat < 0x80 := by decide
      have hinit := ih (n / 16)
      have hlast := hall (n % 16) (Nat.mod_lt n (by decide))
      simp only [isAscii] at hinit ⊢
      rw [Text.fixed, List.all_append, hinit]
      simpa using hlast

theorem isAscii_sign (secret message : Text) : isAscii (sign secret message) = true := by
  unfold isAscii sign Sha256.hex
  rw [List.all_flatMap, List.all_eq_true]
  intro b _
  exact isAscii_fixed 2 b

/-- A genuine signature is never refused with an exception. -/
theorem verify_sign (secret message message' : Text) :
    verify secret message' (sign secret message) =
      .ok (sign secret message' == sign secret message) := by
  rw [verify, if_neg (sign_ne_nil _ _), compareDigest, isAscii_sign, isAscii_sign]
  rfl

theorem sign_eq_iff (secret message message' : Text) :
    sign secret message = sign secret message' ↔
      Sha256.hmac (Text.utf8 secret) (Text.utf8 message) =
        Sha256.hmac (Text.utf8 secret) (Text.utf8 message') := by
  constructor
  · exact Sha256.hex_injective (fun _ hb => Sha256.digest_lt hb) fun _ hb => Sha256.digest_lt hb
  · intro h
    rw [sign, sign, h]

end Kusanya
