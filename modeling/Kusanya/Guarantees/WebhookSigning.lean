import Kusanya.Model.Signing
import Mathlib.Data.Set.Function

/-!
# Signed webhook bodies are canonical and unambiguous

Two payloads have the same body exactly if they differ in the order of object keys only,
and the body reads back as its payload, so a delivery that is retried with the payload
that the database gives back is signed like the first one.  Escaped, a high surrogate and
a low one behind it are the character that the two are in UTF-16: the strings with such a
pair are left out, and with them the integers that Python does not print.  A signature covers
one timestamp and one body: a timestamp has no dot, so the first dot of the signed text
ends it, whatever the body contains.
-/

namespace Kusanya

open Support

/-! ## Bodies -/

/-- A payload without floats, each object of which has each key once, as a `dict` does: no
string has a surrogate pair, and no integer more than 4300 digits. -/
structure Payload where
  value : PyJson
  plain : value.isPlain = true
  legible : value.allParts Str.isJoined JsonOf.isConvertible = true

/-- The payload with its keys sorted. -/
def Payload.sorted (p : Payload) : Payload where
  value := p.value.sortKeys
  plain := JsonOf.isPlain_sortKeys p.value p.plain
  legible := (JsonOf.allParts_sortKeys _ _ p.value).trans p.legible

theorem Payload.isPrintable (p : Payload) : IsPrintable p.value :=
  JsonOf.allParts_mono (fun _ _ => rfl) p.value p.legible

/-- Whatever is done with floats, the body reads back as the sorted payload. -/
theorem Payload.scan_body (parseFloat : Text → PyJson) (p : Payload) :
    ∃ body, canonicalBody p.value = .ok body ∧
      JsonOf.scanBytes parseFloat body = some p.sorted.value := by
  refine ⟨_, canonicalBody_ok p.isPrintable, ?_⟩
  rw [JsonOf.scanBytes, Text.decodeUtf8_utf8, Option.bind_some]
  exact JsonOf.scan_compact parseFloat p.sorted.plain p.sorted.legible

theorem canonicalBody_eq_iff (p q : Payload) :
    canonicalBody p.value = canonicalBody q.value ↔ JsonOf.Same p.value q.value := by
  rw [JsonOf.same_iff_sortKeys p.plain]
  constructor
  · intro h
    obtain ⟨body, hbody, hscan⟩ := p.scan_body fun _ => .null
    obtain ⟨body', hbody', hscan'⟩ := q.scan_body fun _ => .null
    rw [h, hbody'] at hbody
    obtain rfl := Except.ok.inj hbody
    exact Option.some.inj (hscan.symm.trans hscan')
  · intro h
    rw [canonicalBody_ok p.isPrintable, canonicalBody_ok q.isPrintable, JsonOf.compactDumps,
      JsonOf.compactDumps, h]

/-! ## Signatures -/

/-- A timestamp as `str(int(...))` writes it. -/
def IsTimestamp (t : Text) : Prop := ∀ c ∈ t, c.isDigit = true

/-- A signed text is taken apart in one way. -/
theorem signedText_inj {t t' x x' : Text} (ht : IsTimestamp t) (ht' : IsTimestamp t') :
    signedText t x = signedText t' x' ↔ t = t' ∧ x = x' := by
  constructor
  · intro h
    have hdot : ∀ x : Text, Text.StartsOff Char.isDigit ('.' :: x) := by
      intro x
      exact Text.startsOff_cons.mpr (by decide)
    obtain ⟨htime, hbody⟩ := Text.append_run ht ht' (hdot x) (hdot x') h
    exact ⟨htime, (List.cons.inj hbody).2⟩
  · rintro ⟨rfl, rfl⟩
    rfl

/-- Two payloads have one canonical body exactly if they are equal up to the order of
object keys, and the body parses as the payload.  On messages on which the HMAC of a
secret is injective, the signature of a timestamp and a body is accepted for that
timestamp and that body and for no other. -/
theorem webhook_signing :
    (∀ p q : Payload, canonicalBody p.value = canonicalBody q.value ↔ JsonOf.Same p.value q.value) ∧
    (∀ (parseFloat : Text → PyJson) (p : Payload), ∃ (body : List ℕ) (q : Payload),
      canonicalBody p.value = .ok body ∧ JsonOf.scanBytes parseFloat body = some q.value ∧
        JsonOf.Same p.value q.value) ∧
    ∀ (secret t t' x x' : Text) (messages : Set (List ℕ)),
      Set.InjOn (Sha256.hmac (Text.utf8 secret)) messages →
      Text.utf8 (signedText t x) ∈ messages → Text.utf8 (signedText t' x') ∈ messages →
      IsTimestamp t → IsTimestamp t' →
      ∃ signature accepted,
        buildSignature secret t (Text.utf8 x) = .ok signature ∧
        verifySignature secret t' (Text.utf8 x') signature = .ok accepted ∧
        (accepted = true ↔ t' = t ∧ Text.utf8 x' = Text.utf8 x) := by
  refine ⟨canonicalBody_eq_iff, ?_, ?_⟩
  · intro parseFloat p
    obtain ⟨body, hbody, hscan⟩ := p.scan_body parseFloat
    exact ⟨body, p.sorted, hbody, hscan, JsonOf.same_sortKeys p.value⟩
  · intro secret t t' x x' messages hinj hmem hmem' ht ht'
    have hverify : verifySignature secret t' (Text.utf8 x') (sign secret (signedText t x)) =
        .ok (sign secret (signedText t' x') == sign secret (signedText t x)) := by
      rw [verifySignature_utf8, verify_sign]
    refine ⟨_, _, buildSignature_utf8 secret t x, hverify, ?_⟩
    rw [beq_iff_eq, sign_eq_iff, hinj.eq_iff hmem' hmem, Text.utf8_injective.eq_iff,
      signedText_inj ht' ht, Text.utf8_injective.eq_iff]

/-- A high surrogate and a low one, two code points, and the one character that they are in
UTF-16 have one body. -/
theorem surrogatePair_signed_alike :
    ¬∀ p q : PyJson, p.isPlain = true → q.isPlain = true →
      (canonicalBody p = canonicalBody q ↔ JsonOf.Same p q) := by
  intro h
  have hsame := (h (.str [0xd83d, 0xde00]) (.str [0x1f600]) rfl rfl).mp (by decide +kernel)
  rw [JsonOf.Same] at hsame
  exact absurd hsame (by decide)

/-- A signature made at time 12345 with the secret `secret`, presented for another body. -/
theorem webhook_signing_tampered :
    ∃ signature accepted,
      buildSignature "secret".toList "12345".toList (Text.utf8 "{}".toList) = .ok signature ∧
      verifySignature "secret".toList "12345".toList (Text.utf8 "[]".toList) signature =
        .ok accepted ∧
      (accepted = true ↔ "12345".toList = "12345".toList ∧
        Text.utf8 "[]".toList = Text.utf8 "{}".toList) :=
  webhook_signing.2.2 "secret".toList "12345".toList "12345".toList "{}".toList "[]".toList
    {Text.utf8 (signedText "12345".toList "{}".toList),
      Text.utf8 (signedText "12345".toList "[]".toList)}
    (by
      have hne : Sha256.hmac (Text.utf8 "secret".toList)
            (Text.utf8 (signedText "12345".toList "{}".toList)) ≠
          Sha256.hmac (Text.utf8 "secret".toList)
            (Text.utf8 (signedText "12345".toList "[]".toList)) := by decide +kernel
      rw [Set.injOn_pair]
      exact fun h => absurd h hne)
    (Set.mem_insert _ _) (Set.mem_insert_of_mem _ rfl) (List.all_eq_true.mp (by decide))
    (List.all_eq_true.mp (by decide))

end Kusanya
