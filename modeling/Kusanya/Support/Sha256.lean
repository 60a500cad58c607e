import Kusanya.Support.Text

/-!
# SHA-256

The hash function on lists of bytes, with 32-bit words as numbers below `2 ^ 32`.
-/

namespace Support.Sha256

def roundConstants : List ℕ :=
  [0x428a2f98, 0x71374491, 0xb5c0fbcf, 0xe9b5dba5, 0x3956c25b, 0x59f111f1, 0x923f82a4, 0xab1c5ed5,
   0xd807aa98, 0x12835b01, 0x243185be, 0x550c7dc3, 0x72be5d74, 0x80deb1fe, 0x9bdc06a7, 0xc19bf174,
   0xe49b69c1, 0xefbe4786, 0x0fc19dc6, 0x240ca1cc, 0x2de92c6f, 0x4a7484aa, 0x5cb0a9dc, 0x76f988da,
   0x983e5152, 0xa831c66d, 0xb00327c8, 0xbf597fc7, 0xc6e00bf3, 0xd5a79147, 0x06ca6351, 0x14292967,
   0x27b70a85, 0x2e1b2138, 0x4d2c6dfc, 0x53380d13, 0x650a7354, 0x766a0abb, 0x81c2c92e, 0x92722c85,
   0xa2bfe8a1, 0xa81a664b, 0xc24b8b70, 0xc76c51a3, 0xd192e819, 0xd6990624, 0xf40e3585, 0x106aa070,
   0x19a4c116, 0x1e376c08, 0x2748774c, 0x34b0bcb5, 0x391c0cb3, 0x4ed8aa4a, 0x5b9cca4f, 0x682e6ff3,
   0x748f82ee, 0x78a5636f, 0x84c87814, 0x8cc70208, 0x90befffa, 0xa4506ceb, 0xbef9a3f7, 0xc67178f2]

/-- Addition of words. -/
def add (x y : ℕ) : ℕ := (x + y) % 2 ^ 32

/-- Rotation of a word to the right by `n` places. -/
def rotr (n x : ℕ) : ℕ := (x >>> n) ||| ((x <<< (32 - n)) % 2 ^ 32)

def complement (x : ℕ) : ℕ := x ^^^ 0xffffffff

structure State where
  a : ℕ
  b : ℕ
  c : ℕ
  d : ℕ
  e : ℕ
  f : ℕ
  g : ℕ
  h : ℕ

def initial : State :=
  ⟨0x6a09e667, 0xbb67ae85, 0x3c6ef372, 0xa54ff53a, 0x510e527f, 0x9b05688c, 0x1f83d9ab, 0x5be0cd19⟩

def round : State → ℕ → ℕ → State
  | ⟨a, b, c, d, e, f, g, h⟩, k, w =>
      let s₁ := rotr 6 e ^^^ rotr 11 e ^^^ rotr 25 e
      let ch := (e &&& f) ^^^ (complement e &&& g)
      let t₁ := h + s₁ + ch + k + w
      let s₀ := rotr 2 a ^^^ rotr 13 a ^^^ rotr 22 a
      let maj := (a &&& b) ^^^ (a &&& c) ^^^ (b &&& c)
      ⟨add t₁ (s₀ + maj), a, b, c, add d t₁, e, f, g⟩

/-- The next word of the message schedule; `recent` has the latest word first. -/
def nextWord (recent : List ℕ) : ℕ :=
  let x := recent.getD 14 0
  let y := recent.getD 1 0
  let s₀ := rotr 7 x ^^^ rotr 18 x ^^^ (x >>> 3)
  let s₁ := rotr 17 y ^^^ rotr 19 y ^^^ (y >>> 10)
  add (recent.getD 15 0 + s₀) (recent.getD 6 0 + s₁)

def schedule : ℕ → List ℕ → List ℕ
  | 0, recent => recent.reverse
  | n + 1, recent => schedule n (nextWord recent :: recent)

def compress (s : State) (block : List ℕ) : State :=
  let t := (roundConstants.zip (schedule 48 block.reverse)).foldl
    (fun t kw => round t kw.1 kw.2) s
  ⟨add s.a t.a, add s.b t.b, add s.c t.c, add s.d t.d,
    add s.e t.e, add s.f t.f, add s.g t.g, add s.h t.h⟩

/-- Four bytes a word, most significant first. -/
def words : List ℕ → List ℕ
  | a :: b :: c :: d :: rest => (((a * 256 + b) * 256 + c) * 256 + d) :: words rest
  | _ => []

/-- The last `width` bytes of `n`, most significant first. -/
def bytes : ℕ → ℕ → List ℕ
  | 0, _ => []
  | width + 1, n => bytes width (n / 256) ++ [n % 256]

def pad (message : List ℕ) : List ℕ :=
  message ++ 0x80 :: List.replicate ((119 - message.length % 64) % 64) 0 ++
    bytes 8 (8 * message.length)

def blocks : ℕ → List ℕ → List (List ℕ)
  | 0, _ => []
  | n + 1, ws => ws.take 16 :: blocks n (ws.drop 16)

def digest (message : List ℕ) : List ℕ :=
  let ws := words (pad message)
  let s := (blocks (ws.length / 16) ws).foldl compress initial
  [s.a, s.b, s.c, s.d, s.e, s.f, s.g, s.h].flatMap (bytes 4)

/-- `hashlib.sha256(message).hexdigest()`. -/
def hexdigest (message : List ℕ) : Text :=
  (digest message).flatMap (Text.fixed 16 2)

theorem length_bytes (width n : ℕ) : (bytes width n).length = width := by
  induction width generalizing n with
  | zero => rfl
  | succ width ih => simp [bytes, ih]

theorem length_digest (message : List ℕ) : (digest message).length = 32 := by
  simp [digest, length_bytes]

theorem length_hexdigest (message : List ℕ) : (hexdigest message).length = 64 := by
  simp [hexdigest, List.length_flatMap, List.map_const', length_digest]

/-- The test vector of the standard. -/
example : digest (Text.utf8 ['a', 'b', 'c']) =
    [0xba, 0x78, 0x16, 0xbf, 0x8f, 0x01, 0xcf, 0xea, 0x41, 0x41, 0x40, 0xde, 0x5d, 0xae, 0x22, 0x23,
     0xb0, 0x03, 0x61, 0xa3, 0x96, 0x17, 0x7a, 0x9c, 0xb4, 0x10, 0xff, 0x61, 0xf2, 0x00, 0x15,
     0xad] := by
  decide +kernel

/-! ## HMAC -/

/-- The key brought to the length of a block. -/
def hmacKey (key : List ℕ) : List ℕ :=
  let key := if 64 < key.length then digest key else key
  key ++ List.replicate (64 - key.length) 0

/-- `hmac.new(key, message, sha256).digest()`. -/
def hmac (key message : List ℕ) : List ℕ :=
  digest ((hmacKey key).map (· ^^^ 0x5c) ++ digest ((hmacKey key).map (· ^^^ 0x36) ++ message))

/-- `bytes.hex()`. -/
def hex (bytes : List ℕ) : Text := bytes.flatMap (Text.fixed 16 2)

theorem bytes_lt {width n b : ℕ} (hb : b ∈ bytes width n) : b < 256 := by
  induction width generalizing n with
  | zero => cases hb
  | succ width ih =>
      rcases List.mem_append.mp hb with hb | hb
      · exact ih hb
      · obtain rfl := List.mem_singleton.mp hb
        exact Nat.mod_lt n (by decide)

theorem digest_lt {message : List ℕ} {b : ℕ} (hb : b ∈ digest message) : b < 256 := by
  obtain ⟨w, -, hw⟩ := List.mem_flatMap.mp hb
  exact bytes_lt hw

theorem hex_injective {bytes bytes' : List ℕ} (hlt : ∀ b ∈ bytes, b < 256)
    (hlt' : ∀ b ∈ bytes', b < 256) (h : hex bytes = hex bytes') : bytes = bytes' := by
  induction bytes generalizing bytes' with
  | nil =>
      cases bytes' with
      | nil => rfl
      | cons b' bytes' => cases h
  | cons b bytes ih =>
      cases bytes' with
      | nil => cases h
      | cons b' bytes' =>
          rw [hex, hex, List.flatMap_cons, List.flatMap_cons] at h
          obtain ⟨hhead, htail⟩ := List.append_inj h (by simp)
          have hb : b = b' := Text.fixed_injective (by decide) (by decide)
            (hlt b List.mem_cons_self) (hlt' b' List.mem_cons_self) hhead
          rw [hb, ih (fun c hc => hlt c (List.mem_cons_of_mem b hc))
            (fun c hc => hlt' c (List.mem_cons_of_mem b' hc)) htail]

/-- A test vector of the standard: the key `Jefe`. -/
example : hmac [0x4a, 0x65, 0x66, 0x65]
    (Text.utf8 "what do ya want for nothing?".toList) =
    [0x5b, 0xdc, 0xc1, 0x46, 0xbf, 0x60, 0x75, 0x4e, 0x6a, 0x04, 0x24, 0x26, 0x08, 0x95, 0x75, 0xc7,
     0x5a, 0x00, 0x3f, 0x08, 0x9d, 0x27, 0x39, 0x83, 0x9d, 0xec, 0x58, 0xb9, 0x64, 0xec, 0x38,
     0x43] := by
  decide +kernel

end Support.Sha256
