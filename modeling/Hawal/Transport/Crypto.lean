import Hawal.Lib.Bytes
import Mathlib.Data.List.TakeDrop

/-!
# The crypto manager

`core/transport/crypto.go`. `CryptoManager` holds a `cipher.AEAD` (AES-256-GCM under
the SHA-256 of the token). AES-GCM itself is Go's library: here an `AEAD` is any
pair of sealing and opening functions with the two facts the code relies on,
opening undoes sealing and a sealed text is 16 bytes longer. `encrypt` puts the
12-byte nonce in front of the sealed text, and `decrypt` takes it off again. The
randomness `encrypt` draws is its argument.

Both pass `nil` as the additional data: nothing outside the plaintext is bound to
the ciphertext.
-/

namespace Hawal.Transport

/-- `aead.NonceSize()` of GCM. -/
def nonceSize : ℕ := 12

/-- The length of GCM's tag. -/
def overhead : ℕ := 16

/-- `cipher.AEAD`: `Seal` and `Open`, each of a nonce, a text and the additional data. -/
structure AEAD where
  /-- `Seal(nil, nonce, plaintext, additionalData)`. -/
  sealText : (nonce plaintext additionalData : List UInt8) → List UInt8
  /-- `Open(nil, nonce, ciphertext, additionalData)`; `none` is its error. -/
  openText : (nonce ciphertext additionalData : List UInt8) → Option (List UInt8)
  openText_sealText : ∀ nonce plaintext additionalData,
    openText nonce (sealText nonce plaintext additionalData) additionalData = some plaintext
  length_sealText : ∀ nonce plaintext additionalData,
    (sealText nonce plaintext additionalData).length = plaintext.length + overhead

/-- `CryptoManager` manages session-level encryption and decryption. -/
structure CryptoManager where
  /-- The cipher under the token's key. -/
  aead : AEAD

/-- The errors of `Decrypt`. -/
inductive CryptoErr where
  /-- `"ciphertext too short for nonce"`. -/
  | tooShort
  /-- `Open`'s error, `"cipher: message authentication failed"`. -/
  | authentication
  deriving DecidableEq, Repr

namespace CryptoManager

variable (cm : CryptoManager)

/-- `Encrypt`: `[Nonce | Ciphertext + Tag]`. -/
def encrypt (nonce plaintext : List UInt8) : List UInt8 := nonce ++ cm.aead.sealText nonce plaintext []

/-- `Decrypt` extracts the nonce and decrypts the ciphertext. -/
def decrypt (ciphertext : List UInt8) : Except CryptoErr (List UInt8) :=
  if ciphertext.length < nonceSize then .error .tooShort
  else
    match cm.aead.openText (ciphertext.take nonceSize) (ciphertext.drop nonceSize) [] with
    | some plaintext => .ok plaintext
    | none => .error .authentication

variable {cm}

theorem length_encrypt {nonce : List UInt8} (hn : nonce.length = nonceSize) (plaintext : List UInt8) :
    (cm.encrypt nonce plaintext).length = plaintext.length + 28 := by
  rw [encrypt, List.length_append, cm.aead.length_sealText, hn, nonceSize, overhead]
  omega

/-- `Decrypt(Encrypt(x)) = x`. -/
theorem decrypt_encrypt {nonce : List UInt8} (hn : nonce.length = nonceSize) (plaintext : List UInt8) :
    cm.decrypt (cm.encrypt nonce plaintext) = .ok plaintext := by
  have hlen : ¬ (cm.encrypt nonce plaintext).length < nonceSize := by
    rw [length_encrypt hn, nonceSize]
    omega
  rw [decrypt, if_neg hlen, encrypt, ← hn, List.take_left, List.drop_left,
    cm.aead.openText_sealText]

end CryptoManager

/-! ### A cipher to run the model with -/

/-- A one-byte sum of a list of bytes. -/
def byteSum (bs : List UInt8) : UInt8 := bs.foldl (· + ·) 0

/-- The tag of `sampleAEAD`: the sum of everything it covers, 16 times. -/
def sampleTag (nonce plaintext additionalData : List UInt8) : List UInt8 :=
  List.replicate overhead (byteSum nonce + byteSum plaintext + byteSum additionalData)

/-- An `AEAD` that can be run: the text with each byte masked, then the tag. -/
def sampleAEAD : AEAD where
  sealText nonce plaintext additionalData :=
    plaintext.map (· ^^^ 0x5A) ++ sampleTag nonce plaintext additionalData
  openText nonce ciphertext additionalData :=
    let n := ciphertext.length - overhead
    let plaintext := (ciphertext.take n).map (· ^^^ 0x5A)
    if overhead ≤ ciphertext.length ∧ ciphertext.drop n = sampleTag nonce plaintext additionalData then
      some plaintext
    else none
  openText_sealText nonce plaintext additionalData := by
    have hmask : ((· ^^^ 0x5A) ∘ (· ^^^ 0x5A) : UInt8 → UInt8) = id := by
      funext b
      show b ^^^ 0x5A ^^^ 0x5A = b
      rw [UInt8.xor_assoc, UInt8.xor_self, UInt8.xor_zero]
    have htag : (sampleTag nonce plaintext additionalData).length = overhead := List.length_replicate
    simp [htag, List.map_map, hmask]
  length_sealText nonce plaintext additionalData := by
    simp [sampleTag]

/-- The crypto manager over `sampleAEAD`. -/
def sampleCrypto : CryptoManager := ⟨sampleAEAD⟩

end Hawal.Transport
