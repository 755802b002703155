import Hawal.Transport.Header

/-!
# The handshake

`core/transport/stealth.go`. A client writes one frame with the token in it and reads
one frame; the server reads one frame, compares it and writes one. `readAck` and
`readHello` are the reading halves of `PerformClientHandshake` and
`PerformServerHandshake`, with what they check. Of the answer the client checks only
the type; neither side sends anything that the other has chosen.

What can be said of a frame that `ReadFrame` returns when nobody forges ciphertexts is
`frameUnder_of_readFrame`: its body is that of an earlier call, and the rest is what the
header in front says.
-/

namespace Hawal.Transport

open Hawal.Lib

/-- `"HWL_HS:%s"` of the token. -/
def helloPayload (token : List UInt8) : List UInt8 := [0x48, 0x57, 0x4C, 0x5F, 0x48, 0x53, 0x3A] ++ token

/-- The frame that `PerformClientHandshake` writes. -/
def helloFrame (token : List UInt8) : Frame := ⟨frameHandshake, 0, helloPayload token⟩

/-- The frame that `PerformServerHandshake` writes; its payload is `"OK"`. -/
def ackFrame : Frame := ⟨frameHandshakeAck, 0, [0x4F, 0x4B]⟩

/-- The errors of the handshake's reading halves. -/
inductive HandshakeErr where
  /-- `ReadFrame`'s error. -/
  | read (e : ReadErr)
  /-- `"handshake rejected, type: %d"`. -/
  | rejected (type : UInt8)
  /-- `"unauthorized handshake payload"`. -/
  | unauthorized
  deriving DecidableEq, Repr

/-- `ReadFrame` in a handshake. -/
def readHandshake (crypto : CryptoManager) (r : List UInt8) : Except (Stop HandshakeErr) (Frame × List UInt8) :=
  match readFrame crypto r with
  | .error (.short m) => .error (.short m)
  | .error (.bad e) => .error (.bad (.read e))
  | .ok p => .ok p

/-- `PerformClientHandshake` after its `WriteFrame`. -/
def readAck (crypto : CryptoManager) (r : List UInt8) : Except (Stop HandshakeErr) (Frame × List UInt8) :=
  match readHandshake crypto r with
  | .error e => .error e
  | .ok (f, rest) => if f.type ≠ frameHandshakeAck then .error (.bad (.rejected f.type)) else .ok (f, rest)

/-- `PerformServerHandshake` up to its `WriteFrame`. -/
def readHello (crypto : CryptoManager) (expectedToken r : List UInt8) :
    Except (Stop HandshakeErr) (Frame × List UInt8) :=
  match readHandshake crypto r with
  | .error e => .error e
  | .ok (f, rest) =>
    if f.type ≠ frameHandshake ∨ f.payload ≠ helloPayload expectedToken then .error (.bad .unauthorized)
    else .ok (f, rest)

variable {crypto : CryptoManager} {r rest token : List UInt8} {f : Frame}

theorem readHandshake_eq_ok (h : readHandshake crypto r = .ok (f, rest)) : readFrame crypto r = .ok (f, rest) := by
  unfold readHandshake at h
  split at h
  · cases h
  · cases h
  · rename_i hr
    rw [hr, Except.ok.inj h]

theorem readAck_eq_ok (h : readAck crypto r = .ok (f, rest)) :
    readFrame crypto r = .ok (f, rest) ∧ f.type = frameHandshakeAck := by
  unfold readAck at h
  split at h
  · cases h
  · rename_i hr
    split_ifs at h with ht
    cases h
    exact ⟨readHandshake_eq_ok hr, not_not.mp ht⟩

theorem readHello_eq_ok (h : readHello crypto token r = .ok (f, rest)) :
    readFrame crypto r = .ok (f, rest) ∧ f.type = frameHandshake ∧ f.payload = helloPayload token := by
  unfold readHello at h
  split at h
  · cases h
  · rename_i hr
    split_ifs at h with ht
    cases h
    rw [not_or, not_not, not_not] at ht
    exact ⟨readHandshake_eq_ok hr, ht⟩

/-- The bytes that `ReadFrame` takes for the encrypted body. -/
def sealedOf (r : List UInt8) : List UInt8 := (r.drop 16).take (uint32 ((r.drop 12).take 4)).toNat

/-- What `ReadFrame` has read when it returns a frame. -/
theorem readFrame_eq_ok (h : readFrame crypto r = .ok (f, rest)) :
    16 ≤ r.length ∧ rest = (r.drop 16).drop (uint32 ((r.drop 12).take 4)).toNat ∧
      ∃ body, crypto.decrypt (sealedOf r) = .ok body ∧ frameOf (getHeader (r.take 12)) body = .ok f := by
  unfold readFrame at h
  split at h
  · cases h
  rename_i header r₁ hheader
  obtain ⟨h₁, rfl, rfl⟩ := readFull_eq_ok hheader
  split_ifs at h
  split at h
  · cases h
  rename_i lenBuf r₂ hlen
  obtain ⟨h₂, rfl, rfl⟩ := readFull_eq_ok hlen
  dsimp only at h
  split_ifs at h
  split at h
  · cases h
  rename_i ct r₃ hct
  obtain ⟨h₃, rfl, rfl⟩ := readFull_eq_ok hct
  split at h
  · cases h
  rename_i body hdec
  split at h
  · cases h
  rename_i g hg
  cases h
  rw [List.length_drop] at h₂
  have h16 : (r.drop 12).drop 4 = r.drop 16 := List.drop_drop
  rw [h16] at hdec ⊢
  exact ⟨by omega, rfl, body, hdec, hg⟩

/-- **A frame read where nobody forges**: its body is that of a call, under any header. -/
theorem frameUnder_of_readFrame {c : WriteCall} (h : readFrame crypto r = .ok (f, rest))
    (hc : c.encryptedBody crypto = sealedOf r) : ∃ header, header.length = 12 ∧ f = c.frameUnder header := by
  obtain ⟨hlen, -, body, hdec, hf⟩ := readFrame_eq_ok h
  refine ⟨r.take 12, by rw [List.length_take]; omega, ?_⟩
  rw [← hc, WriteCall.encryptedBody, CryptoManager.decrypt_encrypt c.draws.nonce_length, Except.ok.injEq] at hdec
  unfold frameOf at hf
  split_ifs at hf
  rw [← Except.ok.inj hf, hdec.symm]
  rfl

end Hawal.Transport
