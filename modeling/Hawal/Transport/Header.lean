import Hawal.Transport.Codec

/-!
# What binds a header to its body

`WriteFrame` encrypts payload and padding, and `Seal` and `Open` get no additional
data, so the type byte, the stream id and both lengths stand outside what is
authenticated. `carrying` is the message of a call with another header in front.
`readFrame_carrying` says exactly what `ReadFrame` makes of it: the frame it returns
is the one the header in front describes, and of the body only this much is sure,
that the payload is a prefix of the payload and padding that were encrypted.
-/

namespace Hawal.Transport

open Hawal.Lib

/-- A message that carries the encrypted body of the call `c`, and its length, unchanged
behind `header`. -/
def WriteCall.carrying (crypto : CryptoManager) (c : WriteCall) (header : List UInt8) : List UInt8 :=
  header ++ (putUint32 (UInt32.ofNat (c.encryptedBody crypto).length) ++ c.encryptedBody crypto)

/-- The frame a header cuts out of a call's plaintext. -/
def WriteCall.frameUnder (c : WriteCall) (header : List UInt8) : Frame :=
  ⟨(getHeader header).frameType, (getHeader header).streamID, c.body.take (getHeader header).payloadLen⟩

/-- The headers `ReadFrame` accepts in front of a call's body. -/
def WriteCall.AdmitsHeader (c : WriteCall) (header : List UInt8) : Prop :=
  (getHeader header).magic = magicHeader ∧ c.Fits ∧
    (getHeader header).payloadLen + (getHeader header).padLen ≤ c.frame.payload.length + c.pad.length

theorem readFrame_carrying_eq_ok (crypto : CryptoManager) (c : WriteCall) {header : List UInt8}
    (hh : header.length = 12) (rest rest' : List UInt8) (g : Frame) :
    readFrame crypto (c.carrying crypto header ++ rest) = .ok (g, rest') ↔
      c.AdmitsHeader header ∧ g = c.frameUnder header ∧ rest' = rest := by
  have hbody : c.body.length = c.frame.payload.length + c.pad.length := List.length_append
  rw [WriteCall.carrying, List.append_assoc, List.append_assoc, WriteCall.encryptedBody,
    readFrame_message hh c.draws.nonce_length c.length_body_lt]
  unfold WriteCall.AdmitsHeader WriteCall.Fits frameOf WriteCall.frameUnder
  by_cases hm : (getHeader header).magic = magicHeader
  · by_cases hf : 33764 < c.body.length
    · simp [hm, hf, Nat.not_le.mpr hf, ← hbody]
    · by_cases hs : c.body.length < (getHeader header).payloadLen + (getHeader header).padLen
      · simp [hm, hf, hs, Nat.not_le.mpr hs, ← hbody]
      · simp only [hm, hf, hs, ne_eq, not_true_eq_false, if_false, Except.ok.injEq, Prod.mk.injEq,
          ← hbody, true_and, Nat.not_lt.mp hf, Nat.not_lt.mp hs]
        exact ⟨fun h => ⟨h.1.symm, h.2.symm⟩, fun h => ⟨h.1.symm, h.2.symm⟩⟩
  · simp [hm]

/-- A header cuts the call's own frame out of its body when it has the frame's type,
stream id and payload length. -/
theorem WriteCall.frameUnder_eq_frame (c : WriteCall) (header : List UInt8)
    (hlen : (getHeader header).payloadLen ≤ c.body.length) :
    c.frameUnder header = c.frame ↔ (getHeader header).frameType = c.frame.type ∧
      (getHeader header).streamID = c.frame.streamID ∧
      (getHeader header).payloadLen = c.frame.payload.length := by
  have hpay : c.body.take (getHeader header).payloadLen = c.frame.payload ↔
      (getHeader header).payloadLen = c.frame.payload.length := by
    constructor
    · intro h
      have := congrArg List.length h
      rwa [List.length_take, Nat.min_eq_left hlen] at this
    · intro h
      rw [h, WriteCall.body, List.take_left]
  rw [WriteCall.frameUnder, Frame.mk.injEq, hpay]

/-- **The header decides the frame**: behind any 12-byte header, a call's encrypted body
is accepted exactly when the header has the magic and its lengths fit the plaintext;
the frame returned has the header's type and stream id and as many bytes of the
plaintext as the header says. It is the frame that was written exactly when the
header has that frame's type, stream id and payload length; and of two accepted
messages with this body one payload is a prefix of the other. -/
theorem readFrame_carrying (crypto : CryptoManager) (c : WriteCall) :
    (∀ header rest rest' g, header.length = 12 →
      (readFrame crypto (c.carrying crypto header ++ rest) = .ok (g, rest') ↔
        c.AdmitsHeader header ∧ g = c.frameUnder header ∧ rest' = rest)) ∧
    (∀ header, c.AdmitsHeader header →
      (c.frameUnder header = c.frame ↔ (getHeader header).frameType = c.frame.type ∧
        (getHeader header).streamID = c.frame.streamID ∧
        (getHeader header).payloadLen = c.frame.payload.length)) ∧
    ∀ header₁ header₂, (c.frameUnder header₁).payload <+: (c.frameUnder header₂).payload ∨
      (c.frameUnder header₂).payload <+: (c.frameUnder header₁).payload := by
  refine ⟨fun header rest rest' g hh => readFrame_carrying_eq_ok crypto c hh rest rest' g,
    fun header h => c.frameUnder_eq_frame header ?_, fun header₁ header₂ => ?_⟩
  · have hsum := h.2.2
    rw [WriteCall.body, List.length_append]
    omega
  · rcases Nat.le_total (getHeader header₁).payloadLen (getHeader header₂).payloadLen with h | h
    · exact .inl (List.take_prefix_take_left h)
    · exact .inr (List.take_prefix_take_left h)

/-! ### A header rewritten on the path -/

/-- A data frame of stream 3. -/
def sampleCall : WriteCall := ⟨⟨frameData, 3, [1, 2, 3]⟩, false, plainDraws, by decide⟩

/-- A header that gives the first two bytes of `sampleCall`'s body to stream 5. -/
def sampleHeader : List UInt8 := putHeader ⟨frameData, 5, [1, 2]⟩ 0

/-- `sampleHeader` decides the frame. -/
theorem sampleCall_under_sampleHeader :
    readFrame sampleCrypto (sampleCall.carrying sampleCrypto sampleHeader ++ []) =
      .ok (⟨frameData, 5, [1, 2]⟩, []) :=
  ((readFrame_carrying sampleCrypto sampleCall).1 sampleHeader [] [] _ (length_putHeader _ _)).mpr
    ⟨⟨by decide, by decide, by decide⟩, by decide, rfl⟩

/-- The body of stream 3's data is accepted as stream 5's when the header says so:
`ReadFrame` does not return the frame that was written. -/
theorem not_header_integrity :
    ¬ ∀ (crypto : CryptoManager) (c : WriteCall) (header rest rest' : List UInt8) (g : Frame),
      header.length = 12 → readFrame crypto (c.carrying crypto header ++ rest) = .ok (g, rest') →
        g = c.frame := by
  intro h
  have hread : readFrame sampleCrypto
      (sampleCall.carrying sampleCrypto (putHeader ⟨frameData, 5, [1, 2, 3]⟩ 0) ++ []) =
        .ok (⟨frameData, 5, [1, 2, 3]⟩, []) := by decide
  exact absurd (h _ _ _ _ _ _ (length_putHeader _ _) hread) (by decide)

end Hawal.Transport
