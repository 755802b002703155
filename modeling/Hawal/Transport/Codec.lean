import Hawal.Transport.Frame

/-!
# The frame codec over a connection

A `WriteCall` is one `WriteFrame` call: the frame, whether padding is on, and what
was drawn for it. `framing` shows that `WriteFrame` and `ReadFrame` are a `Framing`:
`ReadFrame` accepts exactly the calls whose payload and padding together fit its
limit (`WriteCall.Fits`), stops at their end, and on part of a message waits for more
of it. What this gives for a whole connection is `readFrames_written`.

`WriteFrame` checks none of its length fields. The 16-bit payload length is cut for
payloads of 65536 bytes and more, but for those the 32-bit body length is over the
reader's limit, so a cut length is never used.
-/

namespace Hawal.Transport

open Hawal.Lib

/-- The arguments of one `WriteFrame` call and what is drawn in it. Only below
`2³² – 76` bytes is the length of every padded, encrypted payload a `uint32`. -/
structure WriteCall where
  /-- The frame. -/
  frame : Frame
  /-- `enablePadding`. -/
  enablePadding : Bool
  /-- Padding and nonce. -/
  draws : Draws
  payload_lt : frame.payload.length < 2 ^ 32 - 76

namespace WriteCall

/-- The padding of the call. -/
def pad (c : WriteCall) : List UInt8 := c.draws.pad c.enablePadding

/-- The plaintext of the encrypted body. -/
def body (c : WriteCall) : List UInt8 := c.frame.payload ++ c.pad

/-- The encrypted body. -/
def encryptedBody (crypto : CryptoManager) (c : WriteCall) : List UInt8 :=
  crypto.encrypt c.draws.nonce c.body

/-- The bytes the call emits. -/
def bytes (crypto : CryptoManager) (c : WriteCall) : List UInt8 :=
  (writeFrame crypto c.frame c.enablePadding c.draws).flatten

/-- Payload and padding fit the reader's limit. -/
def Fits (c : WriteCall) : Prop := c.frame.payload.length + c.pad.length ≤ 33764

instance : DecidablePred Fits := fun _ => inferInstanceAs (Decidable (_ ≤ _))

theorem length_pad_le (c : WriteCall) : c.pad.length ≤ 48 := c.draws.length_pad_le c.enablePadding

theorem length_body_lt (c : WriteCall) : c.body.length + 28 < 2 ^ 32 := by
  have := c.payload_lt
  have := c.length_pad_le
  rw [body, List.length_append]
  omega

theorem bytes_eq (crypto : CryptoManager) (c : WriteCall) :
    c.bytes crypto = putHeader c.frame c.pad.length ++
      (putUint32 (UInt32.ofNat (c.encryptedBody crypto).length) ++ c.encryptedBody crypto) := by
  simp [bytes, writeFrame, encryptedBody, body, pad]

theorem bytes_ne_nil (crypto : CryptoManager) (c : WriteCall) : c.bytes crypto ≠ [] := by
  intro h
  have := congrArg List.length h
  rw [bytes_eq] at this
  simp at this

/-- The header a call writes describes its frame, when payload and padding fit. -/
theorem frameOf_putHeader {c : WriteCall} (h : c.Fits) :
    frameOf (getHeader (putHeader c.frame c.pad.length)) c.body = .ok c.frame := by
  have hp : c.frame.payload.length % 65536 = c.frame.payload.length :=
    Nat.mod_eq_of_lt (by unfold Fits at h; omega)
  have hq : c.pad.length % 256 = c.pad.length := Nat.mod_eq_of_lt (by have := c.length_pad_le; omega)
  rw [frameOf, getHeader_putHeader, hp, hq, body, List.length_append, if_neg (Nat.lt_irrefl _),
    List.take_left]

/-- `ReadFrame` gives back a call that fits. -/
theorem readFrame_bytes {crypto : CryptoManager} {c : WriteCall} (h : c.Fits) (rest : List UInt8) :
    readFrame crypto (c.bytes crypto ++ rest) = .ok (c.frame, rest) := by
  have hlim : ¬ 33764 < c.body.length := by
    rw [body, List.length_append]
    exact Nat.not_lt.mpr h
  rw [bytes_eq, List.append_assoc, List.append_assoc, encryptedBody,
    readFrame_message (length_putHeader _ _) c.draws.nonce_length c.length_body_lt, if_neg hlim,
    frameOf_putHeader h, getHeader_putHeader, if_neg (by simp)]

/-- `ReadFrame` rejects a call that does not. -/
theorem readFrame_oversized {crypto : CryptoManager} {c : WriteCall} (h : ¬ c.Fits) (rest : List UInt8) :
    readFrame crypto (c.bytes crypto ++ rest) = .error (.bad .exceedsLimit) := by
  have hlim : 33764 < c.body.length := by
    rw [body, List.length_append]
    exact Nat.not_le.mp h
  rw [bytes_eq, List.append_assoc, List.append_assoc, encryptedBody,
    readFrame_message (length_putHeader _ _) c.draws.nonce_length c.length_body_lt, if_pos hlim,
    getHeader_putHeader, if_neg (by simp)]

/-- On part of a message `ReadFrame` waits for more of it, or has seen that it is too long. -/
theorem readFrame_part {crypto : CryptoManager} {c : WriteCall} {p q : List UInt8}
    (h : c.bytes crypto = p ++ q) (hq : q ≠ []) :
    (∃ m, readFrame crypto p = .error (.short m) ∧ 0 < m ∧ m ≤ q.length) ∨
      ∃ e, readFrame crypto p = .error (.bad e) := by
  have hlen := congrArg List.length h
  rw [bytes_eq] at h hlen
  simp only [List.length_append, length_putHeader, length_putUint32] at hlen
  have hq0 : 0 < q.length := List.length_pos_iff.mpr hq
  rcases readFull_part (ε := ReadErr) (length_putHeader _ _) h with ⟨hlt, hr⟩ | ⟨p₁, rfl, h₁, hr⟩
  · refine .inl ⟨12 - p.length, ?_, by omega, by omega⟩
    simp only [readFrame, hr]
  rw [List.length_append, length_putHeader] at hlen
  rcases readFull_part (ε := ReadErr) (length_putUint32 _) h₁ with ⟨hlt, hr'⟩ | ⟨p₂, rfl, h₂, hr'⟩
  · refine .inl ⟨4 - p₁.length, ?_, by omega, by omega⟩
    simp only [readFrame, hr, hr', getHeader_putHeader, ne_eq, not_true_eq_false, if_false]
  rw [List.length_append, length_putUint32] at hlen
  have henc : (UInt32.ofNat (c.encryptedBody crypto).length).toNat = (c.encryptedBody crypto).length := by
    rw [UInt32.toNat_ofNat', encryptedBody, CryptoManager.length_encrypt c.draws.nonce_length,
      Nat.mod_eq_of_lt c.length_body_lt]
  by_cases hlim : maxPayloadSize + 1024 < (c.encryptedBody crypto).length
  · refine .inr ⟨.exceedsLimit, ?_⟩
    simp only [readFrame, hr, hr', getHeader_putHeader, ne_eq, not_true_eq_false, if_false,
      uint32_putUint32, henc, if_pos hlim]
  · refine .inl ⟨(c.encryptedBody crypto).length - p₂.length, ?_, by omega, by omega⟩
    have hshort : p₂.length < (c.encryptedBody crypto).length := by omega
    simp only [readFrame, hr, hr', getHeader_putHeader, ne_eq, not_true_eq_false, if_false,
      uint32_putUint32, henc, if_neg hlim, readFull_of_lt hshort]

end WriteCall

/-- **`WriteFrame` and `ReadFrame` are a framing.** -/
def framing (crypto : CryptoManager) : Framing WriteCall Frame UInt8 ReadErr where
  put := WriteCall.bytes crypto
  item := WriteCall.frame
  get := readFrame crypto
  Readable := WriteCall.Fits
  get_nil := ⟨12, rfl⟩
  get_put rest h := WriteCall.readFrame_bytes h rest
  get_bad rest h := ⟨.exceedsLimit, WriteCall.readFrame_oversized h rest⟩
  get_part _ _ h hq := WriteCall.readFrame_part h hq

instance (crypto : CryptoManager) : DecidablePred (framing crypto).Readable :=
  inferInstanceAs (DecidablePred WriteCall.Fits)

/-- The bytes that the `WriteFrame` calls of a connection emit. -/
def written (crypto : CryptoManager) (calls : List WriteCall) : List UInt8 := (framing crypto).puts calls

/-- `n` calls of `ReadFrame` one after the other: the frames, and the bytes after them. -/
def readFrames (crypto : CryptoManager) (n : ℕ) (r : List UInt8) :
    Except (Stop ReadErr) (List Frame × List UInt8) := (framing crypto).readN n r

/-- **The codec over a connection**: from what the calls wrote, followed by anything,
`ReadFrame` gives back the frames of the longest prefix of calls that fit its limit,
whole and in order, and uses exactly their bytes; when a call follows, the next
`ReadFrame` is an error. -/
theorem readFrames_written (crypto : CryptoManager) (calls : List WriteCall) (suffix : List UInt8) :
    readFrames crypto (calls.takeWhile WriteCall.Fits).length (written crypto calls ++ suffix) =
        .ok ((calls.takeWhile WriteCall.Fits).map WriteCall.frame,
          written crypto (calls.dropWhile WriteCall.Fits) ++ suffix) ∧
      ∀ c calls', calls.dropWhile WriteCall.Fits = c :: calls' →
        ∃ e, readFrame crypto (written crypto (calls.dropWhile WriteCall.Fits) ++ suffix) = .error (.bad e) :=
  (framing crypto).reads_flatten calls suffix

end Hawal.Transport
