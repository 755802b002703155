import Hawal.Lib.Framing
import Hawal.Transport.Crypto

/-!
# Frames

`core/transport/frame.go`. A frame on the wire is a 12-byte header
`[Magic 4B | Type 1B | StreamID 4B | PayloadLen 2B | PadLen 1B]`, the 4-byte length
of the encrypted body, and the body: payload and padding, encrypted together.

`writeFrame` gives the three slices `WriteFrame` passes to `w.Write`, in order; what
`crypto/rand` yields is its argument `Draws`. `readFrame` reads from the bytes that
have arrived so far; `Stop.short` is where `io.ReadFull` would wait for more, or
report the end of the input.
-/

namespace Hawal.Transport

open Hawal.Lib

/-- `MagicHeader`, `"HWL1"`. -/
def magicHeader : UInt32 := 0x48574C31

/-- `FrameHandshake`. -/
def frameHandshake : UInt8 := 0x01
/-- `FrameHandshakeAck`. -/
def frameHandshakeAck : UInt8 := 0x02
/-- `FrameData`. -/
def frameData : UInt8 := 0x03
/-- `FrameStreamOpen`. -/
def frameStreamOpen : UInt8 := 0x04
/-- `FrameStreamClose`. -/
def frameStreamClose : UInt8 := 0x05
/-- `FramePing`. -/
def framePing : UInt8 := 0x06
/-- `FramePong`. -/
def framePong : UInt8 := 0x07

/-- `MaxPayloadSize`, 32 KB per chunk. -/
def maxPayloadSize : ℕ := 32768
/-- `MaxPaddingSize`: up to 48 bytes random padding per frame. -/
def maxPaddingSize : ℕ := 48

/-- `Frame`. -/
structure Frame where
  /-- `Type`. -/
  type : UInt8
  /-- `StreamID`. -/
  streamID : UInt32 := 0
  /-- `Payload`. -/
  payload : List UInt8 := []
  deriving DecidableEq, Repr

/-! ### The header -/

/-- `binary.BigEndian.PutUint16`. -/
def putUint16 (v : UInt16) : List UInt8 := toBigEndian 2 v.toNat
/-- `binary.BigEndian.PutUint32`. -/
def putUint32 (v : UInt32) : List UInt8 := toBigEndian 4 v.toNat
/-- `binary.BigEndian.Uint16`. -/
def uint16 (b : List UInt8) : UInt16 := UInt16.ofNat (ofBigEndian b)
/-- `binary.BigEndian.Uint32`. -/
def uint32 (b : List UInt8) : UInt32 := UInt32.ofNat (ofBigEndian b)

@[simp] theorem length_putUint16 (v : UInt16) : (putUint16 v).length = 2 := length_toBigEndian 2 _
@[simp] theorem length_putUint32 (v : UInt32) : (putUint32 v).length = 4 := length_toBigEndian 4 _

@[simp] theorem uint16_putUint16 (v : UInt16) : uint16 (putUint16 v) = v := by
  rw [uint16, putUint16, ofBigEndian_toBigEndian_of_lt v.toNat_lt, UInt16.ofNat_toNat]

@[simp] theorem uint32_putUint32 (v : UInt32) : uint32 (putUint32 v) = v := by
  rw [uint32, putUint32, ofBigEndian_toBigEndian_of_lt v.toNat_lt, UInt32.ofNat_toNat]

/-- The header `WriteFrame` builds: the payload length is cut to 16 bits, the padding
length to 8. -/
def putHeader (f : Frame) (padLen : ℕ) : List UInt8 :=
  putUint32 magicHeader ++ [f.type] ++ putUint32 f.streamID ++
    putUint16 (UInt16.ofNat f.payload.length) ++ [UInt8.ofNat padLen]

/-- What `ReadFrame` takes from the header. -/
structure Header where
  /-- The first four bytes. -/
  magic : UInt32
  /-- The type byte. -/
  frameType : UInt8
  /-- The stream id. -/
  streamID : UInt32
  /-- The payload length. -/
  payloadLen : ℕ
  /-- The padding length. -/
  padLen : ℕ
  deriving DecidableEq, Repr

/-- The fields of a 12-byte header. -/
def getHeader (header : List UInt8) : Header where
  magic := uint32 (header.take 4)
  frameType := header.getD 4 0
  streamID := uint32 ((header.drop 5).take 4)
  payloadLen := (uint16 ((header.drop 9).take 2)).toNat
  padLen := (header.getD 11 0).toNat

@[simp] theorem length_putHeader (f : Frame) (padLen : ℕ) : (putHeader f padLen).length = 12 := by
  simp [putHeader]

theorem getHeader_putHeader (f : Frame) (padLen : ℕ) :
    getHeader (putHeader f padLen) =
      ⟨magicHeader, f.type, f.streamID, f.payload.length % 65536, padLen % 256⟩ := by
  have h5 : (putUint32 magicHeader).drop 5 = [] := List.drop_eq_nil_of_le (by simp)
  have h9 : (putUint32 magicHeader).drop 9 = [] := List.drop_eq_nil_of_le (by simp)
  simp [getHeader, putHeader, List.drop_append, h5, h9]

/-! ### Writing -/

/-- What `crypto/rand` yields in one `WriteFrame` call. -/
structure Draws where
  /-- The padding, its length drawn from `0..MaxPaddingSize`. -/
  padding : List UInt8
  /-- The nonce. -/
  nonce : List UInt8
  padding_le : padding.length ≤ maxPaddingSize
  nonce_length : nonce.length = nonceSize

/-- The padding a call adds. -/
def Draws.pad (d : Draws) (enablePadding : Bool) : List UInt8 := if enablePadding then d.padding else []

theorem Draws.length_pad_le (d : Draws) (enablePadding : Bool) :
    (d.pad enablePadding).length ≤ maxPaddingSize := by
  cases enablePadding with
  | false => exact Nat.zero_le _
  | true => exact d.padding_le

/-- Draws without padding, and a nonce of zeros. -/
def plainDraws : Draws := ⟨[], List.replicate 12 0, by decide, by decide⟩

/-- `WriteFrame`: the slices it passes to `w.Write`, in order. -/
def writeFrame (crypto : CryptoManager) (f : Frame) (enablePadding : Bool) (d : Draws) : List (List UInt8) :=
  let pad := d.pad enablePadding
  let encryptedBody := crypto.encrypt d.nonce (f.payload ++ pad)
  [putHeader f pad.length, putUint32 (UInt32.ofNat encryptedBody.length), encryptedBody]

/-! ### Reading -/

/-- The errors of `ReadFrame` other than the end of the input. -/
inductive ReadErr where
  /-- `"invalid magic header"`. -/
  | invalidMagic
  /-- `"frame length exceeds limit"`. -/
  | exceedsLimit
  /-- `Decrypt`'s error. -/
  | decrypt (e : CryptoErr)
  /-- `"decrypted body shorter than header specification"`. -/
  | bodyShort
  deriving DecidableEq, Repr

/-- The last step of `ReadFrame`: the frame that the header describes in the decrypted body. -/
def frameOf (h : Header) (body : List UInt8) : Except (Stop ReadErr) Frame :=
  if body.length < h.payloadLen + h.padLen then .error (.bad .bodyShort)
  else .ok ⟨h.frameType, h.streamID, body.take h.payloadLen⟩

/-- `ReadFrame`: one frame from the bytes `r`, and the bytes after it. -/
def readFrame (crypto : CryptoManager) (r : List UInt8) : Except (Stop ReadErr) (Frame × List UInt8) :=
  match readFull 12 r with
  | .error e => .error e
  | .ok (header, r) =>
    if (getHeader header).magic ≠ magicHeader then .error (.bad .invalidMagic)
    else
      match readFull 4 r with
      | .error e => .error e
      | .ok (encLenBuf, r) =>
        let encLen := (uint32 encLenBuf).toNat
        if maxPayloadSize + 1024 < encLen then .error (.bad .exceedsLimit)
        else
          match readFull encLen r with
          | .error e => .error e
          | .ok (encryptedBody, r) =>
            match crypto.decrypt encryptedBody with
            | .error e => .error (.bad (.decrypt e))
            | .ok body =>
              match frameOf (getHeader header) body with
              | .error e => .error e
              | .ok f => .ok (f, r)

/-- What `ReadFrame` makes of a message with any 12-byte header in front of a body
encrypted under its key: after the checks of the magic and of the length, the
header alone decides what is cut out of the body. -/
theorem readFrame_message {crypto : CryptoManager} {header nonce body : List UInt8}
    (hh : header.length = 12) (hn : nonce.length = nonceSize) (hb : body.length + 28 < 2 ^ 32)
    (rest : List UInt8) :
    readFrame crypto (header ++ (putUint32 (UInt32.ofNat (crypto.encrypt nonce body).length) ++
        (crypto.encrypt nonce body ++ rest))) =
      if (getHeader header).magic ≠ magicHeader then .error (.bad .invalidMagic)
      else if 33764 < body.length then .error (.bad .exceedsLimit)
      else
        match frameOf (getHeader header) body with
        | .error e => .error e
        | .ok f => .ok (f, rest) := by
  have hlen : (crypto.encrypt nonce body).length = body.length + 28 := CryptoManager.length_encrypt hn body
  have henc : (UInt32.ofNat (crypto.encrypt nonce body).length).toNat = body.length + 28 := by
    rw [hlen, UInt32.toNat_ofNat', Nat.mod_eq_of_lt hb]
  have hlim : (maxPayloadSize + 1024 < body.length + 28) = (33764 < body.length) := by
    rw [maxPayloadSize, eq_iff_iff]
    omega
  simp only [readFrame, readFull_append hh, readFull_append (length_putUint32 _), uint32_putUint32,
    henc, readFull_append hlen, CryptoManager.decrypt_encrypt hn, hlim]

end Hawal.Transport
