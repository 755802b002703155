import Hawal.Lib.Framing
import Mathlib.Tactic.SplitIfs

/-!
# Messages to the dashboard

`encode_ws_frame` puts a payload behind a header: a byte with the FIN bit and the opcode, and the
length in one of three forms. `decodeWsFrame` reads a frame back by the length rule of WebSocket,
which `handle_ws_dashboard` applies to headers as well. The two are a `Framing` (`framing`), so what
`broadcast_ws` writes to a connection, one message after the other, is told apart
(`decodeAll_encodeWsFrame`).
-/

namespace Hawal.Panel.WsFrames

open Hawal.Lib

/-! ### Lengths -/

/-- How a header states the length. -/
inductive LengthForm where
  /-- In the seven bits of its second byte. -/
  | seven
  /-- In the two bytes after it. -/
  | two
  /-- In the eight bytes after it. -/
  | eight
  deriving DecidableEq, Repr

namespace LengthForm

/-- The bytes after the first two. -/
def size : LengthForm → ℕ
  | .seven => 0
  | .two => 2
  | .eight => 8

/-- The form can state the length. -/
def Holds : LengthForm → ℕ → Prop
  | .seven, n => n ≤ 125
  | .two, n => n < 256 ^ 2
  | .eight, n => n < 256 ^ 8

/-- No shorter form can. -/
def Shortest (f : LengthForm) (n : ℕ) : Prop := f.Holds n ∧ ∀ g : LengthForm, g.Holds n → f.size ≤ g.size

/-- What the second byte of a header says, whatever its MASK bit. -/
def of (b : UInt8) : LengthForm :=
  if b &&& 0x7F = 126 then .two else if b &&& 0x7F = 127 then .eight else .seven

end LengthForm

/-- The length, from the second byte and the bytes after it. -/
def payloadLength (b : UInt8) (rawLen : List UInt8) : ℕ :=
  match LengthForm.of b with
  | .seven => (b &&& 0x7F).toNat
  | _ => ofBigEndian rawLen

/-- The form that `encode_ws_frame` chooses. -/
def formOf (length : ℕ) : LengthForm :=
  if length ≤ 125 then .seven else if length ≤ 65535 then .two else .eight

/-- The seven bits of the second byte. -/
def sevenBits (length : ℕ) : ℕ := if length ≤ 125 then length else if length ≤ 65535 then 126 else 127

/-- The bytes of the length after the second byte. -/
def rawLen (length : ℕ) : List UInt8 := toBigEndian (formOf length).size length

/-- `encode_ws_frame`. -/
def encodeWsFrame (payload : List UInt8) (opcode : UInt8) : List UInt8 :=
  let length := payload.length
  let header :=
    if length ≤ 125 then [0x80 ||| opcode, UInt8.ofNat length]
    else if length ≤ 65535 then [0x80 ||| opcode, 126] ++ toBigEndian 2 length
    else [0x80 ||| opcode, 127] ++ toBigEndian 8 length
  header ++ payload

/-- The parts of a frame. -/
theorem encodeWsFrame_eq (payload : List UInt8) (opcode : UInt8) :
    encodeWsFrame payload opcode =
      (0x80 ||| opcode) :: UInt8.ofNat (sevenBits payload.length) :: (rawLen payload.length ++ payload) := by
  unfold encodeWsFrame sevenBits rawLen formOf
  dsimp only
  split_ifs <;> rfl

theorem formOf_shortest {n : ℕ} (h : n < 256 ^ 8) : (formOf n).Shortest n := by
  unfold formOf
  split_ifs with h₁ h₂
  · exact ⟨h₁, fun g _ => Nat.zero_le _⟩
  · refine ⟨Nat.lt_succ_of_le h₂, fun g hg => ?_⟩
    cases g with
    | seven => exact absurd hg h₁
    | two => exact Nat.le_refl 2
    | eight => exact Nat.le_of_lt (by decide)
  · refine ⟨h, fun g hg => ?_⟩
    cases g with
    | seven => exact absurd hg h₁
    | two => exact absurd (Nat.le_of_lt_succ hg) h₂
    | eight => exact Nat.le_refl 8

theorem sevenBits_lt (n : ℕ) : sevenBits n < 128 := by
  unfold sevenBits
  split_ifs <;> omega

@[simp] theorem length_rawLen (n : ℕ) : (rawLen n).length = (formOf n).size := length_toBigEndian _ _

/-- The header with any MASK bit says which form it has. -/
theorem of_sevenBits {b : UInt8} {n : ℕ} (h : b &&& 0x7F = UInt8.ofNat (sevenBits n)) : LengthForm.of b = formOf n := by
  have hsmall : ∀ k : Fin 126, LengthForm.seven =
      if UInt8.ofNat k = 126 then .two else if UInt8.ofNat k = 127 then .eight else .seven := by decide
  rw [LengthForm.of, h, sevenBits, formOf]
  by_cases h₁ : n ≤ 125
  · rw [if_pos h₁, if_pos h₁]
    exact (hsmall ⟨n, Nat.lt_succ_of_le h₁⟩).symm
  · rw [if_neg h₁, if_neg h₁]
    by_cases h₂ : n ≤ 65535
    · rw [if_pos h₂, if_pos h₂]
      rfl
    · rw [if_neg h₂, if_neg h₂]
      rfl

/-- And which length. -/
theorem payloadLength_sevenBits {b : UInt8} {n : ℕ} (h : b &&& 0x7F = UInt8.ofNat (sevenBits n)) (hn : n < 256 ^ 8) :
    payloadLength b (rawLen n) = n := by
  rw [payloadLength, of_sevenBits h, h, rawLen, sevenBits, formOf]
  by_cases h₁ : n ≤ 125
  · rw [if_pos h₁, if_pos h₁]
    exact UInt8.toNat_ofNat_of_lt' (Nat.lt_of_le_of_lt h₁ (by decide))
  · rw [if_neg h₁]
    by_cases h₂ : n ≤ 65535
    · rw [if_pos h₂]
      exact ofBigEndian_toBigEndian_of_lt (Nat.lt_succ_of_le h₂)
    · rw [if_neg h₂]
      exact ofBigEndian_toBigEndian_of_lt hn

/-! ### Frames -/

/-- A frame as it is read: the bits of its header, and its payload. -/
structure Decoded where
  fin : Bool
  opcode : UInt8
  masked : Bool
  form : LengthForm
  payload : List UInt8
  deriving DecidableEq, Repr

/-- One frame without a mask, and what comes after it. -/
def decodeWsFrame : List UInt8 → Except (Stop Empty) (Decoded × List UInt8)
  | b₀ :: b₁ :: rest =>
    match readFull (LengthForm.of b₁).size rest with
    | .error e => .error e
    | .ok (raw, rest) =>
      match readFull (payloadLength b₁ raw) rest with
      | .error e => .error e
      | .ok (payload, rest) =>
        .ok (⟨b₀ &&& 0x80 != 0, b₀ &&& 0x0F, b₁ &&& 0x80 != 0, LengthForm.of b₁, payload⟩, rest)
  | bs => .error (.short (2 - bs.length))

/-- What `broadcast_ws` and the others encode. -/
structure Message where
  opcode : Fin 16
  payload : List UInt8
  length_lt : payload.length < 2 ^ 64

namespace Message

variable (m : Message)

/-- `encode_ws_frame`, of a message. -/
def bytes : List UInt8 := encodeWsFrame m.payload (UInt8.ofNat m.opcode)

/-- What is to be read back: the FIN bit and no mask, and the shortest form. -/
def decoded : Decoded := ⟨true, UInt8.ofNat m.opcode, false, formOf m.payload.length, m.payload⟩

theorem length_lt_bytes : m.payload.length < 256 ^ 8 := m.length_lt

/-- The bits of the first byte. -/
theorem first_byte : ((0x80 ||| UInt8.ofNat m.opcode) &&& 0x80 != 0) = true ∧
    (0x80 ||| UInt8.ofNat m.opcode) &&& 0x0F = UInt8.ofNat m.opcode := by
  have hall : ∀ o : Fin 16, ((0x80 ||| UInt8.ofNat o) &&& 0x80 != 0) = true ∧
      (0x80 ||| UInt8.ofNat o) &&& 0x0F = UInt8.ofNat o := by decide
  exact hall m.opcode

/-- The bits of the second byte. -/
theorem second_byte (n : ℕ) : (UInt8.ofNat (sevenBits n) &&& 0x80 != 0) = false ∧
    UInt8.ofNat (sevenBits n) &&& 0x7F = UInt8.ofNat (sevenBits n) := by
  have hall : ∀ k : Fin 128, (UInt8.ofNat k &&& 0x80 != 0) = false ∧ UInt8.ofNat k &&& 0x7F = UInt8.ofNat k := by
    decide
  exact hall ⟨sevenBits n, sevenBits_lt n⟩

theorem bytes_eq : m.bytes =
    (0x80 ||| UInt8.ofNat m.opcode) :: UInt8.ofNat (sevenBits m.payload.length) ::
      (rawLen m.payload.length ++ m.payload) := encodeWsFrame_eq _ _

/-- A frame is read back, and what comes after it is left alone. -/
theorem decodeWsFrame_bytes (rest : List UInt8) : decodeWsFrame (m.bytes ++ rest) = .ok (m.decoded, rest) := by
  have hof := of_sevenBits (second_byte m.payload.length).2
  have hlen := payloadLength_sevenBits (second_byte m.payload.length).2 m.length_lt_bytes
  rw [bytes_eq, List.cons_append, List.cons_append, List.append_assoc]
  simp only [decodeWsFrame, hof, readFull_append (length_rawLen m.payload.length), hlen,
    readFull_append (rfl : m.payload.length = m.payload.length), m.first_byte, (second_byte m.payload.length).1]
  rfl

/-- Of a part of a frame the reader asks for more. -/
theorem decodeWsFrame_part {p q : List UInt8} (h : m.bytes = p ++ q) (hq : q ≠ []) :
    ∃ k, decodeWsFrame p = .error (.short k) ∧ 0 < k ∧ k ≤ q.length := by
  have hq0 : 0 < q.length := List.length_pos_of_ne_nil hq
  have hlen := congrArg List.length h
  rw [bytes_eq] at h hlen
  simp only [List.length_cons, List.length_append, length_rawLen] at hlen
  rcases p with _ | ⟨b₀, _ | ⟨b₁, p⟩⟩
  · exact ⟨2, rfl, by decide, by simp only [List.length_nil] at hlen; omega⟩
  · exact ⟨1, rfl, by decide, hq0⟩
  · rw [List.cons_append, List.cons_append, List.cons.injEq, List.cons.injEq] at h
    obtain ⟨rfl, rfl, h⟩ := h
    have hof := of_sevenBits (second_byte m.payload.length).2
    have hpay := payloadLength_sevenBits (second_byte m.payload.length).2 m.length_lt_bytes
    simp only [List.length_cons] at hlen
    rcases readFull_part (ε := Empty) (length_rawLen _) h with ⟨hlt, hr⟩ | ⟨p', rfl, h', hr⟩
    · refine ⟨(formOf m.payload.length).size - p.length, ?_, by omega, by omega⟩
      simp only [decodeWsFrame, hof, hr]
    · rw [List.length_append, length_rawLen] at hlen
      have hshort : p'.length < m.payload.length := by omega
      refine ⟨m.payload.length - p'.length, ?_, by omega, by omega⟩
      simp only [decodeWsFrame, hof, hr, hpay, readFull_of_lt hshort]

end Message

/-- **`encode_ws_frame` and the length rule are a framing.** -/
def framing : Framing Message Decoded UInt8 Empty where
  put := Message.bytes
  item := Message.decoded
  get := decodeWsFrame
  Readable := fun _ => True
  get_nil := ⟨2, rfl⟩
  get_put rest _ := Message.decodeWsFrame_bytes _ rest
  get_bad _ h := absurd trivial h
  get_part _ _ h hq := .inl (Message.decodeWsFrame_part _ h hq)

/-- The frames of an input, when it is made of whole frames. -/
def decodeAll (bs : List UInt8) : Option (List Decoded) := framing.readAll bs.length bs

/-- **Messages are self-delimiting**: what is read of the frames of any messages, until nothing is left,
are the same messages, each with the FIN bit, no mask and the shortest form of its length. -/
theorem decodeAll_encodeWsFrame (ms : List Message) :
    decodeAll (ms.flatMap Message.bytes) = some (ms.map Message.decoded) ∧
      ∀ m ∈ ms, m.decoded.fin = true ∧ m.decoded.opcode.toNat = m.opcode ∧ m.decoded.payload = m.payload ∧
        m.decoded.masked = false ∧ m.decoded.form.Shortest m.payload.length := by
  have hall : ∀ m ∈ ms, framing.Readable m := fun _ _ => trivial
  constructor
  · exact framing.readAll_puts hall (framing.length_le_length_puts hall)
  · intro m _
    refine ⟨rfl, ?_, rfl, rfl, formOf_shortest m.length_lt_bytes⟩
    exact UInt8.toNat_ofNat_of_lt' (Nat.lt_trans m.opcode.isLt (by decide))

end Hawal.Panel.WsFrames
