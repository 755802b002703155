import Hawal.Transport.Codec

/-!
# Writing frames when things fail

`writeFrame` gives the slices of a `WriteFrame` that goes well. Here is the whole call, with what
it reaches outside the program (`Outside`): the random source, which `WriteFrame` asks for the
padding and `Encrypt` for the nonce, and the connection. Each may fail at any time.

`Outside.writeFrame` makes its three `w.Write` calls one after the other and stops at the first
error, so the connection has taken the bytes of the frame or a part of them, and nothing when the
draws failed (`writeFrame_made`). The error of `rand.Int` is dropped, and then its result is a nil
pointer, whose `Int64` panics (`Fault.noPadLen`).
-/

namespace Hawal.Transport

open Hawal.Lib

universe u v

/-- What a program reaches outside itself in some state `σ`: `crypto/rand`, and the connection.
The laws are those of `io.ReadFull` and of `io.Writer`. -/
structure Outside (σ : Type u) (ε : Type v) where
  /-- `rand.Int(rand.Reader, big.NewInt(MaxPaddingSize+1))`; `none` is its error. -/
  randInt : σ → Option (Fin (maxPaddingSize + 1)) × σ
  /-- `io.ReadFull(rand.Reader, b)` for a `b` of `n` bytes. -/
  readRand : (n : ℕ) → σ → Except ε { b : List UInt8 // b.length = n } × σ
  /-- `w.Write(p)`: how many bytes of `p` it has taken, and its error. -/
  write : List UInt8 → σ → (ℕ × Option ε) × σ
  write_le : ∀ p s, (write p s).1.1 ≤ p.length
  write_short : ∀ p s, (write p s).1.1 < p.length → (write p s).1.2 ≠ none

/-- How a `WriteFrame` call does not go well. -/
inductive Fault (ε : Type v) where
  /-- `n.Int64()` panics: `rand.Int` has returned a nil `n`. -/
  | noPadLen
  /-- It returns an error. -/
  | err (e : ε)
  deriving DecidableEq, Repr

/-- A `WriteFrame` call that was made. -/
structure FrameCall (ε : Type v) where
  /-- The frame. -/
  frame : Frame
  /-- The bytes that the connection has taken. -/
  out : List UInt8
  /-- How it failed, if it did. -/
  fault : Option (Fault ε)
  deriving DecidableEq, Repr

namespace Outside

variable {σ : Type u} {ε : Type v} (o : Outside σ ε)

/-- The padding: its length from `rand.Int`, its bytes from `io.ReadFull`. -/
def drawPadding (enablePadding : Bool) (s : σ) :
    Except (Fault ε) { b : List UInt8 // b.length ≤ maxPaddingSize } × σ :=
  if enablePadding then
    match o.randInt s with
    | (none, s) => (.error .noPadLen, s)
    | (some padLen, s) =>
      if 0 < padLen.val then
        match o.readRand padLen s with
        | (.error e, s) => (.error (.err e), s)
        | (.ok b, s) => (.ok ⟨b.val, b.property.le.trans (Nat.le_of_lt_succ padLen.isLt)⟩, s)
      else (.ok ⟨[], Nat.zero_le _⟩, s)
  else (.ok ⟨[], Nat.zero_le _⟩, s)

/-- All that is drawn before the first byte is written: the padding, and `Encrypt`'s nonce. -/
def draw (enablePadding : Bool) (s : σ) : Except (Fault ε) Draws × σ :=
  match o.drawPadding enablePadding s with
  | (.error e, s) => (.error e, s)
  | (.ok padding, s) =>
    match o.readRand nonceSize s with
    | (.error e, s) => (.error (.err e), s)
    | (.ok nonce, s) => (.ok ⟨padding.val, nonce.val, padding.property, nonce.property⟩, s)

/-- `w.Write` for one slice after the other, up to the first error: the bytes taken, and the error. -/
def writeSlices : List (List UInt8) → σ → (List UInt8 × Option ε) × σ
  | [], s => (([], none), s)
  | p :: ps, s =>
    match o.write p s with
    | ((n, some e), s) => ((p.take n, some e), s)
    | ((n, none), s) =>
      let q := writeSlices ps s
      ((p.take n ++ q.1.1, q.1.2), q.2)

/-- `WriteFrame`. -/
def writeFrame (crypto : CryptoManager) (f : Frame) (enablePadding : Bool) (s : σ) : FrameCall ε × σ :=
  match o.draw enablePadding s with
  | (.error e, s) => (⟨f, [], some e⟩, s)
  | (.ok d, s) =>
    let q := o.writeSlices (Hawal.Transport.writeFrame crypto f enablePadding d) s
    (⟨f, q.1.1, q.1.2.map .err⟩, q.2)

/-! ### What the connection has taken -/

variable {o}

/-- Without an error, `w.Write` takes all of `p`. -/
theorem write_whole {p : List UInt8} {s : σ} (h : (o.write p s).1.2 = none) : p.take (o.write p s).1.1 = p := by
  apply List.take_of_length_le
  by_contra hlt
  exact o.write_short p s (by omega) h

theorem writeSlices_out (ps : List (List UInt8)) (s : σ) :
    (o.writeSlices ps s).1.1 <+: ps.flatten ∧
      ((o.writeSlices ps s).1.2 = none → (o.writeSlices ps s).1.1 = ps.flatten) := by
  induction ps generalizing s with
  | nil => exact ⟨List.nil_prefix, fun _ => rfl⟩
  | cons p ps ih =>
    have hwhole := write_whole (o := o) (p := p) (s := s)
    unfold writeSlices
    split
    · rename_i n e s' hw
      refine ⟨?_, fun h => nomatch h⟩
      exact (List.take_prefix n p).trans (List.prefix_append p ps.flatten)
    · rename_i n s' hw
      rw [hw] at hwhole
      obtain ⟨hpre, hall⟩ := ih s'
      rw [List.flatten_cons, hwhole rfl]
      refine ⟨(List.prefix_append_right_inj p).mpr hpre, fun h => ?_⟩
      show p ++ (o.writeSlices ps s').1.1 = p ++ ps.flatten
      rw [hall h]

/-- The padding length is drawn only where padding is on. -/
theorem draw_noPadLen {enablePadding : Bool} {s : σ} (h : (o.draw enablePadding s).1 = .error .noPadLen) :
    enablePadding = true ∧ ∃ s, (o.randInt s).1 = none := by
  have hpadding : (o.drawPadding enablePadding s).1 = .error .noPadLen := by
    unfold draw at h
    split at h
    · rename_i e s' he
      rw [he, Except.error.inj h]
    · split at h <;> cases h
  unfold drawPadding at hpadding
  split at hpadding
  · rename_i hon
    refine ⟨hon, s, ?_⟩
    split at hpadding
    · rename_i s' hr
      rw [hr]
    · split at hpadding
      · split at hpadding <;> cases hpadding
      · cases hpadding
  · cases hpadding

variable (o) in
/-- **What a `WriteFrame` call for `f` leaves behind.** -/
structure Made (crypto : CryptoManager) (enablePadding : Bool) (f : Frame) (c : FrameCall ε) : Prop where
  frame : c.frame = f
  whole : c.fault = none → ∃ d, c.out = (Hawal.Transport.writeFrame crypto f enablePadding d).flatten
  part : c.out = [] ∨ ∃ d, c.out <+: (Hawal.Transport.writeFrame crypto f enablePadding d).flatten
  noPadLen : c.fault = some .noPadLen → enablePadding = true ∧ ∃ s, (o.randInt s).1 = none

theorem writeFrame_made (crypto : CryptoManager) (f : Frame) (enablePadding : Bool) (s : σ) :
    o.Made crypto enablePadding f (o.writeFrame crypto f enablePadding s).1 := by
  unfold writeFrame
  split
  · rename_i e s' he
    refine ⟨rfl, fun h => (nomatch h), .inl rfl, fun h => ?_⟩
    rw [Option.some.injEq] at h
    exact draw_noPadLen (by rw [he, h])
  · rename_i d s' hd
    obtain ⟨hpre, hall⟩ := writeSlices_out (o := o) (Hawal.Transport.writeFrame crypto f enablePadding d) s'
    refine ⟨rfl, fun h => ⟨d, hall (Option.map_eq_none_iff.mp h)⟩, .inr ⟨d, hpre⟩, fun h => ?_⟩
    obtain ⟨e, -, he⟩ := Option.map_eq_some_iff.mp h
    cases he

end Outside

end Hawal.Transport
