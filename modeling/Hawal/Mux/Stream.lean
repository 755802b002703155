import Hawal.Lib.Chan
import Hawal.Transport.Frame

/-!
# Streams

`core/mux/stream.go`. A `Stream` is one multiplexed connection of a session. What
`readLoop` receives for it waits in `readChan`; `Read` hands it out, keeping in
`readBuf` what a call's buffer had no room for.

The fields after `closed` are history: no step of the code reads them. They say
what has happened to the stream, for the theorems to speak about.
-/

namespace Hawal.Mux

open Hawal.Lib Hawal.Transport

/-- A stream object, as a pointer. -/
abbrev Ref := ℕ

/-- The state of a `sync.Once` around a function that runs in steps. -/
inductive Once where
  /-- `Do` was not called. -/
  | fresh
  /-- The function is running; other calls of `Do` wait. -/
  | running
  /-- The function has returned. -/
  | done
  deriving DecidableEq, Repr

/-- The callers of `closeStream`. -/
inductive Closer where
  /-- `readLoop`, after five seconds in a push. -/
  | pushTimeout
  /-- `readLoop`, when the accept queue is full. -/
  | acceptOverflow
  /-- `OpenStream`, when its frame could not be written. -/
  | openFailed
  /-- `Stream.Close` of the stream `r`. -/
  | streamClose (r : Ref)
  deriving DecidableEq, Repr

/-- The code that closes a `readChan`. -/
inductive EndCause where
  /-- `readLoop`, on a `FrameStreamClose`. -/
  | peerClose
  /-- `closeStream`. -/
  | closeStream (why : Closer)
  /-- `Session.Close`. -/
  | sessionClose
  deriving DecidableEq, Repr

/-- `Stream`. -/
structure Stream where
  /-- `id`. -/
  id : UInt32
  /-- `targetPort`, the target for client dispatch. -/
  targetPort : List UInt8
  /-- `readChan`. -/
  readChan : Chan (List UInt8) := { cap := 128 }
  /-- `readBuf`. -/
  readBuf : List UInt8 := []
  /-- `closeOnce`. -/
  closeOnce : Once := .fresh
  /-- `closed`. -/
  closed : Bool := false
  /-- `OpenStream` or `AcceptStream` has returned the stream. -/
  handed : Bool := false
  /-- The bytes that `Read` has returned. -/
  got : List UInt8 := []
  /-- The data of the `Write` calls that acquired `writeMu`. -/
  put : List UInt8 := []
  /-- How many frames `readLoop` had handled when the stream was registered. -/
  since : ℕ
  /-- Who closed `readChan`. -/
  cause : Option EndCause := none

/-- `newStream`. -/
def newStream (id : UInt32) (targetPort : List UInt8) (since : ℕ) : Stream := { id, targetPort, since }

/-- What a call of the API returns. -/
inductive Ret where
  /-- `OpenStream`: the stream, or an error. -/
  | opened (r : Option Ref)
  /-- `AcceptStream`: the stream, or `io.EOF`. -/
  | accepted (r : Option Ref)
  /-- `Write`: how many bytes were written, and whether there was an error. -/
  | wrote (n : ℕ) (err : Bool)
  /-- `Read`: bytes. -/
  | read (b : List UInt8)
  /-- `Read`: `io.EOF`. -/
  | eof
  /-- `Close`. -/
  | closed
  deriving DecidableEq, Repr

namespace Stream

/-- `n` bytes, or all there are, of a chunk that `Read` hands out. -/
def handOut (st : Stream) (n : ℕ) (chunk : List UInt8) : Ret × Stream :=
  (.read (chunk.take n), { st with readBuf := chunk.drop n, got := st.got ++ chunk.take n })

/-- `Stream.Read` into a buffer of `n` bytes; `none` while it waits for data. Calls of
`Read` on one stream do not overlap: `readBuf` has no lock. -/
def read (st : Stream) (n : ℕ) : Option (Ret × Stream) :=
  if 0 < st.readBuf.length then some (st.handOut n st.readBuf)
  else
    match st.readChan.recv with
    | .value chunk c => some ({ st with readChan := c }.handOut n chunk)
    | .ended => some (.eof, st)
    | .blocks => none

/-- The received bytes that are with the stream: those `Read` has returned, then
`readBuf`, then the chunks in `readChan`. -/
def received (st : Stream) : List UInt8 := st.got ++ st.readBuf ++ st.readChan.buf.flatten

/-- Closing `readChan`. -/
def endedBy (st : Stream) (cause : EndCause) : Stream :=
  { st with readChan := st.readChan.close, cause := some cause }

/-- A `Read` only moves bytes along inside the stream. -/
theorem read_eq_some {st st' : Stream} {n : ℕ} {ret : Ret} (h : st.read n = some (ret, st')) :
    ∃ c buf got, st' = { st with readChan := c, readBuf := buf, got := got } ∧
      c.closed = st.readChan.closed ∧ st'.received = st.received := by
  unfold read at h
  split_ifs at h with hbuf
  · rw [Option.some.injEq] at h
    cases h
    exact ⟨st.readChan, _, _, rfl, rfl, by simp [received, List.append_assoc]⟩
  · have hnil : st.readBuf = [] := List.length_eq_zero_iff.mp (Nat.le_zero.mp (Nat.not_lt.mp hbuf))
    split at h
    · rename_i chunk c hrecv
      obtain ⟨hc, hc'⟩ := Chan.recv_eq_value hrecv
      rw [Option.some.injEq] at h
      cases h
      refine ⟨c, _, _, rfl, by rw [hc'], ?_⟩
      simp only [received, hc, hnil, List.append_nil, List.flatten_cons, ← List.append_assoc]
      rw [List.append_assoc st.got, List.take_append_drop]
    · rw [Option.some.injEq] at h
      cases h
      exact ⟨_, _, _, rfl, rfl, rfl⟩
    · exact nomatch h

/-- `Read` returns the next bytes, or `io.EOF` and then nothing changes. -/
theorem read_ret {st st' : Stream} {n : ℕ} {ret : Ret} (h : st.read n = some (ret, st')) :
    (∃ b, ret = .read b ∧ st'.got = st.got ++ b) ∨ ret = .eof ∧ st' = st := by
  unfold read at h
  split_ifs at h
  · rw [Option.some.injEq] at h
    cases h
    exact .inl ⟨_, rfl, rfl⟩
  · split at h
    · rw [Option.some.injEq] at h
      cases h
      exact .inl ⟨_, rfl, rfl⟩
    · rw [Option.some.injEq] at h
      cases h
      exact .inr ⟨rfl, rfl⟩
    · exact nomatch h

/-- `Read` returns `io.EOF` exactly on a closed stream with nothing left to hand out. -/
theorem read_eq_eof {st st' : Stream} {n : ℕ} (h : st.read n = some (.eof, st')) :
    st.readChan.closed = true ∧ st.received = st.got := by
  unfold read at h
  split_ifs at h with hbuf
  · simp [handOut] at h
  · have hnil : st.readBuf = [] := List.length_eq_zero_iff.mp (Nat.le_zero.mp (Nat.not_lt.mp hbuf))
    split at h
    · simp [handOut] at h
    · rename_i hrecv
      obtain ⟨hb, hc⟩ := Chan.recv_eq_ended.mp hrecv
      exact ⟨hc, by simp [received, hb, hnil]⟩
    · exact nomatch h

end Stream

end Hawal.Mux
