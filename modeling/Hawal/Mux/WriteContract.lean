import Hawal.Lib.Chunks
import Hawal.Mux.Table
import Hawal.Transport.Output

/-!
# What `writeStreamData` reports

`writeStreamData` of `core/mux/session.go`, as it runs while it holds `writeMu`: the check of
`closed`, then a loop of `WriteFrame` calls that returns at the first error. The calls that it makes
are the chunks of the data, tried one after another (`writeLoop_tried`), so what it reports is what
the connection was given in whole frames (`writeStreamData_honours`), and what the other side can
read (`Contract.received`).

`Session.step` has the same call as steps of a goroutine, each `WriteFrame` with either outcome.
`writeStreamData_steps` takes a call from here to its steps there.
-/

namespace Hawal.Mux

open Hawal.Lib Hawal.Transport

universe u v

/-- The errors of `writeStreamData`. -/
inductive WriteErr (ε : Type v) where
  /-- `"session closed"`. -/
  | sessionClosed
  /-- The error of a `WriteFrame`. -/
  | frame (e : ε)
  deriving DecidableEq, Repr

/-- How `writeStreamData` ends. -/
inductive WriteEnd (ε : Type v) where
  /-- It returns `(n, err)`. -/
  | returned (n : ℕ) (err : Option (WriteErr ε))
  /-- It panics. -/
  | panicked
  deriving DecidableEq, Repr

/-- A run of `writeStreamData`: how it ends, the `WriteFrame` calls that it makes, and the state
that it leaves outside. -/
structure WriteRun (σ : Type u) (ε : Type v) where
  /-- How it ends. -/
  result : WriteEnd ε
  /-- The calls, in order. -/
  calls : List (FrameCall ε)
  /-- The state outside. -/
  after : σ

theorem chunkSize_pos {data : List UInt8} {offset : ℕ} (h : offset < data.length) : 0 < chunkSize data offset := by
  rw [chunkSize, maxPayloadSize]
  omega

variable {σ : Type u} {ε : Type v} (o : Outside σ ε) (crypto : CryptoManager) (enablePadding : Bool)
  (streamID : UInt32) (data : List UInt8)

/-- The loop of `writeStreamData`. -/
def writeLoop (offset : ℕ) (s : σ) : WriteRun σ ε :=
  if offset < data.length then
    let q := o.writeFrame crypto ⟨frameData, streamID, chunk data offset⟩ enablePadding s
    match q.1.fault with
    | some .noPadLen => ⟨.panicked, [q.1], q.2⟩
    | some (.err e) => ⟨.returned offset (some (.frame e)), [q.1], q.2⟩
    | none =>
      let w := writeLoop (offset + chunkSize data offset) q.2
      { w with calls := q.1 :: w.calls }
  else ⟨.returned data.length none, [], s⟩
termination_by data.length - offset
decreasing_by
  rename_i h
  have hpos := chunkSize_pos h
  omega

/-- `writeStreamData`; `closed` is `s.closed` when it is checked. -/
def writeStreamData (closed : Bool) (s : σ) : WriteRun σ ε :=
  if closed then ⟨.returned 0 (some .sessionClosed), [], s⟩
  else writeLoop o crypto enablePadding streamID data 0 s

/-! ### The loop and the chunks -/

variable {data}

theorem chunk_eq_take (offset : ℕ) : chunk data offset = (data.drop offset).take maxPayloadSize := by
  rw [chunk, chunkSize, List.take_eq_take_iff, List.length_drop]
  omega

/-- The rest of the data, in chunks. -/
theorem chunksOf_drop {offset : ℕ} (h : offset < data.length) :
    chunksOf maxPayloadSize (data.drop offset) =
      chunk data offset :: chunksOf maxPayloadSize (data.drop (offset + chunkSize data offset)) := by
  have hne : data.drop offset ≠ [] := by
    rw [Ne, List.drop_eq_nil_iff]
    omega
  have hrest : (data.drop offset).drop maxPayloadSize = data.drop (offset + chunkSize data offset) := by
    rw [List.drop_drop]
    by_cases hle : data.length - offset ≤ maxPayloadSize
    · -- the last chunk
      rw [List.drop_eq_nil_of_le (by omega), List.drop_eq_nil_of_le (by rw [chunkSize]; omega)]
    · rw [chunkSize, Nat.min_eq_right (by omega)]
  rw [chunksOf_of_ne_nil (by decide) hne, hrest, chunk_eq_take]

theorem length_chunk {offset : ℕ} : (chunk data offset).length = chunkSize data offset := by
  rw [chunk, List.length_take, List.length_drop, chunkSize]
  omega

/-- How many bytes of payload the calls have written. -/
def payloadLength (calls : List (FrameCall ε)) : ℕ := (calls.map (·.frame.payload)).flatten.length

variable (data) in
/-- What `writeStreamData` returns for a fault after whole calls from the offset. -/
def resultOf (offset : ℕ) (calls : List (FrameCall ε)) : Option (Fault ε) → WriteEnd ε
  | none => .returned data.length none
  | some (.err e) => .returned (offset + payloadLength (whole (·.fault) calls)) (some (.frame e))
  | some .noPadLen => .panicked

/-- **The loop tries the chunks of the data, up to the first that fails.** -/
theorem writeLoop_tried (data : List UInt8) (offset : ℕ) (s : σ) : ∃ fault,
    Tried (fun p => o.Made crypto enablePadding ⟨frameData, streamID, p⟩) (·.fault)
      (chunksOf maxPayloadSize (data.drop offset))
      (writeLoop o crypto enablePadding streamID data offset s).calls fault ∧
    (writeLoop o crypto enablePadding streamID data offset s).result =
      resultOf data offset (writeLoop o crypto enablePadding streamID data offset s).calls fault := by
  fun_induction writeLoop o crypto enablePadding streamID data offset s with
  | case1 offset s h q hq =>
    have hmade : o.Made crypto enablePadding ⟨frameData, streamID, chunk data offset⟩ q.1 := o.writeFrame_made _ _ _ s
    rw [chunksOf_drop h]
    exact ⟨some .noPadLen, .fails hmade hq, rfl⟩
  | case2 offset s h q e hq =>
    have hmade : o.Made crypto enablePadding ⟨frameData, streamID, chunk data offset⟩ q.1 := o.writeFrame_made _ _ _ s
    have hnone : whole (·.fault) [q.1] = [] := by simp [whole, hq]
    rw [chunksOf_drop h]
    refine ⟨some (.err e), .fails hmade hq, ?_⟩
    rw [resultOf, hnone]
    rfl
  | case3 offset s h q hq w ih =>
    have hmade : o.Made crypto enablePadding ⟨frameData, streamID, chunk data offset⟩ q.1 := o.writeFrame_made _ _ _ s
    obtain ⟨fault, htried, hresult⟩ := ih
    rw [chunksOf_drop h]
    refine ⟨fault, .goesOn hmade hq htried, hresult.trans ?_⟩
    have hwhole : whole (·.fault) (q.1 :: w.calls) = q.1 :: whole (·.fault) w.calls := by simp [whole, hq]
    have hlen : q.1.frame.payload.length = chunkSize data offset := by rw [hmade.frame, length_chunk]
    cases fault with
    | none => rfl
    | some fault =>
      cases fault with
      | noPadLen => rfl
      | err e =>
        rw [resultOf, resultOf, hwhole, payloadLength, payloadLength, List.map_cons, List.flatten_cons,
          List.length_append, hlen, Nat.add_assoc]
  | case4 offset s h =>
    rw [List.drop_eq_nil_of_le (Nat.not_lt.mp h), chunksOf_nil]
    exact ⟨none, .nil, rfl⟩

/-! ### The contract -/

namespace WriteRun

/-- The calls that have written their frames. -/
def written (w : WriteRun σ ε) : List (FrameCall ε) := whole (·.fault) w.calls

/-- The bytes that the connection has taken. -/
def out (w : WriteRun σ ε) : List UInt8 := (w.calls.map (·.out)).flatten

/-- **The contract of `io.Writer`** for a run that returns `(n, err)`: the frames that it has written
carry `data[:n]`, all of it exactly when there is no error, and the first call that fails is the
last. The connection has taken these frames, and then at most a part of one more. -/
structure Contract (crypto : CryptoManager) (streamID : UInt32) (data : List UInt8) (w : WriteRun σ ε) (n : ℕ)
    (err : Option (WriteErr ε)) : Prop where
  result : w.result = .returned n err
  le : n ≤ data.length
  frames : ∀ c ∈ w.written, c.frame.type = frameData ∧ c.frame.streamID = streamID
  chunked : Chunked maxPayloadSize (w.written.map (·.frame.payload))
  payload : (w.written.map (·.frame.payload)).flatten = data.take n
  err_iff : err = none ↔ n = data.length
  stops : w.calls = w.written ∨ ∃ c, w.calls = w.written ++ [c] ∧ c.fault ≠ none
  out : ∃ (cs : List WriteCall) (part : List UInt8), w.out = Hawal.Transport.written crypto cs ++ part ∧
    cs.map WriteCall.frame = w.written.map (·.frame) ∧ ∃ c : WriteCall, part <+: c.bytes crypto

end WriteRun

variable {o crypto enablePadding streamID}

/-- The frames of calls for chunks. -/
theorem payloads_of_made {ps : List (List UInt8)} {cs : List (FrameCall ε)}
    (h : List.Forall₂ (fun p => o.Made crypto enablePadding ⟨frameData, streamID, p⟩) ps cs) :
    (∀ c ∈ cs, c.frame.type = frameData ∧ c.frame.streamID = streamID) ∧ cs.map (·.frame.payload) = ps := by
  induction h with
  | nil => simp
  | cons hc _ ih =>
    obtain ⟨hframes, hps⟩ := ih
    constructor
    · intro c hmem
      rcases List.mem_cons.mp hmem with rfl | hmem
      · rw [hc.frame]
        exact ⟨rfl, rfl⟩
      · exact hframes c hmem
    · rw [List.map_cons, hps, hc.frame]

/-- The bytes of calls for chunks that went well. -/
theorem bytes_of_made {ps : List (List UInt8)} {cs : List (FrameCall ε)}
    (h : List.Forall₂ (fun p => o.Made crypto enablePadding ⟨frameData, streamID, p⟩) ps cs)
    (hfault : ∀ c ∈ cs, c.fault = none) (hps : ∀ p ∈ ps, p.length ≤ maxPayloadSize) :
    ∃ ws : List WriteCall, (cs.map (·.out)).flatten = written crypto ws ∧
      ws.map WriteCall.frame = cs.map (·.frame) := by
  induction h with
  | nil => exact ⟨[], rfl, rfl⟩
  | @cons p c ps cs hc _ ih =>
    obtain ⟨ws, hws, hframes⟩ := ih (fun c' h => hfault c' (List.mem_cons_of_mem c h))
      fun p' h => hps p' (List.mem_cons_of_mem p h)
    obtain ⟨d, hd⟩ := hc.whole (hfault c List.mem_cons_self)
    have hp : p.length ≤ 32768 := hps p List.mem_cons_self
    refine ⟨⟨⟨frameData, streamID, p⟩, enablePadding, d, by show p.length < _; omega⟩ :: ws, ?_, ?_⟩
    · rw [List.map_cons, List.flatten_cons, hws, hd]
      rfl
    · rw [List.map_cons, List.map_cons, hframes, hc.frame]

/-- What a call that fails leaves in the connection. -/
theorem part_of_made {p : List UInt8} {c : FrameCall ε} (h : o.Made crypto enablePadding ⟨frameData, streamID, p⟩ c)
    (hp : p.length ≤ maxPayloadSize) : ∃ w : WriteCall, c.out <+: w.bytes crypto := by
  have hp' : p.length ≤ 32768 := hp
  have hlt : (⟨frameData, streamID, p⟩ : Frame).payload.length < 2 ^ 32 - 76 := by
    show p.length < _
    omega
  rcases h.part with hnil | ⟨d, hd⟩
  · refine ⟨⟨_, enablePadding, plainDraws, hlt⟩, ?_⟩
    rw [hnil]
    exact List.nil_prefix
  · exact ⟨⟨_, enablePadding, d, hlt⟩, hd⟩

/-- When every chunk was written. -/
theorem contract_of_whole {w : WriteRun σ ε} (hresult : w.result = .returned data.length none)
    (hmade : List.Forall₂ (fun p => o.Made crypto enablePadding ⟨frameData, streamID, p⟩)
      (chunksOf maxPayloadSize data) w.written) (hcalls : w.calls = w.written) :
    w.Contract crypto streamID data data.length none := by
  have hchunked := chunked_chunksOf (show 0 < maxPayloadSize by decide) data
  obtain ⟨hframes, hpayloads⟩ := payloads_of_made hmade
  obtain ⟨ws, hws, hwframes⟩ := bytes_of_made hmade (fun c h => fault_of_mem_whole h) fun p h => (hchunked.size p h).2
  refine ⟨hresult, le_rfl, hframes, ?_, ?_, by simp, .inl hcalls, ws, [], ?_, hwframes, ?_⟩
  · rw [hpayloads]
    exact hchunked
  · rw [hpayloads, flatten_chunksOf (by decide), List.take_length]
  · rw [WriteRun.out, hcalls, hws, List.append_nil]
  · exact ⟨⟨⟨frameData, 0, []⟩, false, plainDraws, by decide⟩, List.nil_prefix⟩

/-- When the chunks before one were. -/
theorem contract_of_failed {w : WriteRun σ ε} {ps qs : List (List UInt8)} {p : List UInt8} {c : FrameCall ε} {e : ε}
    (hresult : w.result = .returned (payloadLength w.written) (some (.frame e)))
    (hps : chunksOf maxPayloadSize data = ps ++ p :: qs)
    (hmade : List.Forall₂ (fun p => o.Made crypto enablePadding ⟨frameData, streamID, p⟩) ps w.written)
    (hcalls : w.calls = w.written ++ [c]) (hc : o.Made crypto enablePadding ⟨frameData, streamID, p⟩ c)
    (hfault : c.fault ≠ none) :
    w.Contract crypto streamID data (payloadLength w.written) (some (.frame e)) := by
  have hchunks := flatten_chunksOf (show 0 < maxPayloadSize by decide) data
  have hchunked := chunked_chunksOf (show 0 < maxPayloadSize by decide) data
  rw [hps] at hchunks hchunked
  rw [List.flatten_append, List.flatten_cons] at hchunks
  have hbefore := hchunked.of_append
  have hp := hchunked.size p (List.mem_append_right ps List.mem_cons_self)
  obtain ⟨hframes, hpayloads⟩ := payloads_of_made hmade
  obtain ⟨ws, hws, hwframes⟩ := bytes_of_made hmade (fun c h => fault_of_mem_whole h) fun p h => (hbefore.size p h).2
  have hn : payloadLength w.written = ps.flatten.length := by rw [payloadLength, hpayloads]
  have hlen := congrArg List.length hchunks
  rw [List.length_append, List.length_append] at hlen
  refine ⟨hresult, by omega, hframes, ?_, ?_, ?_, .inr ⟨c, hcalls, hfault⟩, ws, c.out, ?_, hwframes,
    part_of_made hc hp.2⟩
  · rw [hpayloads]
    exact hbefore
  · rw [hpayloads, hn, ← hchunks, List.take_left]
  · constructor
    · exact fun h => nomatch h
    · intro h
      omega
  · rw [WriteRun.out, hcalls, List.map_append, List.flatten_append, hws]
    simp

/-- An open session keeps the contract. -/
theorem writeLoop_contract (hpad : enablePadding = true → ∀ s, (o.randInt s).1 ≠ none) (s : σ) :
    ∃ n err, (writeLoop o crypto enablePadding streamID data 0 s).Contract crypto streamID data n err := by
  obtain ⟨fault, htried, hresult⟩ := writeLoop_tried o crypto enablePadding streamID data 0 s
  rw [List.drop_zero] at htried
  rcases htried.split with ⟨rfl, hmade, hcalls⟩ | ⟨e, ps, p, qs, c, rfl, hps, hmade, hcalls, hc, hfault⟩
  · exact ⟨data.length, none, contract_of_whole hresult hmade hcalls⟩
  · cases e with
    | noPadLen =>
      obtain ⟨hon, s', hs'⟩ := hc.noPadLen hfault
      exact absurd hs' (hpad hon s')
    | err e =>
      rw [resultOf, Nat.zero_add] at hresult
      exact ⟨_, _, contract_of_failed hresult hps hmade hcalls hc (by simp [hfault])⟩

/-- **`Write` honours the contract of `io.Writer`** however the connection and the encryption fail,
unless `rand.Int` does: on an open session. On a closed session it writes nothing, and returns an
error also for no data. -/
theorem writeStreamData_honours (o : Outside σ ε) (crypto : CryptoManager) (enablePadding : Bool)
    (streamID : UInt32) (data : List UInt8) (s : σ) (hpad : enablePadding = true → ∀ s, (o.randInt s).1 ≠ none) :
    (∃ n err, (writeStreamData o crypto enablePadding streamID data false s).Contract crypto streamID data n err) ∧
      writeStreamData o crypto enablePadding streamID data true s =
        ⟨.returned 0 (some .sessionClosed), [], s⟩ :=
  ⟨writeLoop_contract hpad s, rfl⟩

/-- A connection that takes `s` slices and then half of one, with zeros for everything random. -/
def brokenAfter : Outside ℕ Unit where
  randInt s := (some 0, s)
  readRand n s := (.ok ⟨List.replicate n 0, List.length_replicate⟩, s)
  write p s :=
    match s with
    | 0 => ((p.length / 2, some ()), 0)
    | s + 1 => ((p.length, none), s)
  write_le p s := by
    cases s with
    | zero => exact Nat.div_le_self p.length 2
    | succ s => exact le_rfl
  write_short p s h := by
    cases s with
    | zero => exact fun h => nomatch h
    | succ s => exact absurd h (Nat.lt_irrefl p.length)

/-- A write of 32769 bytes that fails in the body of its second frame. -/
theorem brokenAfter_honours : ∃ n err,
    (writeStreamData brokenAfter sampleCrypto true 3 (List.replicate 32769 7) false 5).Contract sampleCrypto 3
      (List.replicate 32769 7) n err :=
  (writeStreamData_honours brokenAfter sampleCrypto true 3 (List.replicate 32769 7) 5
    fun _ _ h => nomatch h).1

/-- A random source that fails, and a connection that does not. -/
def noRandom : Outside Unit Unit where
  randInt s := (none, s)
  readRand _ s := (.error (), s)
  write p s := ((p.length, none), s)
  write_le _ _ := le_rfl
  write_short p _ h := absurd h (Nat.lt_irrefl p.length)

/-- It is not honoured by a write of no data on a closed session, nor where `rand.Int` fails. -/
theorem closedWrite_dishonours :
    (¬ ∃ n err, (writeStreamData brokenAfter sampleCrypto true 3 [] true 0).Contract sampleCrypto 3 [] n err) ∧
      ¬ ∃ n err, (writeStreamData noRandom sampleCrypto true 3 [7] false ()).Contract sampleCrypto 3 [7] n err := by
  constructor
  · rintro ⟨n, err, h⟩
    have hresult : WriteEnd.returned 0 (some .sessionClosed) = .returned n err := h.result
    rw [WriteEnd.returned.injEq] at hresult
    obtain ⟨rfl, rfl⟩ := hresult
    exact nomatch h.err_iff.mpr rfl
  · rintro ⟨n, err, h⟩
    have hresult : (writeStreamData noRandom sampleCrypto true 3 [7] false ()).result = .panicked := by
      unfold writeStreamData writeLoop
      rfl
    exact nomatch hresult.symm.trans h.result

/-- What the other side makes of it: the frames that were written, and then what comes after. -/
theorem WriteRun.Contract.received {w : WriteRun σ ε} {n : ℕ} {err : Option (WriteErr ε)}
    (h : w.Contract crypto streamID data n err) (more : List UInt8) :
    ∃ rest, readFrames crypto w.written.length (w.out ++ more) = .ok (w.written.map (·.frame), rest) := by
  obtain ⟨cs, part, hout, hframes, -⟩ := h.out
  have hfits : ∀ c ∈ cs, c.Fits := by
    intro c hc
    have hmem : c.frame ∈ w.written.map (·.frame) := hframes ▸ List.mem_map_of_mem hc
    obtain ⟨c', hc', hframe⟩ := List.mem_map.mp hmem
    have hsize : c'.frame.payload.length ≤ 32768 :=
      (h.chunked.size c'.frame.payload (List.mem_map_of_mem hc')).2
    have hpad := c.length_pad_le
    rw [hframe] at hsize
    unfold WriteCall.Fits
    omega
  have hlen := congrArg List.length hframes
  rw [List.length_map, List.length_map] at hlen
  refine ⟨part ++ more, ?_⟩
  rw [hout, ← hlen, ← hframes, List.append_assoc]
  exact (framing crypto).readN_put hfits (part ++ more)

/-! ### The steps of a call -/

/-- The steps of a `WriteFrame` call in a session. -/
def callSteps (g : Gid) (c : FrameCall ε) : List Act := [.beginFrame g, .endFrame g c.fault.isNone]

/-- The steps of `writeStreamData` once it has `writeMu`: the calls, and the return that follows
none of their errors. -/
def writeSteps (g : Gid) (calls : List (FrameCall ε)) : Option (WriteErr ε) → List Act
  | some (.frame _) => calls.flatMap (callSteps g)
  | _ => calls.flatMap (callSteps g) ++ [.unlock g]

theorem writeSteps_cons (g : Gid) (c : FrameCall ε) (calls : List (FrameCall ε)) (err : Option (WriteErr ε)) :
    writeSteps g (c :: calls) err = callSteps g c ++ writeSteps g calls err := by
  unfold writeSteps
  split <;> simp

namespace Session

variable {t : Session} {g : Gid} {r : Ref}

/-- The session after a call that returned `(n, err)`. -/
structure Returned (t t' : Session) (g : Gid) (frames : List Frame) (n : ℕ) (err : Bool) : Prop where
  ret : t'.ret g = some (.wrote n err)
  pc : t'.pc g = .idle
  writeMu : t'.writeMu = none
  sent : t'.sent = t.sent ++ frames
  panic : t'.panic = none

/-- A frame that is written, whatever comes of it. -/
theorem exec_callSteps {j : Job} (hpc : t.pc g = .locked j) (hw : t.wants j = true) (hp : t.panic = none)
    (c : FrameCall ε) : exec step t (callSteps g c) = some ((t.beginWrite g j).endWrite g j c.fault.isNone) := by
  have hbegin : t.step (.beginFrame g) = some (t.beginWrite g j) := by
    simp [step, act, hp, hpc, hw]
  have hpc' : (t.beginWrite g j).pc g = .writing j := goto_self g (.writing j)
  have hp' : (t.beginWrite g j).panic = none := hp
  have hend : (t.beginWrite g j).step (.endFrame g c.fault.isNone) =
      some ((t.beginWrite g j).endWrite g j c.fault.isNone) := by
    simp only [step, act, hp', hpc', if_true]
  rw [callSteps, exec_cons, hbegin, Option.bind_some, exec_cons, hend, Option.bind_some, exec_nil]

/-- The session after a chunk that failed. -/
theorem returned_of_failed (g : Gid) (r : Ref) (id : UInt32) (data : List UInt8) (offset : ℕ)
    (hfailed : t.writeFailed = false) (hp : t.panic = none) :
    t.Returned ((t.beginWrite g (.data r id data offset)).endWrite g (.data r id data offset) false) g
      [⟨frameData, id, chunk data offset⟩] offset true where
  ret := Function.update_self g _ _
  pc := Function.update_self g _ _
  writeMu := rfl
  sent := by
    show (if t.writeFailed then t.sent else t.sent ++ [_]) = _
    rw [hfailed]
    rfl
  panic := hp

/-- The session after a chunk that went well. -/
structure Advanced (t t' : Session) (g : Gid) (j j' : Job) : Prop where
  pc : t'.pc g = .locked j'
  writeFailed : t'.writeFailed = false
  sent : t'.sent = t.sent ++ [j.frame]
  panic : t'.panic = none

theorem advanced_of_whole (g : Gid) (r : Ref) (id : UInt32) (data : List UInt8) (offset : ℕ)
    (hfailed : t.writeFailed = false) (hp : t.panic = none) :
    t.Advanced ((t.beginWrite g (.data r id data offset)).endWrite g (.data r id data offset) true) g
      (.data r id data offset) (.data r id data (offset + chunkSize data offset)) where
  pc := Function.update_self g _ _
  writeFailed := by
    show (t.writeFailed || !true) = false
    rw [hfailed]
    rfl
  sent := by
    show (if t.writeFailed then t.sent else t.sent ++ [_]) = _
    rw [hfailed]
    rfl
  panic := hp

theorem wants_data {id : UInt32} {offset : ℕ} (h : offset < data.length) (hopen : 0 < offset ∨ t.closed = false) :
    t.wants (.data r id data offset) = true := by
  rcases hopen with hpos | hclosed
  · simp [wants, h, hpos]
  · simp [wants, h, hclosed]

/-- The return at the end of the data, and that of a closed session. -/
theorem exec_unlock {id : UInt32} {offset : ℕ} (hpc : t.pc g = .locked (.data r id data offset)) (hp : t.panic = none)
    (hw : t.wants (.data r id data offset) = false) : ∃ t', exec step t [.unlock g] = some t' ∧
      t.Returned t' g [] offset (decide (offset = 0) && t.closed) := by
  refine ⟨t.giveUp g (.data r id data offset), ?_, ?_⟩
  · have hunlock : t.step (.unlock g) = some (t.giveUp g (.data r id data offset)) := by
      simp [step, act, hp, hpc, hw]
    rw [exec_cons, hunlock, Option.bind_some, exec_nil]
  · exact ⟨Function.update_self g _ _, Function.update_self g _ _, rfl, (List.append_nil t.sent).symm, hp⟩

/-- The loop, once the goroutine has `writeMu` and has found the session open. -/
theorem writeLoop_steps {offset : ℕ} {s : σ} {n : ℕ} {err : Option (WriteErr ε)}
    (hresult : (writeLoop o crypto enablePadding streamID data offset s).result = .returned n err)
    (hpc : t.pc g = .locked (.data r streamID data offset)) (hopen : 0 < offset ∨ t.closed = false)
    (hoffset : offset ≤ data.length) (hfailed : t.writeFailed = false) (hp : t.panic = none) : ∃ t',
      exec step t (writeSteps g (writeLoop o crypto enablePadding streamID data offset s).calls err) = some t' ∧
        t.Returned t' g ((writeLoop o crypto enablePadding streamID data offset s).calls.map (·.frame)) n err.isSome := by
  fun_induction writeLoop o crypto enablePadding streamID data offset s generalizing t with
  | case1 => cases hresult
  | case2 offset s h =>
    rename_i q e hq
    rw [WriteEnd.returned.injEq] at hresult
    obtain ⟨rfl, rfl⟩ := hresult
    have hframe : q.1.frame = _ := (o.writeFrame_made crypto _ enablePadding s).frame
    have hsteps := exec_callSteps hpc (wants_data h hopen) hp q.1
    have hret := returned_of_failed g r streamID data offset hfailed hp
    rw [hq] at hsteps
    rw [← hframe] at hret
    refine ⟨_, ?_, hret⟩
    rw [writeSteps, List.flatMap_singleton]
    exact hsteps
  | case3 offset s h =>
    rename_i q hq w ih
    have hframe : q.1.frame = _ := (o.writeFrame_made crypto _ enablePadding s).frame
    have hsteps := exec_callSteps hpc (wants_data h hopen) hp q.1
    have hadv := advanced_of_whole g r streamID data offset hfailed hp
    rw [hq] at hsteps
    have hpos := chunkSize_pos h
    have hle : offset + chunkSize data offset ≤ data.length := by
      rw [chunkSize]
      omega
    obtain ⟨t', hrest, hret⟩ := ih hresult hadv.pc (.inl (by omega)) hle hadv.writeFailed hadv.panic
    refine ⟨t', ?_, hret.ret, hret.pc, hret.writeMu, ?_, hret.panic⟩
    · rw [writeSteps_cons, exec_append_eq_some]
      exact ⟨_, hsteps, hrest⟩
    · rw [hret.sent, hadv.sent, List.map_cons, hframe, List.append_assoc]
      rfl
  | case4 offset s h =>
    rw [WriteEnd.returned.injEq] at hresult
    obtain ⟨rfl, rfl⟩ := hresult
    obtain rfl : offset = data.length := by omega
    have hw : t.wants (.data r streamID data data.length) = false := by simp [wants]
    obtain ⟨t', hunlock, hret⟩ := exec_unlock hpc hp hw
    have hnone : (decide (data.length = 0) && t.closed) = false := by
      rcases hopen with hpos | hclosed
      · have hne : data.length ≠ 0 := by omega
        simp [hne]
      · simp [hclosed]
    rw [hnone] at hret
    exact ⟨t', hunlock, hret⟩

/-- **A call of `writeStreamData` is a run of steps of its goroutine**, from where it waits for
`writeMu` to its return. -/
theorem writeStreamData_steps {s : σ} {n : ℕ} {err : Option (WriteErr ε)}
    (hresult : (writeStreamData o crypto enablePadding streamID data t.closed s).result = .returned n err)
    (hpc : t.pc g = .waitMu (.data r streamID data 0)) (hmu : t.writeMu = none)
    (hfailed : t.writeFailed = false) (hp : t.panic = none) : ∃ t',
      exec step t (.lock g ::
        writeSteps g (writeStreamData o crypto enablePadding streamID data t.closed s).calls err) = some t' ∧
        t.Returned t' g ((writeStreamData o crypto enablePadding streamID data t.closed s).calls.map (·.frame)) n
          err.isSome := by
  have hlock : t.step (.lock g) = some (t.acquire g (.data r streamID data 0)) := by
    simp [step, act, hp, hpc, hmu]
  rw [exec_cons, hlock, Option.bind_some]
  have hpc' : (t.acquire g (.data r streamID data 0)).pc g = .locked (.data r streamID data 0) :=
    Function.update_self g _ _
  have hclosed' : (t.acquire g (.data r streamID data 0)).closed = t.closed := rfl
  have hp' : (t.acquire g (.data r streamID data 0)).panic = none := hp
  generalize hc : t.closed = closed at hresult hclosed'
  cases closed with
  | true =>
    have hrefused : WriteEnd.returned 0 (some .sessionClosed) = .returned n err := hresult
    rw [WriteEnd.returned.injEq] at hrefused
    obtain ⟨rfl, rfl⟩ := hrefused
    have hw : (t.acquire g (.data r streamID data 0)).wants (.data r streamID data 0) = false := by
      simp [wants, hclosed']
    obtain ⟨t', hunlock, hret⟩ := exec_unlock hpc' hp' hw
    rw [hclosed'] at hret
    exact ⟨t', hunlock, hret.ret, hret.pc, hret.writeMu, hret.sent, hret.panic⟩
  | false =>
    obtain ⟨t', hsteps, hret⟩ := writeLoop_steps hresult hpc' (.inr hclosed') (Nat.zero_le _) hfailed hp'
    exact ⟨t', hsteps, hret.ret, hret.pc, hret.writeMu, hret.sent, hret.panic⟩

/-- A goroutine that waits to write one byte. -/
def waitingToWrite : Session :=
  { newSession true with pc := Function.update Gid.start (.app 0) (.waitMu (.data 0 3 [7] 0)) }

/-- Its write fails, with nothing written. -/
theorem waitingToWrite_fails : ∃ n err,
    (writeStreamData brokenAfter sampleCrypto true 3 [7] waitingToWrite.closed 0).result = .returned n err ∧ ∃ t',
      exec step waitingToWrite (.lock (.app 0) :: writeSteps (.app 0)
        (writeStreamData brokenAfter sampleCrypto true 3 [7] waitingToWrite.closed 0).calls err) = some t' ∧
        waitingToWrite.Returned t' (.app 0)
          ((writeStreamData brokenAfter sampleCrypto true 3 [7] waitingToWrite.closed 0).calls.map (·.frame)) n
          err.isSome := by
  have hresult : (writeStreamData brokenAfter sampleCrypto true 3 [7] waitingToWrite.closed 0).result =
      .returned 0 (some (.frame ())) := by
    unfold writeStreamData writeLoop
    rfl
  exact ⟨0, some (.frame ()), hresult, writeStreamData_steps hresult rfl rfl rfl rfl⟩

end Session

end Hawal.Mux
