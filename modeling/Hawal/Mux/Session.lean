import Hawal.Mux.Stream
import Hawal.Lib.Run
import Mathlib.Data.List.AList

/-!
# Sessions

`core/mux/session.go` as a machine whose goroutines take turns. A step of the
machine is a piece of the code during which a goroutine touches the shared state
once: a section under `streamsMu`, an operation on a channel, taking `writeMu`, the
start or the end of a `WriteFrame`. Between the steps of one goroutine those of any
others may come; in particular `readLoop` looks a stream up in one step and sends on
its channel in a later one.

* `Pc` — where a goroutine is. The goroutines are `readLoop`, `pingLoop` and any
  number of the application's; `Job` is what a goroutine writes under `writeMu`.
* `Act` — the steps, with what the environment decides: the calls of the
  application, the frames that arrive, whether a write succeeds, when the timer of a
  push fires.
* `step` — the step function. A process that has panicked takes no step.
* `Trans`, `trans_of_step` — the same steps as a relation, one rule for each branch.

Connections are not here: `recv` hands `readLoop` any frame, and `endFrame` ends a
`WriteFrame` either way. Two sessions on a connection are in `Hawal.Mux.Pair`.
-/

namespace Hawal.Mux

open Hawal.Lib Hawal.Transport

/-- The goroutines of a session. -/
inductive Gid where
  /-- `readLoop`. -/
  | readLoop
  /-- `pingLoop`. -/
  | pingLoop
  /-- A goroutine of the application. -/
  | app (n : ℕ)
  deriving DecidableEq, Repr

/-- What is written under `writeMu`. -/
inductive Job where
  /-- `OpenStream`'s frame for the stream `r`. -/
  | openFrame (r : Ref) (id : UInt32) (targetPort : List UInt8)
  /-- `closeStream`'s frame. -/
  | closeFrame (id : UInt32) (why : Closer)
  /-- `writeStreamData`, with the data before `offset` written. -/
  | data (r : Ref) (id : UInt32) (data : List UInt8) (offset : ℕ)
  /-- `readLoop`'s answer to a ping. -/
  | pong
  /-- `pingLoop`'s ping. -/
  | ping
  deriving DecidableEq, Repr

/-- Where a goroutine is. -/
inductive Pc where
  /-- In the application. -/
  | idle
  /-- `readLoop` in `ReadFrame`. -/
  | read
  /-- `pingLoop` waiting for the ticker. -/
  | tick
  /-- `readLoop` at the `select` on `acceptChan`. -/
  | accept (r : Ref) (id : UInt32)
  /-- `readLoop` at the `select` on the `readChan` of the stream it looked up. -/
  | push (r : Ref) (id : UInt32) (payload : List UInt8)
  /-- In `closeStream`, before its section under `streamsMu`. -/
  | closing (id : UInt32) (why : Closer)
  /-- Waiting for `writeMu`. -/
  | waitMu (j : Job)
  /-- Holding `writeMu`, with no `WriteFrame` in progress. -/
  | locked (j : Job)
  /-- In `WriteFrame`, holding `writeMu`. -/
  | writing (j : Job)
  /-- `readLoop` before its deferred `Close`. -/
  | leaving
  /-- In the function that `Session.Close` runs once. -/
  | teardown
  /-- Returned for good. -/
  | exited
  deriving DecidableEq, Repr

/-- How far the function that `Session.Close` runs once has come. -/
inductive Teardown where
  /-- It was not called. -/
  | ready
  /-- Before the section that closes the streams. -/
  | table
  /-- Before `close(s.acceptChan)`. -/
  | queue
  /-- Before `s.conn.Close()`. -/
  | conn
  /-- It has returned. -/
  | done
  deriving DecidableEq, Repr

/-- The panics of channel operations. -/
inductive Panic where
  /-- `"send on closed channel"`. -/
  | sendOnClosed
  /-- `"close of closed channel"`. -/
  | closeOfClosed
  deriving DecidableEq, Repr

/-- `Session`, with its goroutines. -/
structure Session where
  /-- `isServer`. -/
  isServer : Bool
  /-- `nextStreamID`. -/
  nextStreamID : UInt32
  /-- `streams`. -/
  streams : AList fun _ : UInt32 => Ref := ∅
  /-- `acceptChan`. -/
  acceptChan : Chan Ref := { cap := 256 }
  /-- The holder of `writeMu`. -/
  writeMu : Option Gid := none
  /-- `closed`. -/
  closed : Bool := false
  /-- `closeOnce`. -/
  closeOnce : Teardown := .ready
  /-- `conn.Close()` was called. -/
  connClosed : Bool := false
  /-- The stream objects made so far are `0`, …, `fresh – 1`. -/
  fresh : Ref := 0
  /-- The stream objects. -/
  heap : Ref → Stream := fun _ => newStream 0 [] 0
  /-- Where each goroutine is. -/
  pc : Gid → Pc
  /-- What the last call of each goroutine returned. -/
  ret : Gid → Option Ret := fun _ => none
  /-- The panic that has ended the process. -/
  panic : Option Panic := none
  /-- The frames that `readLoop` has handled. -/
  rcvd : List Frame := []
  /-- The frames of the `WriteFrame` calls begun before one failed. -/
  sent : List Frame := []
  /-- How many streams `OpenStream` has registered. -/
  opens : ℕ := 0
  /-- A `WriteFrame` has returned an error. -/
  writeFailed : Bool := false

/-- Where a goroutine starts. -/
def Gid.start : Gid → Pc
  | .readLoop => .read
  | .pingLoop => .tick
  | .app _ => .idle

/-- `NewSession`: stream ids start from 1 on the server and from 2 on the client. -/
def newSession (isServer : Bool) : Session where
  isServer
  nextStreamID := if isServer then 1 else 2
  pc := Gid.start

/-! ### Jobs -/

/-- The size of the next chunk of `writeStreamData`. -/
def chunkSize (data : List UInt8) (offset : ℕ) : ℕ := min (data.length - offset) maxPayloadSize

/-- The next chunk of `writeStreamData`. -/
def chunk (data : List UInt8) (offset : ℕ) : List UInt8 := (data.drop offset).take (chunkSize data offset)

/-- The frame that a job writes next. -/
def Job.frame : Job → Frame
  | .openFrame _ id targetPort => ⟨frameStreamOpen, id, targetPort⟩
  | .closeFrame id _ => ⟨frameStreamClose, id, []⟩
  | .data _ id b offset => ⟨frameData, id, chunk b offset⟩
  | .pong => ⟨framePong, 0, []⟩
  | .ping => ⟨framePing, 0, []⟩

namespace Session

variable (s : Session)

/-- Whether the holder of `writeMu` goes on to write a frame: `writeStreamData` checks
`s.closed` once, before its first chunk, and `pingLoop` before the ping. -/
def wants : Job → Bool
  | .data _ _ data offset => decide (offset < data.length) && (decide (0 < offset) || !s.closed)
  | .ping => !s.closed
  | _ => true

/-! ### What the steps do -/

/-- Goroutine `g` goes on at `p`. -/
def goto (g : Gid) (p : Pc) : Session := { s with pc := Function.update s.pc g p }

/-- A call returns to the application. -/
def answer (g : Gid) (v : Ret) : Session :=
  { s.goto g .idle with ret := Function.update s.ret g (some v) }

/-- A stream object changes. -/
def modify (r : Ref) (f : Stream → Stream) : Session :=
  { s with heap := Function.update s.heap r (f (s.heap r)) }

/-- `newStream` and `s.streams[id] = stream`. -/
def enter (id : UInt32) (targetPort : List UInt8) : Session :=
  { s with
    heap := Function.update s.heap s.fresh (newStream id targetPort s.rcvd.length)
    fresh := s.fresh + 1
    streams := s.streams.insert id s.fresh }

/-- The section of `OpenStream` under `streamsMu`. -/
def register (g : Gid) (targetPort : List UInt8) : Session :=
  let id := s.nextStreamID + 2
  { (s.enter id targetPort).goto g (.waitMu (.openFrame s.fresh id targetPort)) with
    nextStreamID := id, opens := s.opens + 1 }

/-- `close(stream.readChan)`. -/
def closeChan (r : Ref) (cause : EndCause) : Session :=
  if (s.heap r).readChan.closed then { s with panic := some .closeOfClosed }
  else s.modify r (·.endedBy cause)

/-- `delete(s.streams, id)` and `close(stream.readChan)`. -/
def drop (id : UInt32) (r : Ref) (cause : EndCause) : Session :=
  { s.closeChan r cause with streams := s.streams.erase id }

/-- `closeStream` returns to its caller. -/
def closeReturn (g : Gid) : Closer → Session
  | .pushTimeout | .acceptOverflow => s.goto g .read
  | .openFailed => s.answer g (.opened none)
  | .streamClose r => (s.modify r ({ · with closeOnce := .done })).answer g .closed

/-- `s.writeMu.Lock()`. -/
def acquire (g : Gid) (j : Job) : Session :=
  let s := { s.goto g (.locked j) with writeMu := some g }
  match j with
  | .data r _ data _ => s.modify r fun st => { st with put := st.put ++ data }
  | _ => s

/-- `WriteFrame` is called. -/
def beginWrite (g : Gid) (j : Job) : Session :=
  { s.goto g (.writing j) with sent := if s.writeFailed then s.sent else s.sent ++ [j.frame] }

/-- `s.writeMu.Unlock()`. -/
def release : Session := { s with writeMu := none }

/-- `WriteFrame` returns; `ok` is whether its error is nil. -/
def endWrite (g : Gid) (j : Job) (ok : Bool) : Session :=
  let s := { s with writeFailed := s.writeFailed || !ok }
  match j with
  | .openFrame r id _ =>
    if ok then ((s.release.modify r ({ · with handed := true })).answer g (.opened (some r)))
    else s.release.goto g (.closing id .openFailed)
  | .closeFrame _ why => s.release.closeReturn g why
  | .data r id data offset =>
    if ok then s.goto g (.locked (.data r id data (offset + chunkSize data offset)))
    else s.release.answer g (.wrote offset true)
  | .pong => s.release.goto g .read
  | .ping => s.release.goto g .tick

/-- The holder of `writeMu` returns without writing another frame. -/
def giveUp (g : Gid) : Job → Session
  | .data _ _ _ offset => s.release.answer g (.wrote offset (decide (offset = 0) && s.closed))
  | _ => s.release.goto g .exited

/-- `Session.Close` returns. -/
def closeDone (g : Gid) : Session :=
  match g with
  | .app _ => s.answer g .closed
  | _ => s.goto g .exited

/-- The section of `Session.Close` under `streamsMu`. -/
def closeStreams : Session :=
  { s.streams.entries.foldl (fun s e => s.closeChan e.2 .sessionClose) s with
    closed := true, streams := ∅ }

/-- `close(s.acceptChan)`. -/
def closeAccept : Session :=
  if s.acceptChan.closed then { s with panic := some .closeOfClosed }
  else { s with acceptChan := s.acceptChan.close }

/-- `readLoop` has a frame. -/
def heard (f : Frame) : Session := { s with rcvd := s.rcvd ++ [f] }

/-- `readLoop` handles a frame, up to where it leaves `streamsMu` or waits. -/
def dispatch (f : Frame) : Session :=
  let s := s.heard f
  if f.type = frameStreamOpen then
    (s.enter f.streamID f.payload).goto .readLoop (.accept s.fresh f.streamID)
  else if f.type = frameData then
    match s.streams.lookup f.streamID with
    | some r => s.goto .readLoop (.push r f.streamID f.payload)
    | none => s
  else if f.type = frameStreamClose then
    match s.streams.lookup f.streamID with
    | some r => s.drop f.streamID r .peerClose
    | none => s
  else if f.type = framePing then s.goto .readLoop (.waitMu .pong)
  else s

end Session

/-! ### Steps -/

/-- The steps of a session. -/
inductive Act where
  /-- `OpenStream` is called: its section under `streamsMu`. -/
  | openStream (g : Gid) (targetPort : List UInt8)
  /-- `AcceptStream`. -/
  | acceptStream (g : Gid)
  /-- `Stream.Write` is called: its check of `closed`. -/
  | write (g : Gid) (r : Ref) (data : List UInt8)
  /-- `Stream.Read` into a buffer of `n` bytes. -/
  | read (g : Gid) (r : Ref) (n : ℕ)
  /-- `Stream.Close` is called. -/
  | closeStream (g : Gid) (r : Ref)
  /-- `Session.Close` is called. -/
  | close (g : Gid)
  /-- `closeStream`'s section under `streamsMu`. -/
  | dropEntry (g : Gid)
  /-- `writeMu.Lock()` returns. -/
  | lock (g : Gid)
  /-- A `WriteFrame` begins. -/
  | beginFrame (g : Gid)
  /-- A `WriteFrame` returns. -/
  | endFrame (g : Gid) (ok : Bool)
  /-- `writeStreamData` or `pingLoop` returns with nothing more to write. -/
  | unlock (g : Gid)
  /-- `ReadFrame` returns a frame, and `readLoop` handles it. -/
  | recv (f : Frame)
  /-- `ReadFrame` returns an error. -/
  | recvErr
  /-- The `select` on `acceptChan`. -/
  | enqueue
  /-- The send on `readChan`. -/
  | push
  /-- The timer of the push fires. -/
  | timeout
  /-- `Session.Close`'s section under `streamsMu`. -/
  | closeStreams (g : Gid)
  /-- `Session.Close` closes `acceptChan`. -/
  | closeAccept (g : Gid)
  /-- `Session.Close` closes the connection. -/
  | closeConn (g : Gid)
  /-- `pingLoop`'s ticker ticks. -/
  | tick
  deriving DecidableEq, Repr

namespace Session

/-- The steps of a process that has not panicked. -/
def act (s : Session) : Act → Option Session
  | .openStream g targetPort =>
    if s.pc g ≠ .idle then none
    else if s.closed then some (s.answer g (.opened none))
    else some (s.register g targetPort)
  | .acceptStream g =>
    if s.pc g ≠ .idle then none
    else
      match s.acceptChan.recv with
      | .value r c =>
        some ({ s.modify r ({ · with handed := true }) with acceptChan := c }.answer g (.accepted (some r)))
      | .ended => some (s.answer g (.accepted none))
      | .blocks => none
  | .write g r data =>
    if s.pc g ≠ .idle ∨ (s.heap r).handed = false then none
    else if (s.heap r).closed then some (s.answer g (.wrote 0 true))
    else some (s.goto g (.waitMu (.data r (s.heap r).id data 0)))
  | .read g r n =>
    if s.pc g ≠ .idle ∨ (s.heap r).handed = false then none
    else ((s.heap r).read n).map fun p => (s.modify r fun _ => p.2).answer g p.1
  | .closeStream g r =>
    if s.pc g ≠ .idle ∨ (s.heap r).handed = false then none
    else
      match (s.heap r).closeOnce with
      | .fresh =>
        some ((s.modify r ({ · with closeOnce := .running, closed := true })).goto g
          (.closing (s.heap r).id (.streamClose r)))
      | .running => none
      | .done => some (s.answer g .closed)
  | .close g =>
    if s.pc g ≠ .idle ∧ s.pc g ≠ .leaving then none
    else
      match s.closeOnce with
      | .ready => some { s.goto g .teardown with closeOnce := .table }
      | .done => some (s.closeDone g)
      | _ => none
  | .dropEntry g =>
    match s.pc g with
    | .closing id why =>
      match s.streams.lookup id with
      | some r => some ((s.drop id r (.closeStream why)).goto g (.waitMu (.closeFrame id why)))
      | none => some (s.closeReturn g why)
    | _ => none
  | .lock g =>
    match s.pc g with
    | .waitMu j => if s.writeMu = none then some (s.acquire g j) else none
    | _ => none
  | .beginFrame g =>
    match s.pc g with
    | .locked j => if s.wants j then some (s.beginWrite g j) else none
    | _ => none
  | .endFrame g ok =>
    match s.pc g with
    | .writing j => some (s.endWrite g j ok)
    | _ => none
  | .unlock g =>
    match s.pc g with
    | .locked j => if s.wants j then none else some (s.giveUp g j)
    | _ => none
  | .recv f => if s.pc .readLoop = .read then some (s.dispatch f) else none
  | .recvErr => if s.pc .readLoop = .read then some (s.goto .readLoop .leaving) else none
  | .enqueue =>
    match s.pc .readLoop with
    | .accept r id =>
      match s.acceptChan.send r with
      | .panics => some { s with panic := some .sendOnClosed }
      | .sent c => some { s.goto .readLoop .read with acceptChan := c }
      | .blocks => some (s.goto .readLoop (.closing id .acceptOverflow))
    | _ => none
  | .push =>
    match s.pc .readLoop with
    | .push r _ payload =>
      match (s.heap r).readChan.send payload with
      | .panics => some { s with panic := some .sendOnClosed }
      | .sent c => some ((s.modify r ({ · with readChan := c })).goto .readLoop .read)
      | .blocks => none
    | _ => none
  | .timeout =>
    match s.pc .readLoop with
    | .push _ id _ => some (s.goto .readLoop (.closing id .pushTimeout))
    | _ => none
  | .closeStreams g =>
    if s.pc g = .teardown ∧ s.closeOnce = .table then some { s.closeStreams with closeOnce := .queue }
    else none
  | .closeAccept g =>
    if s.pc g = .teardown ∧ s.closeOnce = .queue then some { s.closeAccept with closeOnce := .conn }
    else none
  | .closeConn g =>
    if s.pc g = .teardown ∧ s.closeOnce = .conn then
      some { s.closeDone g with closeOnce := .done, connClosed := true }
    else none
  | .tick => if s.pc .pingLoop = .tick then some (s.goto .pingLoop (.waitMu .ping)) else none

/-- **The step function.** -/
def step (s : Session) (a : Act) : Option Session := if s.panic = none then s.act a else none

/-- **What a step can do**, one rule for each branch of `act`. -/
inductive Trans (s : Session) : Act → Session → Prop
  | openRefused {g targetPort} : s.pc g = .idle → s.closed = true →
      Trans s (.openStream g targetPort) (s.answer g (.opened none))
  | openStream {g targetPort} : s.pc g = .idle → s.closed = false →
      Trans s (.openStream g targetPort) (s.register g targetPort)
  | acceptEnded {g} : s.pc g = .idle → Trans s (.acceptStream g) (s.answer g (.accepted none))
  | acceptStream {g r c} : s.pc g = .idle → s.acceptChan.recv = .value r c →
      Trans s (.acceptStream g)
        ({ s.modify r ({ · with handed := true }) with acceptChan := c }.answer g (.accepted (some r)))
  | writeRefused {g r data} : s.pc g = .idle → (s.heap r).handed = true → (s.heap r).closed = true →
      Trans s (.write g r data) (s.answer g (.wrote 0 true))
  | write {g r data} : s.pc g = .idle → (s.heap r).handed = true → (s.heap r).closed = false →
      Trans s (.write g r data) (s.goto g (.waitMu (.data r (s.heap r).id data 0)))
  | read {g r n ret st} : s.pc g = .idle → (s.heap r).handed = true → (s.heap r).read n = some (ret, st) →
      Trans s (.read g r n) ((s.modify r fun _ => st).answer g ret)
  | closeStream {g r} : s.pc g = .idle → (s.heap r).handed = true → (s.heap r).closeOnce = .fresh →
      Trans s (.closeStream g r)
        ((s.modify r ({ · with closeOnce := .running, closed := true })).goto g
          (.closing (s.heap r).id (.streamClose r)))
  | closeStreamAgain {g r} : s.pc g = .idle → (s.heap r).handed = true → (s.heap r).closeOnce = .done →
      Trans s (.closeStream g r) (s.answer g .closed)
  | close {g} : (s.pc g = .idle ∨ s.pc g = .leaving) → s.closeOnce = .ready →
      Trans s (.close g) { s.goto g .teardown with closeOnce := .table }
  | closeAgain {g} : (s.pc g = .idle ∨ s.pc g = .leaving) → s.closeOnce = .done →
      Trans s (.close g) (s.closeDone g)
  | dropEntry {g id why r} : s.pc g = .closing id why → s.streams.lookup id = some r →
      Trans s (.dropEntry g) ((s.drop id r (.closeStream why)).goto g (.waitMu (.closeFrame id why)))
  | dropMissing {g id why} : s.pc g = .closing id why → s.streams.lookup id = none →
      Trans s (.dropEntry g) (s.closeReturn g why)
  | lock {g j} : s.pc g = .waitMu j → s.writeMu = none → Trans s (.lock g) (s.acquire g j)
  | beginFrame {g j} : s.pc g = .locked j → s.wants j = true → Trans s (.beginFrame g) (s.beginWrite g j)
  | endFrame {g j ok} : s.pc g = .writing j → Trans s (.endFrame g ok) (s.endWrite g j ok)
  | unlock {g j} : s.pc g = .locked j → s.wants j = false → Trans s (.unlock g) (s.giveUp g j)
  | recv {f} : s.pc .readLoop = .read → Trans s (.recv f) (s.dispatch f)
  | recvErr : s.pc .readLoop = .read → Trans s .recvErr (s.goto .readLoop .leaving)
  | enqueuePanics {r id} : s.pc .readLoop = .accept r id → s.acceptChan.closed = true →
      Trans s .enqueue { s with panic := some .sendOnClosed }
  | enqueue {r id c} : s.pc .readLoop = .accept r id → s.acceptChan.send r = .sent c →
      Trans s .enqueue { s.goto .readLoop .read with acceptChan := c }
  | overflow {r id} : s.pc .readLoop = .accept r id →
      Trans s .enqueue (s.goto .readLoop (.closing id .acceptOverflow))
  | pushPanics {r id payload} : s.pc .readLoop = .push r id payload → (s.heap r).readChan.closed = true →
      Trans s .push { s with panic := some .sendOnClosed }
  | push {r id payload c} : s.pc .readLoop = .push r id payload → (s.heap r).readChan.send payload = .sent c →
      Trans s .push ((s.modify r ({ · with readChan := c })).goto .readLoop .read)
  | timeout {r id payload} : s.pc .readLoop = .push r id payload →
      Trans s .timeout (s.goto .readLoop (.closing id .pushTimeout))
  | closeStreams {g} : s.pc g = .teardown → s.closeOnce = .table →
      Trans s (.closeStreams g) { s.closeStreams with closeOnce := .queue }
  | closeAccept {g} : s.pc g = .teardown → s.closeOnce = .queue →
      Trans s (.closeAccept g) { s.closeAccept with closeOnce := .conn }
  | closeConn {g} : s.pc g = .teardown → s.closeOnce = .conn →
      Trans s (.closeConn g) { s.closeDone g with closeOnce := .done, connClosed := true }
  | tick : s.pc .pingLoop = .tick → Trans s .tick (s.goto .pingLoop (.waitMu .ping))

theorem trans_of_act {s s' : Session} {a : Act} (h : s.act a = some s') : s.Trans a s' := by
  cases a with
  | openStream g targetPort =>
    simp only [act] at h
    split_ifs at h with hg hc <;> cases h
    · exact .openRefused (not_not.mp hg) hc
    · exact .openStream (not_not.mp hg) (Bool.eq_false_iff.mpr hc)
  | acceptStream g =>
    simp only [act] at h
    split_ifs at h with hg
    split at h
    · rename_i hrecv; cases h; exact .acceptStream (not_not.mp hg) hrecv
    · cases h; exact .acceptEnded (not_not.mp hg)
    · cases h
  | write g r data =>
    simp only [act] at h
    split_ifs at h with hg hc <;> cases h
    all_goals simp only [ne_eq, not_or, not_not, Bool.not_eq_false] at hg
    · exact .writeRefused hg.1 hg.2 hc
    · exact .write hg.1 hg.2 (Bool.eq_false_iff.mpr hc)
  | read g r n =>
    simp only [act] at h
    split_ifs at h with hg
    simp only [ne_eq, not_or, not_not, Bool.not_eq_false] at hg
    rw [Option.map_eq_some_iff] at h
    obtain ⟨⟨ret, st⟩, hread, rfl⟩ := h
    exact .read hg.1 hg.2 hread
  | closeStream g r =>
    simp only [act] at h
    split_ifs at h with hg
    simp only [ne_eq, not_or, not_not, Bool.not_eq_false] at hg
    split at h
    · rename_i ho; cases h; exact .closeStream hg.1 hg.2 ho
    · cases h
    · rename_i ho; cases h; exact .closeStreamAgain hg.1 hg.2 ho
  | close g =>
    simp only [act] at h
    split_ifs at h with hg
    have hg' : s.pc g = .idle ∨ s.pc g = .leaving := by
      by_contra hne
      exact hg (by simpa only [not_or] using hne)
    split at h
    · rename_i ho; cases h; exact .close hg' ho
    · rename_i ho; cases h; exact .closeAgain hg' ho
    · cases h
  | dropEntry g =>
    simp only [act] at h
    split at h
    · rename_i id why hg
      split at h
      · rename_i hl; cases h; exact .dropEntry hg hl
      · rename_i hl; cases h; exact .dropMissing hg hl
    · cases h
  | lock g =>
    simp only [act] at h
    split at h
    · rename_i hg; split_ifs at h with hm; cases h; exact .lock hg hm
    · cases h
  | beginFrame g =>
    simp only [act] at h
    split at h
    · rename_i hg; split_ifs at h with hw; cases h; exact .beginFrame hg hw
    · cases h
  | endFrame g ok =>
    simp only [act] at h
    split at h
    · rename_i hg; cases h; exact .endFrame hg
    · cases h
  | unlock g =>
    simp only [act] at h
    split at h
    · rename_i hg; split_ifs at h with hw; cases h; exact .unlock hg (Bool.eq_false_iff.mpr hw)
    · cases h
  | recv f =>
    simp only [act] at h
    split_ifs at h with hg
    cases h; exact .recv hg
  | recvErr =>
    simp only [act] at h
    split_ifs at h with hg
    cases h; exact .recvErr hg
  | enqueue =>
    simp only [act] at h
    split at h
    · rename_i hg
      split at h
      · rename_i hs; cases h; exact .enqueuePanics hg (Chan.send_eq_panics.mp hs)
      · rename_i hs; cases h; exact .enqueue hg hs
      · cases h; exact .overflow hg
    · cases h
  | push =>
    simp only [act] at h
    split at h
    · rename_i hg
      split at h
      · rename_i hs; cases h; exact .pushPanics hg (Chan.send_eq_panics.mp hs)
      · rename_i hs; cases h; exact .push hg hs
      · cases h
    · cases h
  | timeout =>
    simp only [act] at h
    split at h
    · rename_i hg; cases h; exact .timeout hg
    · cases h
  | closeStreams g =>
    simp only [act] at h
    split_ifs at h with hg
    cases h; exact .closeStreams hg.1 hg.2
  | closeAccept g =>
    simp only [act] at h
    split_ifs at h with hg
    cases h; exact .closeAccept hg.1 hg.2
  | closeConn g =>
    simp only [act] at h
    split_ifs at h with hg
    cases h; exact .closeConn hg.1 hg.2
  | tick =>
    simp only [act] at h
    split_ifs at h with hg
    cases h; exact .tick hg

/-- What `readLoop` does with a frame, by the cases of its `switch`. -/
theorem dispatch_cases (s : Session) (f : Frame) :
    (f.type = frameStreamOpen ∧ s.dispatch f =
      ((s.heard f).enter f.streamID f.payload).goto .readLoop (.accept s.fresh f.streamID)) ∨
    (∃ r, f.type = frameData ∧ s.streams.lookup f.streamID = some r ∧
      s.dispatch f = (s.heard f).goto .readLoop (.push r f.streamID f.payload)) ∨
    (∃ r, f.type = frameStreamClose ∧ s.streams.lookup f.streamID = some r ∧
      s.dispatch f = (s.heard f).drop f.streamID r .peerClose) ∨
    (f.type = framePing ∧ s.dispatch f = (s.heard f).goto .readLoop (.waitMu .pong)) ∨
    (f.type ≠ frameStreamOpen ∧ f.type ≠ framePing ∧
      (f.type = frameData ∨ f.type = frameStreamClose → s.streams.lookup f.streamID = none) ∧
      s.dispatch f = s.heard f) := by
  have hl : (s.heard f).streams.lookup f.streamID = s.streams.lookup f.streamID := rfl
  by_cases ho : f.type = frameStreamOpen
  · exact .inl ⟨ho, by simp only [dispatch, if_pos ho]; rfl⟩
  by_cases hd : f.type = frameData
  · cases hr : s.streams.lookup f.streamID with
    | some r => exact .inr (.inl ⟨r, hd, rfl, by simp only [dispatch, if_neg ho, if_pos hd, hl, hr]⟩)
    | none =>
      refine .inr (.inr (.inr (.inr ⟨ho, by rw [hd]; decide, fun _ => rfl, ?_⟩)))
      simp only [dispatch, if_neg ho, if_pos hd, hl, hr]
  by_cases hc : f.type = frameStreamClose
  · cases hr : s.streams.lookup f.streamID with
    | some r =>
      exact .inr (.inr (.inl ⟨r, hc, rfl, by simp only [dispatch, if_neg ho, if_neg hd, if_pos hc, hl, hr]⟩))
    | none =>
      refine .inr (.inr (.inr (.inr ⟨ho, by rw [hc]; decide, fun _ => rfl, ?_⟩)))
      simp only [dispatch, if_neg ho, if_neg hd, if_pos hc, hl, hr]
  by_cases hp : f.type = framePing
  · exact .inr (.inr (.inr (.inl ⟨hp, by simp only [dispatch, if_neg ho, if_neg hd, if_neg hc, if_pos hp]⟩)))
  · refine .inr (.inr (.inr (.inr ⟨ho, hp, fun h => absurd h (by simp [hd, hc]), ?_⟩)))
    simp only [dispatch, if_neg ho, if_neg hd, if_neg hc, if_neg hp]

/-- A step is of a process that has not panicked, by one of the rules. -/
theorem trans_of_step {s s' : Session} {a : Act} (h : s.step a = some s') :
    s.panic = none ∧ s.Trans a s' := by
  unfold step at h
  split_ifs at h with hp
  exact ⟨hp, trans_of_act h⟩

end Session

end Hawal.Mux
