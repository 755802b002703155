import Hawal.Mux.Steady

/-!
# A forwarded connection

`pipeUserConn` in `core/server/server.go` and `handleIncomingStream` in
`core/client/client.go`. Each has a stream and a connection, the user's on the server
and the target's on the client, and runs two loops between them: `io.CopyBuffer` from
the connection to the stream and then `stream.Close()`, and `io.CopyBuffer` from the
stream to the connection and then the connection's `Close`. The two functions differ in
where the stream comes from: the server opens it, and the client accepts it and has
dialled the target before the loops start.

The connection's other end sends some bytes, shuts down its sending side, and reads
what it gets. The sessions are those of `Hawal.Mux.Pair`, which other goroutines use
for other streams at the same time. Nothing fails: no connection is lost, no push is given
up, and no session is closed.
-/

namespace Hawal.Forward

open Hawal.Lib Hawal.Mux

/-- The size of the buffers in `BufferPool`. -/
def bufferSize : ℕ := 32 * 1024

/-- The goroutine of `pipeUserConn` or `handleIncomingStream`. -/
def mainGid : Gid := .app 0

/-- The loop from the connection to the stream. -/
def upGid : Gid := .app 1

/-- The loop from the stream to the connection. -/
def downGid : Gid := .app 2

/-- Where a loop is. -/
inductive Loop where
  /-- Before or in the `Read`. -/
  | reading
  /-- `Read` has returned `b`. -/
  | holding (b : List UInt8)
  /-- In the `Write` of `b` to the stream. -/
  | writing (b : List UInt8)
  /-- `io.CopyBuffer` has returned. -/
  | ended
  /-- In the `Close` of the stream. -/
  | closing
  /-- `Close` has returned. -/
  | done
  deriving DecidableEq, Repr

/-- `io.CopyBuffer` has returned. -/
def Loop.over : Loop → Bool
  | .ended => true
  | .closing => true
  | .done => true
  | _ => false

/-- One machine's part of the forwarded connection. -/
structure Pipe where
  /-- The stream, once there is one. -/
  stream : Option Ref := none
  /-- What the other end of the connection sends and was not read yet. After it comes the
  end of the input. -/
  input : List UInt8
  /-- What was written to the connection. -/
  output : List UInt8 := []
  /-- The connection was closed on this side. -/
  connClosed : Bool := false
  /-- The loop from the connection to the stream. -/
  up : Loop := .reading
  /-- The loop from the stream to the connection. -/
  down : Loop := .reading
  /-- The function has returned. -/
  returned : Bool := false
  deriving DecidableEq, Repr

/-- The two machines. -/
structure Forwarding where
  /-- The sessions. -/
  mux : Pair
  /-- The parts of the forwarded connection. -/
  pipe : Side → Pipe

/-- At the start; `said x` is what the connection at `x` is sent. -/
def newForwarding (said : Side → List UInt8) : Forwarding := ⟨newPair, fun x => { input := said x }⟩

/-- A goroutine other than the three of the forwarded connection. -/
def Other : Gid → Bool
  | .app n => decide (3 ≤ n)
  | _ => false

/-- Apart from the three goroutines only others call the sessions' functions, and not on the
stream `r` of the forwarded connection. -/
def Leaves (r : Option Ref) : Act → Bool
  | .openStream g _ => Other g
  | .acceptStream g => Other g
  | .write g r' _ => Other g && decide (r ≠ some r')
  | .read g r' _ => Other g && decide (r ≠ some r')
  | .closeStream g r' => Other g && decide (r ≠ some r')
  | _ => true

/-- The steps. -/
inductive Event where
  /-- A step of a session or of the tunnel. -/
  | mux (e : Mux.Event)
  /-- `pipeUserConn` calls `OpenStream`. -/
  | openStream (targetPort : List UInt8)
  /-- The client calls `AcceptStream`. -/
  | acceptStream
  /-- `Read` of the connection returns `k` bytes. -/
  | readConn (x : Side) (k : ℕ)
  /-- The `Write` of the stream is called. -/
  | write (x : Side)
  /-- It returns. -/
  | wrote (x : Side)
  /-- `Read` of the connection returns `io.EOF`, or an error. -/
  | endInput (x : Side)
  /-- `stream.Close()` is called. -/
  | close (x : Side)
  /-- It returns. -/
  | closed (x : Side)
  /-- `Read` of the stream. -/
  | readStream (x : Side)
  /-- The `Write` of the connection. -/
  | writeConn (x : Side)
  /-- The `Close` of the connection. -/
  | closeConn (x : Side)
  /-- Both loops are done, and the deferred calls run: `Close` of the stream and of the
  connection. -/
  | finish (x : Side)

namespace Forwarding

variable (cfg : Config) (f : Forwarding)

/-- One machine's part changes. -/
def set (x : Side) (c : Pipe) : Forwarding := { f with pipe := Function.update f.pipe x c }

/-- The step is one of the other goroutines, or goes on with a call. -/
def Permits : Mux.Event → Bool
  | .act x a => a.Smooth && Leaves (f.pipe x).stream a
  | e => e.Smooth

/-- The sessions have made a step; it may be that `OpenStream` or `AcceptStream` has
returned the stream. -/
def goesOn (m : Pair) : Forwarding where
  mux := m
  pipe x :=
    if (f.pipe x).stream = none then { f.pipe x with stream := (m x).sess.given mainGid } else f.pipe x

/-- A goroutine calls a function of the session at `x`. -/
def call (x : Side) (a : Act) (c : Pipe) : Option Forwarding :=
  (f.mux.step cfg (.act x a)).map fun m => { f with mux := m }.set x c

/-- What the loop does with the result of `Write`: `io.CopyBuffer` stops on an error or
a short write. -/
def afterWrite (b : List UInt8) (n : ℕ) (err : Bool) : Loop :=
  if n = b.length ∧ err = false then .reading else .ended

/-- What the loop does with the result of `Read`. -/
def afterRead : Option Ret → Loop
  | some (.read b) => .holding b
  | _ => .ended

/-- The steps of a machine whose process has not panicked. -/
def act : Event → Option Forwarding
  | .mux e => if f.Permits e then (f.mux.step cfg e).map f.goesOn else none
  | .openStream targetPort =>
    if (f.pipe .server).stream = none then
      (f.mux.step cfg (.act .server (.openStream mainGid targetPort))).map f.goesOn
    else none
  | .acceptStream =>
    if (f.pipe .client).stream = none then
      (f.mux.step cfg (.act .client (.acceptStream mainGid))).map f.goesOn
    else none
  | .readConn x k =>
    let c := f.pipe x
    if c.stream ≠ none ∧ c.up = .reading ∧ c.connClosed = false ∧ 0 < k ∧ k ≤ bufferSize ∧
        k ≤ c.input.length then
      some (f.set x { c with up := .holding (c.input.take k), input := c.input.drop k })
    else none
  | .write x =>
    let c := f.pipe x
    match c.stream, c.up with
    | some r, .holding b => f.call cfg x (.write upGid r b) { c with up := .writing b }
    | _, _ => none
  | .wrote x =>
    let c := f.pipe x
    match c.up, (f.mux x).sess.pc upGid, (f.mux x).sess.ret upGid with
    | .writing b, .idle, some (.wrote n err) => some (f.set x { c with up := afterWrite b n err })
    | _, _, _ => none
  | .endInput x =>
    let c := f.pipe x
    if c.stream ≠ none ∧ c.up = .reading ∧ (c.input = [] ∨ c.connClosed = true) then
      some (f.set x { c with up := .ended })
    else none
  | .close x =>
    let c := f.pipe x
    match c.stream, c.up with
    | some r, .ended => f.call cfg x (.closeStream upGid r) { c with up := .closing }
    | _, _ => none
  | .closed x =>
    let c := f.pipe x
    if c.up = .closing ∧ (f.mux x).sess.pc upGid = .idle then some (f.set x { c with up := .done }) else none
  | .readStream x =>
    let c := f.pipe x
    match c.stream, c.down with
    | some r, .reading =>
      (f.mux.step cfg (.act x (.read downGid r bufferSize))).map fun m =>
        { f with mux := m }.set x { c with down := afterRead ((m x).sess.ret downGid) }
    | _, _ => none
  | .writeConn x =>
    let c := f.pipe x
    match c.down with
    | .holding b => some (f.set x { c with down := .reading, output := c.output ++ b })
    | _ => none
  | .closeConn x =>
    let c := f.pipe x
    if c.down = .ended then some (f.set x { c with down := .done, connClosed := true }) else none
  | .finish x =>
    let c := f.pipe x
    match c.stream, c.up, c.down with
    | some r, .done, .done =>
      if c.returned = false then
        f.call cfg x (.closeStream mainGid r) { c with connClosed := true, returned := true }
      else none
    | _, _, _ => none

end Forwarding

/-- The machine that makes the step, when it is one of the forwarded connection's. -/
def Event.side : Event → Option Side
  | .mux _ => none
  | .openStream _ => some .server
  | .acceptStream => some .client
  | .readConn x _ => some x
  | .write x => some x
  | .wrote x => some x
  | .endInput x => some x
  | .close x => some x
  | .closed x => some x
  | .readStream x => some x
  | .writeConn x => some x
  | .closeConn x => some x
  | .finish x => some x

namespace Forwarding

/-- **The step function.** A process that has panicked takes no step. -/
def step (cfg : Config) (f : Forwarding) (e : Event) : Option Forwarding :=
  if e.side.all fun x => (f.mux x).sess.panic = none then f.act cfg e else none

/-- **What a step can do.** -/
inductive Trans (cfg : Config) (f : Forwarding) : Forwarding → Prop
  | mux {e m} : e.Smooth = true →
      (∀ x a, a.At x e → Leaves (f.pipe x).stream a = true ∨ (f.pipe x).stream = none) →
      f.mux.step cfg e = some m → Trans cfg f (f.goesOn m)
  | readConn {x k} : (f.pipe x).stream ≠ none → (f.pipe x).up = .reading → Trans cfg f (f.set x { f.pipe x with
      up := .holding ((f.pipe x).input.take k), input := (f.pipe x).input.drop k })
  | write {x r b s} : (f.pipe x).stream = some r → (f.pipe x).up = .holding b →
      (f.mux x).sess.step (.write upGid r b) = some s →
      Trans cfg f ({ f with mux := f.mux.run x s }.set x { f.pipe x with up := .writing b })
  | wrote {x b n err} : (f.pipe x).up = .writing b → (f.mux x).sess.pc upGid = .idle →
      (f.mux x).sess.ret upGid = some (.wrote n err) →
      Trans cfg f (f.set x { f.pipe x with up := afterWrite b n err })
  | endInput {x} : (f.pipe x).stream ≠ none → (f.pipe x).up = .reading →
      (f.pipe x).input = [] ∨ (f.pipe x).connClosed = true → Trans cfg f (f.set x { f.pipe x with up := .ended })
  | close {x r s} : (f.pipe x).stream = some r → (f.pipe x).up = .ended →
      (f.mux x).sess.step (.closeStream upGid r) = some s →
      Trans cfg f ({ f with mux := f.mux.run x s }.set x { f.pipe x with up := .closing })
  | closed {x} : (f.pipe x).up = .closing → Trans cfg f (f.set x { f.pipe x with up := .done })
  | readStream {x r s} : (f.pipe x).stream = some r → (f.pipe x).down = .reading →
      (f.mux x).sess.step (.read downGid r bufferSize) = some s →
      Trans cfg f ({ f with mux := f.mux.run x s }.set x { f.pipe x with down := afterRead (s.ret downGid) })
  | writeConn {x b} : (f.pipe x).down = .holding b →
      Trans cfg f (f.set x { f.pipe x with down := .reading, output := (f.pipe x).output ++ b })
  | closeConn {x} : (f.pipe x).down = .ended →
      Trans cfg f (f.set x { f.pipe x with down := .done, connClosed := true })
  | finish {x r s} : (f.pipe x).stream = some r → (f.pipe x).up = .done → (f.pipe x).down = .done →
      (f.mux x).sess.step (.closeStream mainGid r) = some s →
      Trans cfg f ({ f with mux := f.mux.run x s }.set x { f.pipe x with connClosed := true, returned := true })

variable {cfg : Config} {f f' : Forwarding}

theorem permits_iff {e : Mux.Event} : f.Permits e = true ↔
    e.Smooth = true ∧ ∀ x a, a.At x e → Leaves (f.pipe x).stream a = true := by
  have other : (∀ x a, e ≠ .act x a) → ∀ x a, a.At x e → Leaves (f.pipe x).stream a = true := by
    intro he x a ha
    cases a with
    | openStream => exact absurd ha (he _ _)
    | acceptStream => exact absurd ha (he _ _)
    | write => exact absurd ha (he _ _)
    | read => exact absurd ha (he _ _)
    | closeStream => exact absurd ha (he _ _)
    | _ => rfl
  cases e with
  | act x a =>
    rw [Permits, Bool.and_eq_true]
    refine and_congr_right fun hs => ⟨fun hl y b hb => ?_, fun h => ?_⟩
    · obtain ⟨rfl, rfl⟩ := hb.eq_act
      exact hl
    · cases a with
      | beginFrame => rfl
      | endFrame => rfl
      | recv => rfl
      | recvErr => rfl
      | _ => exact h x _ rfl
  | _ => exact ⟨fun h => ⟨h, other (by simp)⟩, fun h => h.1⟩

/-- A call is a step of the session. -/
theorem call_eq_some {x : Side} {a : Act} {c : Pipe} (h : f.call cfg x a c = some f') :
    ∃ s, (f.mux x).sess.step a = some s ∧ f' = { f with mux := f.mux.run x s }.set x c := by
  rw [call, Option.map_eq_some_iff] at h
  obtain ⟨m, hm, rfl⟩ := h
  cases Pair.trans_of_step hm with
  | act _ hs => exact ⟨_, hs, rfl⟩

theorem trans_of_act {e : Event} (h : f.act cfg e = some f') : f.Trans cfg f' := by
  cases e with
  | mux e =>
    simp only [act] at h
    split_ifs at h with he
    obtain ⟨m, hm, rfl⟩ := Option.map_eq_some_iff.mp h
    obtain ⟨hsmooth, hleaves⟩ := permits_iff.mp he
    exact .mux hsmooth (fun x a ha => .inl (hleaves x a ha)) hm
  | openStream targetPort =>
    simp only [act] at h
    split_ifs at h with hn
    obtain ⟨m, hm, rfl⟩ := Option.map_eq_some_iff.mp h
    refine .mux rfl (fun x a ha => .inr ?_) hm
    exact ha.eq_act.1 ▸ hn
  | acceptStream =>
    simp only [act] at h
    split_ifs at h with hn
    obtain ⟨m, hm, rfl⟩ := Option.map_eq_some_iff.mp h
    refine .mux rfl (fun x a ha => .inr ?_) hm
    exact ha.eq_act.1 ▸ hn
  | readConn x k =>
    simp only [act] at h
    split_ifs at h with hk
    cases h
    exact .readConn hk.1 hk.2.1
  | write x =>
    simp only [act] at h
    split at h
    · rename_i r b hr hb
      obtain ⟨s, hs, rfl⟩ := call_eq_some h
      exact .write hr hb hs
    · cases h
  | wrote x =>
    simp only [act] at h
    split at h
    · rename_i b n err hb hpc hret
      cases h
      exact .wrote hb hpc hret
    · cases h
  | endInput x =>
    simp only [act] at h
    split_ifs at h with hk
    cases h
    exact .endInput hk.1 hk.2.1 hk.2.2
  | close x =>
    simp only [act] at h
    split at h
    · rename_i r hr hb
      obtain ⟨s, hs, rfl⟩ := call_eq_some h
      exact .close hr hb hs
    · cases h
  | closed x =>
    simp only [act] at h
    split_ifs at h with hk
    cases h
    exact .closed hk.1
  | readStream x =>
    simp only [act] at h
    split at h
    · rename_i r hr hb
      obtain ⟨m, hm, rfl⟩ := Option.map_eq_some_iff.mp h
      cases Pair.trans_of_step hm with
      | act _ hs =>
        rw [Pair.run_self]
        exact .readStream hr hb hs
    · cases h
  | writeConn x =>
    simp only [act] at h
    split at h
    · rename_i b hb
      cases h
      exact .writeConn hb
    · cases h
  | closeConn x =>
    simp only [act] at h
    split_ifs at h with hk
    cases h
    exact .closeConn hk
  | finish x =>
    simp only [act] at h
    split at h
    · rename_i r hr hu hd
      split_ifs at h with hret
      obtain ⟨s, hs, rfl⟩ := call_eq_some h
      exact .finish hr hu hd hs
    · cases h

theorem trans_of_step {e : Event} (h : f.step cfg e = some f') : f.Trans cfg f' := by
  unfold step at h
  split_ifs at h
  exact trans_of_act h

end Forwarding

end Hawal.Forward
