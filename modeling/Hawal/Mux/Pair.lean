import Hawal.Mux.Written
import Hawal.Transport.Codec

/-!
# Two sessions on a connection

A server session and a client session, each end of one connection. Bytes that
`WriteFrame` writes go into the buffer of their direction as far as there is room, and
come out of it in order where the other side's `ReadFrame` asks for them. A direction
may be cut at any time (`Event.cut`): then no more bytes go in, and what was in it may
arrive or not.

The steps of a session that are not about the connection are those of
`Session.step`; the others are taken together with what they do to the connection.
-/

namespace Hawal.Mux

open Hawal.Lib Hawal.Transport

/-- The two sides. -/
inductive Side where
  /-- The public server. -/
  | server
  /-- The client behind it. -/
  | client
  deriving DecidableEq, Repr

/-- The other side. -/
def Side.other : Side → Side
  | .server => .client
  | .client => .server

@[simp] theorem Side.other_other (x : Side) : x.other.other = x := by cases x <;> rfl

theorem Side.other_ne (x : Side) : x.other ≠ x := by cases x <;> exact fun h => nomatch h

theorem Side.eq_or_eq_other (x y : Side) : y = x ∨ y = x.other := by cases x <;> cases y <;> decide

/-- What does not change. -/
structure Config where
  /-- The token's key, at both ends. -/
  crypto : CryptoManager
  /-- `enablePadding` of each side. -/
  enablePadding : Side → Bool
  /-- How many bytes the connection takes from each side before a write waits. -/
  cap : Side → ℕ

/-- One end: a session, and the direction of the connection that leads away from it. -/
structure End where
  /-- The session. -/
  sess : Session
  /-- The bytes of the next frame that `ReadFrame` has read. -/
  held : List UInt8 := []
  /-- The bytes of the `WriteFrame` in progress that the connection has not taken. -/
  pending : List UInt8 := []
  /-- The bytes in the connection. -/
  wire : List UInt8 := []
  /-- No more bytes get into the connection. -/
  cut : Bool := false
  /-- The `WriteFrame` calls begun before one failed. -/
  calls : List WriteCall := []

/-- The connection takes bytes. -/
def End.Open (e : End) : Prop := e.cut = false ∧ e.sess.connClosed = false

instance (e : End) : Decidable e.Open := inferInstanceAs (Decidable (_ ∧ _))

/-- The two ends. -/
abbrev Pair := Side → End

/-- Two new sessions. -/
def newPair : Pair := fun x => { sess := newSession (x = .server) }

/-- The steps that are not about the connection. -/
def Act.Local : Act → Bool
  | .beginFrame _ | .endFrame _ _ | .recv _ | .recvErr => false
  | _ => true

/-- The steps of the two sessions and their connection. -/
inductive Event where
  /-- A step of a session that is not about the connection. -/
  | act (x : Side) (a : Act)
  /-- A `WriteFrame` begins. -/
  | beginFrame (x : Side) (g : Gid) (draws : Draws)
  /-- The connection takes `k` bytes. -/
  | send (x : Side) (k : ℕ)
  /-- A `WriteFrame` returns. -/
  | endFrame (x : Side) (g : Gid) (ok : Bool)
  /-- `ReadFrame` reads `k` bytes. -/
  | pull (x : Side) (k : ℕ)
  /-- `ReadFrame` returns a frame. -/
  | recv (x : Side)
  /-- `ReadFrame` returns an error. -/
  | recvErr (x : Side)
  /-- The direction away from `x` is cut. -/
  | cut (x : Side)

/-- The event is the step `a` of the session at `z`. -/
def Act.At (z : Side) (e : Event) : Act → Prop
  | .beginFrame g => ∃ draws, e = .beginFrame z g draws
  | .endFrame g ok => e = .endFrame z g ok
  | .recv _ => e = .recv z
  | .recvErr => e = .recvErr z
  | a => e = .act z a

theorem Act.at_act {a : Act} (h : a.Local = true) (z : Side) : a.At z (.act z a) := by
  cases a with
  | beginFrame => cases h
  | endFrame => cases h
  | recv => cases h
  | recvErr => cases h
  | _ => rfl

theorem Act.At.eq_act {a a' : Act} {x y : Side} (h : a.At x (.act y a')) : y = x ∧ a' = a := by
  cases a with
  | beginFrame =>
    obtain ⟨draws, h⟩ := h
    cases h
  | endFrame => cases (show Event.act y a' = _ from h)
  | recv => cases (show Event.act y a' = _ from h)
  | recvErr => cases (show Event.act y a' = _ from h)
  | _ => exact Event.act.inj h

namespace Pair

variable (cfg : Config) (p : Pair)

/-- One end changes. -/
def put (x : Side) (e : End) : Pair := Function.update p x e

/-- The session of one end has made a step. -/
def run (x : Side) (s : Session) : Pair := p.put x { p x with sess := s }

/-- `WriteFrame` is called. -/
def emit (x : Side) (c : WriteCall) (s : Session) : Pair :=
  p.put x { p x with
    sess := s
    pending := c.bytes cfg.crypto
    calls := if (p x).sess.writeFailed then (p x).calls else (p x).calls ++ [c] }

/-- The connection takes `k` bytes from `x`. -/
def take (x : Side) (k : ℕ) : Pair :=
  p.put x { p x with pending := (p x).pending.drop k, wire := (p x).wire ++ (p x).pending.take k }

/-- `WriteFrame` returns; when it failed, nothing more is taken. -/
def finish (x : Side) (ok : Bool) (s : Session) : Pair :=
  p.put x { p x with sess := s, pending := [], cut := (p x).cut || !ok }

/-- `x` gets `k` bytes of what the other side has sent. -/
def give (x : Side) (k : ℕ) : Pair :=
  (p.put x { p x with held := (p x).held ++ (p x.other).wire.take k }).put x.other
    { p x.other with wire := (p x.other).wire.drop k }

/-- `ReadFrame` has returned a frame, with `rest` left over. -/
def got (x : Side) (rest : List UInt8) (s : Session) : Pair := p.put x { p x with sess := s, held := rest }

/-- A write of `x` may fail, and so may a read of the other side. -/
def Faulty (x : Side) : Prop :=
  (p x).cut = true ∨ (p x).sess.connClosed = true ∨ (p x.other).sess.connClosed = true

instance (x : Side) : Decidable (p.Faulty x) := inferInstanceAs (Decidable (_ ∨ _ ∨ _))

/-- **The step function of the two sessions and their connection.** -/
def step : Event → Option Pair
  | .act x a => if a.Local then ((p x).sess.step a).map (p.run x) else none
  | .beginFrame x g draws =>
    match (p x).sess.pc g with
    | .locked j =>
      if h : j.frame.payload.length < 2 ^ 32 - 76 then
        ((p x).sess.step (.beginFrame g)).map (p.emit cfg x ⟨j.frame, cfg.enablePadding x, draws, h⟩)
      else none
    | _ => none
  | .send x k =>
    if (p x).Open ∧ (p x).sess.panic = none ∧ k ≤ (p x).pending.length ∧
        (p x).wire.length + k ≤ cfg.cap x then some (p.take x k)
    else none
  | .endFrame x g ok =>
    if ok = true ∧ (p x).pending = [] ∨ ok = false ∧ (p x).pending ≠ [] ∧ p.Faulty x then
      ((p x).sess.step (.endFrame g ok)).map (p.finish x ok)
    else none
  | .pull x k =>
    if (p x).sess.pc .readLoop = .read ∧ (p x).sess.panic = none ∧ (p x).sess.connClosed = false ∧
        k ≤ (p x.other).wire.length then
      match readFrame cfg.crypto (p x).held with
      | .error (.short m) => if k ≤ m then some (p.give x k) else none
      | _ => none
    else none
  | .recv x =>
    match readFrame cfg.crypto (p x).held with
    | .ok (f, rest) => ((p x).sess.step (.recv f)).map (p.got x rest)
    | .error _ => none
  | .recvErr x =>
    match readFrame cfg.crypto (p x).held with
    | .error (.bad _) => ((p x).sess.step .recvErr).map (p.run x)
    | .error (.short _) => if p.Faulty x.other then ((p x).sess.step .recvErr).map (p.run x) else none
    | .ok _ => none
  | .cut x => some (p.put x { p x with cut := true })

/-- **What a step can do.** -/
inductive Trans : Event → Pair → Prop
  | act {x a s} : a.Local = true → (p x).sess.step a = some s → Trans (.act x a) (p.run x s)
  | beginFrame {x g draws j s} (h : j.frame.payload.length < 2 ^ 32 - 76) : (p x).sess.pc g = .locked j →
      (p x).sess.step (.beginFrame g) = some s →
      Trans (.beginFrame x g draws) (p.emit cfg x ⟨j.frame, cfg.enablePadding x, draws, h⟩ s)
  | send {x k} : (p x).Open → k ≤ (p x).pending.length → (p x).wire.length + k ≤ cfg.cap x →
      Trans (.send x k) (p.take x k)
  | endFrame {x g s} : (p x).pending = [] → (p x).sess.step (.endFrame g true) = some s →
      Trans (.endFrame x g true) (p.finish x true s)
  | failFrame {x g s} : (p x).pending ≠ [] → p.Faulty x → (p x).sess.step (.endFrame g false) = some s →
      Trans (.endFrame x g false) (p.finish x false s)
  | pull {x k m} : (p x).sess.pc .readLoop = .read → k ≤ (p x.other).wire.length →
      readFrame cfg.crypto (p x).held = .error (.short m) → k ≤ m → Trans (.pull x k) (p.give x k)
  | recv {x f rest s} : readFrame cfg.crypto (p x).held = .ok (f, rest) →
      (p x).sess.step (.recv f) = some s → Trans (.recv x) (p.got x rest s)
  | recvErr {x s} : (p x).sess.step .recvErr = some s →
      p.Faulty x.other ∨ (∃ e, readFrame cfg.crypto (p x).held = .error (.bad e)) → Trans (.recvErr x) (p.run x s)
  | cut {x} : Trans (.cut x) (p.put x { p x with cut := true })

variable {cfg p}

theorem trans_of_step {p' : Pair} {e : Event} (h : p.step cfg e = some p') : p.Trans cfg e p' := by
  cases e with
  | act x a =>
    simp only [step] at h
    split_ifs at h with ha
    obtain ⟨s, hs, rfl⟩ := Option.map_eq_some_iff.mp h
    exact .act ha hs
  | beginFrame x g draws =>
    simp only [step] at h
    split at h
    · rename_i j hj
      split_ifs at h with hlt
      obtain ⟨s, hs, rfl⟩ := Option.map_eq_some_iff.mp h
      exact .beginFrame hlt hj hs
    · cases h
  | send x k =>
    simp only [step] at h
    split_ifs at h with hk
    cases h
    exact .send hk.1 hk.2.2.1 hk.2.2.2
  | endFrame x g ok =>
    simp only [step] at h
    split_ifs at h with hok
    obtain ⟨s, hs, rfl⟩ := Option.map_eq_some_iff.mp h
    rcases hok with ⟨rfl, hp⟩ | ⟨rfl, hp, hf⟩
    · exact .endFrame hp hs
    · exact .failFrame hp hf hs
  | pull x k =>
    simp only [step] at h
    split_ifs at h with hk
    split at h
    · rename_i m hm
      split_ifs at h with hkm
      cases h
      exact .pull hk.1 hk.2.2.2 hm hkm
    · cases h
  | recv x =>
    simp only [step] at h
    split at h
    · rename_i f rest hr
      obtain ⟨s, hs, rfl⟩ := Option.map_eq_some_iff.mp h
      exact .recv hr hs
    · cases h
  | recvErr x =>
    simp only [step] at h
    split at h
    · rename_i e he
      obtain ⟨s, hs, rfl⟩ := Option.map_eq_some_iff.mp h
      exact .recvErr hs (.inr ⟨e, he⟩)
    · split_ifs at h with hf
      obtain ⟨s, hs, rfl⟩ := Option.map_eq_some_iff.mp h
      exact .recvErr hs (.inl hf)
    · cases h
  | cut x =>
    simp only [step, Option.some.injEq] at h
    exact h ▸ .cut

section Ends

variable {x y : Side}

@[simp] theorem put_self (e : End) : p.put x e x = e := by simp [put]

theorem put_of_ne (e : End) (h : y ≠ x) : p.put x e y = p y := by simp [put, h]

@[simp] theorem put_other (e : End) : p.put x e x.other = p x.other := put_of_ne e x.other_ne

@[simp] theorem run_self (s : Session) : p.run x s x = { p x with sess := s } := put_self _

@[simp] theorem run_other (s : Session) : p.run x s x.other = p x.other := put_other _

@[simp] theorem emit_self (c : WriteCall) (s : Session) : p.emit cfg x c s x = { p x with
    sess := s
    pending := c.bytes cfg.crypto
    calls := if (p x).sess.writeFailed then (p x).calls else (p x).calls ++ [c] } := put_self _

@[simp] theorem emit_other (c : WriteCall) (s : Session) : p.emit cfg x c s x.other = p x.other := put_other _

@[simp] theorem take_self (k : ℕ) : p.take x k x =
    { p x with pending := (p x).pending.drop k, wire := (p x).wire ++ (p x).pending.take k } := put_self _

@[simp] theorem take_other (k : ℕ) : p.take x k x.other = p x.other := put_other _

@[simp] theorem finish_self (ok : Bool) (s : Session) : p.finish x ok s x =
    { p x with sess := s, pending := [], cut := (p x).cut || !ok } := put_self _

@[simp] theorem finish_other (ok : Bool) (s : Session) : p.finish x ok s x.other = p x.other := put_other _

@[simp] theorem got_self (rest : List UInt8) (s : Session) :
    p.got x rest s x = { p x with sess := s, held := rest } := put_self _

@[simp] theorem got_other (rest : List UInt8) (s : Session) : p.got x rest s x.other = p x.other := put_other _

@[simp] theorem give_self (k : ℕ) :
    p.give x k x = { p x with held := (p x).held ++ (p x.other).wire.take k } := by
  rw [give, put_of_ne _ x.other_ne.symm, put_self]

@[simp] theorem give_other (k : ℕ) :
    p.give x k x.other = { p x.other with wire := (p x.other).wire.drop k } := by rw [give, put_self]

end Ends

end Pair

/-! ### Pieces of runs -/

/-- The goroutine `g` takes `writeMu` and writes a frame of `n` bytes. -/
def writesFrame (x : Side) (g : Gid) (n : ℕ) : List Event :=
  [.act x (.lock g), .beginFrame x g plainDraws, .send x n, .endFrame x g true]

/-- `ReadFrame` reads a frame with an encrypted body of `n` bytes. -/
def readsFrame (x : Side) (n : ℕ) : List Event := [.pull x 12, .pull x 4, .pull x n, .recv x]

/-- The server opens a stream, and the client accepts it. -/
def opensStream : List Event :=
  .act .server (.openStream (.app 0) []) :: writesFrame .server (.app 0) 44 ++ readsFrame .client 28 ++
    [.act .client .enqueue, .act .client (.acceptStream (.app 0))]

/-- A connection that holds `n` bytes in each direction. -/
def sampleConfig (n : ℕ) : Config := ⟨sampleCrypto, fun _ => false, fun _ => n⟩

end Hawal.Mux
