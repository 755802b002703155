import Hawal.Transport.Stealth
import Hawal.Mux.Wire

/-!
# Connections under attack

Any number of connections of one token: the server accepts some
(`handleIncomingTransport` in `core/server/server.go`) and clients dial the others
(`connectAndServe` in `core/client/client.go`). Each end does its handshake and then has
a session. Between the ends is the attacker. It sees every frame that is written, and
what arrives at an end is what it sends there (`Event.arrive`): nothing ties an end that
a client has dialled to one that the server has accepted.

* `World` — the ends, what was written so far, and what `Server` keeps under `s.mu`.
* `step` — the step function.
* `Unforged` — of ciphertexts that decrypt the attacker has only copies.
* `Genuine` — the attacker sends only whole frames that were written.
-/

namespace Hawal.Adversary

open Hawal.Lib Hawal.Transport Hawal.Mux

/-- What all ends share. -/
structure Deployment where
  /-- The token. -/
  token : List UInt8
  /-- The cipher under the token's key. -/
  crypto : CryptoManager
  /-- `EnablePadding` of the sessions of each side. -/
  enablePadding : Side → Bool
  /-- The ports that the server forwards. -/
  ports : List (List UInt8)

/-- How far an end has come. -/
inductive Phase where
  /-- There is no such connection yet. -/
  | unused
  /-- The client has written its frame and waits for the answer. -/
  | dialled
  /-- The server waits for the client's frame. -/
  | accepting
  /-- `PerformServerHandshake` has returned nil. -/
  | accepted
  /-- There is a session. -/
  | running
  /-- The handshake has failed. -/
  | failed
  deriving DecidableEq, Repr

/-- One end of a connection. -/
structure Endpoint where
  /-- The machine. -/
  side : Side := .client
  /-- How far it has come. -/
  phase : Phase := .unused
  /-- The bytes that have arrived. -/
  arrived : List UInt8 := []
  /-- Of these, the bytes that were not read yet. -/
  held : List UInt8 := []
  /-- The frame that was read in the handshake. -/
  greeting : Option Frame := none
  /-- The session. -/
  sess : Session := newSession true

/-- The handshake function has returned nil. -/
def Endpoint.Accepted (e : Endpoint) : Prop := e.phase = .accepted ∨ e.phase = .running

instance (e : Endpoint) : Decidable e.Accepted := inferInstanceAs (Decidable (_ ∨ _))

/-- Who has called `WriteFrame`. -/
inductive Writer where
  /-- `PerformClientHandshake` at the end `n`. -/
  | clientHandshake (n : ℕ)
  /-- `PerformServerHandshake` at the end `n`. -/
  | serverHandshake (n : ℕ)
  /-- The session of the end `n`. -/
  | session (n : ℕ)
  deriving DecidableEq, Repr

/-- The end that a frame was written at. -/
def Writer.at : Writer → ℕ
  | .clientHandshake n => n
  | .serverHandshake n => n
  | .session n => n

/-- All connections of a token. -/
structure World where
  /-- The ends. -/
  ends : ℕ → Endpoint := fun _ => {}
  /-- The `WriteFrame` calls of all ends, oldest first. -/
  written : List (Writer × WriteCall) := []
  /-- The connection whose `handleIncomingTransport` holds `s.mu`. -/
  mu : Option ℕ := none
  /-- `s.session`, by its connection. -/
  session : Option ℕ := none
  /-- `s.listeners`, each with the session it forwards to. -/
  listeners : List (ℕ × List UInt8) := []

/-- The steps. -/
inductive Event where
  /-- A client dials, and `PerformClientHandshake` writes its frame. -/
  | dial (n : ℕ) (draws : Draws) (ok : Bool)
  /-- The server accepts a connection. -/
  | accept (n : ℕ)
  /-- The attacker sends bytes. -/
  | arrive (n : ℕ) (bytes : List UInt8)
  /-- `PerformClientHandshake` reads a frame. -/
  | readAck (n : ℕ)
  /-- `PerformServerHandshake` reads a frame, and writes the answer. -/
  | readHello (n : ℕ) (draws : Draws) (ok : Bool)
  /-- A handshake fails: the connection ends, or its deadline passes. -/
  | fail (n : ℕ)
  /-- `handleIncomingTransport` takes `s.mu`. -/
  | lock (n : ℕ)
  /-- It has closed the old session: it closes the listeners and makes a new one. -/
  | install (n : ℕ)
  /-- `startForwardedListeners` listens on a port. -/
  | listen (n : ℕ) (port : List UInt8)
  /-- A step of a session that is not about the connection. -/
  | act (n : ℕ) (a : Act)
  /-- A `WriteFrame` of a session. -/
  | beginFrame (n : ℕ) (g : Gid) (draws : Draws)
  /-- It returns. -/
  | endFrame (n : ℕ) (g : Gid) (ok : Bool)
  /-- `readLoop` gets a frame. -/
  | recv (n : ℕ)
  /-- `readLoop` gets an error. -/
  | recvErr (n : ℕ)

namespace World

variable (cfg : Deployment) (w : World)

/-- One end changes. -/
def set (n : ℕ) (e : Endpoint) : World := { w with ends := Function.update w.ends n e }

/-- A `WriteFrame` call. -/
def write (o : Writer) (c : WriteCall) : World := { w with written := w.written ++ [(o, c)] }

/-- The session of an end makes a step. -/
def run (n : ℕ) (s : Session) : World := w.set n { w.ends n with sess := s }

/-- On the server only `handleIncomingTransport` closes a session, the one that it is about to
replace. -/
def Permits (n : ℕ) : Act → Prop
  | .close (.app k) => (w.ends n).side = .client ∨ w.mu = some k ∧ w.session = some n
  | _ => True

instance (n : ℕ) (a : Act) : Decidable (w.Permits n a) := by
  unfold Permits
  split <;> infer_instance

/-- `Close` of the old session has returned. -/
def Cleared : Prop := ∀ o ∈ w.session, (w.ends o).sess.closeOnce = .done

instance : Decidable w.Cleared := inferInstanceAs (Decidable (∀ o ∈ w.session, _))

/-- **The step function.** -/
def step : Event → Option World
  | .dial n draws ok =>
    if h : (w.ends n).phase = .unused ∧ (helloFrame cfg.token).payload.length < 2 ^ 32 - 76 then
      some ((w.write (.clientHandshake n) ⟨helloFrame cfg.token, true, draws, h.2⟩).set n
        { w.ends n with side := .client, phase := if ok then .dialled else .failed })
    else none
  | .accept n =>
    if (w.ends n).phase = .unused then some (w.set n { w.ends n with side := .server, phase := .accepting })
    else none
  | .arrive n bytes =>
    some (w.set n { w.ends n with arrived := (w.ends n).arrived ++ bytes, held := (w.ends n).held ++ bytes })
  | .readAck n =>
    if (w.ends n).phase = .dialled then
      match readAck cfg.crypto (w.ends n).held with
      | .ok (f, rest) =>
        some (w.set n { w.ends n with
          phase := .running, held := rest, greeting := some f, sess := newSession false })
      | .error (.bad _) => some (w.set n { w.ends n with phase := .failed })
      | .error (.short _) => none
    else none
  | .readHello n draws ok =>
    if (w.ends n).phase = .accepting then
      match readHello cfg.crypto cfg.token (w.ends n).held with
      | .ok (f, rest) =>
        some ((w.write (.serverHandshake n) ⟨ackFrame, true, draws, by decide⟩).set n
          { w.ends n with phase := if ok then .accepted else .failed, held := rest, greeting := some f })
      | .error (.bad _) => some (w.set n { w.ends n with phase := .failed })
      | .error (.short _) => none
    else none
  | .fail n =>
    if (w.ends n).phase = .dialled ∨ (w.ends n).phase = .accepting then
      some (w.set n { w.ends n with phase := .failed })
    else none
  | .lock n => if (w.ends n).phase = .accepted ∧ w.mu = none then some { w with mu := some n } else none
  | .install n =>
    if (w.ends n).phase = .accepted ∧ w.mu = some n ∧ w.Cleared then
      some { w.set n { w.ends n with phase := .running, sess := newSession true } with
        mu := none, session := some n, listeners := [] }
    else none
  | .listen n port =>
    if (w.ends n).side = .server ∧ (w.ends n).phase = .running ∧ w.mu = none ∧ port ∈ cfg.ports then
      some { w with listeners := w.listeners ++ [(n, port)] }
    else none
  | .act n a =>
    if (w.ends n).phase = .running ∧ a.Local = true ∧ w.Permits n a then
      ((w.ends n).sess.step a).map (w.run n)
    else none
  | .beginFrame n g draws =>
    match (w.ends n).phase, (w.ends n).sess.pc g with
    | .running, .locked j =>
      if h : j.frame.payload.length < 2 ^ 32 - 76 then
        ((w.ends n).sess.step (.beginFrame g)).map
          ((w.write (.session n) ⟨j.frame, cfg.enablePadding (w.ends n).side, draws, h⟩).run n)
      else none
    | _, _ => none
  | .endFrame n g ok =>
    if (w.ends n).phase = .running then ((w.ends n).sess.step (.endFrame g ok)).map (w.run n) else none
  | .recv n =>
    match (w.ends n).phase, readFrame cfg.crypto (w.ends n).held with
    | .running, .ok (f, rest) =>
      ((w.ends n).sess.step (.recv f)).map fun s => w.set n { w.ends n with sess := s, held := rest }
    | _, _ => none
  | .recvErr n =>
    match (w.ends n).phase, readFrame cfg.crypto (w.ends n).held with
    | .running, .error _ => ((w.ends n).sess.step .recvErr).map (w.run n)
    | _, _ => none

/-- **What a step can do**, one rule for each branch of `step`. -/
inductive Trans : Event → World → Prop
  | dial {n draws ok} (hp : (w.ends n).phase = .unused)
      (hlen : (helloFrame cfg.token).payload.length < 2 ^ 32 - 76) :
      Trans (.dial n draws ok)
        ((w.write (.clientHandshake n) ⟨helloFrame cfg.token, true, draws, hlen⟩).set n
          { w.ends n with side := .client, phase := if ok then .dialled else .failed })
  | accept {n} (hp : (w.ends n).phase = .unused) :
      Trans (.accept n) (w.set n { w.ends n with side := .server, phase := .accepting })
  | arrive {n bytes} :
      Trans (.arrive n bytes)
        (w.set n { w.ends n with arrived := (w.ends n).arrived ++ bytes, held := (w.ends n).held ++ bytes })
  | readAck {n f rest} (hp : (w.ends n).phase = .dialled)
      (hr : Transport.readAck cfg.crypto (w.ends n).held = .ok (f, rest)) :
      Trans (.readAck n)
        (w.set n { w.ends n with
          phase := .running, held := rest, greeting := some f, sess := newSession false })
  | readHello {n draws ok f rest} (hp : (w.ends n).phase = .accepting)
      (hr : Transport.readHello cfg.crypto cfg.token (w.ends n).held = .ok (f, rest)) :
      Trans (.readHello n draws ok)
        ((w.write (.serverHandshake n) ⟨ackFrame, true, draws, by decide⟩).set n
          { w.ends n with phase := if ok then .accepted else .failed, held := rest, greeting := some f })
  | fails {e n} (hp : (w.ends n).phase = .dialled ∨ (w.ends n).phase = .accepting) :
      Trans e (w.set n { w.ends n with phase := .failed })
  | lock {n} (hp : (w.ends n).phase = .accepted) (hm : w.mu = none) : Trans (.lock n) { w with mu := some n }
  | install {n} (hp : (w.ends n).phase = .accepted) (hm : w.mu = some n) (hc : w.Cleared) :
      Trans (.install n)
        { w.set n { w.ends n with phase := .running, sess := newSession true } with
          mu := none, session := some n, listeners := [] }
  | listen {n port} : Trans (.listen n port) { w with listeners := w.listeners ++ [(n, port)] }
  | act {n a s} (hp : (w.ends n).phase = .running) (ha : a.Local = true)
      (hs : (w.ends n).sess.step a = some s) : Trans (.act n a) (w.run n s)
  | beginFrame {n g draws s} {j : Job} (hp : (w.ends n).phase = .running)
      (hlen : j.frame.payload.length < 2 ^ 32 - 76)
      (hs : (w.ends n).sess.step (.beginFrame g) = some s) :
      Trans (.beginFrame n g draws)
        ((w.write (.session n) ⟨j.frame, cfg.enablePadding (w.ends n).side, draws, hlen⟩).run n s)
  | endFrame {n g ok s} (hp : (w.ends n).phase = .running)
      (hs : (w.ends n).sess.step (.endFrame g ok) = some s) : Trans (.endFrame n g ok) (w.run n s)
  | recv {n f rest s} (hp : (w.ends n).phase = .running)
      (hr : readFrame cfg.crypto (w.ends n).held = .ok (f, rest))
      (hs : (w.ends n).sess.step (.recv f) = some s) :
      Trans (.recv n) (w.set n { w.ends n with sess := s, held := rest })
  | recvErr {n s} (hp : (w.ends n).phase = .running) (hs : (w.ends n).sess.step .recvErr = some s) :
      Trans (.recvErr n) (w.run n s)

variable {cfg w}

theorem trans_of_step {e : Event} {w' : World} (h : step cfg w e = some w') : Trans cfg w e w' := by
  cases e with
  | dial n draws ok =>
    simp only [step] at h
    split at h
    · rename_i hp; cases h; exact .dial hp.1 hp.2
    · cases h
  | accept n =>
    simp only [step] at h
    split_ifs at h with hp
    cases h; exact .accept hp
  | arrive n bytes => cases h; exact .arrive
  | readAck n =>
    simp only [step] at h
    split_ifs at h with hp
    split at h
    · rename_i hr; cases h; exact .readAck hp hr
    · cases h; exact .fails (.inl hp)
    · cases h
  | readHello n draws ok =>
    simp only [step] at h
    split at h
    · rename_i hp
      split at h
      · rename_i hr; cases h; exact .readHello hp hr
      · cases h; exact .fails (.inr hp)
      · cases h
    · cases h
  | fail n =>
    simp only [step] at h
    split_ifs at h with hp
    cases h; exact .fails hp
  | lock n =>
    simp only [step] at h
    split_ifs at h with hp
    cases h; exact .lock hp.1 hp.2
  | install n =>
    simp only [step] at h
    split_ifs at h with hp
    cases h; exact .install hp.1 hp.2.1 hp.2.2
  | listen n port =>
    simp only [step] at h
    split_ifs at h
    cases h; exact .listen
  | act n a =>
    simp only [step] at h
    split_ifs at h with hp
    obtain ⟨s, hs, rfl⟩ := Option.map_eq_some_iff.mp h
    exact .act hp.1 hp.2.1 hs
  | beginFrame n g draws =>
    simp only [step] at h
    split at h
    · rename_i hp _
      split_ifs at h with hlen
      obtain ⟨s, hs, rfl⟩ := Option.map_eq_some_iff.mp h
      exact .beginFrame hp hlen hs
    · cases h
  | endFrame n g ok =>
    simp only [step] at h
    split_ifs at h with hp
    obtain ⟨s, hs, rfl⟩ := Option.map_eq_some_iff.mp h
    exact .endFrame hp hs
  | recv n =>
    simp only [step] at h
    split at h
    · rename_i hp hr
      obtain ⟨s, hs, rfl⟩ := Option.map_eq_some_iff.mp h
      exact .recv hp hr hs
    · cases h
  | recvErr n =>
    simp only [step] at h
    split at h
    · rename_i hp _
      obtain ⟨s, hs, rfl⟩ := Option.map_eq_some_iff.mp h
      exact .recvErr hp hs
    · cases h

/-! ### One end and the others -/

@[simp] theorem set_ends_self (n : ℕ) (e : Endpoint) : (w.set n e).ends n = e := by
  simp [set]

theorem set_ends_of_ne {n m : ℕ} (e : Endpoint) (h : m ≠ n) : (w.set n e).ends m = w.ends m := by
  simp [set, h]

/-- How each end moves when one of them does. -/
theorem ends_set {R : Endpoint → Endpoint → Prop} {n : ℕ} {x : Endpoint} (hrefl : ∀ y, R y y)
    (hx : R (w.ends n) x) (m : ℕ) : R (w.ends m) ((w.set n x).ends m) := by
  by_cases hm : m = n
  · rw [hm, set_ends_self]
    exact hx
  · rw [set_ends_of_ne x hm]
    exact hrefl _

/-- What holds of all ends and of the one that changes. -/
theorem forall_ends_set {P : Endpoint → Prop} {n : ℕ} {x : Endpoint} (h : ∀ m, P (w.ends m)) (hx : P x) (m : ℕ) :
    P ((w.set n x).ends m) :=
  ends_set (R := fun y z => P y → P z) (fun _ hy => hy) (fun _ => hx) m (h m)

/-- Nothing that was written is unwritten. -/
theorem Trans.written {e : Event} {w' : World} (h : Trans cfg w e w') : w.written <+: w'.written := by
  cases h with
  | dial => exact List.prefix_append _ _
  | readHello => exact List.prefix_append _ _
  | beginFrame => exact List.prefix_append _ _
  | _ => exact List.prefix_rfl

variable (cfg)

/-! ### What the attacker cannot do -/

/-- The end whose `ReadFrame` returns in the step. -/
def reads : Event → Option ℕ
  | .readAck n => some n
  | .readHello n _ _ => some n
  | .recv n => some n
  | _ => none

/-- **The attacker has no ciphertext that decrypts, other than copies**: when `ReadFrame`
decrypts one, it is the encrypted body of an earlier `WriteFrame` call. -/
def Unforged (w : World) (e : Event) : Prop :=
  ∀ n ∈ reads e, (cfg.crypto.decrypt (sealedOf (w.ends n).held)).isOk = true →
    ∃ p ∈ w.written, p.2.encryptedBody cfg.crypto = sealedOf (w.ends n).held

/-- **The attacker sends whole frames that were written**, by any end to any end, as often as
it likes. -/
def Genuine (w : World) : Event → Prop
  | .arrive _ bytes => ∃ p ∈ w.written, p.2.bytes cfg.crypto = bytes
  | _ => True

instance (w : World) (e : Event) : Decidable (Unforged cfg w e) := by
  unfold Unforged
  infer_instance

instance (w : World) (e : Event) : Decidable (Genuine cfg w e) := by
  cases e <;> unfold Genuine <;> infer_instance

end World

/-! ### Runs to look at -/

/-- A token, and a port to forward. -/
def sampleDeployment : Deployment where
  token := [0x74]
  crypto := sampleCrypto
  enablePadding _ := false
  ports := [[0x38, 0x30]]

/-- The client's handshake frame. -/
def sampleHello : WriteCall := ⟨helloFrame sampleDeployment.token, true, plainDraws, by decide⟩

/-- The server's. -/
def sampleAck : WriteCall := ⟨ackFrame, true, plainDraws, by decide⟩

/-- A client at the end 0 and the server at the end 1 come to have sessions: the frames
arrive where they should. -/
def honestRun : List Event :=
  [.dial 0 plainDraws true, .accept 1, .arrive 1 (sampleHello.bytes sampleCrypto), .readHello 1 plainDraws true,
    .arrive 0 (sampleAck.bytes sampleCrypto), .readAck 0, .lock 1, .install 1, .listen 1 [0x38, 0x30]]

end Hawal.Adversary
