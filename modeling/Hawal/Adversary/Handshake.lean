import Hawal.Adversary.World

/-!
# Who is behind a handshake

When nobody forges ciphertexts, the frame that ends a handshake was written by somebody who
holds the token (`Greeted`). That is all: nothing in it is new to the connection it is read
on. `accepted_hello` is what the server knows of a client, and `accepted_ack` what a client
knows of the server.

* `replayedRun` — the server accepts a recorded handshake frame, and closes the session that
  is running for it.
* `reflectedRun` — a client accepts its own handshake frame, with another type byte.
-/

namespace Hawal.Adversary

open Hawal.Lib Hawal.Transport Hawal.Mux

/-- The frame comes out of the body of a `WriteFrame` call, under some header. -/
def Vouched (log : List (Writer × WriteCall)) (f : Frame) : Prop :=
  ∃ p ∈ log, ∃ header, header.length = 12 ∧ f = p.2.frameUnder header

/-- What a handshake at one end says. -/
structure Greeted (cfg : Deployment) (log : List (Writer × WriteCall)) (e : Endpoint) : Prop where
  greeting : e.Accepted → ∃ f, e.greeting = some f ∧ Vouched log f ∧
    (e.side = .server → f.type = frameHandshake ∧ f.payload = helloPayload cfg.token) ∧
    (e.side = .client → f.type = frameHandshakeAck)
  client : e.phase = .dialled → e.side = .client
  server : e.phase = .accepting ∨ e.phase = .accepted → e.side = .server

variable {cfg : Deployment} {w w' : World} {e : Event} {log log' : List (Writer × WriteCall)} {f : Frame}
  {x : Endpoint}

theorem Vouched.mono (h : Vouched log f) (hlog : log <+: log') : Vouched log' f := by
  obtain ⟨p, hp, hf⟩ := h
  exact ⟨p, hlog.subset hp, hf⟩

theorem Greeted.mono (h : Greeted cfg log x) (hlog : log <+: log') : Greeted cfg log' x where
  greeting ha := by
    obtain ⟨f, hf, hv, hs⟩ := h.greeting ha
    exact ⟨f, hf, hv.mono hlog, hs⟩
  client := h.client
  server := h.server

/-- Where no handshake has succeeded there is only the side to know. -/
theorem greeted_of_not_accepted (ha : ¬ x.Accepted) (hc : x.phase = .dialled → x.side = .client)
    (hs : x.phase = .accepting → x.side = .server) : Greeted cfg log x where
  greeting h := absurd h ha
  client := hc
  server h := h.elim hs fun h => absurd (.inl h) ha

/-- **A frame that was read is vouched for.** -/
theorem vouched_of_readFrame {n : ℕ} {rest : List UInt8} (hu : World.Unforged cfg w e) (hn : World.reads e = some n)
    (hr : readFrame cfg.crypto (w.ends n).held = .ok (f, rest)) : Vouched w.written f := by
  obtain ⟨-, -, body, hdec, -⟩ := readFrame_eq_ok hr
  obtain ⟨p, hp, hc⟩ := hu n hn (by rw [hdec]; rfl)
  exact ⟨p, hp, frameUnder_of_readFrame hr hc⟩

/-- A step keeps what the handshakes say. -/
theorem World.Trans.greeted (h : Trans cfg w e w') (hu : Unforged cfg w e)
    (hi : ∀ n, Greeted cfg w.written (w.ends n)) : ∀ n, Greeted cfg w'.written (w'.ends n) := by
  have hi' : ∀ n, Greeted cfg w'.written (w.ends n) := fun n => (hi n).mono h.written
  cases h with
  | @dial n _ ok =>
    refine forall_ends_set hi' (greeted_of_not_accepted ?_ (fun _ => rfl) ?_)
    · cases ok <;> simp [Endpoint.Accepted]
    · cases ok <;> simp
  | accept => exact forall_ends_set hi' (greeted_of_not_accepted (by simp [Endpoint.Accepted]) (by simp) (by simp))
  | @arrive n => exact forall_ends_set hi' ⟨(hi' n).greeting, (hi' n).client, (hi' n).server⟩
  | @readAck n f rest hp hr =>
    obtain ⟨hread, ht⟩ := readAck_eq_ok hr
    have hside : (w.ends n).side = .client := (hi n).client hp
    have hv : Vouched w.written f := vouched_of_readFrame hu rfl hread
    refine forall_ends_set hi' ⟨fun _ => ⟨f, rfl, hv, ?_, fun _ => ht⟩, ?_, ?_⟩
    · simp [hside]
    · simp
    · simp
  | @readHello n draws ok f rest hp hr =>
    obtain ⟨hread, ht⟩ := readHello_eq_ok hr
    have hside : (w.ends n).side = .server := (hi n).server (.inl hp)
    have hv : Vouched w.written f := vouched_of_readFrame hu rfl hread
    refine forall_ends_set hi' ⟨fun _ => ⟨f, rfl, hv.mono (List.prefix_append _ _), fun _ => ht, ?_⟩, ?_,
      fun _ => hside⟩
    · simp [hside]
    · cases ok <;> simp
  | @fails _ n =>
    exact forall_ends_set hi' (greeted_of_not_accepted (by simp [Endpoint.Accepted]) (by simp) (by simp))
  | lock => exact hi'
  | @install n hp =>
    have hside : (w.ends n).side = .server := (hi n).server (.inr hp)
    exact forall_ends_set hi' ⟨fun _ => (hi' n).greeting (.inl hp), by simp, fun _ => hside⟩
  | listen => exact hi'
  | @act n => exact forall_ends_set hi' ⟨(hi' n).greeting, (hi' n).client, (hi' n).server⟩
  | @beginFrame n => exact forall_ends_set hi' ⟨(hi' n).greeting, (hi' n).client, (hi' n).server⟩
  | @endFrame n => exact forall_ends_set hi' ⟨(hi' n).greeting, (hi' n).client, (hi' n).server⟩
  | @recv n => exact forall_ends_set hi' ⟨(hi' n).greeting, (hi' n).client, (hi' n).server⟩
  | @recvErr n => exact forall_ends_set hi' ⟨(hi' n).greeting, (hi' n).client, (hi' n).server⟩

/-- A handshake that has succeeded stays so. -/
theorem World.Trans.accepted (h : Trans cfg w e w') (n : ℕ) (ha : (w.ends n).Accepted) :
    (w'.ends n).Accepted ∧ (w'.ends n).side = (w.ends n).side := by
  revert n
  have stays : ∀ {n : ℕ} {x : Endpoint}, ((w.ends n).Accepted → x.Accepted ∧ x.side = (w.ends n).side) →
      ∀ m, (w.ends m).Accepted → ((w.set n x).ends m).Accepted ∧ ((w.set n x).ends m).side = (w.ends m).side :=
    fun {n x} => ends_set (R := fun y z => y.Accepted → z.Accepted ∧ z.side = y.side) fun _ hy => ⟨hy, rfl⟩
  have of_phase : ∀ {n : ℕ} {p : Phase}, (w.ends n).phase = p → p ≠ .accepted → p ≠ .running → ¬ (w.ends n).Accepted :=
    fun {n p} hp h₁ h₂ ha => ha.elim (fun h => h₁ (hp.symm.trans h)) fun h => h₂ (hp.symm.trans h)
  cases h with
  | dial hp => exact stays fun ha => absurd ha (of_phase hp (by simp) (by simp))
  | accept hp => exact stays fun ha => absurd ha (of_phase hp (by simp) (by simp))
  | readAck hp => exact stays fun ha => absurd ha (of_phase hp (by simp) (by simp))
  | readHello hp => exact stays fun ha => absurd ha (of_phase hp (by simp) (by simp))
  | fails hp =>
    refine stays fun ha => ?_
    rcases hp with hp | hp <;> exact absurd ha (of_phase hp (by simp) (by simp))
  | install => exact stays fun _ => ⟨.inr rfl, rfl⟩
  | lock => exact fun n ha => ⟨ha, rfl⟩
  | listen => exact fun n ha => ⟨ha, rfl⟩
  | _ => exact stays fun ha => ⟨ha, rfl⟩

/-- What the handshakes have written. -/
def Writer.Wrote (cfg : Deployment) (c : WriteCall) : Writer → Prop
  | .clientHandshake _ => c.frame = helloFrame cfg.token
  | .serverHandshake _ => c.frame = ackFrame
  | .session _ => True

/-- What holds at every moment. -/
structure World.Sound (cfg : Deployment) (w : World) : Prop where
  greeted : ∀ n, Greeted cfg w.written (w.ends n)
  wrote : ∀ p ∈ w.written, p.1.Wrote cfg p.2
  serving : ∀ n, w.mu = some n ∨ w.session = some n → (w.ends n).side = .server ∧ (w.ends n).Accepted

namespace World

theorem sound_empty : Sound cfg {} where
  greeted _ := greeted_of_not_accepted (by simp [Endpoint.Accepted]) (by simp) (by simp)
  wrote := by simp
  serving := by simp

theorem Trans.wrote (h : Trans cfg w e w') (hl : ∀ p ∈ w.written, p.1.Wrote cfg p.2) :
    ∀ p ∈ w'.written, p.1.Wrote cfg p.2 := by
  have snoc : ∀ {o : Writer} {c : WriteCall}, o.Wrote cfg c → ∀ p ∈ w.written ++ [(o, c)], p.1.Wrote cfg p.2 := by
    intro o c hc p hp
    rcases List.mem_append.mp hp with hp | hp
    · exact hl p hp
    · rw [List.mem_singleton.mp hp]
      exact hc
  cases h with
  | dial => exact snoc rfl
  | readHello => exact snoc rfl
  | beginFrame => exact snoc trivial
  | _ => exact hl

/-- Whom `s.mu` and `s.session` go to. -/
theorem Trans.holders (h : Trans cfg w e w') :
    (∀ n, w'.mu = some n → w.mu = some n ∨ (w.ends n).phase = .accepted) ∧
      (w'.session = w.session ∨ ∃ n, e = .install n ∧ w'.session = some n ∧ w.mu = some n) := by
  cases h with
  | lock hp =>
    refine ⟨fun n hn => .inr ?_, .inl rfl⟩
    cases hn
    exact hp
  | install _ hm => exact ⟨fun n hn => absurd hn (by simp), .inr ⟨_, rfl, rfl, hm⟩⟩
  | _ => exact ⟨fun n hn => .inl hn, .inl rfl⟩

theorem Trans.sound (h : Trans cfg w e w') (hu : Unforged cfg w e) (hs : Sound cfg w) : Sound cfg w' where
  greeted := h.greeted hu hs.greeted
  wrote := h.wrote hs.wrote
  serving n hn := by
    have hold : (w.ends n).side = .server ∧ (w.ends n).Accepted := by
      obtain ⟨hmu, hsession⟩ := h.holders
      rcases hn with hn | hn
      · rcases hmu n hn with hm | hp
        · exact hs.serving n (.inl hm)
        · exact ⟨(hs.greeted n).server (.inr hp), .inl hp⟩
      · rcases hsession with he | ⟨m, -, hm, hmu⟩
        · exact hs.serving n (.inr (he ▸ hn))
        · cases hn.symm.trans hm
          exact hs.serving n (.inl hmu)
    obtain ⟨ha, hside⟩ := h.accepted n hold.2
    exact ⟨hside.trans hold.1, ha⟩

theorem exec_sound {es : List Event} (h : exec (step cfg) {} es = some w)
    (ha : Along (step cfg) (Unforged cfg) {} es) : Sound cfg w :=
  exec_inv_along (fun _ _ _ hs hu hstep => (trans_of_step hstep).sound hu hs) sound_empty ha h

/-! ### What the server knows -/

/-- A body that begins with a client's payload is not that of the server's answer. -/
theorem not_prefix_of_ackFrame {c : WriteCall} {token : List UInt8} (hc : c.frame = ackFrame) :
    ¬ helloPayload token <+: c.body := by
  rintro ⟨t, ht⟩
  rw [WriteCall.body, hc] at ht
  have hhead := congrArg List.head? ht
  simp [helloPayload, ackFrame] at hhead

/-- When `PerformServerHandshake` has read a frame, this decides. -/
theorem readHello_accepted_iff {n : ℕ} {rest : List UInt8} {draws : Draws} {ok : Bool}
    (hp : (w.ends n).phase = .accepting) (hr : readFrame cfg.crypto (w.ends n).held = .ok (f, rest))
    (h : step cfg w (.readHello n draws ok) = some w') :
    (w'.ends n).Accepted ↔ f.type = frameHandshake ∧ f.payload = helloPayload cfg.token ∧ ok = true := by
  simp only [step, if_pos hp, Transport.readHello, readHandshake, hr] at h
  by_cases hf : f.type ≠ frameHandshake ∨ f.payload ≠ helloPayload cfg.token
  · simp only [if_pos hf, Option.some.injEq] at h
    subst h
    have hno : ¬ (f.type = frameHandshake ∧ f.payload = helloPayload cfg.token) := by
      rwa [← not_and_or] at hf
    simp only [set_ends_self, Endpoint.Accepted, reduceCtorEq, or_self, false_iff]
    exact fun h => hno ⟨h.1, h.2.1⟩
  · simp only [if_neg hf, Option.some.injEq] at h
    subst h
    rw [not_or, not_not, not_not] at hf
    cases ok <;> simp [Endpoint.Accepted, hf]

/-- When `PerformClientHandshake` has read a frame, its type decides. -/
theorem readAck_accepted_iff {n : ℕ} {rest : List UInt8} (hp : (w.ends n).phase = .dialled)
    (hr : readFrame cfg.crypto (w.ends n).held = .ok (f, rest)) (h : step cfg w (.readAck n) = some w') :
    (w'.ends n).Accepted ↔ f.type = frameHandshakeAck := by
  simp only [step, if_pos hp, Transport.readAck, readHandshake, hr] at h
  by_cases hf : f.type ≠ frameHandshakeAck
  · simp only [if_pos hf, Option.some.injEq] at h
    subst h
    simpa [Endpoint.Accepted] using hf
  · simp only [if_neg hf, Option.some.injEq] at h
    subst h
    simpa [Endpoint.Accepted] using hf

/-- **What the server knows of a client**: in every run without forged ciphertexts, the frame
that `PerformServerHandshake` has accepted comes out of the body of an earlier `WriteFrame`
call of somebody who holds the token: of a client's handshake, or of a session that has
written the same bytes, and not of a server's handshake. No two connections need to have
different ones. The type and the payload of the frame decide. Only
`handleIncomingTransport` of a connection that was accepted replaces `s.session`, and
only one such holds `s.mu`. -/
theorem accepted_hello {es : List Event} (h : exec (step cfg) {} es = some w)
    (ha : Along (step cfg) (Unforged cfg) {} es) :
    (∀ n, (w.ends n).side = .server → (w.ends n).Accepted →
      ∃ p ∈ w.written, (∀ m, p.1 ≠ .serverHandshake m) ∧ helloPayload cfg.token <+: p.2.body ∧
        ∃ header, header.length = 12 ∧ (w.ends n).greeting = some (p.2.frameUnder header)) ∧
    (∀ n f rest draws ok w', (w.ends n).phase = .accepting →
      readFrame cfg.crypto (w.ends n).held = .ok (f, rest) → step cfg w (.readHello n draws ok) = some w' →
      ((w'.ends n).Accepted ↔ f.type = frameHandshake ∧ f.payload = helloPayload cfg.token ∧ ok = true)) ∧
    (∀ n, w.mu = some n ∨ w.session = some n → (w.ends n).side = .server ∧ (w.ends n).Accepted) ∧
    (∀ e w', step cfg w e = some w' → w'.session ≠ w.session →
      ∃ n, e = .install n ∧ (w.ends n).side = .server ∧ (w.ends n).Accepted) := by
  have hs : Sound cfg w := exec_sound h ha
  refine ⟨fun n hside hacc => ?_, fun _ _ _ _ _ _ => readHello_accepted_iff, hs.serving, fun e w' hstep hne => ?_⟩
  · obtain ⟨f, hf, ⟨p, hp, header, hlen, hframe⟩, hserver, -⟩ := (hs.greeted n).greeting hacc
    have hbody : helloPayload cfg.token <+: p.2.body := by
      rw [← (hserver hside).2, hframe]
      exact List.take_prefix _ _
    refine ⟨p, hp, fun m hm => ?_, hbody, header, hlen, hframe ▸ hf⟩
    have hack := hs.wrote p hp
    rw [hm] at hack
    exact not_prefix_of_ackFrame hack hbody
  · rcases (trans_of_step hstep).holders.2 with he | ⟨n, he, -, hm⟩
    · exact absurd he hne
    · exact ⟨n, he, hs.serving n (.inl hm)⟩

/-- What the server knows in `honestRun`. -/
theorem honestRun_accepted_hello : ∃ w, exec (step sampleDeployment) {} honestRun = some w ∧
    w.session = some 1 ∧ ∃ p ∈ w.written, helloPayload sampleDeployment.token <+: p.2.body := by
  have ha : Along (step sampleDeployment) (Unforged sampleDeployment) {} honestRun := by decide +kernel
  obtain ⟨w, hw, hsession⟩ := exists_of_any (P := fun w : World => w.session = some 1)
    (show (exec (step sampleDeployment) {} honestRun).any _ = true by decide +kernel)
  obtain ⟨hhello, -, hserving, -⟩ := accepted_hello hw ha
  obtain ⟨hside, hacc⟩ := hserving 1 (.inr hsession)
  obtain ⟨p, hp, -, hbody, -⟩ := hhello 1 hside hacc
  exact ⟨w, hw, hsession, p, hp, hbody⟩

/-- After `honestRun` the client's frame is sent again on a connection of the attacker's: the
server accepts it, closes the session with its listeners, and makes a new one. -/
def replayedRun : List Event :=
  honestRun ++ [.accept 2, .arrive 2 (sampleHello.bytes sampleCrypto), .readHello 2 plainDraws true, .lock 2,
    .act 1 (.close (.app 2)), .act 1 (.closeStreams (.app 2)), .act 1 (.closeAccept (.app 2)),
    .act 1 (.closeConn (.app 2)), .install 2]

/-- **Two acceptances, one client**: in `replayedRun` nobody forges ciphertexts. The acceptances
of the server cannot be matched with different runs of `PerformClientHandshake`, and the
attacker's connection has taken the place of the client's. -/
theorem replayedRun_replaces : ∃ w, exec (step sampleDeployment) {} replayedRun = some w ∧
    Along (step sampleDeployment) (Unforged sampleDeployment) {} replayedRun ∧
    (¬ ∃ run : ℕ → ℕ,
      (∀ n, (w.ends n).side = .server → (w.ends n).Accepted → ∃ p ∈ w.written, p.1 = .clientHandshake (run n)) ∧
      ∀ n m, (w.ends n).side = .server → (w.ends n).Accepted → (w.ends m).side = .server → (w.ends m).Accepted →
        run n = run m → n = m) ∧
    w.session = some 2 ∧ w.listeners = [] ∧ (w.ends 1).sess.connClosed = true := by
  have ha : Along (step sampleDeployment) (Unforged sampleDeployment) {} replayedRun := by decide +kernel
  obtain ⟨w, hw, hlog, h₁, h₂, hrest⟩ := exists_of_any (P := fun w : World =>
      w.written.map Prod.fst = [.clientHandshake 0, .serverHandshake 1, .serverHandshake 2] ∧
        ((w.ends 1).side = .server ∧ (w.ends 1).Accepted) ∧ ((w.ends 2).side = .server ∧ (w.ends 2).Accepted) ∧
        w.session = some 2 ∧ w.listeners = [] ∧ (w.ends 1).sess.connClosed = true)
    (show (exec (step sampleDeployment) {} replayedRun).any _ = true by decide +kernel)
  refine ⟨w, hw, ha, ?_, hrest⟩
  rintro ⟨run, hrun, hinj⟩
  have hzero : ∀ n, (w.ends n).side = .server → (w.ends n).Accepted → run n = 0 := fun n hs hacc => by
    obtain ⟨p, hp, hn⟩ := hrun n hs hacc
    have hmem : p.1 ∈ w.written.map Prod.fst := List.mem_map_of_mem hp
    rw [hlog, hn] at hmem
    simpa using hmem
  have := hinj 1 2 h₁.1 h₁.2 h₂.1 h₂.2 ((hzero 1 h₁.1 h₁.2).trans (hzero 2 h₂.1 h₂.2).symm)
  omega

/-! ### What a client knows -/

/-- **What a client knows of the server**: in every run without forged ciphertexts, the body
of the frame that `PerformClientHandshake` has accepted is that of an earlier `WriteFrame`
call of somebody who holds the token, and be it the client itself; the type that the
header in front of it has decides. -/
theorem accepted_ack {es : List Event} (h : exec (step cfg) {} es = some w)
    (ha : Along (step cfg) (Unforged cfg) {} es) :
    (∀ n, (w.ends n).side = .client → (w.ends n).Accepted →
      ∃ p ∈ w.written, ∃ header, header.length = 12 ∧ (getHeader header).frameType = frameHandshakeAck ∧
        (w.ends n).greeting = some (p.2.frameUnder header)) ∧
    (∀ n f rest w', (w.ends n).phase = .dialled → readFrame cfg.crypto (w.ends n).held = .ok (f, rest) →
      step cfg w (.readAck n) = some w' → ((w'.ends n).Accepted ↔ f.type = frameHandshakeAck)) := by
  have hs : Sound cfg w := exec_sound h ha
  refine ⟨fun n hside hacc => ?_, fun _ _ _ _ => readAck_accepted_iff⟩
  obtain ⟨f, hf, ⟨p, hp, header, hlen, hframe⟩, -, hclient⟩ := (hs.greeted n).greeting hacc
  have ht : (getHeader header).frameType = frameHandshakeAck := by
    have := hclient hside
    rwa [hframe] at this
  exact ⟨p, hp, header, hlen, ht, hframe ▸ hf⟩

/-- What the client knows in `honestRun`. -/
theorem honestRun_accepted_ack : ∃ w, exec (step sampleDeployment) {} honestRun = some w ∧
    ∃ p ∈ w.written, ∃ header, (getHeader header).frameType = frameHandshakeAck ∧
      (w.ends 0).greeting = some (p.2.frameUnder header) := by
  have ha : Along (step sampleDeployment) (Unforged sampleDeployment) {} honestRun := by decide +kernel
  obtain ⟨w, hw, hside, hacc⟩ := exists_of_any
    (P := fun w : World => (w.ends 0).side = .client ∧ (w.ends 0).Accepted)
    (show (exec (step sampleDeployment) {} honestRun).any _ = true by decide +kernel)
  obtain ⟨p, hp, header, -, ht, hf⟩ := (accepted_ack hw ha).1 0 hside hacc
  exact ⟨w, hw, p, hp, header, ht, hf⟩

/-- A client gets its own frame back, with the type of an answer in the header. -/
def reflectedRun : List Event :=
  [.dial 0 plainDraws true,
    .arrive 0 (sampleHello.carrying sampleCrypto (putHeader { sampleHello.frame with type := frameHandshakeAck } 0)),
    .readAck 0]

/-- **A client that answers itself**: in `reflectedRun` nobody forges ciphertexts, and
`PerformClientHandshake` returns nil without any `PerformServerHandshake`. -/
theorem reflectedRun_accepts : ∃ w, exec (step sampleDeployment) {} reflectedRun = some w ∧
    Along (step sampleDeployment) (Unforged sampleDeployment) {} reflectedRun ∧
    (w.ends 0).side = .client ∧ (w.ends 0).Accepted ∧ ¬ ∃ m, ∃ p ∈ w.written, p.1 = .serverHandshake m := by
  have ha : Along (step sampleDeployment) (Unforged sampleDeployment) {} reflectedRun := by decide +kernel
  obtain ⟨w, hw, hside, hacc, hlog⟩ := exists_of_any (P := fun w : World =>
      (w.ends 0).side = .client ∧ (w.ends 0).Accepted ∧ w.written.map Prod.fst = [.clientHandshake 0])
    (show (exec (step sampleDeployment) {} reflectedRun).any _ = true by decide +kernel)
  refine ⟨w, hw, ha, hside, hacc, ?_⟩
  rintro ⟨m, p, hp, hm⟩
  have hmem : p.1 ∈ w.written.map Prod.fst := List.mem_map_of_mem hp
  rw [hlog, hm] at hmem
  simp at hmem

end World

end Hawal.Adversary
