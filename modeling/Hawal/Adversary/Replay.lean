import Hawal.Adversary.World

/-!
# Recorded frames

An attacker that sends only whole frames that were written decides which of them an end gets,
how often and in which order: nothing in a frame says which connection or direction it is
of, or which place it has there. `rcvd_arrived` says that what an end accepts is exactly
what arrives, and so it is what the other end wrote as long as that is what arrives.
In `duplicatedRun` one frame of the server's arrives twice.
-/

namespace Hawal.Adversary

open Hawal.Lib Hawal.Transport Hawal.Mux

/-- What was read from an end: the calls `done` whose bytes have arrived first, and `rest` is
not read yet. -/
def Taken (cfg : Deployment) (log : List (Writer × WriteCall)) (arrived held : List UInt8) (fs : List Frame) : Prop :=
  ∃ done rest, (∀ c ∈ done ++ rest, ∃ o, (o, c) ∈ log) ∧ (∀ c ∈ done, c.Fits) ∧
    arrived = Transport.written cfg.crypto (done ++ rest) ∧ held = Transport.written cfg.crypto rest ∧
    fs = done.map WriteCall.frame

/-- An end that gets whole frames. -/
structure Follows (cfg : Deployment) (log : List (Writer × WriteCall)) (x : Endpoint) : Prop where
  taken : Taken cfg log x.arrived x.held (x.greeting.toList ++ x.sess.rcvd)
  valid : x.sess.Valid
  before : x.phase ≠ .running → x.sess.rcvd = []
  greeting : x.phase = .unused ∨ x.phase = .dialled ∨ x.phase = .accepting → x.greeting = none

variable {cfg : Deployment} {w w' : World} {e : Event} {log log' : List (Writer × WriteCall)} {f : Frame}
  {x : Endpoint} {arrived held rest : List UInt8} {fs : List Frame}

namespace Taken

theorem mono (h : Taken cfg log arrived held fs) (hlog : log <+: log') : Taken cfg log' arrived held fs := by
  obtain ⟨done, rest, hmem, h⟩ := h
  refine ⟨done, rest, fun c hc => ?_, h⟩
  obtain ⟨o, ho⟩ := hmem c hc
  exact ⟨o, hlog.subset ho⟩

theorem arrive (h : Taken cfg log arrived held fs) {p : Writer × WriteCall} (hp : p ∈ log) :
    Taken cfg log (arrived ++ p.2.bytes cfg.crypto) (held ++ p.2.bytes cfg.crypto) fs := by
  obtain ⟨done, rest, hmem, hfits, harr, hheld, hfs⟩ := h
  have hone : Transport.written cfg.crypto [p.2] = p.2.bytes cfg.crypto := by
    rw [Transport.written, Framing.puts_cons, Framing.puts_nil, List.append_nil]
    rfl
  refine ⟨done, rest ++ [p.2], fun c hc => ?_, hfits, ?_, ?_, hfs⟩
  · rw [← List.append_assoc, List.mem_append, List.mem_singleton] at hc
    rcases hc with hc | rfl
    · exact hmem c hc
    · exact ⟨p.1, hp⟩
  · rw [harr, ← List.append_assoc, ← hone]
    exact ((framing cfg.crypto).puts_append _ _).symm
  · rw [hheld, ← hone]
    exact ((framing cfg.crypto).puts_append _ _).symm

/-- `ReadFrame` takes the first call that is left. -/
theorem read (h : Taken cfg log arrived held fs) (hr : readFrame cfg.crypto held = .ok (f, rest)) :
    Taken cfg log arrived rest (fs ++ [f]) := by
  obtain ⟨done, left, hmem, hfits, harr, rfl, rfl⟩ := h
  obtain ⟨c, left, rfl, hc, rfl, rfl⟩ := (framing cfg.crypto).get_puts_eq_ok hr
  have hsplit : done ++ c :: left = done ++ [c] ++ left := by simp
  refine ⟨done ++ [c], left, by rwa [← hsplit], fun d hd => ?_, by rw [harr, hsplit], rfl, ?_⟩
  · rcases List.mem_append.mp hd with hd | hd
    · exact hfits d hd
    · exact List.mem_singleton.mp hd ▸ hc
  · rw [List.map_append]
    rfl

/-- The frames taken are the first of any that begin with the same bytes. -/
theorem le (h : Taken cfg log arrived held fs) {calls : List WriteCall}
    (hp : arrived <+: Transport.written cfg.crypto calls) : fs <+: calls.map WriteCall.frame := by
  obtain ⟨done, rest, -, hfits, rfl, -, rfl⟩ := h
  rw [Transport.written, Framing.puts_append] at hp
  exact (framing cfg.crypto).items_le hfits hp

end Taken

namespace Follows

theorem mono (h : Follows cfg log x) (hlog : log <+: log') : Follows cfg log' x :=
  ⟨h.taken.mono hlog, h.valid, h.before, h.greeting⟩

/-- The session makes a step that is not about what is received. -/
theorem run (h : Follows cfg log x) (hp : x.phase = .running) {a : Act} {s : Session}
    (hs : x.sess.step a = some s) (ha : ∀ f, a ≠ .recv f) : Follows cfg log { x with sess := s } where
  taken := by
    show Taken cfg log x.arrived x.held (x.greeting.toList ++ s.rcvd)
    rw [(Session.trans_of_step hs).2.rcvd h.valid ha]
    exact h.taken
  valid := h.valid.step hs
  before hn := absurd hp hn
  greeting := h.greeting

/-- Before the session nothing but the handshake has read. -/
theorem taken_nil (h : Follows cfg log x) (hp : x.phase = .dialled ∨ x.phase = .accepting) :
    Taken cfg log x.arrived x.held [] := by
  have hg : x.greeting = none := h.greeting (.inr hp)
  have hr : x.sess.rcvd = [] := h.before (by rcases hp with hp | hp <;> simp [hp])
  have := h.taken
  rwa [hg, hr] at this

end Follows

/-- A step keeps the ends following. -/
theorem World.Trans.follows (h : Trans cfg w e w') (hg : Genuine cfg w e)
    (hi : ∀ n, Follows cfg w.written (w.ends n)) : ∀ n, Follows cfg w'.written (w'.ends n) := by
  have hi' : ∀ n, Follows cfg w'.written (w.ends n) := fun n => (hi n).mono h.written
  cases h with
  | @dial n _ ok hp =>
    refine forall_ends_set hi' ⟨(hi' n).taken, (hi' n).valid, fun _ => (hi' n).before ?_, fun _ => ?_⟩
    · simp [hp]
    · exact (hi' n).greeting (.inl hp)
  | @accept n hp =>
    refine forall_ends_set hi' ⟨(hi' n).taken, (hi' n).valid, fun _ => (hi' n).before ?_, fun _ => ?_⟩
    · simp [hp]
    · exact (hi' n).greeting (.inl hp)
  | @arrive n bytes =>
    obtain ⟨p, hp, rfl⟩ := hg
    exact forall_ends_set hi' ⟨(hi' n).taken.arrive hp, (hi' n).valid, (hi' n).before, (hi' n).greeting⟩
  | @readAck n f rest hp hr =>
    have ht := ((hi' n).taken_nil (.inl hp)).read (readAck_eq_ok hr).1
    exact forall_ends_set hi' ⟨ht, Session.newSession_valid _, fun _ => rfl, by simp⟩
  | @readHello n draws ok f rest hp hr =>
    have ht := ((hi' n).taken_nil (.inr hp)).read (readHello_eq_ok hr).1
    have hrcvd : (w.ends n).sess.rcvd = [] := (hi n).before (by simp [hp])
    refine forall_ends_set hi' ⟨?_, (hi' n).valid, fun _ => hrcvd, ?_⟩
    · show Taken cfg _ _ _ ([f] ++ (w.ends n).sess.rcvd)
      rw [hrcvd]
      exact ht
    · cases ok <;> simp
  | @fails _ n hp =>
    refine forall_ends_set hi' ⟨(hi' n).taken, (hi' n).valid, fun _ => (hi' n).before ?_, by simp⟩
    rcases hp with hp | hp <;> simp [hp]
  | lock => exact hi'
  | @install n hp =>
    have hrcvd : (w.ends n).sess.rcvd = [] := (hi n).before (by simp [hp])
    refine forall_ends_set hi' ⟨?_, Session.newSession_valid _, fun _ => rfl, by simp⟩
    have := (hi' n).taken
    rwa [hrcvd] at this
  | listen => exact hi'
  | @act n a s hp ha hs =>
    refine forall_ends_set hi' ((hi' n).run hp hs fun f hf => ?_)
    rw [hf] at ha
    cases ha
  | @beginFrame n g draws s j hp _ hs => exact forall_ends_set hi' ((hi' n).run hp hs (by simp))
  | @endFrame n g ok s hp hs => exact forall_ends_set hi' ((hi' n).run hp hs (by simp))
  | @recv n f rest s hp hr hs =>
    have hd : s = (w.ends n).sess.dispatch f := by
      cases (Session.trans_of_step hs).2
      rfl
    refine forall_ends_set hi' ⟨?_, (hi' n).valid.step hs, fun hn => absurd hp hn, (hi' n).greeting⟩
    show Taken cfg _ _ _ ((w.ends n).greeting.toList ++ s.rcvd)
    rw [hd, Session.dispatch_rcvd (hi' n).valid, ← List.append_assoc]
    exact (hi' n).taken.read hr
  | @recvErr n s hp hs => exact forall_ends_set hi' ((hi' n).run hp hs (by simp))

namespace World

/-! ### What an end has written -/

/-- The calls of a writer. -/
def calls (w : World) (o : Writer) : List WriteCall := (w.written.filter (·.1 = o)).map Prod.snd

/-- The calls at an end, in the order in which their bytes go into its connection. -/
def callsAt (w : World) (n : ℕ) : List WriteCall := (w.written.filter (·.1.at = n)).map Prod.snd

theorem calls_write (o o' : Writer) (c : WriteCall) :
    (w.write o c).calls o' = if o = o' then w.calls o' ++ [c] else w.calls o' := by
  unfold calls write
  split_ifs with h <;> simp [List.filter_append, h]

theorem callsAt_write (o : Writer) (c : WriteCall) (n : ℕ) :
    (w.write o c).callsAt n = if o.at = n then w.callsAt n ++ [c] else w.callsAt n := by
  unfold callsAt write
  split_ifs with h <;> simp [List.filter_append, h]

theorem length_calls (o : Writer) : (w.calls o).length = (w.written.map Prod.fst).count o := by
  rw [calls, List.length_map, ← List.countP_eq_length_filter, List.count, List.countP_map]
  congr

/-- What an end has written in its handshake. -/
def greetings (w : World) (n : ℕ) : List WriteCall := w.calls (.clientHandshake n) ++ w.calls (.serverHandshake n)

end World

/-- Nothing was written yet. -/
def Phase.silent : Phase → Bool
  | .unused | .accepting => true
  | _ => false

/-- The handshake frame was written. -/
def Phase.spoken : Phase → Bool
  | .dialled | .accepted | .running => true
  | _ => false

namespace World

/-- An end writes at most one frame in its handshake, and then those of its session. -/
structure Logged (w : World) (n : ℕ) : Prop where
  split : w.callsAt n = w.greetings n ++ w.calls (.session n)
  le : (w.greetings n).length ≤ 1
  silent : (w.ends n).phase.silent = true → w.greetings n = []
  spoken : (w.ends n).phase.spoken = true → w.greetings n ≠ []
  session : (w.ends n).phase ≠ .running → w.calls (.session n) = []

/-- Another end writes. -/
theorem Logged.write_of_ne {n : ℕ} (h : Logged w n) {o : Writer} (ho : o.at ≠ n) (c : WriteCall) :
    Logged (w.write o c) n := by
  have hcalls : ∀ {o'}, o'.at = n → (w.write o c).calls o' = w.calls o' := fun {o'} ho' => by
    rw [calls_write, if_neg fun he : o = o' => ho (he ▸ ho')]
  have hg : (w.write o c).greetings n = w.greetings n := by
    rw [greetings, hcalls rfl, hcalls rfl, greetings]
  have hs : (w.write o c).calls (.session n) = w.calls (.session n) := hcalls rfl
  have ha : (w.write o c).callsAt n = w.callsAt n := by
    rw [callsAt_write, if_neg ho]
  exact ⟨by rw [ha, hg, hs, h.split], hg ▸ h.le, fun hp => hg ▸ h.silent hp, fun hp => hg ▸ h.spoken hp,
    fun hp => hs ▸ h.session hp⟩

/-- The end writes in its handshake. -/
theorem Logged.greet {n : ℕ} (h : Logged w n) (hp : (w.ends n).phase.silent = true) {o : Writer}
    (ho : o = .clientHandshake n ∨ o = .serverHandshake n) {c : WriteCall} {x : Endpoint}
    (hx : x.phase.silent = false) :
    Logged ((w.write o c).set n x) n := by
  have hnil : w.calls (.clientHandshake n) = [] ∧ w.calls (.serverHandshake n) = [] :=
    List.append_eq_nil_iff.mp (h.silent hp)
  have hs : w.calls (.session n) = [] := h.session fun he => by rw [he] at hp; cases hp
  have hat : w.callsAt n = [] := by rw [h.split, hs, h.silent hp]; rfl
  have hg : ((w.write o c).set n x).greetings n = [c] := by
    show (w.write o c).calls _ ++ (w.write o c).calls _ = [c]
    rw [calls_write, calls_write, hnil.1, hnil.2]
    rcases ho with rfl | rfl <;> simp
  have hs' : ((w.write o c).set n x).calls (.session n) = [] := by
    show (w.write o c).calls _ = []
    rw [calls_write, hs]
    rcases ho with rfl | rfl <;> simp
  have hat' : ((w.write o c).set n x).callsAt n = [c] := by
    show (w.write o c).callsAt n = [c]
    rw [callsAt_write, hat]
    rcases ho with rfl | rfl <;> simp [Writer.at]
  refine ⟨by rw [hat', hg, hs']; rfl, by rw [hg]; rfl, fun hp' => ?_, fun _ => by simp [hg], fun _ => hs'⟩
  rw [set_ends_self, hx] at hp'
  cases hp'

/-- The end's session writes. -/
theorem Logged.say {n : ℕ} (h : Logged w n) (hp : (w.ends n).phase = .running) (c : WriteCall) :
    Logged (w.write (.session n) c) n := by
  have hg : (w.write (.session n) c).greetings n = w.greetings n := by
    rw [greetings, calls_write, calls_write]
    rfl
  refine ⟨?_, hg ▸ h.le, fun hs => ?_, fun hs => hg ▸ h.spoken hs, fun hn => absurd hp hn⟩
  · rw [hg, callsAt_write, calls_write, if_pos (show (Writer.session n).at = n from rfl), if_pos rfl, h.split,
      List.append_assoc]
  · have hs' : (w.ends n).phase.silent = true := hs
    rw [hp] at hs'
    cases hs'

/-- Nothing is written, and the end goes on. -/
theorem Logged.move {n : ℕ} (h : Logged w n) (hw : w'.written = w.written)
    (hsilent : (w'.ends n).phase.silent = true → (w.ends n).phase.silent = true)
    (hspoken : (w'.ends n).phase.spoken = true → (w.ends n).phase.spoken = true)
    (hrun : (w.ends n).phase = .running → (w'.ends n).phase = .running) : Logged w' n := by
  have hcalls : ∀ o, w'.calls o = w.calls o := fun o => by rw [calls, hw, calls]
  have hat : w'.callsAt n = w.callsAt n := by rw [callsAt, hw, callsAt]
  have hg : w'.greetings n = w.greetings n := by rw [greetings, hcalls, hcalls, greetings]
  refine ⟨by rw [hat, hg, hcalls, h.split], hg ▸ h.le, fun hp => hg ▸ h.silent (hsilent hp),
    fun hp => hg ▸ h.spoken (hspoken hp), fun hp => ?_⟩
  rw [hcalls]
  exact h.session fun he => hp (hrun he)

/-- A step keeps to the order of what an end writes. -/
theorem Trans.logged (h : Trans cfg w e w') (hi : ∀ n, Logged w n) (n : ℕ) : Logged w' n := by
  have quiet : ∀ {m : ℕ} {x : Endpoint} {v : World}, v.written = w.written → v.ends = (w.set m x).ends →
      (x.phase.silent = true → (w.ends m).phase.silent = true) →
      (x.phase.spoken = true → (w.ends m).phase.spoken = true) →
      ((w.ends m).phase = .running → x.phase = .running) → Logged v n := by
    intro m x v hw he h₁ h₂ h₃
    have := ends_set (w := w) (n := m) (x := x) (R := fun y z => (z.phase.silent = true → y.phase.silent = true) ∧
      (z.phase.spoken = true → y.phase.spoken = true) ∧ (y.phase = .running → z.phase = .running))
      (fun _ => ⟨id, id, id⟩) ⟨h₁, h₂, h₃⟩ n
    rw [← he] at this
    exact (hi n).move hw this.1 this.2.1 this.2.2
  have elsewhere : ∀ {m : ℕ} {x : Endpoint} {o : Writer} {c : WriteCall}, n ≠ m → o.at = m →
      Logged ((w.write o c).set m x) n := by
    intro m x o c hne ho
    have hx : ((w.write o c).set m x).ends n = w.ends n := set_ends_of_ne x hne
    refine ((hi n).write_of_ne (fun he => hne (he.symm.trans ho)) c).move rfl ?_ ?_ ?_ <;>
      exact fun hp => hx ▸ hp
  cases h with
  | @dial m _ ok hp =>
    by_cases hm : n = m
    · subst hm
      refine (hi n).greet (by rw [hp]; rfl) (.inl rfl) ?_
      cases ok <;> rfl
    · exact elsewhere hm rfl
  | @readHello m _ ok _ _ hp =>
    by_cases hm : n = m
    · subst hm
      refine (hi n).greet (by rw [hp]; rfl) (.inr rfl) ?_
      cases ok <;> rfl
    · exact elsewhere hm rfl
  | @beginFrame m _ _ s _ hp =>
    by_cases hm : n = m
    · subst hm
      refine ((hi n).say hp _).move rfl ?_ ?_ ?_ <;> intro hp' <;> simpa [run, write] using hp'
    · exact elsewhere hm rfl
  | accept hp => exact quiet rfl rfl (by simp [hp, Phase.silent]) (by simp [Phase.spoken]) (by simp [hp])
  | readAck hp => exact quiet rfl rfl (by simp [Phase.silent]) (by simp [hp, Phase.spoken]) (by simp [hp])
  | fails hp =>
    refine quiet rfl rfl (by simp [Phase.silent]) (by simp [Phase.spoken]) ?_
    rcases hp with hp | hp <;> simp [hp]
  | install hp => exact quiet rfl rfl (by simp [Phase.silent]) (by simp [hp, Phase.spoken]) (by simp [hp])
  | lock => exact (hi n).move rfl id id id
  | listen => exact (hi n).move rfl id id id
  | arrive => exact quiet rfl rfl id id id
  | act => exact quiet rfl rfl id id id
  | endFrame => exact quiet rfl rfl id id id
  | recv => exact quiet rfl rfl id id id
  | recvErr => exact quiet rfl rfl id id id

theorem exec_logged {es : List Event} (h : exec (step cfg) {} es = some w) (n : ℕ) : Logged w n :=
  exec_inv (I := fun w => ∀ n, Logged w n) (fun _ _ _ hi hstep => (trans_of_step hstep).logged hi)
    (fun _ => ⟨rfl, Nat.zero_le _, fun _ => rfl, by simp [Phase.spoken], fun _ => rfl⟩) h n

theorem exec_follows {es : List Event} (h : exec (step cfg) {} es = some w)
    (ha : Along (step cfg) (Genuine cfg) {} es) (n : ℕ) : Follows cfg w.written (w.ends n) :=
  exec_inv_along (I := fun w => ∀ n, Follows cfg w.written (w.ends n))
    (fun _ _ _ hi hg hstep => (trans_of_step hstep).follows hg hi)
    (fun _ => ⟨⟨[], [], by simp, by simp, rfl, rfl, rfl⟩, Session.newSession_valid _, fun _ => rfl, fun _ => rfl⟩)
    ha h n

/-- **What an end accepts is what arrives**: in every run of an attacker that sends only whole
frames that were written, the frame of the handshake and those that `readLoop` has handled
are, one by one, those that have arrived on the connection, each written by somebody who
holds the token. As long as the bytes that have arrived are the first that an end `m` has
written, the frames that `readLoop` has handled are the first that the session of `m` has
written. -/
theorem rcvd_arrived {es : List Event} (h : exec (step cfg) {} es = some w)
    (ha : Along (step cfg) (Genuine cfg) {} es) (n : ℕ) :
    (∃ done rest, (∀ c ∈ done ++ rest, ∃ o, (o, c) ∈ w.written) ∧
      (w.ends n).arrived = Transport.written cfg.crypto (done ++ rest) ∧
      (w.ends n).held = Transport.written cfg.crypto rest ∧
      (w.ends n).greeting.toList ++ (w.ends n).sess.rcvd = done.map WriteCall.frame) ∧
    ∀ m, (w.ends n).greeting.isSome = true → (w.ends n).arrived <+: Transport.written cfg.crypto (w.callsAt m) →
      (w.ends n).sess.rcvd <+: (w.calls (.session m)).map WriteCall.frame := by
  have hf : Follows cfg w.written (w.ends n) := exec_follows h ha n
  constructor
  · obtain ⟨done, rest, hmem, -, harr, hheld, hfs⟩ := hf.taken
    exact ⟨done, rest, hmem, harr, hheld, hfs⟩
  · intro m hsome harr
    have hl : Logged w m := exec_logged h m
    obtain ⟨f, hgreet⟩ := Option.isSome_iff_exists.mp hsome
    have hle := hf.taken.le harr
    rw [hgreet, hl.split] at hle
    cases hg : w.greetings m with
    | nil =>
      -- an end that has written no handshake frame has written nothing
      have hs : w.calls (.session m) = [] := hl.session fun hp => hl.spoken (by rw [hp]; rfl) hg
      rw [hg, hs] at hle
      exact absurd hle (by simp)
    | cons c cs =>
      have hone := hl.le
      rw [hg, List.length_cons] at hone
      have hcs : cs = [] := List.length_eq_zero_iff.mp (by omega)
      rw [hg, hcs] at hle
      exact (List.cons_prefix_cons.mp hle).2

/-! ### A frame twice -/

/-- What `OpenStream` of the server writes. -/
def sampleOpen : WriteCall := ⟨⟨frameStreamOpen, 3, [0x38, 0x30]⟩, false, plainDraws, by decide⟩

/-- After `honestRun` the server opens a stream, and the client's `readLoop` gets the frame. -/
def openedRun : List Event :=
  honestRun ++ [.act 1 (.openStream (.app 0) [0x38, 0x30]), .act 1 (.lock (.app 0)),
    .beginFrame 1 (.app 0) plainDraws, .endFrame 1 (.app 0) true, .arrive 0 (sampleOpen.bytes sampleCrypto), .recv 0]

/-- What the client's `readLoop` has handled in `openedRun`. -/
theorem openedRun_arrived : ∃ w, exec (step sampleDeployment) {} openedRun = some w ∧
    (w.ends 0).sess.rcvd = [sampleOpen.frame] ∧
    (w.ends 0).sess.rcvd <+: (w.calls (.session 1)).map WriteCall.frame := by
  have ha : Along (step sampleDeployment) (Genuine sampleDeployment) {} openedRun := by decide +kernel
  obtain ⟨w, hw, hsome, harr, hrcvd⟩ := exists_of_any (P := fun w : World =>
      (w.ends 0).greeting.isSome = true ∧
        (w.ends 0).arrived <+: Transport.written sampleDeployment.crypto (w.callsAt 1) ∧
        (w.ends 0).sess.rcvd = [sampleOpen.frame])
    (show (exec (step sampleDeployment) {} openedRun).any _ = true by decide +kernel)
  exact ⟨w, hw, hrcvd, (rcvd_arrived hw ha 0).2 1 hsome harr⟩

/-- After `openedRun` the same bytes arrive again. -/
def duplicatedRun : List Event :=
  openedRun ++ [.act 0 .enqueue, .arrive 0 (sampleOpen.bytes sampleCrypto), .recv 0]

/-- **A frame counts as often as it arrives**: in `duplicatedRun` the attacker sends only whole
frames that were written. What the client's `readLoop` has handled is not the start of what
any session has written. -/
theorem duplicatedRun_repeats : ∃ w, exec (step sampleDeployment) {} duplicatedRun = some w ∧
    Along (step sampleDeployment) (Genuine sampleDeployment) {} duplicatedRun ∧
    (w.ends 0).Accepted ∧ ¬ ∃ m, (w.ends 0).sess.rcvd <+: (w.calls (.session m)).map WriteCall.frame := by
  have ha : Along (step sampleDeployment) (Genuine sampleDeployment) {} duplicatedRun := by decide +kernel
  obtain ⟨w, hw, hacc, hrcvd, hlog⟩ := exists_of_any (P := fun w : World =>
      (w.ends 0).Accepted ∧ (w.ends 0).sess.rcvd = [sampleOpen.frame, sampleOpen.frame] ∧
        w.written.map Prod.fst = [.clientHandshake 0, .serverHandshake 1, .session 1])
    (show (exec (step sampleDeployment) {} duplicatedRun).any _ = true by decide +kernel)
  refine ⟨w, hw, ha, hacc, ?_⟩
  rintro ⟨m, hm⟩
  have hlen := hm.length_le
  rw [hrcvd, List.length_map, length_calls, hlog] at hlen
  have hcount : List.count (Writer.session m) [.clientHandshake 0, .serverHandshake 1, .session 1] ≤ 1 := by
    by_cases h1 : m = 1
    · simp [h1]
    · simp [Ne.symm h1]
  simp only [List.length_cons, List.length_nil] at hlen
  omega

end World

end Hawal.Adversary
