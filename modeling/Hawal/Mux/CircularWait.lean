import Hawal.Mux.Delivery

/-!
# The circular wait

`readLoop` is the only reader of the connection, and it takes `writeMu` itself: to
answer a ping, and to send the close frame of a stream that it gives up. A `WriteFrame`
that waits for room in the connection has `writeMu` until the other side reads. When
this is so on both sides, neither side reads again (`CircularWait`).

* `ReadLoopMoves`, `Trans.readLoop` — what a step does to `readLoop`.
* `spares_iff_never_circularWait` — the runs that never come to a circular wait, by a
  condition on the steps.
* `CircularWait.step` — nothing but the end of the connection ends one.
* `not_circularWait_of_turns` — there is none when only one of the two `readLoop`s at a
  time waits for `writeMu`.
-/

namespace Hawal.Mux

open Hawal.Lib Hawal.Transport

/-- `readLoop` calls `closeStream` only when it gives a stream up. -/
def Closer.ofReadLoop : Closer → Bool
  | .pushTimeout => true
  | .acceptOverflow => true
  | _ => false

/-- What `readLoop` writes. -/
def Job.ofReadLoop : Job → Bool
  | .closeFrame _ why => why.ofReadLoop
  | .pong => true
  | _ => false

/-- Where `readLoop` may be. -/
def Pc.ofReadLoop : Pc → Bool
  | .idle => false
  | .tick => false
  | .closing _ why => why.ofReadLoop
  | .waitMu j => j.ofReadLoop
  | .locked j => j.ofReadLoop
  | .writing j => j.ofReadLoop
  | _ => true

/-- Waiting for `writeMu`. -/
def Pc.waits : Pc → Bool
  | .waitMu _ => true
  | _ => false

/-- In `WriteFrame`. -/
def Pc.writes : Pc → Bool
  | .writing _ => true
  | _ => false

theorem Pc.exists_of_writes {p : Pc} (h : p.writes = true) : ∃ j, p = .writing j := by
  cases p <;> simp_all [Pc.writes]

namespace Session

variable {s s' : Session} {a : Act}

/-- **What a step does to `readLoop`**: nothing, or `readLoop` goes on to a point where it
does not wait for `writeMu`, or it comes to wait for it with a close frame or a pong. -/
inductive ReadLoopMoves (s : Session) : Act → Pc → Prop
  | stays {a p} : p = s.pc .readLoop → ReadLoopMoves s a p
  | goes {a p} : p.ofReadLoop = true → p.waits = false →
      ((s.pc .readLoop).waits = true → a = .lock .readLoop ∧ s.writeMu = none) → ReadLoopMoves s a p
  | closes {id why r p} : s.pc .readLoop = .closing id why → s.streams.lookup id = some r →
      p = .waitMu (.closeFrame id why) → ReadLoopMoves s (.dropEntry .readLoop) p
  | answers {f p} : s.pc .readLoop = .read → f.type = framePing → p = .waitMu .pong → ReadLoopMoves s (.recv f) p

/-- A goroutine that `readLoop` is not goes on. -/
theorem readLoop_goto {g : Gid} (p : Pc) (hg : g ≠ .readLoop) : (s.goto g p).pc .readLoop = s.pc .readLoop :=
  goto_of_ne p hg.symm

/-- A goroutine goes on where `readLoop` may be. -/
theorem ReadLoopMoves.goto {t : Session} {g : Gid} {q : Pc} (p : Pc) (ht : t.pc = s.pc) (hg : s.pc g = q)
    (hq : q.waits = true → a = .lock g ∧ s.writeMu = none) (hp : q.ofReadLoop = true → p.ofReadLoop = true)
    (hw : p.waits = false) (hr : (s.pc .readLoop).ofReadLoop = true) :
    s.ReadLoopMoves a ((t.goto g p).pc .readLoop) := by
  by_cases hgr : g = .readLoop
  · subst hgr
    rw [goto_self]
    rw [hg] at hr
    exact .goes (hp hr) hw fun h => hq (hg ▸ h)
  · rw [readLoop_goto p hgr, ht]
    exact .stays rfl

theorem ReadLoopMoves.closeReturn {t : Session} {g : Gid} {q : Pc} {why : Closer} (ht : t.pc = s.pc)
    (hg : s.pc g = q) (hq : q.waits = false) (hwhy : q.ofReadLoop = why.ofReadLoop)
    (hr : (s.pc .readLoop).ofReadLoop = true) : s.ReadLoopMoves a ((t.closeReturn g why).pc .readLoop) := by
  have hw : q.waits = true → a = .lock g ∧ s.writeMu = none := fun h => nomatch hq.symm.trans h
  cases why with
  | pushTimeout => exact .goto .read ht hg hw (fun _ => rfl) rfl hr
  | acceptOverflow => exact .goto .read ht hg hw (fun _ => rfl) rfl hr
  | openFailed => exact .goto .idle ht hg hw (fun h => hwhy.symm.trans h) rfl hr
  | streamClose r =>
    exact .goto .idle (t := t.modify r ({ · with closeOnce := .done })) ht hg hw (fun h => hwhy.symm.trans h) rfl hr

theorem Trans.readLoop (hv : s.Valid) (hr : (s.pc .readLoop).ofReadLoop = true) (h : s.Trans a s') :
    s.ReadLoopMoves a (s'.pc .readLoop) := by
  -- a goroutine that is idle is not `readLoop`
  have idle : ∀ {g} (p : Pc), s.pc g = .idle → s.ReadLoopMoves a ((s.goto g p).pc .readLoop) := by
    intro g p hg
    refine .stays (readLoop_goto p ?_)
    rintro rfl
    rw [hg] at hr
    cases hr
  have away : ∀ {q : Pc} {g}, q.waits = false → q.waits = true → a = .lock g ∧ s.writeMu = none :=
    fun h h' => absurd (h.symm.trans h') Bool.false_ne_true
  have done : ∀ g, (s.pc g = .idle ∨ s.pc g = .leaving ∨ s.pc g = .teardown) →
      s.ReadLoopMoves a ((s.closeDone g).pc .readLoop) := by
    intro g hg
    cases g with
    | app n => exact .stays (readLoop_goto (s := s) .idle (g := .app n) (by simp))
    | pingLoop => exact .stays (readLoop_goto .exited (by simp))
    | readLoop =>
      rcases hg with hg | hg | hg
      · rw [hg] at hr
        cases hr
      · exact .goto .exited rfl hg (away rfl) (fun _ => rfl) rfl hr
      · exact .goto .exited rfl hg (away rfl) (fun _ => rfl) rfl hr
  cases h with
  | openRefused hg => exact idle .idle hg
  | openStream hg => exact idle (.waitMu _) hg
  | acceptEnded hg => exact idle .idle hg
  | acceptStream hg => exact idle .idle hg
  | writeRefused hg => exact idle .idle hg
  | write hg => exact idle (.waitMu _) hg
  | read hg => exact idle .idle hg
  | closeStream hg => exact idle (.closing _ _) hg
  | closeStreamAgain hg => exact idle .idle hg
  | close hg =>
    rcases hg with hg | hg
    · exact idle .teardown hg
    · exact .goto .teardown rfl hg (away rfl) (fun _ => rfl) rfl hr
  | closeAgain hg => exact done _ (hg.imp_right .inl)
  | @dropEntry g id why r hg hl =>
    have hpc : (s.drop id r (.closeStream why)).pc = s.pc := by rw [hv.drop_eq hl]; rfl
    by_cases hgr : g = .readLoop
    · subst hgr
      rw [goto_self]
      exact .closes hg hl rfl
    · rw [readLoop_goto _ hgr, hpc]
      exact .stays rfl
  | dropMissing hg => exact .closeReturn rfl hg rfl rfl hr
  | @lock g j hg hm =>
    have hgo : s.ReadLoopMoves (.lock g) ((s.goto g (.locked j)).pc .readLoop) :=
      .goto (.locked j) rfl hg (fun _ => ⟨rfl, hm⟩) (fun h => h) rfl hr
    cases j <;> exact hgo
  | beginFrame hg => exact .goto (.writing _) rfl hg (away rfl) (fun h => h) rfl hr
  | @endFrame g j ok hg =>
    cases j with
    | openFrame r id targetPort =>
      cases ok with
      | true => exact .goto .idle (t := s) rfl hg (away rfl) (fun h => absurd h Bool.false_ne_true) rfl hr
      | false =>
        exact .goto (.closing id .openFailed) (t := s) rfl hg (away rfl) (fun h => absurd h Bool.false_ne_true) rfl hr
    | closeFrame id why =>
      exact .closeReturn (s := s) (t := { s with writeFailed := s.writeFailed || !ok }.release) rfl hg rfl rfl hr
    | data r id data offset =>
      cases ok with
      | true => exact .goto (.locked _) (t := s) rfl hg (away rfl) (fun h => absurd h Bool.false_ne_true) rfl hr
      | false => exact .goto .idle (t := s) rfl hg (away rfl) (fun h => absurd h Bool.false_ne_true) rfl hr
    | pong => exact .goto .read (t := s) rfl hg (away rfl) (fun _ => rfl) rfl hr
    | ping => exact .goto .tick (t := s) rfl hg (away rfl) (fun h => absurd h Bool.false_ne_true) rfl hr
  | @unlock g j hg =>
    cases j with
    | data r id data offset =>
      exact .goto .idle (t := s) rfl hg (away rfl) (fun h => absurd h Bool.false_ne_true) rfl hr
    | _ => exact .goto .exited (t := s) rfl hg (away rfl) (fun _ => rfl) rfl hr
  | @recv f hg =>
    have hv' : (s.heard f).Valid := ⟨hv.entry, hv.works, hv.queued, hv.handed, hv.queue⟩
    rcases s.dispatch_cases f with ⟨-, hs⟩ | ⟨r, -, hl, hs⟩ | ⟨r, -, hl, hs⟩ | ⟨ht, hs⟩ | ⟨-, -, -, hs⟩
    all_goals rw [hs]
    · exact .goto (.accept _ _) (t := s) rfl hg (away rfl) (fun _ => rfl) rfl hr
    · exact .goto (.push _ _ _) (t := s) rfl hg (away rfl) (fun _ => rfl) rfl hr
    · rw [hv'.drop_eq hl]
      exact .stays rfl
    · rw [goto_self]
      exact .answers hg ht rfl
    · exact .stays rfl
  | recvErr hg => exact .goto .leaving rfl hg (away rfl) (fun _ => rfl) rfl hr
  | enqueuePanics => exact .stays rfl
  | enqueue hg => exact .goto .read (t := s) rfl hg (away rfl) (fun _ => rfl) rfl hr
  | overflow hg => exact .goto (.closing _ .acceptOverflow) rfl hg (away rfl) (fun _ => rfl) rfl hr
  | pushPanics => exact .stays rfl
  | push hg => exact .goto .read (t := s) rfl hg (away rfl) (fun _ => rfl) rfl hr
  | timeout hg => exact .goto (.closing _ .pushTimeout) rfl hg (away rfl) (fun _ => rfl) rfl hr
  | closeStreams =>
    rw [hv.closeStreams_eq]
    exact .stays rfl
  | closeAccept _ ho =>
    have hopen : s.acceptChan.closed = false := by rw [hv.queue, ho]; rfl
    rw [Session.closeAccept, hopen]
    exact .stays rfl
  | closeConn hg => exact done _ (.inr (.inr hg))
  | tick => exact .stays (goto_of_ne _ (by simp))

/-- `readLoop` stays where it may be. -/
theorem ofReadLoop_step (hv : s.Valid) (hr : (s.pc .readLoop).ofReadLoop = true) (hs : s.step a = some s') :
    (s'.pc .readLoop).ofReadLoop = true := by
  cases (trans_of_step hs).2.readLoop hv hr with
  | stays h => rw [h, hr]
  | goes h => exact h
  | closes hg _ hp =>
    rw [hg] at hr
    rw [hp]
    exact hr
  | answers _ _ hp => rw [hp]; rfl

/-- A `readLoop` that waits for `writeMu` did so before, or came to it just now. -/
theorem Trans.readLoop_waits (hv : s.Valid) (hr : (s.pc .readLoop).ofReadLoop = true) (h : s.Trans a s')
    (hw : (s'.pc .readLoop).waits = true) : (s.pc .readLoop).waits = true ∨
      (a = .dropEntry .readLoop ∧ ∃ id why r, s.pc .readLoop = .closing id why ∧ s.streams.lookup id = some r) ∨
      ∃ f, a = .recv f ∧ f.type = framePing := by
  cases h.readLoop hv hr with
  | stays he => exact .inl (he ▸ hw)
  | goes _ hn => exact nomatch hn.symm.trans hw
  | closes hg hl => exact .inr (.inl ⟨rfl, _, _, _, hg, hl⟩)
  | answers _ ht => exact .inr (.inr ⟨_, rfl, ht⟩)

/-- A `readLoop` that waits for `writeMu` goes on waiting as long as it is held. -/
theorem Trans.readLoop_waits_on (hv : s.Valid) (hr : (s.pc .readLoop).ofReadLoop = true) (h : s.Trans a s')
    (hw : (s.pc .readLoop).waits = true) (hm : s.writeMu ≠ none) : (s'.pc .readLoop).waits = true := by
  cases h.readLoop hv hr with
  | stays he => rwa [he]
  | goes _ _ hlock => exact absurd (hlock hw).2 hm
  | closes _ _ hp => rw [hp]; rfl
  | answers _ _ hp => rw [hp]; rfl

/-! Steps that a goroutine's place and the action determine. -/

theorem eq_of_dropEntry {g : Gid} {id : UInt32} {why : Closer} {r : Ref} (h : s.Trans (.dropEntry g) s')
    (hg : s.pc g = .closing id why) (hl : s.streams.lookup id = some r) :
    s' = (s.drop id r (.closeStream why)).goto g (.waitMu (.closeFrame id why)) := by
  cases h with
  | dropEntry hg' hl' =>
    rw [hg, Pc.closing.injEq] at hg'
    obtain ⟨rfl, rfl⟩ := hg'
    rw [hl, Option.some.injEq] at hl'
    rw [hl']
  | dropMissing hg' hl' =>
    rw [hg, Pc.closing.injEq] at hg'
    obtain ⟨rfl, rfl⟩ := hg'
    exact nomatch hl.symm.trans hl'

theorem eq_of_beginFrame {g : Gid} {j : Job} (h : s.Trans (.beginFrame g) s') (hg : s.pc g = .locked j) :
    s' = s.beginWrite g j := by
  cases h with
  | beginFrame hg' => rw [hg, Pc.locked.injEq] at hg'; rw [hg']

theorem eq_of_ping {f : Frame} (h : s.Trans (.recv f) s') (hping : f.type = framePing) :
    s' = (s.heard f).goto .readLoop (.waitMu .pong) := by
  cases h with
  | recv =>
    rcases s.dispatch_cases f with ⟨ht, -⟩ | ⟨r, ht, -⟩ | ⟨r, ht, -⟩ | ⟨-, hd⟩ | ⟨-, ht, -⟩
    · exact absurd (ht.symm.trans hping) (by decide)
    · exact absurd (ht.symm.trans hping) (by decide)
    · exact absurd (ht.symm.trans hping) (by decide)
    · exact hd
    · exact absurd hping ht

end Session

namespace Pair

variable (cfg : Config) (p : Pair)

/-- On the side `x` the holder of `writeMu` waits for room in the connection. -/
def Blocked (x : Side) : Prop :=
  (∃ g ∈ (p x).sess.writeMu, ((p x).sess.pc g).writes = true) ∧ (p x).pending ≠ [] ∧
    cfg.cap x ≤ (p x).wire.length ∧ ¬ p.Faulty x

instance (x : Side) : Decidable (p.Blocked cfg x) := inferInstanceAs (Decidable (_ ∧ _))

/-- On the side `x` `readLoop` waits for `writeMu`, and its holder for room. -/
def Waits (x : Side) : Prop := ((p x).sess.pc .readLoop).waits = true ∧ p.Blocked cfg x

instance (x : Side) : Decidable (p.Waits cfg x) := inferInstanceAs (Decidable (_ ∧ _))

/-- **The circular wait.** -/
def CircularWait : Prop := ∀ x, p.Waits cfg x

/-- A step that does not close the circle. While the other side waits: behind a
`WriteFrame` that waits for room `readLoop` does not come to wait for `writeMu`, neither
to give up a stream of the table nor to answer a ping; and in front of a `readLoop` that
waits for `writeMu` no `WriteFrame` begins on a full connection or fills it up. -/
def Spares : Event → Prop
  | .act x (.dropEntry .readLoop) => p.Waits cfg x.other → p.Blocked cfg x →
      ∀ id why, (p x).sess.pc .readLoop = .closing id why → (p x).sess.streams.lookup id = none
  | .recv x => p.Waits cfg x.other → p.Blocked cfg x →
      ∀ f rest, readFrame cfg.crypto (p x).held = .ok (f, rest) → f.type ≠ framePing
  | .beginFrame x _ _ => p.Waits cfg x.other → ((p x).sess.pc .readLoop).waits = true → ¬ p.Faulty x →
      (p x).wire.length < cfg.cap x
  | .send x k => p.Waits cfg x.other → ((p x).sess.pc .readLoop).waits = true → ¬ p.Faulty x →
      k < (p x).pending.length → (p x).wire.length + k < cfg.cap x
  | _ => True

variable {cfg p} {p' : Pair} {e : Event}

theorem circularWait_iff (z : Side) : p.CircularWait cfg ↔ p.Waits cfg z ∧ p.Waits cfg z.other := by
  constructor
  · intro h
    exact ⟨h z, h z.other⟩
  · rintro ⟨hz, hy⟩ x
    rcases Side.eq_or_eq_other z x with rfl | rfl
    · exact hz
    · exact hy

/-- What the two sides keep. -/
structure Serving (cfg : Config) (p : Pair) : Prop where
  valid : ∀ x, (p x).sess.Valid
  locked : ∀ x, (p x).sess.Locked
  reader : ∀ x, ((p x).sess.pc .readLoop).ofReadLoop = true
  carried : ∀ x, Carried cfg p x

theorem newPair_serving (cfg : Config) : Serving cfg newPair where
  valid _ := Session.newSession_valid _
  locked _ := Session.newSession_locked _
  reader _ := rfl
  carried := newPair_carried cfg

namespace Serving

theorem step (h : Serving cfg p) (hs : p.step cfg e = some p') : Serving cfg p' := by
  have hsess : ∀ x, (p' x).sess.Valid ∧ (p' x).sess.Locked ∧ ((p' x).sess.pc .readLoop).ofReadLoop = true :=
    sess_of_step (I := fun s => s.Valid ∧ s.Locked ∧ (s.pc .readLoop).ofReadLoop = true)
      (fun hi hs => ⟨hi.1.step hs, hi.2.1.step hi.1 hs, Session.ofReadLoop_step hi.1 hi.2.2 hs⟩)
      (fun x => ⟨h.valid x, h.locked x, h.reader x⟩) hs
  exact ⟨fun x => (hsess x).1, fun x => (hsess x).2.1, fun x => (hsess x).2.2,
    fun x => (h.carried x).step h.valid h.locked hs⟩

/-- A `WriteFrame` that is not through has `writeMu`. -/
theorem blocked_iff (h : Serving cfg p) (x : Side) : p.Blocked cfg x ↔
    (p x).pending ≠ [] ∧ cfg.cap x ≤ (p x).wire.length ∧ ¬ p.Faulty x := by
  refine ⟨fun hb => hb.2, fun hb => ⟨?_, hb⟩⟩
  obtain ⟨hne, -, hf⟩ := hb
  have hopen : (p x).Open := by
    constructor
    · exact Bool.eq_false_iff.mpr fun hc => hf (.inl hc)
    · exact Bool.eq_false_iff.mpr fun hc => hf (.inr (.inl hc))
  obtain ⟨g, j, hg⟩ := (h.carried x).writing hopen hne
  exact ⟨g, (h.locked x g).mp (hg ▸ trivial), by rw [hg]; rfl⟩

theorem waits_iff (h : Serving cfg p) (x : Side) : p.Waits cfg x ↔
    ((p x).sess.pc .readLoop).waits = true ∧ (p x).pending ≠ [] ∧ cfg.cap x ≤ (p x).wire.length ∧ ¬ p.Faulty x := by
  rw [Waits, h.blocked_iff]

/-- A connection that fails does not recover. -/
theorem faulty_step (h : Serving cfg p) (hs : p.step cfg e = some p') {x : Side} (hf : p.Faulty x) :
    p'.Faulty x := by
  have hconn : ∀ y, (p y).sess.connClosed = true → (p' y).sess.connClosed = true := by
    intro y hy
    obtain ⟨z, hother, hz⟩ := (trans_of_step hs).sess
    rcases Side.eq_or_eq_other z y with rfl | rfl
    · rcases hz with hz | ⟨a, ha, -⟩
      · rw [hz, hy]
      · by_contra hn
        have := (Session.trans_of_step ha).2.connClosed (h.valid y) (Bool.eq_false_iff.mpr hn)
        exact nomatch this.symm.trans hy
    · rw [hother, hy]
  have hcut : (p x).cut = true → (p' x).cut = true := by
    intro hc
    cases trans_of_step hs with
    | @act z => rcases Side.eq_or_eq_other z x with rfl | rfl <;> simp [hc]
    | @beginFrame z => rcases Side.eq_or_eq_other z x with rfl | rfl <;> simp [hc]
    | @send z => rcases Side.eq_or_eq_other z x with rfl | rfl <;> simp [hc]
    | @endFrame z => rcases Side.eq_or_eq_other z x with rfl | rfl <;> simp [hc]
    | @failFrame z => rcases Side.eq_or_eq_other z x with rfl | rfl <;> simp [hc]
    | @pull z => rcases Side.eq_or_eq_other z x with rfl | rfl <;> simp [hc]
    | @recv z => rcases Side.eq_or_eq_other z x with rfl | rfl <;> simp [hc]
    | @recvErr z => rcases Side.eq_or_eq_other z x with rfl | rfl <;> simp [hc]
    | @cut z => rcases Side.eq_or_eq_other z x with rfl | rfl <;> simp [hc]
  rcases hf with hf | hf | hf
  · exact .inl (hcut hf)
  · exact .inr (.inl (hconn x hf))
  · exact .inr (.inr (hconn x.other hf))

/-- **A step that spares the other side does not close the circle.** -/
theorem not_circularWait_of_spares (h : Serving cfg p) (hn : ¬ p.CircularWait cfg) (ha : p.Spares cfg e)
    (hs : p.step cfg e = some p') : ¬ p'.CircularWait cfg := by
  intro hc
  have h' := h.step hs
  have hf : ∀ x, ¬ p'.Faulty x → ¬ p.Faulty x := fun x hx hf => hx (h.faulty_step hs hf)
  -- what the circle needs on the two sides, the side that moves and the other
  have hz : ∀ z, ((p' z).sess.pc .readLoop).waits = true ∧ (p' z).pending ≠ [] ∧
      cfg.cap z ≤ (p' z).wire.length ∧ ¬ p'.Faulty z := fun z => (h'.waits_iff z).mp (hc z)
  have hopen : ∀ z, ¬ p.Waits cfg z ∨ ¬ p.Waits cfg z.other := fun z =>
    not_and_or.mp fun hw => hn ((circularWait_iff z).mpr hw)
  have hother : ∀ {z : Side}, p' z.other = p z.other → p.Waits cfg z.other := fun {z : Side} he => by
    obtain ⟨hw, hpend, hfull, hnf⟩ := hz z.other
    rw [he] at hw hpend hfull
    exact (h.waits_iff _).mpr ⟨hw, hpend, hfull, hf _ hnf⟩
  cases trans_of_step hs with
  | @act z a s hl hact =>
    obtain ⟨hw, hpend, hfull, hnf⟩ := hz z
    have hy := hother (run_other s)
    rw [run_self] at hw hpend hfull
    have hblocked : p.Blocked cfg z := (h.blocked_iff z).mpr ⟨hpend, hfull, hf _ hnf⟩
    rcases (Session.trans_of_step hact).2.readLoop_waits (h.valid z) (h.reader z) hw with
      hw₀ | ⟨rfl, id, why, r, hg, hlook⟩ | ⟨f, rfl, -⟩
    · exact (hopen z).elim (fun hz' => hz' ⟨hw₀, hblocked⟩) fun hy' => hy' hy
    · exact nomatch (ha hy hblocked id why hg).symm.trans hlook
    · exact nomatch hl
  | @beginFrame z g draws j s hlt hg hact =>
    obtain ⟨hw, -, hfull, hnf⟩ := hz z
    have hy := hother (emit_other _ s)
    rw [emit_self] at hw hfull
    rcases (Session.trans_of_step hact).2.readLoop_waits (h.valid z) (h.reader z) hw with
      hw₀ | ⟨he, -⟩ | ⟨f, he, -⟩
    · exact absurd (ha hy hw₀ (hf _ hnf)) (Nat.not_lt.mpr hfull)
    · exact nomatch he
    · exact nomatch he
  | @send z k hopen' hk hcap =>
    obtain ⟨hw, hpend, hfull, hnf⟩ := hz z
    have hy := hother (take_other k)
    rw [take_self] at hw hpend hfull
    have hlt : k < (p z).pending.length := by
      by_contra hge
      exact hpend (List.drop_eq_nil_of_le (Nat.not_lt.mp hge))
    have hroom := ha hy hw (hf _ hnf) hlt
    simp only [List.length_append, List.length_take] at hfull
    omega
  | @endFrame z g s hp hact => exact (hz z).2.1 (by rw [finish_self])
  | @failFrame z g s hp hflt hact => exact (hz z).2.1 (by rw [finish_self])
  | @pull z k m hr =>
    have hw := (hz z).1
    rw [give_self, hr] at hw
    exact nomatch hw
  | @recv z f rest s hread hact =>
    obtain ⟨hw, hpend, hfull, hnf⟩ := hz z
    have hy := hother (got_other rest s)
    rw [got_self] at hw hpend hfull
    have hblocked : p.Blocked cfg z := (h.blocked_iff z).mpr ⟨hpend, hfull, hf _ hnf⟩
    rcases (Session.trans_of_step hact).2.readLoop_waits (h.valid z) (h.reader z) hw with
      hw₀ | ⟨he, -⟩ | ⟨f', he, ht⟩
    · exact (hopen z).elim (fun hz' => hz' ⟨hw₀, hblocked⟩) fun hy' => hy' hy
    · exact nomatch he
    · rw [Act.recv.injEq] at he
      exact ha hy hblocked f rest hread (he ▸ ht)
  | @recvErr z s hact =>
    have hw := (hz z).1
    rw [run_self] at hw
    cases (Session.trans_of_step hact).2 with
    | recvErr hr =>
      rw [Session.goto_self] at hw
      exact nomatch hw
  | @cut z => exact (hz z).2.2.2 (.inl (by rw [put_self]))

/-- **A step that does not spare it does.** -/
theorem spares_of_not_circularWait (h : Serving cfg p) (hs : p.step cfg e = some p')
    (hn : ¬ p'.CircularWait cfg) : p.Spares cfg e := by
  have h' := h.step hs
  -- the side that moves waits, and so does the other
  have circle : ∀ {z : Side}, p' z.other = p z.other → (p' z).sess.connClosed = (p z).sess.connClosed →
      p.Waits cfg z.other → ¬ (((p' z).sess.pc .readLoop).waits = true ∧ (p' z).pending ≠ [] ∧
        cfg.cap z ≤ (p' z).wire.length ∧ ¬ p'.Faulty z) := by
    intro z hy hconn hwy hwz
    refine hn ((circularWait_iff z).mpr ⟨(h'.waits_iff z).mpr hwz, (h'.waits_iff z.other).mpr ?_⟩)
    have hwy' := (h.waits_iff z.other).mp hwy
    rw [Faulty, Side.other_other, hy, hconn]
    rwa [Faulty, Side.other_other] at hwy'
  cases trans_of_step hs with
  | @act z a s hl hact =>
    cases a with
    | dropEntry g =>
      cases g with
      | readLoop =>
        intro hwy hb id why hg
        by_contra hne
        obtain ⟨r, hlook⟩ := Option.ne_none_iff_exists'.mp hne
        have hs' := Session.eq_of_dropEntry (Session.trans_of_step hact).2 hg hlook
        have hconn : s.connClosed = (p z).sess.connClosed := by
          rw [hs', (h.valid z).drop_eq hlook]
          rfl
        obtain ⟨hpend, hfull, hnf⟩ := (h.blocked_iff z).mp hb
        refine circle (run_other s) (by rw [run_self, hconn]) hwy ?_
        rw [Faulty, run_self, run_other, hconn]
        refine ⟨?_, hpend, hfull, hnf⟩
        rw [hs', Session.goto_self]
        rfl
      | _ => trivial
    | _ => trivial
  | @beginFrame z g draws j s hlt hg hact =>
    intro hwy hw hnf
    by_contra hfull
    have hs' := Session.eq_of_beginFrame (Session.trans_of_step hact).2 hg
    have hgr : g ≠ .readLoop := by
      rintro rfl
      rw [hg] at hw
      exact nomatch hw
    refine circle (emit_other _ s) (by rw [emit_self, hs']; rfl) hwy ?_
    rw [Faulty, emit_self, emit_other, hs']
    refine ⟨?_, WriteCall.bytes_ne_nil _ _, Nat.not_lt.mp hfull, hnf⟩
    have hpc : (((p z).sess.goto g (.writing j)).pc .readLoop).waits = true := by
      rw [Session.readLoop_goto _ hgr, hw]
    exact hpc
  | @send z k hopen hk hcap =>
    intro hwy hw hnf hlt
    by_contra hfull
    refine circle (take_other k) (by rw [take_self]) hwy ?_
    rw [Faulty, take_self, take_other]
    refine ⟨hw, fun hnil => ?_, ?_, hnf⟩
    · exact absurd (List.drop_eq_nil_iff.mp hnil) (Nat.not_le.mpr hlt)
    · simp only [List.length_append, List.length_take]
      omega
  | @recv z f rest s hread hact =>
    intro hwy hb f' rest' hread' hping
    rw [hread, Except.ok.injEq, Prod.mk.injEq] at hread'
    obtain ⟨rfl, -⟩ := hread'
    have hs' := Session.eq_of_ping (Session.trans_of_step hact).2 hping
    obtain ⟨hpend, hfull, hnf⟩ := (h.blocked_iff z).mp hb
    refine circle (got_other rest s) (by rw [got_self, hs']; rfl) hwy ?_
    rw [Faulty, got_self, got_other, hs']
    refine ⟨?_, hpend, hfull, hnf⟩
    rw [Session.goto_self]
    rfl
  | _ => trivial

/-- **Nothing but the end of the connection ends a circular wait.** -/
theorem circularWait_step (h : Serving cfg p) (hc : p.CircularWait cfg) (hs : p.step cfg e = some p')
    (hcut : ∀ x, e ≠ .cut x) (hclose : ∀ x g, e ≠ .act x (.closeConn g)) : p'.CircularWait cfg := by
  have h' := h.step hs
  have hz : ∀ z, ((p z).sess.pc .readLoop).waits = true ∧ (p z).pending ≠ [] ∧
      cfg.cap z ≤ (p z).wire.length ∧ ¬ p.Faulty z := fun z => (h.waits_iff z).mp (hc z)
  have hmu : ∀ z, ∃ g j, (p z).sess.writeMu = some g ∧ (p z).sess.pc g = .writing j := by
    intro z
    obtain ⟨g, hg, hw⟩ := (hc z).2.1
    obtain ⟨j, hj⟩ := Pc.exists_of_writes hw
    exact ⟨g, j, hg, hj⟩
  have hread : ∀ z, (p z).sess.pc .readLoop ≠ .read := by
    intro z hr
    have hw := (hz z).1
    rw [hr] at hw
    exact nomatch hw
  cases trans_of_step hs with
  | @act z a s hl hact =>
    obtain ⟨g, j, hg, -⟩ := hmu z
    have ht := (Session.trans_of_step hact).2
    have hconn : s.connClosed = (p z).sess.connClosed :=
      ht.connClosed_eq (h.valid z) fun g' he => hclose z g' (by rw [he])
    have hw := ht.readLoop_waits_on (h.valid z) (h.reader z) (hz z).1 (by simp [hg])
    refine (circularWait_iff z).mpr ⟨(h'.waits_iff z).mpr ?_, (h'.waits_iff z.other).mpr ?_⟩
    · rw [Faulty, run_self, run_other, hconn]
      exact ⟨hw, (hz z).2⟩
    · rw [Faulty, run_other, Side.other_other, run_self, hconn]
      have hy := hz z.other
      rwa [Faulty, Side.other_other] at hy
  | @beginFrame z g _ j _ _ hg =>
    obtain ⟨g', j', hg', hj'⟩ := hmu z
    have hm : (p z).sess.writeMu = some g := (h.locked z g).mp (hg ▸ trivial)
    obtain rfl : g' = g := Option.some.inj (hg'.symm.trans hm)
    exact nomatch hj'.symm.trans hg
  | @send z k hopen hk hcap =>
    -- there is room for nothing
    have hfull := (hz z).2.2.1
    obtain rfl : k = 0 := by omega
    have hsame : p.take z 0 = p := by
      rw [take, List.drop_zero, List.take_zero, List.append_nil]
      exact Function.update_eq_self z p
    rw [hsame]
    exact hc
  | @endFrame z g s hp => exact absurd hp (hz z).2.1
  | @failFrame z g s hp hf => exact absurd hf (hz z).2.2.2
  | @pull z k m hr => exact absurd hr (hread z)
  | @recv z f rest s _ hact =>
    cases (Session.trans_of_step hact).2 with
    | recv hr => exact absurd hr (hread z)
  | @recvErr z s hact =>
    cases (Session.trans_of_step hact).2 with
    | recvErr hr => exact absurd hr (hread z)
  | @cut z => exact absurd rfl (hcut z)

end Serving

theorem newPair_not_circularWait (cfg : Config) : ¬ newPair.CircularWait cfg := fun hc => nomatch (hc .server).1

/-- **Exactly the runs whose steps all spare the other side never come to a circular wait.** -/
theorem spares_iff_never_circularWait {es : List Event} (h : exec (step cfg) newPair es = some p) :
    Along (step cfg) (Spares cfg) newPair es ↔
      ∀ pre t, pre <+: es → exec (step cfg) newPair pre = some t → ¬ t.CircularWait cfg :=
  along_iff_never (I := Serving cfg) (fun _ _ _ hp hs => hp.step hs)
    (fun _ _ _ hp hn hs => ⟨fun ha => hp.not_circularWait_of_spares hn ha hs, hp.spares_of_not_circularWait hs⟩)
    (newPair_serving cfg) (newPair_not_circularWait cfg) h

/-- `x` has a data frame of 54 bytes to write, and holds `writeMu`. -/
def startsWrite (x : Side) : List Event :=
  [.act x (.write (.app 0) 0 (List.replicate 10 0)), .act x (.lock (.app 0)), .beginFrame x (.app 0) plainDraws]

/-- Both tickers tick, and on both sides the application writes before the ping arrives:
there is room for 50 bytes in each direction. -/
def crossedRun : List Event :=
  opensStream ++ .act .server .tick :: writesFrame .server .pingLoop 44 ++
    .act .client .tick :: writesFrame .client .pingLoop 44 ++ startsWrite .server ++ startsWrite .client ++
    readsFrame .server 28 ++ readsFrame .client 28 ++ [.send .server 50, .send .client 50]

theorem crossedRun_waits : ∃ p, exec (step (sampleConfig 50)) newPair crossedRun = some p ∧
    p.Waits (sampleConfig 50) .server ∧ p.Waits (sampleConfig 50) .client :=
  exists_of_any (show (exec (step (sampleConfig 50)) newPair crossedRun).any _ = true by decide +kernel)

/-- Two pings that cross while both sides write bring about the circular wait. -/
theorem crossedRun_circularWait : ∃ p, exec (step (sampleConfig 50)) newPair crossedRun = some p ∧
    p.CircularWait (sampleConfig 50) := by
  obtain ⟨p, hp, hw⟩ := crossedRun_waits
  exact ⟨p, hp, (circularWait_iff .server).mpr hw⟩

/-- Not every step of `crossedRun` spares the other side. -/
theorem crossedRun_not_spares : ¬ Along (step (sampleConfig 50)) (Spares (sampleConfig 50)) newPair crossedRun := by
  obtain ⟨p, hp, hw⟩ := crossedRun_waits
  intro ha
  exact (spares_iff_never_circularWait hp).mp ha _ p List.prefix_rfl hp ((circularWait_iff .server).mpr hw)

/-- `readLoop` of one side does not come to wait for `writeMu` while the other's waits. -/
def TakesTurns (cfg : Config) (p : Pair) : Event → Prop
  | .act x (.dropEntry .readLoop) => ((p x.other).sess.pc .readLoop).waits = true →
      ∀ id why, (p x).sess.pc .readLoop = .closing id why → (p x).sess.streams.lookup id = none
  | .recv x => ((p x.other).sess.pc .readLoop).waits = true →
      ∀ f rest, readFrame cfg.crypto (p x).held = .ok (f, rest) → f.type ≠ framePing
  | _ => True

/-- **Taking turns is enough.** -/
theorem not_circularWait_of_turns {es : List Event} (h : exec (step cfg) newPair es = some p)
    (ha : Along (step cfg) (TakesTurns cfg) newPair es) : ¬ p.CircularWait cfg := by
  have hrun : Serving cfg p ∧ ¬ ∀ x, ((p x).sess.pc .readLoop).waits = true := by
    refine exec_inv_along (I := fun p => Serving cfg p ∧ ¬ ∀ x, ((p x).sess.pc .readLoop).waits = true)
      ?_ ⟨newPair_serving cfg, fun hw => nomatch hw .server⟩ ha h
    rintro p e p' ⟨hp, hn⟩ ha hs
    refine ⟨hp.step hs, fun hw => hn ?_⟩
    obtain ⟨z, hother, hz⟩ := (trans_of_step hs).sess
    have hy : ((p z.other).sess.pc .readLoop).waits = true := hother ▸ hw z.other
    have both : ((p z).sess.pc .readLoop).waits = true → ∀ x, ((p x).sess.pc .readLoop).waits = true := by
      intro hz x
      rcases Side.eq_or_eq_other z x with rfl | rfl
      · exact hz
      · exact hy
    rcases hz with hz | ⟨a, hact, hat, hrecv⟩
    · exact both (hz ▸ hw z)
    · rcases (Session.trans_of_step hact).2.readLoop_waits (hp.valid z) (hp.reader z) (hw z) with
        hz | ⟨rfl, id, why, r, hg, hlook⟩ | ⟨f, rfl, ht⟩
      · exact both hz
      · obtain rfl : _ = _ := hat
        exact nomatch (ha hy id why hg).symm.trans hlook
      · obtain rfl : _ = _ := hat
        obtain ⟨rest, hread⟩ := hrecv f rfl
        exact absurd ht (ha hy f rest hread)
  exact fun hc => hrun.2 fun x => (hc x).1

end Pair

end Hawal.Mux
