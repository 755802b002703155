import Hawal.Mux.Delivery

/-!
# What one goroutine can do, and what can become of one stream

A step is the step of one goroutine (`Act.gid`), and leaves the program counters and
the results of the others alone (`Trans.others`). `StreamMoves` lists what it can do
to a stream made before (`Trans.stream`).
-/

namespace Hawal.Mux

open Hawal.Lib Hawal.Transport

/-- The goroutine whose step it is. -/
def Act.gid : Act → Gid
  | .openStream g _ => g
  | .acceptStream g => g
  | .write g _ _ => g
  | .read g _ _ => g
  | .closeStream g _ => g
  | .close g => g
  | .dropEntry g => g
  | .lock g => g
  | .beginFrame g => g
  | .endFrame g _ => g
  | .unlock g => g
  | .recv _ => .readLoop
  | .recvErr => .readLoop
  | .enqueue => .readLoop
  | .push => .readLoop
  | .timeout => .readLoop
  | .closeStreams g => g
  | .closeAccept g => g
  | .closeConn g => g
  | .tick => .pingLoop

/-- A call of the application. -/
def Act.calls : Act → Bool
  | .openStream _ _ => true
  | .acceptStream _ => true
  | .write _ _ _ => true
  | .read _ _ _ => true
  | .closeStream _ _ => true
  | .close _ => true
  | _ => false

/-- A program counter without a job that is not in `closeStream`. -/
def Pc.Plain (p : Pc) : Prop := p.job = none ∧ ∀ id why, p ≠ .closing id why

theorem Pc.Plain.job_ne {p : Pc} (h : p.Plain) {j : Job} (hj : p.job = some j) : False := by
  rw [h.1] at hj
  cases hj

namespace Session

variable {s s' : Session} {a : Act}

/-! ### Goroutines -/

section Others

variable {t : Session} {g g' : Gid}

/-- The goroutine `g` is where it was, with the result it had. -/
def Rests (s t : Session) (g : Gid) : Prop := t.pc g = s.pc g ∧ t.ret g = s.ret g

theorem Rests.goto (h : s.Rests t g) (p : Pc) (hg : g ≠ g') : s.Rests (t.goto g' p) g :=
  ⟨(goto_of_ne p hg).trans h.1, h.2⟩

theorem Rests.answer (h : s.Rests t g) (v : Ret) (hg : g ≠ g') : s.Rests (t.answer g' v) g :=
  ⟨(goto_of_ne .idle hg).trans h.1, (Function.update_of_ne hg _ _).trans h.2⟩

theorem Rests.closeReturn (h : s.Rests t g) (why : Closer) (hg : g ≠ g') : s.Rests (t.closeReturn g' why) g := by
  cases why with
  | pushTimeout => exact h.goto .read hg
  | acceptOverflow => exact h.goto .read hg
  | openFailed => exact h.answer _ hg
  | streamClose r => exact Rests.answer (t := t.modify r ({ · with closeOnce := .done })) h _ hg

theorem Rests.closeDone (h : s.Rests t g) (hg : g ≠ g') : s.Rests (t.closeDone g') g := by
  cases g' with
  | app n => exact h.answer _ hg
  | _ => exact h.goto _ hg

theorem Trans.others (hv : s.Valid) (h : s.Trans a s') (hg : g ≠ a.gid) : s.Rests s' g := by
  have h0 : s.Rests s g := ⟨rfl, rfl⟩
  cases h with
  | openRefused => exact h0.answer _ hg
  | openStream => exact h0.goto (.waitMu _) hg
  | acceptEnded => exact h0.answer _ hg
  | acceptStream => exact h0.answer _ hg
  | writeRefused => exact h0.answer _ hg
  | write => exact h0.goto _ hg
  | read => exact h0.answer _ hg
  | closeStream => exact h0.goto (.closing _ _) hg
  | closeStreamAgain => exact h0.answer _ hg
  | close => exact h0.goto .teardown hg
  | closeAgain => exact h0.closeDone hg
  | @dropEntry g' id why r _ hl =>
    have hd : s.Rests (s.drop id r (.closeStream why)) g := by
      rw [hv.drop_eq hl]
      exact h0
    exact hd.goto _ hg
  | dropMissing => exact h0.closeReturn _ hg
  | @lock g' j =>
    have hgo : s.Rests (s.goto g' (.locked j)) g := h0.goto _ hg
    cases j <;> exact hgo
  | beginFrame => exact h0.goto (.writing _) hg
  | @endFrame g' j ok =>
    cases j with
    | openFrame r id targetPort =>
      cases ok with
      | true => exact h0.answer (.opened (some r)) hg
      | false => exact h0.goto (.closing id .openFailed) hg
    | closeFrame id why =>
      exact Rests.closeReturn (t := { s with writeFailed := s.writeFailed || !ok }.release) h0 why hg
    | data r id data offset =>
      cases ok with
      | true => exact h0.goto (.locked _) hg
      | false => exact h0.answer (.wrote offset true) hg
    | pong => exact h0.goto .read hg
    | ping => exact h0.goto .tick hg
  | @unlock g' j =>
    cases j with
    | data r id data offset => exact h0.answer (.wrote offset _) hg
    | _ => exact h0.goto .exited hg
  | @recv f =>
    have hv' : (s.heard f).Valid := ⟨hv.entry, hv.works, hv.queued, hv.handed, hv.queue⟩
    rcases s.dispatch_cases f with ⟨-, hd⟩ | ⟨r, -, hl, hd⟩ | ⟨r, -, hl, hd⟩ | ⟨-, hd⟩ | ⟨-, -, -, hd⟩
    all_goals rw [hd]
    · exact h0.goto (.accept _ _) hg
    · exact h0.goto (.push _ _ _) hg
    · rw [hv'.drop_eq hl]
      exact h0
    · exact h0.goto (.waitMu _) hg
    · exact h0
  | recvErr => exact h0.goto _ hg
  | enqueuePanics => exact h0
  | enqueue => exact h0.goto .read hg
  | overflow => exact h0.goto _ hg
  | pushPanics => exact h0
  | push => exact h0.goto .read hg
  | timeout => exact h0.goto _ hg
  | closeStreams =>
    rw [hv.closeStreams_eq]
    exact h0
  | closeAccept =>
    unfold Session.closeAccept
    split <;> exact h0
  | closeConn => exact h0.closeDone hg
  | tick => exact h0.goto _ hg

end Others

/-- A goroutine that takes no step stays where it is. -/
theorem exec_pc {g : Gid} {as : List Act} (hg : ∀ a ∈ as, g ≠ a.gid) {s₀ : Session} (hv : s₀.Valid)
    (h : exec step s₀ as = some s) : s.pc g = s₀.pc g := by
  induction as generalizing s₀ with
  | nil =>
    rw [exec_nil, Option.some.injEq] at h
    rw [h]
  | cons a as ih =>
    obtain ⟨t, ha, ht⟩ := exec_cons_eq_some.mp h
    rw [ih (fun b hb => hg b (List.mem_cons_of_mem _ hb)) (hv.step ha) ht]
    exact ((trans_of_step ha).2.others hv (hg a List.mem_cons_self)).1

/-- **The next step of a goroutine** that is in the application, or at a write. -/
theorem Trans.next (h : s.Trans a s') :
    (s.pc a.gid = .idle → a.calls = true) ∧
    (∀ j, s.pc a.gid = .waitMu j → s' = s.acquire a.gid j) ∧
    (∀ j, s.pc a.gid = .locked j →
      s.wants j = true ∧ s' = s.beginWrite a.gid j ∨ s.wants j = false ∧ s' = s.giveUp a.gid j) ∧
    ∀ j, s.pc a.gid = .writing j → ∃ ok, s' = s.endWrite a.gid j ok ∧ a = .endFrame a.gid ok := by
  cases h with
  | close hg => rcases hg with hg | hg <;> simp_all [Act.gid, Act.calls]
  | closeAgain hg => rcases hg with hg | hg <;> simp_all [Act.gid, Act.calls]
  | _ => simp_all [Act.gid, Act.calls]

/-- **What the goroutine `g` comes to write.** -/
inductive JobMoves (s : Session) (g : Gid) : Act → Job → Prop
  | keeps {a j} : (s.pc g).job = some j → JobMoves s g a j
  | goesOn {r id data offset j} : s.pc g = .writing (.data r id data offset) →
      j = .data r id data (offset + chunkSize data offset) → JobMoves s g (.endFrame g true) j
  | opens {targetPort id j} : j = .openFrame s.fresh id targetPort → JobMoves s g (.openStream g targetPort) j
  | writes {r data j} : (s.heap r).handed = true → j = .data r (s.heap r).id data 0 → JobMoves s g (.write g r data) j
  | drops {id why j} : s.pc g = .closing id why → j = .closeFrame id why → JobMoves s g (.dropEntry g) j
  | answers {f j} : j = .pong → JobMoves s g (.recv f) j
  | pings {j} : j = .ping → JobMoves s g .tick j

/-- **How the goroutine `g` comes to `closeStream`.** -/
inductive ClosingMoves (s : Session) (g : Gid) : Act → UInt32 → Closer → Prop
  | keeps {a id why} : s.pc g = .closing id why → ClosingMoves s g a id why
  | shuts {r id why} : (s.heap r).handed = true → id = (s.heap r).id → why = .streamClose r →
      ClosingMoves s g (.closeStream g r) id why
  | openFailed {a id why} : a = .endFrame g false → why = .openFailed → ClosingMoves s g a id why
  | overflow {r id why} : g = .readLoop → s.pc .readLoop = .accept r id → why = .acceptOverflow →
      ClosingMoves s g .enqueue id why
  | timeout {id why} : why = .pushTimeout → ClosingMoves s g .timeout id why

section Self

variable {t : Session} {g : Gid}

theorem closeReturn_plain (t : Session) (g : Gid) (why : Closer) : Pc.Plain ((t.closeReturn g why).pc g) := by
  have hread : Pc.Plain ((t.goto g .read).pc g) := by
    rw [goto_self]
    exact ⟨rfl, fun _ _ h => Pc.noConfusion h⟩
  have hidle : ∀ t : Session, Pc.Plain ((t.goto g .idle).pc g) := fun t => by
    rw [goto_self]
    exact ⟨rfl, fun _ _ h => Pc.noConfusion h⟩
  cases why with
  | pushTimeout => exact hread
  | acceptOverflow => exact hread
  | openFailed => exact hidle t
  | streamClose r => exact hidle t

theorem closeDone_plain (t : Session) (g : Gid) : Pc.Plain ((t.closeDone g).pc g) := by
  cases g with
  | app n =>
    show Pc.Plain ((t.goto (.app n) .idle).pc (.app n))
    rw [goto_self]
    exact ⟨rfl, fun _ _ h => Pc.noConfusion h⟩
  | _ =>
    show Pc.Plain ((t.goto _ .exited).pc _)
    rw [goto_self]
    exact ⟨rfl, fun _ _ h => Pc.noConfusion h⟩

end Self

theorem Trans.job (hv : s.Valid) (h : s.Trans a s') {g : Gid} {j : Job} (hj : (s'.pc g).job = some j) :
    s.JobMoves g a j := by
  by_cases hg : g = a.gid
  swap
  · rw [(h.others hv hg).1] at hj
    exact .keeps hj
  subst hg
  -- the goroutine that moves has gone on at `p`
  have at' : ∀ {t : Session} {g p}, ((t.goto g p).pc g).job = some j → p.job = some j := fun h => by
    rwa [goto_self] at h
  have none' : ∀ {t : Session} {g p}, p.job = none → ¬ ((t.goto g p).pc g).job = some j := fun hp h => by
    rw [goto_self, hp] at h
    cases h
  cases h with
  | openRefused => exact absurd hj (none' (p := .idle) rfl)
  | openStream => exact .opens (Option.some.inj (at' (p := .waitMu _) hj)).symm
  | acceptEnded => exact absurd hj (none' (p := .idle) rfl)
  | acceptStream => exact absurd hj (none' (p := .idle) rfl)
  | writeRefused => exact absurd hj (none' (p := .idle) rfl)
  | write _ hh => exact .writes hh (Option.some.inj (at' hj)).symm
  | read => exact absurd hj (none' (p := .idle) rfl)
  | closeStream => exact absurd hj (none' rfl)
  | closeStreamAgain => exact absurd hj (none' (p := .idle) rfl)
  | close => exact absurd hj (none' (p := .teardown) rfl)
  | closeAgain => exact ((closeDone_plain s _).job_ne hj).elim
  | dropEntry hg => exact .drops hg (Option.some.inj (at' hj)).symm
  | dropMissing => exact ((closeReturn_plain s _ _).job_ne hj).elim
  | @lock g j' hg =>
    have hj' : (Pc.locked j').job = some j := by cases j' <;> exact at' (p := .locked _) hj
    exact .keeps (by rw [show s.pc (Act.lock g).gid = _ from hg]; exact hj')
  | @beginFrame g j' hg =>
    have hj' : (Pc.writing j').job = some j := at' (p := .writing _) hj
    exact .keeps (by rw [show s.pc (Act.beginFrame g).gid = _ from hg]; exact hj')
  | @endFrame g j' ok hg =>
    cases j' with
    | openFrame r id targetPort =>
      cases ok with
      | true => exact absurd hj (none' (p := .idle) rfl)
      | false => exact absurd hj (none' (p := .closing id .openFailed) rfl)
    | closeFrame id why =>
      have hj' : (({ s with writeFailed := s.writeFailed || !ok }.release.closeReturn g why).pc g).job = some j := hj
      exact ((closeReturn_plain _ g why).job_ne hj').elim
    | data r id data offset =>
      cases ok with
      | true => exact .goesOn hg (Option.some.inj (at' (p := .locked _) hj)).symm
      | false => exact absurd hj (none' (p := .idle) rfl)
    | pong => exact absurd hj (none' (p := .read) rfl)
    | ping => exact absurd hj (none' (p := .tick) rfl)
  | @unlock g j' =>
    cases j' with
    | data => exact absurd hj (none' (p := .idle) rfl)
    | _ => exact absurd hj (none' (p := .exited) rfl)
  | @recv f hg =>
    have hv' : (s.heard f).Valid := ⟨hv.entry, hv.works, hv.queued, hv.handed, hv.queue⟩
    have hread : (s.pc .readLoop).job = none := by rw [hg]; rfl
    rcases s.dispatch_cases f with ⟨-, hd⟩ | ⟨r, -, hl, hd⟩ | ⟨r, -, hl, hd⟩ | ⟨-, hd⟩ | ⟨-, -, -, hd⟩
    all_goals rw [hd] at hj
    · exact absurd hj (none' (p := .accept _ _) rfl)
    · exact absurd hj (none' (p := .push _ _ _) rfl)
    · rw [hv'.drop_eq hl] at hj
      cases hread.symm.trans hj
    · exact .answers (Option.some.inj (at' hj)).symm
    · cases hread.symm.trans hj
  | recvErr => exact absurd hj (none' rfl)
  | enqueuePanics => exact .keeps hj
  | enqueue => exact absurd hj (none' (t := s) (g := .readLoop) (p := .read) rfl)
  | overflow => exact absurd hj (none' rfl)
  | pushPanics => exact .keeps hj
  | push => exact absurd hj (none' (p := .read) rfl)
  | timeout => exact absurd hj (none' rfl)
  | closeStreams =>
    rw [hv.closeStreams_eq] at hj
    exact .keeps hj
  | closeAccept =>
    unfold Session.closeAccept at hj
    split at hj <;> exact .keeps hj
  | closeConn => exact ((closeDone_plain s _).job_ne hj).elim
  | tick => exact .pings (Option.some.inj (at' hj)).symm

theorem Trans.closing (hv : s.Valid) (h : s.Trans a s') {g : Gid} {id : UInt32} {why : Closer}
    (hp : s'.pc g = .closing id why) : s.ClosingMoves g a id why := by
  by_cases hg : g = a.gid
  swap
  · rw [(h.others hv hg).1] at hp
    exact .keeps hp
  subst hg
  have at' : ∀ {t : Session} {g p}, (t.goto g p).pc g = .closing id why → p = .closing id why := fun h => by
    rwa [goto_self] at h
  have ne' : ∀ {t : Session} {g p}, (∀ id why, p ≠ .closing id why) → ¬ (t.goto g p).pc g = .closing id why :=
    fun hp h => hp _ _ (at' h)
  have idle : ∀ id why, Pc.idle ≠ .closing id why := by simp
  cases h with
  | openRefused => exact absurd hp (ne' idle)
  | openStream => exact absurd hp (ne' (p := .waitMu _) (by simp))
  | acceptEnded => exact absurd hp (ne' idle)
  | acceptStream => exact absurd hp (ne' idle)
  | writeRefused => exact absurd hp (ne' idle)
  | write => exact absurd hp (ne' (by simp))
  | read => exact absurd hp (ne' idle)
  | closeStream _ hh =>
    have he := at' (p := .closing _ _) hp
    rw [Pc.closing.injEq] at he
    exact .shuts hh he.1.symm he.2.symm
  | closeStreamAgain => exact absurd hp (ne' idle)
  | close => exact absurd hp (ne' (p := .teardown) (by simp))
  | closeAgain => exact absurd hp ((closeDone_plain s _).2 _ _)
  | dropEntry => exact absurd hp (ne' (by simp))
  | dropMissing => exact absurd hp ((closeReturn_plain s _ _).2 _ _)
  | @lock g j => cases j <;> exact absurd hp (ne' (p := .locked _) (by simp))
  | beginFrame => exact absurd hp (ne' (p := .writing _) (by simp))
  | @endFrame g j ok =>
    cases j with
    | openFrame r id' targetPort =>
      cases ok with
      | true => exact absurd hp (ne' idle)
      | false =>
        have he := at' (p := .closing id' .openFailed) hp
        rw [Pc.closing.injEq] at he
        exact .openFailed rfl he.2.symm
    | closeFrame id' why' =>
      have hp' : ({ s with writeFailed := s.writeFailed || !ok }.release.closeReturn g why').pc g = .closing id why := hp
      exact absurd hp' ((closeReturn_plain _ g why').2 _ _)
    | data r id' data offset =>
      cases ok with
      | true => exact absurd hp (ne' (p := .locked _) (by simp))
      | false => exact absurd hp (ne' idle)
    | pong => exact absurd hp (ne' (p := .read) (by simp))
    | ping => exact absurd hp (ne' (p := .tick) (by simp))
  | @unlock g j =>
    cases j with
    | data => exact absurd hp (ne' idle)
    | _ => exact absurd hp (ne' (p := .exited) (by simp))
  | @recv f hg =>
    have hv' : (s.heard f).Valid := ⟨hv.entry, hv.works, hv.queued, hv.handed, hv.queue⟩
    have hread : s.pc .readLoop ≠ .closing id why := by rw [hg]; simp
    rcases s.dispatch_cases f with ⟨-, hd⟩ | ⟨r, -, hl, hd⟩ | ⟨r, -, hl, hd⟩ | ⟨-, hd⟩ | ⟨-, -, -, hd⟩
    all_goals rw [hd] at hp
    · exact absurd hp (ne' (p := .accept _ _) (by simp))
    · exact absurd hp (ne' (p := .push _ _ _) (by simp))
    · rw [hv'.drop_eq hl] at hp
      exact absurd hp hread
    · exact absurd hp (ne' (by simp))
    · exact absurd hp hread
  | recvErr => exact absurd hp (ne' (by simp))
  | enqueuePanics => exact .keeps hp
  | enqueue => exact absurd hp (ne' (t := s) (g := .readLoop) (p := .read) (by simp))
  | overflow hg =>
    have he := at' hp
    rw [Pc.closing.injEq] at he
    exact .overflow rfl (he.1 ▸ hg) he.2.symm
  | pushPanics => exact .keeps hp
  | push => exact absurd hp (ne' (p := .read) (by simp))
  | timeout =>
    have he := at' hp
    rw [Pc.closing.injEq] at he
    exact .timeout he.2.symm
  | closeStreams =>
    rw [hv.closeStreams_eq] at hp
    exact .keeps hp
  | closeAccept =>
    unfold Session.closeAccept at hp
    split at hp <;> exact .keeps hp
  | closeConn => exact absurd hp ((closeDone_plain s _).2 _ _)
  | tick => exact absurd hp (ne' (by simp))

/-- `readLoop` comes to the `select` on `acceptChan` with the stream of a frame that opens
one. -/
theorem Trans.accepting (hv : s.Valid) (h : s.Trans a s') {r : Ref} {id : UInt32}
    (hp : s'.pc .readLoop = .accept r id) :
    s.pc .readLoop = .accept r id ∨ (∃ f, a = .recv f) ∧ r = s.fresh := by
  cases h.receives hv with
  | keeps hk => exact .inl (hk.accepting hp)
  | openStream => exact .inl (accepting_goto (s := s) (p := .waitMu _) trivial hp)
  | read => exact .inl (accepting_goto (s := s) (p := .idle) trivial hp)
  | dropEntry _ hl =>
    rw [hv.drop_eq hl] at hp
    exact .inl (accepting_goto (s := s) (p := .waitMu _) trivial hp)
  | @recv f hg =>
    have hv' : (s.heard f).Valid := ⟨hv.entry, hv.works, hv.queued, hv.handed, hv.queue⟩
    rcases s.dispatch_cases f with ⟨-, hd⟩ | ⟨r₀, -, hl, hd⟩ | ⟨r₀, -, hl, hd⟩ | ⟨-, hd⟩ | ⟨-, -, -, hd⟩
    all_goals rw [hd] at hp
    · rw [goto_self, Pc.accept.injEq] at hp
      exact .inr ⟨⟨f, rfl⟩, hp.1.symm⟩
    · rw [goto_self] at hp
      cases hp
    · rw [hv'.drop_eq hl] at hp
      cases hg.symm.trans hp
    · rw [goto_self] at hp
      cases hp
    · cases hg.symm.trans hp
  | enqueuePanics => exact .inl hp
  | pushPanics => exact .inl hp
  | push =>
    rw [goto_self] at hp
    cases hp
  | timeout =>
    rw [goto_self] at hp
    cases hp
  | closeStreams =>
    rw [hv.closeStreams_eq] at hp
    exact .inl hp
  | closeAccept => exact .inl hp

/-- What can become of the streams in `acceptChan`. -/
theorem Trans.queue (hv : s.Valid) (h : s.Trans a s') : s'.acceptChan.buf = s.acceptChan.buf ∨
    (∃ g r c, s.acceptChan.recv = .value r c ∧ a = .acceptStream g ∧ s'.acceptChan.buf = c.buf) ∨
    ∃ r id, a = .enqueue ∧ s.pc .readLoop = .accept r id ∧ s'.acceptChan.buf = s.acceptChan.buf ++ [r] := by
  cases h with
  | @acceptStream g r c _ hrecv => exact .inr (.inl ⟨g, r, c, hrecv, rfl, rfl⟩)
  | closeAgain =>
    rename_i g _ _
    cases g <;> exact .inl rfl
  | dropEntry _ hl =>
    rw [hv.drop_eq hl]
    exact .inl rfl
  | @dropMissing _ _ why => cases why <;> exact .inl rfl
  | @lock _ j => cases j <;> exact .inl rfl
  | @endFrame g j ok =>
    cases j with
    | openFrame => cases ok <;> exact .inl rfl
    | closeFrame id why => cases why <;> exact .inl rfl
    | data => cases ok <;> exact .inl rfl
    | _ => exact .inl rfl
  | @unlock g j => cases j <;> exact .inl rfl
  | @recv f =>
    obtain ⟨_, _, _, _, hd, -⟩ := dispatch_eq_of_valid hv f
    rw [hd]
    exact .inl rfl
  | @enqueue r id c hg hsend =>
    exact .inr (.inr ⟨r, id, rfl, hg, congrArg Chan.buf (Chan.send_eq_sent hsend).2⟩)
  | closeStreams =>
    rw [hv.closeStreams_eq]
    exact .inl rfl
  | closeAccept =>
    unfold Session.closeAccept
    split <;> exact .inl rfl
  | closeConn =>
    rename_i g _ _
    cases g <;> exact .inl rfl
  | _ => exact .inl rfl

/-- A stream comes into `acceptChan` from `readLoop`. -/
theorem Trans.queued (hv : s.Valid) (h : s.Trans a s') {r : Ref} (hr : r ∈ s'.acceptChan.buf) :
    r ∈ s.acceptChan.buf ∨ ∃ id, a = .enqueue ∧ s.pc .readLoop = .accept r id := by
  rcases h.queue hv with hc | ⟨-, r₀, c, hrecv, -, hc⟩ | ⟨r₀, id, ha, hp, hc⟩
  · exact .inl (hc ▸ hr)
  · exact .inl ((Chan.recv_eq_value hrecv).1 ▸ List.mem_cons_of_mem _ (hc ▸ hr))
  · rw [hc, List.mem_append, List.mem_singleton] at hr
    rcases hr with hr | rfl
    · exact .inl hr
    · exact .inr ⟨id, ha, hp⟩

/-- The stream that the last call of goroutine `g` returned. -/
def given (s : Session) (g : Gid) : Option Ref :=
  match s.ret g with
  | some (.opened r) => r
  | some (.accepted r) => r
  | _ => none

theorem given_answer {t : Session} {g : Gid} {v : Ret} {r : Ref} (h : (t.answer g v).given g = some r) :
    v = .opened (some r) ∨ v = .accepted (some r) := by
  rw [given] at h
  cases v <;> simp_all [Session.answer]

/-- A call returns a stream: it was queued, or this goroutine was announcing it. -/
theorem Trans.given (hv : s.Valid) (h : s.Trans a s') {g : Gid} {r : Ref} (hr : s'.given g = some r) :
    s.given g = some r ∨ s'.heap r = { s.heap r with handed := true } ∧ (∀ g, a ≠ .beginFrame g) ∧
      (r ∈ s.acceptChan.buf ∨ ∃ id targetPort, (s.pc g).job = some (.openFrame r id targetPort)) := by
  by_cases hg : g = a.gid
  swap
  · rw [Session.given, (h.others hv hg).2] at hr
    exact .inl hr
  subst hg
  have other' : ∀ {t : Session} {g v}, v ≠ .opened (some r) → v ≠ .accepted (some r) →
      ¬ (t.answer g v).given g = some r := fun ho ha h => (given_answer h).elim ho ha
  have closed' : ∀ {t : Session} {g}, ¬ (t.answer g .closed).given g = some r := other' (by simp) (by simp)
  have wrote' : ∀ {t : Session} {g n err}, ¬ (t.answer g (.wrote n err)).given g = some r := other' (by simp) (by simp)
  have return' : ∀ (t : Session) g why, (t.closeReturn g why).given g = some r → t.given g = some r := by
    intro t g why h
    cases why with
    | openFailed => exact absurd h (other' (by simp) (by simp))
    | streamClose r₀ => exact absurd h closed'
    | _ => exact h
  cases h with
  | openRefused => exact absurd hr (other' (by simp) (by simp))
  | acceptEnded => exact absurd hr (other' (by simp) (by simp))
  | @acceptStream g r₀ c _ hrecv =>
    obtain rfl : r₀ = r := by simpa using given_answer hr
    refine .inr ⟨modify_self (s := s) r₀ ({ · with handed := true }), by simp, .inl ?_⟩
    exact (Chan.recv_eq_value hrecv).1 ▸ List.mem_cons_self
  | writeRefused => exact absurd hr wrote'
  | @read g r₀ n ret st _ _ hread =>
    rcases Stream.read_ret hread with ⟨b, rfl, -⟩ | ⟨rfl, -⟩ <;> exact absurd hr (other' (by simp) (by simp))
  | closeStreamAgain => exact absurd hr closed'
  | closeAgain =>
    rename_i g _ _
    cases g with
    | app n => exact absurd hr closed'
    | _ => exact .inl hr
  | dropEntry _ hl =>
    rw [hv.drop_eq hl] at hr
    exact .inl hr
  | dropMissing => exact .inl (return' _ _ _ hr)
  | @lock g j => cases j <;> exact .inl hr
  | @endFrame g j ok hg =>
    cases j with
    | openFrame r₀ id targetPort =>
      cases ok with
      | true =>
        obtain rfl : r₀ = r := by simpa using given_answer (v := .opened (some r₀)) hr
        exact .inr ⟨modify_self (s := s) r₀ ({ · with handed := true }), by simp,
          .inr ⟨id, targetPort, congrArg Pc.job hg⟩⟩
      | false => exact .inl hr
    | closeFrame id why =>
      have hr' : ({ s with writeFailed := s.writeFailed || !ok }.release.closeReturn g why).given g = some r := hr
      have hs := return' _ g why hr'
      exact .inl hs
    | data r₀ id data offset =>
      cases ok with
      | true => exact .inl hr
      | false => exact absurd hr wrote'
    | _ => exact .inl hr
  | @unlock g j =>
    cases j with
    | data => exact absurd hr wrote'
    | _ => exact .inl hr
  | @recv f =>
    have hv' : (s.heard f).Valid := ⟨hv.entry, hv.works, hv.queued, hv.handed, hv.queue⟩
    rcases s.dispatch_cases f with ⟨-, hd⟩ | ⟨r, -, hl, hd⟩ | ⟨r, -, hl, hd⟩ | ⟨-, hd⟩ | ⟨-, -, -, hd⟩
    all_goals rw [hd] at hr
    · exact .inl hr
    · exact .inl hr
    · rw [hv'.drop_eq hl] at hr
      exact .inl hr
    · exact .inl hr
    · exact .inl hr
  | closeStreams =>
    rw [hv.closeStreams_eq] at hr
    exact .inl hr
  | closeAccept =>
    unfold Session.closeAccept at hr
    split at hr <;> exact .inl hr
  | closeConn =>
    rename_i g _ _
    cases g with
    | app n => exact absurd hr closed'
    | _ => exact .inl hr
  | _ => exact .inl hr

/-- **How far `Session.Close` comes**: a step leaves `closeOnce` and `closed` alone, or is the
next of the function that `Session.Close` runs once. -/
theorem Trans.shutdown (hv : s.Valid) (h : s.Trans a s') : s'.closeOnce = s.closeOnce ∧ s'.closed = s.closed ∨
    (∃ g, a = .close g) ∧ s.closeOnce = .ready ∧ s'.closeOnce = .table ∧ s'.closed = s.closed ∨
    (∃ g, a = .closeStreams g) ∧ s.closeOnce = .table ∧ s'.closeOnce = .queue ∧ s'.closed = true ∨
    (∃ g, a = .closeAccept g) ∧ s.closeOnce = .queue ∧ s'.closeOnce = .conn ∧ s'.closed = s.closed ∨
    (∃ g, a = .closeConn g) ∧ s.closeOnce = .conn ∧ s'.closeOnce = .done ∧ s'.closed = s.closed := by
  cases h with
  | close _ ho => exact .inr (.inl ⟨⟨_, rfl⟩, ho, rfl, rfl⟩)
  | closeStreams _ ho => exact .inr (.inr (.inl ⟨⟨_, rfl⟩, ho, rfl, rfl⟩))
  | closeAccept _ ho =>
    refine .inr (.inr (.inr (.inl ⟨⟨_, rfl⟩, ho, rfl, ?_⟩)))
    unfold Session.closeAccept
    split <;> rfl
  | @closeConn g _ ho => exact .inr (.inr (.inr (.inr ⟨⟨_, rfl⟩, ho, rfl, by cases g <;> rfl⟩)))
  | @closeAgain g => cases g <;> exact .inl ⟨rfl, rfl⟩
  | dropEntry _ hl =>
    rw [hv.drop_eq hl]
    exact .inl ⟨rfl, rfl⟩
  | @dropMissing _ _ why => cases why <;> exact .inl ⟨rfl, rfl⟩
  | @lock _ j => cases j <;> exact .inl ⟨rfl, rfl⟩
  | @endFrame g j ok =>
    cases j with
    | openFrame => cases ok <;> exact .inl ⟨rfl, rfl⟩
    | closeFrame id why => cases why <;> exact .inl ⟨rfl, rfl⟩
    | data => cases ok <;> exact .inl ⟨rfl, rfl⟩
    | _ => exact .inl ⟨rfl, rfl⟩
  | @unlock g j => cases j <;> exact .inl ⟨rfl, rfl⟩
  | @recv f =>
    obtain ⟨_, _, _, _, hd, -⟩ := dispatch_eq_of_valid hv f
    rw [hd]
    exact .inl ⟨rfl, rfl⟩
  | _ => exact .inl ⟨rfl, rfl⟩

/-- Nothing happens to `closed` and `closeOnce` until `Session.Close` is called. -/
theorem Trans.unclosed (hv : s.Valid) (h : s.Trans a s') (ha : ∀ g, a ≠ .close g) (ho : s.closeOnce = .ready) :
    s'.closeOnce = .ready ∧ s'.closed = s.closed := by
  rcases h.shutdown hv with ⟨hc, hd⟩ | ⟨⟨g, rfl⟩, -⟩ | ⟨-, hc, -⟩ | ⟨-, hc, -⟩ | ⟨-, hc, -⟩
  · exact ⟨hc.trans ho, hd⟩
  · exact absurd rfl (ha g)
  · cases ho.symm.trans hc
  · cases ho.symm.trans hc
  · cases ho.symm.trans hc

/-! ### Streams -/

/-- **What can become of the stream `r`** in a step. -/
inductive StreamMoves (s : Session) (r : Ref) : Act → Stream → Prop
  | stays {a st} : st = s.heap r → StreamMoves s r a st
  | reads {g n ret st} : (s.heap r).handed = true → (s.heap r).read n = some (ret, st) →
      StreamMoves s r (.read g r n) st
  | shuts {g st} : (s.heap r).handed = true → (s.heap r).closeOnce = .fresh →
      st = { s.heap r with closeOnce := .running, closed := true } → StreamMoves s r (.closeStream g r) st
  | writes {g id data offset st} : s.pc g = .waitMu (.data r id data offset) →
      st = { s.heap r with put := (s.heap r).put ++ data } → StreamMoves s r (.lock g) st
  | accepted {g c st} : s.acceptChan.recv = .value r c → st = { s.heap r with handed := true } →
      StreamMoves s r (.acceptStream g) st
  | opened {g id targetPort st} : s.pc g = .writing (.openFrame r id targetPort) →
      st = { s.heap r with handed := true } → StreamMoves s r (.endFrame g true) st
  | shut {a g id st} : s.pc g = .closing id (.streamClose r) ∨ s.pc g = .writing (.closeFrame id (.streamClose r)) →
      st = { s.heap r with closeOnce := .done } → StreamMoves s r a st
  | dropped {g id why st} : s.pc g = .closing id why → s.streams.lookup id = some r →
      st = (s.heap r).endedBy (.closeStream why) → StreamMoves s r (.dropEntry g) st
  | ended {f st} : f.type = frameStreamClose → s.streams.lookup f.streamID = some r →
      st = (s.heap r).endedBy .peerClose → StreamMoves s r (.recv f) st
  | tornDown {g st} : s.closeOnce = .table → s.streams.lookup (s.heap r).id = some r →
      st = (s.heap r).endedBy .sessionClose → StreamMoves s r (.closeStreams g) st
  | pushed {id payload c st} : s.pc .readLoop = .push r id payload → (s.heap r).readChan.send payload = .sent c →
      st = { s.heap r with readChan := c } → StreamMoves s r .push st

/-- A step that is about the stream `r₀`. -/
theorem StreamMoves.modify {r r₀ : Ref} {f : Stream → Stream} (h : r = r₀ → s.StreamMoves r a (f (s.heap r))) :
    s.StreamMoves r a ((s.modify r₀ f).heap r) := by
  by_cases hr : r = r₀
  · subst hr
    rw [modify_self]
    exact h rfl
  · rw [modify_of_ne f hr]
    exact .stays rfl

theorem StreamMoves.closeReturn {t : Session} {r : Ref} {g : Gid} {id : UInt32} {why : Closer} (ht : t.heap = s.heap)
    (hg : s.pc g = .closing id why ∨ s.pc g = .writing (.closeFrame id why)) :
    s.StreamMoves r a ((t.closeReturn g why).heap r) := by
  cases why with
  | streamClose r₀ =>
    have hm : s.StreamMoves r a ((s.modify r₀ ({ · with closeOnce := .done })).heap r) :=
      .modify fun hr => .shut (hr ▸ hg) rfl
    have hsame : (t.closeReturn g (.streamClose r₀)).heap r = (s.modify r₀ ({ · with closeOnce := .done })).heap r := by
      simp only [Session.closeReturn, answer_heap, Session.modify, ht]
    rw [hsame]
    exact hm
  | _ => exact .stays (congrFun ht r)

theorem Trans.stream (hv : s.Valid) (h : s.Trans a s') {r : Ref} (hr : r < s.fresh) :
    s.StreamMoves r a (s'.heap r) := by
  cases h with
  | openStream => exact .stays (enter_of_ne _ _ hr.ne)
  | @acceptStream g r₀ c _ hrecv =>
    refine StreamMoves.modify (f := ({ · with handed := true })) fun he => ?_
    subst he
    exact .accepted hrecv rfl
  | read _ hh hread =>
    refine .modify (f := fun _ => _) fun he => ?_
    subst he
    exact .reads hh hread
  | closeStream _ hh ho =>
    refine StreamMoves.modify (f := ({ · with closeOnce := .running, closed := true })) fun he => ?_
    subst he
    exact .shuts hh ho rfl
  | closeAgain =>
    rename_i g _ _
    cases g <;> exact .stays rfl
  | @dropEntry g id why r₀ hg hl =>
    rw [hv.drop_eq hl]
    exact StreamMoves.modify (f := (·.endedBy (.closeStream why))) fun he => .dropped hg (he ▸ hl) rfl
  | dropMissing hg => exact .closeReturn rfl (.inl hg)
  | @lock g j hg =>
    cases j with
    | data r₀ id data offset =>
      refine StreamMoves.modify (f := fun st => { st with put := st.put ++ data }) fun he => ?_
      subst he
      exact .writes hg rfl
    | _ => exact .stays rfl
  | @endFrame g j ok hg =>
    cases j with
    | openFrame r₀ id targetPort =>
      cases ok with
      | true =>
        refine StreamMoves.modify (f := ({ · with handed := true })) fun he => ?_
        subst he
        exact .opened hg rfl
      | false => exact .stays rfl
    | closeFrame id why =>
      exact .closeReturn (s := s) (t := { s with writeFailed := s.writeFailed || !ok }.release) rfl (.inr hg)
    | data r₀ id data offset => cases ok <;> exact .stays rfl
    | _ => exact .stays rfl
  | @unlock g j => cases j <;> exact .stays rfl
  | @recv f =>
    have hv' : (s.heard f).Valid := ⟨hv.entry, hv.works, hv.queued, hv.handed, hv.queue⟩
    rcases s.dispatch_cases f with ⟨-, hd⟩ | ⟨r₀, -, hl, hd⟩ | ⟨r₀, ht, hl, hd⟩ | ⟨-, hd⟩ | ⟨-, -, -, hd⟩
    all_goals rw [hd]
    · exact .stays (enter_of_ne (s := s.heard f) _ _ hr.ne)
    · exact .stays rfl
    · rw [hv'.drop_eq hl]
      exact StreamMoves.modify (f := (·.endedBy .peerClose)) fun he => .ended ht (he ▸ hl) rfl
    · exact .stays rfl
    · exact .stays rfl
  | push hg hsend =>
    refine StreamMoves.modify (f := ({ · with readChan := _ })) fun he => ?_
    subst he
    exact .pushed hg hsend rfl
  | closeStreams _ ho =>
    rw [hv.closeStreams_eq]
    dsimp only
    split
    · rename_i hl
      exact .tornDown ho hl rfl
    · exact .stays rfl
  | closeAccept =>
    unfold Session.closeAccept
    split <;> exact .stays rfl
  | closeConn =>
    rename_i g _ _
    cases g <;> exact .stays rfl
  | _ => exact .stays rfl

/-- An entry of the table was there before, or is the new stream. -/
theorem Trans.lookup (hv : s.Valid) (h : s.Trans a s') {r : Ref} {id : UInt32} (hl : s'.streams.lookup id = some r) :
    s.streams.lookup id = some r ∨ r = s.fresh ∧ s'.fresh = s.fresh + 1 := by
  have entered : ∀ (t : Session) (id' : UInt32) (targetPort : List UInt8), t.streams = s.streams → t.fresh = s.fresh →
      (t.enter id' targetPort).streams.lookup id = some r → s.streams.lookup id = some r ∨ r = s.fresh := by
    intro t id' targetPort hs hf hl
    by_cases hid : id = id'
    · subst hid
      have he : t.fresh = r := by simpa [Session.enter] using hl
      exact .inr (he.symm.trans hf)
    · rw [Session.enter, AList.lookup_insert_ne hid, hs] at hl
      exact .inl hl
  have erased : ∀ {id' r'}, (s.streams.erase id').lookup id = some r' → s.streams.lookup id = some r' := by
    intro id' r' hl
    by_cases hid : id = id'
    · subst hid
      simp at hl
    · rwa [AList.lookup_erase_ne hid] at hl
  cases h.receives hv with
  | keeps hk => exact .inl (hk.streams ▸ hl)
  | @openStream g targetPort => exact (entered s _ targetPort rfl rfl hl).imp_right fun he => ⟨he, rfl⟩
  | dropEntry _ hl' =>
    rw [hv.drop_eq hl'] at hl
    exact .inl (erased hl)
  | @recv f =>
    have hv' : (s.heard f).Valid := ⟨hv.entry, hv.works, hv.queued, hv.handed, hv.queue⟩
    rcases s.dispatch_cases f with ⟨-, hd⟩ | ⟨r₀, -, hl', hd⟩ | ⟨r₀, -, hl', hd⟩ | ⟨-, hd⟩ | ⟨-, -, -, hd⟩
    all_goals rw [hd] at hl ⊢
    · exact (entered (s.heard f) _ f.payload rfl rfl hl).imp_right fun he => ⟨he, rfl⟩
    · exact .inl hl
    · rw [hv'.drop_eq hl'] at hl
      exact .inl (erased hl)
    · exact .inl hl
    · exact .inl hl
  | closeStreams =>
    rw [hv.closeStreams_eq] at hl
    simp at hl
  | _ => exact .inl hl

end Session

end Hawal.Mux
