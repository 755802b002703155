import Hawal.Mux.Dispatch

/-!
# The sending half

Most steps leave everything alone that sending depends on; `Quiet` says so, and
`Trans.sends` lists the steps that do not. The first use of it is that `writeMu` is a
lock (`Locked`): a goroutine is in a section under it exactly when it holds it.
-/

namespace Hawal.Mux

open Hawal.Lib Hawal.Transport

/-- What a goroutine writes, or waits to write, under `writeMu`. -/
def Pc.job : Pc → Option Job
  | .waitMu j => some j
  | .locked j => some j
  | .writing j => some j
  | _ => none

/-- In a section under `writeMu`. -/
def Pc.Holds : Pc → Prop
  | .locked _ => True
  | .writing _ => True
  | _ => False

/-- Not in such a section, nor before one for a stream's open frame or data, and not before
`acceptChan`. -/
def Pc.Free : Pc → Prop
  | .accept _ _ => False
  | .waitMu j => j.stream = none
  | .locked _ => False
  | .writing _ => False
  | _ => True

theorem Pc.Free.not_holds {p : Pc} (h : p.Free) : ¬ p.Holds := by cases p <;> simp_all [Pc.Free, Pc.Holds]

theorem Pc.Free.stream_eq_none {p : Pc} (h : p.Free) {j : Job} (hj : p.job = some j) : j.stream = none := by
  cases p <;> simp_all [Pc.Free, Pc.job]

/-- The part of a stream object that sending uses. -/
def Stream.outbox (st : Stream) : UInt32 × List UInt8 × Bool := (st.id, st.put, st.handed)

namespace Session

variable {s s' : Session}

/-- Nothing has changed that sending depends on. -/
structure Quiet (s s' : Session) : Prop where
  isServer : s'.isServer = s.isServer
  nextStreamID : s'.nextStreamID = s.nextStreamID
  opens : s'.opens = s.opens
  fresh : s'.fresh = s.fresh
  rcvd : s'.rcvd = s.rcvd
  sent : s'.sent = s.sent
  writeMu : s'.writeMu = s.writeMu
  writeFailed : s'.writeFailed = s.writeFailed
  closed : s'.closed = s.closed
  queued : s'.acceptChan.buf = s.acceptChan.buf
  outbox : ∀ r, (s'.heap r).outbox = (s.heap r).outbox
  pc : ∀ g, s'.pc g = s.pc g ∨ (s'.pc g).Free ∧ ¬ (s.pc g).Holds

theorem Quiet.refl (s : Session) : s.Quiet s :=
  ⟨rfl, rfl, rfl, rfl, rfl, rfl, rfl, rfl, rfl, rfl, fun _ => rfl, fun _ => .inl rfl⟩

theorem Quiet.goto {t : Session} {g : Gid} {p : Pc} (h : s.Quiet t) (hs : ¬ (s.pc g).Holds) (hp : p.Free) :
    s.Quiet (t.goto g p) where
  isServer := h.isServer
  nextStreamID := h.nextStreamID
  opens := h.opens
  fresh := h.fresh
  rcvd := h.rcvd
  sent := h.sent
  writeMu := h.writeMu
  writeFailed := h.writeFailed
  closed := h.closed
  queued := h.queued
  outbox := h.outbox
  pc g' := by
    by_cases hg : g' = g
    · subst hg
      exact .inr ⟨(goto_self (s := t) g' p).symm ▸ hp, hs⟩
    · exact (goto_of_ne (s := t) p hg).symm ▸ h.pc g'

/-- The fields that sending does not depend on. -/
theorem Quiet.set {t : Session} {c : Chan Ref} {streams once conn ret panic} (h : s.Quiet t)
    (hc : c.buf = t.acceptChan.buf) :
    s.Quiet { t with
      streams := streams, acceptChan := c, closeOnce := once, connClosed := conn, ret := ret, panic := panic } :=
  ⟨h.isServer, h.nextStreamID, h.opens, h.fresh, h.rcvd, h.sent, h.writeMu, h.writeFailed, h.closed,
    hc.trans h.queued, h.outbox, h.pc⟩

theorem Quiet.answer {t : Session} {g : Gid} {v : Ret} (h : s.Quiet t) (hs : ¬ (s.pc g).Holds) :
    s.Quiet (t.answer g v) := (h.goto (p := .idle) hs trivial).set rfl

theorem Quiet.modify {t : Session} {r : Ref} {f : Stream → Stream} (h : s.Quiet t)
    (hf : (f (t.heap r)).outbox = (t.heap r).outbox) : s.Quiet (t.modify r f) where
  isServer := h.isServer
  nextStreamID := h.nextStreamID
  opens := h.opens
  fresh := h.fresh
  rcvd := h.rcvd
  sent := h.sent
  writeMu := h.writeMu
  writeFailed := h.writeFailed
  closed := h.closed
  queued := h.queued
  outbox r' := by
    by_cases hr : r' = r
    · subst hr
      rw [modify_self, hf, h.outbox]
    · rw [modify_of_ne f hr, h.outbox]
  pc := h.pc

theorem Quiet.closeReturn {t : Session} {g : Gid} (h : s.Quiet t) (hs : ¬ (s.pc g).Holds) (why : Closer) :
    s.Quiet (t.closeReturn g why) := by
  cases why with
  | pushTimeout => exact h.goto hs trivial
  | acceptOverflow => exact h.goto hs trivial
  | openFailed => exact h.answer hs
  | streamClose r => exact (h.modify (f := ({ · with closeOnce := .done })) (r := r) rfl).answer hs

theorem Quiet.closeDone {g : Gid} (hs : ¬ (s.pc g).Holds) : s.Quiet (s.closeDone g) := by
  cases g with
  | app n => exact (Quiet.refl s).answer hs
  | _ => exact (Quiet.refl s).goto hs trivial

/-- **What a step does to the sending half**: nothing, or one of these. -/
inductive Sends (s : Session) : Act → Session → Prop
  | quiet {a s'} : s.Quiet s' → Sends s a s'
  | openStream {g targetPort} : s.pc g = .idle → Sends s (.openStream g targetPort) (s.register g targetPort)
  | acceptStream {g r c} : s.pc g = .idle → s.acceptChan.recv = .value r c →
      Sends s (.acceptStream g)
        ({ s.modify r ({ · with handed := true }) with acceptChan := c }.answer g (.accepted (some r)))
  | write {g r data} : s.pc g = .idle → (s.heap r).handed = true →
      Sends s (.write g r data) (s.goto g (.waitMu (.data r (s.heap r).id data 0)))
  | lock {g j} : s.pc g = .waitMu j → s.writeMu = none → Sends s (.lock g) (s.acquire g j)
  | beginFrame {g j} : s.pc g = .locked j → s.wants j = true → Sends s (.beginFrame g) (s.beginWrite g j)
  | endFrame {g j ok} : s.pc g = .writing j → Sends s (.endFrame g ok) (s.endWrite g j ok)
  | unlock {g j} : s.pc g = .locked j → s.wants j = false → Sends s (.unlock g) (s.giveUp g j)
  | recv {f} : s.pc .readLoop = .read → Sends s (.recv f) (s.dispatch f)
  | enqueue {r id c} : s.pc .readLoop = .accept r id → s.acceptChan.send r = .sent c →
      Sends s .enqueue { s.goto .readLoop .read with acceptChan := c }
  | closeStreams {g} : s.pc g = .teardown → s.closeOnce = .table →
      Sends s (.closeStreams g) { s.closeStreams with closeOnce := .queue }

theorem Trans.sends {a : Act} (hv : s.Valid) (h : s.Trans a s') : s.Sends a s' := by
  have out : ∀ {g p}, s.pc g = p → ¬ p.Holds → ¬ (s.pc g).Holds := fun h hp => h ▸ hp
  have h0 := Quiet.refl s
  cases h with
  | openRefused hg => exact .quiet (h0.answer (out hg not_false))
  | openStream hg => exact .openStream hg
  | acceptEnded hg => exact .quiet (h0.answer (out hg not_false))
  | acceptStream hg hrecv => exact .acceptStream hg hrecv
  | writeRefused hg => exact .quiet (h0.answer (out hg not_false))
  | write hg hh => exact .write hg hh
  | @read g r n ret st hg hh hread =>
    obtain ⟨c, buf, got, rfl, -⟩ := Stream.read_eq_some hread
    exact .quiet (Quiet.answer (h0.modify rfl) (out hg not_false))
  | closeStream hg => exact .quiet (Quiet.goto (h0.modify rfl) (out hg not_false) trivial)
  | closeStreamAgain hg => exact .quiet (h0.answer (out hg not_false))
  | @close g hg =>
    exact .quiet (Quiet.set (h0.goto (g := g) (p := .teardown) (hg.elim (out · not_false) (out · not_false)) trivial) rfl)
  | closeAgain hg => exact .quiet (.closeDone (hg.elim (out · not_false) (out · not_false)))
  | @dropEntry g id' why r hg hl =>
    rw [hv.drop_eq hl]
    have hm : s.Quiet (s.modify r (·.endedBy (.closeStream why))) := h0.modify rfl
    exact .quiet (Quiet.goto (hm.set rfl) (out hg not_false) rfl)
  | dropMissing hg => exact .quiet (h0.closeReturn (out hg not_false) _)
  | lock hg hm => exact .lock hg hm
  | beginFrame hg hw => exact .beginFrame hg hw
  | endFrame hg => exact .endFrame hg
  | unlock hg hw => exact .unlock hg hw
  | recv hg => exact .recv hg
  | recvErr hg => exact .quiet (h0.goto (out hg not_false) trivial)
  | enqueuePanics => exact .quiet (h0.set rfl)
  | enqueue hg hsend => exact .enqueue hg hsend
  | overflow hg => exact .quiet (h0.goto (out hg not_false) trivial)
  | pushPanics => exact .quiet (h0.set rfl)
  | push hg => exact .quiet (Quiet.goto (h0.modify rfl) (out hg not_false) trivial)
  | timeout hg => exact .quiet (h0.goto (out hg not_false) trivial)
  | closeStreams hg ho => exact .closeStreams hg ho
  | closeAccept hg ho =>
    have hopen : s.acceptChan.closed = false := by rw [hv.queue, ho]; rfl
    rw [Session.closeAccept, hopen]
    exact .quiet (h0.set rfl)
  | @closeConn g hg => exact .quiet (Quiet.set (Quiet.closeDone (g := g) (out hg not_false)) rfl)
  | tick hg => exact .quiet (h0.goto (out hg not_false) rfl)

/-! ### The lock -/

/-- A goroutine is in a section under `writeMu` exactly when it holds it. -/
def Locked (s : Session) : Prop := ∀ g, (s.pc g).Holds ↔ s.writeMu = some g

theorem newSession_locked (isServer : Bool) : (newSession isServer).Locked := fun g => by
  cases g <;> simp [newSession, Gid.start, Pc.Holds]

namespace Locked

variable {g : Gid} {p : Pc}

theorem goto (h : s.Locked) (hp : (s.pc g).Holds ↔ p.Holds) : (s.goto g p).Locked := fun g' => by
  by_cases hg : g' = g
  · subst hg
    rw [goto_self]
    exact hp.symm.trans (h g')
  · rw [goto_of_ne p hg]
    exact h g'

theorem leave (h : s.Locked) (hs : (s.pc g).Holds) (hp : ¬ p.Holds) : (s.release.goto g p).Locked := fun g' => by
  by_cases hg : g' = g
  · subst hg
    rw [goto_self]
    exact iff_of_false hp fun h => nomatch h
  · rw [goto_of_ne p hg]
    refine iff_of_false (fun hg' => hg ?_) fun h => nomatch h
    exact Option.some.inj (((h g').mp hg').symm.trans ((h g).mp hs))

theorem enter (h : s.Locked) (hm : s.writeMu = none) (hp : p.Holds) :
    { s.goto g p with writeMu := some g }.Locked := fun g' => by
  by_cases hg : g' = g
  · subst hg
    exact iff_of_true ((goto_self (s := s) g' p).symm ▸ hp) rfl
  · refine iff_of_false (fun hg' => ?_) fun h => hg (Option.some.inj h).symm
    rw [show (s.goto g p).pc g' = s.pc g' from goto_of_ne p hg] at hg'
    exact nomatch hm.symm.trans ((h g').mp hg')

theorem closeReturn (h : s.Locked) (hs : (s.pc g).Holds) (why : Closer) : (s.release.closeReturn g why).Locked := by
  cases why with
  | pushTimeout => exact h.leave hs not_false
  | acceptOverflow => exact h.leave hs not_false
  | openFailed => exact h.leave (p := .idle) hs not_false
  | streamClose r => exact h.leave (p := .idle) hs not_false

theorem endWrite (h : s.Locked) {j : Job} (hs : s.pc g = .writing j) (ok : Bool) : (s.endWrite g j ok).Locked := by
  have hh : (s.pc g).Holds := hs ▸ trivial
  cases j with
  | openFrame r id targetPort =>
    cases ok with
    | true => exact h.leave (p := .idle) hh not_false
    | false => exact h.leave (p := .closing id .openFailed) hh not_false
  | closeFrame id why => exact closeReturn (s := { s with writeFailed := s.writeFailed || !ok }) h hh why
  | data r id data offset =>
    cases ok with
    | true => exact h.goto (p := .locked _) (iff_of_true hh trivial)
    | false => exact h.leave (p := .idle) hh not_false
  | pong => exact h.leave (p := .read) hh not_false
  | ping => exact h.leave (p := .tick) hh not_false

theorem step {a : Act} (h : s.Locked) (hv : s.Valid) (hs : s.step a = some s') : s'.Locked := by
  have out : ∀ {g} {p q : Pc}, s.pc g = p → ¬ p.Holds → ¬ q.Holds → ((s.pc g).Holds ↔ q.Holds) :=
    fun h hp hq => iff_of_false (h ▸ hp) hq
  cases (trans_of_step hs).2.sends hv with
  | quiet hq =>
    intro g
    rw [hq.writeMu]
    rcases hq.pc g with hg | ⟨hfree, hg⟩
    · rw [hg]
      exact h g
    · exact iff_of_false hfree.not_holds fun hm => hg ((h g).mpr hm)
  | openStream hg => exact h.goto (p := .waitMu _) (out hg not_false not_false)
  | acceptStream hg => exact h.goto (p := .idle) (out hg not_false not_false)
  | write hg => exact h.goto (out hg not_false not_false)
  | @lock g j hg hm =>
    have he := h.enter (g := g) (p := .locked j) hm trivial
    cases j <;> exact he
  | beginFrame hg => exact h.goto (p := .writing _) (iff_of_true (hg ▸ trivial) trivial)
  | endFrame hg => exact h.endWrite hg _
  | @unlock g j hg =>
    have hh : (s.pc g).Holds := hg ▸ trivial
    cases j with
    | data r id data offset => exact h.leave (p := .idle) hh not_false
    | _ => exact h.leave (p := .exited) hh not_false
  | @recv f hg =>
    have out' : ∀ {q : Pc}, ¬ q.Holds → ((s.pc .readLoop).Holds ↔ q.Holds) := out hg not_false
    have hv' : (s.heard f).Valid := ⟨hv.entry, hv.works, hv.queued, hv.handed, hv.queue⟩
    rcases s.dispatch_cases f with ⟨-, hf⟩ | ⟨r, -, hl, hf⟩ | ⟨r, -, hl, hf⟩ | ⟨-, hf⟩ | ⟨-, -, -, hf⟩
    all_goals rw [hf]
    · exact h.goto (p := .accept _ _) (out' not_false)
    · exact h.goto (p := .push _ _ _) (out' not_false)
    · rw [hv'.drop_eq hl]
      exact h
    · exact h.goto (p := .waitMu _) (out' not_false)
    · exact h
  | enqueue hg => exact h.goto (p := .read) (out hg not_false not_false)
  | closeStreams =>
    rw [hv.closeStreams_eq]
    exact h

end Locked

end Session

end Hawal.Mux
