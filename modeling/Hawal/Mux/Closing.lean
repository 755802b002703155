import Hawal.Mux.Table

/-!
# Sends and closes

Nothing closes a channel twice, but a channel can be closed under a send: `readLoop`
leaves `streamsMu` between looking a stream up and pushing its chunk, and in that
time `closeStream` or `Session.Close` of another goroutine may close the stream's
`readChan`. `not_forall_not_sendsOnClosed` is such a run. `calm_iff_never_sendsOnClosed` says which
runs are free of it: those in which no step closes the channel that `readLoop` is
about to send on, and `readLoop` takes no new stream once `acceptChan` is closed.
-/

namespace Hawal.Mux.Session

open Hawal.Lib Hawal.Transport

/-- `readLoop` is at a send on a closed `readChan`. -/
def PushesClosed (s : Session) : Prop :=
  ∃ r payload, s.inHand = some (r, payload) ∧ (s.heap r).readChan.closed = true

/-- `readLoop` is at a send on `acceptChan`, which is closed. -/
def QueuesClosed (s : Session) : Prop :=
  (∃ r id, s.pc .readLoop = .accept r id) ∧ s.acceptChan.closed = true

/-- A send on a closed channel has ended the process, or is about to. -/
def SendsOnClosed (s : Session) : Prop :=
  s.panic = some .sendOnClosed ∨ s.PushesClosed ∨ s.QueuesClosed

/-- The step closes no channel that `readLoop` is about to send on, and does not take
it to a send on a closed one. -/
def Calm (s : Session) : Act → Prop
  | .dropEntry g => ∀ id why r, s.pc g = .closing id why → s.streams.lookup id = some r →
      ∀ payload, s.inHand ≠ some (r, payload)
  | .closeStreams _ => ∀ r payload, s.inHand = some (r, payload) → s.streams.lookup (s.heap r).id ≠ some r
  | .closeAccept _ => ∀ r id, s.pc .readLoop ≠ .accept r id
  | .recv f => f.type = frameStreamOpen → s.acceptChan.closed = false
  | _ => True

variable {s s' : Session}

theorem Keeps.not_sendsOnClosed (hk : s.Keeps s') (h : ¬ s.SendsOnClosed) : ¬ s'.SendsOnClosed := by
  rintro (hp | ⟨r, payload, hr, hc⟩ | ⟨⟨r, id, hr⟩, hc⟩)
  · exact h (.inl (hk.panic ▸ hp))
  · exact h (.inr (.inl ⟨r, payload, hk.inHand ▸ hr, hk.readChan r ▸ hc⟩))
  · exact h (.inr (.inr ⟨⟨r, id, hk.accepting hr⟩, hk.acceptClosed ▸ hc⟩))

/-- A frame takes `readLoop` to a send on a closed channel only if it opens a stream
and `acceptChan` is closed. -/
theorem Valid.dispatch_not_sendsOnClosed (hv : s.Valid) (hpanic : s.panic = none) {f : Frame}
    (hr : s.pc .readLoop = .read) (hf : f.type = frameStreamOpen → s.acceptChan.closed = false) :
    ¬ (s.dispatch f).SendsOnClosed := by
  rcases s.dispatch_cases f with ⟨ho, hs⟩ | ⟨r, -, hl, hs⟩ | ⟨r, -, hl, hs⟩ | ⟨-, hs⟩ | ⟨-, -, -, hs⟩
  all_goals rw [hs]
  · rintro (hp | ⟨r, payload, hin, -⟩ | ⟨-, hc⟩)
    · exact nomatch hpanic.symm.trans hp
    · obtain ⟨id, hin⟩ := inHand_eq_some.mp hin
      rw [goto_self] at hin
      exact nomatch hin
    · exact nomatch (hf ho).symm.trans hc
  · rintro (hp | ⟨r', payload, hin, hc⟩ | ⟨⟨r', id, hin⟩, -⟩)
    · exact nomatch hpanic.symm.trans hp
    · obtain ⟨id, hin⟩ := inHand_eq_some.mp hin
      rw [goto_self, Pc.push.injEq] at hin
      obtain ⟨rfl, -, -⟩ := hin
      exact Bool.false_ne_true ((hv.entry hl).2.2.symm.trans hc)
    · rw [goto_self] at hin
      exact nomatch hin
  · have hv' : (s.heard f).Valid := ⟨hv.entry, hv.works, hv.queued, hv.handed, hv.queue⟩
    rw [hv'.drop_eq hl]
    rintro (hp | ⟨r', payload, hin, -⟩ | ⟨⟨r', id, hin⟩, -⟩)
    · exact nomatch hpanic.symm.trans hp
    · obtain ⟨id, hin⟩ := inHand_eq_some.mp hin
      exact nomatch hr.symm.trans hin
    · exact nomatch hr.symm.trans hin
  · rintro (hp | ⟨r', payload, hin, -⟩ | ⟨⟨r', id, hin⟩, -⟩)
    · exact nomatch hpanic.symm.trans hp
    · obtain ⟨id, hin⟩ := inHand_eq_some.mp hin
      rw [goto_self] at hin
      exact nomatch hin
    · rw [goto_self] at hin
      exact nomatch hin
  · rintro (hp | ⟨r', payload, hin, -⟩ | ⟨⟨r', id, hin⟩, -⟩)
    · exact nomatch hpanic.symm.trans hp
    · obtain ⟨id, hin⟩ := inHand_eq_some.mp hin
      exact nomatch hr.symm.trans hin
    · exact nomatch hr.symm.trans hin

/-- A calm step does not come to a send on a closed channel. -/
theorem Valid.step_of_calm {a : Act} (hv : s.Valid) (hn : ¬ s.SendsOnClosed) (ha : s.Calm a)
    (h : s.step a = some s') : ¬ s'.SendsOnClosed := by
  obtain ⟨hpanic, ht⟩ := trans_of_step h
  have hpush : ∀ {r payload}, s.inHand = some (r, payload) → (s.heap r).readChan.closed ≠ true :=
    fun hr hc => hn (.inr (.inl ⟨_, _, hr, hc⟩))
  have hacc : ∀ {r id}, s.pc .readLoop = .accept r id → s.acceptChan.closed ≠ true :=
    fun hr hc => hn (.inr (.inr ⟨⟨_, _, hr⟩, hc⟩))
  cases ht.receives hv with
  | keeps hk => exact hk.not_sendsOnClosed hn
  | @openStream g targetPort hg =>
    rintro (hp | ⟨r, payload, hr, hc⟩ | ⟨⟨r, id, hr⟩, hc⟩)
    · exact nomatch hpanic.symm.trans hp
    · have hr' : s.inHand = some (r, payload) := (inHand_goto (s := s) (p := .waitMu _) trivial hr).2
      have hheap := enter_of_ne (s.nextStreamID + 2) targetPort (hv.inHand_lt hr').ne
      exact hpush hr' (hheap ▸ hc)
    · exact hacc (accepting_goto (s := s) (p := .waitMu _) trivial hr) hc
  | @read g r n ret st hg hh hread =>
    obtain ⟨c, buf, got, rfl, hc', -⟩ := Stream.read_eq_some hread
    rintro (hp | ⟨r', payload, hr, hc⟩ | ⟨⟨r', id, hr⟩, hc⟩)
    · exact nomatch hpanic.symm.trans hp
    · have hr' : s.inHand = some (r', payload) := (inHand_goto (s := s) (p := .idle) trivial hr).2
      by_cases hrr : r' = r
      · subst hrr
        rw [answer_heap, modify_self] at hc
        exact hpush hr' (hc'.symm.trans hc)
      · rw [answer_heap, modify_of_ne _ hrr] at hc
        exact hpush hr' hc
    · exact hacc (accepting_goto (s := s) (p := .idle) trivial hr) hc
  | @dropEntry g id why r hg hl =>
    rw [hv.drop_eq hl]
    rintro (hp | ⟨r', payload, hr, hc⟩ | ⟨⟨r', id', hr⟩, hc⟩)
    · exact nomatch hpanic.symm.trans hp
    · have hr' : s.inHand = some (r', payload) := (inHand_goto (s := s) (p := .waitMu _) trivial hr).2
      have hrr : r' ≠ r := fun hrr => ha id why r hg hl payload (hrr ▸ hr')
      exact hpush hr' (modify_of_ne (s := s) (·.endedBy _) hrr ▸ hc)
    · exact hacc (accepting_goto (s := s) (p := .waitMu _) trivial hr) hc
  | recv hr => exact hv.dispatch_not_sendsOnClosed hpanic hr ha
  | enqueuePanics hr hc => exact absurd hc (hacc hr)
  | pushPanics hr hc => exact absurd hc (hpush (inHand_eq_some.mpr ⟨_, hr⟩))
  | push hr hsend =>
    rintro (hp | ⟨r', payload, hr, -⟩ | ⟨⟨r', id', hr⟩, -⟩)
    · exact nomatch hpanic.symm.trans hp
    · exact (inHand_goto (p := .read) trivial hr).1 rfl
    · rw [goto_self] at hr
      exact nomatch hr
  | timeout hr =>
    rintro (hp | ⟨r', payload, hr, -⟩ | ⟨⟨r', id', hr⟩, -⟩)
    · exact nomatch hpanic.symm.trans hp
    · exact (inHand_goto (p := .closing _ _) trivial hr).1 rfl
    · rw [goto_self] at hr
      exact nomatch hr
  | closeStreams hg ho =>
    rw [hv.closeStreams_eq]
    rintro (hp | ⟨r, payload, hr, hc⟩ | ⟨⟨r, id, hr⟩, hc⟩)
    · exact nomatch hpanic.symm.trans hp
    · have hl : s.streams.lookup (s.heap r).id ≠ some r := ha r payload hr
      simp only [if_neg hl] at hc
      exact hpush hr hc
    · exact hacc hr hc
  | closeAccept hg ho =>
    rintro (hp | ⟨r, payload, hr, hc⟩ | ⟨⟨r, id, hr⟩, -⟩)
    · exact nomatch hpanic.symm.trans hp
    · exact hpush hr hc
    · exact ha r id hr

/-- A step that is not calm comes to one. -/
theorem Valid.calm_of_step {a : Act} (hv : s.Valid) (h : s.step a = some s') (hn : ¬ s'.SendsOnClosed) :
    s.Calm a := by
  obtain ⟨-, ht⟩ := trans_of_step h
  cases ht with
  | @dropEntry g id why r hg hl =>
    intro id' why' r' hg' hl' payload hin
    rw [hg, Pc.closing.injEq] at hg'
    obtain ⟨rfl, rfl⟩ := hg'
    rw [hl, Option.some.injEq] at hl'
    subst hl'
    obtain ⟨id', hr⟩ := inHand_eq_some.mp hin
    have hgr : Gid.readLoop ≠ g := fun hgr => by
      rw [hgr, hg] at hr
      cases hr
    refine hn (.inr (.inl ⟨r, payload, inHand_eq_some.mpr ⟨id', (goto_of_ne _ hgr).trans ?_⟩, ?_⟩))
    · rw [hv.drop_eq hl]
      exact hr
    · simp [hv.drop_eq hl, Session.modify, Stream.endedBy, Chan.close]
  | @dropMissing g id why hg hl =>
    intro id' why' r' hg' hl'
    rw [hg, Pc.closing.injEq] at hg'
    obtain ⟨rfl, rfl⟩ := hg'
    rw [hl] at hl'
    cases hl'
  | closeStreams hg ho =>
    intro r payload hin hl
    rw [hv.closeStreams_eq] at hn
    refine hn (.inr (.inl ⟨r, payload, hin, ?_⟩))
    simp only [if_pos hl, Stream.endedBy, Chan.close]
  | closeAccept hg ho =>
    intro r id hr
    have hopen : s.acceptChan.closed = false := by rw [hv.queue, ho]; rfl
    refine hn (.inr (.inr ⟨⟨r, id, ?_⟩, ?_⟩)) <;> simp [Session.closeAccept, hopen, hr, Chan.close]
  | @recv f hr =>
    intro ho
    by_contra hc
    rw [Bool.not_eq_false] at hc
    rcases s.dispatch_cases f with ⟨-, hs⟩ | ⟨r, hd, -⟩ | ⟨r, hd, -⟩ | ⟨hd, -⟩ | ⟨hd, -⟩
    · rw [hs] at hn
      exact hn (.inr (.inr ⟨⟨_, _, goto_self _ _⟩, hc⟩))
    · exact absurd (ho.symm.trans hd) (by decide)
    · exact absurd (ho.symm.trans hd) (by decide)
    · exact absurd (ho.symm.trans hd) (by decide)
    · exact hd ho
  | _ => trivial

theorem newSession_not_sendsOnClosed (isServer : Bool) : ¬ (newSession isServer).SendsOnClosed := by
  rintro (hp | ⟨r, payload, hr, -⟩ | ⟨-, hc⟩)
  · exact nomatch hp
  · exact nomatch hr
  · exact nomatch hc

/-- **Exactly the calm runs never come to a send on a closed channel.** -/
theorem calm_iff_never_sendsOnClosed {isServer : Bool} {as : List Act}
    (h : exec step (newSession isServer) as = some s) :
    Along step Calm (newSession isServer) as ↔
      ∀ pre t, pre <+: as → exec step (newSession isServer) pre = some t → ¬ t.SendsOnClosed :=
  along_iff_never (I := Valid) (fun _ _ _ hv h => hv.step h)
    (fun _ _ _ hv hn h => ⟨fun ha => hv.step_of_calm hn ha h, hv.calm_of_step h⟩)
    (newSession_valid isServer) (newSession_not_sendsOnClosed isServer) h

/-- The application opens a stream. -/
def openedRun : List Act :=
  [.openStream (.app 0) [], .lock (.app 0), .beginFrame (.app 0), .endFrame (.app 0) true]

/-- Between `readLoop`'s lookup and its push the application closes the stream. -/
def closedUnderPush : List Act :=
  openedRun ++ [.recv ⟨frameData, 3, [1]⟩, .closeStream (.app 0) 0, .dropEntry (.app 0), .push]

theorem closedUnderPush_panics :
    (exec step (newSession true) closedUnderPush).map (·.panic) = some (some .sendOnClosed) := by
  decide

/-- Not every run is free of sends on closed channels: `closedUnderPush` panics. -/
theorem not_forall_not_sendsOnClosed :
    ¬ ∀ isServer as s, exec step (newSession isServer) as = some s → ¬ s.SendsOnClosed := by
  intro h
  obtain ⟨s, hs, hp⟩ := Option.map_eq_some_iff.mp closedUnderPush_panics
  exact h true closedUnderPush s hs (.inl hp)

/-- `readLoop` pushes a chunk while nothing is closed. -/
def pushedRun : List Act := openedRun ++ [.recv ⟨frameData, 3, [1]⟩, .push]

/-- `pushedRun` is calm, and so free of them. -/
theorem pushedRun_never_sendsOnClosed : Along step Calm (newSession true) pushedRun ∧
    ∀ pre t, pre <+: pushedRun → exec step (newSession true) pre = some t → ¬ t.SendsOnClosed := by
  obtain ⟨s, hs⟩ := Option.isSome_iff_exists.mp
    (show (exec step (newSession true) pushedRun).isSome = true by decide)
  have hcalm : Along step Calm (newSession true) pushedRun :=
    ⟨trivial, fun _ _ => ⟨trivial, fun _ _ => ⟨trivial, fun _ _ => ⟨trivial, fun _ _ =>
      ⟨fun ho => absurd ho (by decide), fun _ _ => ⟨trivial, fun _ _ => trivial⟩⟩⟩⟩⟩⟩
  exact ⟨hcalm, (calm_iff_never_sendsOnClosed hs).mp hcalm⟩

end Hawal.Mux.Session
