import Hawal.Mux.Session

/-!
# The table of streams

What holds of a session whatever frames arrive and however its goroutines take
turns (`Valid`): an entry of `streams` is a stream made earlier, registered under its
own id and with its `readChan` open, and every stream a goroutine works on was made
earlier. So no channel is closed twice (`exec_newSession_valid`).

Most steps leave everything alone that receiving data depends on; `Keeps` says so,
and `Trans.receiving` lists the steps that do not.
-/

namespace Hawal.Mux

open Hawal.Lib Hawal.Transport

/-- The part of a stream object that receiving uses. -/
def Stream.inbox (st : Stream) : Stream :=
  { st with closeOnce := .fresh, closed := false, handed := false, put := [] }

/-- The stream that a job is about, with its id. -/
def Job.stream : Job → Option (Ref × UInt32)
  | .openFrame r id _ => some (r, id)
  | .data r id _ _ => some (r, id)
  | _ => none

/-- The stream that a goroutine works on, with its id. -/
def Pc.stream : Pc → Option (Ref × UInt32)
  | .accept r id => some (r, id)
  | .push r id _ => some (r, id)
  | .waitMu j => j.stream
  | .locked j => j.stream
  | .writing j => j.stream
  | _ => none

/-- Neither pushing a chunk nor giving one up. -/
def Pc.Still : Pc → Prop
  | .push _ _ _ => False
  | .closing _ .pushTimeout => False
  | _ => True

/-- Not at a `select` of `readLoop`. -/
def Pc.Away : Pc → Prop
  | .accept _ _ => False
  | .push _ _ _ => False
  | _ => True

/-- The function that `Session.Close` runs once has closed `acceptChan`. -/
def Teardown.pastQueue : Teardown → Bool
  | .conn => true
  | .done => true
  | _ => false

namespace Session

/-- The chunk that `readLoop` is pushing. -/
def inHand (s : Session) : Option (Ref × List UInt8) :=
  match s.pc .readLoop with
  | .push r _ payload => some (r, payload)
  | _ => none

/-- **What every run keeps.** -/
structure Valid (s : Session) : Prop where
  entry : ∀ {id r}, s.streams.lookup id = some r →
    r < s.fresh ∧ (s.heap r).id = id ∧ (s.heap r).readChan.closed = false
  works : ∀ {g r id}, (s.pc g).stream = some (r, id) → r < s.fresh ∧ (s.heap r).id = id
  queued : ∀ {r}, r ∈ s.acceptChan.buf → r < s.fresh
  handed : ∀ {r}, (s.heap r).handed = true → r < s.fresh
  queue : s.acceptChan.closed = s.closeOnce.pastQueue

theorem newSession_valid (isServer : Bool) : (newSession isServer).Valid where
  entry h := by simp [newSession] at h
  works {g r id} h := by cases g <;> simp [newSession, Gid.start, Pc.stream] at h
  queued h := by simp [newSession] at h
  handed h := by simp [newSession, newStream] at h
  queue := rfl

/-! ### The effects keep it -/

section Effects

variable {s : Session}

@[simp] theorem goto_self (g : Gid) (p : Pc) : (s.goto g p).pc g = p := by simp [goto]

theorem goto_of_ne {g g' : Gid} (p : Pc) (h : g' ≠ g) : (s.goto g p).pc g' = s.pc g' := by simp [goto, h]

@[simp] theorem goto_heap (g : Gid) (p : Pc) : (s.goto g p).heap = s.heap := rfl

@[simp] theorem answer_heap (g : Gid) (v : Ret) : (s.answer g v).heap = s.heap := rfl

@[simp] theorem modify_self (r : Ref) (f : Stream → Stream) : (s.modify r f).heap r = f (s.heap r) := by
  simp [Session.modify]

theorem modify_of_ne {r r' : Ref} (f : Stream → Stream) (h : r' ≠ r) :
    (s.modify r f).heap r' = s.heap r' := by simp [Session.modify, h]

theorem Valid.goto (hv : s.Valid) {g : Gid} {p : Pc}
    (hp : ∀ {r id}, p.stream = some (r, id) → r < s.fresh ∧ (s.heap r).id = id) : (s.goto g p).Valid where
  entry := hv.entry
  works {g' r id} h := by
    by_cases hg : g' = g
    · subst hg
      exact hp (by simpa using h)
    · rw [goto_of_ne p hg] at h
      exact hv.works h
  queued := hv.queued
  handed := hv.handed
  queue := hv.queue

theorem Valid.answer (hv : s.Valid) {g : Gid} {v : Ret} : (s.answer g v).Valid :=
  have h : (s.goto g .idle).Valid := hv.goto fun h => nomatch h
  ⟨h.entry, h.works, h.queued, h.handed, h.queue⟩

theorem Valid.modify (hv : s.Valid) {r : Ref} {f : Stream → Stream}
    (hid : (f (s.heap r)).id = (s.heap r).id)
    (hopen : (f (s.heap r)).readChan.closed = (s.heap r).readChan.closed)
    (hhanded : (f (s.heap r)).handed = true → r < s.fresh) : (s.modify r f).Valid where
  entry {id r'} h := by
    by_cases hr : r' = r
    · subst hr
      rw [modify_self, hid, hopen]
      exact hv.entry h
    · rw [modify_of_ne f hr]
      exact hv.entry h
  works {g r' id} h := by
    by_cases hr : r' = r
    · subst hr
      rw [modify_self, hid]
      exact hv.works h
    · rw [modify_of_ne f hr]
      exact hv.works h
  queued := hv.queued
  handed {r'} h := by
    by_cases hr : r' = r
    · subst hr
      rw [modify_self] at h
      exact hhanded h
    · rw [modify_of_ne f hr] at h
      exact hv.handed h
  queue := hv.queue

@[simp] theorem enter_self (id : UInt32) (targetPort : List UInt8) :
    (s.enter id targetPort).heap s.fresh = newStream id targetPort s.rcvd.length := by simp [enter]

theorem enter_of_ne {r : Ref} (id : UInt32) (targetPort : List UInt8) (h : r ≠ s.fresh) :
    (s.enter id targetPort).heap r = s.heap r := by simp [enter, h]

theorem Valid.enter (hv : s.Valid) (id : UInt32) (targetPort : List UInt8) : (s.enter id targetPort).Valid where
  entry {id' r} h := by
    by_cases hid : id' = id
    · subst hid
      have hr : s.fresh = r := by simpa [Session.enter] using h
      rw [← hr, enter_self]
      exact ⟨Nat.lt_succ_self _, rfl, rfl⟩
    · rw [Session.enter, AList.lookup_insert_ne hid] at h
      obtain ⟨hr, hr'⟩ := hv.entry h
      rw [enter_of_ne id targetPort hr.ne]
      exact ⟨Nat.lt_succ_of_lt hr, hr'⟩
  works h := by
    obtain ⟨hr, hr'⟩ := hv.works h
    rw [enter_of_ne id targetPort hr.ne]
    exact ⟨Nat.lt_succ_of_lt hr, hr'⟩
  queued h := Nat.lt_succ_of_lt (hv.queued h)
  handed {r} h := by
    by_cases hr : r = s.fresh
    · exact hr ▸ Nat.lt_succ_self _
    · rw [enter_of_ne id targetPort hr] at h
      exact Nat.lt_succ_of_lt (hv.handed h)
  queue := hv.queue

theorem Valid.register (hv : s.Valid) (g : Gid) (targetPort : List UInt8) : (s.register g targetPort).Valid := by
  have h : ((s.enter (s.nextStreamID + 2) targetPort).goto g
      (.waitMu (.openFrame s.fresh (s.nextStreamID + 2) targetPort))).Valid :=
    (hv.enter _ _).goto fun h => by
      simp only [Pc.stream, Job.stream, Option.some.injEq, Prod.mk.injEq] at h
      obtain ⟨rfl, rfl⟩ := h
      exact ⟨Nat.lt_succ_self _, by rw [enter_self]; rfl⟩
  exact ⟨h.entry, h.works, h.queued, h.handed, h.queue⟩

/-- Two entries of the table are different streams. -/
theorem Valid.entry_inj (hv : s.Valid) {id id' : UInt32} {r : Ref} (h : s.streams.lookup id = some r)
    (h' : s.streams.lookup id' = some r) : id = id' := (hv.entry h).2.1.symm.trans (hv.entry h').2.1

theorem Valid.drop_eq (hv : s.Valid) {id : UInt32} {r : Ref} (h : s.streams.lookup id = some r)
    (cause : EndCause) :
    s.drop id r cause = { s.modify r (·.endedBy cause) with streams := s.streams.erase id } := by
  simp [drop, closeChan, (hv.entry h).2.2]

theorem Valid.drop (hv : s.Valid) {id : UInt32} {r : Ref} (h : s.streams.lookup id = some r)
    (cause : EndCause) : (s.drop id r cause).Valid := by
  rw [hv.drop_eq h]
  refine ⟨fun {id' r'} h' => ?_, fun {g r' id'} h' => ?_, hv.queued, fun {r'} h' => ?_, hv.queue⟩
  · have hid : id' ≠ id := by
      rintro rfl
      simp at h'
    rw [AList.lookup_erase_ne hid] at h'
    have hr : r' ≠ r := fun hr => hid (hv.entry_inj h' (hr ▸ h))
    simpa [Session.modify, hr] using hv.entry h'
  · have := hv.works h'
    by_cases hr : r' = r
    · subst hr
      simpa [Session.modify, Stream.endedBy] using this
    · simpa [Session.modify, hr] using this
  · by_cases hr : r' = r
    · exact hr ▸ (hv.entry h).1
    · exact hv.handed (by simpa [Session.modify, hr] using h')

/-- Closing the channels of different open streams, one after the other. -/
theorem foldl_closeChan (es : List (Σ _ : UInt32, Ref)) (cause : EndCause) :
    ∀ {s : Session}, (∀ e ∈ es, (s.heap e.2).readChan.closed = false) → (es.map (·.2)).Nodup →
      es.foldl (fun s e => s.closeChan e.2 cause) s =
        { s with heap := fun r => if r ∈ es.map (·.2) then (s.heap r).endedBy cause else s.heap r } := by
  induction es with
  | nil => intro s _ _; simp
  | cons e es ih =>
    intro s hopen hnd
    rw [List.map_cons, List.nodup_cons] at hnd
    have he : s.closeChan e.2 cause = s.modify e.2 (·.endedBy cause) := by
      simp [closeChan, hopen e List.mem_cons_self]
    have hne : ∀ r ∈ es.map (·.2), r ≠ e.2 := fun r hr h => hnd.1 (h ▸ hr)
    rw [List.foldl_cons, he, ih _ hnd.2]
    · simp only [Session.modify, Session.mk.injEq, true_and, and_true]
      funext r
      by_cases hr : r = e.2
      · subst hr
        rw [if_neg hnd.1, Function.update_self, List.map_cons, if_pos List.mem_cons_self]
      · rw [Function.update_of_ne hr, List.map_cons]
        exact if_congr (by simp [List.mem_cons, hr]) rfl rfl
    · intro e' he'
      rw [modify_of_ne _ (hne _ (List.mem_map_of_mem he'))]
      exact hopen e' (List.mem_cons_of_mem _ he')

/-- The section of `Session.Close` under `streamsMu` closes the streams of the table. -/
theorem Valid.closeStreams_eq (hv : s.Valid) :
    s.closeStreams = { s with
      heap := fun r => if s.streams.lookup (s.heap r).id = some r then (s.heap r).endedBy .sessionClose
        else s.heap r
      closed := true
      streams := ∅ } := by
  have hmem : ∀ e ∈ s.streams.entries, s.streams.lookup e.1 = some e.2 := fun e he =>
    AList.mem_lookup_iff.mpr he
  have hnd : (s.streams.entries.map (·.2)).Nodup := by
    have hk : s.streams.entries.Nodup := s.streams.nodupKeys.nodup
    refine (List.nodup_map_iff_inj_on hk).mpr fun e he e' he' h => ?_
    have hid : e.1 = e'.1 := hv.entry_inj (hmem e he) (h ▸ hmem e' he')
    exact Sigma.ext hid (heq_of_eq h)
  have hiff : ∀ r, r ∈ s.streams.entries.map (·.2) ↔ s.streams.lookup (s.heap r).id = some r := by
    intro r
    rw [List.mem_map]
    constructor
    · rintro ⟨e, he, rfl⟩
      rw [(hv.entry (hmem e he)).2.1]
      exact hmem e he
    · exact fun h => ⟨⟨(s.heap r).id, r⟩, AList.mem_lookup_iff.mp h, rfl⟩
  rw [closeStreams, foldl_closeChan _ _ (fun e he => (hv.entry (hmem e he)).2.2) hnd]
  simp only [hiff]

theorem Valid.closeStreams (hv : s.Valid) {t : Teardown} (ht : s.closeOnce.pastQueue = t.pastQueue) :
    { s.closeStreams with closeOnce := t }.Valid := by
  rw [hv.closeStreams_eq]
  have hid : ∀ r, ((if s.streams.lookup (s.heap r).id = some r then (s.heap r).endedBy .sessionClose
      else s.heap r).id = (s.heap r).id) := fun r => by split <;> rfl
  refine ⟨fun h => by simp at h, fun {g r id} h => ?_, hv.queued, fun {r} h => hv.handed (r := r) ?_,
    hv.queue.trans ht⟩
  · dsimp only
    rw [hid]
    exact hv.works h
  · dsimp only at h
    split at h <;> exact h

theorem Valid.closeReturn (hv : s.Valid) {g : Gid} (why : Closer) : (s.closeReturn g why).Valid := by
  cases why with
  | pushTimeout => exact hv.goto fun h => nomatch h
  | acceptOverflow => exact hv.goto fun h => nomatch h
  | openFailed => exact hv.answer
  | streamClose r =>
    have h : (s.modify r ({ · with closeOnce := .done })).Valid := hv.modify rfl rfl fun h => hv.handed h
    exact h.answer

theorem Valid.acquire (hv : s.Valid) {g : Gid} {j : Job} (hg : s.pc g = .waitMu j) : (s.acquire g j).Valid := by
  have h : (s.goto g (.locked j)).Valid := hv.goto fun h => hv.works (g := g) (by rw [hg]; exact h)
  have h' : { s.goto g (.locked j) with writeMu := some g }.Valid :=
    ⟨h.entry, h.works, h.queued, h.handed, h.queue⟩
  cases j with
  | data r id data offset =>
    exact Valid.modify (f := fun st => { st with put := st.put ++ data }) h' rfl rfl fun h => hv.handed h
  | _ => exact h'

theorem Valid.beginWrite (hv : s.Valid) {g : Gid} {j : Job} (hg : s.pc g = .locked j) :
    (s.beginWrite g j).Valid := by
  have h : (s.goto g (.writing j)).Valid := hv.goto fun h => hv.works (g := g) (by rw [hg]; exact h)
  exact ⟨h.entry, h.works, h.queued, h.handed, h.queue⟩

theorem Valid.endWrite (hv : s.Valid) {g : Gid} {j : Job} (hg : s.pc g = .writing j) (ok : Bool) :
    (s.endWrite g j ok).Valid := by
  have hw : { s with writeFailed := s.writeFailed || !ok }.Valid :=
    ⟨hv.entry, hv.works, hv.queued, hv.handed, hv.queue⟩
  have hr : { s with writeFailed := s.writeFailed || !ok }.release.Valid :=
    ⟨hw.entry, hw.works, hw.queued, hw.handed, hw.queue⟩
  have hj : ∀ {r id}, j.stream = some (r, id) → r < s.fresh ∧ (s.heap r).id = id := fun h =>
    hv.works (g := g) (by rw [hg]; exact h)
  cases j with
  | openFrame r id targetPort =>
    cases ok with
    | true =>
      have hm := hr.modify (f := ({ · with handed := true })) (r := r) rfl rfl fun _ => (hj rfl).1
      exact hm.answer
    | false => exact hr.goto fun h => nomatch h
  | closeFrame id why => exact hr.closeReturn why
  | data r id data offset =>
    cases ok with
    | true => exact hw.goto hj
    | false => exact hr.answer
  | pong => exact hr.goto fun h => nomatch h
  | ping => exact hr.goto fun h => nomatch h

theorem Valid.giveUp (hv : s.Valid) {g : Gid} (j : Job) : (s.giveUp g j).Valid := by
  have hr : s.release.Valid := ⟨hv.entry, hv.works, hv.queued, hv.handed, hv.queue⟩
  cases j with
  | data r id data offset => exact hr.answer
  | _ => exact hr.goto fun h => nomatch h

@[simp] theorem closeDone_closeOnce (g : Gid) : (s.closeDone g).closeOnce = s.closeOnce := by
  cases g <;> rfl

theorem Valid.closeDone (hv : s.Valid) (g : Gid) : (s.closeDone g).Valid := by
  cases g with
  | app n => exact hv.answer
  | _ => exact hv.goto fun h => nomatch h

theorem Valid.dispatch (hv : s.Valid) (f : Frame) : (s.dispatch f).Valid := by
  have h : (s.heard f).Valid := ⟨hv.entry, hv.works, hv.queued, hv.handed, hv.queue⟩
  rcases s.dispatch_cases f with ⟨-, hs⟩ | ⟨r, -, hl, hs⟩ | ⟨r, -, hl, hs⟩ | ⟨-, hs⟩ | ⟨-, -, -, hs⟩
  all_goals rw [hs]
  · refine (h.enter _ _).goto fun hp => ?_
    simp only [Pc.stream, Option.some.injEq, Prod.mk.injEq] at hp
    obtain ⟨rfl, rfl⟩ := hp
    exact ⟨Nat.lt_succ_self _, congrArg Stream.id ((s.heard f).enter_self _ _)⟩
  · refine h.goto fun hp => ?_
    simp only [Pc.stream, Option.some.injEq, Prod.mk.injEq] at hp
    obtain ⟨rfl, rfl⟩ := hp
    exact ⟨(h.entry hl).1, (h.entry hl).2.1⟩
  · exact h.drop hl _
  · exact h.goto fun h => nomatch h
  · exact h

end Effects

/-- **Every step keeps the table valid.** -/
theorem Valid.step {s s' : Session} {a : Act} (hv : s.Valid) (h : s.step a = some s') : s'.Valid := by
  obtain ⟨-, ht⟩ := trans_of_step h
  cases ht with
  | openRefused => exact hv.answer
  | openStream => exact hv.register _ _
  | acceptEnded => exact hv.answer
  | @acceptStream g r c hg hrecv =>
    obtain ⟨hbuf, hc⟩ := Chan.recv_eq_value hrecv
    have hr : r < s.fresh := hv.queued (by simp [hbuf])
    have hm : (s.modify r ({ · with handed := true })).Valid := hv.modify rfl rfl fun _ => hr
    have hq : { s.modify r ({ · with handed := true }) with acceptChan := c }.Valid :=
      ⟨hm.entry, hm.works, fun h => hv.queued (by rw [hbuf]; exact List.mem_cons_of_mem _ h),
        hm.handed, (by rw [hc]; exact hv.queue)⟩
    exact hq.answer
  | writeRefused => exact hv.answer
  | write _ hh =>
    refine hv.goto fun h => ?_
    simp only [Pc.stream, Job.stream, Option.some.injEq, Prod.mk.injEq] at h
    obtain ⟨rfl, rfl⟩ := h
    exact ⟨hv.handed hh, rfl⟩
  | read _ hh hread =>
    obtain ⟨c, buf, got, rfl, hc, -⟩ := Stream.read_eq_some hread
    exact (hv.modify rfl hc fun _ => hv.handed hh).answer
  | closeStream _ hh => exact (hv.modify rfl rfl fun _ => hv.handed hh).goto fun h => nomatch h
  | closeStreamAgain => exact hv.answer
  | @close g _ ho =>
    have hg : (s.goto g .teardown).Valid := hv.goto fun h => nomatch h
    have hq : s.acceptChan.closed = false := by rw [hv.queue, ho]; rfl
    exact ⟨hg.entry, hg.works, hg.queued, hg.handed, hq⟩
  | closeAgain => exact hv.closeDone _
  | dropEntry hg hl => exact (hv.drop hl _).goto fun h => nomatch h
  | dropMissing => exact hv.closeReturn _
  | lock hg => exact hv.acquire hg
  | beginFrame hg => exact hv.beginWrite hg
  | endFrame hg => exact hv.endWrite hg _
  | unlock => exact hv.giveUp _
  | recv => exact hv.dispatch _
  | recvErr => exact hv.goto fun h => nomatch h
  | enqueuePanics => exact ⟨hv.entry, hv.works, hv.queued, hv.handed, hv.queue⟩
  | @enqueue r id c hg hsend =>
    obtain ⟨-, rfl⟩ := Chan.send_eq_sent hsend
    have hw : r < s.fresh := (hv.works (by rw [hg]; rfl)).1
    have hp := hv.goto (g := .readLoop) (p := .read) fun h => nomatch h
    refine ⟨hp.entry, hp.works, fun {r'} h => ?_, hp.handed, hp.queue⟩
    rcases List.mem_append.mp h with h | h
    · exact hv.queued h
    · exact (List.mem_singleton.mp h) ▸ hw
  | overflow => exact hv.goto fun h => nomatch h
  | pushPanics => exact ⟨hv.entry, hv.works, hv.queued, hv.handed, hv.queue⟩
  | push _ hsend =>
    obtain ⟨-, rfl⟩ := Chan.send_eq_sent hsend
    exact (hv.modify rfl rfl fun h => hv.handed h).goto fun h => nomatch h
  | timeout => exact hv.goto fun h => nomatch h
  | closeStreams _ ho => exact hv.closeStreams (by rw [ho]; rfl)
  | closeAccept _ ho =>
    have hopen : s.acceptChan.closed = false := by rw [hv.queue, ho]; rfl
    simp only [closeAccept, hopen]
    exact ⟨hv.entry, hv.works, hv.queued, hv.handed, rfl⟩
  | @closeConn g _ ho =>
    have hd := hv.closeDone g
    exact ⟨hd.entry, hd.works, hd.queued, hd.handed, by rw [hd.queue, closeDone_closeOnce, ho]; rfl⟩
  | tick => exact hv.goto fun h => nomatch h

/-! ### What most steps leave alone -/

/-- Nothing has changed that receiving data depends on. -/
structure Keeps (s s' : Session) : Prop where
  isServer : s'.isServer = s.isServer
  streams : s'.streams = s.streams
  fresh : s'.fresh = s.fresh
  rcvd : s'.rcvd = s.rcvd
  nextStreamID : s'.nextStreamID = s.nextStreamID
  opens : s'.opens = s.opens
  panic : s'.panic = s.panic
  acceptClosed : s'.acceptChan.closed = s.acceptChan.closed
  inbox : ∀ r, (s'.heap r).inbox = (s.heap r).inbox
  inHand : s'.inHand = s.inHand
  accepting : ∀ {r id}, s'.pc .readLoop = .accept r id → s.pc .readLoop = .accept r id
  givenUp : ∀ {id}, s.pc .readLoop = .closing id .pushTimeout →
    s'.pc .readLoop = .closing id .pushTimeout ∨ s.streams.lookup id = none

theorem Keeps.refl (s : Session) : s.Keeps s :=
  ⟨rfl, rfl, rfl, rfl, rfl, rfl, rfl, rfl, fun _ => rfl, rfl, id, .inl⟩

theorem Keeps.trans {s t u : Session} (h : s.Keeps t) (h' : t.Keeps u) : s.Keeps u where
  isServer := h'.isServer.trans h.isServer
  streams := h'.streams.trans h.streams
  fresh := h'.fresh.trans h.fresh
  rcvd := h'.rcvd.trans h.rcvd
  nextStreamID := h'.nextStreamID.trans h.nextStreamID
  opens := h'.opens.trans h.opens
  panic := h'.panic.trans h.panic
  acceptClosed := h'.acceptClosed.trans h.acceptClosed
  inbox r := (h'.inbox r).trans (h.inbox r)
  inHand := h'.inHand.trans h.inHand
  accepting hu := h.accepting (h'.accepting hu)
  givenUp hs := (h.givenUp hs).elim (fun ht => h.streams ▸ h'.givenUp ht) .inr

theorem Keeps.readChan {s s' : Session} (h : s.Keeps s') (r : Ref) :
    (s'.heap r).readChan = (s.heap r).readChan :=
  show (s'.heap r).inbox.readChan = (s.heap r).inbox.readChan by rw [h.inbox]

/-- The fields that are only about sending and closing. -/
theorem Keeps.set {s t : Session} {c : Chan Ref} {mu closed once conn ret sent failed} (h : s.Keeps t)
    (hc : c.closed = t.acceptChan.closed) :
    s.Keeps { t with
      acceptChan := c, writeMu := mu, closed := closed, closeOnce := once, connClosed := conn, ret := ret
      sent := sent, writeFailed := failed } where
  isServer := h.isServer
  streams := h.streams
  fresh := h.fresh
  rcvd := h.rcvd
  nextStreamID := h.nextStreamID
  opens := h.opens
  panic := h.panic
  acceptClosed := hc.trans h.acceptClosed
  inbox := h.inbox
  inHand := h.inHand
  accepting := h.accepting
  givenUp := h.givenUp

section

variable {s : Session} {g : Gid}

theorem accepting_goto {p : Pc} {r : Ref} {id : UInt32} (hp : p.Away)
    (h : (s.goto g p).pc .readLoop = .accept r id) : s.pc .readLoop = .accept r id := by
  by_cases hg : Gid.readLoop = g
  · subst hg
    rw [goto_self] at h
    exact (h ▸ hp : (Pc.accept _ _).Away).elim
  · exact (goto_of_ne p hg).symm.trans h

theorem Keeps.goto {p : Pc} (hs : (s.pc g).Still) (hp : p.Away) : s.Keeps (s.goto g p) where
  isServer := rfl
  streams := rfl
  fresh := rfl
  rcvd := rfl
  nextStreamID := rfl
  opens := rfl
  panic := rfl
  acceptClosed := rfl
  inbox _ := rfl
  inHand := by
    by_cases hg : Gid.readLoop = g
    · subst hg
      rw [Session.inHand, Session.inHand, goto_self]
      split <;> split <;> simp_all [Pc.Still, Pc.Away]
    · rw [Session.inHand, goto_of_ne p hg, Session.inHand]
  accepting := accepting_goto hp
  givenUp {id} h := by
    by_cases hg : Gid.readLoop = g
    · subst hg
      rw [h] at hs
      exact hs.elim
    · exact .inl ((goto_of_ne p hg).trans h)

/-- `closeStream` has nothing left to do for a stream that is not in the table. -/
theorem Keeps.goto_of_missing {id : UInt32} {why : Closer} {p : Pc} (hs : s.pc g = .closing id why)
    (hl : s.streams.lookup id = none) (hp : p.Away) : s.Keeps (s.goto g p) where
  isServer := rfl
  streams := rfl
  fresh := rfl
  rcvd := rfl
  nextStreamID := rfl
  opens := rfl
  panic := rfl
  acceptClosed := rfl
  inbox _ := rfl
  inHand := by
    by_cases hg : Gid.readLoop = g
    · subst hg
      rw [Session.inHand, Session.inHand, goto_self, hs]
      split <;> simp_all [Pc.Away]
    · rw [Session.inHand, goto_of_ne p hg, Session.inHand]
  accepting := accepting_goto hp
  givenUp {id'} h := by
    by_cases hg : Gid.readLoop = g
    · subst hg
      rw [hs, Pc.closing.injEq] at h
      exact .inr (h.1 ▸ hl)
    · exact .inl ((goto_of_ne p hg).trans h)

theorem Keeps.answer {v : Ret} (hs : (s.pc g).Still) : s.Keeps (s.answer g v) :=
  have h : s.Keeps (s.goto g .idle) := .goto hs trivial
  h.set rfl

theorem Keeps.modify {r : Ref} {f : Stream → Stream} (hf : (f (s.heap r)).inbox = (s.heap r).inbox) :
    s.Keeps (s.modify r f) where
  isServer := rfl
  streams := rfl
  fresh := rfl
  rcvd := rfl
  nextStreamID := rfl
  opens := rfl
  panic := rfl
  acceptClosed := rfl
  inbox r' := by
    by_cases hr : r' = r
    · subst hr
      rw [modify_self, hf]
    · rw [modify_of_ne f hr]
  inHand := rfl
  accepting := id
  givenUp := .inl

theorem Keeps.closeReturn {id : UInt32} {why : Closer} (hs : s.pc g = .closing id why)
    (hl : s.streams.lookup id = none) : s.Keeps (s.closeReturn g why) := by
  have hgo : s.Keeps (s.goto g .idle) := .goto_of_missing hs hl trivial
  cases why with
  | pushTimeout => exact .goto_of_missing hs hl trivial
  | acceptOverflow => exact .goto_of_missing hs hl trivial
  | openFailed =>
    exact hgo.set rfl
  | streamClose r =>
    have hm : s.Keeps (s.modify r ({ · with closeOnce := .done })) := .modify rfl
    have hgo' := hm.trans (.goto_of_missing (g := g) (p := .idle) hs hl trivial)
    exact hgo'.set rfl

theorem Keeps.closeReturn_of_still {why : Closer} (hs : (s.pc g).Still) : s.Keeps (s.closeReturn g why) := by
  cases why with
  | pushTimeout => exact .goto hs trivial
  | acceptOverflow => exact .goto hs trivial
  | openFailed => exact .answer hs
  | streamClose r =>
    have hm : s.Keeps (s.modify r ({ · with closeOnce := .done })) := .modify rfl
    exact hm.trans (.answer hs)

theorem Keeps.acquire {j : Job} (hs : (s.pc g).Still) : s.Keeps (s.acquire g j) := by
  have h : s.Keeps (s.goto g (.locked j)) := .goto hs trivial
  have h' : s.Keeps { s.goto g (.locked j) with writeMu := some g } :=
    h.set rfl
  cases j with
  | data r id data offset => exact h'.trans (.modify (r := r) (f := fun st => { st with put := st.put ++ data }) rfl)
  | _ => exact h'

theorem Keeps.beginWrite {j : Job} (hs : (s.pc g).Still) : s.Keeps (s.beginWrite g j) :=
  have h : s.Keeps (s.goto g (.writing j)) := .goto hs trivial
  h.set rfl

theorem Keeps.endWrite {j : Job} {ok : Bool} (hs : (s.pc g).Still) : s.Keeps (s.endWrite g j ok) := by
  have hw : s.Keeps { s with writeFailed := s.writeFailed || !ok } :=
    (Keeps.refl s).set rfl
  have hr : s.Keeps { s with writeFailed := s.writeFailed || !ok }.release :=
    (Keeps.refl s).set rfl
  cases j with
  | openFrame r id targetPort =>
    cases ok with
    | true =>
      have hm := hr.trans (.modify (r := r) (f := ({ · with handed := true })) rfl)
      exact hm.trans (.answer hs)
    | false => exact hr.trans (.goto hs trivial)
  | closeFrame id why => exact hr.trans (.closeReturn_of_still hs)
  | data r id data offset =>
    cases ok with
    | true => exact hw.trans (.goto hs trivial)
    | false => exact hr.trans (.answer hs)
  | pong => exact hr.trans (.goto hs trivial)
  | ping => exact hr.trans (.goto hs trivial)

theorem Keeps.giveUp {j : Job} (hs : (s.pc g).Still) : s.Keeps (s.giveUp g j) := by
  have hr : s.Keeps s.release := (Keeps.refl s).set rfl
  cases j with
  | data r id data offset => exact hr.trans (.answer hs)
  | _ => exact hr.trans (.goto hs trivial)

theorem Keeps.closeDone (hs : (s.pc g).Still) : s.Keeps (s.closeDone g) := by
  cases g with
  | app n => exact .answer hs
  | _ => exact .goto hs trivial

end

section

variable {s : Session}

theorem inHand_eq_some {r : Ref} {payload : List UInt8} :
    s.inHand = some (r, payload) ↔ ∃ id, s.pc .readLoop = .push r id payload := by
  unfold inHand
  split
  · rename_i r' id payload' h
    simp [h]
  · rename_i h
    simp only [reduceCtorEq, false_iff, not_exists]
    exact fun id => h r id payload

theorem inHand_goto {g : Gid} {p : Pc} {x : Ref × List UInt8} (hp : p.Away)
    (h : (s.goto g p).inHand = some x) : g ≠ .readLoop ∧ s.inHand = some x := by
  obtain ⟨id, h⟩ := inHand_eq_some.mp h
  by_cases hg : Gid.readLoop = g
  · subst hg
    rw [goto_self] at h
    exact (h ▸ hp : (Pc.push _ _ _).Away).elim
  · rw [goto_of_ne p hg] at h
    exact ⟨Ne.symm hg, inHand_eq_some.mpr ⟨id, h⟩⟩

/-- The stream whose chunk `readLoop` has in hand is one made earlier. -/
theorem Valid.inHand_lt (hv : s.Valid) {r : Ref} {payload : List UInt8} (h : s.inHand = some (r, payload)) :
    r < s.fresh := by
  obtain ⟨id, h⟩ := inHand_eq_some.mp h
  exact (hv.works (g := .readLoop) (by rw [h]; rfl)).1

end

/-- **What a step does to the receiving half**: nothing, or one of these. -/
inductive Receives (s : Session) : Act → Session → Prop
  | keeps {a s'} : s.Keeps s' → Receives s a s'
  | openStream {g targetPort} : s.pc g = .idle → Receives s (.openStream g targetPort) (s.register g targetPort)
  | read {g r n ret st} : s.pc g = .idle → (s.heap r).handed = true → (s.heap r).read n = some (ret, st) →
      Receives s (.read g r n) ((s.modify r fun _ => st).answer g ret)
  | dropEntry {g id why r} : s.pc g = .closing id why → s.streams.lookup id = some r →
      Receives s (.dropEntry g) ((s.drop id r (.closeStream why)).goto g (.waitMu (.closeFrame id why)))
  | recv {f} : s.pc .readLoop = .read → Receives s (.recv f) (s.dispatch f)
  | enqueuePanics {r id} : s.pc .readLoop = .accept r id → s.acceptChan.closed = true →
      Receives s .enqueue { s with panic := some .sendOnClosed }
  | pushPanics {r id payload} : s.pc .readLoop = .push r id payload → (s.heap r).readChan.closed = true →
      Receives s .push { s with panic := some .sendOnClosed }
  | push {r id payload c} : s.pc .readLoop = .push r id payload → (s.heap r).readChan.send payload = .sent c →
      Receives s .push ((s.modify r ({ · with readChan := c })).goto .readLoop .read)
  | timeout {r id payload} : s.pc .readLoop = .push r id payload →
      Receives s .timeout (s.goto .readLoop (.closing id .pushTimeout))
  | closeStreams {g} : s.pc g = .teardown → s.closeOnce = .table →
      Receives s (.closeStreams g) { s.closeStreams with closeOnce := .queue }
  | closeAccept {g} : s.pc g = .teardown → s.closeOnce = .queue →
      Receives s (.closeAccept g) { s with acceptChan := s.acceptChan.close, closeOnce := .conn }

theorem Trans.receives {s s' : Session} {a : Act} (hv : s.Valid) (h : s.Trans a s') : s.Receives a s' := by
  have still : ∀ {g p}, s.pc g = p → p.Still → (s.pc g).Still := fun h hp => h ▸ hp
  cases h with
  | openRefused hg => exact .keeps (.answer (still hg trivial))
  | openStream hg => exact .openStream hg
  | acceptEnded hg => exact .keeps (.answer (still hg trivial))
  | @acceptStream g r c hg hrecv =>
    have hm : s.Keeps (s.modify r ({ · with handed := true })) := .modify rfl
    have hk := hm.trans (.answer (g := g) (v := .accepted (some r)) (still hg trivial))
    exact .keeps (hk.set (by rw [(Chan.recv_eq_value hrecv).2]; rfl))
  | writeRefused hg => exact .keeps (.answer (still hg trivial))
  | write hg => exact .keeps (.goto (still hg trivial) trivial)
  | read hg hh hread => exact .read hg hh hread
  | closeStream hg =>
    exact .keeps (.trans (.modify rfl) (.goto (still hg trivial) trivial))
  | closeStreamAgain hg => exact .keeps (.answer (still hg trivial))
  | @close g hg =>
    have hk : s.Keeps (s.goto g .teardown) := .goto (hg.elim (still · trivial) (still · trivial)) trivial
    exact .keeps (hk.set rfl)
  | closeAgain hg => exact .keeps (.closeDone (hg.elim (still · trivial) (still · trivial)))
  | dropEntry hg hl => exact .dropEntry hg hl
  | dropMissing hg hl => exact .keeps (.closeReturn hg hl)
  | lock hg => exact .keeps (.acquire (still hg trivial))
  | beginFrame hg => exact .keeps (.beginWrite (still hg trivial))
  | endFrame hg => exact .keeps (.endWrite (still hg trivial))
  | unlock hg => exact .keeps (.giveUp (still hg trivial))
  | recv hg => exact .recv hg
  | recvErr hg => exact .keeps (.goto (still hg trivial) trivial)
  | enqueuePanics hg hc => exact .enqueuePanics hg hc
  | enqueue hg hsend =>
    have hk : s.Keeps (s.goto .readLoop .read) := .goto (still hg trivial) trivial
    exact .keeps (hk.set (by rw [(Chan.send_eq_sent hsend).2]; rfl))
  | overflow hg => exact .keeps (.goto (still hg trivial) trivial)
  | pushPanics hg hc => exact .pushPanics hg hc
  | push hg hc => exact .push hg hc
  | timeout hg => exact .timeout hg
  | closeStreams hg ho => exact .closeStreams hg ho
  | closeAccept hg ho =>
    have hopen : s.acceptChan.closed = false := by rw [hv.queue, ho]; rfl
    simpa [Session.closeAccept, hopen] using Receives.closeAccept hg ho
  | @closeConn g hg =>
    have hk : s.Keeps (s.closeDone g) := .closeDone (still hg trivial)
    exact .keeps (hk.set rfl)
  | tick hg => exact .keeps (.goto (still hg trivial) trivial)

/-- A step does not close a closed channel. -/
theorem Valid.step_panic {s s' : Session} {a : Act} (hv : s.Valid) (h : s.step a = some s') :
    s'.panic ≠ some .closeOfClosed := by
  obtain ⟨hpanic, ht⟩ := trans_of_step h
  have hs : s.panic ≠ some .closeOfClosed := fun hp => nomatch hpanic.symm.trans hp
  cases ht.receives hv with
  | keeps hk => exact hk.panic ▸ hs
  | openStream => exact hs
  | read => exact hs
  | dropEntry _ hl =>
    rw [hv.drop_eq hl]
    exact hs
  | @recv f =>
    have hv' : (s.heard f).Valid := ⟨hv.entry, hv.works, hv.queued, hv.handed, hv.queue⟩
    rcases s.dispatch_cases f with ⟨-, hf⟩ | ⟨r, -, hl, hf⟩ | ⟨r, -, hl, hf⟩ | ⟨-, hf⟩ | ⟨-, -, -, hf⟩
    all_goals rw [hf]
    · exact hs
    · exact hs
    · rw [hv'.drop_eq hl]
      exact hs
    · exact hs
    · exact hs
  | enqueuePanics => exact fun h => nomatch h
  | pushPanics => exact fun h => nomatch h
  | push => exact hs
  | timeout => exact hs
  | closeStreams =>
    rw [hv.closeStreams_eq]
    exact hs
  | closeAccept => exact hs

/-- **Every state of every run is valid, and no channel is closed twice.** -/
theorem exec_newSession_valid {isServer : Bool} {as : List Act} {s : Session}
    (h : exec step (newSession isServer) as = some s) : s.Valid ∧ s.panic ≠ some .closeOfClosed :=
  exec_inv (I := fun s => s.Valid ∧ s.panic ≠ some .closeOfClosed)
    (fun _ _ _ hs h => ⟨hs.1.step h, hs.1.step_panic h⟩) ⟨newSession_valid isServer, by simp [newSession]⟩ h

end Session

end Hawal.Mux
